import OpenNos.Lib.RegFile
import OpenNos.Sdk.SerdesAccess

/-! The WARPcore accessors as a register file. Whatever block, lane and clause 45 address
earlier calls have left selected, a call that meets no failure reads and writes the
register that its caller names and no other. -/

namespace OpenNos.Sdk

open RegProg RegFile

/-- The registers behind the selection registers of the PHYs. -/
abbrev PhyRegs := PhyAddr × Target → BitVec 16

/-- PHYs whose registers keep what is written to them. -/
def plainRegs : PhyCore PhyRegs where
  read regs _ phy target := (regs (phy, target), regs)
  write regs phy target data := Function.update regs (phy, target) data

/-- A call of one of the accessors. -/
inductive WcCall
  | read (phy : PhyAddr) (lane : BitVec 2) (addr : BitVec 16)
  | write (phy : PhyAddr) (lane : BitVec 2) (addr val : BitVec 16)
  | cl45Read (phy : PhyAddr) (devad : BitVec 5) (reg : BitVec 16)

namespace WcCall

/-- The call, with the value a read delivers. -/
def run : WcCall → Serdes (Rc (Option (BitVec 16)))
  | .read phy lane addr => do
    let rc ← wcRead phy lane addr
    return rc.map some
  | .write phy lane addr val => do
    let rc ← wcWrite phy lane addr val
    return rc.map fun _ => none
  | .cl45Read phy devad reg => do
    let rc ← wcCl45Read phy devad reg
    return rc.map some

/-- The low nibble is not 0xF and the block is not 0xFFD0. -/
def Addressed : WcCall → Prop
  | .read _ _ addr | .write _ _ addr _ => addr &&& 0xf ≠ 0xf ∧ addr &&& 0xfff0 ≠ 0xffd0
  | .cl45Read _ _ _ => True

/-- The register the caller names. -/
def op : WcCall → Op (PhyAddr × Target) (BitVec 16)
  | .read phy lane addr => .get (phy, .wc (lane.setWidth 16) addr)
  | .write phy lane addr val => .put (phy, .wc (lane.setWidth 16) addr) val
  | .cl45Read phy devad reg => .get (phy, .mmd 0 devad reg)

end WcCall

/-- One call after another. -/
def wcCalls : List WcCall → Serdes (List (Rc (Option (BitVec 16))))
  | [] => pure []
  | c :: rest => do
    let rc ← c.run
    let rcs ← wcCalls rest
    return rc :: rcs

theorem isPlain_of_addressed {addr : BitVec 16} (hnibble : addr &&& 0xf ≠ 0xf)
    (hblock : addr &&& 0xfff0 ≠ 0xffd0) : isPlain addr := by
  have hlow : addr.setWidth 4 ≠ (0xf : BitVec 4) := by
    intro h
    refine hnibble ?_
    have hand : addr &&& 0xf = (addr.setWidth 4).setWidth 16 := by
      ext i hi
      simp
      interval_cases i <;> simp
    rw [hand, h]
    rfl
  have hne : addr ≠ 0xffde := by
    rintro rfl
    exact hblock (by decide)
  rw [isPlain, bne_iff_ne.mpr hlow, bne_iff_ne.mpr hne, Bool.and_self]

variable {delay : ℕ → ℕ} (hok : ∀ n, ¬ Fails delay n)

include hok

theorem accessView_ok {κ α : Type} (act : κ → ℕ → α × κ) (v : PhyView κ) :
    accessView delay act v = (.ok (act v.1 (v.2 + 3)).1, ((act v.1 (v.2 + 3)).2, v.2 + 4)) := by
  have haccess : AccessOk delay v.2 := ⟨hok _, hok _, hok _, hok _⟩
  have hafter : afterAccess delay v.2 = v.2 + 4 := by
    simp only [afterAccess, if_neg (hok _)]
  rw [accessView, if_pos haccess, hafter]

/-- A call does to the registers what an access to the one it names does. -/
theorem actsAs_call {c : WcCall} (hc : c.Addressed) :
    ActsAs (miimDev plainRegs delay) (fun s => s.bus.core) c.run
      (fun regs => (.ok (c.op.answer regs), c.op.apply regs)) := by
  cases c with
  | read phy lane addr =>
    have hrun : OnCore plainRegs delay (WcCall.read phy lane addr).run _ :=
      (onCore_wcRead lane (isPlain_of_addressed hc.1 hc.2)).bind fun rc => actsAs_pure _
    refine hrun.coarsen Prod.fst fun v => ?_
    rw [readView, accessView_ok hok]
    rfl
  | write phy lane addr val =>
    have hrun : OnCore plainRegs delay (WcCall.write phy lane addr val).run _ :=
      (onCore_wcWrite lane (isPlain_of_addressed hc.1 hc.2) val).bind fun rc => actsAs_pure _
    refine hrun.coarsen Prod.fst fun v => ?_
    rw [writeView, accessView_ok hok]
    rfl
  | cl45Read phy devad reg =>
    have hrun : OnCore plainRegs delay (WcCall.cl45Read phy devad reg).run _ :=
      (onCore_wcCl45Read hok phy devad reg).bind fun rc => actsAs_pure _
    exact hrun.coarsen Prod.fst fun _ => rfl

theorem actsAs_wcCalls {calls : List WcCall} (hcalls : ∀ c ∈ calls, c.Addressed) :
    ActsAs (miimDev plainRegs delay) (fun s => s.bus.core) (wcCalls calls) (fun regs =>
      ((answers regs (calls.map WcCall.op)).map .ok, after regs (calls.map WcCall.op))) := by
  induction calls with
  | nil => exact actsAs_pure _
  | cons c rest ih =>
    obtain ⟨hc, hrest⟩ := List.forall_mem_cons.mp hcalls
    exact (actsAs_call hok hc).bind fun rc => (ih hrest).bind fun rcs => actsAs_pure (rc :: rcs)

/-- From any selection the calls behave as a register file: a read returns what was last
written to its register, and each register holds what was last written to it. -/
theorem wcCalls_registerFile {calls : List WcCall} (hcalls : ∀ c ∈ calls, c.Addressed)
    (s : MiimDev PhyRegs) :
    (∀ before c rest, calls = before ++ c :: rest →
      (runAlone (miimDev plainRegs delay) (wcCalls calls) s).1[before.length]? =
        some (.ok (c.op.answer fun k =>
          (lastPut (before.map WcCall.op) k).getD (s.bus.core k)))) ∧
    ∀ k, (runAlone (miimDev plainRegs delay) (wcCalls calls) s).2.bus.core k =
      (lastPut (calls.map WcCall.op) k).getD (s.bus.core k) := by
  have hrun := actsAs_wcCalls hok hcalls
  constructor
  · rintro before c rest rfl
    have hregs : after s.bus.core (before.map WcCall.op) =
        fun k => (lastPut (before.map WcCall.op) k).getD (s.bus.core k) :=
      funext fun k => after_eq s.bus.core (before.map WcCall.op) k
    have hanswer := answers_split s.bus.core (before.map WcCall.op) (rest.map WcCall.op) c.op
    rw [List.length_map] at hanswer
    rw [hrun.result s, List.getElem?_map, List.map_append, List.map_cons, hanswer, hregs]
    rfl
  · intro k
    exact (congrFun (hrun.state s) k).trans (after_eq s.bus.core (calls.map WcCall.op) k)

omit hok

/-- Two lanes of a PHY with a clause 45 read between them. -/
def twoLanes : List WcCall :=
  [.write ⟨1, 31⟩ 1 0x8308 0x1209, .cl45Read ⟨1, 31⟩ 3 1, .read ⟨1, 31⟩ 1 0x8308]

theorem wcCalls_registerFile_lanes :
    (runAlone (miimDev plainRegs fun _ => 0) (wcCalls twoLanes) (idleDev (fun _ => 0) 0)).1[2]? =
      some (.ok (some 0x1209)) := by
  have haddressed : ∀ c ∈ twoLanes, c.Addressed := by
    simp [twoLanes, WcCall.Addressed]
  exact (wcCalls_registerFile (fun _ => Nat.not_succ_le_zero _) haddressed _).1
    [.write ⟨1, 31⟩ 1 0x8308 0x1209, .cl45Read ⟨1, 31⟩ 3 1] (.read ⟨1, 31⟩ 1 0x8308) [] rfl

end OpenNos.Sdk
