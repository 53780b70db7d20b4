import OpenNos.Sdk.MiimDevice
import OpenNos.Sdk.SerdesIsolation

/-! One access to a WARPcore register on the device. An access selects block and lane
before it makes its last transaction, so it starts from any selection and reaches the
register its caller names; when one of its four transactions fails it ends there and
leaves the registers as they are. What an access does depends on the registers and on
the number of its first transaction alone. -/

namespace OpenNos.Sdk

open Bits RegProg Bde

variable {κ : Type} (C : PhyCore κ) (delay : ℕ → ℕ)

/-- The four transactions of an access from the `n`th on are all done. -/
def AccessOk (n : ℕ) : Prop :=
  ¬ Fails delay n ∧ ¬ Fails delay (n + 1) ∧ ¬ Fails delay (n + 2) ∧ ¬ Fails delay (n + 3)

instance (n : ℕ) : Decidable (AccessOk delay n) := inferInstanceAs (Decidable (_ ∧ _))

/-- The first transaction after an access. -/
def afterAccess (n : ℕ) : ℕ :=
  if Fails delay n then n + 1
  else if Fails delay (n + 1) then n + 2
  else if Fails delay (n + 2) then n + 3
  else n + 4

/-- The first transaction of the `k`th access from the `n`th transaction on. -/
def accessStart (n k : ℕ) : ℕ := (afterAccess delay)^[k] n

/-- The registers, and the number of transactions. -/
abbrev PhyView (κ : Type) := κ × ℕ

def PhyBus.view (b : PhyBus κ) : PhyView κ := (b.core, b.count)

def MiimDev.view (s : MiimDev κ) : PhyView κ := s.bus.view

/-- An idle engine before its `n`th transaction. -/
def idleDev (core : κ) (n : ℕ) : MiimDev κ where
  reg := fun _ => 0
  bus := ⟨fun _ => ⟨0, 0, 0, fun _ => 0⟩, core, n⟩
  work := none

/-- What an access does whose last transaction acts on the registers. -/
def accessView {α : Type} (act : κ → ℕ → α × κ) (v : PhyView κ) : Rc α × PhyView κ :=
  if AccessOk delay v.2 then
    (.ok (act v.1 (v.2 + 3)).1, ((act v.1 (v.2 + 3)).2, afterAccess delay v.2))
  else (.error .eio, (v.1, afterAccess delay v.2))

/-- What `wc_read` returns and does. -/
def readView (phy : PhyAddr) (lane : BitVec 2) (addr : BitVec 16) :
    PhyView κ → Rc (BitVec 16) × PhyView κ :=
  accessView delay fun core n => C.read core n phy (.wc (lane.setWidth 16) addr)

/-- What `wc_write` does, and whether it returns 0. -/
def writeView (phy : PhyAddr) (lane : BitVec 2) (addr val : BitVec 16) :
    PhyView κ → Rc Unit × PhyView κ :=
  accessView delay fun core _ => ((), C.write core phy (.wc (lane.setWidth 16) addr) val)

/-- What a program returns and does to the registers depends on them and on the number of
transactions alone. -/
abbrev OnCore {α : Type} (p : Serdes α) (f : PhyView κ → α × PhyView κ) : Prop :=
  ActsAs (miimDev C delay) MiimDev.view p f

variable {C delay} {b : PhyBus κ} {phy : PhyAddr}

theorem accessStart_add (n j k : ℕ) :
    accessStart delay n (j + k) = accessStart delay (accessStart delay n j) k := by
  rw [accessStart, Nat.add_comm, Function.iterate_add_apply]
  rfl

theorem accessStart_succ (n k : ℕ) :
    accessStart delay n (k + 1) = afterAccess delay (accessStart delay n k) :=
  accessStart_add n k 1

/-! ### The selection -/

/-- The bus after a write to a selection register. -/
def PhyBus.selected (b : PhyBus κ) (phy : PhyAddr) (sel : Select) : PhyBus κ :=
  { b with select := Function.update b.select phy sel, count := b.count + 1 }

@[simp] theorem selected_select (b : PhyBus κ) (phy : PhyAddr) (sel : Select) :
    (b.selected phy sel).select phy = sel := Function.update_self _ _ _

@[simp] theorem selected_count (b : PhyBus κ) (phy : PhyAddr) (sel : Select) :
    (b.selected phy sel).count = b.count + 1 := rfl

@[simp] theorem selected_core (b : PhyBus κ) (phy : PhyAddr) (sel : Select) :
    (b.selected phy sel).core = b.core := rfl

theorem miimWrite_selection {reg : BitVec 5} {target : Target} {v : BitVec 16}
    (hreach : (b.select phy).resolve reg = target) (hget : (b.select phy).get target = some v)
    (data : BitVec 16) : b.miimWrite C delay phy reg data =
      if Fails delay b.count then (.error .eio, b.tick)
      else (.ok (), b.selected phy ((b.select phy).write target data)) := by
  unfold PhyBus.miimWrite PhyBus.reaches
  rw [hreach]
  split_ifs with hf
  · rfl
  · simp only [PhyBus.writeTarget, PhyBus.tick, hget]
    rfl

theorem onBus_ifOk {α : Type} {p : Serdes (Rc Unit)} {q : Serdes (Rc α)}
    {f : PhyBus κ → Rc Unit × PhyBus κ} {g : PhyBus κ → Rc α × PhyBus κ} (hp : OnBus C delay p f)
    (hq : OnBus C delay q g) : OnBus C delay (ifOk p q) (fun b =>
      if (f b).1.isOk then g (f b).2 else (.error .eio, (f b).2)) := by
  refine hp.bind (g := fun rc b => if rc.isOk then g b else (.error .eio, b)) fun rc s => ?_
  cases rc with
  | error e => rfl
  | ok a => exact hq s

/-- The bus after each of the three writes that select a lane and a block. -/
def PhyBus.broadcast (b : PhyBus κ) (phy : PhyAddr) : PhyBus κ :=
  b.selected phy ((b.select phy).write .aerBlk WC_AER_BROADCAST)

def PhyBus.laneSelected (b : PhyBus κ) (phy : PhyAddr) (lane : BitVec 16) : PhyBus κ :=
  (b.broadcast phy).selected phy (((b.broadcast phy).select phy).write .aerLane lane)

def PhyBus.blockSelected (b : PhyBus κ) (phy : PhyAddr) (lane blk : BitVec 16) : PhyBus κ :=
  (b.laneSelected phy lane).selected phy
    (((b.laneSelected phy lane).select phy).write .aerBlk blk)

theorem miimWrite_broadcast (b : PhyBus κ) (phy : PhyAddr) :
    b.miimWrite C delay phy (WC_REG_AER_BLK.setWidth 5) WC_AER_BROADCAST =
      if Fails delay b.count then (.error .eio, b.tick) else (.ok (), b.broadcast phy) :=
  miimWrite_selection (resolve_aerBlk _) rfl _

theorem miimWrite_lane (b : PhyBus κ) (phy : PhyAddr) (lane : BitVec 16) :
    (b.broadcast phy).miimWrite C delay phy (WC_REG_AER_LANE.setWidth 5) lane =
      if Fails delay (b.count + 1) then (.error .eio, (b.broadcast phy).tick)
      else (.ok (), b.laneSelected phy lane) := by
  refine miimWrite_selection (resolve_aerLane _ ?_) rfl _
  simp [PhyBus.broadcast, Select.write, Select.get]

theorem miimWrite_block (b : PhyBus κ) (phy : PhyAddr) (lane blk : BitVec 16) :
    (b.laneSelected phy lane).miimWrite C delay phy (WC_REG_AER_BLK.setWidth 5) blk =
      if Fails delay (b.count + 2) then (.error .eio, (b.laneSelected phy lane).tick)
      else (.ok (), b.blockSelected phy lane blk) :=
  miimWrite_selection (resolve_aerBlk _) rfl _

/-- The stages of an access; each failure ends it. -/
theorem onBus_wcAccess {α : Type} {last : Serdes (Rc α)} {g : PhyBus κ → Rc α × PhyBus κ}
    (lane : BitVec 2) (addr : BitVec 16) (hlast : OnBus C delay last g) :
    OnBus C delay (wcAccess phy lane addr last) (fun b =>
      if Fails delay b.count then (.error .eio, b.tick)
      else if Fails delay (b.count + 1) then (.error .eio, (b.broadcast phy).tick)
      else if Fails delay (b.count + 2) then
        (.error .eio, (b.laneSelected phy (lane.setWidth 16)).tick)
      else g (b.blockSelected phy (lane.setWidth 16) (addr &&& 0xfff0))) := by
  have hmask : lane.setWidth 16 &&& 3 = (lane.setWidth 16 : BitVec 16) := by
    revert lane
    decide
  have hrun := (onBus_ifOk
    (onBus_miimWriteTo (C := C) phy .aerBlk [.aerBlk] WC_REG_AER_BLK WC_AER_BROADCAST) (onBus_ifOk
      (onBus_miimWriteTo phy .aerLane [.aerLane] WC_REG_AER_LANE (lane.setWidth 16 &&& 3))
      (onBus_ifOk
        (onBus_miimWriteTo phy .aerBlk [.aerBlk, .aerLane] WC_REG_AER_BLK (addr &&& 0xfff0))
        hlast))).bind fun rc => (onBus_mark .ended).bind fun _ => actsAs_pure rc
  intro s
  refine Eq.trans ?_ (hrun s)
  simp only [miimWrite_broadcast, hmask]
  by_cases hf₁ : Fails delay s.bus.count
  · simp only [if_pos hf₁]
    rfl
  · simp only [if_neg hf₁, Except.isOk, Except.toBool, if_pos, miimWrite_lane]
    by_cases hf₂ : Fails delay (s.bus.count + 1)
    · simp only [if_pos hf₂]
      rfl
    · simp only [if_neg hf₂, if_pos, miimWrite_block]
      by_cases hf₃ : Fails delay (s.bus.count + 2)
      · simp only [if_pos hf₃]
        rfl
      · simp only [if_neg hf₃, if_pos]

theorem blockSelected_reaches (b : PhyBus κ) (phy : PhyAddr) (lane : BitVec 16)
    {addr : BitVec 16} (haddr : isPlain addr) :
    (b.blockSelected phy lane (addr &&& 0xfff0)).reaches phy ((wcReg addr).setWidth 5) =
      .wc lane addr := by
  refine resolve_wc _ haddr ?_ ?_ <;>
  simp [PhyBus.blockSelected, PhyBus.laneSelected, Select.write, Select.get]

/-- An access whose last transaction acts on the registers. -/
theorem onCore_wcAccess {α : Type} {last : Serdes (Rc α)} {g : PhyBus κ → Rc α × PhyBus κ}
    {act : κ → ℕ → α × κ} {lane : BitVec 2} {addr : BitVec 16} (hlast : OnBus C delay last g)
    (hg : ∀ b : PhyBus κ, ((g (b.blockSelected phy (lane.setWidth 16) (addr &&& 0xfff0))).1,
        (g (b.blockSelected phy (lane.setWidth 16) (addr &&& 0xfff0))).2.view) =
      if Fails delay (b.count + 3) then (.error .eio, (b.core, b.count + 4))
      else (.ok (act b.core (b.count + 3)).1, ((act b.core (b.count + 3)).2, b.count + 4))) :
    OnCore C delay (wcAccess phy lane addr last) (accessView delay act) := by
  refine (onBus_wcAccess lane addr hlast).coarsen PhyBus.view fun b => ?_
  have hlast := hg b
  simp only [PhyBus.view] at hlast
  simp only [accessView, AccessOk, afterAccess, PhyBus.view]
  by_cases hf₁ : Fails delay b.count
  · simp only [hf₁, not_true, false_and, if_false, if_true]
    rfl
  by_cases hf₂ : Fails delay (b.count + 1)
  · simp only [hf₁, hf₂, not_true, false_and, and_false, if_false, if_true]
    rfl
  by_cases hf₃ : Fails delay (b.count + 2)
  · simp only [hf₁, hf₂, hf₃, not_true, false_and, and_false, if_false, if_true]
    rfl
  simp only [hf₁, hf₂, hf₃, not_false_iff, true_and, if_false, hlast, ite_not]

theorem blockSelected_count (b : PhyBus κ) (phy : PhyAddr) (lane blk : BitVec 16) :
    (b.blockSelected phy lane blk).count = b.count + 3 := rfl

theorem onCore_wcRead (lane : BitVec 2) {addr : BitVec 16} (haddr : isPlain addr) :
    OnCore C delay (wcRead phy lane addr) (readView C delay phy lane addr) := by
  refine onCore_wcAccess (onBus_miimReadFrom _ _ _) fun b => ?_
  simp only [PhyBus.miimRead, blockSelected_reaches b phy _ haddr, blockSelected_count]
  split_ifs with hf
  · rfl
  · rfl

theorem onCore_wcWrite (lane : BitVec 2) {addr : BitVec 16} (haddr : isPlain addr)
    (val : BitVec 16) :
    OnCore C delay (wcWrite phy lane addr val) (writeView C delay phy lane addr val) := by
  refine onCore_wcAccess (onBus_miimWriteTo _ _ _ _ _) fun b => ?_
  simp only [PhyBus.miimWrite, blockSelected_reaches b phy _ haddr, blockSelected_count]
  split_ifs with hf
  · rfl
  · rfl

/-! ### Clause 45 -/

/-- The selection a clause 45 read leaves: always lane 0. -/
def PhyBus.mmdSelected (b : PhyBus κ) (phy : PhyAddr) (devad : BitVec 5) (reg : BitVec 16) :
    PhyBus κ :=
  let b := b.blockSelected phy 0 0
  let b := b.selected phy ((b.select phy).write .mmdCtrl (devad.setWidth 16))
  let b := b.selected phy ((b.select phy).write (.mmdAddr devad) reg)
  b.selected phy ((b.select phy).write .mmdCtrl (0x4000 ||| devad.setWidth 16))

theorem mmdSelected_reaches (b : PhyBus κ) (phy : PhyAddr) (devad : BitVec 5)
    (reg : BitVec 16) :
    (b.mmdSelected phy devad reg).reaches phy ((14 : BitVec 32).setWidth 5) = .mmd 0 devad reg := by
  refine resolve_mmd _ ?_ ?_ ?_ <;>
  simp [PhyBus.mmdSelected, PhyBus.blockSelected, PhyBus.laneSelected, Select.write, Select.get]

section FaultFree

variable (hok : ∀ n, ¬ Fails delay n)

include hok

/-- Without failures a selection register is simply written. -/
theorem miimWrite_selected {reg : BitVec 5} {target : Target} {v : BitVec 16}
    (hreach : (b.select phy).resolve reg = target) (hget : (b.select phy).get target = some v)
    (data : BitVec 16) : (b.miimWrite C delay phy reg data).2 =
      b.selected phy ((b.select phy).write target data) := by
  rw [miimWrite_selection hreach hget, if_neg (hok _)]

theorem onCore_wcCl45Read (phy : PhyAddr) (devad : BitVec 5) (reg : BitVec 16) :
    OnCore C delay (wcCl45Read phy devad reg) (fun v =>
      (.ok (C.read v.1 (v.2 + 6) phy (.mmd 0 devad reg)).1,
        ((C.read v.1 (v.2 + 6) phy (.mmd 0 devad reg)).2, v.2 + 7))) := by
  have hrun : OnBus C delay (wcCl45Read phy devad reg) _ :=
    (onBus_miimWriteTo phy _ _ _ _).bind fun _ => (onBus_miimWriteTo phy _ _ _ _).bind fun _ =>
    (onBus_miimWriteTo phy _ _ _ _).bind fun _ => (onBus_miimWriteTo phy _ _ _ _).bind fun _ =>
    (onBus_miimWriteTo phy _ _ _ _).bind fun _ => (onBus_miimWriteTo phy _ _ _ _).bind fun _ =>
    (onBus_miimReadFrom phy _ _).bind fun rc => (onBus_mark .ended).bind fun _ => actsAs_pure rc
  refine hrun.coarsen PhyBus.view fun b => ?_
  have hselect : (((((((b.miimWrite C delay phy (WC_REG_AER_BLK.setWidth 5)
      WC_AER_BROADCAST).2.miimWrite C delay phy (WC_REG_AER_LANE.setWidth 5) 0).2.miimWrite C delay
      phy (WC_REG_AER_BLK.setWidth 5) 0).2.miimWrite C delay phy ((13 : BitVec 32).setWidth 5)
      (devad.setWidth 16)).2.miimWrite C delay phy ((14 : BitVec 32).setWidth 5) reg).2).miimWrite
      C delay phy ((13 : BitVec 32).setWidth 5) (0x4000 ||| devad.setWidth 16)).2 =
      b.mmdSelected phy devad reg := by
    rw [miimWrite_broadcast, if_neg (hok _), miimWrite_lane, if_neg (hok _), miimWrite_block,
      if_neg (hok _), miimWrite_selected hok (resolve_mmdCtrl _) rfl,
      miimWrite_selected hok (resolve_mmdAddr _ ?_ : _ = .mmdAddr devad) rfl,
      miimWrite_selected hok (resolve_mmdCtrl _) rfl]
    · rfl
    · rw [miimWrite_selected hok (resolve_mmdCtrl _) rfl]
      simp [Select.write, Select.get]
  simp only [hselect, PhyBus.miimRead, mmdSelected_reaches, if_neg (hok _)]
  rfl

end FaultFree

/-! ### Accesses with a variable -/

theorem onCore_bdeWrite {off : ℕ} (h : off ≠ CMIC_MIIM_CTRL) (v : BitVec 32) :
    OnCore C delay (bdeWrite off v) (fun v => ((), v)) :=
  (onBus_bdeWrite h v).coarsen PhyBus.view fun _ => rfl

theorem onCore_miimDividerInit : OnCore C delay miimDividerInit (fun v => ((), v)) :=
  (onCore_bdeWrite (by decide) _).bind fun _ => onCore_bdeWrite (by decide) _

/-- One transaction, which reaches a selection register. -/
theorem onCore_aerReset (phy : PhyAddr) :
    OnCore C delay (aerReset phy) (fun v => ((), (v.1, v.2 + 1))) := by
  refine ((onBus_miimWriteTo phy _ _ _ _).bind fun _ => onBus_mark .ended).coarsen PhyBus.view
    fun b => ?_
  rw [miimWrite_selection (resolve_aerBlk _) rfl]
  split_ifs <;> rfl

variable (C delay) in
/-- A read into a variable that holds `val`. -/
def intoView (val : BitVec 16) (phy : PhyAddr) (lane : BitVec 2) (addr : BitVec 16)
    (v : PhyView κ) : BitVec 16 × PhyView κ :=
  ((readView C delay phy lane addr v).1.toOption.getD val, (readView C delay phy lane addr v).2)

variable (C delay) in
/-- A write whose result is ignored. -/
def putView (phy : PhyAddr) (lane : BitVec 2) (addr val : BitVec 16) (v : PhyView κ) :
    Unit × PhyView κ :=
  ((), (writeView C delay phy lane addr val v).2)

theorem onCore_wcReadInto (val : BitVec 16) (lane : BitVec 2) {addr : BitVec 16}
    (haddr : isPlain addr) :
    OnCore C delay (wcReadInto val phy lane addr) (intoView C delay val phy lane addr) :=
  (onCore_wcRead lane haddr).bind (g := fun rc v => (rc.toOption.getD val, v)) fun _ =>
    actsAs_pure _

theorem onCore_wcPut (lane : BitVec 2) {addr : BitVec 16} (haddr : isPlain addr)
    (val : BitVec 16) :
    OnCore C delay (wcPut phy lane addr val) (putView C delay phy lane addr val) :=
  (onCore_wcWrite lane haddr val).bind (g := fun _ v => ((), v)) fun _ => actsAs_pure _

end OpenNos.Sdk
