import OpenNos.Bde.SbusStack
import OpenNos.Sdk.SbusDevice

/-! The table memory the SDK is written against, and the stack that provides it:
`sbus.c`, the ioctl, the driver and the device that answers its messages. A program of
accesses run on the stack replies as it does on the ideal chip and leaves its registers
and tables, for any device that carries out what it reports done, however it fails the
rest. Only word 5 of a longer write differs, in whose place MISC_CONTROL arrives. -/

namespace OpenNos.Sdk

open Bits OpProg Bde

/-- The words an access transfers. -/
def SbusOp.width : SbusOp → ℕ
  | .regRead _ | .regWrite .. => 1
  | .regRead64 _ | .regWrite64 .. => 2
  | .memRead _ _ nwords | .memWrite _ _ _ nwords => nwords

/-- An access by way of `sbus.c`. -/
def SbusOp.stack (env : BdeEnv) : SbusOp → Pio (Option Words)
  | .regRead addr => do
    let v ← Bde.sbusRegRead env addr
    return v.map word
  | .regWrite addr value => do
    let ok ← Bde.sbusRegWrite env addr value
    return if ok then some fun _ => 0 else none
  | .regRead64 addr => Bde.sbusRegRead64 env addr
  | .regWrite64 addr data => do
    let ok ← Bde.sbusRegWrite64 env addr data
    return if ok then some fun _ => 0 else none
  | .memRead addr index nwords => Bde.sbusMemRead env addr (BitVec.ofNat 32 index) nwords
  | .memWrite addr index data nwords => do
    let ok ← Bde.sbusMemWrite env addr (BitVec.ofNat 32 index) data nwords
    return if ok then some fun _ => 0 else none

/-- What an access finds in the kernel, and how the device ends it. -/
structure SbusCall where
  env : BdeEnv
  ending : SbusOp → Ending

/-- The access returns 0. -/
def SbusCall.Reports (c : SbusCall) (o : SbusOp) : Prop :=
  (c.ending o).Delivers c.env ∧
    match o with
    | .memWrite .. => (c.ending o).header &&& 0x0041 = 0
    | _ => True

/-- What is reported done has been done. -/
def SbusCall.Honest (c : SbusCall) : Prop := ∀ o, c.Reports o → (c.ending o).executed = true

/-- Accesses one after the other, through the stack. -/
def stackStep (calls : ℕ → SbusCall) (s : ℕ × SbusChip) (o : SbusOp) :
    (ℕ × SbusChip) × Option Words :=
  let c := calls s.1
  let run := RegProg.exec (sbusChip (c.ending o)) (o.stack c.env) s.2
  ((s.1 + 1, run.2), run.1)

/-! ### The ideal chip -/

instance (env : BdeEnv) (e : Ending) : Decidable (e.Delivers env) :=
  decidable_of_iff (env.Ready ∧ env.copyToUser = true ∧ e.after.any (· < env.polls) = true ∧
      e.flags &&& (SCHAN_CTRL_TIMEOUT ||| SCHAN_CTRL_NAK) = 0) <| by
    have htime : e.after.any (· < env.polls) = true ↔ e.InTime env.polls := by
      cases hafter : e.after <;> simp [Ending.InTime, hafter]
    rw [htime]
    exact ⟨fun ⟨h₁, h₂, h₃, h₄⟩ => ⟨h₁, h₂, h₃, h₄⟩,
      fun h => ⟨h.ready, h.copyToUser, h.inTime, h.noFlag⟩⟩

instance (c : SbusCall) (o : SbusOp) : Decidable (c.Reports o) :=
  match o with
  | .regRead _ | .regWrite .. | .regRead64 _ | .regWrite64 .. | .memRead .. | .memWrite .. =>
    inferInstanceAs (Decidable (_ ∧ _))

def SbusCall.outcome (c : SbusCall) (o : SbusOp) : Outcome :=
  if c.Reports o then .ok
  else if c.env.Ready ∧ (c.ending o).executed = true then .unconfirmed
  else .lost

/-- The chip of one access. -/
def SbusCall.on (c : SbusCall) (o : SbusOp) (d : SocDev) : SocDev :=
  { d with outcome := fun _ => c.outcome o }

/-- An access as it arrives. -/
def SbusOp.arrived (misc : BitVec 32) : SbusOp → SbusOp
  | .memWrite addr index data nwords => .memWrite addr index (Bde.arrived misc data) nwords
  | o => o

/-- The same accesses on the ideal chip; a reply is as long as was asked for. -/
def idealStep (misc : BitVec 32) (calls : ℕ → SbusCall) (d : ℕ × SocDev) (o : SbusOp) :
    (ℕ × SocDev) × Option Words :=
  let run := ((calls d.1).on o d.2).sbusStep (o.arrived misc)
  ((d.1 + 1, run.1), run.2.map fun w => splice o.width w fun _ => 0)

/-- The same with every write as it was made. -/
def plainStep (calls : ℕ → SbusCall) (d : ℕ × SocDev) (o : SbusOp) :
    (ℕ × SocDev) × Option Words :=
  let run := ((calls d.1).on o d.2).sbusStep o
  ((d.1 + 1, run.1), run.2.map fun w => splice o.width w fun _ => 0)

/-- A table write has at most the five words that come before the hole in the message. -/
def SbusOp.Short : SbusOp → Prop
  | .memWrite _ _ _ nwords => nwords ≤ 5
  | _ => True

/-- Where a register is on the S-bus. -/
def regAddr (addr : BitVec 32) : SbusAddr := ((cdkAddrToBlock addr).setWidth 6, addr)

/-- Where a table entry is on the S-bus. -/
def cellAddr (addr : BitVec 32) (index : ℕ) : SbusAddr :=
  ((cdkAddrToBlock addr).setWidth 6, addr + BitVec.ofNat 32 index)

/-- The tables with their sizes; no two entries share a place. -/
structure TableMap where
  size : BitVec 32 → ℕ
  apart : ∀ {addr addr' index index'}, index < size addr → index' < size addr' →
    cellAddr addr index = cellAddr addr' index' → addr = addr' ∧ index = index'

/-- An access within a table and a message. -/
def TableMap.Within (tables : TableMap) : SbusOp → Prop
  | .memRead addr index nwords | .memWrite addr index _ nwords =>
    index < tables.size addr ∧ nwords ≤ 14
  | _ => True

/-- The chip at rest holds what the ideal chip does; `bar` are its own registers. -/
structure Provides (tables : TableMap) (bar : ℕ → BitVec 32) (s : SbusChip) (d : SocDev) :
    Prop where
  idle : s.running = none
  misc : s.reg CMIC_MISC_CONTROL = bar CMIC_MISC_CONTROL
  above : ∀ off, 0x80 ≤ off → s.reg off = bar off
  reg : ∀ addr, s.space.reg (regAddr addr) = d.reg (.sbus addr)
  mem : ∀ addr, ∀ index < tables.size addr, s.space.mem (cellAddr addr index) = d.mem addr index

variable {tables : TableMap} {bar : ℕ → BitVec 32} {s s' : SbusChip} {d d' : SocDev}
  {c : SbusCall} {o : SbusOp}

theorem outcome_ok : c.outcome o = .ok ↔ c.Reports o := by
  rw [SbusCall.outcome]
  split_ifs with hok <;> simp [hok]

/-- An access is lost exactly if it is not carried out. -/
theorem outcome_lost (honest : c.Honest) :
    c.outcome o = .lost ↔ ¬ (c.env.Ready ∧ (c.ending o).executed = true) := by
  rw [SbusCall.outcome]
  split_ifs with hok hdone
  · exact iff_of_false (by simp) (not_not.mpr ⟨hok.1.ready, honest o hok⟩)
  · exact iff_of_false (by simp) (not_not.mpr hdone)
  · exact iff_of_true rfl hdone

/-- What a request leaves provides what its message makes of the chip, if it is carried
out. -/
theorem Provides.leftBy (h : Provides tables bar s d) {m : SbusMessage}
    (hleft : LeftBy c.env (c.ending o) (some m) s s') {sp : SbusSpace}
    (hsp : sp = if c.env.Ready ∧ (c.ending o).executed = true then s.space.perform m else s.space)
    (hreg : ∀ addr, sp.reg (regAddr addr) = d'.reg (.sbus addr))
    (hmem : ∀ addr, ∀ index < tables.size addr, sp.mem (cellAddr addr index) = d'.mem addr index) :
    Provides tables bar s' d' := by
  rw [LeftBy] at hleft
  split_ifs at hleft with hready
  · have hspace : s'.space = sp := by
      rw [hleft.space, hsp, Ending.effect]
      simp only [hready, true_and]
      rfl
    exact ⟨hleft.idle, hleft.misc.trans h.misc, fun off hoff => (hleft.above off hoff).trans
      (h.above off hoff), hspace ▸ hreg, hspace ▸ hmem⟩
  · rw [if_neg fun hdone => hready hdone.1] at hsp
    subst hleft hsp
    exact ⟨h.idle, h.misc, h.above, hreg, hmem⟩

/-- A message that only reads. -/
theorem Provides.leftBy_read (h : Provides tables bar s d) {m : SbusMessage}
    (hleft : LeftBy c.env (c.ending o) (some m) s s') (hm : s.space.perform m = s.space)
    (hreg : d'.reg = d.reg) (hmem : d'.mem = d.mem) : Provides tables bar s' d' := by
  have hspace : s.space =
      if c.env.Ready ∧ (c.ending o).executed = true then s.space.perform m else s.space := by
    rw [hm, ite_self]
  refine h.leftBy hleft hspace (fun addr => ?_) fun addr index hi => ?_
  · rw [h.reg, hreg]
  · rw [h.mem addr index hi, hmem]

theorem regAddr_injective : Function.Injective regAddr := fun _ _ h => (Prod.mk.inj h).2

/-- Of data only as many words as are written matter. -/
theorem splice_cut (n : ℕ) (w z old : Words) : splice n (splice n w z) old = splice n w old := by
  funext k
  rw [splice, splice, splice]
  split_ifs <;> rfl

theorem Provides.leftBy_writeReg (h : Provides tables bar s d) (honest : c.Honest)
    {addr : BitVec 32} {data : Words} {n : ℕ} (hleft : LeftBy c.env (c.ending o)
      (some (.writeReg (regAddr addr) (splice n data fun _ => 0) n)) s s') :
    Provides tables bar s' ((c.on o d).writeReg (.sbus addr) data n).1 := by
  refine h.leftBy hleft rfl (fun a => ?_) fun a index hi => ?_
  · rw [SocDev.writeReg]
    by_cases hdone : c.env.Ready ∧ (c.ending o).executed = true
    · have hlost : (c.on o d).outcome 0 ≠ .lost := fun hl => (outcome_lost honest).mp hl hdone
      rw [if_pos hdone, if_neg hlost]
      dsimp only [SbusSpace.perform, SbusCall.on]
      by_cases ha : a = addr
      · rw [ha, Function.update_self, Function.update_self, splice_cut, h.reg]
      · have hcell : regAddr a ≠ regAddr addr := fun heq => ha (regAddr_injective heq)
        have hsoc : SocReg.sbus a ≠ .sbus addr := fun heq => ha (SocReg.sbus.inj heq)
        rw [Function.update_of_ne hcell, Function.update_of_ne hsoc, h.reg]
    · have hlost : (c.on o d).outcome 0 = .lost := (outcome_lost honest).mpr hdone
      rw [if_neg hdone, if_pos hlost]
      exact h.reg a
  · have hmem : ((c.on o d).writeReg (.sbus addr) data n).1.mem = d.mem := by
      rw [SocDev.writeReg]
      split_ifs <;> rfl
    rw [hmem, ← h.mem a index hi]
    split_ifs <;> rfl

theorem Provides.leftBy_writeMem (h : Provides tables bar s d) (honest : c.Honest)
    {addr : BitVec 32} {index : ℕ} (hindex : index < tables.size addr) {data : Words} {n : ℕ}
    (hleft : LeftBy c.env (c.ending o)
      (some (.writeMem (cellAddr addr index) (splice n data fun _ => 0) n)) s s') :
    Provides tables bar s' ((c.on o d).writeMem addr index data n).1 := by
  refine h.leftBy hleft rfl (fun a => ?_) fun a i hi => ?_
  · have hreg : ((c.on o d).writeMem addr index data n).1.reg = d.reg := by
      rw [SocDev.writeMem]
      split_ifs <;> rfl
    rw [hreg, ← h.reg a]
    split_ifs <;> rfl
  · rw [SocDev.writeMem]
    by_cases hdone : c.env.Ready ∧ (c.ending o).executed = true
    · have hlost : (c.on o d).outcome 0 ≠ .lost := fun hl => (outcome_lost honest).mp hl hdone
      rw [if_pos hdone, if_neg hlost]
      dsimp only [SbusSpace.perform, SbusCall.on]
      by_cases ha : a = addr ∧ i = index
      · obtain ⟨rfl, rfl⟩ := ha
        rw [Function.update_self, Function.update_self, Function.update_self, splice_cut,
          h.mem a i hi]
      · have hcell : cellAddr a i ≠ cellAddr addr index := fun heq =>
          ha (tables.apart hi hindex heq)
        rw [Function.update_of_ne hcell, h.mem a i hi]
        by_cases hbase : a = addr
        · subst hbase
          rw [Function.update_self, Function.update_of_ne fun hi' => ha ⟨rfl, hi'⟩]
        · rw [Function.update_of_ne hbase]
    · have hlost : (c.on o d).outcome 0 = .lost := (outcome_lost honest).mpr hdone
      rw [if_neg hdone, if_pos hlost]
      exact h.mem a i hi

/-! ### One access -/

/-- The reply of a read, from what the accessor promises. -/
theorem read_reply (honest : c.Honest) (hreports : c.Reports o ↔ (c.ending o).Delivers c.env)
    {r : Option Words} {w : Words}
    (hsome : (c.ending o).Delivers c.env → (c.ending o).executed = true → r = some w)
    (hnone : ¬ (c.ending o).Delivers c.env → r = none) :
    r = if c.outcome o = .ok then some w else none := by
  by_cases hok : c.Reports o
  · rw [if_pos (outcome_ok.mpr hok)]
    exact hsome (hreports.mp hok) (honest o hok)
  · rw [if_neg (outcome_ok.not.mpr hok)]
    exact hnone (hreports.not.mp hok)

/-- The reply of a write. -/
theorem write_reply {ok : Bool} (hok : ok = true ↔ c.Reports o) :
    (if ok then some fun _ => 0 else none : Option Words) =
      if c.outcome o = .ok then some fun _ => 0 else none := by
  by_cases hreports : c.Reports o
  · rw [if_pos (hok.mpr hreports), if_pos (outcome_ok.mpr hreports)]
  · rw [if_neg (hok.not.mpr hreports), if_neg (outcome_ok.not.mpr hreports)]

theorem word_splice (w : Words) :
    word (splice 1 w (fun _ => 0) 0) = splice 1 w fun _ => 0 := by
  funext i
  cases i with
  | zero => rfl
  | succ i => exact (if_neg (by omega : ¬ i + 1 < 1)).symm

theorem splice_zero (n : ℕ) : (splice n (fun _ => 0) fun _ => 0) = fun _ => 0#32 := by
  funext i
  exact ite_self _

/-- A write of at most five words arrives as it is. -/
theorem splice_arrived (misc : BitVec 32) (data z : Words) {n : ℕ} (hn : n ≤ 5) :
    splice n (Bde.arrived misc data) z = splice n data z := by
  funext i
  rw [splice, splice]
  split_ifs with hi
  · exact Function.update_of_ne (show i ≠ 5 by omega) _ _
  · rfl

/-- An access on the stack and on the ideal chip. -/
theorem stack_refines (honest : c.Honest) (hwithin : tables.Within o)
    (h : Provides tables bar s d) :
    ∃ s', RegProg.exec (sbusChip (c.ending o)) (o.stack c.env) s =
        ((((c.on o d).sbusStep (o.arrived (bar CMIC_MISC_CONTROL))).2.map fun w =>
          splice o.width w fun _ => 0), s') ∧
      Provides tables bar s' ((c.on o d).sbusStep (o.arrived (bar CMIC_MISC_CONTROL))).1 := by
  cases o with
  | regRead addr =>
    obtain ⟨r, s', hexec, hleft, hsome, hnone⟩ := chip_regReadFrom c.env
      (c.ending (.regRead addr)) addr (cdkAddrToBlock_lt addr) (n := 1) (by omega) h.idle
    have hr := read_reply honest ⟨fun h => h.1, fun h => ⟨h, trivial⟩⟩ hsome hnone
    refine ⟨s', ?_, h.leftBy_read hleft rfl rfl rfl⟩
    rw [SbusOp.stack, RegProg.exec_bind, Bde.sbusRegRead, RegProg.exec_bind, hexec]
    dsimp only [RegProg.exec_pure, SbusOp.arrived, SocDev.sbusStep, SocDev.readReg, SbusOp.width,
      SbusCall.on]
    rw [hr, ← h.reg addr, Prod.mk.injEq]
    refine ⟨?_, rfl⟩
    split_ifs
    · exact congrArg some (word_splice _)
    · rfl
  | regRead64 addr =>
    obtain ⟨r, s', hexec, hleft, hsome, hnone⟩ := chip_regReadFrom c.env
      (c.ending (.regRead64 addr)) addr (cdkAddrToBlock_lt addr) (n := 2) (by omega)
      h.idle
    have hr := read_reply honest ⟨fun h => h.1, fun h => ⟨h, trivial⟩⟩ hsome hnone
    refine ⟨s', ?_, h.leftBy_read hleft rfl rfl rfl⟩
    rw [SbusOp.stack, Bde.sbusRegRead64, hexec]
    dsimp only [SbusOp.arrived, SocDev.sbusStep, SocDev.readReg, SbusOp.width, SbusCall.on]
    rw [hr, ← h.reg addr, Prod.mk.injEq]
    refine ⟨?_, rfl⟩
    split_ifs <;> rfl
  | memRead addr index nwords =>
    obtain ⟨hindex, hn⟩ := hwithin
    obtain ⟨r, s', hexec, hleft, hsome, hnone⟩ := chip_memReadFrom c.env
      (c.ending (.memRead addr index nwords)) addr (cdkAddrToBlock_lt addr) hn
      h.idle (BitVec.ofNat 32 index)
    have hr := read_reply honest ⟨fun h => h.1, fun h => ⟨h, trivial⟩⟩ hsome hnone
    refine ⟨s', ?_, h.leftBy_read hleft rfl rfl rfl⟩
    rw [SbusOp.stack, Bde.sbusMemRead, hexec]
    dsimp only [SbusOp.arrived, SocDev.sbusStep, SocDev.readMem, SbusOp.width, SbusCall.on]
    rw [hr, ← h.mem addr index hindex, Prod.mk.injEq]
    refine ⟨?_, rfl⟩
    split_ifs <;> rfl
  | regWrite addr value =>
    obtain ⟨ok, s', hexec, hleft, hok⟩ := chip_regWriteTo c.env
      (c.ending (.regWrite addr value)) addr (cdkAddrToBlock_lt addr) (n := 1) (by omega)
      h.idle fun _ => value
    rw [splice_arrived _ _ _ (by omega)] at hleft
    refine ⟨s', ?_, h.leftBy_writeReg honest hleft⟩
    rw [SbusOp.stack, RegProg.exec_bind, Bde.sbusRegWrite, hexec]
    dsimp only [RegProg.exec_pure, SbusOp.arrived, SocDev.sbusStep, SocDev.writeReg, SbusOp.width,
      SbusCall.on]
    rw [write_reply (hok.trans ⟨fun h => ⟨h, trivial⟩, fun h => h.1⟩), Prod.mk.injEq]
    refine ⟨?_, rfl⟩
    split_ifs
    · exact congrArg some (splice_zero 1).symm
    · rfl
  | regWrite64 addr data =>
    obtain ⟨ok, s', hexec, hleft, hok⟩ := chip_regWriteTo c.env
      (c.ending (.regWrite64 addr data)) addr (cdkAddrToBlock_lt addr) (n := 2)
      (by omega) h.idle data
    rw [splice_arrived _ _ _ (by omega)] at hleft
    refine ⟨s', ?_, h.leftBy_writeReg honest hleft⟩
    rw [SbusOp.stack, RegProg.exec_bind, Bde.sbusRegWrite64, hexec]
    dsimp only [RegProg.exec_pure, SbusOp.arrived, SocDev.sbusStep, SocDev.writeReg, SbusOp.width,
      SbusCall.on]
    rw [write_reply (hok.trans ⟨fun h => ⟨h, trivial⟩, fun h => h.1⟩), Prod.mk.injEq]
    refine ⟨?_, rfl⟩
    split_ifs
    · exact congrArg some (splice_zero 2).symm
    · rfl
  | memWrite addr index data nwords =>
    obtain ⟨hindex, hn⟩ := hwithin
    obtain ⟨ok, s', hexec, hleft, hok⟩ := chip_memWriteTo c.env
      (c.ending (.memWrite addr index data nwords)) addr (cdkAddrToBlock_lt addr) hn
      h.idle (BitVec.ofNat 32 index) data
    rw [h.misc] at hleft
    refine ⟨s', ?_, h.leftBy_writeMem honest hindex hleft⟩
    rw [SbusOp.stack, RegProg.exec_bind, Bde.sbusMemWrite, hexec]
    dsimp only [RegProg.exec_pure, SbusOp.arrived, SocDev.sbusStep, SocDev.writeMem, SbusOp.width,
      SbusCall.on]
    rw [write_reply hok, Prod.mk.injEq]
    refine ⟨?_, rfl⟩
    split_ifs
    · exact congrArg some (splice_zero nwords).symm
    · rfl

/-! ### Runs -/

variable {calls : ℕ → SbusCall}

/-- A program on the stack does what it does on the ideal chip. -/
theorem runOn_stack (honest : ∀ k, (calls k).Honest) {α : Type} {p : Sbus α}
    (hp : p.EachOp tables.Within) (h : Provides tables bar s d) (k : ℕ) :
    let run := p.runOn (stackStep calls) (k, s)
    let ideal := p.runOn (idealStep (bar CMIC_MISC_CONTROL) calls) (k, d)
    run.1 = ideal.1 ∧ run.2.1 = ideal.2.1 ∧ Provides tables bar run.2.2 ideal.2.2 := by
  let Rel (t : ℕ × SbusChip) (u : ℕ × SocDev) : Prop := t.1 = u.1 ∧ Provides tables bar t.2 u.2
  have hstep : ∀ t u o, tables.Within o → Rel t u →
      (stackStep calls t o).2 = (idealStep (bar CMIC_MISC_CONTROL) calls u o).2 ∧
        Rel (stackStep calls t o).1 (idealStep (bar CMIC_MISC_CONTROL) calls u o).1 := by
    rintro ⟨k, s⟩ ⟨k', d⟩ o hwithin ⟨rfl, h⟩
    obtain ⟨s', hexec, hprovides⟩ := stack_refines (o := o) (honest k) hwithin h
    simp only [stackStep, idealStep, hexec]
    exact ⟨trivial, rfl, hprovides⟩
  exact runOn_related hstep hp ⟨rfl, h⟩

/-- A short write arrives as it was made. -/
theorem idealStep_of_short (misc : BitVec 32) (calls : ℕ → SbusCall) (d : ℕ × SocDev) {o : SbusOp}
    (ho : o.Short) : idealStep misc calls d o = plainStep calls d o := by
  cases o with
  | memWrite addr index data nwords =>
    have hn : nwords ≤ 5 := ho
    simp only [idealStep, plainStep, SbusOp.arrived, SocDev.sbusStep, SocDev.writeMem,
      splice_arrived misc data _ hn]
  | _ => rfl

/-- The stack is the ideal chip with MISC_CONTROL in word 5 of the longer writes, and for
programs without such writes the plain one. -/
theorem sbus_on_stack (honest : ∀ k, (calls k).Honest) {α : Type} {p : Sbus α}
    (hp : p.EachOp tables.Within) (h : Provides tables bar s d) (k : ℕ) :
    let run := p.runOn (stackStep calls) (k, s)
    let ideal := p.runOn (idealStep (bar CMIC_MISC_CONTROL) calls) (k, d)
    run.1 = ideal.1 ∧ run.2.1 = ideal.2.1 ∧ Provides tables bar run.2.2 ideal.2.2 ∧
      (p.EachOp SbusOp.Short → ideal = p.runOn (plainStep calls) (k, d)) := by
  obtain ⟨hreply, hcount, hprovides⟩ := runOn_stack honest hp h k
  refine ⟨hreply, hcount, hprovides, fun hshort => ?_⟩
  have hstep : ∀ (t u : ℕ × SocDev) o, o.Short → t = u →
      (idealStep (bar CMIC_MISC_CONTROL) calls t o).2 = (plainStep calls u o).2 ∧
        (idealStep (bar CMIC_MISC_CONTROL) calls t o).1 = (plainStep calls u o).1 := by
    rintro t u o ho rfl
    rw [idealStep_of_short _ _ _ ho]
    exact ⟨rfl, rfl⟩
  obtain ⟨hsame, hstate⟩ := runOn_related hstep hshort rfl
  exact Prod.ext hsame hstate

/-- The answer is there at the first poll. -/
def promptCall : SbusCall where
  env :=
    { probed := true, interrupted := false, polls := 1, fdOpen := true, copyFromUser := true
      copyToUser := true }
  ending _ := ⟨some 0, 0, 0, true⟩

theorem promptCall_reports (o : SbusOp) : promptCall.Reports o := by
  refine ⟨⟨⟨rfl, rfl, rfl, rfl⟩, rfl, ⟨0, rfl, by decide⟩, BitVec.zero_and⟩, ?_⟩
  cases o <;> first | trivial | exact BitVec.zero_and

theorem promptCall_honest : promptCall.Honest := fun _ _ => rfl

/-- The device refuses what it has carried out. -/
def refusedCall : SbusCall :=
  { promptCall with ending := fun _ => ⟨some 0, SCHAN_CTRL_NAK, 0, true⟩ }

theorem refusedCall_honest : refusedCall.Honest := fun _ _ => rfl

def blankChip : SbusChip := ⟨fun _ => 0, false, ⟨fun _ _ => 0, fun _ _ => 0⟩, none⟩

end OpenNos.Sdk
