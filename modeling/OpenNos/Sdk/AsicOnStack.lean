import OpenNos.Lib.Component
import OpenNos.Sdk.SbusTables

/-! The chip of tables and faults that the table code is written against, as a device for
programs of accesses. A program of table accesses and writes of registers has on the stack
the replies it has on that chip, and leaves its tables and registers, for any pattern of
refused accesses. A write of at most five words arrives as it is; of a longer one word 5
arrives as MISC_CONTROL. -/

namespace OpenNos.Sdk

open Bits OpProg Bde

/-- The chip of tables and faults under one access; `arrive` is what becomes of the words on
their way. -/
def Asic.sbusStep (arrive : Words → Words) (a : Asic) : SbusOp → Asic × Option Words
  | .memRead addr index nwords =>
    ((a.memRead addr index).1, (a.memRead addr index).2.map fun w => splice nwords w fun _ => 0)
  | .memWrite addr index data nwords =>
    ((a.memWrite addr index (arrive data) nwords).1,
      if (a.memWrite addr index (arrive data) nwords).2 then some fun _ => 0 else none)
  | .regWrite addr value =>
    ((a.regWrite addr value).1, if (a.regWrite addr value).2 then some fun _ => 0 else none)
  | _ => (a, none)

/-- An access within one of these tables. Of an entry no word 5 is read, and only in the long
tables is one written. -/
def TableAccess (tables : TableMap) (own long : Set (BitVec 32)) : SbusOp → Prop
  | .memRead addr index nwords => addr ∈ own ∧ index < tables.size addr ∧ nwords ≤ 5
  | .memWrite addr index _ nwords =>
    addr ∈ own ∧ index < tables.size addr ∧ nwords ≤ 14 ∧ (nwords ≤ 5 ∨ addr ∈ long)
  | _ => False

/-- Such an access, or a write of a register. -/
def ChipAccess (tables : TableMap) (own long : Set (BitVec 32)) : SbusOp → Prop
  | .regWrite _ _ => True
  | o => TableAccess tables own long o

theorem sbusRegWrite_runOn (arrive : Words → Words) (a : Asic) (addr value : BitVec 32) :
    (sbusRegWrite addr value).runOn (Asic.sbusStep arrive) a =
      ((a.regWrite addr value).2, (a.regWrite addr value).1) := by
  rw [sbusRegWrite, runOn_bind, runOn_perform, runOn_pure, Asic.sbusStep]
  cases (a.regWrite addr value).2 <;> rfl

theorem sbusMemWrite_runOn (arrive : Words → Words) (a : Asic) (addr : BitVec 32) (index : ℕ)
    (data : Words) (n : ℕ) :
    (sbusMemWrite addr index data n).runOn (Asic.sbusStep arrive) a =
      ((a.memWrite addr index (arrive data) n).2, (a.memWrite addr index (arrive data) n).1) := by
  rw [sbusMemWrite, runOn_bind, runOn_perform, runOn_pure, Asic.sbusStep]
  cases (a.memWrite addr index (arrive data) n).2 <;> rfl

/-- The accesses that are refused are the faults to come, none of them carried out, and the
tables and registers are the same. -/
structure Mirrors (calls : ℕ → SbusCall) (a : Asic) (t : ℕ × SocDev) : Prop where
  fault : ∀ n o, (calls (t.1 + n)).outcome o = if a.fault n then .lost else .ok
  mem : t.2.mem = a.mem
  reg : ∀ addr, t.2.reg (.sbus addr) 0 = a.reg addr

variable {calls : ℕ → SbusCall} {a : Asic} {t : ℕ × SocDev} {misc : BitVec 32} {o : SbusOp}
  {tables : TableMap} {own long : Set (BitVec 32)}

theorem TableAccess.chip (h : TableAccess tables own long o) : ChipAccess tables own long o := by
  cases o with
  | regWrite addr value => exact trivial
  | _ => exact h

/-- The outcome of the access is used up. -/
theorem Mirrors.next (h : Mirrors calls a t) {b : Asic} {d : SocDev} (hb : b.fault = a.tick.fault)
    (hmem : d.mem = b.mem) (hreg : ∀ addr, d.reg (.sbus addr) 0 = b.reg addr) :
    Mirrors calls b (t.1 + 1, d) where
  fault n o := by
    rw [Nat.add_assoc, Nat.add_comm 1 n, hb]
    exact h.fault (n + 1) o
  mem := hmem
  reg := hreg

theorem Mirrors.step (h : Mirrors calls a t) (ho : ChipAccess tables own long o) :
    (a.sbusStep (arrived misc) o).2 = (idealStep misc calls t o).2 ∧
      Mirrors calls (a.sbusStep (arrived misc) o).1 (idealStep misc calls t o).1 := by
  have hfault := h.fault 0 o
  rw [Nat.add_zero] at hfault
  cases o with
  | memRead addr index nwords =>
    simp only [Asic.sbusStep, Asic.memRead, idealStep, SbusOp.arrived, SocDev.sbusStep,
      SocDev.readMem, SbusCall.on, hfault]
    by_cases hf : a.fault 0 = true
    · simp only [hf, if_true]
      exact ⟨rfl, h.next rfl h.mem h.reg⟩
    · simp only [hf]
      exact ⟨by rw [h.mem]; rfl, h.next rfl h.mem h.reg⟩
  | memWrite addr index data nwords =>
    simp only [Asic.sbusStep, Asic.memWrite, idealStep, SbusOp.arrived, SocDev.sbusStep,
      SocDev.writeMem, SbusCall.on, hfault]
    by_cases hf : a.fault 0 = true
    · simp only [hf, if_true]
      exact ⟨rfl, h.next rfl h.mem h.reg⟩
    · simp only [hf]
      refine ⟨congrArg some (splice_zero nwords).symm, h.next rfl ?_ h.reg⟩
      rw [h.mem]
      rfl
  | regWrite addr value =>
    simp only [Asic.sbusStep, Asic.regWrite, idealStep, SbusOp.arrived, SocDev.sbusStep,
      SocDev.writeReg, SbusCall.on, hfault]
    by_cases hf : a.fault 0 = true
    · simp only [hf, if_true]
      exact ⟨rfl, h.next rfl h.mem h.reg⟩
    · simp only [hf, Bool.false_eq_true, reduceCtorEq, if_false]
      refine ⟨congrArg some (splice_zero 1).symm, h.next rfl h.mem fun addr' => ?_⟩
      by_cases haddr : addr' = addr
      · subst haddr
        dsimp only
        rw [Function.update_self, Function.update_self]
        rfl
      · have hne : SocReg.sbus addr' ≠ .sbus addr := fun heq => haddr (SocReg.sbus.inj heq)
        dsimp only
        rw [Function.update_of_ne hne, Function.update_of_ne haddr]
        exact h.reg addr'
  | regRead _ | regRead64 _ | regWrite64 _ _ => exact ho.elim

theorem TableAccess.within (h : TableAccess tables own long o) : tables.Within o := by
  cases o with
  | memRead addr index nwords => exact ⟨h.2.1, by have := h.2.2; omega⟩
  | memWrite addr index data nwords => exact ⟨h.2.1, h.2.2.1⟩
  | _ => exact h.elim

/-- The tables and registers of a chip, with no access to be lost. -/
def asicOf (s : SbusChip) : Asic where
  mem addr index := s.space.mem (cellAddr addr index)
  reg addr := s.space.reg (regAddr addr) 0
  fault _ := false

theorem mirrors_reporting (hreports : ∀ k o, (calls k).Reports o) (s : SbusChip) (k : ℕ) :
    Mirrors calls (asicOf s) (k, idealOf s) :=
  ⟨fun _ o => outcome_ok.mpr (hreports _ o), rfl, fun _ => rfl⟩

theorem ChipAccess.within (h : ChipAccess tables own long o) : tables.Within o := by
  cases o with
  | memRead addr index nwords =>
    have htable : TableAccess tables own long (.memRead addr index nwords) := h
    exact htable.within
  | memWrite addr index data nwords =>
    have htable : TableAccess tables own long (.memWrite addr index data nwords) := h
    exact htable.within
  | regWrite addr value => exact trivial
  | _ => exact h.elim

theorem TableAccess.mono {own' long' : Set (BitVec 32)} (hown : own ⊆ own') (hlong : long ⊆ long')
    (h : TableAccess tables own long o) : TableAccess tables own' long' o := by
  cases o with
  | memRead addr index nwords => exact ⟨hown h.1, h.2⟩
  | memWrite addr index data nwords =>
    exact ⟨hown h.1, h.2.1, h.2.2.1, h.2.2.2.imp_right fun h => hlong h⟩
  | _ => exact h.elim

variable {bar : ℕ → BitVec 32} {s : SbusChip} {d : SocDev} {k : ℕ} {α : Type} {p : Sbus α}

/-- A program of table accesses and writes of registers on the stack does what it does on the
chip of tables and faults. -/
theorem runOn_chip (honest : ∀ k, (calls k).Honest) (hp : p.EachOp (ChipAccess tables own long))
    (h : Provides tables bar s d) (hm : Mirrors calls a (k, d)) :
    let run := p.runOn (stackStep calls) (k, s)
    let asic := p.runOn (Asic.sbusStep (arrived (bar CMIC_MISC_CONTROL))) a
    run.1 = asic.1 ∧
      (∀ addr, ∀ index < tables.size addr,
        run.2.2.space.mem (cellAddr addr index) = asic.2.mem addr index) ∧
      ∀ addr, run.2.2.space.reg (regAddr addr) 0 = asic.2.reg addr := by
  obtain ⟨hreply, -, hprovides⟩ := runOn_stack honest (hp.mono fun o ho => ho.within) h k
  have hstep (a : Asic) (t : ℕ × SocDev) (o : SbusOp) (ho : ChipAccess tables own long o)
      (hm : Mirrors calls a t) : (a.sbusStep (arrived (bar CMIC_MISC_CONTROL)) o).2 =
        (idealStep (bar CMIC_MISC_CONTROL) calls t o).2 ∧
      Mirrors calls (a.sbusStep (arrived (bar CMIC_MISC_CONTROL)) o).1
        (idealStep (bar CMIC_MISC_CONTROL) calls t o).1 :=
    hm.step ho
  obtain ⟨hreply', hmirrors⟩ := runOn_related hstep hp hm
  refine ⟨hreply.trans hreply'.symm, fun addr index hindex => ?_, fun addr => ?_⟩
  · rw [hprovides.mem addr index hindex, hmirrors.mem]
  · rw [hprovides.reg, hmirrors.reg]

/-- The same of table accesses alone. -/
theorem runOn_asic (honest : ∀ k, (calls k).Honest) (hp : p.EachOp (TableAccess tables own long))
    (h : Provides tables bar s d) (hm : Mirrors calls a (k, d)) :
    let run := p.runOn (stackStep calls) (k, s)
    let asic := p.runOn (Asic.sbusStep (arrived (bar CMIC_MISC_CONTROL))) a
    run.1 = asic.1 ∧ ∀ addr, ∀ index < tables.size addr,
      run.2.2.space.mem (cellAddr addr index) = asic.2.mem addr index :=
  have hrun := runOn_chip honest (hp.mono fun _ ho => ho.chip) h hm
  ⟨hrun.1, hrun.2.1⟩

/-! ### Word 5 -/

/-- The same faults to come, the same registers, and the same tables but for word 5 in some of
them. -/
structure SameButFive (long : Set (BitVec 32)) (a b : Asic) : Prop where
  fault : a.fault = b.fault
  reg : a.reg = b.reg
  mem : ∀ addr index i, i ≠ 5 ∨ addr ∉ long → a.mem addr index i = b.mem addr index i

theorem SameButFive.refl (long : Set (BitVec 32)) (a : Asic) : SameButFive long a a :=
  ⟨rfl, rfl, fun _ _ _ _ => rfl⟩

theorem sameButFive_step (tables : TableMap) (misc : BitVec 32) (a b : Asic) (o : SbusOp)
    (ho : ChipAccess tables own long o) (h : SameButFive long a b) :
    (a.sbusStep (arrived misc) o).2 = (b.sbusStep id o).2 ∧
      SameButFive long (a.sbusStep (arrived misc) o).1 (b.sbusStep id o).1 := by
  have htick : SameButFive long a.tick b.tick :=
    ⟨funext fun n => congrFun h.fault (n + 1), h.reg, h.mem⟩
  cases o with
  | memRead addr index nwords =>
    have hread : splice nwords (a.mem addr index) (fun _ => 0) =
        splice nwords (b.mem addr index) fun _ => 0 := by
      funext i
      rw [splice, splice]
      split_ifs with hi
      · exact h.mem addr index i (.inl (by have := ho.2.2; omega))
      · exact rfl
    simp only [Asic.sbusStep, Asic.memRead, h.fault]
    split
    · exact ⟨rfl, htick⟩
    · exact ⟨congrArg some hread, htick⟩
  | memWrite addr index data nwords =>
    simp only [Asic.sbusStep, Asic.memWrite, h.fault]
    split
    · exact ⟨rfl, htick⟩
    · refine ⟨rfl, htick.fault, h.reg, fun addr' index' i hi => ?_⟩
      by_cases hcell : addr' = addr ∧ index' = index
      · obtain ⟨rfl, rfl⟩ := hcell
        rw [Asic.store_mem_self, Asic.store_mem_self, splice, splice, Asic.tick_mem, Asic.tick_mem,
          h.mem addr' index' i hi]
        split_ifs with hlt
        · -- word 5 is written in the long tables alone
          have hne : i ≠ 5 := by
            rintro rfl
            rcases ho.2.2.2 with hshort | hlong
            · omega
            · exact hi.elim (fun h => h (rfl)) fun h => h hlong
          exact Function.update_of_ne hne _ _
        · exact rfl
      · have hne : addr' ≠ addr ∨ index' ≠ index := not_and_or.mp hcell
        rw [Asic.store_mem_of_ne _ _ hne, Asic.store_mem_of_ne _ _ hne]
        exact h.mem addr' index' i hi
  | regWrite addr value =>
    simp only [Asic.sbusStep, Asic.regWrite, h.fault]
    split
    · exact ⟨rfl, htick⟩
    · exact ⟨rfl, htick.fault, congrArg (Function.update · addr value) h.reg, h.mem⟩
  | _ => exact ho.elim

/-- What arrives as word 5 shows in no reply, and in word 5 of the long tables only. -/
theorem runOn_chip_arrived (misc : BitVec 32) {b : Asic}
    (hp : p.EachOp (ChipAccess tables own long)) (h : SameButFive long a b) :
    (p.runOn (Asic.sbusStep (arrived misc)) a).1 = (p.runOn (Asic.sbusStep id) b).1 ∧
      SameButFive long (p.runOn (Asic.sbusStep (arrived misc)) a).2
        (p.runOn (Asic.sbusStep id) b).2 :=
  runOn_related (sameButFive_step tables misc) hp h

theorem runOn_arrived (misc : BitVec 32) {b : Asic} (hp : p.EachOp (TableAccess tables own long))
    (h : SameButFive long a b) :
    (p.runOn (Asic.sbusStep (arrived misc)) a).1 = (p.runOn (Asic.sbusStep id) b).1 ∧
      SameButFive long (p.runOn (Asic.sbusStep (arrived misc)) a).2
        (p.runOn (Asic.sbusStep id) b).2 :=
  runOn_chip_arrived misc (hp.mono fun _ ho => ho.chip) h

section Bits

variable {b : Asic} (h : SameButFive long a b) (addr : BitVec 32) (index : ℕ)
include h

theorem SameButFive.bit {i : ℕ} (hi : i / 32 ≠ 5) :
    Bits.bit (a.mem addr index) i = Bits.bit (b.mem addr index) i := by
  rw [Bits.bit, Bits.bit, h.mem addr index _ (.inl hi)]

/-- A field that has no part in word 5. -/
theorem SameButFive.field {start width : ℕ} (hout : start + width ≤ 160 ∨ 192 ≤ start) :
    Bits.field (a.mem addr index) start width = Bits.field (b.mem addr index) start width :=
  field_congr fun _ hi => h.bit addr index (by omega)

end Bits

section Five

variable {addr addr' : BitVec 32} {index index' n : ℕ} {data : Words}

theorem five_of_written (hn : 5 < n) (h : (a.memWrite addr index (arrived misc data) n).2 = true) :
    (a.memWrite addr index (arrived misc data) n).1.mem addr index 5 = misc := by
  cases hf : a.fault 0 with
  | true =>
    rw [Asic.memWrite_of_fault hf] at h
    cases h
  | false =>
    rw [Asic.memWrite_of_not_fault hf, Asic.store_mem_self, splice, if_pos hn]
    exact Function.update_self 5 misc data

theorem five_kept (hn : 5 < n ∨ addr ≠ addr') (h : a.mem addr' index' 5 = misc) :
    (a.memWrite addr index (arrived misc data) n).1.mem addr' index' 5 = misc := by
  by_cases hcell : addr' = addr ∧ index' = index
  · obtain ⟨rfl, rfl⟩ := hcell
    cases hok : (a.memWrite addr' index' (arrived misc data) n).2 with
    | true => exact five_of_written (hn.resolve_right fun hne => hne rfl) hok
    | false =>
      rw [Asic.memWrite] at hok ⊢
      split_ifs at hok ⊢
      exact h
  · rw [Asic.memWrite_mem_of_ne _ _ (not_and_or.mp hcell)]
    exact h

end Five

theorem bit_five {w : Words} (h : w 5 = misc) {i : ℕ} (hi : i / 32 = 5) :
    bit w i = misc.getLsbD (i % 32) := by
  rw [bit, hi, h]

/-! ### A device that loses accesses -/

/-- The device loses every third access. -/
def droppyCalls (k : ℕ) : SbusCall :=
  if k % 3 = 0 then { promptCall with ending := fun _ => ⟨none, 0, 0, false⟩ } else promptCall

theorem droppyCalls_honest (k : ℕ) : (droppyCalls k).Honest := by
  rw [droppyCalls]
  split_ifs
  · rintro o ⟨⟨-, -, ⟨n, hafter, -⟩, -⟩, -⟩
    cases hafter
  · exact promptCall_honest

theorem droppyCalls_outcome (k : ℕ) (o : SbusOp) :
    (droppyCalls k).outcome o = if k % 3 == 0 then .lost else .ok := by
  have honest := droppyCalls_honest k
  rw [droppyCalls] at honest ⊢
  by_cases hk : k % 3 = 0
  · rw [if_pos hk] at honest ⊢
    rw [if_pos (beq_iff_eq.mpr hk), outcome_lost honest]
    exact fun hdone => Bool.false_ne_true hdone.2
  · rw [if_neg hk, if_neg fun h => hk (beq_iff_eq.mp h)]
    exact outcome_ok.mpr (promptCall_reports o)

/-- The blank chip with the same faults. -/
def droppyAsic : Asic := { Asic.blank with fault := fun n => n % 3 == 0 }

def droppyDev : SocDev := ⟨fun _ _ => 0, fun _ _ _ => 0, fun _ => .ok, 0⟩

theorem droppy_provides : Provides sdkTables blankChip.reg blankChip droppyDev :=
  ⟨rfl, rfl, fun _ _ => rfl, fun _ => rfl, fun _ _ _ => rfl⟩

theorem droppy_mirrors : Mirrors droppyCalls droppyAsic (0, droppyDev) := by
  refine ⟨fun n o => ?_, rfl, fun _ => rfl⟩
  rw [Nat.zero_add]
  exact droppyCalls_outcome n o

end OpenNos.Sdk
