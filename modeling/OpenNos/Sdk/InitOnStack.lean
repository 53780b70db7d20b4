import OpenNos.Lib.EditProg
import OpenNos.Sdk.InitTraverse

/-! The datapath initialisation on the stack, as a daemon repeats it that is started again
on a chip in use. It leaves the tables of forwarding alone, however its accesses fail; and
if none fails, a second run of it leaves every register and table as the first did. -/

namespace OpenNos.Sdk

open Bits OpProg RegEdit Bde

/-! ### Where the initialisation goes -/

/-- An access to a register, or within a table of the initialisation. -/
def InitOp : SbusOp → Prop
  | .memRead addr index nwords | .memWrite addr index _ nwords => InInitTable addr index nwords
  | _ => True

theorem initClosed_eachOp : InitClosed fun _ (p : Sbus _) => p.EachOp InitOp where
  toClosed := closed_eachOp
  regWrite _ _ := eachOp_bind (eachOp_perform trivial) fun _ => eachOp_pure _
  regWrite64 _ _ := eachOp_bind (eachOp_perform trivial) fun _ => eachOp_pure _
  regModify _ _ _ := eachOp_bind (eachOp_perform trivial) fun reply => by
    cases reply with
    | none => exact eachOp_pure _
    | some cur => exact eachOp_bind (eachOp_perform trivial) fun _ => eachOp_pure _
  look _ _ h := eachOp_bind h fun _ => eachOp_bind (eachOp_perform trivial) fun _ => eachOp_pure _
  memWrite _ h := eachOp_bind (eachOp_perform h) fun _ => eachOp_pure _
  update _ _ h _ := eachOp_bind (eachOp_perform h) fun _ =>
    closed_eachOp.discard (eachOp_bind (eachOp_perform h) fun _ => eachOp_pure _)
  guarded _ _ _ h := by
    refine eachOp_bind (eachOp_bind (eachOp_perform trivial) fun _ => eachOp_pure _) fun ok => ?_
    cases ok with
    | false => exact eachOp_pure _
    | true => exact h
  phase _ hinit hrest := by
    refine eachOp_bind hinit fun rc => ?_
    split_ifs
    · exact eachOp_pure _
    · exact hrest

theorem datapathInit_initOp : datapathInit.EachOp InitOp := initClosed_eachOp.datapathInit

theorem sizeIn_append {tables tables' : List (BitVec 32 × ℕ)} {addr : BitVec 32}
    (h : 0 < sizeIn tables addr) : sizeIn (tables ++ tables') addr = sizeIn tables addr := by
  rw [sizeIn] at h
  rw [sizeIn, sizeIn, List.find?_append]
  cases hfind : tables.find? fun t => t.1 = addr with
  | none =>
    rw [hfind] at h
    exact absurd h (lt_irrefl 0)
  | some t => rfl

theorem InInitTable.within {addr : BitVec 32} {index nwords : ℕ}
    (h : InInitTable addr index nwords) : index < sdkTables.size addr ∧ nwords ≤ 14 := by
  refine ⟨?_, h.2⟩
  change index < sizeIn (initTables ++ forwardingTables) addr
  rw [sizeIn_append (Nat.zero_lt_of_lt h.1)]
  exact h.1

theorem InitOp.within (o : SbusOp) (h : InitOp o) : sdkTables.Within o := by
  cases o with
  | memRead addr index nwords => exact InInitTable.within h
  | memWrite addr index data nwords => exact InInitTable.within h
  | _ => exact trivial

variable {calls : ℕ → SbusCall} {s : SbusChip}

/-- Some accesses are refused after they have been carried out. -/
def patchyCalls (k : ℕ) : SbusCall := if k % 3 = 0 then refusedCall else promptCall

theorem patchyCalls_honest (k : ℕ) : (patchyCalls k).Honest := by
  rw [patchyCalls]
  split_ifs
  · exact refusedCall_honest
  · exact promptCall_honest

/-- The initialisation does on the stack what it does on the ideal chip. -/
theorem sbus_on_stack_datapathInit :
    let run := datapathInit.runOn (stackStep patchyCalls) (0, blankChip)
    let ideal := datapathInit.runOn (idealStep (blankChip.reg CMIC_MISC_CONTROL) patchyCalls)
      (0, idealOf blankChip)
    run.1 = ideal.1 ∧ run.2.1 = ideal.2.1 ∧
      Provides sdkTables blankChip.reg run.2.2 ideal.2.2 ∧
        (datapathInit.EachOp SbusOp.Short →
          ideal = datapathInit.runOn (plainStep patchyCalls) (0, idealOf blankChip)) :=
  sbus_on_stack patchyCalls_honest (datapathInit_initOp.mono InitOp.within) (provides_ideal rfl) 0

/-! ### What it leaves alone -/

/-- A table of forwarding is no table of the initialisation. -/
theorem sizeIn_initTables {addr : BitVec 32} {size : ℕ} (h : (addr, size) ∈ forwardingTables) :
    sizeIn initTables addr = 0 :=
  (by decide : ∀ t ∈ forwardingTables, sizeIn initTables t.1 = 0) _ h

theorem size_sdkTables {addr : BitVec 32} {size : ℕ} (h : (addr, size) ∈ forwardingTables) :
    sdkTables.size addr = size :=
  (by decide : ∀ t ∈ forwardingTables, sizeIn (initTables ++ forwardingTables) t.1 = t.2) _ h

/-- However the accesses fail, the entries of the forwarding tables stay. -/
theorem datapathInit_keeps_forwarding (honest : ∀ k, (calls k).Honest) (hidle : s.running = none)
    (k : ℕ) {table : BitVec 32} {size : ℕ} (ht : (table, size) ∈ forwardingTables) {index : ℕ}
    (hindex : index < size) :
    (datapathInit.runOn (stackStep calls) (k, s)).2.2.space.mem (cellAddr table index) =
      s.space.mem (cellAddr table index) := by
  have hrun := runOn_stack honest (datapathInit_initOp.mono InitOp.within) (provides_ideal hidle) k
  obtain ⟨-, -, hprovides⟩ := hrun
  rw [hprovides.mem _ _ (by rwa [size_sdkTables ht])]
  let Keeps (d : ℕ × SocDev) : Prop := d.2.mem table = (idealOf s).mem table
  have hkeep : ∀ d o, InitOp o → Keeps d →
      Keeps (idealStep (s.reg CMIC_MISC_CONTROL) calls d o).1 := by
    intro d o ho hd
    cases o with
    | memWrite addr i data nwords =>
      have hne : table ≠ addr := by
        intro heq
        have hlt : i < sizeIn initTables addr := ho.1
        rw [← heq, sizeIn_initTables ht] at hlt
        exact absurd hlt (Nat.not_lt_zero i)
      dsimp only [idealStep, SbusOp.arrived, SocDev.sbusStep, SocDev.writeMem]
      split_ifs
      · exact hd
      · exact (Function.update_of_ne hne _ _).trans hd
    | regWrite addr value =>
      dsimp only [idealStep, SbusOp.arrived, SocDev.sbusStep, SocDev.writeReg]
      split_ifs <;> exact hd
    | regWrite64 addr data =>
      dsimp only [idealStep, SbusOp.arrived, SocDev.sbusStep, SocDev.writeReg]
      split_ifs <;> exact hd
    | regRead addr => exact hd
    | regRead64 addr => exact hd
    | memRead addr i nwords => exact hd
  have hinv : Keeps _ := runOn_invariant hkeep datapathInit_initOp (s := (k, idealOf s)) rfl
  exact congrFun hinv index

/-- A chip with an entry in slot 77 of L2_ENTRY. -/
def chipWithEntry (entry : Words) : SbusChip :=
  { blankChip with
    space :=
      { blankChip.space with
        mem := Function.update blankChip.space.mem (cellAddr L2_ENTRY_BASE 77) entry } }

/-- A host entry survives an initialisation with refused accesses. -/
theorem datapathInit_keeps_l2Entry :
    let entry := wordsOf [0x02000100, 0x5e001234, 0x00070001, 0x00000001]
    (datapathInit.runOn (stackStep patchyCalls) (0, chipWithEntry entry)).2.2.space.mem
      (cellAddr L2_ENTRY_BASE 77) = entry := by
  intro entry
  have htable : (L2_ENTRY_BASE, 131072) ∈ forwardingTables := List.mem_cons_self
  have hentry : (chipWithEntry entry).space.mem (cellAddr L2_ENTRY_BASE 77) = entry := by
    simp [chipWithEntry]
  exact (datapathInit_keeps_forwarding patchyCalls_honest rfl 0 htable (by decide)).trans hentry

/-! ### What a run after a failed one leaves -/

/-- A word of a register or of a table entry. -/
inductive SdkCell
  | reg (addr : BitVec 32) (j : ℕ)
  | mem (addr : BitVec 32) (index j : ℕ)
  deriving DecidableEq

def sdkCells (d : ℕ × SocDev) : SdkCell → BitVec 32
  | .reg addr j => d.2.reg (.sbus addr) j
  | .mem addr index j => d.2.mem addr index j

theorem sdkCells_snd (k : ℕ) (d : ℕ × SocDev) : sdkCells (k, d.2) = sdkCells d := by
  funext cell
  cases cell <;> rfl

theorem reg_injective (addr : BitVec 32) : Function.Injective (SdkCell.reg addr) :=
  fun _ _ h => (SdkCell.reg.inj h).2

theorem mem_injective (addr : BitVec 32) (index : ℕ) :
    Function.Injective (SdkCell.mem addr index) := fun _ _ h => (SdkCell.mem.inj h).2.2

variable {d : SocDev} {n : ℕ}

/-- A write that is not lost edits the words it transfers. -/
theorem sdkCells_writeReg {addr : BitVec 32} {w : Words} {clear set : ℕ → BitVec 32}
    (hw : ∀ j < n, w j = d.reg (.sbus addr) j &&& ~~~clear j ||| set j) (i k : ℕ) :
    sdkCells (i, (d.writeReg (.sbus addr) w n).1) = if d.outcome 0 = .lost then sdkCells (k, d)
      else run (wordEdits (SdkCell.reg addr) clear set n) (sdkCells (k, d)) := by
  rw [SocDev.writeReg]
  by_cases hlost : d.outcome 0 = .lost
  · rw [if_pos hlost, if_pos hlost]
    rfl
  rw [if_neg hlost, if_neg hlost]
  funext cell
  cases cell with
  | reg addr' j =>
    by_cases haddr : addr' = addr
    · rw [haddr, run_wordEdits (reg_injective addr)]
      dsimp only [sdkCells]
      rw [Function.update_self, splice]
      split_ifs with hj
      · exact hw j hj
      · rfl
    · have hne : ∀ j' < n, SdkCell.reg addr' j ≠ .reg addr j' :=
        fun j' _ heq => haddr (SdkCell.reg.inj heq).1
      rw [run_wordEdits_of_ne hne]
      exact congrFun (Function.update_of_ne (fun heq => haddr (SocReg.sbus.inj heq)) _ _) j
  | mem addr' index j =>
    have hne : ∀ j' < n, SdkCell.mem addr' index j ≠ .reg addr j' := fun _ _ => by simp
    rw [run_wordEdits_of_ne hne]
    rfl

theorem sdkCells_writeMem {addr : BitVec 32} {index : ℕ} {w : Words} {clear set : ℕ → BitVec 32}
    (hw : ∀ j < n, w j = d.mem addr index j &&& ~~~clear j ||| set j) (i k : ℕ) :
    sdkCells (i, (d.writeMem addr index w n).1) = if d.outcome 0 = .lost then sdkCells (k, d)
      else run (wordEdits (SdkCell.mem addr index) clear set n) (sdkCells (k, d)) := by
  rw [SocDev.writeMem]
  by_cases hlost : d.outcome 0 = .lost
  · rw [if_pos hlost, if_pos hlost]
    rfl
  rw [if_neg hlost, if_neg hlost]
  funext cell
  cases cell with
  | reg addr' j =>
    have hne : ∀ j' < n, SdkCell.reg addr' j ≠ .mem addr index j' := fun _ _ => by simp
    rw [run_wordEdits_of_ne hne]
    rfl
  | mem addr' index' j =>
    by_cases hcell : addr' = addr ∧ index' = index
    · obtain ⟨rfl, rfl⟩ := hcell
      rw [run_wordEdits (mem_injective addr' index')]
      dsimp only [sdkCells]
      rw [Function.update_self, Function.update_self, splice]
      split_ifs with hj
      · exact hw j hj
      · rfl
    · have hne : ∀ j' < n, SdkCell.mem addr' index' j ≠ .mem addr index j' :=
        fun j' _ heq => hcell ⟨(SdkCell.mem.inj heq).1, (SdkCell.mem.inj heq).2.1⟩
      rw [run_wordEdits_of_ne hne]
      dsimp only [sdkCells]
      by_cases haddr : addr' = addr
      · subst haddr
        rw [Function.update_self, Function.update_of_ne fun heq => hcell ⟨rfl, heq⟩]
      · rw [Function.update_of_ne haddr]

/-- A run of accesses of which only reads of registers and writes fail, and one in which
none does. -/
structure RetryCalls (calls calls' : ℕ → SbusCall) : Prop where
  reads : ∀ k addr index nwords, (calls k).Reports (.memRead addr index nwords)
  sound : ∀ k o, (calls' k).Reports o

/-- A phase that succeeds is followed by the rest. -/
theorem phase_runOn {σ : Type} {init rest : Sbus ℤ} (hzero : init.Returns (· = 0))
    (step : σ → SbusOp → σ × Option Words) (s : σ) :
    (phase init rest).runOn step s = (init >>= fun _ => rest).runOn step s := by
  have hrc : (init.runOn step s).1 = 0 := hzero.runOn step s
  rw [phase, runOn_bind, runOn_bind, hrc]
  rfl

section Retry

variable {misc : BitVec 32} {calls' : ℕ → SbusCall} (retry : RetryCalls calls calls')

/-- An access whose effect is this list of edits, unless it is lost. -/
def Effects (misc : BitVec 32) (o : SbusOp) (es : List (Edit SdkCell 32)) : Prop :=
  ∀ (d : SocDev) (i k : ℕ), sdkCells (i, (d.sbusStep (o.arrived misc)).1) =
    if d.outcome 0 = .lost then sdkCells (k, d) else run es (sdkCells (k, d))

theorem effects_writeReg {o : SbusOp} {addr : BitVec 32} {w : Words}
    (ho : ∀ d : SocDev, d.sbusStep (o.arrived misc) = d.writeReg (.sbus addr) w n) :
    Effects misc o (wordEdits (SdkCell.reg addr) (fun _ => BitVec.allOnes 32) w n) := by
  intro d i k
  rw [ho]
  exact sdkCells_writeReg (fun j _ => by simp) i k

theorem effects_writeMem (addr : BitVec 32) (index : ℕ) (data : Words) :
    Effects misc (.memWrite addr index data n) (wordEdits (SdkCell.mem addr index)
      (fun _ => BitVec.allOnes 32) (arrived misc data) n) :=
  fun d i k => sdkCells_writeMem (fun j _ => by simp) i k

theorem isSome_write (misc : BitVec 32) {d : SocDev} (hd : d.outcome 0 = .ok) {o : SbusOp}
    (ho : o.isWrite = true) :
    (d.sbusStep (o.arrived misc)).2.isSome = true := by
  cases o with
  | regWrite addr value => simp [SbusOp.arrived, SocDev.sbusStep, SocDev.writeReg, hd]
  | regWrite64 addr data => simp [SbusOp.arrived, SocDev.sbusStep, SocDev.writeReg, hd]
  | memWrite addr index data n => simp [SbusOp.arrived, SocDev.sbusStep, SocDev.writeMem, hd]
  | _ => exact absurd ho (by simp [SbusOp.isWrite])

/-- A register changed under a mask. -/
def modifyEdits (addr mask value : BitVec 32) : List (Edit SdkCell 32) :=
  wordEdits (SdkCell.reg addr) (fun _ => mask) (fun _ => value &&& mask) 1

/-- What is written back to the register. -/
def modified (d : SocDev) (addr mask value : BitVec 32) : BitVec 32 :=
  (d.reg (.sbus addr) 0 &&& ~~~mask) ||| (value &&& mask)

/-- A change under a mask, by how the read and the write end. -/
theorem modify_runOn (misc : BitVec 32) (calls : ℕ → SbusCall) (addr mask value : BitVec 32)
    (d : ℕ × SocDev) :
    let read := (calls d.1).outcome (.regRead addr)
    let write := (calls (d.1 + 1)).outcome (.regWrite addr (modified d.2 addr mask value))
    let after := (sbusRegModify addr mask value).runOn (idealStep misc calls) d
    after.1 = decide (read = .ok ∧ write = .ok) ∧
      sdkCells after.2 = if read = .ok ∧ write ≠ .lost
        then run (modifyEdits addr mask value) (sdkCells d) else sdkCells d := by
  intro read write after
  let v := modified d.2 addr mask value
  let d₁ := (idealStep misc calls d (.regRead addr)).1
  have hreply : (idealStep misc calls d (.regRead addr)).2 =
      if read = .ok then some (splice 1 (d.2.reg (.sbus addr)) fun _ => 0) else none := by
    dsimp only [idealStep, SbusOp.arrived, SocDev.sbusStep, SocDev.readReg, SbusCall.on, read]
    split_ifs <;> rfl
  by_cases hread : read = .ok
  · have hafter : after = ((idealStep misc calls d₁ (.regWrite addr v)).2.isSome,
        (idealStep misc calls d₁ (.regWrite addr v)).1) := by
      dsimp only [after]
      rw [sbusRegModify, runOn_bind, runOn_perform, hreply, if_pos hread]
      rfl
    have hword : ∀ j < 1, v = d.2.reg (.sbus addr) j &&& ~~~mask ||| value &&& mask := by
      intro j hj
      rw [Nat.lt_one_iff.mp hj]
      rfl
    have hcells := sdkCells_writeReg (d := (calls d₁.1).on (.regWrite addr v) d₁.2) hword
      (d₁.1 + 1) d.1
    have hwrite : ((calls d₁.1).on (.regWrite addr v) d₁.2).outcome 0 = write := rfl
    rw [hwrite] at hcells
    rw [hafter]
    constructor
    · dsimp only [idealStep, SbusOp.arrived, SocDev.sbusStep, SocDev.writeReg]
      rw [Option.isSome_map, hwrite]
      by_cases hwrite : write = .ok
      · rw [if_pos hwrite, decide_eq_true ⟨hread, hwrite⟩]
        rfl
      · rw [if_neg hwrite, decide_eq_false fun h => hwrite h.2]
        rfl
    · refine hcells.trans ?_
      by_cases hlost : write = .lost
      · rw [if_pos hlost, if_neg fun h => h.2 hlost]
        rfl
      · rw [if_neg hlost, if_pos ⟨hread, hlost⟩]
        rfl
  · have hafter : after = (false, d₁) := by
      dsimp only [after]
      rw [sbusRegModify, runOn_bind, runOn_perform, hreply, if_neg hread]
      rfl
    rw [hafter, decide_eq_false fun h => hread h.1, if_neg fun h => hread h.1]
    exact ⟨rfl, rfl⟩

/-- The edits of an entry read, changed and written back; MISC_CONTROL takes the place of
word 5. -/
def updateEdits (misc addr : BitVec 32) (index n : ℕ) (clear set : ℕ → BitVec 32) :
    List (Edit SdkCell 32) :=
  wordEdits (SdkCell.mem addr index) (Function.update clear 5 (BitVec.allOnes 32))
    (Function.update set 5 misc) n

theorem update_runOn (misc : BitVec 32) {addr : BitVec 32} {index : ℕ} {f : Words → Words}
    {clear set : ℕ → BitVec 32} (hf : ∀ w j, f w j = w j &&& ~~~clear j ||| set j)
    {d : ℕ × SocDev} (hread : (calls d.1).outcome (.memRead addr index n) = .ok) :
    let entry := splice n (d.2.mem addr index) fun _ => 0
    let write := (calls (d.1 + 1)).outcome (.memWrite addr index (f entry) n)
    let after := (sbusMemRead addr index n >>= fun entry =>
      (discard (sbusMemWrite addr index (f (entry.getD fun _ => 0)) n) : Sbus Unit)).runOn
        (idealStep misc calls) d
    sdkCells after.2 = if write ≠ .lost
      then run (updateEdits misc addr index n clear set) (sdkCells d) else sdkCells d := by
  intro entry write after
  let d₁ := (idealStep misc calls d (.memRead addr index n)).1
  have hreply : (idealStep misc calls d (.memRead addr index n)).2 = some entry := by
    dsimp only [idealStep, SbusOp.arrived, SocDev.sbusStep, SocDev.readMem, SbusCall.on]
    rw [if_pos hread]
    rfl
  have hafter : after.2 = (idealStep misc calls d₁ (.memWrite addr index (f entry) n)).1 := by
    dsimp only [after]
    rw [sbusMemRead, runOn_bind, runOn_perform, hreply, runOn_discard, sbusMemWrite, runOn_bind,
      runOn_perform]
    rfl
  have hword : ∀ j < n, arrived misc (f entry) j =
      d.2.mem addr index j &&& ~~~Function.update clear 5 (BitVec.allOnes 32) j |||
        Function.update set 5 misc j := by
    intro j hj
    rw [arrived]
    by_cases h5 : j = 5
    · rw [h5, Function.update_self, Function.update_self, Function.update_self]
      simp
    · rw [Function.update_of_ne h5, Function.update_of_ne h5, Function.update_of_ne h5, hf,
        show entry j = d.2.mem addr index j from if_pos hj]
  have hcells := sdkCells_writeMem
    (d := (calls d₁.1).on (.memWrite addr index (f entry) n) d₁.2) hword (d₁.1 + 1) d.1
  have hwrite : ((calls d₁.1).on (.memWrite addr index (f entry) n) d₁.2).outcome 0 = write := rfl
  rw [hwrite] at hcells
  rw [hafter]
  refine hcells.trans ?_
  by_cases hlost : write = .lost
  · rw [if_pos hlost, if_neg fun h => h hlost]
    rfl
  · rw [if_neg hlost, if_pos hlost]
    rfl

include retry

/-- A write, checked for success. -/
theorem makes_write {o : SbusOp} {es : List (Edit SdkCell 32)} (ho : o.isWrite = true)
    (heff : Effects misc o es) : Makes (idealStep misc calls') sdkCells
      (perform o >>= fun reply => pure reply.isSome) true es := by
  intro d
  have hd : ((calls' d.1).on o d.2).outcome 0 = .ok := outcome_ok.mpr (retry.sound d.1 o)
  have hsome := isSome_write misc hd ho
  have hcells := heff ((calls' d.1).on o d.2) (d.1 + 1) d.1
  rw [if_neg (by rw [hd]; decide)] at hcells
  refine ⟨?_, hcells⟩
  change (Option.map _ _).isSome = true
  rw [Option.isSome_map]
  exact hsome

omit retry in
theorem makesAmong_write {o : SbusOp} {es : List (Edit SdkCell 32)} (heff : Effects misc o es) :
    MakesAmong (idealStep misc calls) sdkCells (perform o >>= fun reply => pure reply.isSome)
      es := by
  intro d
  have hcells := heff ((calls d.1).on o d.2) (d.1 + 1) d.1
  by_cases hlost : ((calls d.1).on o d.2).outcome 0 = .lost
  · rw [if_pos hlost] at hcells
    exact ⟨[], fun _ h => absurd h List.not_mem_nil, hcells⟩
  · rw [if_neg hlost] at hcells
    exact ⟨es, fun _ h => h, hcells⟩

theorem retriable_write {o : SbusOp} {es : List (Edit SdkCell 32)} (ho : o.isWrite = true)
    (heff : Effects misc o es) : Retriable (idealStep misc calls') (idealStep misc calls) sdkCells
      (perform o >>= fun reply => pure reply.isSome) :=
  ⟨true, es, makes_write retry ho heff, makesAmong_write heff⟩

theorem retriable_modify (addr mask value : BitVec 32) :
    Retriable (idealStep misc calls') (idealStep misc calls) sdkCells
      (sbusRegModify addr mask value) := by
  refine ⟨true, modifyEdits addr mask value, fun d => ?_, fun d => ?_⟩
  · obtain ⟨hresult, hcells⟩ := modify_runOn misc calls' addr mask value d
    have hread := outcome_ok.mpr (retry.sound d.1 (.regRead addr))
    have hwrite := outcome_ok.mpr
      (retry.sound (d.1 + 1) (.regWrite addr (modified d.2 addr mask value)))
    exact ⟨hresult.trans (decide_eq_true ⟨hread, hwrite⟩),
      hcells.trans (if_pos ⟨hread, by rw [hwrite]; decide⟩)⟩
  · obtain ⟨-, hcells⟩ := modify_runOn misc calls addr mask value d
    split_ifs at hcells
    · exact ⟨_, fun _ h => h, hcells⟩
    · exact ⟨[], fun _ h => absurd h List.not_mem_nil, hcells⟩

theorem retriable_update {addr : BitVec 32} {index : ℕ} {f : Words → Words}
    {clear set : ℕ → BitVec 32} (hf : ∀ w j, f w j = w j &&& ~~~clear j ||| set j) :
    Retriable (idealStep misc calls') (idealStep misc calls) sdkCells
      (sbusMemRead addr index n >>= fun entry =>
        (discard (sbusMemWrite addr index (f (entry.getD fun _ => 0)) n) : Sbus Unit)) := by
  refine ⟨(), updateEdits misc addr index n clear set, fun d => ⟨rfl, ?_⟩, fun d => ?_⟩
  · have hread := outcome_ok.mpr (retry.sound d.1 (.memRead addr index n))
    have hwrite := outcome_ok.mpr (retry.sound (d.1 + 1)
      (.memWrite addr index (f (splice n (d.2.mem addr index) fun _ => 0)) n))
    exact (update_runOn misc hf hread).trans (if_pos (by rw [hwrite]; decide))
  · have hcells := update_runOn misc hf
      (outcome_ok.mpr (retry.reads d.1 addr index n) : (calls d.1).outcome _ = .ok)
    dsimp only at hcells
    split_ifs at hcells
    · exact ⟨_, fun _ h => h, hcells⟩
    · exact ⟨[], fun _ h => absurd h List.not_mem_nil, hcells⟩

theorem initClosed_retriable : InitClosed fun _ (p : Sbus _) =>
    Retriable (idealStep misc calls') (idealStep misc calls) sdkCells p where
  toClosed := closed_retriable
  regWrite _ _ := retriable_write retry rfl (effects_writeReg fun _ => rfl)
  regWrite64 _ _ := retriable_write retry rfl (effects_writeReg fun _ => rfl)
  regModify := retriable_modify retry
  look _ g h := retriable_look (fun _ => rfl) (fun _ => rfl) g h
  memWrite _ _ := retriable_write retry rfl (effects_writeMem _ _ _)
  update _ _ _ hf := retriable_update retry hf
  guarded addr value a := by
    rintro ⟨b, es, hq, hq'⟩
    have heff : Effects misc (.regWrite addr value) _ := effects_writeReg fun _ => rfl
    refine ⟨b, _, (makes_write retry rfl heff).bind hq, (makesAmong_write heff).bind fun ok => ?_⟩
    cases ok with
    | false => exact makesAmong_pure a es
    | true => exact hq'
  phase hzero hinit hrest := retriable_congr (phase_runOn hzero _) (phase_runOn hzero _)
    (closed_retriable.seq hinit hrest)

end Retry

/-- After an initialisation that failed, one that does not leaves every register and table
as it would have left them in the first place. -/
theorem datapathInit_recovers {calls' : ℕ → SbusCall} (honest : ∀ k, (calls k).Honest)
    (honest' : ∀ k, (calls' k).Honest) (retry : RetryCalls calls calls')
    (hidle : s.running = none) (k k' : ℕ) :
    let failed := (datapathInit.runOn (stackStep calls) (k, s)).2.2
    let retried := (datapathInit.runOn (stackStep calls') (k', failed)).2.2
    let direct := (datapathInit.runOn (stackStep calls') (k', s)).2.2
    (∀ addr, retried.space.reg (regAddr addr) = direct.space.reg (regAddr addr)) ∧
      ∀ addr, ∀ index < sdkTables.size addr,
        retried.space.mem (cellAddr addr index) = direct.space.mem (cellAddr addr index) := by
  intro failed retried direct
  have hwithin := datapathInit_initOp.mono InitOp.within
  obtain ⟨-, -, hfailed⟩ := runOn_stack honest hwithin (provides_ideal hidle) k
  obtain ⟨-, -, hretried⟩ := runOn_stack honest' hwithin hfailed k'
  obtain ⟨-, -, hdirect⟩ := runOn_stack honest' hwithin (provides_ideal hidle) k'
  have hretriable : Retriable (idealStep (s.reg CMIC_MISC_CONTROL) calls')
      (idealStep (s.reg CMIC_MISC_CONTROL) calls) sdkCells datapathInit :=
    (initClosed_retriable retry).datapathInit
  have hcells := hretriable.recovers (s := (k', idealOf s)) (t := (k, idealOf s))
    (sdkCells_snd k (k', idealOf s)).symm (sdkCells_snd k' _)
  constructor
  · intro addr
    rw [hretried.reg, hdirect.reg]
    funext j
    exact congrFun hcells (.reg addr j)
  · intro addr index hindex
    rw [hretried.mem addr index hindex, hdirect.mem addr index hindex]
    funext j
    exact congrFun hcells (.mem addr index j)

/-- The device answers reads, and loses what is written. -/
def lossyCall : SbusCall :=
  { promptCall with
    ending := fun o => if o.isWrite then ⟨none, 0, 0, false⟩ else promptCall.ending o }

theorem lossyCall_honest : lossyCall.Honest := by
  rintro o ⟨⟨-, -, ⟨k, hafter, -⟩, -⟩, -⟩
  dsimp only [lossyCall] at hafter ⊢
  split_ifs at hafter ⊢
  rfl

/-- Every third access loses what it writes. -/
def lossyCalls (k : ℕ) : SbusCall := if k % 3 = 0 then lossyCall else promptCall

theorem lossyCalls_honest (k : ℕ) : (lossyCalls k).Honest := by
  rw [lossyCalls]
  split_ifs
  · exact lossyCall_honest
  · exact promptCall_honest

theorem lossyCalls_retry : RetryCalls lossyCalls fun _ => promptCall := by
  refine ⟨fun k addr index n => ?_, fun _ => promptCall_reports⟩
  rw [lossyCalls]
  split_ifs <;> exact promptCall_reports (.memRead addr index n)

theorem datapathInit_recovers_lossy :
    let failed := (datapathInit.runOn (stackStep lossyCalls) (0, blankChip)).2.2
    let retried := (datapathInit.runOn (stackStep fun _ => promptCall) (0, failed)).2.2
    let direct := (datapathInit.runOn (stackStep fun _ => promptCall) (0, blankChip)).2.2
    (∀ addr, retried.space.reg (regAddr addr) = direct.space.reg (regAddr addr)) ∧
      ∀ addr, ∀ index < sdkTables.size addr,
        retried.space.mem (cellAddr addr index) = direct.space.mem (cellAddr addr index) :=
  datapathInit_recovers lossyCalls_honest (fun _ => promptCall_honest) lossyCalls_retry rfl 0 0

end OpenNos.Sdk
