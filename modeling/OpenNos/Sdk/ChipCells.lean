import OpenNos.Sdk.AsicOnStack

/-! The registers and the table entries of the chip as cells. While every access succeeds, a
program on the stack is one on the cells, and an access touches the cell that it names and
no other. -/

namespace OpenNos.Sdk

open Bits OpProg Bde

/-- A register or an entry of a table. -/
inductive ChipCell
  | reg (addr : BitVec 32)
  | entry (addr : BitVec 32) (index : ℕ)
  deriving DecidableEq

/-- The cell an access is to. -/
def SbusOp.cell : SbusOp → ChipCell
  | .regRead addr | .regWrite addr _ | .regRead64 addr | .regWrite64 addr _ => .reg addr
  | .memRead addr index _ | .memWrite addr index _ _ => .entry addr index

/-- The words a write brings, as they arrive. -/
def SbusOp.brings (misc : BitVec 32) : SbusOp → Option Words
  | .regRead _ | .regRead64 _ | .memRead .. => none
  | .regWrite _ value => some fun _ => value
  | .regWrite64 _ data => some data
  | .memWrite _ _ data _ => some (Bde.arrived misc data)

/-- An access replaces the first words of its cell, or replies with them. -/
def cellStep (misc : BitVec 32) (m : ChipCell → Words) (o : SbusOp) :
    (ChipCell → Words) × Option Words :=
  match o.brings misc with
  | some data => (Function.update m o.cell (splice o.width data (m o.cell)), some fun _ => 0)
  | none => (m, some (splice o.width (m o.cell) fun _ => 0))

def chipDevice (misc : BitVec 32) : CellDevice SbusOp (Option Words) ChipCell Words where
  step := cellStep misc
  touches o := {o.cell}
  reply := by
    intro s t o h
    rw [cellStep, cellStep, h rfl]
    cases o.brings misc <;> rfl
  effect := by
    rintro s t o h c rfl
    rw [cellStep, cellStep, h rfl]
    cases o.brings misc with
    | some data =>
      dsimp only
      rw [Function.update_self, Function.update_self]
    | none => exact h rfl
  frame := by
    intro s o c hc
    rw [cellStep]
    cases o.brings misc with
    | some data => exact Function.update_of_ne hc _ _
    | none => rfl

/-- The entries of these tables. -/
def tableCells (own : Set (BitVec 32)) : Set ChipCell :=
  {c | ∃ addr ∈ own, ∃ index, c = .entry addr index}

theorem TableAccess.touches {tables : TableMap} {own long : Set (BitVec 32)} {o : SbusOp}
    (h : TableAccess tables own long o) (misc : BitVec 32) :
    (chipDevice misc).Within (tableCells own) o := by
  rintro c rfl
  cases o with
  | memRead addr index nwords => exact ⟨addr, h.1, index, rfl⟩
  | memWrite addr index data nwords => exact ⟨addr, h.1, index, rfl⟩
  | _ => exact h.elim

/-- The cells of a chip. -/
def cellsOf (s : SbusChip) : ChipCell → Words
  | .reg addr => s.space.reg (regAddr addr)
  | .entry addr index => s.space.mem (cellAddr addr index)

/-- The cells hold what the ideal chip does. -/
structure CellsHold (m : ChipCell → Words) (t : ℕ × SocDev) : Prop where
  reg : ∀ addr, t.2.reg (.sbus addr) = m (.reg addr)
  mem : ∀ addr index, t.2.mem addr index = m (.entry addr index)

variable {calls : ℕ → SbusCall} {s : SbusChip} {t : ℕ × SocDev} {m : ChipCell → Words}
  {misc addr : BitVec 32} {index : ℕ}

theorem CellsHold.writeReg (h : CellsHold m t) {d : SocDev} {w : Words}
    (hreg : d.reg = Function.update t.2.reg (.sbus addr) w) (hmem : d.mem = t.2.mem) (k : ℕ) :
    CellsHold (Function.update m (.reg addr) w) (k, d) where
  reg addr' := by
    dsimp only
    rw [hreg]
    by_cases haddr : addr' = addr
    · rw [haddr, Function.update_self, Function.update_self]
    · rw [Function.update_of_ne fun heq => haddr (SocReg.sbus.inj heq),
        Function.update_of_ne fun heq => haddr (ChipCell.reg.inj heq), h.reg]
  mem addr' index' := by
    dsimp only
    rw [hmem, h.mem, Function.update_of_ne ChipCell.noConfusion]

theorem CellsHold.writeMem (h : CellsHold m t) {d : SocDev} {w : Words} (hreg : d.reg = t.2.reg)
    (hmem : d.mem = Function.update t.2.mem addr (Function.update (t.2.mem addr) index w))
    (k : ℕ) : CellsHold (Function.update m (.entry addr index) w) (k, d) where
  reg addr' := by
    dsimp only
    rw [hreg, h.reg, Function.update_of_ne ChipCell.noConfusion]
  mem addr' index' := by
    dsimp only
    rw [hmem]
    by_cases haddr : addr' = addr
    · subst haddr
      rw [Function.update_self]
      by_cases hindex : index' = index
      · rw [hindex, Function.update_self, Function.update_self]
      · rw [Function.update_of_ne hindex,
          Function.update_of_ne fun heq => hindex (ChipCell.entry.inj heq).2, h.mem]
    · rw [Function.update_of_ne haddr,
        Function.update_of_ne fun heq => haddr (ChipCell.entry.inj heq).1, h.mem]

/-- While every access succeeds, the ideal chip is the device of its cells. -/
theorem cellStep_ideal (hreports : ∀ k o, (calls k).Reports o) (m : ChipCell → Words)
    (t : ℕ × SocDev) (o : SbusOp) (h : CellsHold m t) :
    (cellStep misc m o).2 = (idealStep misc calls t o).2 ∧
      CellsHold (cellStep misc m o).1 (idealStep misc calls t o).1 := by
  have hok : (calls t.1).outcome o = .ok := outcome_ok.mpr (hreports _ o)
  have hne : ¬ Outcome.ok = .lost := nofun
  cases o with
  | regRead addr =>
    simp only [cellStep, SbusOp.brings, idealStep, SbusOp.arrived, SocDev.sbusStep, SocDev.readReg,
      SbusCall.on, hok, if_true, Option.map_some, SbusOp.cell, h.reg]
    exact ⟨trivial, h.reg, h.mem⟩
  | regRead64 addr =>
    simp only [cellStep, SbusOp.brings, idealStep, SbusOp.arrived, SocDev.sbusStep, SocDev.readReg,
      SbusCall.on, hok, if_true, Option.map_some, SbusOp.cell, h.reg]
    exact ⟨trivial, h.reg, h.mem⟩
  | memRead addr index nwords =>
    simp only [cellStep, SbusOp.brings, idealStep, SbusOp.arrived, SocDev.sbusStep, SocDev.readMem,
      SbusCall.on, hok, if_true, Option.map_some, SbusOp.cell, h.mem]
    exact ⟨trivial, h.reg, h.mem⟩
  | regWrite addr value =>
    simp only [cellStep, SbusOp.brings, idealStep, SbusOp.arrived, SocDev.sbusStep, SocDev.writeReg,
      SbusCall.on, hok, if_true, if_neg hne, Option.map_some, SbusOp.cell, h.reg]
    refine ⟨congrArg some (splice_zero _).symm, h.writeReg ?_ ?_ _⟩ <;> rfl
  | regWrite64 addr data =>
    simp only [cellStep, SbusOp.brings, idealStep, SbusOp.arrived, SocDev.sbusStep, SocDev.writeReg,
      SbusCall.on, hok, if_true, if_neg hne, Option.map_some, SbusOp.cell, h.reg]
    refine ⟨congrArg some (splice_zero _).symm, h.writeReg ?_ ?_ _⟩ <;> rfl
  | memWrite addr index data nwords =>
    simp only [cellStep, SbusOp.brings, idealStep, SbusOp.arrived, SocDev.sbusStep, SocDev.writeMem,
      SbusCall.on, hok, if_true, if_neg hne, Option.map_some, SbusOp.cell, h.mem]
    refine ⟨congrArg some (splice_zero _).symm, h.writeMem ?_ ?_ _⟩ <;> rfl

/-- While every access succeeds, a program on the stack is one on the cells. -/
theorem runOn_cells (honest : ∀ k, (calls k).Honest) (hreports : ∀ k o, (calls k).Reports o)
    (hidle : s.running = none) (k : ℕ) {α : Type} {p : Sbus α} (hp : p.EachOp sdkTables.Within) :
    let run := p.runOn (stackStep calls) (k, s)
    let cells := p.runOn (chipDevice (s.reg CMIC_MISC_CONTROL)).step (cellsOf s)
    run.1 = cells.1 ∧ (∀ addr, run.2.2.space.reg (regAddr addr) = cells.2 (.reg addr)) ∧
      ∀ addr, ∀ index < sdkTables.size addr,
        run.2.2.space.mem (cellAddr addr index) = cells.2 (.entry addr index) := by
  have hhold : CellsHold (cellsOf s) (k, idealOf s) := ⟨fun _ => rfl, fun _ _ => rfl⟩
  obtain ⟨hreply, -, hprovides⟩ := runOn_stack honest hp (provides_ideal hidle) k
  obtain ⟨hreply', hcells⟩ :=
    runOn_related (fun m t o _ h => cellStep_ideal hreports m t o h) hp hhold
  refine ⟨hreply.trans hreply'.symm, fun addr => ?_, fun addr index hindex => ?_⟩
  · exact (hprovides.reg addr).trans (hcells.reg addr)
  · exact (hprovides.mem addr index hindex).trans (hcells.mem addr index)

end OpenNos.Sdk
