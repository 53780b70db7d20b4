import OpenNos.Sdk.MiimIsolation

/-! The MIIM engine and the PHYs behind it, as one thread finds them. A transaction is
carried out at the poll that finds it done, from the registers as they are then; one
that is still at work when the caller gives up is reset and leaves no effect. Whether
and when each transaction is done is fixed in advance, by its number. What the PHYs do
apart from their selection registers is a parameter. -/

namespace OpenNos.Sdk

open Bits RegProg Bde

/-- The registers of the PHYs behind their selection registers. A read finds a value by
its register, and by the number of the transaction where the value comes from elsewhere,
and may change the state. -/
structure PhyCore (κ : Type) where
  read : κ → ℕ → PhyAddr → Target → BitVec 16 × κ
  write : κ → PhyAddr → Target → BitVec 16 → κ

/-- The PHYs and the number of transactions so far. -/
structure PhyBus (κ : Type) where
  select : PhyAddr → Select
  core : κ
  count : ℕ

/-- A transaction triggered and not done. -/
structure MiimWork where
  isWrite : Bool
  number : ℕ
  /-- how many polls still find it at work -/
  polls : ℕ

structure MiimDev (κ : Type) where
  reg : ℕ → BitVec 32
  bus : PhyBus κ
  work : Option MiimWork

variable {κ : Type} (C : PhyCore κ) (delay : ℕ → ℕ)

namespace PhyBus

variable (b : PhyBus κ)

def tick : PhyBus κ := { b with count := b.count + 1 }

/-- What a register number of a PHY reaches. -/
def reaches (phy : PhyAddr) (reg : BitVec 5) : Target := (b.select phy).resolve reg

def readTarget (number : ℕ) (phy : PhyAddr) (target : Target) : BitVec 16 × PhyBus κ :=
  match (b.select phy).get target with
  | some v => (v, b)
  | none =>
    let (v, core) := C.read b.core number phy target
    (v, { b with core := core })

def writeTarget (phy : PhyAddr) (target : Target) (data : BitVec 16) : PhyBus κ :=
  match (b.select phy).get target with
  | some _ =>
    { b with select := Function.update b.select phy ((b.select phy).write target data) }
  | none => { b with core := C.write b.core phy target data }

end PhyBus

namespace MiimDev

variable (s : MiimDev κ)

/-- The fields of the parameter and address registers. -/
def phy : PhyAddr :=
  ⟨(s.reg CMIC_MIIM_PARAM >>> 22).setWidth 3, (s.reg CMIC_MIIM_PARAM >>> 16).setWidth 5⟩

def address : BitVec 5 := (s.reg CMIC_MIIM_ADDRESS).setWidth 5

def data : BitVec 16 := (s.reg CMIC_MIIM_PARAM).setWidth 16

def setReg (off : ℕ) (v : BitVec 32) : MiimDev κ :=
  { s with reg := Function.update s.reg off (written off (s.reg off) v) }

/-- The engine is set going. -/
def trigger (isWrite : Bool) : MiimDev κ :=
  { s with
    bus := s.bus.tick
    work := some ⟨isWrite, s.bus.count, delay s.bus.count⟩ }

/-- The engine carries its transaction out, and sets DONE. -/
def complete (w : MiimWork) : MiimDev κ :=
  let target := s.bus.reaches s.phy s.address
  let done := Function.update s.reg CMIC_MIIM_CTRL (s.reg CMIC_MIIM_CTRL ||| CMIC_MIIM_CTRL_DONE)
  if w.isWrite then { reg := done, bus := s.bus.writeTarget C s.phy target s.data, work := none }
  else
    let (v, bus) := s.bus.readTarget C w.number s.phy target
    { reg := Function.update done CMIC_MIIM_READ_DATA (v.setWidth 32), bus := bus, work := none }

/-- A poll of the control register. -/
def poll : MiimDev κ :=
  match s.work with
  | none => s
  | some ⟨isWrite, number, 0⟩ => s.complete C ⟨isWrite, number, 0⟩
  | some ⟨isWrite, number, polls + 1⟩ => { s with work := some ⟨isWrite, number, polls⟩ }

/-- A byte write to the control register. -/
def ctrlWritten (v : BitVec 32) : MiimDev κ :=
  if SetsBit v 16 then s.trigger delay false
  else if SetsBit v 17 then s.trigger delay true
  else if ClearsBit v 16 ∨ ClearsBit v 17 then { s with work := none }
  else s

end MiimDev

/-- The device; a read of the control register returns what the poll finds. -/
def miimDev : Agent (MiimDev κ) ℕ (BitVec 32) MiimEvent where
  read s off := if off = CMIC_MIIM_CTRL then (s.poll C).reg off else s.reg off
  seen s off := if off = CMIC_MIIM_CTRL then s.poll C else s
  write s off v :=
    if off = CMIC_MIIM_CTRL then (s.setReg off v).ctrlWritten delay v else s.setReg off v
  event s _ := s

/-- The transaction is not done when its caller gives up. -/
def Fails (n : ℕ) : Prop := MIIM_POLL_MAX ≤ delay n

instance (n : ℕ) : Decidable (Fails delay n) := inferInstanceAs (Decidable (_ ≤ _))

/-! ### The transactions -/

namespace PhyBus

variable (b : PhyBus κ)

/-- One `miim_write`. -/
def miimWrite (phy : PhyAddr) (reg : BitVec 5) (data : BitVec 16) : Rc Unit × PhyBus κ :=
  if Fails delay b.count then (.error .eio, b.tick)
  else (.ok (), b.tick.writeTarget C phy (b.reaches phy reg) data)

/-- One `miim_read`. -/
def miimRead (phy : PhyAddr) (reg : BitVec 5) : Rc (BitVec 16) × PhyBus κ :=
  if Fails delay b.count then (.error .eio, b.tick)
  else
    let (v, b') := b.tick.readTarget C b.count phy (b.reaches phy reg)
    (.ok v, b')

end PhyBus

variable {C delay}

section Device

variable {s : MiimDev κ}

/-- A write to a register other than the control register only stores. -/
theorem miimDev_write_of_ne {off : ℕ} (h : off ≠ CMIC_MIIM_CTRL) (v : BitVec 32) :
    (miimDev C delay).write s off v = { s with reg := Function.update s.reg off v } := by
  simp only [miimDev, if_neg h, MiimDev.setReg, written_of_ne h]

theorem miimDev_write_ctrl (v : BitVec 32) : (miimDev C delay).write s CMIC_MIIM_CTRL v =
    (s.setReg CMIC_MIIM_CTRL v).ctrlWritten delay v := by
  simp only [miimDev, if_pos]

theorem setReg_ctrl_bit (v : BitVec 32) {i : ℕ} (hi : i < 32) :
    ((s.setReg CMIC_MIIM_CTRL v).reg CMIC_MIIM_CTRL).getLsbD i =
      if i = (v &&& 0x7f).toNat then v.getLsbD 7 else (s.reg CMIC_MIIM_CTRL).getLsbD i := by
  simp only [MiimDev.setReg, Function.update_self]
  exact getLsbD_byteWrite _ v hi

theorem and_done_ne_zero_iff (ctrl : BitVec 32) :
    ctrl &&& CMIC_MIIM_CTRL_DONE ≠ 0 ↔ ctrl.getLsbD 18 = true := by
  have hbit (i : ℕ) : (ctrl &&& CMIC_MIIM_CTRL_DONE).getLsbD i =
      (ctrl.getLsbD i && decide (i = 18)) := by
    rw [BitVec.getLsbD_and, CMIC_MIIM_CTRL_DONE]
    by_cases hi : i < 32
    · exact congrArg _ (getLsbD_one_shiftLeft hi)
    · rw [BitVec.getLsbD_of_ge ctrl i (by omega), Bool.false_and, Bool.false_and]
  constructor
  · intro h
    by_contra hclear
    refine h (BitVec.eq_of_getLsbD_eq fun i _ => ?_)
    rw [hbit]
    by_cases hi : i = 18
    · rw [hi, Bool.not_eq_true _ |>.mp hclear, Bool.false_and]
      rfl
    · rw [decide_eq_false hi, Bool.and_false]
      exact BitVec.getLsbD_zero.symm
  · intro hset h
    have hzero := hbit 18
    rw [h, hset] at hzero
    simp at hzero

/-- Resetting the state of the engine or clearing DONE does nothing to the PHYs. -/
theorem ctrlWritten_bus {v : BitVec 32} (hv : v.getLsbD 7 = false) :
    (s.ctrlWritten delay v).bus = s.bus := by
  rw [MiimDev.ctrlWritten, if_neg (not_setsBit hv 16), if_neg (not_setsBit hv 17)]
  split_ifs <;> rfl

theorem ctrlWritten_reg (v : BitVec 32) : (s.ctrlWritten delay v).reg = s.reg := by
  unfold MiimDev.ctrlWritten MiimDev.trigger
  split_ifs <;> rfl

/-- A transaction at work, whose registers are set up. -/
structure AtWork (s : MiimDev κ) (w : MiimWork) (phy : PhyAddr) (reg : BitVec 5)
    (data : BitVec 16) : Prop where
  work : s.work = some w
  phy : s.phy = phy
  address : s.address = reg
  data : s.data = data
  undone : (s.reg CMIC_MIIM_CTRL).getLsbD 18 = false

variable {w : MiimWork} {phy : PhyAddr} {reg : BitVec 5} {data : BitVec 16}

variable (delay) in
/-- The engine is reset and DONE cleared; the PHYs do not see it. -/
theorem cleared_engine {clr : BitVec 32} (hclr : clr.getLsbD 7 = false) (s : MiimDev κ) :
    let t := (((s.setReg CMIC_MIIM_CTRL clr).ctrlWritten delay clr).setReg CMIC_MIIM_CTRL
      MIIM_CLR_DONE).ctrlWritten delay MIIM_CLR_DONE
    t.bus = s.bus ∧ (t.reg CMIC_MIIM_CTRL).getLsbD 18 = false := by
  constructor
  · rw [ctrlWritten_bus (by decide)]
    exact ctrlWritten_bus hclr
  · rw [ctrlWritten_reg, setReg_ctrl_bit _ (by decide), if_pos (by decide)]
    decide

theorem setWidth_and_address (reg : BitVec 32) :
    (reg &&& 0x1f).setWidth 5 = reg.setWidth 5 := by
  ext i hi
  simp only [BitVec.getElem_setWidth, BitVec.getLsbD_and]
  interval_cases i <;> simp

section Trigger

variable {set : BitVec 32} {isWrite : Bool}
  (hset : set = MIIM_SET_WRITE ∧ isWrite = true ∨ set = MIIM_SET_READ ∧ isWrite = false)

include hset

variable (delay) in
/-- The trigger starts the transaction that the registers describe. -/
theorem triggered_atWork {u : MiimDev κ} (hparam : u.reg CMIC_MIIM_PARAM = paramOf phy data)
    (haddress : (u.reg CMIC_MIIM_ADDRESS).setWidth 5 = reg)
    (hdone : (u.reg CMIC_MIIM_CTRL).getLsbD 18 = false) :
    let t := (u.setReg CMIC_MIIM_CTRL set).ctrlWritten delay set
    AtWork t ⟨isWrite, u.bus.count, delay u.bus.count⟩ phy reg data ∧ t.bus = u.bus.tick := by
  have htrigger : (u.setReg CMIC_MIIM_CTRL set).ctrlWritten delay set =
      (u.setReg CMIC_MIIM_CTRL set).trigger delay isWrite := by
    rcases hset with ⟨rfl, rfl⟩ | ⟨rfl, rfl⟩ <;> rfl
  have hother {off : ℕ} (hoff : off ≠ CMIC_MIIM_CTRL) :
      ((u.setReg CMIC_MIIM_CTRL set).trigger delay isWrite).reg off = u.reg off :=
    Function.update_of_ne hoff _ _
  have hundone : ((u.setReg CMIC_MIIM_CTRL set).reg CMIC_MIIM_CTRL).getLsbD 18 = false := by
    rw [setReg_ctrl_bit _ (by decide), if_neg ?_, hdone]
    rcases hset with ⟨rfl, -⟩ | ⟨rfl, -⟩ <;> decide
  dsimp only
  rw [htrigger]
  refine ⟨⟨rfl, ?_, ?_, ?_, hundone⟩, rfl⟩
  · rw [MiimDev.phy, hother (by decide), hparam, paramOf_bus, paramOf_phy]
  · rw [MiimDev.address, hother (by decide), haddress]
  · rw [MiimDev.data, hother (by decide), hparam, paramOf_data]

/-- The requests up to the trigger. -/
theorem runAlone_setup {clr : BitVec 32} (hclr : clr.getLsbD 7 = false) (reg : BitVec 32)
    {α : Type} (p : Reg MiimEvent α) (s : MiimDev κ) :
    ∃ t, AtWork t ⟨isWrite, s.bus.count, delay s.bus.count⟩ phy (reg.setWidth 5) data ∧
      t.bus = s.bus.tick ∧
      runAlone (miimDev C delay) (do
        bdeWrite CMIC_MIIM_CTRL clr
        bdeWrite CMIC_MIIM_CTRL MIIM_CLR_DONE
        bdeWrite CMIC_MIIM_ADDRESS (reg &&& 0x1f)
        bdeWrite CMIC_MIIM_PARAM (paramOf phy data)
        bdeWrite CMIC_MIIM_CTRL set
        p) s = runAlone (miimDev C delay) p t := by
  simp only [runAlone_bind, bdeWrite, runAlone_writeReg, miimDev_write_ctrl]
  rw [miimDev_write_of_ne (by decide), miimDev_write_of_ne (by decide)]
  obtain ⟨hbus, hdone⟩ := cleared_engine delay hclr s
  set s₂ := (((s.setReg CMIC_MIIM_CTRL clr).ctrlWritten delay clr).setReg CMIC_MIIM_CTRL
    MIIM_CLR_DONE).ctrlWritten delay MIIM_CLR_DONE
  -- the state before the trigger
  set u : MiimDev κ := { s₂ with
    reg := Function.update (Function.update s₂.reg CMIC_MIIM_ADDRESS (reg &&& 0x1f)) CMIC_MIIM_PARAM
      (paramOf phy data) } with hu
  have hparam : u.reg CMIC_MIIM_PARAM = paramOf phy data := by
    simp only [hu, Function.update_self]
  have haddress : (u.reg CMIC_MIIM_ADDRESS).setWidth 5 = reg.setWidth 5 := by
    simp only [hu, Function.update_of_ne (show CMIC_MIIM_ADDRESS ≠ CMIC_MIIM_PARAM by decide),
      Function.update_self, setWidth_and_address]
  obtain ⟨hwork, htick⟩ := triggered_atWork delay hset hparam haddress hdone
  rw [show u.bus = s.bus from hbus] at hwork htick
  exact ⟨_, hwork, htick, rfl⟩

end Trigger

/-! ### The polls -/

/-- What a program returns, and the PHYs after it. -/
def outcome (C : PhyCore κ) (delay : ℕ → ℕ) {α : Type} (p : Reg MiimEvent α) (s : MiimDev κ) :
    α × PhyBus κ :=
  ((runAlone (miimDev C delay) p s).1, (runAlone (miimDev C delay) p s).2.bus)

theorem outcome_clr {α : Type} {v : BitVec 32} (hv : v.getLsbD 7 = false) (a : α)
    (s : MiimDev κ) : outcome C delay (do
      bdeWrite CMIC_MIIM_CTRL v
      return a) s = (a, s.bus) := by
  rw [outcome, runAlone_bind, bdeWrite, runAlone_writeReg, miimDev_write_ctrl, runAlone_pure]
  exact Prod.ext rfl (ctrlWritten_bus hv)

/-- A poll that finds the engine at work. -/
theorem AtWork.poll_succ {k : ℕ} (h : AtWork s ⟨w.isWrite, w.number, k + 1⟩ phy reg data) :
    AtWork (s.poll C) ⟨w.isWrite, w.number, k⟩ phy reg data ∧ (s.poll C).bus = s.bus := by
  have hpoll : s.poll C = { s with work := some ⟨w.isWrite, w.number, k⟩ } := by
    rw [MiimDev.poll, h.work]
  rw [hpoll]
  exact ⟨⟨rfl, h.phy, h.address, h.data, h.undone⟩, rfl⟩

/-- The poll that finds the transaction done. -/
theorem AtWork.poll_zero (h : AtWork s ⟨w.isWrite, w.number, 0⟩ phy reg data) :
    s.poll C = s.complete C ⟨w.isWrite, w.number, 0⟩ := by
  rw [MiimDev.poll, h.work]

theorem complete_done (w : MiimWork) :
    ((s.complete C w).reg CMIC_MIIM_CTRL).getLsbD 18 = true := by
  have hbit : (s.reg CMIC_MIIM_CTRL ||| CMIC_MIIM_CTRL_DONE).getLsbD 18 = true := by
    rw [BitVec.getLsbD_or, show CMIC_MIIM_CTRL_DONE.getLsbD 18 = true by decide, Bool.or_true]
  unfold MiimDev.complete
  split_ifs
  · simp only [Function.update_self]
    exact hbit
  · simp only [Function.update_of_ne (show CMIC_MIIM_CTRL ≠ CMIC_MIIM_READ_DATA by decide),
      Function.update_self]
    exact hbit

theorem AtWork.poll_done (h : AtWork s ⟨w.isWrite, w.number, 0⟩ phy reg data) :
    (s.poll C).reg CMIC_MIIM_CTRL &&& CMIC_MIIM_CTRL_DONE ≠ 0 := by
  rw [h.poll_zero, and_done_ne_zero_iff]
  exact complete_done _

theorem AtWork.poll_undone {k : ℕ} (h : AtWork s ⟨w.isWrite, w.number, k + 1⟩ phy reg data) :
    ¬ ((s.poll C).reg CMIC_MIIM_CTRL &&& CMIC_MIIM_CTRL_DONE ≠ 0) := by
  rw [and_done_ne_zero_iff, h.poll_succ.1.undone]
  exact Bool.false_ne_true

/-- The next poll of a program. -/
theorem outcome_readCtrl {α : Type} (f : BitVec 32 → Reg MiimEvent α) (s : MiimDev κ) :
    outcome C delay (bdeRead CMIC_MIIM_CTRL >>= f) s =
      outcome C delay (f ((s.poll C).reg CMIC_MIIM_CTRL)) (s.poll C) := by
  simp only [outcome, runAlone_bind, bdeRead, runAlone_readReg, miimDev, if_pos]

/-- A write that is done within the polls has its effect then, one that is not has none. -/
theorem outcome_miimWritePoll {polls k n : ℕ} (h : AtWork s ⟨true, n, k⟩ phy reg data) :
    outcome C delay (miimWritePoll polls) s =
      if polls ≤ k then (.error .eio, s.bus)
      else (.ok (), s.bus.writeTarget C phy (s.bus.reaches phy reg) data) := by
  induction polls generalizing s k with
  | zero =>
    rw [if_pos (Nat.zero_le k)]
    exact outcome_clr (by decide) _ s
  | succ polls ih =>
    rw [miimWritePoll, outcome_readCtrl]
    cases k with
    | zero =>
      have hbus : (s.poll C).bus = s.bus.writeTarget C phy (s.bus.reaches phy reg) data := by
        rw [h.poll_zero (w := ⟨true, n, 0⟩), MiimDev.complete]
        simp only [if_pos, h.phy, h.address, h.data]
      rw [if_pos (h.poll_done (w := ⟨true, n, 0⟩)), if_neg (Nat.not_succ_le_zero polls), ← hbus]
      exact outcome_clr (by decide) _ _
    | succ k =>
      obtain ⟨hwork, hbus⟩ := h.poll_succ (w := ⟨true, n, 0⟩) (C := C)
      rw [if_neg (h.poll_undone (w := ⟨true, n, 0⟩)), ih hwork, hbus]
      simp only [Nat.add_le_add_iff_right]

theorem runAlone_readData {α : Type} (f : BitVec 32 → Reg MiimEvent α) (s : MiimDev κ) :
    outcome C delay (bdeRead CMIC_MIIM_READ_DATA >>= f) s =
      outcome C delay (f (s.reg CMIC_MIIM_READ_DATA)) s := by
  have hoff : CMIC_MIIM_READ_DATA ≠ CMIC_MIIM_CTRL := by decide
  simp only [outcome, runAlone_bind, bdeRead, runAlone_readReg, miimDev, if_neg hoff]

theorem outcome_miimReadPoll {polls k n : ℕ} (h : AtWork s ⟨false, n, k⟩ phy reg data) :
    outcome C delay (miimReadPoll polls) s =
      if polls ≤ k then (.error .eio, s.bus)
      else
        (.ok (s.bus.readTarget C n phy (s.bus.reaches phy reg)).1,
          (s.bus.readTarget C n phy (s.bus.reaches phy reg)).2) := by
  induction polls generalizing s k with
  | zero =>
    rw [if_pos (Nat.zero_le k)]
    exact outcome_clr (by decide) _ s
  | succ polls ih =>
    rw [miimReadPoll, outcome_readCtrl]
    cases k with
    | zero =>
      have hpoll : (s.poll C).bus = (s.bus.readTarget C n phy (s.bus.reaches phy reg)).2 ∧
          (s.poll C).reg CMIC_MIIM_READ_DATA =
            (s.bus.readTarget C n phy (s.bus.reaches phy reg)).1.setWidth 32 := by
        rw [h.poll_zero (w := ⟨false, n, 0⟩), MiimDev.complete]
        simp [h.phy, h.address]
      have hwidth (v : BitVec 16) : (v.setWidth 32).setWidth 16 = v := by simp
      rw [if_pos (h.poll_done (w := ⟨false, n, 0⟩)), if_neg (Nat.not_succ_le_zero polls),
        runAlone_readData, outcome_clr (by decide), hpoll.1, hpoll.2, hwidth]
    | succ k =>
      obtain ⟨hwork, hbus⟩ := h.poll_succ (w := ⟨false, n, 0⟩) (C := C)
      rw [if_neg (h.poll_undone (w := ⟨false, n, 0⟩)), ih hwork, hbus]
      simp only [Nat.add_le_add_iff_right]

end Device

/-! ### Transactions on the PHYs -/

/-- What a program returns and does to the PHYs depends on the PHYs alone. -/
abbrev OnBus (C : PhyCore κ) (delay : ℕ → ℕ) {α : Type} (p : Reg MiimEvent α)
    (f : PhyBus κ → α × PhyBus κ) : Prop :=
  ActsAs (miimDev C delay) MiimDev.bus p f

theorem onBus_mark (e : MiimEvent) : OnBus C delay (mark e) (fun b => ((), b)) := fun _ => rfl

/-- A register of the CMIC that is not one of the engine's. -/
theorem onBus_bdeWrite {off : ℕ} (h : off ≠ CMIC_MIIM_CTRL) (v : BitVec 32) :
    OnBus C delay (bdeWrite off v) (fun b => ((), b)) := by
  intro s
  rw [bdeWrite, runAlone_writeReg, miimDev_write_of_ne h]

theorem onBus_miimWrite (phy : PhyAddr) (reg : BitVec 32) (data : BitVec 16) :
    OnBus C delay (miimWrite (phy.phy.setWidth 32) (phy.bus.setWidth 32) reg data)
      (fun b => b.miimWrite C delay phy (reg.setWidth 5) data) := by
  intro s
  obtain ⟨t, hwork, hbus, hrun⟩ := runAlone_setup (.inl ⟨rfl, rfl⟩)
    (show MIIM_CLR_WRITE.getLsbD 7 = false by decide) reg (miimWritePoll MIIM_POLL_MAX) s
  have hpoll : outcome C delay (miimWritePoll MIIM_POLL_MAX) t = _ := outcome_miimWritePoll hwork
  rw [miimWrite_eq, hrun]
  refine Eq.trans ?_ hpoll.symm
  rw [hbus]
  rfl

theorem onBus_miimRead (phy : PhyAddr) (reg : BitVec 32) :
    OnBus C delay (miimRead (phy.phy.setWidth 32) (phy.bus.setWidth 32) reg)
      (fun b => b.miimRead C delay phy (reg.setWidth 5)) := by
  intro s
  obtain ⟨t, hwork, hbus, hrun⟩ := runAlone_setup (.inr ⟨rfl, rfl⟩)
    (show MIIM_CLR_READ.getLsbD 7 = false by decide) reg (miimReadPoll MIIM_POLL_MAX) s
  have hpoll : outcome C delay (miimReadPoll MIIM_POLL_MAX) t = _ := outcome_miimReadPoll hwork
  rw [miimRead_eq, hrun]
  refine Eq.trans ?_ hpoll.symm
  rw [hbus]
  rfl

theorem onBus_miimWriteTo (phy : PhyAddr) (target : Target) (keeps : List Target)
    (reg : BitVec 32) (data : BitVec 16) :
    OnBus C delay (miimWriteTo phy target keeps reg data)
      (fun b => b.miimWrite C delay phy (reg.setWidth 5) data) :=
  (onBus_mark _).bind fun _ => onBus_miimWrite phy reg data

theorem onBus_miimReadFrom (phy : PhyAddr) (target : Target) (reg : BitVec 32) :
    OnBus C delay (miimReadFrom phy target reg)
      (fun b => b.miimRead C delay phy (reg.setWidth 5)) :=
  (onBus_mark _).bind fun _ => (onBus_miimRead phy reg).bind fun rc =>
    (onBus_mark _).bind fun _ => actsAs_pure rc

end OpenNos.Sdk
