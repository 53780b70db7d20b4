import OpenNos.Bde.Device
import OpenNos.Bde.Cmic

/-! The device at the far end of the S-Channel. When an operation is started it takes
the message out of the window, carries it out on the registers and tables of the
addressed block, and some polls later puts its response into the window and sets DONE.
How an operation ends is the device's choice: when, with which flags, whether it was
carried out. The module computes what an operation of the driver leaves of this device. -/

namespace OpenNos.Bde

open Bits RegProg

/-- A block of the S-bus and an address in it. -/
abbrev SbusAddr := BitVec 6 × BitVec 32

structure SbusSpace where
  reg : SbusAddr → Words
  mem : SbusAddr → Words

inductive SbusMessage
  | readReg (target : SbusAddr) (nwords : ℕ)
  | writeReg (target : SbusAddr) (data : Words) (nwords : ℕ)
  | readMem (target : SbusAddr) (nwords : ℕ)
  | writeMem (target : SbusAddr) (data : Words) (nwords : ℕ)

/-- The message in a window. -/
def decode (window : Words) : Option SbusMessage :=
  let opcode := headerOpcode (window 0)
  let target : SbusAddr := (headerDstblk (window 0), window 1)
  let nwords := (headerDatalen (window 0)).toNat / 4
  let data := splice nwords (fun i => window (2 + i)) fun _ => 0
  if opcode = 0x0B then some (.readReg target nwords)
  else if opcode = 0x0D then some (.writeReg target data nwords)
  else if opcode = 0x07 then some (.readMem target nwords)
  else if opcode = 0x09 then some (.writeMem target data nwords)
  else none

namespace SbusSpace

/-- The words a message asks for. -/
def asked (sp : SbusSpace) : SbusMessage → ℕ → Option (BitVec 32)
  | .readReg target nwords, i => if i < nwords then some (sp.reg target i) else none
  | .readMem target nwords, i => if i < nwords then some (sp.mem target i) else none
  | .writeReg .., _ | .writeMem .., _ => none

/-- The registers and tables when a message has been carried out. -/
def perform (sp : SbusSpace) : SbusMessage → SbusSpace
  | .writeReg target data nwords =>
    { sp with reg := Function.update sp.reg target (splice nwords data (sp.reg target)) }
  | .writeMem target data nwords =>
    { sp with mem := Function.update sp.mem target (splice nwords data (sp.mem target)) }
  | .readReg .. | .readMem .. => sp

end SbusSpace

/-- How the device ends an operation. -/
structure Ending where
  /-- the polls before it shows DONE, if it ever does -/
  after : Option ℕ
  /-- what it sets in the control register beside DONE -/
  flags : BitVec 32
  /-- word 0 of the response -/
  header : BitVec 32
  executed : Bool
  deriving Inhabited

/-- The registers and tables after the operation. -/
def Ending.effect (e : Ending) (sp : SbusSpace) (m : Option SbusMessage) : SbusSpace :=
  if e.executed then m.elim sp sp.perform else sp

/-- The words of the response, the header first. -/
def Ending.response (e : Ending) (sp : SbusSpace) (m : Option SbusMessage) :
    ℕ → Option (BitVec 32)
  | 0 => some e.header
  | i + 1 => if e.executed then m.bind fun m => sp.asked m i else none

/-- An operation under way. -/
structure Pending where
  polls : ℕ
  flags : BitVec 32
  response : ℕ → Option (BitVec 32)

structure SbusChip where
  reg : ℕ → BitVec 32
  schanMutex : Bool
  space : SbusSpace
  running : Option Pending

namespace SbusChip

def window (s : SbusChip) : Words := fun i => s.reg (CMICE_SCHAN_D i)

/-- DONE and the flags are set, and the response is in the window. -/
def finish (s : SbusChip) (p : Pending) : SbusChip :=
  { s with
    running := none
    reg := fun off =>
      if off = CMICE_SCHAN_CTRL then s.reg off ||| SCHAN_CTRL_DONE ||| p.flags
      else (if off % 4 = 0 then p.response (off / 4) else none).getD (s.reg off) }

def wait (s : SbusChip) (p : Pending) : SbusChip :=
  if p.polls = 0 then s.finish p else { s with running := some p }

/-- The operation whose message is in the window begins. -/
def start (e : Ending) (s : SbusChip) : SbusChip :=
  let m := decode s.window
  let s' := { s with space := e.effect s.space m }
  match e.after with
  | none => { s' with running := none }
  | some polls => s'.wait ⟨polls, e.flags, e.response s.space m⟩

/-- Time passes between two polls. -/
def tick (s : SbusChip) : SbusChip :=
  match s.running with
  | none => s
  | some p => s.wait { p with polls := p.polls - 1 }

end SbusChip

/-- START begins an operation, which ends like this, and ABORT ends it at once. -/
def sbusChip (e : Ending) : Machine SbusChip ℕ (BitVec 32) KernelEvent where
  read s off := s.reg off
  write s off v :=
    let s' := { s with reg := Function.update s.reg off (written off (s.reg off) v) }
    if off = CMICE_SCHAN_CTRL ∧ v = CMICE_SET_START then s'.start e
    else if off = CMICE_SCHAN_CTRL ∧ v = CMICE_SET_ABORT then { s' with running := none }
    else s'
  event s
    | .lockSchanMutex => { s with schanMutex := true }
    | .unlockSchanMutex => { s with schanMutex := false }
    | .usleepRange _ _ => s.tick
    | .udelay _ => s

namespace SbusChip

/-- The registers of BAR0 alone. -/
def bar (s : SbusChip) : Bar0 := ⟨s.reg, s.schanMutex⟩

def withBar (s : SbusChip) (b : Bar0) : SbusChip :=
  { s with reg := b.reg, schanMutex := b.schanMutex }

@[simp] theorem withBar_bar (s : SbusChip) (b : Bar0) : (s.withBar b).bar = b := rfl

@[simp] theorem withBar_self (s : SbusChip) : s.withBar s.bar = s := rfl

@[simp] theorem withBar_withBar (s : SbusChip) (b b' : Bar0) :
    (s.withBar b).withBar b' = s.withBar b' := rfl

@[simp] theorem withBar_running (s : SbusChip) (b : Bar0) : (s.withBar b).running = s.running := rfl

@[simp] theorem withBar_space (s : SbusChip) (b : Bar0) : (s.withBar b).space = s.space := rfl

@[simp] theorem withBar_reg (s : SbusChip) (b : Bar0) : (s.withBar b).reg = b.reg := rfl

end SbusChip

/-- While nothing runs and nothing is started, only the registers of BAR0 matter. -/
theorem exec_idle (e : Ending) {α : Type} {p : Pio α} (hp : NoStart p) {s : SbusChip}
    (hs : s.running = none) : exec (sbusChip e) p s =
      ((exec bar0 p s.bar).1, s.withBar (exec bar0 p s.bar).2) := by
  induction p generalizing s with
  | ret a => rfl
  | read r k ih => exact ih _ (hp _) hs
  | write r v k ih =>
    have hwrite : (sbusChip e).write s r v = s.withBar (bar0.write s.bar r v) := by
      have hstart : ¬ (r = CMICE_SCHAN_CTRL ∧ v = CMICE_SET_START) := hp.1
      simp only [sbusChip, if_neg hstart, SbusChip.withBar, hs, ite_self]
      rfl
    rw [exec, hwrite]
    exact ih hp.2 (s := s.withBar _) hs
  | event ev k ih =>
    have hevent : (sbusChip e).event s ev = s.withBar (bar0.event s.bar ev) := by
      cases ev with
      | usleepRange => simp only [sbusChip, SbusChip.tick, hs]; rfl
      | _ => rfl
    rw [exec, hevent]
    exact ih hp (s := s.withBar _) hs

/-! ### The abort -/

/-- The control register after an abort. -/
def abortCtrl (ctrl : BitVec 32) : BitVec 32 :=
  [CMICE_SET_ABORT, CMICE_CLR_ABORT, CMICE_CLR_START, CMICE_CLR_DONE, CMICE_CLR_SER,
    CMICE_CLR_NAK, CMICE_CLR_TIMEOUT].foldl byteWrite ctrl

theorem getLsbD_abortCtrl (ctrl : BitVec 32) {b : ℕ} (hb : b ∈ schanBits) :
    (abortCtrl ctrl).getLsbD b = false := by
  have hlt := lt_of_mem_schanBits hb
  simp only [abortCtrl, List.foldl_cons, List.foldl_nil, getLsbD_byteWrite _ _ hlt]
  simp only [schanBits, List.mem_cons, List.not_mem_nil, or_false] at hb
  rcases hb with rfl | rfl | rfl | rfl | rfl | rfl <;> rfl

namespace SbusChip

/-- The operation is ended, the control register cleared and MISC_CONTROL restored. -/
def aborted (misc : BitVec 32) (s : SbusChip) : SbusChip :=
  { s with
    running := none
    reg := Function.update
      (Function.update s.reg CMICE_SCHAN_CTRL (abortCtrl (s.reg CMICE_SCHAN_CTRL)))
      CMIC_MISC_CONTROL misc }

@[simp] theorem aborted_misc (misc : BitVec 32) (s : SbusChip) :
    (s.aborted misc).reg CMIC_MISC_CONTROL = misc := by
  simp only [aborted, Function.update_self]

theorem aborted_clear (misc : BitVec 32) (s : SbusChip) {b : ℕ} (hb : b ∈ schanBits) :
    ((s.aborted misc).reg CMICE_SCHAN_CTRL).getLsbD b = false := by
  have hne : CMICE_SCHAN_CTRL ≠ CMIC_MISC_CONTROL := by decide
  rw [aborted]
  simp only [Function.update_of_ne hne, Function.update_self]
  exact getLsbD_abortCtrl _ hb

theorem aborted_reg (misc : BitVec 32) (s : SbusChip) {off : ℕ} (h : 0x80 ≤ off) :
    (s.aborted misc).reg off = s.reg off := by
  have h₁ : off ≠ CMIC_MISC_CONTROL := by simp only [CMIC_MISC_CONTROL]; omega
  have h₂ : off ≠ CMICE_SCHAN_CTRL := by simp only [CMICE_SCHAN_CTRL]; omega
  rw [aborted]
  simp only [Function.update_of_ne h₁, Function.update_of_ne h₂]

end SbusChip

variable (e : Ending)

/-- A write to the control register that starts nothing. -/
theorem exec_ctrl {v : BitVec 32} (hv : v ≠ CMICE_SET_START) (s : SbusChip) :
    exec (sbusChip e) (iowrite32 v CMICE_SCHAN_CTRL) s =
      ((), { s with
        running := if v = CMICE_SET_ABORT then none else s.running
        reg := Function.update s.reg CMICE_SCHAN_CTRL
          (byteWrite (s.reg CMICE_SCHAN_CTRL) v) }) := by
  simp only [iowrite32, exec_writeReg, sbusChip, true_and, if_neg hv, written, if_true]
  split_ifs <;> rfl

theorem exec_abort (s : SbusChip) : exec (sbusChip e) cmiceSchanAbort s =
    ((), { s with
      running := none
      reg := Function.update s.reg CMICE_SCHAN_CTRL (abortCtrl (s.reg CMICE_SCHAN_CTRL)) }) := by
  have hclr : CMICE_CLR_ABORT ≠ CMICE_SET_ABORT ∧ CMICE_CLR_START ≠ CMICE_SET_ABORT ∧
      CMICE_CLR_DONE ≠ CMICE_SET_ABORT ∧ CMICE_CLR_SER ≠ CMICE_SET_ABORT ∧
      CMICE_CLR_NAK ≠ CMICE_SET_ABORT ∧ CMICE_CLR_TIMEOUT ≠ CMICE_SET_ABORT := by decide
  have hdelay (s : SbusChip) : exec (sbusChip e) (mark (.udelay 100)) s = ((), s) := rfl
  rw [cmiceSchanAbort, exec_bind, exec_ctrl e (by decide), exec_bind, hdelay, exec_bind,
    exec_ctrl e (by decide), exec_bind, exec_ctrl e (by decide), exec_bind,
    exec_ctrl e (by decide), exec_bind, exec_ctrl e (by decide), exec_bind,
    exec_ctrl e (by decide), exec_ctrl e (by decide)]
  simp only [if_true, hclr, if_false, Function.update_self, Function.update_idem]
  rfl

theorem exec_abort_restored {α : Type} (misc : BitVec 32) (a : α) (s : SbusChip) :
    exec (sbusChip e) (do cmiceSchanAbort; iowrite32 misc CMIC_MISC_CONTROL; return a) s =
      (a, s.aborted misc) := by
  rw [exec_bind, exec_abort, exec_bind]
  rfl

/-! ### The polls -/

theorem exec_readData_chip (data : Words) (i n : ℕ) (s : SbusChip) :
    exec (sbusChip e) (readData data i n) s =
      ((fun j => if i ≤ j ∧ j < i + n then s.window j else data j), s) := by
  induction n generalizing data i with
  | zero =>
    simp only [readData, exec_pure, Prod.mk.injEq, and_true]
    funext j
    rw [if_neg (by omega)]
  | succ n ih =>
    rw [readData, exec_bind, ioread32, exec_readReg, ih, Prod.mk.injEq]
    refine ⟨?_, rfl⟩
    funext j
    by_cases hji : j = i
    · subst hji
      simp [SbusChip.window, sbusChip]
    · rw [Function.update_of_ne hji]
      have : i + 1 ≤ j ∧ j < i + 1 + n ↔ i ≤ j ∧ j < i + (n + 1) := by omega
      simp only [this]

theorem exec_readResponse_chip (data : Option Words) (s : SbusChip) :
    exec (sbusChip e) (readResponse 16 data) s =
      (data.map fun d => splice 16 s.window d, s) := by
  cases data with
  | none => rfl
  | some d =>
    rw [readResponse, exec_bind, exec_readData_chip]
    simp only [Nat.zero_le, true_and, Nat.zero_add, exec_pure, Option.map_some]
    rfl

/-- A poll that finds DONE ends the operation. -/
theorem exec_schanPoll_done {s : SbusChip} (hdone : s.reg CMICE_SCHAN_CTRL &&& SCHAN_CTRL_DONE ≠ 0)
    (misc : BitVec 32) (data : Option Words) (polls : ℕ) :
    exec (sbusChip e) (schanPoll misc data 16 (polls + 1)) s =
      (reply data (some s.reg), s.aborted misc) := by
  have hread : exec (sbusChip e) (ioread32 CMICE_SCHAN_CTRL) s = (s.reg CMICE_SCHAN_CTRL, s) := rfl
  rw [schanPoll, exec_bind, hread, if_pos hdone, reply]
  by_cases hflags : s.reg CMICE_SCHAN_CTRL &&& (SCHAN_CTRL_TIMEOUT ||| SCHAN_CTRL_NAK) = 0
  · have hdel : Look.Delivered s.reg := hflags
    rw [if_neg (not_not.mpr hflags), if_pos hdel, exec_bind]
    have h16 : Int.toNat 16 = 16 := rfl
    rw [h16, exec_readResponse_chip]
    exact exec_abort_restored e misc _ s
  · have hdel : ¬ Look.Delivered s.reg := hflags
    rw [if_pos hflags, if_neg hdel]
    exact exec_abort_restored e misc _ s

theorem exec_schanPoll_wait {s : SbusChip} (hclear : s.reg CMICE_SCHAN_CTRL &&& SCHAN_CTRL_DONE = 0)
    (misc : BitVec 32) (data : Option Words) (polls : ℕ) :
    exec (sbusChip e) (schanPoll misc data 16 (polls + 1)) s =
      exec (sbusChip e) (schanPoll misc data 16 polls) s.tick := by
  have hread : exec (sbusChip e) (ioread32 CMICE_SCHAN_CTRL) s = (s.reg CMICE_SCHAN_CTRL, s) := rfl
  rw [schanPoll, exec_bind, hread, if_neg (not_not.mpr hclear), exec_bind]
  rfl

/-- Nothing runs: the polls time out. -/
theorem exec_schanPoll_never {s : SbusChip} (hs : s.running = none)
    (hclear : s.reg CMICE_SCHAN_CTRL &&& SCHAN_CTRL_DONE = 0) (misc : BitVec 32)
    (data : Option Words) (polls : ℕ) :
    exec (sbusChip e) (schanPoll misc data 16 polls) s = (reply data none, s.aborted misc) := by
  induction polls with
  | zero => exact exec_abort_restored e misc _ s
  | succ polls ih =>
    have htick : s.tick = s := by rw [SbusChip.tick, hs]
    rw [exec_schanPoll_wait e hclear, htick, ih]

theorem finish_done (s : SbusChip) (p : Pending) :
    (s.finish p).reg CMICE_SCHAN_CTRL &&& SCHAN_CTRL_DONE ≠ 0 := by
  have hbit : ((s.finish p).reg CMICE_SCHAN_CTRL &&& SCHAN_CTRL_DONE).getLsbD 1 = true := by
    simp [SbusChip.finish, SCHAN_CTRL_DONE]
  intro h
  rw [h] at hbit
  exact absurd hbit (by decide)

/-- The state in which an operation that is waited for is aborted. -/
def SbusChip.awaited (s : SbusChip) (p : Pending) (polls : ℕ) : SbusChip :=
  if p.polls ≤ polls then s.finish p else s

/-- The operation ends before the polls do, or they time out. -/
theorem exec_schanPoll_pending {s : SbusChip} (p : Pending)
    (hclear : s.reg CMICE_SCHAN_CTRL &&& SCHAN_CTRL_DONE = 0) (misc : BitVec 32)
    (data : Option Words) (polls : ℕ) :
    exec (sbusChip e) (schanPoll misc data 16 polls) (s.wait p) =
      (reply data (if p.polls < polls then some (s.finish p).reg else none),
        (s.awaited p polls).aborted misc) := by
  induction polls generalizing p with
  | zero =>
    rw [if_neg (Nat.not_lt_zero _), SbusChip.awaited, SbusChip.wait]
    by_cases hp : p.polls = 0
    · rw [if_pos hp, if_pos (by omega)]
      exact exec_abort_restored e misc _ _
    · rw [if_neg hp, if_neg (by omega)]
      exact exec_abort_restored e misc _ _
  | succ polls ih =>
    by_cases hp : p.polls = 0
    · rw [SbusChip.wait, if_pos hp, exec_schanPoll_done e (finish_done s p), if_pos (by omega),
        SbusChip.awaited, if_pos (by omega)]
    · have hwait : s.wait p = { s with running := some p } := by rw [SbusChip.wait, if_neg hp]
      have htick : (s.wait p).tick = s.wait { p with polls := p.polls - 1 } := by
        rw [hwait]
        simp only [SbusChip.tick, SbusChip.wait, SbusChip.finish]
      have hclear' : (s.wait p).reg CMICE_SCHAN_CTRL &&& SCHAN_CTRL_DONE = 0 := by
        rw [hwait]
        exact hclear
      have hlt : p.polls - 1 < polls ↔ p.polls < polls + 1 := by omega
      have hle : p.polls - 1 ≤ polls ↔ p.polls ≤ polls + 1 := by omega
      rw [exec_schanPoll_wait e hclear', htick, ih]
      simp only [SbusChip.awaited, hlt, hle]
      rfl

/-! ### The start -/

theorem exec_abort_bar0 (b : Bar0) : (exec bar0 cmiceSchanAbort b).2 =
    { b with
      reg := Function.update b.reg CMICE_SCHAN_CTRL (abortCtrl (b.reg CMICE_SCHAN_CTRL)) } := by
  have hidle := exec_idle (default : Ending) cmiceSchanAbort_noStart
    (s := ⟨b.reg, b.schanMutex, ⟨fun _ _ => 0, fun _ _ => 0⟩, none⟩) rfl
  rw [exec_abort] at hidle
  exact (congrArg (fun r => r.2.bar) hidle).symm

theorem exec_writeCmd_other (cmd : Words) (i n : ℕ) (s : Bar0) {off : ℕ}
    (h : ∀ j, i ≤ j → j < i + n → off ≠ CMICE_SCHAN_D j) :
    (exec bar0 (writeCmd cmd i n) s).2.reg off = s.reg off := by
  induction n generalizing i s with
  | zero => rfl
  | succ n ih =>
    rw [writeCmd, exec_bind, ih (i + 1) _ fun j hj hj' => h j (by omega) (by omega)]
    simp only [iowrite32, exec_writeReg, bar0_write_reg, if_neg (h i le_rfl (by omega))]

/-- What a message leaves alone up to its start. -/
theorem startState_other (cmd : Words) {n : ℕ} (s : Bar0) {off : ℕ}
    (hctrl : off ≠ CMICE_SCHAN_CTRL) (hmisc : off ≠ CMIC_MISC_CONTROL)
    (h : ∀ j < n, off ≠ CMICE_SCHAN_D j) : (startState cmd n s).reg off = s.reg off := by
  have hrestore (c : Prop) [Decidable c] (v : BitVec 32) (b : Bar0) :
      (exec bar0 (onlyIf c (iowrite32 v CMIC_MISC_CONTROL)) b).2.reg off = b.reg off := by
    rw [onlyIf]
    split_ifs
    · simp only [iowrite32, exec_writeReg, bar0_write_reg, if_neg hmisc]
    · rfl
  rw [startState, hrestore, exec_writeCmd_other cmd 0 n _ fun j _ hj => h j (by omega), onlyIf]
  split_ifs
  · rw [exec_abort_bar0]
    exact Function.update_of_ne hctrl _ _
  · rfl

/-- The bits of the S-Channel are clear when an operation is started. -/
theorem startState_clear (cmd : Words) {n : ℕ} (hn : n ≤ 20) (s : Bar0) {b : ℕ}
    (hb : b ∈ schanBits) : ((startState cmd n s).reg CMICE_SCHAN_CTRL).getLsbD b = false := by
  have hne : CMICE_SCHAN_CTRL ≠ CMIC_MISC_CONTROL := by decide
  have hrestore (c : Prop) [Decidable c] (v : BitVec 32) (b : Bar0) :
      (exec bar0 (onlyIf c (iowrite32 v CMIC_MISC_CONTROL)) b).2.reg CMICE_SCHAN_CTRL =
        b.reg CMICE_SCHAN_CTRL := by
    rw [onlyIf]
    split_ifs
    · simp only [iowrite32, exec_writeReg, bar0_write_reg, if_neg hne]
    · rfl
  have hcmd : ∀ j, 0 ≤ j → j < 0 + n → CMICE_SCHAN_CTRL ≠ CMICE_SCHAN_D j := by
    simp only [CMICE_SCHAN_CTRL, CMICE_SCHAN_D]
    omega
  rw [startState, hrestore, exec_writeCmd_other cmd 0 n _ hcmd, onlyIf]
  split_ifs with hzero
  · rw [exec_abort_bar0]
    simp only [Function.update_self]
    exact getLsbD_abortCtrl _ hb
  · have hctrl : s.reg CMICE_SCHAN_CTRL = 0 := not_not.mp hzero
    rw [exec_pure]
    dsimp only
    rw [hctrl]
    exact BitVec.getLsbD_zero

theorem decode_asked {w : Words} {m : SbusMessage} (hm : decode w = some m) (sp : SbusSpace)
    {i : ℕ} {v : BitVec 32} (h : sp.asked m i = some v) : i < 31 := by
  have hlen : (headerDatalen (w 0)).toNat / 4 ≤ 31 := by
    have := (headerDatalen (w 0)).isLt
    omega
  simp only [decode] at hm
  split_ifs at hm <;> obtain rfl := Option.some.inj hm <;>
    simp only [SbusSpace.asked, Option.ite_none_right_eq_some, reduceCtorEq] at h
  all_goals omega

/-! ### The operation -/

/-- What an operation with this message leaves behind. -/
structure Settled (e : Ending) (m : Option SbusMessage) (s s' : SbusChip) : Prop where
  space : s'.space = e.effect s.space m
  idle : s'.running = none
  misc : s'.reg CMIC_MISC_CONTROL = s.reg CMIC_MISC_CONTROL
  clear : ∀ b ∈ schanBits, (s'.reg CMICE_SCHAN_CTRL).getLsbD b = false
  above : ∀ off, 0x80 ≤ off → s'.reg off = s.reg off

/-- What the device shows when this ending has come. -/
structure Shows (e : Ending) (sp : SbusSpace) (m : Option SbusMessage) (v : Look) : Prop where
  delivered : v.Delivered ↔ e.flags &&& (SCHAN_CTRL_TIMEOUT ||| SCHAN_CTRL_NAK) = 0
  response : ∀ i < 20, ∀ w, e.response sp m i = some w → v.response i = w

/-- DONE comes before the deadline. -/
def Ending.InTime (e : Ending) (polls : ℕ) : Prop := ∃ k, e.after = some k ∧ k < polls

theorem finish_above {w : Words} (sp : SbusSpace) (flags : BitVec 32) (polls : ℕ) (s : SbusChip)
    {off : ℕ} (h : 0x80 ≤ off) :
    (s.finish ⟨polls, flags, e.response sp (decode w)⟩).reg off = s.reg off := by
  have hctrl : off ≠ CMICE_SCHAN_CTRL := by simp only [CMICE_SCHAN_CTRL]; omega
  simp only [SbusChip.finish, if_neg hctrl]
  by_cases h4 : off % 4 = 0
  · have hnone : e.response sp (decode w) (off / 4) = none := by
      obtain ⟨i, hi⟩ : ∃ i, off / 4 = i + 1 := ⟨off / 4 - 1, by omega⟩
      rw [hi, Ending.response]
      split_ifs
      · rw [Option.bind_eq_none_iff]
        intro m hm
        by_contra hne
        obtain ⟨v, hv⟩ := Option.ne_none_iff_exists'.mp hne
        have := decode_asked hm sp hv
        omega
      · rfl
    rw [if_pos h4, hnone]
    rfl
  · rw [if_neg h4]
    rfl

/-- The flags the driver looks at come from the ending alone. -/
theorem finish_shows {sp : SbusSpace} {m : Option SbusMessage} {s : SbusChip} (polls : ℕ)
    (hclear : ∀ b ∈ [21, 22], (s.reg CMICE_SCHAN_CTRL).getLsbD b = false) :
    Shows e sp m (s.finish ⟨polls, e.flags, e.response sp m⟩).reg := by
  constructor
  · have hdone : SCHAN_CTRL_DONE &&& (SCHAN_CTRL_TIMEOUT ||| SCHAN_CTRL_NAK) = 0 := by decide
    have hstale : s.reg CMICE_SCHAN_CTRL &&& (SCHAN_CTRL_TIMEOUT ||| SCHAN_CTRL_NAK) = 0 := by
      rw [and_eq_zero_iff]
      intro b hb hmask
      refine hclear b ?_
      revert b
      decide
    simp only [Look.Delivered, SbusChip.finish, if_true, BitVec.and_or_distrib_right, hdone, hstale,
      BitVec.ofNat_eq_ofNat, BitVec.zero_or]
  · intro i hi w hw
    have hne : CMICE_SCHAN_D i ≠ CMICE_SCHAN_CTRL := by
      simp only [CMICE_SCHAN_D, CMICE_SCHAN_CTRL]
      omega
    have hmod : CMICE_SCHAN_D i % 4 = 0 := by simp only [CMICE_SCHAN_D]; omega
    have hdiv : CMICE_SCHAN_D i / 4 = i := by simp only [CMICE_SCHAN_D]; omega
    simp only [Look.response, SbusChip.finish, if_neg hne, hmod, hdiv, hw, if_true,
      Option.getD_some]

/-- The state right after the START of a message. -/
def SbusChip.triggered (s : SbusChip) (cmd : Words) (n : ℕ) : SbusChip :=
  let b := startState cmd n s.bar
  { s.withBar b with
    reg := Function.update b.reg CMICE_SCHAN_CTRL
      (byteWrite (b.reg CMICE_SCHAN_CTRL) CMICE_SET_START) }

theorem triggered_clear (s : SbusChip) (cmd : Words) {n : ℕ} (hn : n ≤ 20) {b : ℕ}
    (hb : b ∈ [1, 21, 22]) : ((s.triggered cmd n).reg CMICE_SCHAN_CTRL).getLsbD b = false := by
  have hmem : b ∈ schanBits := by revert b; decide
  have hne : b ≠ (CMICE_SET_START &&& 0x7f).toNat := by revert b; decide
  simp only [SbusChip.triggered, Function.update_self]
  rw [getLsbD_byteWrite _ _ (lt_of_mem_schanBits hmem), if_neg hne]
  exact startState_clear cmd hn s.bar hmem

theorem triggered_window (s : SbusChip) (cmd : Words) {n j : ℕ} (hn : n ≤ 20) (hj : j < n) :
    (s.triggered cmd n).window j = if j = 7 then s.reg CMIC_MISC_CONTROL else cmd j := by
  have hne : CMICE_SCHAN_D j ≠ CMICE_SCHAN_CTRL := by
    simp only [CMICE_SCHAN_D, CMICE_SCHAN_CTRL]
    omega
  simp only [SbusChip.window, SbusChip.triggered, Function.update_of_ne hne]
  exact startState_reg cmd hn hj s.bar

theorem triggered_above (s : SbusChip) (cmd : Words) {n : ℕ} (hn : n ≤ 20) {off : ℕ}
    (h : 0x80 ≤ off) : (s.triggered cmd n).reg off = s.reg off := by
  have hctrl : off ≠ CMICE_SCHAN_CTRL := by simp only [CMICE_SCHAN_CTRL]; omega
  have hmisc : off ≠ CMIC_MISC_CONTROL := by simp only [CMIC_MISC_CONTROL]; omega
  simp only [SbusChip.triggered, Function.update_of_ne hctrl]
  refine startState_other cmd s.bar hctrl hmisc fun j hj => ?_
  simp only [CMICE_SCHAN_D]
  omega

/-- The driver's operation up to the polls. -/
theorem exec_nosBdeSchanOp_polls {env : SchanEnv} (hp : env.probed) (hi : env.interrupted = false)
    {n : ℕ} (hn : 1 ≤ n) (hn' : n ≤ 16) (cmd : Words) (data : Option Words) {s : SbusChip}
    (hs : s.running = none) :
    exec (sbusChip e) (nosBdeSchanOp env cmd n data 16) s =
      (fun r : (ℤ × Option Words) × SbusChip => (.ok r.1, { r.2 with schanMutex := false }))
        (exec (sbusChip e) (schanPoll (s.reg CMIC_MISC_CONTROL) data 16 env.polls)
          ((s.triggered cmd n).start e)) := by
  have hmax : (n : ℤ) ≤ SCHAN_MAX_MSG_WORDS := by simp only [SCHAN_MAX_MSG_WORDS]; omega
  let locked : SbusChip := { s with schanMutex := true }
  have hlock : exec (sbusChip e) (mark .lockSchanMutex) s = ((), locked) := rfl
  have hread (off : ℕ) : exec (sbusChip e) (ioread32 off) locked = (s.reg off, locked) := rfl
  have hmisc (c : Prop) [Decidable c] (v : BitVec 32) :
      NoStart (onlyIf c (iowrite32 v CMIC_MISC_CONTROL)) :=
    eachWrite_onlyIf (iowrite32_noStart v (by decide))
  have htrigger (b : Bar0) : exec (sbusChip e) (iowrite32 CMICE_SET_START CMICE_SCHAN_CTRL)
      (locked.withBar b) = ((), SbusChip.start e { s.withBar b with
        reg := Function.update b.reg CMICE_SCHAN_CTRL
          (byteWrite (b.reg CMICE_SCHAN_CTRL) CMICE_SET_START) }) := rfl
  rw [nosBdeSchanOp_of_len hp hi (by omega) hmax, exec_bind, hlock, exec_bind, hread, exec_bind,
    hread, exec_bind, exec_idle e (eachWrite_onlyIf cmiceSchanAbort_noStart) (s := locked) hs,
    exec_bind, exec_idle e (writeCmd_noStart _ _ _ (by omega)) (s := locked.withBar _) hs,
    exec_bind, exec_idle e (hmisc _ _) (s := (locked.withBar _).withBar _) hs]
  simp only [SbusChip.withBar_withBar, SbusChip.withBar_bar]
  rw [exec_bind, htrigger, exec_bind]
  rfl

theorem settled_aborted {m : Option SbusMessage} {s f : SbusChip}
    (hspace : f.space = e.effect s.space m) (habove : ∀ off, 0x80 ≤ off → f.reg off = s.reg off) :
    Settled e m s { f.aborted (s.reg CMIC_MISC_CONTROL) with schanMutex := false } where
  space := hspace
  idle := rfl
  misc := SbusChip.aborted_misc _ f
  clear _ hb := SbusChip.aborted_clear (s.reg CMIC_MISC_CONTROL) f hb
  above off h := (SbusChip.aborted_reg _ f h).trans (habove off h)

/-- What the operation of the driver answers and leaves behind. -/
theorem exec_nosBdeSchanOp_chip {env : SchanEnv} (hp : env.probed) (hi : env.interrupted = false)
    {n : ℕ} (hn : 1 ≤ n) (hn' : n ≤ 16) (cmd : Words) (data : Option Words) {s : SbusChip}
    (hs : s.running = none) {m : Option SbusMessage}
    (hm : ∀ w : Words, (∀ j < n, w j = if j = 7 then s.reg CMIC_MISC_CONTROL else cmd j) →
      decode w = m) :
    ∃ look s', exec (sbusChip e) (nosBdeSchanOp env cmd n data 16) s = (.ok (reply data look), s') ∧
      Settled e m s s' ∧ (look.isSome ↔ e.InTime env.polls) ∧
      ∀ v, look = some v → Shows e s.space m v := by
  have hdecode : decode (s.triggered cmd n).window = m :=
    hm _ fun j hj => triggered_window s cmd (by omega) hj
  have hclear : (s.triggered cmd n).reg CMICE_SCHAN_CTRL &&& SCHAN_CTRL_DONE = 0 :=
    (and_bit_eq_zero_iff _ (by omega)).mpr (triggered_clear s cmd (by omega) (by decide))
  have hspace : (s.triggered cmd n).space = s.space := rfl
  have habove (off : ℕ) (h : 0x80 ≤ off) : (s.triggered cmd n).reg off = s.reg off :=
    triggered_above s cmd (by omega) h
  rw [exec_nosBdeSchanOp_polls e hp hi hn hn' cmd data hs]
  cases hafter : e.after with
  | none =>
    let started : SbusChip :=
      { s.triggered cmd n with space := e.effect s.space m, running := none }
    have hstart : (s.triggered cmd n).start e = started := by
      simp only [SbusChip.start, hafter, hdecode, hspace]
      rfl
    have htimeout : ¬ e.InTime env.polls := by
      rintro ⟨k, hk, -⟩
      rw [hafter] at hk
      cases hk
    rw [hstart, exec_schanPoll_never e (s := started) rfl hclear]
    exact ⟨none, _, rfl, settled_aborted e (f := started) rfl habove,
      iff_of_false Bool.false_ne_true htimeout, fun v hv => absurd hv (by simp)⟩
  | some k =>
    let started : SbusChip := { s.triggered cmd n with space := e.effect s.space m }
    let p : Pending := ⟨k, e.flags, e.response s.space m⟩
    have hstart : (s.triggered cmd n).start e = started.wait p := by
      simp only [SbusChip.start, hafter, hdecode, hspace]
      rfl
    rw [hstart, exec_schanPoll_pending e (s := started) p hclear]
    refine ⟨if k < env.polls then some (started.finish p).reg else none, _, rfl,
      settled_aborted e (f := started.awaited p env.polls) ?_ fun off h => ?_, ?_, fun v hv => ?_⟩
    · rw [SbusChip.awaited]
      split_ifs <;> rfl
    · rw [SbusChip.awaited]
      split_ifs
      · have hfinish := finish_above e (w := (s.triggered cmd n).window) s.space e.flags k started h
        rw [hdecode] at hfinish
        exact hfinish.trans (habove off h)
      · exact habove off h
    · simp only [Ending.InTime, hafter, Option.some.injEq, exists_eq_left']
      split_ifs with hk <;> simp [hk]
    · obtain rfl := Option.some.inj (Option.ite_none_right_eq_some.mp hv).2
      refine finish_shows e k fun b hb => triggered_clear s cmd (by omega) ?_
      exact List.mem_cons_of_mem _ hb

end OpenNos.Bde
