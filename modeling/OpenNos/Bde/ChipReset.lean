import OpenNos.Bde.SbusChip

/-! The reset of the chip when the kernel driver binds to it (`bcm56846_chip_reset`). The
blocks MMU, IP and EP must not leave reset before the S-bus timeout and the ring maps are
programmed; the module shows that from the write that holds all blocks no write of the
reset lets them out too early. -/

namespace OpenNos.Bde

open Bits RegProg

def CMIC_CONFIG : ℕ := 0x010C

def CMIC_SOFT_RESET : ℕ := 0x0580

def CMIC_SOFT_RESET_2 : ℕ := 0x057C

def CMIC_SBUS_TIMEOUT : ℕ := 0x0200

def CMIC_SBUS_RING_MAP_0 : ℕ := 0x0204

def CMIC_SBUS_RING_MAP_1 : ℕ := 0x0208

def CMIC_SBUS_RING_MAP_2 : ℕ := 0x020C

def CMIC_SBUS_RING_MAP_3 : ℕ := 0x0210

/-- Bit 5 of `CMIC_CONFIG`. -/
def CPS_RESET : BitVec 32 := 1 <<< 5

def mdelay (ms : ℕ) : Pio Unit := mark (.udelay (1000 * ms))

/-- Step 1. -/
def resetCps : Pio Unit := do
  let val ← ioread32 CMIC_CONFIG
  iowrite32 (val ||| CPS_RESET) CMIC_CONFIG
  mdelay 1
  iowrite32 (val &&& ~~~CPS_RESET) CMIC_CONFIG
  mdelay 10

/-- Step 2. -/
def holdBlocks : Pio Unit := do
  iowrite32 0x00000000 CMIC_SOFT_RESET
  mdelay 50

/-- Step 3. -/
def programSbus : Pio Unit := do
  iowrite32 0x000007D0 CMIC_SBUS_TIMEOUT
  iowrite32 0x43052100 CMIC_SBUS_RING_MAP_0
  iowrite32 0x33333343 CMIC_SBUS_RING_MAP_1
  iowrite32 0x44444333 CMIC_SBUS_RING_MAP_2
  iowrite32 0x00034444 CMIC_SBUS_RING_MAP_3

/-- Steps 4 to 6; the last write lets out MMU, IP and EP. -/
def releaseBlocks : Pio Unit := do
  iowrite32 0x00000780 CMIC_SOFT_RESET
  mdelay 100
  iowrite32 0x0000F780 CMIC_SOFT_RESET
  mdelay 50
  iowrite32 0x0000FF8F CMIC_SOFT_RESET
  mdelay 50
  iowrite32 0x0000007F CMIC_SOFT_RESET_2
  mdelay 10
  iowrite32 0x0000FFFF CMIC_SOFT_RESET
  mdelay 100

/-- Step 7; the last two reads are for the log. -/
def enableSchan : Pio Unit := do
  let val ← ioread32 CMIC_MISC_CONTROL
  iowrite32 (val ||| 1) CMIC_MISC_CONTROL
  cmiceSchanAbort
  let _ ← ioread32 CMIC_SOFT_RESET
  let _ ← ioread32 CMICE_SCHAN_CTRL
  return ()

def bcm56846ChipReset : Pio Unit := do
  resetCps
  holdBlocks
  programSbus
  releaseBlocks
  enableSchan

/-! ### The order of release -/

/-- The S-bus timeout and the ring maps with their values. -/
def sbusSetup : List (ℕ × BitVec 32) :=
  [(CMIC_SBUS_TIMEOUT, 0x000007D0), (CMIC_SBUS_RING_MAP_0, 0x43052100),
    (CMIC_SBUS_RING_MAP_1, 0x33333343), (CMIC_SBUS_RING_MAP_2, 0x44444333),
    (CMIC_SBUS_RING_MAP_3, 0x00034444)]

def Programmed (reg : ℕ → BitVec 32) : Prop := ∀ e ∈ sbusSetup, reg e.1 = e.2

/-- MMU, IP or EP is out of reset. -/
def Released (reg : ℕ → BitVec 32) : Prop := reg CMIC_SOFT_RESET &&& 0x70 ≠ 0

/-- The blocks are held. -/
def Held (reg : ℕ → BitVec 32) : Prop := reg CMIC_SOFT_RESET &&& 0x70 = 0

/-- The blocks are held until the S-bus is set up. -/
def OrderKept (reg : ℕ → BitVec 32) : Prop := Released reg → Programmed reg

theorem sbusSetup_ne : ∀ a ∈ sbusSetup, a.1 ≠ CMICE_SCHAN_CTRL := by decide

theorem orderKept_of_held {reg : ℕ → BitVec 32} (h : Held reg) : OrderKept reg :=
  fun hreleased => absurd h hreleased

theorem orderKept_of_programmed {reg : ℕ → BitVec 32} (h : Programmed reg) : OrderKept reg :=
  fun _ => h

theorem Programmed.congr {reg reg' : ℕ → BitVec 32} (h : Programmed reg)
    (habove : ∀ off, 0x80 ≤ off → reg' off = reg off) : Programmed reg' := by
  intro e he
  have hoff : ∀ e ∈ sbusSetup, 0x80 ≤ e.1 := by decide
  rw [habove _ (hoff e he), h e he]

variable (e : Ending)

/-- A write that starts no operation changes one register. -/
theorem sbusChip_write_reg {off : ℕ} {v : BitVec 32}
    (h : ¬ (off = CMICE_SCHAN_CTRL ∧ v = CMICE_SET_START)) (s : SbusChip) :
    ((sbusChip e).write s off v).reg = Function.update s.reg off (written off (s.reg off) v) := by
  simp only [sbusChip, h, if_false]
  split_ifs <;> rfl

/-- A write that neither starts an operation nor changes the setup. -/
def KeepsSetup (off : ℕ) (v : BitVec 32) : Prop :=
  ¬ (off = CMICE_SCHAN_CTRL ∧ v = CMICE_SET_START) ∧ ∀ e ∈ sbusSetup, off ≠ e.1

theorem Programmed.write {s : SbusChip} {off : ℕ} {v : BitVec 32} (hkeeps : KeepsSetup off v)
    (h : Programmed s.reg) : Programmed ((sbusChip e).write s off v).reg := by
  intro a ha
  rw [sbusChip_write_reg e hkeeps.1, Function.update_of_ne (hkeeps.2 a ha).symm, h a ha]

/-- A write that starts no operation and lets no block out. -/
def KeepsHeld (off : ℕ) (v : BitVec 32) : Prop :=
  ¬ (off = CMICE_SCHAN_CTRL ∧ v = CMICE_SET_START) ∧ (off = CMIC_SOFT_RESET → v &&& 0x70 = 0)

theorem Held.write {s : SbusChip} {off : ℕ} {v : BitVec 32} (hkeeps : KeepsHeld off v)
    (h : Held s.reg) : Held ((sbusChip e).write s off v).reg := by
  rw [Held, sbusChip_write_reg e hkeeps.1]
  by_cases hoff : off = CMIC_SOFT_RESET
  · rw [hoff, Function.update_self, written_of_ne (by decide)]
    exact hkeeps.2 hoff
  · rw [Function.update_of_ne (Ne.symm hoff)]
    exact h

instance (off : ℕ) (v : BitVec 32) : Decidable (KeepsSetup off v) :=
  inferInstanceAs (Decidable (_ ∧ _))

instance (off : ℕ) (v : BitVec 32) : Decidable (KeepsHeld off v) :=
  inferInstanceAs (Decidable (_ ∧ (_ → _)))

/-- A wait. -/
def IsDelay : KernelEvent → Prop
  | .udelay _ => True
  | _ => False

theorem IsDelay.event {ev : KernelEvent} (h : IsDelay ev) (s : SbusChip) :
    (sbusChip e).event s ev = s := by
  cases ev with
  | udelay us => rfl
  | _ => exact absurd h id

theorem held_run {α : Type} {p : Pio α} (hp : Only KeepsHeld IsDelay p) {s : SbusChip}
    (h : Held s.reg) :
    AtWrite (sbusChip e) (fun off v s => Held ((sbusChip e).write s off v).reg) p s ∧
      Held (exec (sbusChip e) p s).2.reg :=
  hp.invariant (sbusChip e) (I := fun s => Held s.reg) (fun _ _ _ hkeeps h => h.write e hkeeps)
    (fun s _ hev h => by rwa [hev.event]) h

theorem programmed_run {α : Type} {p : Pio α} (hp : Only KeepsSetup IsDelay p) {s : SbusChip}
    (h : Programmed s.reg) :
    AtWrite (sbusChip e) (fun off v s => Programmed ((sbusChip e).write s off v).reg) p s ∧
      Programmed (exec (sbusChip e) p s).2.reg :=
  hp.invariant (sbusChip e) (I := fun s => Programmed s.reg)
    (fun _ _ _ hkeeps h => h.write e hkeeps) (fun s _ hev h => by rwa [hev.event]) h

theorem programSbus_only : Only KeepsHeld IsDelay programSbus :=
  ⟨by decide, by decide, by decide, by decide, by decide, trivial⟩

theorem releaseBlocks_only : Only KeepsSetup IsDelay releaseBlocks :=
  ⟨by decide, trivial, by decide, trivial, by decide, trivial, by decide, trivial, by decide,
    trivial, trivial⟩

theorem enableSchan_only : Only KeepsSetup IsDelay enableSchan :=
  fun _ => ⟨⟨fun h => absurd h.1 (by decide), by decide⟩, by decide, trivial, by decide, by decide,
    by decide, by decide, by decide, by decide, fun _ _ => trivial⟩

theorem programSbus_programmed (s : SbusChip) :
    Programmed (exec (sbusChip e) programSbus s).2.reg := by
  rw [Programmed, sbusSetup]
  simp only [List.forall_mem_cons]
  exact ⟨rfl, rfl, rfl, rfl, rfl, fun _ h => absurd h List.not_mem_nil⟩

/-- From the write that holds the blocks, each write leaves them held or finds the S-bus
set up; at the end it is. -/
theorem chipReset_ordered (s : SbusChip) :
    AtWrite (sbusChip e) (fun off v s => OrderKept ((sbusChip e).write s off v).reg) (do
      holdBlocks
      programSbus
      releaseBlocks
      enableSchan) s ∧
    Programmed (exec (sbusChip e) bcm56846ChipReset s).2.reg := by
  have hprogrammed (s : SbusChip) : AtWrite (sbusChip e)
      (fun off v s => Programmed ((sbusChip e).write s off v).reg) (do
        releaseBlocks
        enableSchan) (exec (sbusChip e) programSbus s).2 ∧
      Programmed (exec (sbusChip e) (do
        releaseBlocks
        enableSchan) (exec (sbusChip e) programSbus s).2).2.reg := by
    obtain ⟨hrelease, hreleased⟩ := programmed_run e releaseBlocks_only (programSbus_programmed e s)
    obtain ⟨henable, henabled⟩ := programmed_run e enableSchan_only hreleased
    rw [atWrite_bind, exec_bind]
    exact ⟨⟨hrelease, henable⟩, henabled⟩
  constructor
  · let held : SbusChip := { s with reg := Function.update s.reg CMIC_SOFT_RESET 0 }
    have hheld : Held held.reg := by
      change Function.update s.reg CMIC_SOFT_RESET 0 CMIC_SOFT_RESET &&& 0x70 = 0
      rw [Function.update_self]
      decide
    have hexec : exec (sbusChip e) holdBlocks s = ((), held) := rfl
    have hsbus := (held_run e programSbus_only hheld).1
    rw [atWrite_bind, atWrite_bind, hexec]
    exact ⟨⟨orderKept_of_held hheld, trivial⟩, hsbus.mono fun _ _ _ h => orderKept_of_held h,
      (hprogrammed held).1.mono fun _ _ _ h => orderKept_of_programmed h⟩
  · rw [bcm56846ChipReset, exec_bind, exec_bind, exec_bind]
    exact (hprogrammed _).2

/-! ### What the reset leaves -/

/-- Registers after these writes, in order. -/
def poked (writes : List (ℕ × BitVec 32)) (reg : ℕ → BitVec 32) : ℕ → BitVec 32 :=
  writes.foldl (fun reg a => Function.update reg a.1 a.2) reg

def cpsWrites (config : BitVec 32) : List (ℕ × BitVec 32) :=
  [(CMIC_CONFIG, config ||| CPS_RESET), (CMIC_CONFIG, config &&& ~~~CPS_RESET)]

def releaseWrites : List (ℕ × BitVec 32) :=
  [(CMIC_SOFT_RESET, 0x780), (CMIC_SOFT_RESET, 0xF780), (CMIC_SOFT_RESET, 0xFF8F),
    (CMIC_SOFT_RESET_2, 0x7F), (CMIC_SOFT_RESET, 0xFFFF)]

theorem exec_resetCps (s : SbusChip) : exec (sbusChip e) resetCps s =
    ((), { s with reg := poked (cpsWrites (s.reg CMIC_CONFIG)) s.reg }) := rfl

theorem exec_holdBlocks (s : SbusChip) : exec (sbusChip e) holdBlocks s =
    ((), { s with reg := poked [(CMIC_SOFT_RESET, 0)] s.reg }) := rfl

theorem exec_programSbus (s : SbusChip) : exec (sbusChip e) programSbus s =
    ((), { s with reg := poked sbusSetup s.reg }) := rfl

theorem exec_releaseBlocks (s : SbusChip) : exec (sbusChip e) releaseBlocks s =
    ((), { s with reg := poked releaseWrites s.reg }) := rfl

/-- The registers above the message window after the reset. -/
def resetRegs (reg : ℕ → BitVec 32) : ℕ → BitVec 32 :=
  poked releaseWrites <| poked sbusSetup <| poked [(CMIC_SOFT_RESET, 0)] <|
    poked (cpsWrites (reg CMIC_CONFIG)) reg

theorem exec_enableSchan (s : SbusChip) : exec (sbusChip e) enableSchan s =
    ((), { s with
      running := none
      reg := Function.update
        (Function.update s.reg CMIC_MISC_CONTROL (s.reg CMIC_MISC_CONTROL ||| 1))
        CMICE_SCHAN_CTRL (abortCtrl (s.reg CMICE_SCHAN_CTRL)) }) := by
  have hmisc : exec (sbusChip e) (iowrite32 (s.reg CMIC_MISC_CONTROL ||| 1) CMIC_MISC_CONTROL) s =
      ((), { s with
        reg := Function.update s.reg CMIC_MISC_CONTROL (s.reg CMIC_MISC_CONTROL ||| 1) }) := rfl
  have hread : exec (sbusChip e) (ioread32 CMIC_MISC_CONTROL) s =
      (s.reg CMIC_MISC_CONTROL, s) := rfl
  have hctrl : CMICE_SCHAN_CTRL ≠ CMIC_MISC_CONTROL := by decide
  rw [enableSchan, exec_bind, hread, exec_bind, hmisc, exec_bind, exec_abort]
  dsimp only
  rw [Function.update_of_ne hctrl]
  rfl

/-- What a chip is after the reset, whatever it was. -/
structure FreshlyReset (s s' : SbusChip) : Prop where
  idle : s'.running = none
  space : s'.space = s.space
  misc : s'.reg CMIC_MISC_CONTROL = s.reg CMIC_MISC_CONTROL ||| 1
  clear : ∀ b ∈ schanBits, (s'.reg CMICE_SCHAN_CTRL).getLsbD b = false
  above : ∀ off, 0x80 ≤ off → s'.reg off = resetRegs s.reg off

/-- The reset writes nothing in the message window before step 7. -/
theorem resetRegs_window (reg : ℕ → BitVec 32) {off : ℕ} (h : off < 0x80) :
    resetRegs reg off = reg off := by
  have hpoked : ∀ (writes : List (ℕ × BitVec 32)) (reg : ℕ → BitVec 32),
      (∀ a ∈ writes, 0x80 ≤ a.1) → poked writes reg off = reg off := by
    intro writes
    induction writes with
    | nil => exact fun _ _ => rfl
    | cons a writes ih =>
      intro reg ha
      have hne : off ≠ a.1 := by have := ha a List.mem_cons_self; omega
      rw [poked, List.foldl_cons]
      exact (ih _ fun b hb => ha b (List.mem_cons_of_mem _ hb)).trans
        (Function.update_of_ne hne _ _)
  have hcps : ∀ a ∈ cpsWrites (reg CMIC_CONFIG), 0x80 ≤ a.1 := by simp [cpsWrites, CMIC_CONFIG]
  rw [resetRegs, hpoked _ _ (by decide), hpoked _ _ (by decide), hpoked _ _ (by decide),
    hpoked _ _ hcps]

theorem chipReset_fresh (s : SbusChip) :
    FreshlyReset s (exec (sbusChip e) bcm56846ChipReset s).2 := by
  rw [bcm56846ChipReset, exec_bind, exec_resetCps, exec_bind, exec_holdBlocks, exec_bind,
    exec_programSbus, exec_bind, exec_releaseBlocks, exec_enableSchan]
  have hctrl : CMIC_MISC_CONTROL ≠ CMICE_SCHAN_CTRL := by decide
  refine ⟨rfl, rfl, ?_, fun b hb => ?_, fun off h => ?_⟩
  · dsimp only
    rw [Function.update_of_ne hctrl, Function.update_self]
    exact congrArg (· ||| 1) (resetRegs_window s.reg (by decide))
  · dsimp only
    rw [Function.update_self]
    exact getLsbD_abortCtrl _ hb
  · have hctrl : off ≠ CMICE_SCHAN_CTRL := by simp only [CMICE_SCHAN_CTRL]; omega
    have hmisc : off ≠ CMIC_MISC_CONTROL := by simp only [CMIC_MISC_CONTROL]; omega
    dsimp only
    rw [Function.update_of_ne hctrl, Function.update_of_ne hmisc]
    rfl

end OpenNos.Bde
