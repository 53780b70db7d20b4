import OpenNos.Lib.Bits
import OpenNos.Lib.Errno
import OpenNos.Lib.RegProg

/-! The kernel driver `nos_kernel_bde.c`: S-Channel operations by programmed I/O
on the CMICe registers of BAR0. Message word `n` is the register at offset `4 n`,
so the message window lies over the CMIC configuration registers, among them
MISC_CONTROL at 0x1C; the control register at 0x50 takes one bit per write. The
driver is a program over the registers, and `bar0` is the machine that keeps one
register per offset. -/

namespace OpenNos.Bde

open Bits RegProg

def CMICE_SCHAN_CTRL : ℕ := 0x50

def CMICE_SCHAN_D (n : ℕ) : ℕ := n * 4

def SCHAN_MAX_MSG_WORDS : ℤ := 21

def CMICE_SET_START : BitVec 32 := 0x80

def CMICE_SET_ABORT : BitVec 32 := 0x82

def CMICE_CLR_START : BitVec 32 := 0x00

def CMICE_CLR_DONE : BitVec 32 := 0x01

def CMICE_CLR_ABORT : BitVec 32 := 0x02

def CMICE_CLR_SER : BitVec 32 := 0x14

def CMICE_CLR_NAK : BitVec 32 := 0x15

def CMICE_CLR_TIMEOUT : BitVec 32 := 0x16

def SCHAN_CTRL_DONE : BitVec 32 := 1 <<< 1

def SCHAN_CTRL_TIMEOUT : BitVec 32 := 1 <<< 22

def SCHAN_CTRL_NAK : BitVec 32 := 1 <<< 21

def CMIC_MISC_CONTROL : ℕ := 0x1C

/-- What the driver does besides register accesses. -/
inductive KernelEvent
  | lockSchanMutex
  | unlockSchanMutex
  | udelay (us : ℕ)
  | usleepRange (min max : ℕ)
  deriving DecidableEq

/-- A driver program over BAR0 offsets. -/
abbrev Pio := RegProg ℕ (BitVec 32) KernelEvent

def ioread32 (off : ℕ) : Pio (BitVec 32) := readReg off

def iowrite32 (v : BitVec 32) (off : ℕ) : Pio Unit := writeReg off v

/-! ### The register file -/

structure Bar0 where
  reg : ℕ → BitVec 32
  schanMutex : Bool

/-- A write of `0x80 + b` sets bit `b`, a write of `b` clears it. -/
def byteWrite (ctrl v : BitVec 32) : BitVec 32 :=
  if v.getLsbD 7 then ctrl ||| 1#32 <<< (v &&& 0x7f).toNat
  else ctrl &&& ~~~(1#32 <<< (v &&& 0x7f).toNat)

/-- What a register holds after a write. -/
def written (off : ℕ) (old v : BitVec 32) : BitVec 32 :=
  if off = CMICE_SCHAN_CTRL then byteWrite old v else v

/-- One register per offset, the control register under the byte-write protocol. -/
def bar0 : Machine Bar0 ℕ (BitVec 32) KernelEvent where
  read s off := s.reg off
  write s off v := { s with reg := Function.update s.reg off (written off (s.reg off) v) }
  event s
    | .lockSchanMutex => { s with schanMutex := true }
    | .unlockSchanMutex => { s with schanMutex := false }
    | .udelay _ => s
    | .usleepRange _ _ => s

@[simp] theorem written_of_ne {off : ℕ} (h : off ≠ CMICE_SCHAN_CTRL) (old v : BitVec 32) :
    written off old v = v := if_neg h

@[simp] theorem bar0_read (s : Bar0) (off : ℕ) : bar0.read s off = s.reg off := rfl

@[simp] theorem bar0_write_reg (s : Bar0) (off : ℕ) (v : BitVec 32) (off' : ℕ) :
    (bar0.write s off v).reg off' = if off' = off then written off (s.reg off) v else s.reg off' :=
  Function.update_apply _ _ _ _

@[simp] theorem bar0_event_reg (s : Bar0) (e : KernelEvent) : (bar0.event s e).reg = s.reg := by
  cases e <;> rfl

/-! ### The driver -/

/-- Clear all stale state, one control bit per write. -/
def cmiceSchanAbort : Pio Unit := do
  iowrite32 CMICE_SET_ABORT CMICE_SCHAN_CTRL
  mark (.udelay 100)
  iowrite32 CMICE_CLR_ABORT CMICE_SCHAN_CTRL
  iowrite32 CMICE_CLR_START CMICE_SCHAN_CTRL
  iowrite32 CMICE_CLR_DONE CMICE_SCHAN_CTRL
  iowrite32 CMICE_CLR_SER CMICE_SCHAN_CTRL
  iowrite32 CMICE_CLR_NAK CMICE_SCHAN_CTRL
  iowrite32 CMICE_CLR_TIMEOUT CMICE_SCHAN_CTRL

/-- Write `cmd[i], .., cmd[i + n - 1]` to the message window. -/
def writeCmd (cmd : Words) (i : ℕ) : ℕ → Pio Unit
  | 0 => pure ()
  | n + 1 => do
    iowrite32 (cmd i) (CMICE_SCHAN_D i)
    writeCmd cmd (i + 1) n

/-- Read the message window into `data[i], .., data[i + n - 1]`. -/
def readData (data : Words) (i : ℕ) : ℕ → Pio Words
  | 0 => pure data
  | n + 1 => do
    let v ← ioread32 (CMICE_SCHAN_D i)
    readData (Function.update data i v) (i + 1) n

/-- Read the response, unless the caller passed no buffer. -/
def readResponse (n : ℕ) : Option Words → Pio (Option Words)
  | none => pure none
  | some data => do
    let data ← readData data 0 n
    return some data

/-- The poll loop and what follows it; the argument counts the time checks that
still come before the deadline. The result is `*status` and the data buffer. -/
def schanPoll (savedMisc : BitVec 32) (data : Option Words) (dataWords : ℤ) :
    ℕ → Pio (ℤ × Option Words)
  | 0 => do
    cmiceSchanAbort
    iowrite32 savedMisc CMIC_MISC_CONTROL
    return (-Errno.etimedout.code, data)
  | polls + 1 => do
    let ctrl ← ioread32 CMICE_SCHAN_CTRL
    if ctrl &&& SCHAN_CTRL_DONE ≠ 0 then
      if ctrl &&& (SCHAN_CTRL_TIMEOUT ||| SCHAN_CTRL_NAK) ≠ 0 then
        cmiceSchanAbort
        iowrite32 savedMisc CMIC_MISC_CONTROL
        return (-Errno.eio.code, data)
      else
        let data ← readResponse dataWords.toNat data
        cmiceSchanAbort
        iowrite32 savedMisc CMIC_MISC_CONTROL
        return (0, data)
    else
      mark (.usleepRange 10 50)
      schanPoll savedMisc data dataWords polls

/-- What the kernel finds when the operation is called. -/
structure SchanEnv where
  /-- the device is bound, `bde_priv` is not `NULL` -/
  probed : Bool
  /-- a signal interrupts the wait for the mutex -/
  interrupted : Bool
  /-- the number of polls before the deadline -/
  polls : ℕ

/-- The S-Channel operation; the value is `*status` and the data buffer. -/
def nosBdeSchanOp (env : SchanEnv) (cmd : Words) (cmdWords : ℤ) (data : Option Words)
    (dataWords : ℤ) : Pio (Rc (ℤ × Option Words)) :=
  if !env.probed ∨ cmdWords ≤ 0 ∨ cmdWords > SCHAN_MAX_MSG_WORDS ∨
      dataWords < 0 ∨ dataWords > SCHAN_MAX_MSG_WORDS then
    return .error .einval
  else if env.interrupted then
    return .error .eintr
  else do
    mark .lockSchanMutex
    let savedMisc ← ioread32 CMIC_MISC_CONTROL
    let ctrl ← ioread32 CMICE_SCHAN_CTRL
    onlyIf (ctrl ≠ 0) cmiceSchanAbort
    writeCmd cmd 0 cmdWords.toNat
    -- the command may have overwritten MISC_CONTROL
    onlyIf (cmdWords > 7) (iowrite32 savedMisc CMIC_MISC_CONTROL)
    iowrite32 CMICE_SET_START CMICE_SCHAN_CTRL
    let result ← schanPoll savedMisc data dataWords env.polls
    mark .unlockSchanMutex
    return .ok result

end OpenNos.Bde
