import OpenNos.Bde.Kernel

/-! MIIM transactions, `miim_write` and `miim_read` of `serdes.c`. Each register
request is an ioctl of its own, so a transaction is a sequence of separate accesses
to the control, address, parameter and data registers. -/

namespace OpenNos.Sdk

open RegProg

def CMIC_MIIM_CTRL : ℕ := 0x50

def CMIC_MIIM_PARAM : ℕ := 0x158

def CMIC_MIIM_ADDRESS : ℕ := 0x4a0

def CMIC_MIIM_READ_DATA : ℕ := 0x15c

def CMIC_MIIM_CTRL_DONE : BitVec 32 := 1 <<< 18

def MIIM_POLL_MAX : ℕ := 2000

def MIIM_PARAM_INTERNAL : BitVec 32 := 1 <<< 25

def MIIM_PARAM_BUS_ID (b : BitVec 32) : BitVec 32 := (b &&& 7) <<< 22

def MIIM_PARAM_PHY (pa : BitVec 32) : BitVec 32 := (pa &&& 31) <<< 16

def MIIM_PARAM_DATA (d : BitVec 32) : BitVec 32 := d &&& 0xffff

/-- The values written to the control register: reset the read or write state,
clear the done status, trigger. -/
def MIIM_CLR_READ : BitVec 32 := 16

def MIIM_CLR_WRITE : BitVec 32 := 17

def MIIM_CLR_DONE : BitVec 32 := 18

def MIIM_SET_READ : BitVec 32 := 0x90

def MIIM_SET_WRITE : BitVec 32 := 0x91

/-- SDK programs over the CMIC registers, one ioctl for each access. -/
abbrev Reg (E : Type) := RegProg ℕ (BitVec 32) E

variable {E : Type}

def bdeRead (off : ℕ) : Reg E (BitVec 32) := readReg off

def bdeWrite (off : ℕ) (v : BitVec 32) : Reg E Unit := writeReg off v

def miimParam (phyAddr busId : BitVec 32) : BitVec 32 :=
  MIIM_PARAM_INTERNAL ||| MIIM_PARAM_BUS_ID busId ||| MIIM_PARAM_PHY phyAddr

/-- Poll for done; after the last poll the write state is reset. -/
def miimWritePoll : ℕ → Reg E (Rc Unit)
  | 0 => do
    bdeWrite CMIC_MIIM_CTRL MIIM_CLR_WRITE
    return .error .eio
  | i + 1 => do
    let ctrl ← bdeRead CMIC_MIIM_CTRL
    if ctrl &&& CMIC_MIIM_CTRL_DONE ≠ 0 then
      bdeWrite CMIC_MIIM_CTRL MIIM_CLR_DONE
      return .ok ()
    else miimWritePoll i

def miimWrite (phyAddr busId reg : BitVec 32) (data : BitVec 16) : Reg E (Rc Unit) := do
  bdeWrite CMIC_MIIM_CTRL MIIM_CLR_WRITE
  bdeWrite CMIC_MIIM_CTRL MIIM_CLR_DONE
  bdeWrite CMIC_MIIM_ADDRESS (reg &&& 0x1f)
  bdeWrite CMIC_MIIM_PARAM (miimParam phyAddr busId ||| MIIM_PARAM_DATA (data.setWidth 32))
  bdeWrite CMIC_MIIM_CTRL MIIM_SET_WRITE
  miimWritePoll MIIM_POLL_MAX

def miimReadPoll : ℕ → Reg E (Rc (BitVec 16))
  | 0 => do
    bdeWrite CMIC_MIIM_CTRL MIIM_CLR_READ
    return .error .eio
  | i + 1 => do
    let ctrl ← bdeRead CMIC_MIIM_CTRL
    if ctrl &&& CMIC_MIIM_CTRL_DONE ≠ 0 then
      let val ← bdeRead CMIC_MIIM_READ_DATA
      bdeWrite CMIC_MIIM_CTRL MIIM_CLR_DONE
      return .ok (val.setWidth 16)
    else miimReadPoll i

def miimRead (phyAddr busId reg : BitVec 32) : Reg E (Rc (BitVec 16)) := do
  bdeWrite CMIC_MIIM_CTRL MIIM_CLR_READ
  bdeWrite CMIC_MIIM_CTRL MIIM_CLR_DONE
  bdeWrite CMIC_MIIM_ADDRESS (reg &&& 0x1f)
  bdeWrite CMIC_MIIM_PARAM (miimParam phyAddr busId)
  bdeWrite CMIC_MIIM_CTRL MIIM_SET_READ
  miimReadPoll MIIM_POLL_MAX

/-- A transaction asked for. -/
inductive MiimOp
  | write (phyAddr busId reg : BitVec 32) (data : BitVec 16)
  | read (phyAddr busId reg : BitVec 32)
  deriving DecidableEq

/-- The value a read returns, nothing for a write. -/
def MiimOp.run : MiimOp → Reg E (Rc (Option (BitVec 16)))
  | .write phyAddr busId reg data => do
    let rc ← miimWrite phyAddr busId reg data
    return rc.map fun _ => none
  | .read phyAddr busId reg => do
    let rc ← miimRead phyAddr busId reg
    return rc.map some

end OpenNos.Sdk
