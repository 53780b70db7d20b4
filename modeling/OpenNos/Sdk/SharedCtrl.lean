import OpenNos.Bde.Cmic
import OpenNos.Sdk.Miim

/-! An S-Channel operation of the kernel next to a MIIM operation of the SDK. Both
engines are driven through the control register at 0x50 and nothing locks one driver
against the other. Each keeps to bits and registers of its own, so that every
interleaving of their accesses, with the engines finishing at any time, leaves either
driver what it relies on. -/

namespace OpenNos.Sdk

open Bits RegProg Bde

/-- Read trigger, write trigger and DONE. -/
def miimBits : List ℕ := [16, 17, 18]

/-- The bits of the control register in a list are as they were. -/
def SameBits (bs : List ℕ) (s s' : Cmic) : Prop :=
  ∀ b ∈ bs, (s'.reg CMICE_SCHAN_CTRL).getLsbD b = (s.reg CMICE_SCHAN_CTRL).getLsbD b

/-- A step that leaves the S-Channel alone: its bits, its message words and the
operation. -/
structure LeavesSchan (s s' : Cmic) : Prop where
  bits : SameBits schanBits s s'
  words : ∀ i < 16, s'.reg (CMICE_SCHAN_D i) = s.reg (CMICE_SCHAN_D i)
  mutex : s'.schanMutex = s.schanMutex
  busy : s'.schanBusy = s.schanBusy
  started : s'.schanStarted = s.schanStarted
  ended : s'.schanEnd = s.schanEnd

/-- A step that leaves the MIIM alone: its bits, its registers and the transaction. -/
structure LeavesMiim (s s' : Cmic) : Prop where
  bits : SameBits miimBits s s'
  param : s'.reg CMIC_MIIM_PARAM = s.reg CMIC_MIIM_PARAM
  address : s'.reg CMIC_MIIM_ADDRESS = s.reg CMIC_MIIM_ADDRESS
  readData : s'.reg CMIC_MIIM_READ_DATA = s.reg CMIC_MIIM_READ_DATA
  busy : s'.miimBusy = s.miimBusy
  started : s'.miimStarted = s.miimStarted
  ended : s'.miimEnd = s.miimEnd

/-- The S-Channel engine overwrites message words while it is at work, and ends with
DONE and with or without TIMEOUT, NAK and SER. -/
structure SchanMoves (s s' : Cmic) : Prop where
  wasBusy : s.schanBusy = true
  miim : LeavesMiim s s'
  mutex : s'.schanMutex = s.schanMutex
  started : s'.schanStarted = s.schanStarted
  ends : s'.schanBusy = true ∧ s'.schanEnd = s.schanEnd ∧ SameBits schanBits s s' ∨
    s'.schanBusy = false ∧ s'.schanEnd = some (s'.reg CMICE_SCHAN_CTRL) ∧
      (s'.reg CMICE_SCHAN_CTRL).getLsbD 1 = true

/-- The MIIM engine ends with DONE, a read with its data. -/
structure MiimMoves (s s' : Cmic) : Prop where
  wasBusy : s.miimBusy = true
  schan : LeavesSchan s s'
  started : s'.miimStarted = s.miimStarted
  ends : s'.miimBusy = false
  ended : s'.miimEnd = true
  done : (s'.reg CMIC_MIIM_CTRL).getLsbD 18 = true

/-- Either engine makes a move. -/
def Engines (s s' : Cmic) : Prop := SchanMoves s s' ∨ MiimMoves s s'

/-- The S-Channel operation started last, the only one since `n`, has completed
without TIMEOUT and NAK. -/
def SchanSucceeded (n : ℕ) (s : Cmic) : Prop :=
  s.schanStarted = n + 1 ∧ ∃ ctrl, s.schanEnd = some ctrl ∧
    ctrl &&& (SCHAN_CTRL_TIMEOUT ||| SCHAN_CTRL_NAK) = 0

/-- The MIIM transaction triggered last, the only one since `n`, has completed. -/
def MiimCompleted (n : ℕ) (s : Cmic) : Prop := s.miimStarted = n + 1 ∧ s.miimEnd = true

end OpenNos.Sdk
