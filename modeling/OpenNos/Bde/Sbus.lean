import OpenNos.Bde.User

/-! `sbus.c`: register and memory access by S-Channel messages. Word 0 of a
message is the header, word 1 the address, the data words of a write follow. -/

namespace OpenNos.Bde

open Bits RegProg

def SCHAN_READ_REG_CMD : BitVec 32 := 0x0B

def SCHAN_WRITE_REG_CMD : BitVec 32 := 0x0D

def SCHAN_READ_MEM_CMD : BitVec 32 := 0x07

def SCHAN_WRITE_MEM_CMD : BitVec 32 := 0x09

def schanHeader (opcode dstblk dwords : BitVec 32) : BitVec 32 :=
  (opcode <<< 26) ||| (dstblk <<< 20) ||| (0#32 <<< 14) ||| ((dwords * 4) <<< 7)

/-- The fields the device decodes from a header. -/
def headerOpcode (h : BitVec 32) : BitVec 6 := h.extractLsb' 26 6

def headerDstblk (h : BitVec 32) : BitVec 6 := h.extractLsb' 20 6

def headerDatalen (h : BitVec 32) : BitVec 7 := h.extractLsb' 7 7

theorem getLsbD_of_toNat_lt {x : BitVec 32} {k i : ℕ} (hx : x.toNat < 2 ^ k) (hi : k ≤ i) :
    x.getLsbD i = false :=
  Nat.testBit_lt_two_pow (hx.trans_le (Nat.pow_le_pow_right (by norm_num) hi))

section Header
variable {opcode dstblk dwords : BitVec 32}

theorem schanHeader_opcode (hb : dstblk.toNat < 2 ^ 6) (hd : (dwords * 4).toNat < 2 ^ 7) :
    headerOpcode (schanHeader opcode dstblk dwords) = opcode.setWidth 6 := by
  apply BitVec.eq_of_getLsbD_eq
  intro i hi
  have h1 := getLsbD_of_toNat_lt hb (show 6 ≤ 26 + i - 20 by omega)
  have h2 := getLsbD_of_toNat_lt hd (show 7 ≤ 26 + i - 7 by omega)
  simp only [headerOpcode, schanHeader, BitVec.getLsbD_extractLsb', BitVec.getLsbD_or,
    BitVec.getLsbD_shiftLeft, h1, h2, BitVec.getLsbD_setWidth]
  simp [hi]
  omega

theorem schanHeader_dstblk (hd : (dwords * 4).toNat < 2 ^ 7) :
    headerDstblk (schanHeader opcode dstblk dwords) = dstblk.setWidth 6 := by
  apply BitVec.eq_of_getLsbD_eq
  intro i hi
  have h2 := getLsbD_of_toNat_lt hd (show 7 ≤ 20 + i - 7 by omega)
  simp only [headerDstblk, schanHeader, BitVec.getLsbD_extractLsb', BitVec.getLsbD_or,
    BitVec.getLsbD_shiftLeft, h2, BitVec.getLsbD_setWidth]
  simp [hi, show 20 + i < 26 by omega, show 20 + i < 32 by omega]

theorem schanHeader_datalen :
    headerDatalen (schanHeader opcode dstblk dwords) = (dwords * 4).setWidth 7 := by
  apply BitVec.eq_of_getLsbD_eq
  intro i hi
  simp only [headerDatalen, schanHeader, BitVec.getLsbD_extractLsb', BitVec.getLsbD_or,
    BitVec.getLsbD_shiftLeft, BitVec.getLsbD_setWidth]
  simp [hi, show 7 + i < 26 by omega, show 7 + i < 20 by omega, show 7 + i < 32 by omega]

end Header

def cdkAddrToBlock (addr : BitVec 32) : BitVec 32 :=
  ((addr >>> 20) &&& 0xf) ||| ((addr >>> 26) &&& 0x30)

theorem cdkAddrToBlock_lt (addr : BitVec 32) : (cdkAddrToBlock addr).toNat < 2 ^ 6 := by
  rw [cdkAddrToBlock, BitVec.toNat_or]
  apply Nat.or_lt_two_pow
  · exact (BitVec.toNat_and _ _ ▸ Nat.and_le_right).trans_lt (by decide)
  · exact (BitVec.toNat_and _ _ ▸ Nat.and_le_right).trans_lt (by decide)

def cdkPortAddr (base : BitVec 32) (port : BitVec 32) : BitVec 32 :=
  (base &&& ~~~0xF00000#32) ||| (cdkAddrToBlock base <<< 20) ||| (port <<< 12)

/-- The words of a message. -/
def message (header addr : BitVec 32) (data : Words) : Words
  | 0 => header
  | 1 => addr
  | i + 2 => data i

variable (env : BdeEnv)

/-- Write `nwords` words of register data to a block; 0 is `true`. -/
def regWriteTo (block addr : BitVec 32) (data : Words) (nwords : ℕ) : Pio Bool := do
  let cmd := message (schanHeader SCHAN_WRITE_REG_CMD block nwords) addr data
  match ← bdeSchanOp env cmd (2 + nwords) none 0 with
  | none => return false
  | some (status, _) => return status = 0

def sbusRegWrite (addr value : BitVec 32) : Pio Bool :=
  regWriteTo env (cdkAddrToBlock addr) addr (fun _ => value) 1

def sbusRegWriteBlk (block addr value : BitVec 32) : Pio Bool :=
  regWriteTo env block addr (fun _ => value) 1

def sbusRegWrite64 (addr : BitVec 32) (data : Words) : Pio Bool :=
  regWriteTo env (cdkAddrToBlock addr) addr data 2

/-- Read a register of `nwords` words; the response header comes first. -/
def regReadFrom (block addr : BitVec 32) (nwords : ℕ) : Pio (Option Words) := do
  let cmd := message (schanHeader SCHAN_READ_REG_CMD block nwords) addr (fun _ => 0)
  match ← bdeSchanOp env cmd 2 (some fun _ => 0) (1 + nwords) with
  | none => return none
  | some (status, resp) =>
    if status ≠ 0 then return none
    return resp.map fun r i => r (1 + i)

def sbusRegRead (addr : BitVec 32) : Pio (Option (BitVec 32)) := do
  let data ← regReadFrom env (cdkAddrToBlock addr) addr 1
  return data.map fun d => d 0

def sbusRegRead64 (addr : BitVec 32) : Pio (Option Words) :=
  regReadFrom env (cdkAddrToBlock addr) addr 2

def sbusRegModify (addr mask value : BitVec 32) : Pio Bool := do
  match ← sbusRegRead env addr with
  | none => return false
  | some cur => sbusRegWrite env addr ((cur &&& ~~~mask) ||| (value &&& mask))

/-- Write one table entry of a block; a response with ERR or NACK is a failure. -/
def memWriteTo (block addr index : BitVec 32) (data : Words) (nwords : ℕ) : Pio Bool := do
  let n := min nwords 14
  let cmd := message (schanHeader SCHAN_WRITE_MEM_CMD block n) (addr + index) data
  match ← bdeSchanOp env cmd (2 + n) (some fun _ => 0) 1 with
  | none => return false
  | some (status, resp) =>
    if status ≠ 0 then return false
    return (resp.getD fun _ => 0) 0 &&& 0x0041 = 0

def sbusMemWrite (addr index : BitVec 32) (data : Words) (nwords : ℕ) : Pio Bool :=
  memWriteTo env (cdkAddrToBlock addr) addr index data nwords

def sbusMemWriteBlk (block addr index : BitVec 32) (data : Words) (nwords : ℕ) : Pio Bool :=
  memWriteTo env block addr index data nwords

/-- Read one table entry of a block. -/
def memReadFrom (block addr index : BitVec 32) (nwords : ℕ) : Pio (Option Words) := do
  let n := min nwords 14
  let cmd := message (schanHeader SCHAN_READ_MEM_CMD block n) (addr + index) (fun _ => 0)
  match ← bdeSchanOp env cmd 2 (some fun _ => 0) (1 + n) with
  | none => return none
  | some (status, resp) =>
    if status ≠ 0 then return none
    return resp.map fun r i => r (1 + i)

def sbusMemRead (addr index : BitVec 32) (nwords : ℕ) : Pio (Option Words) :=
  memReadFrom env (cdkAddrToBlock addr) addr index nwords

def sbusMemReadBlk (block addr index : BitVec 32) (nwords : ℕ) : Pio (Option Words) :=
  memReadFrom env block addr index nwords

end OpenNos.Bde
