import OpenNos.Sdk.Asic

/-! The entries of the L3 tables, packed field by field as `l3.c` does, and the
fields the chip reads back: EGR_L3_INTF, ING_L3_NEXT_HOP, EGR_L3_NEXT_HOP and
L3_DEFIP. -/

namespace OpenNos.Sdk

open Bits

abbrev setBit (words : Words) (numWords bit : ℕ) (value : Bool) : Words :=
  putBit words numWords bit value

abbrev setBitsU64 (words : Words) (numWords startBit width : ℕ) (value : BitVec 64) : Words :=
  putField words numWords startBit width value

def EGR_L3_INTF_WORDS : ℕ := 4

def ING_L3_NEXT_HOP_WORDS : ℕ := 2

def EGR_L3_NEXT_HOP_WORDS : ℕ := 4

def L3_DEFIP_WORDS : ℕ := 8

/-! ### EGR_L3_INTF: VID at 24:13, MAC_ADDRESS at 80:33 -/

def egrL3IntfPack (mac : Mac) (vid : BitVec 16) : Words :=
  let w := setBitsU64 (fun _ => 0#32) EGR_L3_INTF_WORDS 13 12 ((vid &&& 0xfff).setWidth 64)
  setBitsU64 w EGR_L3_INTF_WORDS 33 48 (mac48ToU64 mac)

def intfMac (w : Words) : BitVec 48 := field w 33 48

theorem intfMac_egrL3IntfPack (mac : Mac) (vid : BitVec 16) :
    intfMac (egrL3IntfPack mac vid) = mac.u48 :=
  field_putField _ (by decide)

/-! ### ING_L3_NEXT_HOP: PORT_NUM at 22:16 -/

def ingL3NhopPack (port : ℤ) : Words :=
  let w := setBitsU64 (fun _ => 0#32) ING_L3_NEXT_HOP_WORDS 0 2 0
  setBitsU64 w ING_L3_NEXT_HOP_WORDS 16 7 (BitVec.ofInt 64 port &&& 0x7f)

def nhopPort (w : Words) : BitVec 7 := field w 16 7

/-- A mask of ones below the kept width does nothing. -/
theorem setWidth_and_of_ones {n k : ℕ} (x m : BitVec n)
    (hm : ∀ i < k, i < n → m.getLsbD i = true) : (x &&& m).setWidth k = x.setWidth k := by
  apply BitVec.eq_of_getLsbD_eq
  intro i hi
  simp only [BitVec.getLsbD_setWidth, BitVec.getLsbD_and, hi, decide_true, Bool.true_and]
  by_cases hn : i < n
  · rw [hm i hi hn, Bool.and_true]
  · rw [BitVec.getLsbD_of_ge x i (by omega), Bool.false_and]

theorem setWidth_ofInt {n k : ℕ} (h : k ≤ n) (x : ℤ) :
    (BitVec.ofInt n x).setWidth k = BitVec.ofInt k x := by
  have hdvd : (2 ^ k : ℤ) ∣ 2 ^ n := pow_dvd_pow 2 h
  have hpos : (0 : ℤ) < 2 ^ n := by positivity
  apply BitVec.eq_of_toNat_eq
  zify
  rw [BitVec.toNat_setWidth, BitVec.toNat_ofInt, BitVec.toNat_ofInt]
  push_cast
  rw [Int.toNat_of_nonneg (Int.emod_nonneg _ hpos.ne'), Int.emod_emod_of_dvd _ hdvd,
    Int.toNat_of_nonneg (Int.emod_nonneg _ (by positivity))]

theorem nhopPort_ingL3NhopPack (port : ℤ) :
    nhopPort (ingL3NhopPack port) = BitVec.ofInt 7 port := by
  refine (field_putField _ (by decide)).trans ?_
  rw [setWidth_and_of_ones _ _ (by decide), setWidth_ofInt (by decide)]

/-! ### EGR_L3_NEXT_HOP: INTF_NUM at 14:3, MAC_ADDRESS at 62:15 -/

def egrL3NhopPack (mac : Mac) (intfId : ℤ) : Words :=
  let w := setBitsU64 (fun _ => 0#32) EGR_L3_NEXT_HOP_WORDS 0 2 0
  let w := setBitsU64 w EGR_L3_NEXT_HOP_WORDS 3 12 (BitVec.ofInt 64 intfId &&& 0xfff)
  setBitsU64 w EGR_L3_NEXT_HOP_WORDS 15 48 (mac48ToU64 mac)

def nhopIntf (w : Words) : BitVec 12 := field w 3 12

def nhopMac (w : Words) : BitVec 48 := field w 15 48

theorem nhopIntf_egrL3NhopPack (mac : Mac) (intfId : ℤ) :
    nhopIntf (egrL3NhopPack mac intfId) = BitVec.ofInt 12 intfId := by
  refine (field_putField_of_disjoint _ (by decide)).trans ?_
  refine (field_putField _ (by decide)).trans ?_
  rw [setWidth_and_of_ones _ _ (by decide), setWidth_ofInt (by decide)]

theorem nhopMac_egrL3NhopPack (mac : Mac) (intfId : ℤ) :
    nhopMac (egrL3NhopPack mac intfId) = mac.u48 :=
  field_putField _ (by decide)

/-! ### L3_DEFIP: VALID0 at 0, KEY0 at 45:2, MASK0 at 133:90, NEXT_HOP_INDEX0 at 220:207

KEY0 and MASK0 hold bit 0 for the mode, bits 32:1 for the address and the bits
from 33 on for the VRF. -/

/-- `0xffffffff << (32 - plen)`, and 0 for a prefix of no bits. -/
def ipMask (plen : ℤ) : BitVec 32 :=
  if plen ≤ 0 then 0#32 else 0xffffffff#32 <<< (32 - plen).toNat

def defipKey (pfx : BitVec 32) : BitVec 64 := pfx.setWidth 64 <<< 1

def defipPackV4Ucast (pfxHost : BitVec 32) (plen : ℤ) (nhopIndex : ℤ) : Words :=
  let key := defipKey pfxHost
  let mask := 0x3ff#64 <<< 33 ||| (ipMask plen).setWidth 64 <<< 1 ||| 1#64
  let w := setBit (fun _ => 0#32) L3_DEFIP_WORDS 0 true
  let w := setBitsU64 w L3_DEFIP_WORDS 2 44 key
  let w := setBitsU64 w L3_DEFIP_WORDS 90 44 mask
  setBitsU64 w L3_DEFIP_WORDS 207 14 (BitVec.ofInt 64 nhopIndex &&& 0x3fff)

def defipValid (w : Words) : Bool := bit w 0

def defipKey0 (w : Words) : BitVec 44 := field w 2 44

def defipMask0 (w : Words) : BitVec 44 := field w 90 44

def defipNhop (w : Words) : BitVec 14 := field w 207 14

@[simp] theorem defipValid_zero : defipValid (fun _ => 0#32) = false := bit_zero 0

theorem defipValid_defipPackV4Ucast (pfx : BitVec 32) (plen nhopIndex : ℤ) :
    defipValid (defipPackV4Ucast pfx plen nhopIndex) = true := by
  refine (bit_putField_of_disjoint _ (by decide)).trans ?_
  refine (bit_putField_of_disjoint _ (by decide)).trans ?_
  refine (bit_putField_of_disjoint _ (by decide)).trans ?_
  rw [bit_putBit, if_pos (by decide)]

theorem defipKey0_defipPackV4Ucast (pfx : BitVec 32) (plen nhopIndex : ℤ) :
    defipKey0 (defipPackV4Ucast pfx plen nhopIndex) = (defipKey pfx).setWidth 44 := by
  refine (field_putField_of_disjoint _ (by decide)).trans ?_
  refine (field_putField_of_disjoint _ (by decide)).trans ?_
  exact field_putField _ (by decide)

theorem defipMask0_defipPackV4Ucast (pfx : BitVec 32) (plen nhopIndex : ℤ) :
    defipMask0 (defipPackV4Ucast pfx plen nhopIndex) =
      (0x3ff#64 <<< 33 ||| (ipMask plen).setWidth 64 <<< 1 ||| 1#64).setWidth 44 := by
  refine (field_putField_of_disjoint _ (by decide)).trans ?_
  exact field_putField _ (by decide)

theorem defipNhop_defipPackV4Ucast (pfx : BitVec 32) (plen nhopIndex : ℤ) :
    defipNhop (defipPackV4Ucast pfx plen nhopIndex) = BitVec.ofInt 14 nhopIndex := by
  refine (field_putField _ (by decide)).trans ?_
  rw [setWidth_and_of_ones _ _ (by decide), setWidth_ofInt (by decide)]

end OpenNos.Sdk
