import OpenNos.Lib.WordBitmap
import OpenNos.Sdk.L3Entry

/-! The entries of the VLAN and EGR_VLAN tables. The member bitmaps have 66 bits, of
which the software keeps 64; some start inside a word, so that they share words with
each other and with STG and VALID. Each setter is settled bit by bit. -/

namespace OpenNos.Sdk

open Bits

def VLAN_WORDS : ℕ := 10

def EGR_VLAN_WORDS : ℕ := 8

/-! ### The fields of an entry -/

/-- PORT_BITMAP at 65:0. -/
def vlanSetPortBitmap (words : Words) (bm : BitVec 64) : Words := putAligned words 0 bm

/-- ING_PORT_BITMAP at 131:66. -/
def vlanSetIngPortBitmap (words : Words) (bm : BitVec 64) : Words := putShifted words 2 0x3#32 bm

/-- STG at 140:132, VALID at 205, VLAN_PROFILE_PTR at 238:232. -/
def vlanSetStgValidProfile (words : Words) (stg : ℤ) (valid : Bool) (profilePtr : ℤ) : Words :=
  let words := putMasked words 4 4 0x1ff#32 (BitVec.ofInt 32 stg)
  let words := setBit words VLAN_WORDS 205 valid
  putMasked words 7 8 0x7f#32 (BitVec.ofInt 32 profilePtr)

/-- UT_PORT_BITMAP at 161:96. -/
def egrVlanSetUtPortBitmap (words : Words) (bm : BitVec 64) : Words := putAligned words 3 bm

/-- PORT_BITMAP at 227:162. -/
def egrVlanSetPortBitmap (words : Words) (bm : BitVec 64) : Words := putShifted words 5 0xf#32 bm

/-- VALID at 0, STG at 9:1. -/
def egrVlanSetValidStg (words : Words) (stg : ℤ) (valid : Bool) : Words :=
  let words := setBit words EGR_VLAN_WORDS 0 valid
  putMasked words 0 1 0x1ff#32 (BitVec.ofInt 32 stg)

/-- The entry of a valid VLAN with these members. -/
def ingPack (pbm : BitVec 64) : Words :=
  let w := vlanSetPortBitmap (fun _ => 0#32) pbm
  let w := vlanSetIngPortBitmap w pbm
  vlanSetStgValidProfile w 2 true 0

def egrPack (pbm utbm : BitVec 64) : Words :=
  let w := egrVlanSetValidStg (fun _ => 0#32) 2 true
  let w := egrVlanSetUtPortBitmap w utbm
  egrVlanSetPortBitmap w pbm

/-! ### What the chip reads -/

def vlanEntryValid (w : Words) : Bool := bit w 205

def vlanEntryStg (w : Words) : BitVec 9 := field w 132 9

def vlanPortBitmap (w : Words) : BitVec 66 := field w 0 66

def vlanIngPortBitmap (w : Words) : BitVec 66 := field w 66 66

def egrVlanValid (w : Words) : Bool := bit w 0

def egrVlanStg (w : Words) : BitVec 9 := field w 1 9

def egrVlanUtPortBitmap (w : Words) : BitVec 66 := field w 96 66

def egrVlanPortBitmap (w : Words) : BitVec 66 := field w 162 66

/-! ### Each bit after a setter -/

theorem bit_vlanSetPortBitmap (w : Words) (bm : BitVec 64) (b : ℕ) :
    bit (vlanSetPortBitmap w bm) b = if b < 66 then bm.getLsbD b else bit w b := by
  rw [vlanSetPortBitmap, bit_putAligned]
  simp

theorem bit_vlanSetIngPortBitmap (w : Words) (bm : BitVec 64) (b : ℕ) :
    bit (vlanSetIngPortBitmap w bm) b =
      if 66 ≤ b ∧ b < 130 then bm.getLsbD (b - 66) else bit w b :=
  bit_putShifted w 2 bm b (by decide) fun _ hi => getLsbD_three hi

theorem bit_egrVlanSetUtPortBitmap (w : Words) (bm : BitVec 64) (b : ℕ) :
    bit (egrVlanSetUtPortBitmap w bm) b =
      if 96 ≤ b ∧ b < 162 then bm.getLsbD (b - 96) else bit w b :=
  bit_putAligned w 3 bm b

theorem bit_egrVlanSetPortBitmap (w : Words) (bm : BitVec 64) (b : ℕ) :
    bit (egrVlanSetPortBitmap w bm) b =
      if 162 ≤ b ∧ b < 228 then bm.getLsbD (b - 162) else bit w b := by
  have htail : ∀ i < 32, (0xf#32).getLsbD i = decide (i < 4) := by decide
  exact bit_putShifted w 5 bm b (by decide) htail

theorem getLsbD_mask9 : ∀ i < 32, (0x1ff#32).getLsbD i = decide (i < 9) := by decide

theorem getLsbD_mask7 : ∀ i < 32, (0x7f#32).getLsbD i = decide (i < 7) := by decide

theorem bit_vlanSetStgValidProfile (w : Words) (stg : ℤ) (valid : Bool) (profilePtr : ℤ) (b : ℕ) :
    bit (vlanSetStgValidProfile w stg valid profilePtr) b =
      if 232 ≤ b ∧ b < 239 then (BitVec.ofInt 32 profilePtr).getLsbD (b - 232)
      else if b = 205 then valid
      else if 132 ≤ b ∧ b < 141 then (BitVec.ofInt 32 stg).getLsbD (b - 132)
      else bit w b := by
  have hword : 205 / 32 < VLAN_WORDS := by decide
  rw [vlanSetStgValidProfile, bit_putMasked _ _ _ _ _ (by decide) getLsbD_mask7, bit_putBit,
    bit_putMasked _ _ _ _ _ (by decide) getLsbD_mask9]
  simp only [hword, and_true]

theorem bit_egrVlanSetValidStg (w : Words) (stg : ℤ) (valid : Bool) (b : ℕ) :
    bit (egrVlanSetValidStg w stg valid) b =
      if 1 ≤ b ∧ b < 10 then (BitVec.ofInt 32 stg).getLsbD (b - 1)
      else if b = 0 then valid
      else bit w b := by
  have hword : 0 / 32 < EGR_VLAN_WORDS := by decide
  rw [egrVlanSetValidStg, bit_putMasked _ _ _ _ _ (by decide) getLsbD_mask9, bit_putBit]
  simp only [hword, and_true]

theorem getLsbD_two (i : ℕ) : (BitVec.ofInt 32 2).getLsbD i = decide (i = 1) := by
  have htwo : BitVec.ofInt 32 2 = BitVec.twoPow 32 1 := by decide
  rw [htwo, BitVec.getLsbD_twoPow]
  simp [eq_comm]

/-! ### The entry of a valid VLAN -/

theorem bit_ingPack (pbm : BitVec 64) (b : ℕ) : bit (ingPack pbm) b =
    if b < 66 then pbm.getLsbD b
    else if b < 132 then pbm.getLsbD (b - 66)
    else decide (b = 133 ∨ b = 205) := by
  rw [ingPack, bit_vlanSetStgValidProfile, bit_vlanSetIngPortBitmap, bit_vlanSetPortBitmap,
    getLsbD_two, bit_zero]
  by_cases hport : b < 66
  · simp (disch := omega) only [if_pos, if_neg]
  by_cases hing : b < 130
  · simp (disch := omega) only [if_pos, if_neg]
  by_cases hgap : b < 132
  · -- in the field, but past the 64 bits kept
    simp (disch := omega) only [if_pos, if_neg]
    exact (BitVec.getLsbD_of_ge pbm _ (by omega)).symm
  by_cases hstg : b < 141
  · simp (disch := omega) only [if_pos, if_neg, decide_eq_decide]
    omega
  by_cases hvalid : b = 205
  · simp [hvalid]
  · simp [hport, hing, hgap, hvalid, show b ≠ 133 by omega, show ¬ b < 141 by omega]

theorem bit_egrPack (pbm utbm : BitVec 64) (b : ℕ) : bit (egrPack pbm utbm) b =
    if 162 ≤ b ∧ b < 228 then pbm.getLsbD (b - 162)
    else if 96 ≤ b ∧ b < 162 then utbm.getLsbD (b - 96)
    else decide (b = 0 ∨ b = 2) := by
  rw [egrPack, bit_egrVlanSetPortBitmap, bit_egrVlanSetUtPortBitmap, bit_egrVlanSetValidStg,
    getLsbD_two, bit_zero]
  by_cases hport : 162 ≤ b ∧ b < 228
  · simp (disch := omega) only [if_pos]
  by_cases hut : 96 ≤ b ∧ b < 162
  · simp (disch := omega) only [if_pos, if_neg]
  by_cases hstg : 1 ≤ b ∧ b < 10
  · simp (disch := omega) only [if_pos, if_neg, decide_eq_decide]
    omega
  by_cases hvalid : b = 0
  · simp [hvalid]
  · simp [hport, hut, hstg, hvalid, show b ≠ 2 by omega]

/-- The bitmaps of a packed entry replaced. -/
theorem ingPack_setBitmaps (pbm pbm' : BitVec 64) :
    vlanSetIngPortBitmap (vlanSetPortBitmap (ingPack pbm) pbm') pbm' = ingPack pbm' := by
  apply words_ext
  intro b
  have htail (i : ℕ) (hi : 64 ≤ i) : pbm.getLsbD i = pbm'.getLsbD i := by
    rw [BitVec.getLsbD_of_ge pbm i hi, BitVec.getLsbD_of_ge pbm' i hi]
  rw [bit_vlanSetIngPortBitmap, bit_vlanSetPortBitmap, bit_ingPack, bit_ingPack]
  by_cases hport : b < 66
  · simp (disch := omega) only [if_pos, if_neg]
  by_cases hing : b < 130
  · simp (disch := omega) only [if_pos, if_neg]
  by_cases hgap : b < 132
  · simp (disch := omega) only [if_pos, if_neg]
    exact htail _ (by omega)
  · simp (disch := omega) only [if_neg]

theorem egrPack_setBitmaps (pbm pbm' utbm utbm' : BitVec 64) :
    egrVlanSetPortBitmap (egrVlanSetUtPortBitmap (egrPack pbm utbm) utbm') pbm' =
      egrPack pbm' utbm' := by
  apply words_ext
  intro b
  rw [bit_egrVlanSetPortBitmap, bit_egrVlanSetUtPortBitmap, bit_egrPack, bit_egrPack]
  by_cases hport : 162 ≤ b ∧ b < 228
  · simp (disch := omega) only [if_pos]
  by_cases hut : 96 ≤ b ∧ b < 162
  · simp (disch := omega) only [if_pos, if_neg]
  · simp (disch := omega) only [if_neg]

section Decode

variable (pbm utbm : BitVec 64)

theorem vlanEntryValid_ingPack : vlanEntryValid (ingPack pbm) = true := by
  rw [vlanEntryValid, bit_ingPack]
  simp

theorem vlanEntryStg_ingPack : vlanEntryStg (ingPack pbm) = 2 := by
  refine (field_eq_iff _ _ _ _).mpr fun i hi => ?_
  have htwo : ∀ i < 9, (2 : BitVec 9).getLsbD i = decide (i = 1) := by decide
  rw [bit_ingPack, htwo i hi, if_neg (by omega), if_neg (by omega), decide_eq_decide]
  omega

theorem getLsbD_vlanPortBitmap_ingPack (i : ℕ) :
    (vlanPortBitmap (ingPack pbm)).getLsbD i = pbm.getLsbD i := by
  rw [vlanPortBitmap, getLsbD_field, Nat.zero_add, bit_ingPack]
  by_cases hi : i < 66
  · simp [hi]
  · simp [hi, BitVec.getLsbD_of_ge pbm i (by omega)]

theorem getLsbD_vlanIngPortBitmap_ingPack (i : ℕ) :
    (vlanIngPortBitmap (ingPack pbm)).getLsbD i = pbm.getLsbD i := by
  rw [vlanIngPortBitmap, getLsbD_field, bit_ingPack, if_neg (by omega), Nat.add_sub_cancel_left]
  by_cases hi : i < 66
  · simp [hi, show 66 + i < 132 by omega]
  · simp [hi, BitVec.getLsbD_of_ge pbm i (by omega)]

theorem egrVlanValid_egrPack : egrVlanValid (egrPack pbm utbm) = true := by
  rw [egrVlanValid, bit_egrPack]
  simp

theorem egrVlanStg_egrPack : egrVlanStg (egrPack pbm utbm) = 2 := by
  refine (field_eq_iff _ _ _ _).mpr fun i hi => ?_
  have htwo : ∀ i < 9, (2 : BitVec 9).getLsbD i = decide (i = 1) := by decide
  rw [bit_egrPack, htwo i hi, if_neg (by omega), if_neg (by omega), decide_eq_decide]
  omega

theorem getLsbD_egrVlanPortBitmap_egrPack (i : ℕ) :
    (egrVlanPortBitmap (egrPack pbm utbm)).getLsbD i = pbm.getLsbD i := by
  rw [egrVlanPortBitmap, getLsbD_field, bit_egrPack]
  by_cases hi : i < 66
  · simp [hi, show 162 + i < 228 by omega]
  · simp [hi, BitVec.getLsbD_of_ge pbm i (by omega)]

theorem getLsbD_egrVlanUtPortBitmap_egrPack (i : ℕ) :
    (egrVlanUtPortBitmap (egrPack pbm utbm)).getLsbD i = utbm.getLsbD i := by
  rw [egrVlanUtPortBitmap, getLsbD_field, bit_egrPack]
  by_cases hi : i < 66
  · simp [hi, show 96 + i < 162 by omega, show ¬ 162 ≤ 96 + i by omega]
  · simp [hi, BitVec.getLsbD_of_ge utbm i (by omega)]

end Decode

end OpenNos.Sdk
