import OpenNos.Sdk.L3Entry

/-! The writer of table fields, `set_bits_u64`, of which `l3.c` and `ecmp.c` each have a
copy of the same text. It is a loop over the bits of the value; what it leaves is the
value in the field, across the words the field lies in, and every other bit as it was. -/

namespace OpenNos.Sdk

open Bits

/-- What a write to a field does, also with a write before and after it. -/
structure SetBitsLaws (words : Words) (numWords startBit width : ℕ) (value : BitVec 64) :
    Prop where
  reads : (field (setBitsU64 words numWords startBit width value) startBit width).toNat =
    value.toNat % 2 ^ width
  frame : ∀ b, b < startBit ∨ startBit + width ≤ b →
    bit (setBitsU64 words numWords startBit width value) b = bit words b
  commutes : ∀ startBit' width' value',
    startBit + width ≤ startBit' ∨ startBit' + width' ≤ startBit →
      setBitsU64 (setBitsU64 words numWords startBit width value)
        numWords startBit' width' value' =
      setBitsU64 (setBitsU64 words numWords startBit' width' value')
        numWords startBit width value
  overrides : ∀ value',
    setBitsU64 (setBitsU64 words numWords startBit width value) numWords startBit width value' =
      setBitsU64 words numWords startBit width value'
  /-- the parts of the value in the three words of a field that spans three -/
  spans : 64 < startBit % 32 + width →
    field (setBitsU64 words numWords startBit width value) startBit (32 - startBit % 32) =
        value.extractLsb' 0 (32 - startBit % 32) ∧
      setBitsU64 words numWords startBit width value (startBit / 32 + 1) =
        value.extractLsb' (32 - startBit % 32) 32 ∧
      field (setBitsU64 words numWords startBit width value) (32 * (startBit / 32 + 2))
          (startBit % 32 + width - 64) =
        value.extractLsb' (64 - startBit % 32) (startBit % 32 + width - 64)

theorem setBitsU64_laws (words : Words) {numWords startBit width : ℕ} (value : BitVec 64)
    (hfit : startBit + width ≤ 32 * numWords) :
    SetBitsLaws words numWords startBit width value where
  reads := by
    rw [setBitsU64, field_putField _ hfit, BitVec.toNat_setWidth]
  frame b hb := bit_putField_of_disjoint _ hb
  commutes _ _ _ h := putField_comm _ _ h _ _
  overrides value' := putField_putField _ _ _ _ _ _
  spans hspan := by
    have hmod := Nat.div_add_mod startBit 32
    have hlt := Nat.mod_lt startBit (show 0 < 32 by decide)
    refine ⟨?_, ?_, ?_⟩
    · have hlow := field_putField_part (w := words) (k := 0) (m := 32 - startBit % 32) value hfit
        (by omega)
      rwa [Nat.add_zero] at hlow
    · have hmid := field_putField_part (w := words) (k := 32 - startBit % 32) (m := 32) value hfit
        (by omega)
      rwa [show startBit + (32 - startBit % 32) = 32 * (startBit / 32 + 1) by omega,
        field_word] at hmid
    · have hhigh := field_putField_part (w := words) (k := 64 - startBit % 32)
        (m := startBit % 32 + width - 64) value hfit (by omega)
      rwa [show startBit + (64 - startBit % 32) = 32 * (startBit / 32 + 2) by omega] at hhigh

/-- The destination address of a next hop, 48 bits at 15 in four words. -/
theorem setBitsU64_laws_mac : SetBitsLaws (fun _ => 0xffffffff) 4 15 48 0x0000a1b2c3d4e5f6 :=
  setBitsU64_laws _ _ (by decide)

end OpenNos.Sdk
