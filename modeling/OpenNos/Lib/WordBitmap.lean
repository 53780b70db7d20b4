import OpenNos.Lib.Bits

/-! Bitmaps of 64 bits inside an array of 32-bit words. One starts at a word, one
two bits past the start of a word; either covers two words and the low bits of a
third, whose other bits stay. A small field lies within one word. Each lemma says
what every bit of the array is after the write. -/

namespace OpenNos.Bits

/-- The bitmap from the start of word `k` on; the two bits past it are cleared. -/
def putAligned (w : Words) (k : ℕ) (bm : BitVec 64) : Words :=
  let w := Function.update w k ((bm &&& 0xffffffff#64).setWidth 32)
  let w := Function.update w (k + 1) ((bm >>> 32 &&& 0xffffffff#64).setWidth 32)
  Function.update w (k + 2) (w (k + 2) &&& ~~~0x3#32)

/-- The bitmap from bit 2 of word `k` on; `tail` masks the bits of the last word that
belong to it. -/
def putShifted (w : Words) (k : ℕ) (tail : BitVec 32) (bm : BitVec 64) : Words :=
  let w := Function.update w k (w k &&& 0x3#32 ||| ((bm &&& 0x3fffffff#64) <<< 2).setWidth 32)
  let w := Function.update w (k + 1) ((bm >>> 30 &&& 0xffffffff#64).setWidth 32)
  Function.update w (k + 2) (w (k + 2) &&& ~~~tail ||| (bm >>> 62).setWidth 32 &&& tail)

/-- The masked value at bit `s` of word `k`. -/
def putMasked (w : Words) (k s : ℕ) (mask v : BitVec 32) : Words :=
  Function.update w k (w k &&& ~~~(mask <<< s) ||| (v &&& mask) <<< s)

theorem bit_update (w : Words) (k : ℕ) (x : BitVec 32) (b : ℕ) :
    bit (Function.update w k x) b = if b / 32 = k then x.getLsbD (b % 32) else bit w b := by
  by_cases h : b / 32 = k
  · rw [bit, h, Function.update_self, if_pos rfl]
  · rw [bit, Function.update_of_ne h, if_neg h, bit]

theorem getLsbD_div_mod (w : Words) {b k : ℕ} (h : b / 32 = k) :
    (w k).getLsbD (b % 32) = bit w b := by rw [bit, h]

/-! ### The masks -/

theorem getLsbD_ones {i : ℕ} (hi : i < 32) : (0xffffffff#64).getLsbD i = true := by
  have h : ∀ i < 32, (0xffffffff#64).getLsbD i = true := by decide
  exact h i hi

theorem getLsbD_ones30 {i : ℕ} (hi : i < 32) :
    (0x3fffffff#64).getLsbD i = decide (i < 30) := by
  have h : ∀ i < 32, (0x3fffffff#64).getLsbD i = decide (i < 30) := by decide
  exact h i hi

theorem getLsbD_three {i : ℕ} (hi : i < 32) : (0x3#32).getLsbD i = decide (i < 2) := by
  have h : ∀ i < 32, (0x3#32).getLsbD i = decide (i < 2) := by decide
  exact h i hi

/-! ### Every bit after the write -/

theorem bit_putAligned (w : Words) (k : ℕ) (bm : BitVec 64) (b : ℕ) :
    bit (putAligned w k bm) b =
      if 32 * k ≤ b ∧ b < 32 * k + 66 then bm.getLsbD (b - 32 * k) else bit w b := by
  have hr : b % 32 < 32 := Nat.mod_lt _ (by norm_num)
  simp only [putAligned, bit_update]
  by_cases h2 : b / 32 = k + 2
  · rw [if_pos h2, Function.update_of_ne (by omega), Function.update_of_ne (by omega),
      BitVec.getLsbD_and, BitVec.getLsbD_not, getLsbD_three hr, getLsbD_div_mod w h2]
    by_cases htail : b % 32 < 2
    · rw [if_pos (by omega), BitVec.getLsbD_of_ge bm _ (by omega)]
      simp [htail]
    · rw [if_neg (by omega)]
      simp [htail, hr]
  rw [if_neg h2]
  by_cases h1 : b / 32 = k + 1
  · rw [if_pos h1, if_pos (by omega), BitVec.getLsbD_setWidth, BitVec.getLsbD_and,
      getLsbD_ones hr, BitVec.getLsbD_ushiftRight, show 32 + b % 32 = b - 32 * k by omega]
    simp [hr]
  rw [if_neg h1]
  by_cases h0 : b / 32 = k
  · rw [if_pos h0, if_pos (by omega), BitVec.getLsbD_setWidth, BitVec.getLsbD_and,
      getLsbD_ones hr, show b % 32 = b - 32 * k by omega]
    simp [show b - 32 * k < 32 by omega]
  · rw [if_neg h0, if_neg (by omega)]

theorem bit_putShifted (w : Words) (k : ℕ) {t : ℕ} {tail : BitVec 32} (bm : BitVec 64) (b : ℕ)
    (ht : t ≤ 32) (htail : ∀ i < 32, tail.getLsbD i = decide (i < t)) :
    bit (putShifted w k tail bm) b =
      if 32 * k + 2 ≤ b ∧ b < 32 * k + 64 + t then bm.getLsbD (b - (32 * k + 2)) else bit w b := by
  have hr : b % 32 < 32 := Nat.mod_lt _ (by norm_num)
  simp only [putShifted, bit_update]
  by_cases h2 : b / 32 = k + 2
  · rw [if_pos h2, Function.update_of_ne (by omega), Function.update_of_ne (by omega),
      BitVec.getLsbD_or, BitVec.getLsbD_and, BitVec.getLsbD_and, BitVec.getLsbD_not, htail _ hr,
      getLsbD_div_mod w h2, BitVec.getLsbD_setWidth, BitVec.getLsbD_ushiftRight,
      show 62 + b % 32 = b - (32 * k + 2) by omega]
    by_cases hin : b % 32 < t
    · rw [if_pos (by omega)]
      simp [hin, hr]
    · rw [if_neg (by omega)]
      simp [hin, hr]
  rw [if_neg h2]
  by_cases h1 : b / 32 = k + 1
  · rw [if_pos h1, if_pos (by omega), BitVec.getLsbD_setWidth, BitVec.getLsbD_and,
      getLsbD_ones hr, BitVec.getLsbD_ushiftRight, show 30 + b % 32 = b - (32 * k + 2) by omega]
    simp [hr]
  rw [if_neg h1]
  by_cases h0 : b / 32 = k
  · rw [if_pos h0, BitVec.getLsbD_or, BitVec.getLsbD_and, getLsbD_three hr, getLsbD_div_mod w h0,
      BitVec.getLsbD_setWidth, BitVec.getLsbD_shiftLeft, BitVec.getLsbD_and]
    by_cases hin : b % 32 < 2
    · rw [if_neg (by omega)]
      simp [hin]
    · rw [if_pos (by omega), getLsbD_ones30 (by omega),
        show b % 32 - 2 = b - (32 * k + 2) by omega]
      simp [hin, hr, show b % 32 < 64 by omega, show b - (32 * k + 2) < 30 by omega]
  · rw [if_neg h0, if_neg (by omega)]

theorem bit_putMasked (w : Words) (k s : ℕ) {width : ℕ} {mask : BitVec 32} (v : BitVec 32) (b : ℕ)
    (hs : s + width ≤ 32) (hmask : ∀ i < 32, mask.getLsbD i = decide (i < width)) :
    bit (putMasked w k s mask v) b =
      if 32 * k + s ≤ b ∧ b < 32 * k + s + width then v.getLsbD (b - (32 * k + s))
      else bit w b := by
  have hr : b % 32 < 32 := Nat.mod_lt _ (by norm_num)
  rw [putMasked, bit_update]
  by_cases h0 : b / 32 = k
  · rw [if_pos h0, BitVec.getLsbD_or, BitVec.getLsbD_and, BitVec.getLsbD_not,
      BitVec.getLsbD_shiftLeft, BitVec.getLsbD_shiftLeft, BitVec.getLsbD_and,
      getLsbD_div_mod w h0, hmask _ (by omega)]
    by_cases hlow : b % 32 < s
    · rw [if_neg (by omega)]
      simp [hlow, hr]
    · by_cases hin : b % 32 - s < width
      · rw [if_pos (by omega), show b % 32 - s = b - (32 * k + s) by omega]
        simp [hlow, hr, show b - (32 * k + s) < width by omega]
      · rw [if_neg (by omega)]
        simp [hlow, hin, hr]
  · rw [if_neg h0, if_neg (by omega)]

end OpenNos.Bits
