import Mathlib.Tactic

/-! Bump allocation. Blocks are taken from a pool one above the other, each at the
next address of its alignment, and none is given back; so the blocks handed out
lie apart from one another, below the place the next one is looked for. Addresses are
numbers; the last section has the masks that compute with words. -/

namespace OpenNos.Bump

structure Block where
  addr : ℕ
  size : ℕ
  deriving DecidableEq

/-- No address belongs to both. -/
def Block.Apart (b c : Block) : Prop := b.addr + b.size ≤ c.addr ∨ c.addr + c.size ≤ b.addr

/-- The next multiple of the alignment. -/
def alignUp (x align : ℕ) : ℕ := (x + (align - 1)) / align * align

/-- Where a block fits between `next` and `limit`. -/
def fit (next limit size align : ℕ) : Option ℕ :=
  let a := alignUp next align
  if limit < a + size then none else some a

/-- The blocks lie apart, between `lo` and `hi`. -/
structure Laid (lo hi : ℕ) (blocks : List Block) : Prop where
  apart : blocks.Pairwise Block.Apart
  within : ∀ b ∈ blocks, lo ≤ b.addr ∧ b.addr + b.size ≤ hi

variable {lo hi next limit size align a : ℕ} {blocks : List Block}

theorem Block.Apart.symm {b c : Block} (h : b.Apart c) : c.Apart b := Or.symm h

theorem le_alignUp (ha : 0 < align) (x : ℕ) : x ≤ alignUp x align := by
  have hdiv := Nat.div_add_mod (x + (align - 1)) align
  have hmod := Nat.mod_lt (x + (align - 1)) ha
  rw [alignUp, Nat.mul_comm]
  omega

theorem dvd_alignUp (x align : ℕ) : align ∣ alignUp x align := Dvd.intro_left _ rfl

theorem alignUp_of_dvd (ha : 0 < align) (h : align ∣ next) : alignUp next align = next := by
  obtain ⟨k, rfl⟩ := h
  rw [alignUp, Nat.add_comm, Nat.add_mul_div_left _ _ ha, Nat.div_eq_of_lt (by omega), Nat.zero_add,
    Nat.mul_comm]

/-- At an aligned place a block fits if it ends below the limit. -/
theorem fit_of_dvd (ha : 0 < align) (h : align ∣ next) :
    fit next limit size align = if next + size ≤ limit then some next else none := by
  simp only [fit, alignUp_of_dvd ha h]
  split_ifs <;> first | rfl | omega

theorem fit_eq_some (ha : 0 < align) (h : fit next limit size align = some a) :
    next ≤ a ∧ a + size ≤ limit := by
  simp only [fit] at h
  split_ifs at h with hlimit
  obtain rfl := Option.some.inj h
  exact ⟨le_alignUp ha next, by omega⟩

theorem laid_nil (lo hi : ℕ) : Laid lo hi [] := ⟨List.Pairwise.nil, fun _ h => by cases h⟩

theorem Laid.mono {hi' : ℕ} (h : Laid lo hi blocks) (hh : hi ≤ hi') : Laid lo hi' blocks :=
  ⟨h.apart, fun b hb => ⟨(h.within b hb).1, (h.within b hb).2.trans hh⟩⟩

/-- A block above the others. -/
theorem Laid.cons (h : Laid lo hi blocks) (hlo : lo ≤ a) (ha : hi ≤ a) :
    Laid lo (a + size) (⟨a, size⟩ :: blocks) where
  apart := List.pairwise_cons.mpr ⟨fun b hb => .inr ((h.within b hb).2.trans ha), h.apart⟩
  within b hb := by
    rcases List.mem_cons.mp hb with rfl | hb
    · exact ⟨hlo, le_rfl⟩
    · have := h.within b hb
      omega

/-! ### In machine words -/

/-- Clearing the bits below an alignment rounds down to it. -/
theorem toNat_and_not_ones {w : ℕ} (y : BitVec w) (k : ℕ) :
    (y &&& ~~~BitVec.ofNat w (2 ^ k - 1)).toNat = y.toNat / 2 ^ k * 2 ^ k := by
  have hshift : y &&& ~~~BitVec.ofNat w (2 ^ k - 1) = (y >>> k) <<< k := by
    apply BitVec.eq_of_getLsbD_eq
    intro i hi
    rw [BitVec.getLsbD_and, BitVec.getLsbD_not, BitVec.getLsbD_ofNat, Nat.testBit_two_pow_sub_one,
      BitVec.getLsbD_shiftLeft, BitVec.getLsbD_ushiftRight]
    by_cases hik : i < k
    · simp [hi, hik]
    · simp [hi, hik, show k + (i - k) = i by omega]
  have hle : y.toNat / 2 ^ k * 2 ^ k ≤ y.toNat := Nat.div_mul_le_self _ _
  rw [hshift, BitVec.toNat_shiftLeft, BitVec.toNat_ushiftRight, Nat.shiftLeft_eq,
    Nat.shiftRight_eq_div_pow, Nat.mod_eq_of_lt (hle.trans_lt y.isLt)]

/-- The masks of C compute the next multiple, where the addition does not wrap. -/
theorem toNat_alignMask {w k : ℕ} {x align : BitVec w} (ha : align.toNat = 2 ^ k)
    (h : x.toNat + (align.toNat - 1) < 2 ^ w) :
    ((x + (align - 1)) &&& ~~~(align - 1)).toNat = alignUp x.toNat align.toNat := by
  have hpos : 0 < 2 ^ k := Nat.two_pow_pos k
  have hle : 1 ≤ align.toNat := ha ▸ hpos
  have hlt := align.isLt
  have hone : (1 : BitVec w).toNat = 1 := Nat.mod_eq_of_lt (hle.trans_lt hlt)
  have hmask : align - 1 = BitVec.ofNat w (2 ^ k - 1) := by
    apply BitVec.eq_of_toNat_eq
    rw [BitVec.toNat_sub_of_le (by rwa [BitVec.le_def, hone]), hone, BitVec.toNat_ofNat,
      Nat.mod_eq_of_lt (by omega), ha]
  have hsum : (x + BitVec.ofNat w (2 ^ k - 1)).toNat = x.toNat + (align.toNat - 1) := by
    rw [BitVec.toNat_add, BitVec.toNat_ofNat, Nat.mod_eq_of_lt (show 2 ^ k - 1 < 2 ^ w by omega),
      ← ha, Nat.mod_eq_of_lt h]
  rw [hmask, toNat_and_not_ones, hsum, alignUp, ha]

end OpenNos.Bump
