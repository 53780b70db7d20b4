import Mathlib.Tactic

/-! Arrays of 32-bit words read as one little-endian sequence of bits: bit `b`
is bit `b % 32` of word `b / 32`. A field is the run of bits from `start` on,
least significant first. The module also writes a field bit by bit, the way a
register or table packer does, and settles what every field reads afterwards. -/

namespace OpenNos.Bits

/-- The words from a pointer on. -/
abbrev Words := ℕ → BitVec 32

/-- Bit `b` of the sequence. -/
def bit (w : Words) (b : ℕ) : Bool := (w (b / 32)).getLsbD (b % 32)

/-- The field of `width` bits from `start` on. -/
def field (w : Words) (start : ℕ) : (width : ℕ) → BitVec width
  | 0 => 0#0
  | k + 1 => BitVec.cons (bit w (start + k)) (field w start k)

@[simp] theorem bit_zero (b : ℕ) : bit (fun _ => 0#32) b = false := by simp [bit]

theorem getLsbD_field (w : Words) (start width i : ℕ) :
    (field w start width).getLsbD i = (decide (i < width) && bit w (start + i)) := by
  induction width with
  | zero => simp [field]
  | succ k ih =>
    rw [field, BitVec.getLsbD_cons, ih]
    by_cases hi : i = k
    · subst hi; simp
    · have : i < k + 1 ↔ i < k := by omega
      simp [hi, this]

theorem field_eq_iff (w : Words) (start width : ℕ) (v : BitVec width) :
    field w start width = v ↔ ∀ i < width, bit w (start + i) = v.getLsbD i := by
  constructor
  · rintro rfl i hi
    rw [getLsbD_field, decide_eq_true hi, Bool.true_and]
  · intro h
    apply BitVec.eq_of_getLsbD_eq
    intro i hi
    rw [getLsbD_field, decide_eq_true hi, Bool.true_and, h i hi]

theorem field_congr {w w' : Words} {start width : ℕ}
    (h : ∀ i < width, bit w (start + i) = bit w' (start + i)) :
    field w start width = field w' start width := by
  rw [field_eq_iff]
  intro i hi
  rw [h i hi, getLsbD_field, decide_eq_true hi, Bool.true_and]

/-- Arrays that agree in every bit are equal. -/
theorem words_ext {w w' : Words} (h : ∀ b, bit w b = bit w' b) : w = w' := by
  funext k
  apply BitVec.eq_of_getLsbD_eq
  intro i hi
  have hbit := h (32 * k + i)
  rwa [bit, bit, show (32 * k + i) / 32 = k by omega, show (32 * k + i) % 32 = i by omega] at hbit

/-- A word is the field of its 32 bits. -/
theorem field_word (w : Words) (k : ℕ) : field w (32 * k) 32 = w k := by
  rw [field_eq_iff]
  intro i hi
  rw [bit, show (32 * k + i) / 32 = k by omega, show (32 * k + i) % 32 = i by omega]

@[simp] theorem field_zero (start width : ℕ) : field (fun _ => 0#32) start width = 0 := by
  rw [field_eq_iff]
  intro i _
  simp

/-- Two fields next to each other are one. -/
theorem field_append (w : Words) (start m n : ℕ) :
    field w start (n + m) = field w (start + m) n ++ field w start m := by
  rw [field_eq_iff]
  intro i hi
  rw [BitVec.getLsbD_append, getLsbD_field, getLsbD_field]
  by_cases h : i < m
  · rw [if_pos h, decide_eq_true h, Bool.true_and]
  · rw [if_neg h, decide_eq_true (show i - m < n by omega), Bool.true_and,
      show start + m + (i - m) = start + i by omega]

theorem append_inj {m n : ℕ} {x x' : BitVec m} {y y' : BitVec n} :
    x ++ y = x' ++ y' ↔ x = x' ∧ y = y' := by
  constructor
  · intro h
    have hbit (i : ℕ) := congrArg (fun v => v.getLsbD i) h
    simp only [BitVec.getLsbD_append] at hbit
    refine ⟨BitVec.eq_of_getLsbD_eq fun i _ => ?_, BitVec.eq_of_getLsbD_eq fun i hi => ?_⟩
    · have hhigh := hbit (n + i)
      rwa [if_neg (by omega), if_neg (by omega), Nat.add_sub_cancel_left] at hhigh
    · have hlow := hbit i
      rwa [if_pos hi, if_pos hi] at hlow
  · rintro ⟨rfl, rfl⟩
    rfl

/-- The number of a field from the numbers of its parts. -/
theorem toNat_field_add (w : Words) (start m n : ℕ) :
    (field w start (n + m)).toNat =
      (field w start m).toNat + (field w (start + m) n).toNat * 2 ^ m := by
  rw [field_append, BitVec.toNat_append, ← Nat.shiftLeft_add_eq_or_of_lt (BitVec.isLt _),
    Nat.shiftLeft_eq, Nat.add_comm]

/-- A difference under a mask vanishes if the two agree where the mask is set. -/
theorem xor_and_eq_zero_iff {n : ℕ} {x y m : BitVec n} :
    (x ^^^ y) &&& m = 0 ↔ ∀ i < n, m.getLsbD i = true → y.getLsbD i = x.getLsbD i := by
  constructor
  · intro h i _ hm
    have hbit := congrArg (fun v => v.getLsbD i) h
    simp only [BitVec.getLsbD_and, BitVec.getLsbD_xor, hm, Bool.and_true] at hbit
    exact (bne_eq_false_iff_eq.mp (hbit.trans BitVec.getLsbD_zero)).symm
  · intro h
    apply BitVec.eq_of_getLsbD_eq
    intro i hi
    rw [BitVec.getLsbD_and, BitVec.getLsbD_xor, show (0 : BitVec n).getLsbD i = false from
      BitVec.getLsbD_zero]
    cases hm : m.getLsbD i with
    | true => rw [h i hi hm, Bool.xor_self, Bool.false_and]
    | false => rw [Bool.and_false]

/-- The first `n` words of one array over the rest of another. -/
def splice (n : ℕ) (w old : Words) : Words := fun k => if k < n then w k else old k

theorem bit_splice {n b : ℕ} (w old : Words) (hb : b < 32 * n) :
    bit (splice n w old) b = bit w b := by
  simp [bit, splice, show b / 32 < n by omega]

theorem bit_splice_of_le {n b : ℕ} (w old : Words) (hb : 32 * n ≤ b) :
    bit (splice n w old) b = bit old b := by
  simp [bit, splice, show ¬ b / 32 < n by omega]

theorem field_splice {n start width : ℕ} (w old : Words) (h : start + width ≤ 32 * n) :
    field (splice n w old) start width = field w start width :=
  field_congr fun _ hi => bit_splice w old (by omega)

/-! ### Writing fields -/

/-- Set or clear one bit; a bit past the `n` words is left alone. -/
def putBit (w : Words) (n b : ℕ) (v : Bool) : Words :=
  if b / 32 < n then
    Function.update w (b / 32)
      (if v then w (b / 32) ||| 1#32 <<< (b % 32) else w (b / 32) &&& ~~~(1#32 <<< (b % 32)))
  else w

/-- Write the low `width` bits of `v` from bit `start` on, one after the other. -/
def putField (w : Words) (n start : ℕ) : (width : ℕ) → BitVec 64 → Words
  | 0, _ => w
  | k + 1, v => putBit (putField w n start k v) n (start + k) (v.getLsbD k)

theorem bit_putBit (w : Words) (n b : ℕ) (v : Bool) (c : ℕ) :
    bit (putBit w n b v) c = if c = b ∧ b / 32 < n then v else bit w c := by
  have hmask (x : BitVec 32) :
      (if v then x ||| 1#32 <<< (b % 32) else x &&& ~~~(1#32 <<< (b % 32))).getLsbD (c % 32) =
        if c % 32 = b % 32 then v else x.getLsbD (c % 32) := by
    have hb : b % 32 < 32 := Nat.mod_lt _ (by norm_num)
    have hc : c % 32 < 32 := Nat.mod_lt _ (by norm_num)
    rw [← BitVec.twoPow_eq]
    cases v <;> by_cases h : c % 32 = b % 32 <;>
      simp [h, hb, hc]
  by_cases hn : b / 32 < n
  · by_cases hw : c / 32 = b / 32
    · have hcb : c % 32 = b % 32 ↔ c = b := by omega
      rw [bit, putBit, if_pos hn, hw, Function.update_self, hmask]
      simp [hcb, hn, bit, hw]
    · have hcb : c ≠ b := by rintro rfl; exact hw rfl
      simp [bit, putBit, hn, Function.update_of_ne hw, hcb]
  · simp [bit, putBit, hn]

theorem bit_putField (w : Words) (n start width : ℕ) (v : BitVec 64) (c : ℕ) :
    bit (putField w n start width v) c =
      if start ≤ c ∧ c < start + width ∧ c / 32 < n then v.getLsbD (c - start) else bit w c := by
  induction width with
  | zero => simp [putField]; omega
  | succ k ih =>
    rw [putField, bit_putBit, ih]
    by_cases hc : c = start + k
    · subst hc
      by_cases hn : (start + k) / 32 < n <;> simp [hn]
    · have : c < start + (k + 1) ↔ c < start + k := by omega
      simp [hc, this]

/-- A written field reads back the low bits of the value. -/
theorem field_putField {w : Words} {n start width : ℕ} (v : BitVec 64)
    (h : start + width ≤ 32 * n) :
    field (putField w n start width v) start width = v.setWidth width := by
  rw [field_eq_iff]
  intro i hi
  rw [bit_putField, if_pos ⟨by omega, by omega, by omega⟩, Nat.add_sub_cancel_left,
    BitVec.getLsbD_setWidth, decide_eq_true hi, Bool.true_and]

/-- A field disjoint from the written one is unchanged. -/
theorem field_putField_of_disjoint {w : Words} {n start width s k : ℕ} (v : BitVec 64)
    (h : s + k ≤ start ∨ start + width ≤ s) :
    field (putField w n start width v) s k = field w s k :=
  field_congr fun i hi => by rw [bit_putField, if_neg (by omega)]

theorem field_putBit_of_disjoint {w : Words} {n b s k : ℕ} (v : Bool) (h : s + k ≤ b ∨ b < s) :
    field (putBit w n b v) s k = field w s k :=
  field_congr fun i hi => by rw [bit_putBit, if_neg (by omega)]

theorem bit_putField_of_disjoint {w : Words} {n start width c : ℕ} (v : BitVec 64)
    (h : c < start ∨ start + width ≤ c) :
    bit (putField w n start width v) c = bit w c := by
  rw [bit_putField, if_neg (by omega)]

/-- A run of bits within a written field reads back that run of the value. -/
theorem field_putField_part {w : Words} {n start width k m : ℕ} (v : BitVec 64)
    (h : start + width ≤ 32 * n) (hk : k + m ≤ width) :
    field (putField w n start width v) (start + k) m = v.extractLsb' k m := by
  rw [field_eq_iff]
  intro i hi
  rw [bit_putField, if_pos ⟨by omega, by omega, by omega⟩, BitVec.getLsbD_extractLsb',
    decide_eq_true hi, Bool.true_and, show start + k + i - start = k + i by omega]

/-- Writes to fields that lie apart commute. -/
theorem putField_comm (w : Words) (n : ℕ) {start width start' width' : ℕ}
    (h : start + width ≤ start' ∨ start' + width' ≤ start) (v v' : BitVec 64) :
    putField (putField w n start width v) n start' width' v' =
      putField (putField w n start' width' v') n start width v := by
  apply words_ext
  intro b
  simp only [bit_putField]
  split_ifs <;> first | rfl | omega

/-- A second write to a field overrides the first. -/
theorem putField_putField (w : Words) (n start width : ℕ) (v v' : BitVec 64) :
    putField (putField w n start width v) n start width v' = putField w n start width v' := by
  apply words_ext
  intro b
  simp only [bit_putField]
  split_ifs <;> rfl

/-! ### Writing several fields -/

/-- A field and the value it is to get. -/
structure FieldWrite where
  start : ℕ
  width : ℕ
  value : BitVec 64

/-- Write the fields one after the other. -/
def putFields (w : Words) (n : ℕ) (fs : List FieldWrite) : Words :=
  fs.foldl (fun w f => putField w n f.start f.width f.value) w

/-- No bit belongs to both. -/
def FieldWrite.Apart (f g : FieldWrite) : Prop :=
  f.start + f.width ≤ g.start ∨ g.start + g.width ≤ f.start

instance (f g : FieldWrite) : Decidable (f.Apart g) := inferInstanceAs (Decidable (_ ∨ _))

@[simp] theorem putFields_cons (w : Words) (n : ℕ) (f : FieldWrite) (fs : List FieldWrite) :
    putFields w n (f :: fs) = putFields (putField w n f.start f.width f.value) n fs := rfl

/-- A bit outside every written field is unchanged. -/
theorem bit_putFields_of_outside {n c : ℕ} {fs : List FieldWrite}
    (h : ∀ f ∈ fs, c < f.start ∨ f.start + f.width ≤ c) (w : Words) :
    bit (putFields w n fs) c = bit w c := by
  induction fs generalizing w with
  | nil => rfl
  | cons f fs ih =>
    obtain ⟨hf, hfs⟩ := List.forall_mem_cons.mp h
    rw [putFields_cons, ih hfs, bit_putField_of_disjoint _ hf]

/-- Of fields that lie apart, each reads back what was written to it. -/
theorem field_putFields {n : ℕ} {fs : List FieldWrite} (hfs : fs.Pairwise FieldWrite.Apart)
    (w : Words) {f : FieldWrite} (hf : f ∈ fs) (hn : f.start + f.width ≤ 32 * n) :
    field (putFields w n fs) f.start f.width = f.value.setWidth f.width := by
  induction fs generalizing w with
  | nil => cases hf
  | cons g fs ih =>
    obtain ⟨hg, hrest⟩ := List.pairwise_cons.mp hfs
    rw [putFields_cons]
    rcases List.mem_cons.mp hf with rfl | hmem
    · rw [← field_putField (w := w) f.value hn]
      refine field_congr fun i hi => bit_putFields_of_outside ?_ _
      intro e he
      have := hg e he
      unfold FieldWrite.Apart at this
      omega
    · exact ih hrest _ hmem

end OpenNos.Bits
