import Mathlib.Tactic

/-! Longest-prefix match by slot priority. A table holds a prefix in some of its
slots and answers an address with the matching slot of least rank. The answer is
the longest match for every address once the table is ordered: of two prefixes
that overlap, the longer has the smaller rank. Order survives a removal, and an
insertion that respects it; a slot out of order loses an address of its prefix
unless longer prefixes cover it. -/

namespace OpenNos.Lpm

/-- The first `len` bits of `value`, most significant first. -/
structure Prefix (w : ℕ) where
  value : BitVec w
  len : ℕ

variable {w : ℕ}

/-- The address agrees with the prefix in its first `len` bits. -/
def Prefix.Covers (P : Prefix w) (a : BitVec w) : Prop :=
  ∀ b < w, w ≤ b + P.len → a.getLsbD b = P.value.getLsbD b

/-- No bit is set past the first `len`. -/
def Prefix.Canonical (P : Prefix w) : Prop := ∀ b < w, b + P.len < w → P.value.getLsbD b = false

instance (P : Prefix w) (a : BitVec w) : Decidable (P.Covers a) := by
  unfold Prefix.Covers
  infer_instance

instance (P : Prefix w) : Decidable P.Canonical := by
  unfold Prefix.Canonical
  infer_instance

theorem Prefix.covers_self (P : Prefix w) : P.Covers P.value := fun _ _ _ => rfl

/-- Two prefixes that share an address are nested. -/
theorem Prefix.Covers.nested {P Q : Prefix w} {a x : BitVec w} (hP : P.Covers a) (hQ : Q.Covers a)
    (hlen : P.len ≤ Q.len) (hx : Q.Covers x) : P.Covers x := by
  intro b hb hp
  calc
    x.getLsbD b = Q.value.getLsbD b := hx b hb (by omega)
    _ = a.getLsbD b := (hQ b hb (by omega)).symm
    _ = P.value.getLsbD b := hP b hb hp

theorem Prefix.eq_of_covers {P Q : Prefix w} {a : BitVec w} (hcP : P.Canonical) (hcQ : Q.Canonical)
    (hP : P.Covers a) (hQ : Q.Covers a) (hlen : P.len = Q.len) : P = Q := by
  have hv : P.value = Q.value := by
    apply BitVec.eq_of_getLsbD_eq
    intro b hb
    by_cases hbl : w ≤ b + P.len
    · rw [← hP b hb hbl, hQ b hb (by omega)]
    · rw [hcP b hb (by omega), hcQ b hb (by omega)]
  cases P
  cases Q
  exact congrArg₂ Prefix.mk hv hlen

variable {ι κ : Type*} [LinearOrder κ] (rank : ι → κ) (T : ι → Option (Prefix w))

def Matches (a : BitVec w) (i : ι) : Prop := ∃ P, T i = some P ∧ P.Covers a

/-- The table answers with slot `i`. -/
def Wins (a : BitVec w) (i : ι) : Prop :=
  Matches T a i ∧ ∀ j, Matches T a j → j ≠ i → rank i < rank j

/-- Slot `i` holds a longest match. -/
def Longest (a : BitVec w) (i : ι) : Prop :=
  ∃ P, T i = some P ∧ P.Covers a ∧ ∀ j Q, T j = some Q → Q.Covers a → Q.len ≤ P.len

/-- Of two overlapping prefixes the longer has the smaller rank. -/
def Ordered : Prop :=
  ∀ i j P Q, T i = some P → T j = some Q → P.len < Q.len → P.Covers Q.value → rank j < rank i

variable {rank T}

theorem Ordered.longest_of_wins (h : Ordered rank T) {a : BitVec w} {i : ι}
    (hi : Wins rank T a i) : Longest T a i := by
  obtain ⟨⟨P, hP, hPa⟩, hbest⟩ := hi
  refine ⟨P, hP, hPa, ?_⟩
  intro j Q hQ hQa
  by_contra hlen
  have hPQ : P.Covers Q.value := hPa.nested hQa (by omega) Q.covers_self
  have hji : j ≠ i := by
    rintro rfl
    rw [hP] at hQ
    cases hQ
    omega
  exact lt_asymm (h i j P Q hP hQ (by omega) hPQ) (hbest j ⟨Q, hQ, hQa⟩ hji)

/-- A finite table with distinct ranks answers every address some slot matches. -/
theorem exists_wins (hinj : Function.Injective rank) {s : Finset ι} (hs : ∀ i, T i ≠ none → i ∈ s)
    {a : BitVec w} {i : ι} (hi : Matches T a i) : ∃ k, Wins rank T a k := by
  classical
  have hne : (s.filter (Matches T a)).Nonempty := by
    obtain ⟨P, hP, hPa⟩ := hi
    exact ⟨i, Finset.mem_filter.mpr ⟨hs i (by rw [hP]; exact nofun), P, hP, hPa⟩⟩
  obtain ⟨k, hk, hmin⟩ := Finset.exists_min_image _ rank hne
  refine ⟨k, (Finset.mem_filter.mp hk).2, ?_⟩
  intro j hj hjk
  obtain ⟨P, hP, -⟩ := id hj
  have hle := hmin j (Finset.mem_filter.mpr ⟨hs j (by rw [hP]; exact nofun), hj⟩)
  exact lt_of_le_of_ne hle fun he => hjk (hinj he.symm)

/-- Where the longest match `Q` of an address has a larger rank than another
match, the winner is not a longest match. -/
theorem not_longest_of_wins {i j k : ι} {Q : Prefix w} {a : BitVec w} (hi : Matches T a i)
    (hQ : T j = some Q) (hQa : Q.Covers a) (hrank : rank i < rank j)
    (hself : ∀ m R, T m = some R → R.Covers a → m = j ∨ R.len < Q.len)
    (hk : Wins rank T a k) : ¬ Longest T a k := by
  rintro ⟨R, hR, hRa, hbest⟩
  have hle := hbest j Q hQ hQa
  rcases hself k R hR hRa with rfl | hlt
  · have hik : i ≠ k := by rintro rfl; exact lt_irrefl _ hrank
    exact lt_asymm hrank (hk.2 i hi hik)
  · omega

variable [DecidableEq ι]

theorem Ordered.erase (h : Ordered rank T) (i : ι) : Ordered rank (Function.update T i none) := by
  intro j k P Q hP hQ hlen hPQ
  have hj : j ≠ i := by rintro rfl; simp at hP
  have hk : k ≠ i := by rintro rfl; simp at hQ
  rw [Function.update_of_ne hj] at hP
  rw [Function.update_of_ne hk] at hQ
  exact h j k P Q hP hQ hlen hPQ

/-- An insertion in order: longer prefixes inside have smaller ranks, shorter
ones around it larger ranks. -/
theorem Ordered.insert (h : Ordered rank T) {i : ι} {R : Prefix w}
    (hlong : ∀ j Q, j ≠ i → T j = some Q → R.len < Q.len → R.Covers Q.value → rank j < rank i)
    (hshort : ∀ j Q, j ≠ i → T j = some Q → Q.len < R.len → Q.Covers R.value → rank i < rank j) :
    Ordered rank (Function.update T i (some R)) := by
  intro j k P Q hP hQ hlen hPQ
  by_cases hj : j = i <;> by_cases hk : k = i
  · rw [hj, Function.update_self] at hP
    rw [hk, Function.update_self] at hQ
    cases hP
    cases hQ
    omega
  · rw [hj, Function.update_self] at hP
    rw [Function.update_of_ne hk] at hQ
    cases hP
    rw [hj]
    exact hlong k Q hk hQ hlen hPQ
  · rw [Function.update_of_ne hj] at hP
    rw [hk, Function.update_self] at hQ
    cases hQ
    rw [hk]
    exact hshort j P hj hP hlen hPQ
  · rw [Function.update_of_ne hj] at hP
    rw [Function.update_of_ne hk] at hQ
    exact h j k P Q hP hQ hlen hPQ

end OpenNos.Lpm
