import Mathlib.Tactic

/-! First-fit search in a table: the lowest index of a range that passes a test,
in particular the lowest that is not marked as used. The module fixes what is
found and when nothing is. -/

namespace OpenNos.FirstFit

/-- The lowest index of `lo ≤ i < hi` that passes the test. -/
def findFirst (p : ℕ → Bool) (lo hi : ℕ) : Option ℕ := (List.range' lo (hi - lo)).find? p

/-- The lowest index of `lo ≤ i < hi` that is not marked. -/
def firstFree (used : ℕ → Bool) (lo hi : ℕ) : Option ℕ := findFirst (fun i => !used i) lo hi

variable {p used : ℕ → Bool} {lo hi i : ℕ}

theorem findFirst_eq_some_iff : findFirst p lo hi = some i ↔
    (lo ≤ i ∧ i < hi) ∧ p i = true ∧ ∀ j, lo ≤ j → j < i → p j = false := by
  rw [findFirst, List.find?_range'_eq_some]
  simp only [List.mem_range'_1, Bool.not_eq_true']
  constructor
  · rintro ⟨hi, hr, hj⟩
    exact ⟨by omega, hi, hj⟩
  · rintro ⟨hr, hi, hj⟩
    exact ⟨hi, by omega, hj⟩

theorem findFirst_eq_none_iff :
    findFirst p lo hi = none ↔ ∀ i, lo ≤ i → i < hi → p i = false := by
  rw [findFirst, List.find?_range'_eq_none]
  simp only [Bool.not_eq_true']
  exact forall_congr' fun i => ⟨fun h hl hh => h hl (by omega), fun h hl hh => h hl (by omega)⟩

theorem firstFree_eq_some_iff : firstFree used lo hi = some i ↔
    (lo ≤ i ∧ i < hi) ∧ used i = false ∧ ∀ j, lo ≤ j → j < i → used j = true := by
  rw [firstFree, findFirst_eq_some_iff]
  simp only [Bool.not_eq_true', Bool.not_eq_false']

theorem firstFree_eq_none_iff :
    firstFree used lo hi = none ↔ ∀ i, lo ≤ i → i < hi → used i = true := by
  rw [firstFree, findFirst_eq_none_iff]
  simp only [Bool.not_eq_false']

theorem firstFree_free (h : firstFree used lo hi = some i) : used i = false :=
  (firstFree_eq_some_iff.mp h).2.1

theorem firstFree_mem (h : firstFree used lo hi = some i) : lo ≤ i ∧ i < hi :=
  (firstFree_eq_some_iff.mp h).1

/-- The first index after a run of used ones. -/
theorem firstFree_of_low (hl : lo ≤ i) (hh : i < hi) (hlow : ∀ j, lo ≤ j → j < i → used j = true)
    (hfree : used i = false) : firstFree used lo hi = some i :=
  firstFree_eq_some_iff.mpr ⟨⟨hl, hh⟩, hfree, hlow⟩

/-- A free index of the range is found, or one below it. -/
theorem exists_firstFree {k : ℕ} (hl : lo ≤ k) (hh : k < hi) (hk : used k = false) :
    ∃ i ≤ k, firstFree used lo hi = some i := by
  cases h : firstFree used lo hi with
  | none =>
    have hused := firstFree_eq_none_iff.mp h k hl hh
    rw [hk] at hused
    cases hused
  | some i =>
    refine ⟨i, ?_, rfl⟩
    by_contra hik
    have hused := (firstFree_eq_some_iff.mp h).2.2 k hl (by omega)
    rw [hk] at hused
    cases hused

/-- What is found lies below `k` exactly when some index below `k` is free. -/
theorem firstFree_lt_iff {k : ℕ} (h : firstFree used lo hi = some i) :
    i < k ↔ ∃ j, lo ≤ j ∧ j < k ∧ used j = false := by
  obtain ⟨hr, hfree, hlow⟩ := firstFree_eq_some_iff.mp h
  constructor
  · intro hik
    exact ⟨i, hr.1, hik, hfree⟩
  · rintro ⟨j, hlj, hjk, hj⟩
    by_contra hik
    have hused := hlow j hlj (by omega)
    rw [hj] at hused
    cases hused

/-- With index 0 in use the search goes on one further. -/
theorem firstFree_succ (h : used 0 = true) (n : ℕ) :
    firstFree used 0 (n + 1) = (firstFree (fun i => used (i + 1)) 0 n).map (· + 1) := by
  cases hk : firstFree (fun i => used (i + 1)) 0 n with
  | none =>
    refine firstFree_eq_none_iff.mpr fun i _ hi => ?_
    cases i with
    | zero => exact h
    | succ i => exact firstFree_eq_none_iff.mp hk i (Nat.zero_le i) (by omega)
  | some k =>
    obtain ⟨hr, hfree, hlow⟩ := firstFree_eq_some_iff.mp hk
    change firstFree used 0 (n + 1) = some (k + 1)
    refine firstFree_of_low (Nat.zero_le _) (by omega) (fun j _ hj => ?_) hfree
    cases j with
    | zero => exact h
    | succ j => exact hlow j (Nat.zero_le j) (by omega)

end OpenNos.FirstFit
