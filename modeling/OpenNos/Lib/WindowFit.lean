import OpenNos.Lib.FirstFit

/-! First-fit search for a window of free slots. The search tries a base, and at
the first slot of its window that is taken goes on past that slot. It skips no
free window. -/

namespace OpenNos.WindowFit

open FirstFit

/-- Every slot of the window is free. -/
def Free (used : ℕ → Bool) (base count : ℕ) : Prop := ∀ i < count, used (base + i) = false

/-- The search from `base` on, for a window that ends by `limit`. -/
def findWindow (used : ℕ → Bool) (count limit : ℕ) : (fuel base : ℕ) → Option ℕ
  | 0, _ => none
  | fuel + 1, base =>
    if base + count ≤ limit then
      match findFirst (fun i => used (base + i)) 0 count with
      | none => some base
      -- every window from here to past the taken slot has it
      | some i => findWindow used count limit fuel (base + i + 1)
    else none

/-- The slots of a window all marked, or all cleared. -/
def setRange (used : ℕ → Bool) (base count : ℕ) (v : Bool) : ℕ → Bool :=
  fun i => if base ≤ i ∧ i < base + count then v else used i

variable {used : ℕ → Bool} {count limit fuel base b : ℕ}

theorem Free.of_mem {i : ℕ} (h : Free used base count) (hi : base ≤ i ∧ i < base + count) :
    used i = false := by
  have hslot := h (i - base) (by omega)
  rwa [show base + (i - base) = i by omega] at hslot

theorem Free.not_mem {i : ℕ} (h : Free used base count) (hused : used i = true) :
    ¬ (base ≤ i ∧ i < base + count) := by
  intro hi
  rw [h.of_mem hi] at hused
  cases hused

/-- Every window from the base to the taken slot has that slot. -/
theorem not_free_of_taken {i : ℕ} (hused : used (base + i) = true) (hi : i < count) (hb : base ≤ b)
    (hle : b ≤ base + i) : ¬ Free used b count :=
  fun hfree => hfree.not_mem hused ⟨hle, by omega⟩

/-- What is found is free and ends in time. -/
theorem findWindow_free (h : findWindow used count limit fuel base = some b) :
    b + count ≤ limit ∧ Free used b count := by
  induction fuel generalizing base with
  | zero => cases h
  | succ fuel ih =>
    rw [findWindow] at h
    split_ifs at h with hfit
    cases hf : findFirst (fun i => used (base + i)) 0 count with
    | none =>
      rw [hf] at h
      cases h
      exact ⟨hfit, fun i hi => findFirst_eq_none_iff.mp hf i (Nat.zero_le i) hi⟩
    | some i =>
      rw [hf] at h
      exact ih h

/-- With fuel for every base, a free window is found when there is one, and none
after it. -/
theorem exists_findWindow (hfuel : limit < base + fuel) (hb : base ≤ b) (hfit : b + count ≤ limit)
    (hfree : Free used b count) : ∃ c ≤ b, findWindow used count limit fuel base = some c := by
  induction fuel generalizing base with
  | zero => omega
  | succ fuel ih =>
    rw [findWindow, if_pos (by omega)]
    cases hf : findFirst (fun i => used (base + i)) 0 count with
    | none => exact ⟨base, hb, rfl⟩
    | some i =>
      obtain ⟨⟨-, hi⟩, hused, -⟩ := findFirst_eq_some_iff.mp hf
      apply ih (by omega)
      by_contra hle
      exact not_free_of_taken hused hi hb (by omega) hfree

/-- What is found is the lowest. -/
theorem findWindow_lowest (hfuel : limit < base + fuel)
    (h : findWindow used count limit fuel base = some b) {c : ℕ} (hbase : base ≤ c) (hc : c < b) :
    ¬ Free used c count := by
  intro hfree
  obtain ⟨hfit, -⟩ := findWindow_free h
  obtain ⟨d, hd, hfound⟩ := exists_findWindow hfuel hbase (show c + count ≤ limit by omega) hfree
  rw [h] at hfound
  obtain rfl := Option.some.inj hfound
  omega

/-! ### Marks of windows -/

theorem setRange_of_mem {i : ℕ} (v : Bool) (h : base ≤ i ∧ i < base + count) :
    setRange used base count v i = v := if_pos h

theorem setRange_of_not_mem {i : ℕ} (v : Bool) (h : ¬ (base ≤ i ∧ i < base + count)) :
    setRange used base count v i = used i := if_neg h

/-- A free window marked and cleared again. -/
theorem setRange_release (hfree : Free used base count) :
    setRange (setRange used base count true) base count false = used := by
  funext i
  by_cases hi : base ≤ i ∧ i < base + count
  · rw [setRange_of_mem false hi, hfree.of_mem hi]
  · rw [setRange_of_not_mem false hi, setRange_of_not_mem true hi]

/-- The marked slots below a bound. -/
def marked (used : ℕ → Bool) (limit : ℕ) : Finset ℕ := (Finset.range limit).filter (used · = true)

/-- Marking a free window adds its slots to the marked ones. -/
theorem card_marked_setRange (hfit : base + count ≤ limit) (hfree : Free used base count) :
    (marked (setRange used base count true) limit).card = (marked used limit).card + count := by
  have hunion : marked (setRange used base count true) limit =
      marked used limit ∪ Finset.Ico base (base + count) := by
    ext i
    simp only [marked, Finset.mem_union, Finset.mem_filter, Finset.mem_range, Finset.mem_Ico]
    by_cases hi : base ≤ i ∧ i < base + count
    · simp only [setRange_of_mem true hi, hi, and_true, or_true, iff_true]
      omega
    · simp only [setRange_of_not_mem true hi, hi, or_false]
  have hdisj : Disjoint (marked used limit) (Finset.Ico base (base + count)) := by
    rw [Finset.disjoint_left]
    intro i hi hwin
    exact hfree.not_mem (Finset.mem_filter.mp hi).2 (Finset.mem_Ico.mp hwin)
  rw [hunion, Finset.card_union_of_disjoint hdisj, Nat.card_Ico, Nat.add_sub_cancel_left]

end OpenNos.WindowFit
