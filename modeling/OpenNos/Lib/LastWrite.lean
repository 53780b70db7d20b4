import Mathlib.Tactic

/-! Tables that the items of a list write one after the other. An item writes values to
keys, as a relation says; of each key the last write decides, and a key that nobody writes
keeps its first value. -/

namespace OpenNos.LastWrite

variable {ι κ ν σ : Type*} (R : ι → κ → ν → Prop)

/-- The last item to write a key has written this value. -/
def Last (l : List ι) (k : κ) (v : ν) : Prop :=
  ∃ before i after, l = before ++ i :: after ∧ R i k v ∧ ∀ j ∈ after, ∀ w, ¬ R j k w

def Untouched (l : List ι) (k : κ) : Prop := ∀ i ∈ l, ∀ v, ¬ R i k v

/-- What a key holds after the list. -/
def Holds (first : κ → ν) (l : List ι) (k : κ) (v : ν) : Prop :=
  Last R l k v ∨ Untouched R l k ∧ v = first k

/-- No item writes two values to a key. -/
def OneValue : Prop := ∀ i k v w, R i k v → R i k w → v = w

variable {R} {first : κ → ν} {l : List ι} {i : ι} {k : κ} {v w : ν}

theorem untouched_concat :
    Untouched R (l ++ [i]) k ↔ Untouched R l k ∧ ∀ v, ¬ R i k v := by
  simp only [Untouched, List.mem_append, List.mem_singleton, or_imp, forall_and, forall_eq]

theorem last_concat :
    Last R (l ++ [i]) k v ↔ R i k v ∨ (∀ w, ¬ R i k w) ∧ Last R l k v := by
  constructor
  · rintro ⟨before, j, after, hl, hj, hafter⟩
    rcases List.eq_nil_or_concat after with rfl | ⟨after, i', rfl⟩
    · obtain ⟨-, rfl⟩ := List.append_inj' hl rfl |>.imp_right List.singleton_inj.mp
      exact .inl hj
    · rw [List.concat_eq_append, ← List.cons_append, ← List.append_assoc] at hl
      obtain ⟨rfl, hi⟩ := List.append_inj' hl rfl
      obtain rfl := List.singleton_inj.mp hi
      rw [List.concat_eq_append] at hafter
      exact .inr ⟨hafter i (by simp), before, j, after, rfl, hj,
        fun j' hj' => hafter j' (List.mem_append_left _ hj')⟩
  · rintro (hi | ⟨hi, before, j, after, rfl, hj, hafter⟩)
    · exact ⟨l, i, [], rfl, hi, fun _ h => absurd h List.not_mem_nil⟩
    · refine ⟨before, j, after ++ [i], by simp, hj, fun j' hj' => ?_⟩
      rcases List.mem_append.mp hj' with h | h
      · exact hafter j' h
      · rw [List.mem_singleton.mp h]
        exact hi

theorem holds_nil : Holds R first [] k v ↔ v = first k := by
  constructor
  · rintro (⟨before, i, after, hl, -⟩ | ⟨-, h⟩)
    · simp at hl
    · exact h
  · exact fun h => .inr ⟨fun _ h => absurd h List.not_mem_nil, h⟩

theorem holds_concat :
    Holds R first (l ++ [i]) k v ↔ R i k v ∨ (∀ w, ¬ R i k w) ∧ Holds R first l k v := by
  rw [Holds, Holds, last_concat, untouched_concat]
  tauto

theorem exists_holds (R : ι → κ → ν → Prop) (first : κ → ν) (l : List ι) (k : κ) :
    ∃ v, Holds R first l k v := by
  induction l using List.reverseRecOn with
  | nil => exact ⟨_, holds_nil.mpr rfl⟩
  | append_singleton l i ih =>
    by_cases h : ∃ v, R i k v
    · obtain ⟨v, hv⟩ := h
      exact ⟨v, holds_concat.mpr (.inl hv)⟩
    · obtain ⟨v, hv⟩ := ih
      exact ⟨v, holds_concat.mpr (.inr ⟨not_exists.mp h, hv⟩)⟩

/-- A key holds one value. -/
theorem Holds.unique (hR : OneValue R) (hv : Holds R first l k v) (hw : Holds R first l k w) :
    v = w := by
  induction l using List.reverseRecOn with
  | nil => rw [holds_nil.mp hv, holds_nil.mp hw]
  | append_singleton l i ih =>
    rcases holds_concat.mp hv with hv | ⟨hnv, hv⟩ <;> rcases holds_concat.mp hw with hw | ⟨hnw, hw⟩
    · exact hR i k v w hv hw
    · exact absurd hv (hnw v)
    · exact absurd hw (hnv w)
    · exact ih hv hw

/-- Relations that agree on the items make the same table. -/
theorem holds_congr {S : ι → κ → ν → Prop} (h : ∀ i ∈ l, ∀ k v, R i k v ↔ S i k v) :
    Holds R first l k v ↔ Holds S first l k v := by
  induction l using List.reverseRecOn with
  | nil => rw [holds_nil, holds_nil]
  | append_singleton l i ih =>
    have hi := h i (by simp)
    rw [holds_concat, holds_concat, ih fun j hj => h j (List.mem_append_left _ hj)]
    simp only [hi]

/-- A program that takes the items in order and writes as they say holds the table. -/
theorem holds_foldl {g : σ → κ → ν} {step : σ → ι → σ} {s : σ}
    (write : ∀ s i k v, R i k v → g (step s i) k = v)
    (keep : ∀ s i k, (∀ v, ¬ R i k v) → g (step s i) k = g s k) (l : List ι) (k : κ) :
    Holds R (g s) l k (g (l.foldl step s) k) := by
  induction l using List.reverseRecOn with
  | nil => exact holds_nil.mpr rfl
  | append_singleton l i ih =>
    rw [List.foldl_append, List.foldl_cons, List.foldl_nil, holds_concat]
    by_cases h : ∃ v, R i k v
    · obtain ⟨v, hv⟩ := h
      exact .inl ((write _ i k v hv).symm ▸ hv)
    · rw [not_exists] at h
      exact .inr ⟨h, (keep _ i k h).symm ▸ ih⟩

/-! ### The largest key -/

section Bound
variable {R : ι → ℕ → ν → Prop} {b c : ℕ}

/-- One more than the largest key that is written, and 0 if none is. -/
def IsBound (R : ι → ℕ → ν → Prop) (l : List ι) (c : ℕ) : Prop :=
  (∀ i ∈ l, ∀ k v, R i k v → k < c) ∧ (c = 0 ∨ ∃ i ∈ l, ∃ k v, R i k v ∧ c = k + 1)

theorem isBound_congr {S : ι → ℕ → ν → Prop} (h : ∀ i ∈ l, ∀ k v, R i k v ↔ S i k v) :
    IsBound R l c ↔ IsBound S l c := by
  refine and_congr (forall₂_congr fun i hi => ?_) (or_congr_right (exists_congr fun i => ?_))
  · simp only [h i hi]
  · exact and_congr_right fun hi => by simp only [h i hi]

theorem IsBound.unique (hb : IsBound R l b) (hc : IsBound R l c) : b = c := by
  obtain ⟨hb, hb' | ⟨i, hi, k, v, hv, rfl⟩⟩ := hb <;>
    obtain ⟨hc, hc' | ⟨j, hj, k', v', hv', rfl⟩⟩ := hc
  · omega
  · have := hb j hj k' v' hv'
    omega
  · have := hc i hi k v hv
    omega
  · have h1 := hb j hj k' v' hv'
    have h2 := hc i hi k v hv
    omega

theorem IsBound.concat_of_write (h : IsBound R l c)
    (hone : ∀ k k' v v', R i k v → R i k' v' → k = k') {k : ℕ} {v : ν} (hi : R i k v) :
    IsBound R (l ++ [i]) (max c (k + 1)) := by
  refine ⟨fun j hj k' v' hj' => ?_, ?_⟩
  · rcases List.mem_append.mp hj with hj | hj
    · have := h.1 j hj k' v' hj'
      omega
    · rw [List.mem_singleton.mp hj] at hj'
      have := hone k k' v v' hi hj'
      omega
  · by_cases hle : c ≤ k + 1
    · exact .inr ⟨i, by simp, k, v, hi, by omega⟩
    · rcases h.2 with hzero | ⟨j, hj, k', v', hj', hc⟩
      · omega
      · exact .inr ⟨j, List.mem_append_left _ hj, k', v', hj', by omega⟩

theorem IsBound.concat_of_none (h : IsBound R l c) (hi : ∀ k v, ¬ R i k v) :
    IsBound R (l ++ [i]) c := by
  refine ⟨fun j hj k v hj' => ?_, h.2.imp_right fun ⟨j, hj, hrest⟩ =>
    ⟨j, List.mem_append_left _ hj, hrest⟩⟩
  rcases List.mem_append.mp hj with hj | hj
  · exact h.1 j hj k v hj'
  · rw [List.mem_singleton.mp hj] at hj'
    exact absurd hj' (hi k v)

end Bound

end OpenNos.LastWrite
