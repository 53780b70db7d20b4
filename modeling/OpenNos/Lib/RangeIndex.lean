import Mathlib.Tactic

/-! A table that indexes a finite map by its values: a value has an entry in the
table exactly when some key has that value. A put adds one entry, a drop removes
one; the module says when each leaves the index exact, several keys being allowed
to share a value. -/

namespace OpenNos.RangeIndex

variable {κ ν π : Type*}

/-- The values with an entry are the values of the map. -/
def Exact (table : ν → Option π) (known : κ → Option ν) : Prop :=
  ∀ v, table v ≠ none ↔ ∃ k, known k = some v

/-- Another key has the value. -/
def Shared (known : κ → Option ν) (k : κ) (v : ν) : Prop := ∃ k', k' ≠ k ∧ known k' = some v

variable [DecidableEq κ] {table : ν → Option π} {known : κ → Option ν} {k : κ} {v w : ν} {x : π}

theorem exists_iff_shared :
    (∃ k', known k' = some w) ↔ known k = some w ∨ Shared known k w := by
  constructor
  · rintro ⟨k', h⟩
    by_cases hk : k' = k
    · rw [hk] at h
      exact .inl h
    · exact .inr ⟨k', hk, h⟩
  · rintro (h | ⟨k', -, h⟩)
    · exact ⟨k, h⟩
    · exact ⟨k', h⟩

/-- The other keys keep their values. -/
theorem shared_update (y : Option ν) : Shared (Function.update known k y) k w ↔
    Shared known k w := by
  refine exists_congr fun k' => and_congr_right fun hk => ?_
  rw [Function.update_of_ne hk]

variable [DecidableEq ν]

/-- A put keeps the index exact when nobody else needs the entry it replaces to go:
the old value of the key is the new one or is shared. -/
theorem Exact.put_iff (h : Exact table known) :
    Exact (Function.update table v (some x)) (Function.update known k (some v)) ↔
      ∀ old, known k = some old → old ≠ v → Shared known k old := by
  have hnamed (w : ν) : (∃ k', Function.update known k (some v) k' = some w) ↔
      v = w ∨ Shared known k w := by
    rw [exists_iff_shared (k := k), Function.update_self, Option.some.injEq, shared_update]
  constructor
  · intro h' old hold hne
    have hentry : Function.update table v (some x) old ≠ none := by
      rw [Function.update_of_ne hne]
      exact (h old).mpr ⟨k, hold⟩
    exact ((hnamed old).mp ((h' old).mp hentry)).resolve_left (Ne.symm hne)
  · intro hc w
    rw [hnamed]
    by_cases hw : w = v
    · rw [hw, Function.update_self]
      exact iff_of_true nofun (.inl rfl)
    · rw [Function.update_of_ne hw, h w, exists_iff_shared (k := k), or_iff_right (Ne.symm hw)]
      exact or_iff_right_of_imp fun hold => hc w hold hw

/-- The table without an entry. -/
def erase (table : ν → Option π) : Option ν → ν → Option π
  | none => table
  | some v => Function.update table v none

theorem erase_eq_none_iff {gone : Option ν} :
    erase table gone w ≠ none ↔ gone ≠ some w ∧ table w ≠ none := by
  cases gone with
  | none => exact (and_iff_right nofun).symm
  | some v =>
    rw [erase, ne_eq (some v), Option.some.injEq]
    by_cases hw : w = v
    · rw [hw, Function.update_self]
      exact iff_of_false (fun h => h rfl) fun h => h.1 rfl
    · rw [Function.update_of_ne hw]
      exact (and_iff_right fun he => hw he.symm).symm

/-- A drop keeps the index exact when the entry it takes is nobody else's, and the
value of the key is the one taken or is shared. -/
theorem Exact.drop_iff (h : Exact table known) {gone : Option ν} :
    Exact (erase table gone) (Function.update known k none) ↔
      (∀ v, gone = some v → ¬ Shared known k v) ∧
        ∀ old, known k = some old → gone = some old ∨ Shared known k old := by
  have hnamed (w : ν) : (∃ k', Function.update known k none k' = some w) ↔
      Shared known k w := by
    rw [exists_iff_shared (k := k), Function.update_self, shared_update]
    exact or_iff_right nofun
  constructor
  · intro h'
    constructor
    · rintro v rfl hshared
      have hentry := (h' v).mpr ((hnamed v).mpr hshared)
      exact (erase_eq_none_iff.mp hentry).1 rfl
    · intro old hold
      by_cases hgone : gone = some old
      · exact .inl hgone
      · have hentry := erase_eq_none_iff.mpr ⟨hgone, (h old).mpr ⟨k, hold⟩⟩
        exact .inr ((hnamed old).mp ((h' old).mp hentry))
  · rintro ⟨hother, hown⟩ w
    rw [hnamed, erase_eq_none_iff, h w, exists_iff_shared (k := k)]
    constructor
    · rintro ⟨hgone, hold | hshared⟩
      · exact (hown w hold).resolve_left hgone
      · exact hshared
    · intro hshared
      exact ⟨fun hgone => hother w hgone hshared, .inr hshared⟩

end OpenNos.RangeIndex
