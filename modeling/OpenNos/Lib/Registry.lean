import Mathlib.Tactic

/-! Objects that live under ids handed out from an array of marks, each with
contents of its own somewhere. A live id is in range, marked and has its contents
in place; an id that is not marked is nobody's, so whatever is written for it
disturbs no object. -/

namespace OpenNos.Registry

variable {ε : Type*}

/-- The live objects by id, the marks of the ids, and what it is for the contents
of an object to be in place. -/
structure Sound (max : ℕ) (used : ℕ → Bool) (live : ℕ → Option ε) (holds : ℕ → ε → Prop) :
    Prop where
  range : ∀ id, live id ≠ none → 0 < id ∧ id < max
  marked : ∀ id, live id ≠ none → used id = true
  holds : ∀ id e, live id = some e → holds id e

variable {max : ℕ} {used : ℕ → Bool} {live : ℕ → Option ε} {holds holds' : ℕ → ε → Prop} {id : ℕ}

theorem Sound.empty : Sound max used (fun _ => none) holds where
  range := fun _ h => absurd rfl h
  marked := fun _ h => absurd rfl h
  holds := nofun

theorem Sound.not_live (h : Sound max used live holds) (hfree : used id = false) :
    live id = none := by
  by_contra hlive
  have hmark := h.marked id hlive
  rw [hfree] at hmark
  cases hmark

/-- Writing for an id that is not marked leaves every object. -/
theorem Sound.frame (h : Sound max used live holds)
    (keep : ∀ k, used k = true → ∀ e, holds k e → holds' k e) : Sound max used live holds' where
  range := h.range
  marked := h.marked
  holds k e hk := keep k (h.marked k (by rw [hk]; exact Option.some_ne_none e)) e (h.holds k e hk)

/-- A new object under a free id. -/
theorem Sound.create (h : Sound max used live holds) (hid : 0 < id ∧ id < max)
    (keep : ∀ k ≠ id, ∀ e, holds k e → holds' k e) {e : ε} (new : holds' id e) :
    Sound max (Function.update used id true) (Function.update live id (some e)) holds' where
  range := by
    intro k hk
    by_cases hkid : k = id
    · rwa [hkid]
    · rw [Function.update_of_ne hkid] at hk
      exact h.range k hk
  marked := by
    intro k hk
    by_cases hkid : k = id
    · rw [hkid, Function.update_self]
    · rw [Function.update_of_ne hkid] at hk ⊢
      exact h.marked k hk
  holds := by
    intro k e' hk
    by_cases hkid : k = id
    · rw [hkid, Function.update_self] at hk
      cases hk
      rwa [hkid]
    · rw [Function.update_of_ne hkid] at hk
      exact keep k hkid e' (h.holds k e' hk)

/-- An id given back. -/
theorem Sound.destroy (h : Sound max used live holds)
    (keep : ∀ k ≠ id, ∀ e, holds k e → holds' k e) :
    Sound max (Function.update used id false) (Function.update live id none) holds' where
  range := by
    intro k hk
    by_cases hkid : k = id
    · rw [hkid, Function.update_self] at hk
      exact absurd rfl hk
    · rw [Function.update_of_ne hkid] at hk
      exact h.range k hk
  marked := by
    intro k hk
    by_cases hkid : k = id
    · rw [hkid, Function.update_self] at hk
      exact absurd rfl hk
    · rw [Function.update_of_ne hkid] at hk ⊢
      exact h.marked k hk
  holds := by
    intro k e hk
    by_cases hkid : k = id
    · rw [hkid, Function.update_self] at hk
      cases hk
    · rw [Function.update_of_ne hkid] at hk
      exact keep k hkid e (h.holds k e hk)

end OpenNos.Registry
