import Mathlib.Tactic

/-! Ids leased to holders. A holder holds one id or none, 0 standing for none; an
id is marked as used exactly when somebody holds it, and nobody shares. Taking a
free id and giving one back keep the books right. -/

namespace OpenNos.Lease

variable {κ : Type*}

/-- The marks below `max` are exact for the holders in `dom`, each with an id of
its own. -/
structure Books (dom : κ → Prop) (max : ℕ) (used : ℕ → Bool) (held : κ → ℕ) : Prop where
  used : ∀ id < max, used id = true ↔ id ≠ 0 ∧ ∃ p, dom p ∧ held p = id
  apart : ∀ p, dom p → ∀ q, dom q → held p ≠ 0 → held p = held q → p = q

variable {dom : κ → Prop} {max : ℕ} {used : ℕ → Bool} {held : κ → ℕ} {p : κ} {id : ℕ}

/-- A free id is nobody's. -/
theorem Books.ne_of_free (h : Books dom max used held) (hid : 0 < id ∧ id < max)
    (hfree : used id = false) (hp : dom p) : held p ≠ id := by
  intro hpid
  have hu := (h.used id hid.2).mpr ⟨by omega, p, hp, hpid⟩
  rw [hfree] at hu
  cases hu

variable [DecidableEq κ]

/-- A holder without an id takes a free one. -/
theorem Books.take (h : Books dom max used held) (hp : dom p) (hold : held p = 0)
    (hid : 0 < id ∧ id < max) (hfree : used id = false) :
    Books dom max (Function.update used id true) (Function.update held p id) where
  used := by
    intro k hk
    by_cases hkid : k = id
    · rw [hkid, Function.update_self]
      exact iff_of_true rfl ⟨by omega, p, hp, Function.update_self ..⟩
    · rw [Function.update_of_ne hkid, h.used k hk]
      refine and_congr_right fun hk0 => exists_congr fun q => and_congr_right fun _ => ?_
      by_cases hq : q = p
      · rw [hq, Function.update_self, hold]
        exact iff_of_false (Ne.symm hk0) (Ne.symm hkid)
      · rw [Function.update_of_ne hq]
  apart := by
    intro q hq r hr hne heq
    by_cases hqp : q = p
    · by_cases hrp : r = p
      · rw [hqp, hrp]
      · rw [hqp, Function.update_self, Function.update_of_ne hrp] at heq
        exact absurd heq.symm (h.ne_of_free hid hfree hr)
    · rw [Function.update_of_ne hqp] at hne heq
      by_cases hrp : r = p
      · rw [hrp, Function.update_self] at heq
        exact absurd heq (h.ne_of_free hid hfree hq)
      · rw [Function.update_of_ne hrp] at heq
        exact h.apart q hq r hr hne heq

/-- A holder gives its id back. -/
theorem Books.release (h : Books dom max used held) (hp : dom p) (hne : held p ≠ 0) :
    Books dom max (Function.update used (held p) false) (Function.update held p 0) where
  used := by
    intro k hk
    by_cases hkp : k = held p
    · rw [hkp, Function.update_self]
      refine iff_of_false Bool.false_ne_true ?_
      rintro ⟨-, q, hq, hqk⟩
      by_cases hqp : q = p
      · rw [hqp, Function.update_self] at hqk
        exact hne hqk.symm
      · rw [Function.update_of_ne hqp] at hqk
        exact hqp (h.apart p hp q hq hne hqk.symm).symm
    · rw [Function.update_of_ne hkp, h.used k hk]
      refine and_congr_right fun hk0 => exists_congr fun q => and_congr_right fun _ => ?_
      by_cases hqp : q = p
      · rw [hqp, Function.update_self]
        exact iff_of_false (Ne.symm hkp) (Ne.symm hk0)
      · rw [Function.update_of_ne hqp]
  apart := by
    intro q hq r hr hne' heq
    by_cases hqp : q = p
    · rw [hqp, Function.update_self] at hne'
      exact absurd rfl hne'
    · rw [Function.update_of_ne hqp] at hne' heq
      by_cases hrp : r = p
      · rw [hrp, Function.update_self] at heq
        exact absurd heq hne'
      · rw [Function.update_of_ne hrp] at heq
        exact h.apart q hq r hr hne' heq

/-- An id that is overwritten stays marked although nobody holds it. -/
theorem Books.not_overwrite (h : Books dom max used held) (hp : dom p) (hne : held p ≠ 0)
    (hlt : held p < max) (hid : 0 < id ∧ id < max) (hfree : used id = false) :
    ¬ Books dom max (Function.update used id true) (Function.update held p id) := by
  intro h'
  have hpid := h.ne_of_free hid hfree hp
  have hmark := (h.used _ hlt).mpr ⟨hne, p, hp, rfl⟩
  have hstill : Function.update used id true (held p) = true := by
    rw [Function.update_of_ne hpid, hmark]
  obtain ⟨-, q, hq, hqp⟩ := (h'.used _ hlt).mp hstill
  by_cases hqe : q = p
  · rw [hqe, Function.update_self] at hqp
    exact hpid hqp.symm
  · rw [Function.update_of_ne hqe] at hqp
    exact hqe (h.apart p hp q hq hne hqp.symm).symm

end OpenNos.Lease
