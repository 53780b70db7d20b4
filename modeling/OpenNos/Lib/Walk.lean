import Mathlib.Tactic

/-! Loops over records that lie one behind the other, each with its own length. Such a
loop holds the position of a record and the number of bytes left, checks that the record
fits, and goes on behind it. What is left is signed, since the step from one record to
the next can be longer than the record that fits. -/

namespace OpenNos

/-- What a loop has done: the records it has been through, and the position and the rest
with which it has ended; `none` while it has not. -/
structure Walk where
  recs : List ℕ
  stop : Option (ℕ × ℤ)

/-- `while (ok(o, len)) { len -= adv(o); o += adv(o); }`, for so many turns. -/
def walk (ok : ℕ → ℤ → Prop) [∀ o len, Decidable (ok o len)] (adv : ℕ → ℕ) :
    ℕ → ℕ → ℤ → Walk
  | 0, _, _ => { recs := [], stop := none }
  | fuel + 1, o, len =>
    if ok o len then
      let w := walk ok adv fuel (o + adv o) (len - adv o)
      { recs := o :: w.recs, stop := w.stop }
    else { recs := [], stop := some (o, len) }

namespace Walk

variable {ok : ℕ → ℤ → Prop} [∀ o len, Decidable (ok o len)] {adv : ℕ → ℕ}
variable {fuel o : ℕ} {len : ℤ}

theorem walk_of_ok (h : ok o len) : walk ok adv (fuel + 1) o len =
    { recs := o :: (walk ok adv fuel (o + adv o) (len - adv o)).recs
      stop := (walk ok adv fuel (o + adv o) (len - adv o)).stop } := if_pos h

theorem walk_of_not_ok (h : ¬ ok o len) : walk ok adv (fuel + 1) o len =
    { recs := [], stop := some (o, len) } := if_neg h

/-- A loop whose turns all take something of a rest that is not used up comes to its
end. -/
theorem ends (h : ∀ o l, l ≤ len → ok o l → 0 < l ∧ 0 < adv o) (hfuel : len.toNat < fuel) :
    (walk ok adv fuel o len).stop.isSome := by
  induction fuel generalizing o len with
  | zero => omega
  | succ fuel ih =>
    by_cases hok : ok o len
    · obtain ⟨hpos, hadv⟩ := h o len le_rfl hok
      rw [walk_of_ok hok]
      exact ih (fun o l hl => h o l (by omega)) (by omega)
    · rw [walk_of_not_ok hok]
      rfl

/-- Every record was checked against what was left, up to the same end. -/
theorem ok_of_mem {r : ℕ} (hr : r ∈ (walk ok adv fuel o len).recs) :
    o ≤ r ∧ ok r (o + len - r) := by
  induction fuel generalizing o len with
  | zero => exact absurd hr List.not_mem_nil
  | succ fuel ih =>
    by_cases hok : ok o len
    · rw [walk_of_ok hok, List.mem_cons] at hr
      rcases hr with rfl | hr
      · exact ⟨le_rfl, by rwa [add_sub_cancel_left]⟩
      · obtain ⟨hle, hok'⟩ := ih hr
        have hend : ((o + adv o : ℕ) : ℤ) + (len - adv o) - r = o + len - r := by omega
        exact ⟨by omega, by rwa [hend] at hok'⟩
    · rw [walk_of_not_ok hok] at hr
      exact absurd hr List.not_mem_nil

/-- The loop ends behind its start, with what is left up to the same end. -/
theorem stop_eq {p : ℕ} {l : ℤ} (h : (walk ok adv fuel o len).stop = some (p, l)) :
    o ≤ p ∧ p + l = o + len := by
  induction fuel generalizing o len with
  | zero => cases h
  | succ fuel ih =>
    by_cases hok : ok o len
    · rw [walk_of_ok hok] at h
      obtain ⟨hle, hend⟩ := ih h
      exact ⟨by omega, by omega⟩
    · rw [walk_of_not_ok hok] at h
      obtain ⟨rfl, rfl⟩ := Prod.mk.inj (Option.some.inj h)
      exact ⟨le_rfl, rfl⟩

end Walk

end OpenNos
