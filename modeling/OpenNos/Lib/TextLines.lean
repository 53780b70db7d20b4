import Mathlib.Data.List.TakeWhile
import OpenNos.Lib.Cstring

/-! The lines of a text, and what a reader that takes them with `fgets` finds in them. A
line comes in one piece if it fits the buffer, and in several if not; a reader to which the
newline at the end of a piece means nothing finds what the pieces of the lines give. -/

namespace OpenNos.Cstring

/-- The lines of a text, without their newlines. -/
def textLines (s : List Byte) : List (List Byte) := s.splitOn 0x0a

variable {l s : List Byte}

theorem textLines_of_not_mem (h : 0x0a ∉ l) : textLines l = [l] := by
  rw [textLines, List.splitOn_eq_splitOnP]
  exact List.splitOnP_eq_singleton fun c hc => by
    rw [beq_eq_false_iff_ne]
    rintro rfl
    exact h hc

theorem textLines_append (h : 0x0a ∉ l) (s : List Byte) :
    textLines (l ++ 0x0a :: s) = l :: textLines s := by
  rw [textLines, textLines, List.splitOn_eq_splitOnP, List.splitOn_eq_splitOnP]
  refine List.splitOnP_append_cons_of_forall_mem (fun c hc => ?_) _ (by simp) _
  rw [beq_eq_false_iff_ne]
  rintro rfl
  exact h hc

/-- A text is a line, or a line and what stands behind its newline. -/
theorem text_induction {P : List Byte → Prop} (last : ∀ l, 0x0a ∉ l → P l)
    (more : ∀ l s, 0x0a ∉ l → P s → P (l ++ 0x0a :: s)) (s : List Byte) : P s := by
  induction hn : s.length using Nat.strong_induction_on generalizing s with
  | _ n ih =>
    by_cases h : 0x0a ∈ s
    · obtain ⟨l, r, hs, hl⟩ := List.eq_append_cons_of_mem h
      subst hs
      refine more l r hl (ih r.length ?_ r rfl)
      rw [← hn, List.length_append, List.length_cons]
      omega
    · exact last s h

theorem not_mem_of_mem_textLines (h : l ∈ textLines s) : 0x0a ∉ l := by
  induction s using text_induction with
  | last l' hl' =>
    rw [textLines_of_not_mem hl', List.mem_singleton] at h
    exact h ▸ hl'
  | more l' s hl' ih =>
    rw [textLines_append hl', List.mem_cons] at h
    rcases h with rfl | h
    · exact hl'
    · exact ih h

/-- What ignores a newline at the end ignores one at the end of a buffer. -/
theorem cstr_newline {β : Type*} {f : List Byte → β} (hf : ∀ s, f (s ++ [0x0a]) = f s)
    (p : List Byte) : f (cstr (p ++ [0x0a])) = f (cstr p) := by
  by_cases h : ∀ c ∈ p, decide (c ≠ 0) = true
  · have hp : cstr p = p := List.takeWhile_eq_self_iff.mpr h
    rw [hp, cstr, List.takeWhile_append_of_pos h, ← hf p]
    rfl
  · rw [cstr, cstr, List.takeWhile_append, if_neg]
    intro hlen
    have hp := (List.takeWhile_prefix fun c => decide (c ≠ 0)).eq_of_length hlen
    exact h (List.takeWhile_eq_self_iff.mp hp)

/-! ### Pieces -/

section Pieces
variable {α : Type*} {size : ℕ} {g : List Byte → Option α}

theorem filterMap_fgetsLines_append (hnl : ∀ p, g (p ++ [0x0a]) = g p) (hnil : g [] = none)
    (hl : 0x0a ∉ l) (s line : List Byte) :
    (fgetsLines size (l ++ 0x0a :: s) line).filterMap g =
      (fgetsLines size l line).filterMap g ++ (fgetsLines size s []).filterMap g := by
  induction l generalizing line with
  | nil =>
    rw [List.nil_append, fgetsLines, fgetsLines, if_pos (.inl rfl)]
    by_cases hline : line = []
    · rw [if_pos hline, List.filterMap_cons_none (by rw [hnl, hline, hnil])]
      rfl
    · rw [if_neg hline, List.filterMap_cons, hnl]
      cases hg : g line <;> simp [hg]
  | cons c l ih =>
    have hc : c ≠ 0x0a := by
      rintro rfl
      exact hl (List.mem_cons_self ..)
    have hl' : 0x0a ∉ l := fun h => hl (List.mem_cons_of_mem _ h)
    rw [List.cons_append, fgetsLines, fgetsLines]
    by_cases hfull : (line ++ [c]).length = size - 1
    · rw [if_pos (.inr hfull), if_pos (.inr hfull), List.filterMap_cons, List.filterMap_cons,
        ih hl']
      cases g (line ++ [c]) <;> rfl
    · rw [if_neg (not_or.mpr ⟨hc, hfull⟩), if_neg (not_or.mpr ⟨hc, hfull⟩), ih hl']

/-- What a reader finds in a text is what it finds in the pieces of the lines. -/
theorem filterMap_fgetsLines (hnl : ∀ p, g (p ++ [0x0a]) = g p) (hnil : g [] = none)
    (s : List Byte) : (fgetsLines size s []).filterMap g =
      (textLines s).flatMap fun l => (fgetsLines size l []).filterMap g := by
  induction s using text_induction with
  | last l hl => rw [textLines_of_not_mem hl, List.flatMap_singleton]
  | more l s hl ih =>
    rw [filterMap_fgetsLines_append hnl hnil hl, textLines_append hl, List.flatMap_cons, ih]

end Pieces

/-- The first piece of a line, and the others. -/
theorem fgetsLines_take {size : ℕ} (hl : 0x0a ∉ l) (line : List Byte)
    (hroom : line.length < size - 1) (hne : line ++ l ≠ []) :
    fgetsLines size l line =
      (line ++ l).take (size - 1) :: fgetsLines size ((line ++ l).drop (size - 1)) [] := by
  induction l generalizing line with
  | nil =>
    rw [List.append_nil] at hne ⊢
    rw [fgetsLines, if_neg hne, List.take_of_length_le (by omega),
      List.drop_of_length_le (by omega)]
    rfl
  | cons c l ih =>
    have hc : c ≠ 0x0a := by
      rintro rfl
      exact hl (List.mem_cons_self ..)
    have hl' : 0x0a ∉ l := fun h => hl (List.mem_cons_of_mem _ h)
    have hsplit : line ++ c :: l = (line ++ [c]) ++ l := by simp
    rw [fgetsLines, hsplit]
    by_cases hfull : (line ++ [c]).length = size - 1
    · rw [if_pos (.inr hfull), ← hfull, List.take_left, List.drop_left]
    · rw [if_neg (not_or.mpr ⟨hc, hfull⟩)]
      rw [List.length_append, List.length_singleton] at hfull
      exact ih hl' _ (by rw [List.length_append, List.length_singleton]; omega) (by simp)

end OpenNos.Cstring
