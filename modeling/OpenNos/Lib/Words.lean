import Mathlib.Data.List.TakeWhile
import OpenNos.Lib.Cstring

/-! The words of a text, and the `%s` conversion of `sscanf`. A conversion with a width
takes a word only as far as the width goes, and leaves the rest of it to the next one as
if it were a word of its own. -/

namespace OpenNos.Cstring

/-- The runs of characters between white space. -/
def words (s : List Byte) : List (List Byte) :=
  (s.splitOnP isSpace).filter fun w => !w.isEmpty

/-- One conversion `%<width>s`: what it stores, and the text behind it. -/
def scanWord (width : ℕ) (s : List Byte) : Option (List Byte × List Byte) :=
  match s.dropWhile isSpace with
  | [] => none
  | c :: rest =>
    let w := ((c :: rest).takeWhile fun c => !isSpace c).take width
    some (w, (c :: rest).drop w.length)

/-- The conversion on words: the rest of a word that is too long is the next word. -/
def takeField (width : ℕ) : List (List Byte) → Option (List Byte × List (List Byte))
  | [] => none
  | w :: ws => some (w.take width, if w.length ≤ width then ws else w.drop width :: ws)

variable {s w r : List Byte} {c : Byte}

theorem words_cons_space (hc : isSpace c = true) (s : List Byte) : words (c :: s) = words s := by
  rw [words, List.splitOnP_cons_eq_if_modifyHead, if_pos hc, List.filter_cons_of_neg (by simp)]
  rfl

theorem words_dropWhile (s : List Byte) : words (s.dropWhile isSpace) = words s := by
  induction s with
  | nil => rfl
  | cons c s ih =>
    by_cases hc : isSpace c = true
    · rw [List.dropWhile_cons_of_pos hc, words_cons_space hc, ih]
    · rw [List.dropWhile_cons_of_neg hc]

/-- A word and what stands behind it. -/
theorem words_append (hw : ∀ c ∈ w, isSpace c = false) (hne : w ≠ [])
    (hr : ∀ c ∈ r.head?, isSpace c = true) : words (w ++ r) = w :: words r := by
  have hkeep : ∀ ws, (w :: ws).filter (fun w : List Byte => !w.isEmpty) =
      w :: ws.filter fun w => !w.isEmpty :=
    fun ws => List.filter_cons_of_pos (by simpa using hne)
  cases r with
  | nil =>
    rw [List.append_nil, words, List.splitOnP_eq_singleton hw, hkeep]
    rfl
  | cons c r =>
    have hc : isSpace c = true := hr c rfl
    rw [words, List.splitOnP_append_cons_of_forall_mem hw c hc, hkeep, words_cons_space hc]
    rfl

theorem not_isSpace_of_mem_splitOnP (s : List Byte) :
    ∀ w ∈ s.splitOnP isSpace, ∀ c ∈ w, isSpace c = false := by
  induction s with
  | nil => simp
  | cons c s ih =>
    rw [List.splitOnP_cons_eq_if_modifyHead]
    by_cases hc : isSpace c = true
    · rw [if_pos hc]
      intro w hw
      rcases List.mem_cons.mp hw with rfl | hw
      · simp
      · exact ih w hw
    · rw [if_neg hc]
      cases hs : s.splitOnP isSpace with
      | nil => simp
      | cons first rest =>
        rw [hs] at ih
        intro w hw d hd
        rcases List.mem_cons.mp hw with rfl | hw
        · rcases List.mem_cons.mp hd with rfl | hd
          · simpa using hc
          · exact ih first (List.mem_cons_self ..) d hd
        · exact ih w (List.mem_cons_of_mem _ hw) d hd

theorem not_isSpace_of_mem_words (h : w ∈ words s) : ∀ c ∈ w, isSpace c = false :=
  not_isSpace_of_mem_splitOnP s w (List.mem_filter.mp h).1

/-- A text that does not begin with white space is a word and what stands behind it. -/
theorem exists_word {t : List Byte} (hc : isSpace c = false) : ∃ w r, c :: t = w ++ r ∧
    (c :: t).takeWhile (fun c => !isSpace c) = w ∧ (∀ d ∈ w, isSpace d = false) ∧ w ≠ [] ∧
      ∀ d ∈ r.head?, isSpace d = true := by
  refine ⟨(c :: t).takeWhile fun c => !isSpace c, (c :: t).dropWhile fun c => !isSpace c,
    (List.takeWhile_append_dropWhile ..).symm, rfl, fun d hd => ?_, ?_, fun d hd => ?_⟩
  · simpa using List.mem_takeWhile_imp hd
  · rw [List.takeWhile_cons_of_pos (by simp [hc])]
    simp
  · have hnot := List.head?_dropWhile_not (fun c => !isSpace c) (c :: t)
    rw [Option.mem_def.mp hd] at hnot
    simpa using hnot

/-- What a conversion does to the words of a text. -/
theorem scanWord_words {width : ℕ} (s : List Byte) :
    (scanWord width s).map (fun x => (x.1, words x.2)) = takeField width (words s) := by
  rw [scanWord, ← words_dropWhile s]
  have hhead := List.head?_dropWhile_not isSpace s
  cases hs : s.dropWhile isSpace with
  | nil => rfl
  | cons c t =>
    rw [hs] at hhead
    obtain ⟨w, r, hsplit, htake, hw, hne, hr⟩ := exists_word (t := t) hhead
    dsimp only
    rw [htake, hsplit, words_append hw hne hr, takeField, Option.map_some]
    by_cases hle : w.length ≤ width
    · rw [if_pos hle, List.take_of_length_le hle, List.drop_left]
    · have hdrop : ∀ d ∈ w.drop width, isSpace d = false := fun d hd =>
        hw d (List.mem_of_mem_drop hd)
      have hdne : w.drop width ≠ [] := by
        intro hnil
        have hlen := congrArg List.length hnil
        rw [List.length_drop, List.length_nil] at hlen
        omega
      rw [if_neg hle, List.length_take_of_le (by omega), List.drop_append_of_le_length (by omega),
        words_append hdrop hdne hr]

end OpenNos.Cstring
