import Mathlib.Data.BitVec
import Mathlib.Logic.Function.Basic
import Mathlib.Logic.Relation

/-! Edits of registers in place. An edit declares the bits it clears and the bits it sets;
a history of edits, each made on what its register then holds, leaves all other bits as
they were. -/

namespace OpenNos.RegEdit

/-- Clear some bits of a register, then set some. -/
structure Edit (K : Type) (w : ℕ) where
  key : K
  clear : BitVec w
  set : BitVec w

variable {K : Type} {w : ℕ}

namespace Edit

variable (e : Edit K w)

def apply (x : BitVec w) : BitVec w := x &&& ~~~e.clear ||| e.set

def mask : BitVec w := e.clear ||| e.set

theorem apply_clearOnly (k : K) (clear x : BitVec w) :
    (⟨k, clear, 0⟩ : Edit K w).apply x = x &&& ~~~clear := BitVec.or_zero

theorem apply_setOnly (k : K) (set x : BitVec w) :
    (⟨k, 0, set⟩ : Edit K w).apply x = x ||| set := by
  ext i hi
  simp [apply]

/-- Setting before clearing, where the two do not overlap. -/
theorem apply_set_clear (k : K) {clear set : BitVec w} (h : set &&& clear = 0) (x : BitVec w) :
    (⟨k, clear, set⟩ : Edit K w).apply x = (x ||| set) &&& ~~~clear := by
  ext i hi
  have hbit : (set[i] && clear[i]) = false := by
    have hzero := congrArg (fun b : BitVec w => b.getLsbD i) h
    simpa [BitVec.getLsbD_eq_getElem hi] using hzero
  simp only [apply, BitVec.getElem_and, BitVec.getElem_or, BitVec.getElem_not]
  revert hbit
  cases x[i] <;> cases clear[i] <;> cases set[i] <;> simp

theorem apply_kept {m : BitVec w} (hm : e.mask ||| m = m) (x : BitVec w) :
    e.apply x &&& ~~~m = x &&& ~~~m := by
  rw [← hm]
  ext i hi
  simp only [apply, mask, BitVec.getElem_and, BitVec.getElem_or, BitVec.getElem_not]
  cases x[i] <;> cases e.clear[i] <;> cases e.set[i] <;> rfl

/-- A bit that the edit does not set stays clear. -/
theorem apply_clear {x : BitVec w} {b : ℕ} (hx : x.getLsbD b = false)
    (hset : e.set.getLsbD b = false) : (e.apply x).getLsbD b = false := by
  simp only [apply, BitVec.getLsbD_or, BitVec.getLsbD_and, hx, hset, Bool.false_and, Bool.or_false]

theorem apply_cleared {b : ℕ} (hclear : e.clear.getLsbD b = true)
    (hset : e.set.getLsbD b = false) (x : BitVec w) : (e.apply x).getLsbD b = false := by
  simp only [apply, BitVec.getLsbD_or, BitVec.getLsbD_and, BitVec.getLsbD_not, hclear, hset,
    Bool.not_true, Bool.and_false, Bool.or_false]

end Edit

variable [DecidableEq K]

/-- The bits of a register that the edits declare. -/
def declared (es : List (Edit K w)) (k : K) : BitVec w :=
  es.foldr (fun e m => if e.key = k then e.mask ||| m else m) 0

/-- The registers after edits among `es`, each made on what its register then holds. -/
def Edited (es : List (Edit K w)) : (K → BitVec w) → (K → BitVec w) → Prop :=
  Relation.ReflTransGen fun regs regs' =>
    ∃ e ∈ es, regs' = Function.update regs e.key (e.apply (regs e.key))

theorem declared_of_mem {es : List (Edit K w)} {e : Edit K w} (he : e ∈ es) :
    e.mask ||| declared es e.key = declared es e.key := by
  induction es with
  | nil => exact absurd he List.not_mem_nil
  | cons a rest ih =>
    rw [declared, List.foldr_cons]
    rcases List.mem_cons.mp he with rfl | hrest
    · rw [if_pos rfl, ← BitVec.or_assoc, BitVec.or_self]
    · have hmask := ih hrest
      change (e.mask ||| if a.key = e.key then a.mask ||| declared rest e.key
        else declared rest e.key) = if a.key = e.key then a.mask ||| declared rest e.key
        else declared rest e.key
      split_ifs
      · rw [← BitVec.or_assoc, BitVec.or_comm e.mask, BitVec.or_assoc, hmask]
      · exact hmask

/-- Bits that no edit declares stay. -/
theorem Edited.kept {es : List (Edit K w)} {regs regs' : K → BitVec w}
    (h : Edited es regs regs') (k : K) :
    regs' k &&& ~~~declared es k = regs k &&& ~~~declared es k := by
  induction h with
  | refl => rfl
  | tail _ hstep ih =>
    obtain ⟨e, he, rfl⟩ := hstep
    rw [← ih]
    by_cases hk : k = e.key
    · rw [hk, Function.update_self]
      exact e.apply_kept (declared_of_mem he) _
    · rw [Function.update_of_ne hk]

/-! ### A list of edits -/

/-- The registers after all edits of a list, in order. -/
def run (es : List (Edit K w)) (regs : K → BitVec w) : K → BitVec w :=
  es.foldl (fun regs e => Function.update regs e.key (e.apply (regs e.key))) regs

@[simp] theorem run_nil (regs : K → BitVec w) : run [] regs = regs := rfl

theorem run_cons (e : Edit K w) (es : List (Edit K w)) (regs : K → BitVec w) :
    run (e :: es) regs = run es (Function.update regs e.key (e.apply (regs e.key))) := rfl

theorem run_append (es es' : List (Edit K w)) (regs : K → BitVec w) :
    run (es ++ es') regs = run es' (run es regs) := List.foldl_append

/-- A register keeps the bits that no edit declares and is given the others. -/
theorem run_declared (es : List (Edit K w)) (k : K) :
    ∃ given : BitVec w, ∀ regs, run es regs k = regs k &&& ~~~declared es k ||| given := by
  induction es with
  | nil => exact ⟨0, fun regs => by simp [declared]⟩
  | cons e es ih =>
    obtain ⟨given, h⟩ := ih
    have hcons : declared (e :: es) k =
        if e.key = k then e.mask ||| declared es k else declared es k := rfl
    by_cases hk : e.key = k
    · refine ⟨e.set &&& ~~~declared es k ||| given, fun regs => ?_⟩
      rw [run_cons, h, hcons, if_pos hk, ← hk, Function.update_self]
      ext i hi
      simp only [Edit.apply, Edit.mask, BitVec.getElem_or, BitVec.getElem_and, BitVec.getElem_not]
      cases (regs e.key)[i] <;> cases e.clear[i] <;> cases e.set[i] <;>
        cases (declared es e.key)[i] <;> rfl
    · refine ⟨given, fun regs => ?_⟩
      rw [run_cons, h, hcons, if_neg hk, Function.update_of_ne (Ne.symm hk)]

theorem edited_run {es es' : List (Edit K w)} (h : ∀ e ∈ es', e ∈ es) (regs : K → BitVec w) :
    Edited es regs (run es' regs) := by
  induction es' generalizing regs with
  | nil => exact .refl
  | cons e es' ih =>
    rw [run_cons]
    exact .head ⟨e, h e List.mem_cons_self, rfl⟩
      (ih (fun a ha => h a (List.mem_cons_of_mem e ha)) _)

/-- Edits made before in whatever selection and order leave no trace of all the edits. -/
theorem run_absorbs {es es' : List (Edit K w)} (h : ∀ e ∈ es', e ∈ es) (regs : K → BitVec w) :
    run es (run es' regs) = run es regs := by
  funext k
  obtain ⟨given, hrun⟩ := run_declared es k
  rw [hrun, hrun, (edited_run h regs).kept k]

end OpenNos.RegEdit
