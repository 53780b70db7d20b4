import Mathlib.Data.List.Induction
import Mathlib.Logic.Function.Basic

/-! A file of registers under reads and writes. After any accesses a register holds
what was last written to it, and what it held before if nothing was. -/

namespace OpenNos.RegFile

/-- An access to the register `k`. -/
inductive Op (K V : Type)
  | get (k : K)
  | put (k : K) (v : V)

variable {K V : Type} [DecidableEq K]

/-- The registers after an access. -/
def Op.apply (regs : K → V) : Op K V → K → V
  | .get _ => regs
  | .put k v => Function.update regs k v

/-- What an access returns. -/
def Op.answer (regs : K → V) : Op K V → Option V
  | .get k => some (regs k)
  | .put _ _ => none

/-- The value an access writes to the register `k`. -/
def Op.putTo (k : K) : Op K V → Option V
  | .get _ => none
  | .put k' v => if k' = k then some v else none

/-- The value of the last write to the register `k`. -/
def lastPut (ops : List (Op K V)) (k : K) : Option V := ops.reverse.findSome? (Op.putTo k)

def after (regs : K → V) (ops : List (Op K V)) : K → V := ops.foldl Op.apply regs

def answers : (K → V) → List (Op K V) → List (Option V)
  | _, [] => []
  | regs, op :: ops => op.answer regs :: answers (op.apply regs) ops

variable (regs : K → V)

theorem apply_eq (op : Op K V) (k : K) : op.apply regs k = (op.putTo k).getD (regs k) := by
  cases op with
  | get k' => rfl
  | put k' v =>
    rw [Op.apply, Op.putTo]
    by_cases hk : k' = k
    · rw [if_pos hk, hk, Function.update_self, Option.getD_some]
    · rw [if_neg hk, Function.update_of_ne (Ne.symm hk), Option.getD_none]

/-- Every register holds what was last written to it. -/
theorem after_eq (ops : List (Op K V)) (k : K) :
    after regs ops k = (lastPut ops k).getD (regs k) := by
  induction ops using List.reverseRecOn with
  | nil => rfl
  | append_singleton ops op ih =>
    rw [after, List.foldl_append, List.foldl_cons, List.foldl_nil, apply_eq]
    rw [lastPut, List.reverse_append, List.reverse_singleton, List.singleton_append,
      List.findSome?_cons]
    cases op.putTo k with
    | none => exact ih
    | some v => rfl

/-- Every access returns what the registers hold after those before it. -/
theorem answers_split (before rest : List (Op K V)) (op : Op K V) :
    (answers regs (before ++ op :: rest))[before.length]? =
      some (op.answer (after regs before)) := by
  induction before generalizing regs with
  | nil => rfl
  | cons first before ih => exact ih (first.apply regs)

end OpenNos.RegFile
