import Mathlib.Computability.StateTransition
import Mathlib.Tactic

/-! Deterministic machines that halt, and the cost of loops that call each other. A
machine with a measure that every step lowers halts, and what its steps keep holds
wherever it gets. A loop over a list whose items may call further loops, down to a
limited depth, has such a measure. -/

namespace OpenNos.Nesting

open StateTransition

/-! ### Machines -/

section Machine
variable {σ : Type*} {step : σ → Option σ} {I : σ → Prop} {s t : σ}

/-- What every step keeps holds in every state reached. -/
theorem reaches_keeps (keep : ∀ s t, I s → step s = some t → I t) (hs : I s)
    (h : Reaches step s t) : I t := by
  induction h with
  | refl => exact hs
  | tail _ hstep ih => exact keep _ _ ih hstep

/-- A machine whose steps lower a measure halts. -/
theorem eval_dom_of_measure (measure : σ → ℕ)
    (keep : ∀ s t, I s → step s = some t → I t)
    (lowers : ∀ s t, I s → step s = some t → measure t < measure s) (hs : I s) :
    (eval step s).Dom := by
  induction hm : measure s using Nat.strong_induction_on generalizing s with
  | _ n ih =>
    cases hstep : step s with
    | none => exact Part.dom_iff_mem.mpr ⟨s, mem_eval.mpr ⟨Relation.ReflTransGen.refl, hstep⟩⟩
    | some t =>
      have hdom := ih (measure t) (hm ▸ lowers s t hs hstep) (keep s t hs hstep) rfl
      rwa [reaches_eval (Relation.ReflTransGen.single hstep)]

end Machine

/-! ### Loops that call loops -/

section Cost
variable {ι : Type*} (calls : ι → Option (List ι))

/-- The steps of a loop over a list that may call `k` levels deep: one for each item and
one for the end, and those of the loops the items call. -/
def cost : ℕ → List ι → ℕ
  | 0, l => l.length + 1
  | k + 1, l => (l.map fun i => 1 + ((calls i).map (cost k)).getD 0).sum + 1

theorem cost_pos (k : ℕ) (l : List ι) : 0 < cost calls k l := by
  cases k <;> exact Nat.succ_pos _

/-- An item costs at least a step. -/
theorem cost_lt_cons (k : ℕ) (i : ι) (l : List ι) : cost calls k l < cost calls k (i :: l) := by
  cases k with
  | zero => simp [cost]
  | succ k =>
    rw [cost, cost, List.map_cons, List.sum_cons]
    omega

/-- A call costs what the loop it calls does. -/
theorem cost_call {i : ι} {l' : List ι} (h : calls i = some l') (k : ℕ) (l : List ι) :
    cost calls k l' + cost calls (k + 1) l < cost calls (k + 1) (i :: l) := by
  rw [cost, cost, List.map_cons, List.sum_cons, h, Option.map_some, Option.getD_some]
  omega

end Cost

end OpenNos.Nesting
