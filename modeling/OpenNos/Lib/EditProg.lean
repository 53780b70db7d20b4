import OpenNos.Lib.OpProg
import OpenNos.Lib.RegEdit

/-! Programs that edit cells in place, on a device that works and on one that fails. Seen
through its cells, a run on the device that works is a fixed list of edits, whatever the
cells hold, and its result is fixed too; a run on the device that fails makes some of
these edits. Sequences and loops of such programs are such programs, and after a run that
failed one that works leaves what it would have left in the first place. -/

namespace OpenNos.OpProg

open RegEdit

variable {O R α β σ K : Type} {w : ℕ} [DecidableEq K] {step step' : σ → O → σ × R}
  {cells : σ → K → BitVec w}

/-- A run is this list of edits of the cells, and returns `a`. -/
def Makes (step : σ → O → σ × R) (cells : σ → K → BitVec w) (p : OpProg O R α) (a : α)
    (es : List (Edit K w)) : Prop :=
  ∀ s, (p.runOn step s).1 = a ∧ cells (p.runOn step s).2 = run es (cells s)

/-- A run makes edits among these. -/
def MakesAmong (step : σ → O → σ × R) (cells : σ → K → BitVec w) (p : OpProg O R α)
    (es : List (Edit K w)) : Prop :=
  ∀ s, ∃ es', (∀ e ∈ es', e ∈ es) ∧ cells (p.runOn step s).2 = run es' (cells s)

theorem Makes.bind {p : OpProg O R α} {f : α → OpProg O R β} {a : α} {b : β}
    {es es' : List (Edit K w)} (hp : Makes step cells p a es) (hf : Makes step cells (f a) b es') :
    Makes step cells (p >>= f) b (es ++ es') := by
  intro s
  rw [runOn_bind, (hp s).1]
  exact ⟨(hf _).1, by rw [(hf _).2, (hp s).2, run_append]⟩

theorem makesAmong_pure (a : α) (es : List (Edit K w)) :
    MakesAmong step cells (pure a : OpProg O R α) es :=
  fun _ => ⟨[], fun _ h => absurd h List.not_mem_nil, rfl⟩

theorem MakesAmong.bind {p : OpProg O R α} {f : α → OpProg O R β} {es es' : List (Edit K w)}
    (hp : MakesAmong step cells p es) (hf : ∀ a, MakesAmong step cells (f a) es') :
    MakesAmong step cells (p >>= f) (es ++ es') := by
  intro s
  obtain ⟨made, hmade, hs⟩ := hp s
  obtain ⟨made', hmade', hs'⟩ := hf (p.runOn step s).1 (p.runOn step s).2
  refine ⟨made ++ made', fun e he => ?_, by rw [runOn_bind, hs', hs, run_append]⟩
  rcases List.mem_append.mp he with h | h
  · exact List.mem_append_left _ (hmade e h)
  · exact List.mem_append_right _ (hmade' e h)

/-- The edits of a run on the one device, of which a run on the other makes some. -/
def Retriable (step step' : σ → O → σ × R) (cells : σ → K → BitVec w) (p : OpProg O R α) : Prop :=
  ∃ a es, Makes step cells p a es ∧ MakesAmong step' cells p es

theorem retriable_pure (a : α) : Retriable step step' cells (pure a : OpProg O R α) :=
  ⟨a, [], fun _ => ⟨rfl, rfl⟩, makesAmong_pure a []⟩

theorem closed_retriable : Closed fun _ (p : OpProg O R _) => Retriable step step' cells p where
  pure := retriable_pure
  seq := by
    rintro _ _ p q ⟨a, es, hp, hp'⟩ ⟨b, es', hq, hq'⟩
    exact ⟨b, es ++ es', hp.bind hq, hp'.bind fun _ => hq'⟩
  fold {α β ι access} next h l b := by
    -- the results of the turns do not matter to the edits
    have hall : ∃ es, (∀ b, ∃ b', Makes step cells (l.foldlM (fun b i => do
          let a ← access i
          return next b a) b) b' es) ∧ ∀ b, MakesAmong step' cells (l.foldlM (fun b i => do
          let a ← access i
          return next b a) b) es := by
      induction l with
      | nil => exact ⟨[], fun b => ⟨b, fun _ => ⟨rfl, rfl⟩⟩, fun b => makesAmong_pure b []⟩
      | cons i l ih =>
        obtain ⟨es', hl, hl'⟩ := ih
        obtain ⟨a, es, hi, hi'⟩ := h i
        refine ⟨(es ++ []) ++ es', fun b => ?_, fun b => ?_⟩
        · obtain ⟨b', hb⟩ := hl (next b a)
          exact ⟨b', (hi.bind fun _ => ⟨rfl, rfl⟩).bind hb⟩
        · exact (hi'.bind fun _ => makesAmong_pure _ []).bind hl'
    obtain ⟨es, hl, hl'⟩ := hall
    obtain ⟨b', hb⟩ := hl b
    exact ⟨b', es, hb, hl' b⟩

/-- Programs with the same runs. -/
theorem retriable_congr {p q : OpProg O R α} (h : ∀ s, p.runOn step s = q.runOn step s)
    (h' : ∀ s, p.runOn step' s = q.runOn step' s) (hq : Retriable step step' cells q) :
    Retriable step step' cells p := by
  obtain ⟨a, es, hq, hq'⟩ := hq
  exact ⟨a, es, fun s => h s ▸ hq s, fun s => h' s ▸ hq' s⟩

/-- An operation that edits nothing, before the result is computed. -/
theorem retriable_look {o : O} (h : ∀ s, cells (step s o).1 = cells s)
    (h' : ∀ s, cells (step' s o).1 = cells s) (g : α → β) {p : OpProg O R α}
    (hp : Retriable step step' cells p) : Retriable step step' cells (do
      let a ← p
      let _ ← perform o
      return g a) := by
  obtain ⟨a, es, hp, hp'⟩ := hp
  refine ⟨g a, es ++ [], hp.bind fun s => ⟨rfl, h s⟩, hp'.bind fun a s => ?_⟩
  exact ⟨[], fun _ h => absurd h List.not_mem_nil, h' s⟩

/-- After a run that failed, one that works leaves what it would have left before. -/
theorem Retriable.recovers {p : OpProg O R α} (h : Retriable step step' cells p) {s t u : σ}
    (ht : cells t = cells s) (hu : cells u = cells (p.runOn step' t).2) :
    cells (p.runOn step u).2 = cells (p.runOn step s).2 := by
  obtain ⟨a, es, h, h'⟩ := h
  obtain ⟨made, hmade, hfailed⟩ := h' t
  rw [(h u).2, (h s).2, hu, hfailed, run_absorbs hmade, ht]

/-! ### Consecutive words -/

/-- The first `n` words of an object, each edited in its own way. -/
def wordEdits (key : ℕ → K) (clear set : ℕ → BitVec w) (n : ℕ) : List (Edit K w) :=
  (List.range n).map fun j => ⟨key j, clear j, set j⟩

theorem run_wordEdits_of_ne {key : ℕ → K} {clear set : ℕ → BitVec w} {n : ℕ}
    {cs : K → BitVec w} {k : K} (h : ∀ j < n, k ≠ key j) :
    run (wordEdits key clear set n) cs k = cs k := by
  induction n with
  | zero => rfl
  | succ n ih =>
    rw [wordEdits, List.range_succ, List.map_append, run_append, List.map_singleton, run_cons,
      run_nil, Function.update_of_ne (h n (by omega))]
    exact ih fun j hj => h j (by omega)

theorem run_wordEdits {key : ℕ → K} (hkey : Function.Injective key) {clear set : ℕ → BitVec w}
    {n : ℕ} {cs : K → BitVec w} (j : ℕ) :
    run (wordEdits key clear set n) cs (key j) =
      if j < n then cs (key j) &&& ~~~clear j ||| set j else cs (key j) := by
  induction n with
  | zero => rfl
  | succ n ih =>
    rw [wordEdits, List.range_succ, List.map_append, run_append, List.map_singleton, run_cons,
      run_nil]
    have hrest : run (wordEdits key clear set n) cs (key n) = cs (key n) :=
      run_wordEdits_of_ne fun i hi heq => absurd (hkey heq) (by omega)
    by_cases hj : j = n
    · rw [hj, Function.update_self, if_pos (by omega), Edit.apply]
      change run (wordEdits key clear set n) cs (key n) &&& ~~~clear n ||| set n = _
      rw [hrest]
    · rw [Function.update_of_ne (hkey.ne hj)]
      change run (wordEdits key clear set n) cs (key j) = _
      rw [ih]
      by_cases hlt : j < n
      · rw [if_pos hlt, if_pos (by omega)]
      · rw [if_neg hlt, if_neg (by omega)]

end OpenNos.OpProg
