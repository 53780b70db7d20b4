import Mathlib.Tactic

/-! Histories of a deterministic system. A history is the list of inputs a state
is driven through. `Throughout` says that a property holds in every state the
history passes, `EachStep` that every input meets a condition on the state it is
applied to. The main rule settles exactly which histories keep a property: when
an invariant survives every step that meets the condition, and every other step
breaks the property at once, the property holds throughout a history if and only
if every step of it meets the condition. -/

namespace OpenNos.History

variable {σ μ : Type*} (step : σ → μ → σ)

/-- The state at the end of a history. -/
def run (s : σ) (ms : List μ) : σ := ms.foldl step s

@[simp] theorem run_nil (s : σ) : run step s [] = s := rfl

@[simp] theorem run_cons (s : σ) (m : μ) (ms : List μ) :
    run step s (m :: ms) = run step (step s m) ms := rfl

theorem run_concat (s : σ) (ms : List μ) (m : μ) :
    run step s (ms ++ [m]) = step (run step s ms) m := List.foldl_concat ..

/-- The property holds in every state of the history, both ends included. -/
def Throughout (P : σ → Prop) : σ → List μ → Prop
  | s, [] => P s
  | s, m :: ms => P s ∧ Throughout P (step s m) ms

/-- Every input of the history meets the condition in the state it finds. -/
def EachStep (C : σ → μ → Prop) : σ → List μ → Prop
  | _, [] => True
  | s, m :: ms => C s m ∧ EachStep C (step s m) ms

variable {step}

theorem Throughout.head {P : σ → Prop} {s : σ} {ms : List μ} (h : Throughout step P s ms) :
    P s := by
  cases ms with
  | nil => exact h
  | cons m ms => exact h.1

theorem EachStep.and {C D : σ → μ → Prop} {s : σ} {ms : List μ} (hC : EachStep step C s ms)
    (hD : EachStep step D s ms) : EachStep step (fun s m => C s m ∧ D s m) s ms := by
  induction ms generalizing s with
  | nil => trivial
  | cons m ms ih => exact ⟨⟨hC.1, hD.1⟩, ih hC.2 hD.2⟩

/-- A promise about the inputs alone joins the condition of the steps. -/
theorem EachStep.and_of_forall {C : σ → μ → Prop} {D : μ → Prop} {s : σ} {ms : List μ}
    (hC : EachStep step C s ms) (hD : ∀ m ∈ ms, D m) :
    EachStep step (fun s m => D m ∧ C s m) s ms := by
  induction ms generalizing s with
  | nil => trivial
  | cons m ms ih =>
    obtain ⟨hm, ht⟩ := List.forall_mem_cons.mp hD
    exact ⟨⟨hm, hC.1⟩, ih hC.2 ht⟩

/-- A condition on the inputs alone. -/
theorem eachStep_iff_forall {D : μ → Prop} {s : σ} {ms : List μ} :
    EachStep step (fun _ m => D m) s ms ↔ ∀ m ∈ ms, D m := by
  induction ms generalizing s with
  | nil => simp [EachStep]
  | cons m ms ih => rw [EachStep, ih, List.forall_mem_cons]

/-- The property holds in the state any part of the history leads to. -/
theorem throughout_iff_splits {P : σ → Prop} {s : σ} {ms : List μ} :
    Throughout step P s ms ↔ ∀ ns rest, ms = ns ++ rest → P (run step s ns) := by
  induction ms generalizing s with
  | nil =>
    constructor
    · intro h ns rest he
      obtain ⟨rfl, -⟩ := List.append_eq_nil_iff.mp he.symm
      exact h
    · intro h
      exact h [] [] rfl
  | cons m ms ih =>
    constructor
    · rintro ⟨hs, ht⟩ ns rest he
      cases ns with
      | nil => exact hs
      | cons n ns =>
        obtain ⟨rfl, ht'⟩ := List.cons.inj he
        exact ih.mp ht ns rest ht'
    · intro h
      exact ⟨h [] (m :: ms) rfl, ih.mpr fun ns rest he => h (m :: ns) rest (by rw [he]; rfl)⟩

/-- The condition holds of every input, in the state that the inputs before it lead
to. -/
theorem eachStep_iff_splits {C : σ → μ → Prop} {s : σ} {ms : List μ} :
    EachStep step C s ms ↔ ∀ ns m rest, ms = ns ++ m :: rest → C (run step s ns) m := by
  induction ms generalizing s with
  | nil =>
    refine iff_of_true trivial fun ns m rest he => ?_
    simp at he
  | cons m ms ih =>
    constructor
    · rintro ⟨hm, ht⟩ ns m' rest he
      cases ns with
      | nil =>
        obtain ⟨rfl, -⟩ := List.cons.inj he
        exact hm
      | cons n ns =>
        obtain ⟨rfl, ht'⟩ := List.cons.inj he
        exact ih.mp ht ns m' rest ht'
    · intro h
      exact ⟨h [] m ms rfl, ih.mpr fun ns m' rest he => h (m :: ns) m' rest (by rw [he]; rfl)⟩

/-- A property that one kind of step brings about and only another kind ends: it holds
if and only if a step brought it about and no step since has ended it. -/
theorem run_iff_since {P : σ → Prop} {begins : σ → μ → Prop} {ends : μ → Prop}
    (hstep : ∀ s m, P (step s m) ↔ P s ∧ ¬ ends m ∨ begins s m) {s : σ} (hs : ¬ P s)
    (ms : List μ) : P (run step s ms) ↔
      ∃ ns m rest, ms = ns ++ m :: rest ∧ begins (run step s ns) m ∧ ∀ x ∈ rest, ¬ ends x := by
  induction ms using List.reverseRecOn with
  | nil =>
    refine iff_of_false hs ?_
    rintro ⟨ns, m, rest, he, -⟩
    simp at he
  | append_singleton ms x ih =>
    rw [run_concat, hstep, ih]
    constructor
    · rintro (⟨⟨ns, m, rest, rfl, hb, hrest⟩, hx⟩ | hb)
      · refine ⟨ns, m, rest ++ [x], by simp, hb, fun y hy => ?_⟩
        rcases List.mem_append.mp hy with hy | hy
        · exact hrest y hy
        · rwa [List.mem_singleton.mp hy]
      · exact ⟨ms, x, [], rfl, hb, fun y hy => absurd hy List.not_mem_nil⟩
    · rintro ⟨ns, m, rest, he, hb, hrest⟩
      rcases List.eq_nil_or_concat rest with rfl | ⟨rest', y, rfl⟩
      · obtain ⟨rfl, hx⟩ := List.append_inj' he rfl
        obtain rfl := List.singleton_inj.mp hx
        exact .inr hb
      · have he' : ms ++ [x] = (ns ++ m :: rest') ++ [y] := by simpa using he
        obtain ⟨rfl, hx⟩ := List.append_inj' he' rfl
        obtain rfl := List.singleton_inj.mp hx
        exact .inl ⟨⟨ns, m, rest', rfl, hb, fun z hz => hrest z (by simp [hz])⟩,
          hrest x (by simp)⟩

theorem Throughout.final {P : σ → Prop} {s : σ} {ms : List μ} (h : Throughout step P s ms) :
    P (run step s ms) :=
  throughout_iff_splits.mp h ms [] (List.append_nil ms).symm

theorem Throughout.mono {P Q : σ → Prop} (hPQ : ∀ s, P s → Q s) {s : σ} {ms : List μ}
    (h : Throughout step P s ms) : Throughout step Q s ms :=
  throughout_iff_splits.mpr fun ns rest he => hPQ _ (throughout_iff_splits.mp h ns rest he)

/-- An invariant that every step meeting the condition keeps holds throughout a
history whose steps all meet it. -/
theorem throughout_of_eachStep {Inv : σ → Prop} {C : σ → μ → Prop}
    (keep : ∀ s m, Inv s → C s m → Inv (step s m)) {s : σ} {ms : List μ} (hs : Inv s)
    (hC : EachStep step C s ms) : Throughout step Inv s ms := by
  induction ms generalizing s with
  | nil => exact hs
  | cons m ms ih => exact ⟨hs, ih (keep s m hs hC.1) hC.2⟩

/-- An invariant of every step holds throughout every history. -/
theorem throughout_of_step {Inv : σ → Prop} (keep : ∀ s m, Inv s → Inv (step s m)) {s : σ}
    (hs : Inv s) (ms : List μ) : Throughout step Inv s ms := by
  induction ms generalizing s with
  | nil => exact hs
  | cons m ms ih => exact ⟨hs, ih (keep s m hs)⟩

/-- What an invariant of every step gives of each step. -/
theorem eachStep_of_step {Inv : σ → Prop} {C : σ → μ → Prop}
    (keep : ∀ s m, Inv s → Inv (step s m)) (gives : ∀ s m, Inv s → C s m) {s : σ} (hs : Inv s)
    (ms : List μ) : EachStep step C s ms := by
  induction ms generalizing s with
  | nil => trivial
  | cons m ms ih => exact ⟨gives s m hs, ih (keep s m hs)⟩

/-- The same for histories whose inputs the caller promises something of. -/
theorem EachStep.of_keep {Inv : σ → Prop} {C D : σ → μ → Prop}
    (keep : ∀ s m, Inv s → D s m → Inv (step s m)) (gives : ∀ s m, Inv s → D s m → C s m) {s : σ}
    {ms : List μ} (hs : Inv s) (hD : EachStep step D s ms) : EachStep step C s ms := by
  induction ms generalizing s with
  | nil => trivial
  | cons m ms ih => exact ⟨gives s m hs hD.1, ih (keep s m hs hD.1) hD.2⟩

/-- What holds of every step in every state. -/
theorem eachStep_of_forall {C : σ → μ → Prop} (h : ∀ s m, C s m) (s : σ) (ms : List μ) :
    EachStep step C s ms := by
  induction ms generalizing s with
  | nil => trivial
  | cons m ms ih => exact ⟨h s m, ih (step s m)⟩

/-- Two conditions that come to the same under an invariant, which the steps that
meet them keep. -/
theorem eachStep_congr {Inv : σ → Prop} {C D : σ → μ → Prop}
    (same : ∀ s m, Inv s → (C s m ↔ D s m))
    (keep : ∀ s m, Inv s → D s m → Inv (step s m)) {s : σ} (hs : Inv s) (ms : List μ) :
    EachStep step C s ms ↔ EachStep step D s ms := by
  induction ms generalizing s with
  | nil => exact Iff.rfl
  | cons m ms ih =>
    constructor
    · rintro ⟨hC, hrest⟩
      have hD := (same s m hs).mp hC
      exact ⟨hD, (ih (keep s m hs hD)).mp hrest⟩
    · rintro ⟨hD, hrest⟩
      exact ⟨(same s m hs).mpr hD, (ih (keep s m hs hD)).mpr hrest⟩

/-- A step that does not meet the condition leads into a trap; a history with
such a step ends there. -/
theorem trapped_of_not_eachStep {Inv Trap : σ → Prop} {C : σ → μ → Prop}
    (keep : ∀ s m, Inv s → Inv (step s m))
    (enter : ∀ s m, Inv s → ¬ C s m → Trap (step s m))
    (stay : ∀ s m, Inv s → Trap s → Trap (step s m)) {s : σ} {ms : List μ} (hs : Inv s)
    (hC : ¬ EachStep step C s ms) : Trap (run step s ms) := by
  have hstay (s : σ) (ms : List μ) (hs : Inv s) (ht : Trap s) : Trap (run step s ms) := by
    induction ms generalizing s with
    | nil => exact ht
    | cons m ms ih => exact ih (step s m) (keep s m hs) (stay s m hs ht)
  induction ms generalizing s with
  | nil => exact absurd trivial hC
  | cons m ms ih =>
    by_cases hm : C s m
    · exact ih (keep s m hs) fun ht => hC ⟨hm, ht⟩
    · exact hstay (step s m) ms (keep s m hs) (enter s m hs hm)

/-- The exact histories that keep a property. `D` is what the caller promises of
each input, `C` the condition under which the step keeps the property; a step
that does not meet it leaves a state in which the property fails. -/
theorem throughout_iff_eachStep {P Inv : σ → Prop} {C D : σ → μ → Prop}
    (holds : ∀ s, Inv s → P s)
    (keep : ∀ s m, Inv s → D s m → C s m → Inv (step s m))
    (breaks : ∀ s m, Inv s → D s m → ¬ C s m → ¬ P (step s m))
    {s : σ} {ms : List μ} (hs : Inv s) (hD : EachStep step D s ms) :
    Throughout step P s ms ↔ EachStep step C s ms := by
  induction ms generalizing s with
  | nil => exact ⟨fun _ => trivial, fun _ => holds s hs⟩
  | cons m ms ih =>
    obtain ⟨hm, ht⟩ := hD
    constructor
    · rintro ⟨-, hP⟩
      by_cases hC : C s m
      · exact ⟨hC, (ih (keep s m hs hm hC) ht).mp hP⟩
      · exact absurd hP.head (breaks s m hs hm hC)
    · rintro ⟨hC, hrest⟩
      exact ⟨holds s hs, (ih (keep s m hs hm hC) ht).mpr hrest⟩

/-- The rule when the caller promises nothing. -/
theorem throughout_iff_eachStep_of_any {P Inv : σ → Prop} {C : σ → μ → Prop}
    (holds : ∀ s, Inv s → P s)
    (keep : ∀ s m, Inv s → C s m → Inv (step s m))
    (breaks : ∀ s m, Inv s → ¬ C s m → ¬ P (step s m))
    {s : σ} (hs : Inv s) (ms : List μ) :
    Throughout step P s ms ↔ EachStep step C s ms := by
  have hD : EachStep step (fun _ _ => True) s ms := by
    clear hs
    induction ms generalizing s with
    | nil => trivial
    | cons m ms ih => exact ⟨trivial, ih⟩
  exact throughout_iff_eachStep holds (fun s m h _ => keep s m h)
    (fun s m h _ => breaks s m h) hs hD

end OpenNos.History
