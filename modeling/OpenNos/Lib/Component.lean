import OpenNos.Lib.OpProg

/-! Components that share a device. A component keeps a state of its own and answers a call
by a program of operations. Calls of several components come in any order. If no two of
them touch the same cells of the device, each answers as if it had the device alone. -/

namespace OpenNos

open OpProg

variable {O R : Type}

structure Component (O R : Type) where
  State : Type
  Call : Type
  Reply : Type
  prog : State → Call → OpProg O R (State × Reply)
  Inv : State → Prop
  /-- the operations it performs -/
  Ok : O → Prop
  each : ∀ {t} c, Inv t → (prog t c).EachOp Ok
  keeps : ∀ {t} c, Inv t → (prog t c).Returns fun r => Inv r.1

namespace Component

/-- Calls one after the other, with the state they leave and the replies. -/
def history (A : Component O R) (t : A.State) : List A.Call → OpProg O R (A.State × List A.Reply)
  | [] => return (t, [])
  | c :: rest => do
    let r ← A.prog t c
    let run ← A.history r.1 rest
    return (run.1, r.2 :: run.2)

variable {A : Component O R} {t : A.State}

theorem history_each (h : A.Inv t) (calls : List A.Call) : (A.history t calls).EachOp A.Ok := by
  induction calls generalizing t with
  | nil => exact eachOp_pure _
  | cons c rest ih =>
    exact eachOp_bind_of (A.each c h) (A.keeps c h) fun r hr =>
      eachOp_bind (ih hr) fun _ => eachOp_pure _

/-! ### Calls as functions -/

/-- Calls that give the next state and a reply, one after the other. -/
def callAll {σ γ ρ : Type} (perform : σ → γ → σ × ρ) (s : σ) : List γ → σ × List ρ
  | [] => (s, [])
  | c :: rest =>
    let run := callAll perform (perform s c).1 rest
    (run.1, (perform s c).2 :: run.2)

theorem callAll_fst {σ γ ρ : Type} (perform : σ → γ → σ × ρ) (s : σ) (calls : List γ) :
    (callAll perform s calls).1 = calls.foldl (fun s c => (perform s c).1) s := by
  induction calls generalizing s with
  | nil => rfl
  | cons c rest ih => exact ih (perform s c).1

section Functions

variable {σ τ : Type} {step : τ → O → τ × R} {f : σ → A.Call → σ × A.Reply}
  {state : σ → A.State} {device : σ → τ}

/-- If every program does what a function on the component and the device together does,
so does a history of programs. -/
theorem history_runOn (h : ∀ s c, (A.prog (state s) c).runOn step (device s) =
      ((state (f s c).1, (f s c).2), device (f s c).1)) (s : σ)
    (calls : List A.Call) : (A.history (state s) calls).runOn step (device s) =
      ((state (callAll f s calls).1, (callAll f s calls).2),
        device (callAll f s calls).1) := by
  induction calls generalizing s with
  | nil => rfl
  | cons c rest ih =>
    rw [history, runOn_bind, h]
    dsimp only
    rw [runOn_bind, ih]
    rfl

end Functions

/-! ### Sessions -/

section Session

variable {ι : Type} [DecidableEq ι]

/-- What is of one component. -/
def own {F : ι → Type} (i : ι) (l : List (Σ i, F i)) : List (F i) :=
  l.filterMap fun x => if h : x.1 = i then some (h ▸ x.2) else none

variable {F : ι → Type} {i j : ι}

@[simp] theorem own_nil : own (F := F) i [] = [] := rfl

@[simp] theorem own_cons_self (x : F i) (l : List (Σ i, F i)) :
    own i (⟨i, x⟩ :: l) = x :: own i l := by
  rw [own, List.filterMap_cons, dif_pos rfl]
  rfl

theorem own_cons_of_ne (h : j ≠ i) (x : F j) (l : List (Σ i, F i)) :
    own i (⟨j, x⟩ :: l) = own i l := by
  rw [own, List.filterMap_cons, dif_neg h]
  rfl

variable (A : ι → Component O R)

/-- Calls of several components as they come. -/
def session (t : ∀ i, (A i).State) :
    List (Σ i, (A i).Call) → OpProg O R ((∀ i, (A i).State) × List (Σ i, (A i).Reply))
  | [] => return (t, [])
  | ⟨i, c⟩ :: rest => do
    let r ← (A i).prog (t i) c
    let run ← session (Function.update t i r.1) rest
    return (run.1, ⟨i, r.2⟩ :: run.2)

variable {A} {t : ∀ i, (A i).State}

theorem inv_update (h : ∀ i, (A i).Inv (t i)) {x : (A i).State} (hx : (A i).Inv x) (j : ι) :
    (A j).Inv (Function.update t i x j) := by
  by_cases hj : j = i
  · subst hj
    rwa [Function.update_self]
  · rw [Function.update_of_ne hj]
    exact h j

theorem session_each (h : ∀ i, (A i).Inv (t i)) (calls : List (Σ i, (A i).Call)) :
    (session A t calls).EachOp fun o => ∃ i, (A i).Ok o := by
  induction calls generalizing t with
  | nil => exact eachOp_pure _
  | cons c rest ih =>
    obtain ⟨i, c⟩ := c
    exact eachOp_bind_of (((A i).each c (h i)).mono fun o ho => ⟨i, ho⟩) ((A i).keeps c (h i))
      fun r hr => eachOp_bind (ih (inv_update h hr)) fun _ => eachOp_pure _

end Session

end Component

/-! ### Cells -/

/-- A device of cells. What an operation does depends on the cells it touches, and it
changes no others. -/
structure CellDevice (O R κ V : Type) where
  step : (κ → V) → O → (κ → V) × R
  touches : O → Set κ
  reply : ∀ {s t o}, Set.EqOn s t (touches o) → (step s o).2 = (step t o).2
  effect : ∀ {s t o}, Set.EqOn s t (touches o) → Set.EqOn (step s o).1 (step t o).1 (touches o)
  frame : ∀ s o, ∀ c ∉ touches o, (step s o).1 c = s c

namespace CellDevice

variable {κ V α : Type} (D : CellDevice O R κ V) {S : Set κ} {p : OpProg O R α} {s t : κ → V}

/-- The operation touches these cells at most. -/
def Within (S : Set κ) (o : O) : Prop := D.touches o ⊆ S

variable {D}

theorem step_eqOn {o : O} (ho : D.Within S o) (h : Set.EqOn s t S) :
    (D.step s o).2 = (D.step t o).2 ∧ Set.EqOn (D.step s o).1 (D.step t o).1 S := by
  have htouched : Set.EqOn s t (D.touches o) := h.mono ho
  refine ⟨D.reply htouched, fun c hc => ?_⟩
  by_cases hin : c ∈ D.touches o
  · exact D.effect htouched hin
  · rw [D.frame s o c hin, D.frame t o c hin]
    exact h hc

/-- A program sees the cells it touches and no others. -/
theorem runOn_eqOn (hp : p.EachOp (D.Within S)) (h : Set.EqOn s t S) :
    (p.runOn D.step s).1 = (p.runOn D.step t).1 ∧
      Set.EqOn (p.runOn D.step s).2 (p.runOn D.step t).2 S := by
  let Rel (s t : κ → V) : Prop := Set.EqOn s t S
  have hstep (s t : κ → V) (o : O) (ho : D.Within S o) (h : Rel s t) :
      (D.step s o).2 = (D.step t o).2 ∧ Rel (D.step s o).1 (D.step t o).1 := step_eqOn ho h
  have hrun : _ ∧ Rel _ _ := runOn_related hstep hp h
  exact hrun

/-- A program leaves the cells it does not touch. -/
theorem runOn_frame (hp : p.EachOp (D.Within S)) (s : κ → V) {c : κ} (hc : c ∉ S) :
    (p.runOn D.step s).2 c = s c :=
  runOn_invariant (fun s' o ho h => (D.frame s' o c fun hin => hc (ho hin)).trans h) hp
    (s := s) rfl

end CellDevice

namespace Component

variable {ι κ V : Type} [DecidableEq ι] {A : ι → Component O R} {D : CellDevice O R κ V}
  {cells : ι → Set κ} {s s' : κ → V}

/-- In any session a component goes through the states, gives the replies and leaves the
cells that it does when the others make no calls. -/
theorem session_own (hcells : ∀ i o, (A i).Ok o → D.Within (cells i) o)
    (hapart : ∀ {i j c}, c ∈ cells i → c ∈ cells j → i = j) {t : ∀ i, (A i).State}
    (ht : ∀ i, (A i).Inv (t i)) (i : ι) (h : Set.EqOn s s' (cells i))
    (calls : List (Σ i, (A i).Call)) :
    let run := (session A t calls).runOn D.step s
    let alone := ((A i).history (t i) (own i calls)).runOn D.step s'
    run.1.1 i = alone.1.1 ∧ own i run.1.2 = alone.1.2 ∧ Set.EqOn run.2 alone.2 (cells i) := by
  induction calls generalizing t s s' with
  | nil => exact ⟨rfl, rfl, h⟩
  | cons c rest ih =>
    obtain ⟨j, c⟩ := c
    have heach := ((A j).each c (ht j)).mono (hcells j)
    have hkeep := ((A j).keeps c (ht j)).runOn D.step s
    have hinv := inv_update ht hkeep
    rw [session, runOn_bind]
    dsimp only
    rw [runOn_bind]
    by_cases hj : j = i
    · subst hj
      -- a call of the component itself finds the same cells
      obtain ⟨hsame, hcell⟩ := CellDevice.runOn_eqOn heach h
      obtain ⟨hstate, hreplies, hcells'⟩ := ih hinv hcell
      rw [Function.update_self] at hstate hreplies hcells'
      rw [own_cons_self, history, runOn_bind, ← hsame, runOn_bind]
      exact ⟨hstate, by rw [runOn_pure, own_cons_self, hreplies]; rfl, hcells'⟩
    · -- a call of another leaves them
      have hcell : Set.EqOn ((A j).prog (t j) c |>.runOn D.step s).2 s' (cells i) := fun x hx =>
        (CellDevice.runOn_frame heach s fun hxj => hj (hapart hxj hx)).trans (h hx)
      obtain ⟨hstate, hreplies, hcells'⟩ := ih hinv hcell
      rw [Function.update_of_ne (Ne.symm hj)] at hstate hreplies hcells'
      rw [own_cons_of_ne hj]
      exact ⟨hstate, by rw [runOn_pure, own_cons_of_ne hj, hreplies], hcells'⟩

end Component

end OpenNos
