import OpenNos.Lib.Component

/-! Two threads on one device. Each is a program of operations, an operation is done as a
whole, and a schedule tells whose turn it is. Threads that touch different cells have under
every schedule the results that they have alone, and each leaves its own cells as it does
alone. -/

namespace OpenNos.OpProg

variable {O R α β : Type}

/-- The two programs by turns, and what is left of them when the schedule ends one after the
other. A turn of a program that has ended is none. -/
def par : List Bool → OpProg O R α → OpProg O R β → OpProg O R (α × β)
  | [], p, q => do
    let a ← p
    let b ← q
    return (a, b)
  | true :: rest, .op o k, q => .op o fun r => par rest (k r) q
  | true :: rest, .ret a, q => par rest (.ret a) q
  | false :: rest, p, .op o k => .op o fun r => par rest p (k r)
  | false :: rest, p, .ret b => par rest p (.ret b)

variable {p : OpProg O R α} {q : OpProg O R β}

theorem eachOp_par {Ok : O → Prop} (schedule : List Bool) (hp : p.EachOp Ok) (hq : q.EachOp Ok) :
    (par schedule p q).EachOp Ok := by
  induction schedule generalizing p q with
  | nil => exact eachOp_bind hp fun _ => eachOp_bind hq fun _ => eachOp_pure _
  | cons turn rest ih =>
    cases turn with
    | true =>
      cases p with
      | ret a => exact ih hp hq
      | op o k =>
        obtain ⟨ho, hk⟩ := eachOp_op.mp hp
        exact eachOp_op.mpr ⟨ho, fun r => ih (hk r) hq⟩
    | false =>
      cases q with
      | ret b => exact ih hp hq
      | op o k =>
        obtain ⟨ho, hk⟩ := eachOp_op.mp hq
        exact eachOp_op.mpr ⟨ho, fun r => ih hp (hk r)⟩

variable {κ V : Type} {D : CellDevice O R κ V} {S T : Set κ} {s s₁ s₂ : κ → V}

theorem par_runOn_eqOn (schedule : List Bool) (hp : p.EachOp (D.Within S))
    (hq : q.EachOp (D.Within T)) (hapart : ∀ {c}, c ∈ S → c ∉ T) (h₁ : Set.EqOn s s₁ S)
    (h₂ : Set.EqOn s s₂ T) :
    let run := (par schedule p q).runOn D.step s
    run.1 = ((p.runOn D.step s₁).1, (q.runOn D.step s₂).1) ∧
      Set.EqOn run.2 (p.runOn D.step s₁).2 S ∧ Set.EqOn run.2 (q.runOn D.step s₂).2 T := by
  induction schedule generalizing p q s s₁ s₂ with
  | nil =>
    dsimp only [par]
    rw [runOn_bind, runOn_bind, runOn_pure]
    obtain ⟨hreply, hcells⟩ := CellDevice.runOn_eqOn hp h₁
    have hmiddle : Set.EqOn (p.runOn D.step s).2 s₂ T := fun c hc =>
      (CellDevice.runOn_frame hp s fun hin => hapart hin hc).trans (h₂ hc)
    obtain ⟨hreply', hcells'⟩ := CellDevice.runOn_eqOn hq hmiddle
    refine ⟨Prod.ext hreply hreply', fun c hc => ?_, hcells'⟩
    exact (CellDevice.runOn_frame hq _ (hapart hc)).trans (hcells hc)
  | cons turn rest ih =>
    cases turn with
    | true =>
      cases p with
      | ret a => exact ih hp hq h₁ h₂
      | op o k =>
        obtain ⟨ho, hk⟩ := eachOp_op.mp hp
        obtain ⟨hreply, hcells⟩ := CellDevice.step_eqOn ho h₁
        have hother : Set.EqOn (D.step s o).1 s₂ T := fun c hc =>
          (D.frame s o c fun hin => hapart (ho hin) hc).trans (h₂ hc)
        have hrest := ih (hk (D.step s o).2) hq hcells hother
        rw [hreply] at hrest
        have hsame : (par (true :: rest) (.op o k) q).runOn D.step s =
            (par rest (k (D.step s₁ o).2) q).runOn D.step (D.step s o).1 := by
          rw [← hreply]
          rfl
        rw [hsame]
        exact hrest
    | false =>
      cases q with
      | ret b => exact ih hp hq h₁ h₂
      | op o k =>
        obtain ⟨ho, hk⟩ := eachOp_op.mp hq
        obtain ⟨hreply, hcells⟩ := CellDevice.step_eqOn ho h₂
        have hother : Set.EqOn (D.step s o).1 s₁ S := fun c hc =>
          (D.frame s o c fun hin => hapart hc (ho hin)).trans (h₁ hc)
        have hrest := ih hp (hk (D.step s o).2) hother hcells
        rw [hreply] at hrest
        have hsame : (par (false :: rest) p (.op o k)).runOn D.step s =
            (par rest p (k (D.step s₂ o).2)).runOn D.step (D.step s o).1 := by
          rw [← hreply]
          rfl
        rw [hsame]
        exact hrest

/-- Under every schedule each thread has the result that it has alone, and leaves its cells as
it does alone. -/
theorem par_runOn (schedule : List Bool) (hp : p.EachOp (D.Within S)) (hq : q.EachOp (D.Within T))
    (hapart : ∀ {c}, c ∈ S → c ∉ T) (s : κ → V) :
    let run := (par schedule p q).runOn D.step s
    run.1 = ((p.runOn D.step s).1, (q.runOn D.step s).1) ∧
      Set.EqOn run.2 (p.runOn D.step s).2 S ∧ Set.EqOn run.2 (q.runOn D.step s).2 T :=
  par_runOn_eqOn schedule hp hq hapart (Set.eqOn_refl s S) (Set.eqOn_refl s T)

end OpenNos.OpProg
