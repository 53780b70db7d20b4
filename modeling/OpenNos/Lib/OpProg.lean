import Mathlib.Tactic

/-! Programs over operations with replies. A program performs an operation, looks at
the reply and continues. It is run against a sequence that fixes all replies in
advance, the `n`th for the `n`th operation whichever it is, so that a property for all
sequences is one for every behaviour of the other side. -/

namespace OpenNos

/-- Programs over operations `O` with replies `R`. -/
inductive OpProg (O R : Type) (α : Type)
  | ret (a : α)
  | op (o : O) (k : R → OpProg O R α)

namespace OpProg

variable {O R α β : Type}

def bind : OpProg O R α → (α → OpProg O R β) → OpProg O R β
  | .ret a, f => f a
  | .op o k, f => .op o fun r => (k r).bind f

instance : Monad (OpProg O R) where
  pure := .ret
  bind := .bind

def perform (o : O) : OpProg O R R := .op o .ret

/-- The result and the operations of a run, in order. -/
def exec : OpProg O R α → (ℕ → R) → α × List O
  | .ret a, _ => (a, [])
  | .op o k, replies =>
    let run := (k (replies 0)).exec fun n => replies (n + 1)
    (run.1, o :: run.2)

/-- The result and the last state of a device that replies out of its state. -/
def runOn {σ : Type} (step : σ → O → σ × R) : OpProg O R α → σ → α × σ
  | .ret a, s => (a, s)
  | .op o k, s => (k (step s o).2).runOn step (step s o).1

theorem runOn_bind {σ : Type} (step : σ → O → σ × R) (p : OpProg O R α) (f : α → OpProg O R β)
    (s : σ) : (p >>= f).runOn step s = (f (p.runOn step s).1).runOn step (p.runOn step s).2 := by
  change (p.bind f).runOn step s = _
  induction p generalizing s with
  | ret a => rfl
  | op o k ih => exact ih _ _

@[simp] theorem runOn_perform {σ : Type} (step : σ → O → σ × R) (o : O) (s : σ) :
    (perform o).runOn step s = ((step s o).2, (step s o).1) := rfl

@[simp] theorem runOn_pure {σ : Type} (step : σ → O → σ × R) (a : α) (s : σ) :
    (pure a : OpProg O R α).runOn step s = (a, s) := rfl

@[simp] theorem runOn_discard {σ : Type} (step : σ → O → σ × R) (p : OpProg O R α) (s : σ) :
    (discard p : OpProg O R Unit).runOn step s = ((), (p.runOn step s).2) :=
  runOn_bind step p _ s

theorem runOn_forM_cons {σ ι : Type} (step : σ → O → σ × R) (i : ι) (l : List ι)
    (body : ι → OpProg O R PUnit) (s : σ) : ((i :: l).forM body).runOn step s =
      (l.forM body).runOn step ((body i).runOn step s).2 :=
  runOn_bind step _ _ s

/-- Whatever the replies, the result has this property. -/
def Returns (P : α → Prop) : OpProg O R α → Prop
  | .ret a => P a
  | .op _ k => ∀ r, (k r).Returns P

variable {P : α → Prop}

theorem Returns.exec {p : OpProg O R α} (h : p.Returns P) (replies : ℕ → R) :
    P (p.exec replies).1 := by
  induction p generalizing replies with
  | ret a => exact h
  | op o k ih => exact ih _ (h _) _

theorem Returns.runOn {σ : Type} {p : OpProg O R α} (h : p.Returns P) (step : σ → O → σ × R)
    (s : σ) : P (p.runOn step s).1 := by
  induction p generalizing s with
  | ret a => exact h
  | op o k ih => exact ih _ (h _) _

theorem returns_pure {a : α} (h : P a) : (pure a : OpProg O R α).Returns P := h

/-- The result of what follows is the result, whatever comes before it. -/
theorem returns_bind {Q : β → Prop} {p : OpProg O R α} {f : α → OpProg O R β}
    (hp : p.Returns P) (hf : ∀ a, P a → (f a).Returns Q) : (p >>= f).Returns Q := by
  change (p.bind f).Returns Q
  induction p with
  | ret a => exact hf a hp
  | op o k ih => exact fun r => ih r (hp r)

theorem returns_true (p : OpProg O R α) : p.Returns fun _ => True := by
  induction p with
  | ret a => trivial
  | op o k ih => exact ih

/-- A part whose result is ignored. -/
theorem returns_discard {Q : β → Prop} {p : OpProg O R α} {f : α → OpProg O R β}
    (hf : ∀ a, (f a).Returns Q) : (p >>= f).Returns Q :=
  returns_bind (returns_true p) fun a _ => hf a

-- the rules above are all a proof needs; unfolding would run the program
attribute [irreducible] Returns

/-- A program that starts with an operation performs it first. -/
theorem exec_starts {p : OpProg O R α} {o : O} {k : R → OpProg O R α} (h : p = .op o k)
    (replies : ℕ → R) : (p.exec replies).2[0]? = some o := by
  rw [h]
  rfl

/-- A program that runs only under a condition. -/
def onlyIf (c : Prop) [Decidable c] (p : OpProg O R Unit) : OpProg O R Unit :=
  if c then p else pure ()

/-- The program over other operations. -/
def mapOp {O' : Type} (f : O → O') : OpProg O R α → OpProg O' R α
  | .ret a => .ret a
  | .op o k => .op (f o) fun r => (k r).mapOp f

theorem runOn_mapOp {O' σ : Type} (f : O → O') (step : σ → O' → σ × R) (p : OpProg O R α) (s : σ) :
    (p.mapOp f).runOn step s = p.runOn (fun s o => step s (f o)) s := by
  induction p generalizing s with
  | ret a => rfl
  | op o k ih => exact ih _ _

/-! ### Two devices -/

/-- Every operation the program may perform, whatever the replies, is one of these. -/
def EachOp (Ok : O → Prop) : OpProg O R α → Prop
  | .ret _ => True
  | .op o k => Ok o ∧ ∀ r, (k r).EachOp Ok

variable {Ok : O → Prop}

theorem eachOp_pure (a : α) : (pure a : OpProg O R α).EachOp Ok := trivial

theorem eachOp_op {o : O} {k : R → OpProg O R α} :
    EachOp Ok (.op o k) ↔ Ok o ∧ ∀ r, (k r).EachOp Ok := Iff.rfl

theorem eachOp_perform {o : O} (h : Ok o) : (perform o : OpProg O R R).EachOp Ok :=
  ⟨h, fun _ => trivial⟩

theorem eachOp_bind {p : OpProg O R α} {f : α → OpProg O R β} (hp : p.EachOp Ok)
    (hf : ∀ a, (f a).EachOp Ok) : (p >>= f).EachOp Ok := by
  change (p.bind f).EachOp Ok
  induction p with
  | ret a => exact hf a
  | op o k ih => exact ⟨hp.1, fun r => ih r (hp.2 r)⟩

/-- What follows need perform these operations only after such results. -/
theorem eachOp_bind_of {p : OpProg O R α} {f : α → OpProg O R β} (hp : p.EachOp Ok)
    (hr : p.Returns P) (hf : ∀ a, P a → (f a).EachOp Ok) : (p >>= f).EachOp Ok := by
  change (p.bind f).EachOp Ok
  induction p with
  | ret a =>
    rw [Returns] at hr
    exact hf a hr
  | op o k ih =>
    rw [Returns] at hr
    exact ⟨hp.1, fun r => ih r (hp.2 r) (hr r)⟩

theorem eachOp_onlyIf {c : Prop} [Decidable c] {p : OpProg O R Unit} (hp : p.EachOp Ok) :
    (onlyIf c p).EachOp Ok := by
  rw [onlyIf]
  split_ifs
  · exact hp
  · trivial

theorem EachOp.mapOp {O' : Type} {Ok' : O' → Prop} {f : O → O'} (h : ∀ o, Ok o → Ok' (f o))
    {p : OpProg O R α} (hp : p.EachOp Ok) : (p.mapOp f).EachOp Ok' := by
  induction p with
  | ret a => trivial
  | op o k ih => exact ⟨h o hp.1, fun r => ih r (hp.2 r)⟩

theorem EachOp.mono {Ok' : O → Prop} (h : ∀ o, Ok o → Ok' o) {p : OpProg O R α}
    (hp : p.EachOp Ok) : p.EachOp Ok' := by
  induction p with
  | ret a => trivial
  | op o k ih => exact ⟨h o hp.1, fun r => ih r (hp.2 r)⟩

/-- What every operation of the program keeps, a run of it keeps. -/
theorem runOn_invariant {σ : Type} {step : σ → O → σ × R} {Inv : σ → Prop}
    (hstep : ∀ s o, Ok o → Inv s → Inv (step s o).1) {p : OpProg O R α} (hp : p.EachOp Ok) {s : σ}
    (h : Inv s) : Inv (p.runOn step s).2 := by
  induction p generalizing s with
  | ret a => exact h
  | op o k ih => exact ih _ (hp.2 _) (hstep s o hp.1 h)

/-- Every state a run goes through, the first and the last included, has this property. -/
def Always {σ : Type} (step : σ → O → σ × R) (Inv : σ → Prop) : OpProg O R α → σ → Prop
  | .ret _, s => Inv s
  | .op o k, s => Inv s ∧ (k (step s o).2).Always step Inv (step s o).1

theorem always_of_invariant {σ : Type} {step : σ → O → σ × R} {Inv : σ → Prop}
    (hstep : ∀ s o, Ok o → Inv s → Inv (step s o).1) {p : OpProg O R α} (hp : p.EachOp Ok) {s : σ}
    (h : Inv s) : p.Always step Inv s := by
  induction p generalizing s with
  | ret a => exact h
  | op o k ih => exact ⟨h, ih _ (hp.2 _) (hstep s o hp.1 h)⟩

theorem Always.mono {σ : Type} {step : σ → O → σ × R} {Inv Inv' : σ → Prop}
    (h : ∀ s, Inv s → Inv' s) {p : OpProg O R α} {s : σ} (hp : p.Always step Inv s) :
    p.Always step Inv' s := by
  induction p generalizing s with
  | ret a => exact h s hp
  | op o k ih => exact ⟨h s hp.1, ih _ hp.2⟩

/-- A device that simulates another one operation at a time simulates it under every
program. -/
theorem runOn_related {σ τ : Type} {step : σ → O → σ × R} {step' : τ → O → τ × R}
    {Rel : σ → τ → Prop}
    (hstep : ∀ s t o, Ok o → Rel s t → (step s o).2 = (step' t o).2 ∧
      Rel (step s o).1 (step' t o).1)
    {p : OpProg O R α} (hp : p.EachOp Ok) {s : σ} {t : τ} (h : Rel s t) :
    (p.runOn step s).1 = (p.runOn step' t).1 ∧ Rel (p.runOn step s).2 (p.runOn step' t).2 := by
  induction p generalizing s t with
  | ret a => exact ⟨rfl, h⟩
  | op o k ih =>
    obtain ⟨hreply, hrel⟩ := hstep s t o hp.1 h
    rw [runOn, runOn, hreply]
    exact ih _ (hp.2 _) hrel

attribute [irreducible] EachOp

/-! ### Properties of programs closed under their constructions -/

/-- A property of programs that sequences and loops have if their parts do. What follows a
part does not depend on its result; a loop may compute with the results. -/
structure Closed (P : ∀ α : Type, OpProg O R α → Prop) : Prop where
  pure : ∀ {α : Type} (a : α), P α (Pure.pure a)
  seq : ∀ {α β : Type} {p : OpProg O R α} {q : OpProg O R β}, P α p → P β q →
    P β (p >>= fun _ => q)
  fold : ∀ {α β ι : Type} {access : ι → OpProg O R α} (next : β → α → β), (∀ i, P α (access i)) →
    ∀ (l : List ι) (b : β), P β (l.foldlM (fun b i => do
      let a ← access i
      return next b a) b)

namespace Closed

variable {Q : ∀ α : Type, OpProg O R α → Prop} (c : Closed Q)
include c

theorem discard {p : OpProg O R α} (hp : Q α p) : Q Unit (Functor.discard p) :=
  c.seq hp (c.pure ())

theorem forM {ι : Type} {l : List ι} {body : ι → OpProg O R PUnit}
    (h : ∀ i ∈ l, Q PUnit (body i)) : Q PUnit (l.forM body) := by
  induction l with
  | nil => exact c.pure _
  | cons i l ih =>
    exact c.seq (h i List.mem_cons_self) (ih fun j hj => h j (List.mem_cons_of_mem i hj))

end Closed

theorem closed_eachOp : Closed fun _ (p : OpProg O R _) => p.EachOp Ok where
  pure := eachOp_pure
  seq hp hq := eachOp_bind hp fun _ => hq
  fold next h l := by
    induction l with
    | nil => exact eachOp_pure
    | cons i l ih => exact fun b => eachOp_bind (eachOp_bind (h i) fun _ => eachOp_pure _) ih

end OpProg

end OpenNos
