import Mathlib.Logic.Relation
import OpenNos.Lib.RegProg

/-! Programs over registers that others change in between. The rely is what the
others may do between two accesses of the program, the guarantee what each of its
own accesses does to the state. `Wp` is the precondition under which a program keeps
its guarantee and ends in its postcondition; it is stable under the rely, passes
through the program step by step, and two programs run side by side in every
interleaving in which each step leaves the other program's rely intact. -/

namespace OpenNos.RegProg

open Relation

/-- A machine as one of its users sees it: a read may leave a trace, too. -/
structure Agent (σ A V E : Type) extends Machine σ A V E where
  seen : σ → A → σ

variable {σ A V E E' α β : Type} (M : Agent σ A V E) (M' : Agent σ A V E')
  (R G C C' : σ → σ → Prop)

/-- The next access of a program. -/
def next : RegProg A V E α → σ → Option (RegProg A V E α × σ)
  | .ret _, _ => none
  | .read r k, s => some (k (M.read s r), M.seen s r)
  | .write r v k, s => some (k, M.write s r v)
  | .event e k, s => some (k, M.event s e)

/-- Others move between the accesses of one program. -/
inductive SoloStep : RegProg A V E α × σ → RegProg A V E α × σ → Prop
  | own {p p' s s'} (h : next M p s = some (p', s')) : SoloStep (p, s) (p', s')
  | others {p s s'} (h : R s s') : SoloStep (p, s) (p, s')

/-- Every run that comes to its end ends like this. -/
def Returns (p : RegProg A V E α) (s : σ) (Q : α → σ → Prop) : Prop :=
  ∀ a s', ReflTransGen (SoloStep M R) (p, s) (.ret a, s') → Q a s'

/-- A program that is left alone comes to its end. -/
theorem exists_run (p : RegProg A V E α) (s : σ) :
    ∃ a s', ReflTransGen (SoloStep M R) (p, s) (.ret a, s') := by
  induction p generalizing s with
  | ret a => exact ⟨a, s, .refl⟩
  | read r k ih =>
    obtain ⟨a, s', h⟩ := ih (M.read s r) (M.seen s r)
    exact ⟨a, s', .head (.own rfl) h⟩
  | write r v k ih =>
    obtain ⟨a, s', h⟩ := ih (M.write s r v)
    exact ⟨a, s', .head (.own rfl) h⟩
  | event e k ih =>
    obtain ⟨a, s', h⟩ := ih (M.event s e)
    exact ⟨a, s', .head (.own rfl) h⟩

/-- Two programs at work on one state. -/
abbrev Pair (σ A V E E' α β : Type) := RegProg A V E α × RegProg A V E' β × σ

/-- The steps of two programs, each under a condition of its own, and of a device. -/
inductive ParStep : Pair σ A V E E' α β → Pair σ A V E E' α β → Prop
  | left {p p' q s s'} (h : next M p s = some (p', s')) (hC : C s s') :
    ParStep (p, q, s) (p', q, s')
  | right {p q q' s s'} (h : next M' q s = some (q', s')) (hC : C' s s') :
    ParStep (p, q, s) (p, q', s')
  | device {p q s s'} (h : R s s') : ParStep (p, q, s) (p, q, s')

/-- The pairs that come up in some interleaving. -/
def Reaches (c c' : Pair σ A V E E' α β) : Prop := ReflTransGen (ParStep M M' R C C') c c'

/-- The pair after a schedule, `true` for a step of the first program. -/
def schedule : List Bool → Pair σ A V E E' α β → Option (Pair σ A V E E' α β)
  | [], c => some c
  | true :: turns, (p, q, s) => (next M p s).bind fun n => schedule turns (n.1, q, n.2)
  | false :: turns, (p, q, s) => (next M' q s).bind fun n => schedule turns (p, n.1, n.2)

/-- A schedule is one of the interleavings. -/
theorem reaches_of_schedule {turns : List Bool} {c c' : Pair σ A V E E' α β}
    (h : schedule M M' turns c = some c') :
    Reaches M M' R (fun _ _ => True) (fun _ _ => True) c c' := by
  induction turns generalizing c with
  | nil =>
    cases h
    exact .refl
  | cons turn turns ih =>
    obtain ⟨p, q, s⟩ := c
    cases turn with
    | false =>
      obtain ⟨n, hn, hrest⟩ := Option.bind_eq_some_iff.mp h
      exact .head (.right hn trivial) (ih hrest)
    | true =>
      obtain ⟨n, hn, hrest⟩ := Option.bind_eq_some_iff.mp h
      exact .head (.left hn trivial) (ih hrest)

def Stable (P : σ → Prop) : Prop := ∀ s s', P s → R s s' → P s'

variable {R} in
theorem Stable.trans {P : σ → Prop} (hP : Stable R P) {s s' : σ} (hs : P s)
    (hR : ReflTransGen R s s') : P s' := by
  induction hR with
  | refl => exact hs
  | tail _ h ih => exact hP _ _ ih h

/-- The weakest precondition under a rely and a guarantee. -/
def Wp (Q : α → σ → Prop) : RegProg A V E α → σ → Prop
  | .ret a, s => ∀ s', ReflTransGen R s s' → Q a s'
  | .read r k, s => ∀ s', ReflTransGen R s s' →
      G s' (M.seen s' r) ∧ Wp Q (k (M.read s' r)) (M.seen s' r)
  | .write r v k, s => ∀ s', ReflTransGen R s s' → G s' (M.write s' r v) ∧ Wp Q k (M.write s' r v)
  | .event e k, s => ∀ s', ReflTransGen R s s' → G s' (M.event s' e) ∧ Wp Q k (M.event s' e)

variable {M M' R G C C'} {Q : α → σ → Prop}

theorem Wp.others {p : RegProg A V E α} {s s' : σ} (h : Wp M R G Q p s)
    (hR : ReflTransGen R s s') : Wp M R G Q p s' := by
  cases p <;> exact fun t ht => h t (hR.trans ht)

theorem Wp.ret {a : α} {s : σ} (h : Wp M R G Q (.ret a) s) : Q a s := h s .refl

/-- The program's own step keeps the guarantee. -/
theorem Wp.next {p p' : RegProg A V E α} {s s' : σ} (h : Wp M R G Q p s)
    (hn : next M p s = some (p', s')) : G s s' ∧ Wp M R G Q p' s' := by
  cases p with
  | ret a => cases hn
  | read r k =>
    cases hn
    exact h s .refl
  | write r v k =>
    cases hn
    exact h s .refl
  | event e k =>
    cases hn
    exact h s .refl

/-! ### Runs -/

theorem Wp.solo {p p' : RegProg A V E α} {s s' : σ} (h : Wp M R G Q p s)
    (hrun : ReflTransGen (SoloStep M R) (p, s) (p', s')) : Wp M R G Q p' s' := by
  generalize hc : (p', s') = c at hrun
  induction hrun generalizing p' s' with
  | refl =>
    cases hc
    exact h
  | tail _ hstep ih =>
    cases hstep with
    | own hn =>
      cases hc
      exact ((ih rfl).next hn).2
    | others hR =>
      cases hc
      exact (ih rfl).others (.single hR)

theorem Wp.returns {p : RegProg A V E α} {s : σ} (h : Wp M R G Q p s) : Returns M R p s Q :=
  fun _ _ hrun => (h.solo hrun).ret

/-- Each program may rely on what the other guarantees in the steps that meet the
condition, and on the device. -/
theorem Wp.par {R' G' D : σ → σ → Prop} {Q' : β → σ → Prop}
    {p p' : RegProg A V E α} {q q' : RegProg A V E' β} {s s' : σ}
    (hp : Wp M R G Q p s) (hq : Wp M' R' G' Q' q s)
    (hD : ∀ s s', D s s' → R s s' ∧ R' s s')
    (hleft : ∀ s s', G s s' → C s s' → R' s s') (hright : ∀ s s', G' s s' → C' s s' → R s s')
    (hrun : Reaches M M' D C C' (p, q, s) (p', q', s')) :
    Wp M R G Q p' s' ∧ Wp M' R' G' Q' q' s' := by
  generalize hc : (p', q', s') = c at hrun
  induction hrun generalizing p' q' s' with
  | refl =>
    cases hc
    exact ⟨hp, hq⟩
  | tail _ hstep ih =>
    cases hstep with
    | left hn hC =>
      cases hc
      obtain ⟨hp', hq'⟩ := ih rfl
      obtain ⟨hG, hnext⟩ := hp'.next hn
      exact ⟨hnext, hq'.others (.single (hleft _ _ hG hC))⟩
    | right hn hC =>
      cases hc
      obtain ⟨hp', hq'⟩ := ih rfl
      obtain ⟨hG, hnext⟩ := hq'.next hn
      exact ⟨hp'.others (.single (hright _ _ hG hC)), hnext⟩
    | device hd =>
      cases hc
      obtain ⟨hp', hq'⟩ := ih rfl
      exact ⟨hp'.others (.single (hD _ _ hd).1), hq'.others (.single (hD _ _ hd).2)⟩

/-- What the device and the guaranteed steps that meet the condition keep holds
throughout. -/
theorem Wp.par_invariant {R' G' D : σ → σ → Prop} {Q' : β → σ → Prop} {P : σ → Prop}
    {p p' : RegProg A V E α} {q q' : RegProg A V E' β} {s s' : σ}
    (hp : Wp M R G Q p s) (hq : Wp M' R' G' Q' q s)
    (hD : ∀ s s', D s s' → R s s' ∧ R' s s')
    (hleft : ∀ s s', G s s' → C s s' → R' s s') (hright : ∀ s s', G' s s' → C' s s' → R s s')
    (hPD : Stable D P) (hPG : Stable G P) (hPG' : Stable G' P)
    (hrun : Reaches M M' D C C' (p, q, s) (p', q', s')) (hs : P s) : P s' := by
  generalize hc : (p', q', s') = c at hrun
  induction hrun generalizing p' q' s' with
  | refl =>
    cases hc
    exact hs
  | tail hrun hstep ih =>
    cases hstep with
    | left hn hC =>
      cases hc
      obtain ⟨hp', -⟩ := Wp.par hp hq hD hleft hright hrun
      exact hPG _ _ (ih rfl) (hp'.next hn).1
    | right hn hC =>
      cases hc
      obtain ⟨-, hq'⟩ := Wp.par hp hq hD hleft hright hrun
      exact hPG' _ _ (ih rfl) (hq'.next hn).1
    | device hd =>
      cases hc
      exact hPD _ _ (ih rfl) hd

/-! ### Rules -/

theorem wp_pure {a : α} (hQ : Stable R (Q a)) {s : σ} (h : Q a s) :
    Wp M R G Q (pure a : RegProg A V E α) s := fun _ hR => hQ.trans h hR

theorem wp_mono {Q' : α → σ → Prop} (hQ : ∀ a s, Q a s → Q' a s) {p : RegProg A V E α} {s : σ}
    (h : Wp M R G Q p s) : Wp M R G Q' p s := by
  induction p generalizing s with
  | ret a => exact fun t ht => hQ a t (h t ht)
  | read r k ih => exact fun t ht => ⟨(h t ht).1, ih _ (h t ht).2⟩
  | write r v k ih => exact fun t ht => ⟨(h t ht).1, ih (h t ht).2⟩
  | event e k ih => exact fun t ht => ⟨(h t ht).1, ih (h t ht).2⟩

theorem wp_bind {Q : β → σ → Prop} {p : RegProg A V E α} {f : α → RegProg A V E β} {s : σ}
    (h : Wp M R G (fun a => Wp M R G Q (f a)) p s) : Wp M R G Q (p >>= f) s := by
  change Wp M R G Q (p.bind f) s
  induction p generalizing s with
  | ret a => exact h s .refl
  | read r k ih => exact fun t ht => ⟨(h t ht).1, ih _ (h t ht).2⟩
  | write r v k ih => exact fun t ht => ⟨(h t ht).1, ih (h t ht).2⟩
  | event e k ih => exact fun t ht => ⟨(h t ht).1, ih (h t ht).2⟩

/-- A program that runs after one with a known outcome. -/
theorem wp_seq {Q : β → σ → Prop} {Q' : α → σ → Prop} {p : RegProg A V E α}
    {f : α → RegProg A V E β} {s : σ} (hp : Wp M R G Q' p s)
    (hf : ∀ a s, Q' a s → Wp M R G Q (f a) s) : Wp M R G Q (p >>= f) s :=
  wp_bind (wp_mono hf hp)

theorem wp_read {Q : V → σ → Prop} {P : σ → Prop} (hP : Stable R P) {r : A}
    (h : ∀ s, P s → G s (M.seen s r) ∧ Q (M.read s r) (M.seen s r)) (hQ : ∀ v, Stable R (Q v))
    {s : σ} (hs : P s) : Wp M R G Q (readReg r) s :=
  fun _ hR => ⟨(h _ (hP.trans hs hR)).1, wp_pure (hQ _) (h _ (hP.trans hs hR)).2⟩

theorem wp_write {Q : Unit → σ → Prop} {P : σ → Prop} (hP : Stable R P) {r : A} {v : V}
    (h : ∀ s, P s → G s (M.write s r v) ∧ Q () (M.write s r v)) (hQ : Stable R (Q ())) {s : σ}
    (hs : P s) : Wp M R G Q (writeReg r v) s :=
  fun _ hR => ⟨(h _ (hP.trans hs hR)).1, wp_pure hQ (h _ (hP.trans hs hR)).2⟩

theorem wp_mark {Q : Unit → σ → Prop} {P : σ → Prop} (hP : Stable R P) {e : E}
    (h : ∀ s, P s → G s (M.event s e) ∧ Q () (M.event s e)) (hQ : Stable R (Q ())) {s : σ}
    (hs : P s) : Wp M R G Q (mark e) s :=
  fun _ hR => ⟨(h _ (hP.trans hs hR)).1, wp_pure hQ (h _ (hP.trans hs hR)).2⟩

/-- An invariant that each of the program's accesses keeps. -/
theorem wp_of_eachWrite {S : A → V → Prop} {P : σ → Prop} (hP : Stable R P)
    (hwrite : ∀ s r v, P s → S r v → G s (M.write s r v) ∧ P (M.write s r v))
    (hseen : ∀ s r, P s → G s (M.seen s r) ∧ P (M.seen s r))
    (hevent : ∀ s e, P s → G s (M.event s e) ∧ P (M.event s e))
    {p : RegProg A V E α} (hp : EachWrite S p) {s : σ} (hs : P s) :
    Wp M R G (fun _ => P) p s := by
  induction p generalizing s with
  | ret a => exact fun _ hR => hP.trans hs hR
  | read r k ih =>
    intro t hR
    obtain ⟨hG, hP'⟩ := hseen t r (hP.trans hs hR)
    exact ⟨hG, ih _ (hp _) hP'⟩
  | write r v k ih =>
    intro t hR
    obtain ⟨hG, hP'⟩ := hwrite t r v (hP.trans hs hR) hp.1
    exact ⟨hG, ih hp.2 hP'⟩
  | event e k ih =>
    intro t hR
    obtain ⟨hG, hP'⟩ := hevent t e (hP.trans hs hR)
    exact ⟨hG, ih hp hP'⟩

/-! ### Runs without others -/

/-- The result and the last state of a run nobody disturbs. -/
def runAlone (M : Agent σ A V E) : RegProg A V E α → σ → α × σ
  | .ret a, s => (a, s)
  | .read r k, s => runAlone M (k (M.read s r)) (M.seen s r)
  | .write r v k, s => runAlone M k (M.write s r v)
  | .event e k, s => runAlone M k (M.event s e)

@[simp] theorem runAlone_pure (a : α) (s : σ) :
    runAlone M (pure a : RegProg A V E α) s = (a, s) := rfl

@[simp] theorem runAlone_readReg (r : A) (s : σ) :
    runAlone M (readReg r : RegProg A V E V) s = (M.read s r, M.seen s r) := rfl

@[simp] theorem runAlone_writeReg (r : A) (v : V) (s : σ) :
    runAlone M (writeReg r v : RegProg A V E Unit) s = ((), M.write s r v) := rfl

@[simp] theorem runAlone_mark (e : E) (s : σ) :
    runAlone M (mark e : RegProg A V E Unit) s = ((), M.event s e) := rfl

theorem runAlone_bind (p : RegProg A V E α) (f : α → RegProg A V E β) (s : σ) :
    runAlone M (p >>= f) s = runAlone M (f (runAlone M p s).1) (runAlone M p s).2 := by
  change runAlone M (p.bind f) s = _
  induction p generalizing s with
  | ret a => rfl
  | read r k ih => exact ih _ _
  | write r v k ih => exact ih _
  | event e k ih => exact ih _

theorem runAlone_map (f : α → β) (p : RegProg A V E α) (s : σ) :
    runAlone M (f <$> p) s = (f (runAlone M p s).1, (runAlone M p s).2) :=
  runAlone_bind p (fun a => pure (f a)) s

section Parts

variable {τ : Type} {part : σ → τ}

/-- What a program returns and does to a part of the state is a function of that part. -/
def ActsAs (M : Agent σ A V E) (part : σ → τ) (p : RegProg A V E α) (f : τ → α × τ) : Prop :=
  ∀ s, f (part s) = ((runAlone M p s).1, part (runAlone M p s).2)

theorem ActsAs.result {p : RegProg A V E α} {f : τ → α × τ} (h : ActsAs M part p f) (s : σ) :
    (runAlone M p s).1 = (f (part s)).1 := by rw [h s]

theorem ActsAs.state {p : RegProg A V E α} {f : τ → α × τ} (h : ActsAs M part p f) (s : σ) :
    part (runAlone M p s).2 = (f (part s)).2 := by rw [h s]

theorem actsAs_pure (a : α) :
    ActsAs M part (pure a : RegProg A V E α) (fun t => (a, t)) := fun _ => rfl

theorem ActsAs.bind {p : RegProg A V E α} {f : τ → α × τ} {q : α → RegProg A V E β}
    {g : α → τ → β × τ} (hp : ActsAs M part p f) (hq : ∀ a, ActsAs M part (q a) (g a)) :
    ActsAs M part (p >>= q) (fun t => g (f t).1 (f t).2) := by
  intro s
  rw [runAlone_bind, ← hq]
  simp only [hp s]

/-- A part of the part, where that is all the effect depends on. -/
theorem ActsAs.coarsen {ρ : Type} {p : RegProg A V E α} {f : τ → α × τ} {g : ρ → α × ρ}
    (h : ActsAs M part p f) (part' : τ → ρ)
    (hg : ∀ t, g (part' t) = ((f t).1, part' (f t).2)) :
    ActsAs M (fun s => part' (part s)) p g := by
  intro s
  rw [hg, h s]

end Parts

end OpenNos.RegProg
