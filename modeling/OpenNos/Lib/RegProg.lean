import Mathlib.Tactic

/-! Programs that drive a device through its registers. A program reads a
register and continues with the value, writes a register, or marks an event such
as taking a lock; between two accesses it computes freely. A machine gives the
accesses their effect. `exec` runs a program to its end, `trace` lists the
accesses of the run, and `AtWrite` speaks of the state every single write of the
run finds. -/

namespace OpenNos

/-- Programs over registers `A` with values `V` and events `E`. -/
inductive RegProg (A V E : Type) (α : Type)
  | ret (a : α)
  | read (r : A) (k : V → RegProg A V E α)
  | write (r : A) (v : V) (k : RegProg A V E α)
  | event (e : E) (k : RegProg A V E α)

/-- What the accesses do to the machine's state. -/
structure Machine (σ A V E : Type) where
  read : σ → A → V
  write : σ → A → V → σ
  event : σ → E → σ

namespace RegProg

variable {σ A V E α β : Type}

def bind : RegProg A V E α → (α → RegProg A V E β) → RegProg A V E β
  | .ret a, f => f a
  | .read r k, f => .read r fun v => (k v).bind f
  | .write r v k, f => .write r v (k.bind f)
  | .event e k, f => .event e (k.bind f)

instance : Monad (RegProg A V E) where
  pure := .ret
  bind := .bind

theorem bind_ret (p : RegProg A V E α) : p.bind .ret = p := by
  induction p with
  | ret a => rfl
  | read r k ih => exact congrArg (RegProg.read r) (funext ih)
  | write r v k ih => exact congrArg (RegProg.write r v) ih
  | event e k ih => exact congrArg (RegProg.event e) ih

theorem bind_bind {γ : Type} (p : RegProg A V E α) (f : α → RegProg A V E β)
    (g : β → RegProg A V E γ) : (p.bind f).bind g = p.bind fun a => (f a).bind g := by
  induction p with
  | ret a => rfl
  | read r k ih => exact congrArg (RegProg.read r) (funext ih)
  | write r v k ih => exact congrArg (RegProg.write r v) ih
  | event e k ih => exact congrArg (RegProg.event e) ih

/-- Not an instance everywhere: the rules for single runs take a program bind by bind, and
`simp` would turn some binds into maps. -/
theorem lawfulMonad : LawfulMonad (RegProg A V E) :=
  LawfulMonad.mk' _ bind_ret (fun _ _ => rfl) bind_bind

/-- The result and the final state of an undisturbed run. -/
def exec (M : Machine σ A V E) : RegProg A V E α → σ → α × σ
  | .ret a, s => (a, s)
  | .read r k, s => exec M (k (M.read s r)) s
  | .write r v k, s => exec M k (M.write s r v)
  | .event e k, s => exec M k (M.event s e)

/-- Every write of the run finds a state in which `Q` holds of the register and
the value about to be written. -/
def AtWrite (M : Machine σ A V E) (Q : A → V → σ → Prop) : RegProg A V E α → σ → Prop
  | .ret _, _ => True
  | .read r k, s => AtWrite M Q (k (M.read s r)) s
  | .write r v k, s => Q r v s ∧ AtWrite M Q k (M.write s r v)
  | .event e k, s => AtWrite M Q k (M.event s e)

variable (M : Machine σ A V E) (Q : A → V → σ → Prop)

@[simp] theorem exec_pure (a : α) (s : σ) :
    exec M (pure a : RegProg A V E α) s = (a, s) := rfl

@[simp] theorem atWrite_pure (a : α) (s : σ) :
    AtWrite M Q (pure a : RegProg A V E α) s ↔ True := Iff.rfl

theorem exec_bind (p : RegProg A V E α) (f : α → RegProg A V E β) (s : σ) :
    exec M (p >>= f) s = exec M (f (exec M p s).1) (exec M p s).2 := by
  change exec M (p.bind f) s = _
  induction p generalizing s with
  | ret a => rfl
  | read r k ih => exact ih _ s
  | write r v k ih => exact ih _
  | event e k ih => exact ih _

theorem atWrite_bind (p : RegProg A V E α) (f : α → RegProg A V E β) (s : σ) :
    AtWrite M Q (p >>= f) s ↔
      AtWrite M Q p s ∧ AtWrite M Q (f (exec M p s).1) (exec M p s).2 := by
  change AtWrite M Q (p.bind f) s ↔ _
  induction p generalizing s with
  | ret a => exact (iff_of_eq (true_and _)).symm
  | read r k ih => exact ih _ s
  | write r v k ih => exact (and_congr_right fun _ => ih _).trans and_assoc.symm
  | event e k ih => exact ih _

/-- A property of the writes that does not depend on the state they find. -/
def EachWrite (R : A → V → Prop) : RegProg A V E α → Prop
  | .ret _ => True
  | .read _ k => ∀ v, EachWrite R (k v)
  | .write r v k => R r v ∧ EachWrite R k
  | .event _ k => EachWrite R k

@[simp] theorem eachWrite_pure (R : A → V → Prop) (a : α) :
    EachWrite R (pure a : RegProg A V E α) ↔ True := Iff.rfl

theorem eachWrite_bind {R : A → V → Prop} {p : RegProg A V E α} {f : α → RegProg A V E β}
    (hp : EachWrite R p) (hf : ∀ a, EachWrite R (f a)) : EachWrite R (p >>= f) := by
  change EachWrite R (p.bind f)
  induction p with
  | ret a => exact hf a
  | read r k ih => exact fun v => ih v (hp v)
  | write r v k ih => exact ⟨hp.1, ih hp.2⟩
  | event e k ih => exact ih hp

variable {M Q} in
theorem atWrite_of_eachWrite {R : A → V → Prop} {p : RegProg A V E α} (hp : EachWrite R p)
    (hQ : ∀ r v s, R r v → Q r v s) (s : σ) : AtWrite M Q p s := by
  induction p generalizing s with
  | ret a => trivial
  | read r k ih => exact ih _ (hp _) s
  | write r v k ih => exact ⟨hQ r v s hp.1, ih hp.2 _⟩
  | event e k ih => exact ih hp _

/-- Every write and every event of the program, whatever it reads, is one of these. -/
def Only (R : A → V → Prop) (T : E → Prop) : RegProg A V E α → Prop
  | .ret _ => True
  | .read _ k => ∀ v, Only R T (k v)
  | .write r v k => R r v ∧ Only R T k
  | .event e k => T e ∧ Only R T k

/-- What these writes and events keep holds after each write and at the end. -/
theorem Only.invariant {R : A → V → Prop} {T : E → Prop} {I : σ → Prop}
    (hwrite : ∀ r v s, R r v → I s → I (M.write s r v))
    (hevent : ∀ s e, T e → I s → I (M.event s e)) {p : RegProg A V E α} (hp : Only R T p)
    {s : σ} (hs : I s) :
    AtWrite M (fun r v s => I (M.write s r v)) p s ∧ I (exec M p s).2 := by
  induction p generalizing s with
  | ret a => exact ⟨trivial, hs⟩
  | read r k ih => exact ih _ (hp _) hs
  | write r v k ih =>
    have hnext := hwrite r v s hp.1 hs
    exact ⟨⟨hnext, (ih hp.2 hnext).1⟩, (ih hp.2 hnext).2⟩
  | event e k ih => exact ih hp.2 (hevent s e hp.1 hs)

variable {M Q} in
theorem AtWrite.mono {Q' : A → V → σ → Prop} (h : ∀ r v s, Q r v s → Q' r v s)
    {p : RegProg A V E α} {s : σ} (hp : AtWrite M Q p s) : AtWrite M Q' p s := by
  induction p generalizing s with
  | ret a => trivial
  | read r k ih => exact ih _ hp
  | write r v k ih => exact ⟨h r v s hp.1, ih hp.2⟩
  | event e k ih => exact ih hp

/-! ### The accesses of a run -/

/-- One register access. -/
inductive Access (A V : Type)
  | read (r : A)
  | write (r : A) (v : V)
  deriving DecidableEq

def Access.reg : Access A V → A
  | .read r => r
  | .write r _ => r

/-- The accesses of an undisturbed run, in order. -/
def trace (M : Machine σ A V E) : RegProg A V E α → σ → List (Access A V)
  | .ret _, _ => []
  | .read r k, s => .read r :: trace M (k (M.read s r)) s
  | .write r v k, s => .write r v :: trace M k (M.write s r v)
  | .event e k, s => trace M k (M.event s e)

@[simp] theorem trace_pure (a : α) (s : σ) : trace M (pure a : RegProg A V E α) s = [] := rfl

theorem trace_bind (p : RegProg A V E α) (f : α → RegProg A V E β) (s : σ) :
    trace M (p >>= f) s = trace M p s ++ trace M (f (exec M p s).1) (exec M p s).2 := by
  change trace M (p.bind f) s = _
  induction p generalizing s with
  | ret a => rfl
  | read r k ih => exact congrArg _ (ih _ s)
  | write r v k ih => exact congrArg _ (ih _)
  | event e k ih => exact ih _

/-- A property of the accesses that does not depend on the state. -/
def EachAccess (R : Access A V → Prop) : RegProg A V E α → Prop
  | .ret _ => True
  | .read r k => R (.read r) ∧ ∀ v, EachAccess R (k v)
  | .write r v k => R (.write r v) ∧ EachAccess R k
  | .event _ k => EachAccess R k

@[simp] theorem eachAccess_pure (R : Access A V → Prop) (a : α) :
    EachAccess R (pure a : RegProg A V E α) ↔ True := Iff.rfl

theorem eachAccess_bind {R : Access A V → Prop} {p : RegProg A V E α} {f : α → RegProg A V E β}
    (hp : EachAccess R p) (hf : ∀ a, EachAccess R (f a)) : EachAccess R (p >>= f) := by
  change EachAccess R (p.bind f)
  induction p with
  | ret a => exact hf a
  | read r k ih => exact ⟨hp.1, fun v => ih v (hp.2 v)⟩
  | write r v k ih => exact ⟨hp.1, ih hp.2⟩
  | event e k ih => exact ih hp

variable {M} in
theorem mem_trace_of_eachAccess {R : Access A V → Prop} {p : RegProg A V E α}
    (hp : EachAccess R p) (s : σ) : ∀ a ∈ trace M p s, R a := by
  induction p generalizing s with
  | ret a => exact fun _ h => absurd h List.not_mem_nil
  | read r k ih => exact List.forall_mem_cons.mpr ⟨hp.1, ih _ (hp.2 _) s⟩
  | write r v k ih => exact List.forall_mem_cons.mpr ⟨hp.1, ih hp.2 _⟩
  | event e k ih => exact ih hp _

/-- A program that runs only under a condition. -/
def onlyIf (c : Prop) [Decidable c] (p : RegProg A V E Unit) : RegProg A V E Unit :=
  if c then p else pure ()

theorem eachAccess_onlyIf {R : Access A V → Prop} {c : Prop} [Decidable c]
    {p : RegProg A V E Unit} (hp : EachAccess R p) : EachAccess R (onlyIf c p) := by
  unfold onlyIf
  split_ifs
  · exact hp
  · trivial

theorem eachWrite_onlyIf {R : A → V → Prop} {c : Prop} [Decidable c] {p : RegProg A V E Unit}
    (hp : EachWrite R p) : EachWrite R (onlyIf c p) := by
  unfold onlyIf
  split_ifs
  · exact hp
  · trivial

/-! ### Single accesses -/

def readReg (r : A) : RegProg A V E V := .read r .ret

def writeReg (r : A) (v : V) : RegProg A V E Unit := .write r v (.ret ())

def mark (e : E) : RegProg A V E Unit := .event e (.ret ())

@[simp] theorem exec_readReg (r : A) (s : σ) : exec M (readReg r) s = (M.read s r, s) := rfl

@[simp] theorem exec_writeReg (r : A) (v : V) (s : σ) :
    exec M (writeReg r v) s = ((), M.write s r v) := rfl

@[simp] theorem exec_mark (e : E) (s : σ) : exec M (mark e) s = ((), M.event s e) := rfl

@[simp] theorem trace_readReg (r : A) (s : σ) : trace M (readReg r) s = [.read r] := rfl

@[simp] theorem trace_writeReg (r : A) (v : V) (s : σ) :
    trace M (writeReg r v) s = [.write r v] := rfl

@[simp] theorem trace_mark (e : E) (s : σ) : trace M (mark e) s = [] := rfl

@[simp] theorem eachAccess_readReg (R : Access A V → Prop) (r : A) :
    EachAccess R (readReg (E := E) r) ↔ R (.read r) := by simp [EachAccess, readReg]

@[simp] theorem eachAccess_writeReg (R : Access A V → Prop) (r : A) (v : V) :
    EachAccess R (writeReg (E := E) r v) ↔ R (.write r v) := iff_of_eq (and_true _)

@[simp] theorem eachAccess_mark (R : Access A V → Prop) (e : E) :
    EachAccess R (mark (A := A) (V := V) e) ↔ True := Iff.rfl

@[simp] theorem atWrite_readReg (r : A) (s : σ) :
    AtWrite M Q (readReg r) s ↔ True := Iff.rfl

@[simp] theorem atWrite_writeReg (r : A) (v : V) (s : σ) :
    AtWrite M Q (writeReg r v) s ↔ Q r v s := iff_of_eq (and_true _)

@[simp] theorem atWrite_mark (e : E) (s : σ) : AtWrite M Q (mark e) s ↔ True := Iff.rfl

@[simp] theorem eachWrite_readReg (R : A → V → Prop) (r : A) :
    EachWrite R (readReg (E := E) r) ↔ True := by simp [EachWrite, readReg]

@[simp] theorem eachWrite_writeReg (R : A → V → Prop) (r : A) (v : V) :
    EachWrite R (writeReg (E := E) r v) ↔ R r v := iff_of_eq (and_true _)

@[simp] theorem eachWrite_mark (R : A → V → Prop) (e : E) :
    EachWrite R (mark (A := A) (V := V) e) ↔ True := Iff.rfl

end RegProg

end OpenNos
