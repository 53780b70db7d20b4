import Mathlib.Tactic

/-! The error numbers C functions return, negated, and the result of a call that
either fails with one of them or succeeds with a value. -/

namespace OpenNos

inductive Errno
  | eperm | enoent | eintr | eio | enomem | efault | enodev | einval | enospc | enotty
  | enotsup | etimedout
  deriving DecidableEq, Repr

/-- The number, as the Linux headers of the target define it. -/
def Errno.code : Errno → ℤ
  | .eperm => 1
  | .enoent => 2
  | .eintr => 4
  | .eio => 5
  | .enomem => 12
  | .efault => 14
  | .enodev => 19
  | .einval => 22
  | .enospc => 28
  | .enotty => 25
  | .enotsup => 95
  | .etimedout => 110

/-- The result of a call: an error, or the value it stores through its output
pointer when it returns 0. -/
abbrev Rc (α : Type) := Except Errno α

instance decidableEqExcept {ε α : Type*} [DecidableEq ε] [DecidableEq α] :
    DecidableEq (Except ε α)
  | .error e, .error e' => decidable_of_iff (e = e') ⟨congrArg _, Except.error.inj⟩
  | .ok a, .ok a' => decidable_of_iff (a = a') ⟨congrArg _, Except.ok.inj⟩
  | .error _, .ok _ => .isFalse (fun h => by cases h)
  | .ok _, .error _ => .isFalse (fun h => by cases h)

end OpenNos
