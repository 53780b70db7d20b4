import Mathlib.Tactic

/-! The books of what a program has taken from its environment and not yet given back:
memory, mappings, descriptors, registrations. Giving back what is not held spoils the books
for good. A program is in order when its books are clean and hold, of each thing, exactly
as many as its state has a use for. -/

namespace OpenNos

structure Ledger (ρ : Type*) where
  held : ρ → ℕ
  clean : Bool

namespace Ledger

variable {ρ : Type*} [DecidableEq ρ]

def blank : Ledger ρ := ⟨fun _ => 0, true⟩

def take (l : Ledger ρ) (r : ρ) : Ledger ρ :=
  { l with held := Function.update l.held r (l.held r + 1) }

def give (l : Ledger ρ) (r : ρ) : Ledger ρ :=
  if l.held r = 0 then { l with clean := false }
  else { l with held := Function.update l.held r (l.held r - 1) }

def takeAll (l : Ledger ρ) (rs : List ρ) : Ledger ρ := rs.foldl take l

def giveAll (l : Ledger ρ) (rs : List ρ) : Ledger ρ := rs.foldl give l

variable {l : Ledger ρ} {r s : ρ} {rs : List ρ}

/-- What was just taken and is given back has never been there. -/
@[simp] theorem give_take (l : Ledger ρ) (r : ρ) : (l.take r).give r = l := by
  rw [give, take, if_neg (by simp)]
  simp

theorem takeAll_cons : l.takeAll (r :: rs) = (l.take r).takeAll rs := rfl

theorem giveAll_cons : l.giveAll (r :: rs) = (l.give r).giveAll rs := rfl

theorem take_held (l : Ledger ρ) (r s : ρ) :
    (l.take r).held s = l.held s + if r = s then 1 else 0 := by
  simp only [take, Function.update_apply]
  by_cases h : r = s
  · rw [if_pos h.symm, if_pos h, h]
  · rw [if_neg (Ne.symm h), if_neg h, Nat.add_zero]

theorem give_of_held (h : l.held r ≠ 0) (s : ρ) :
    (l.give r).clean = l.clean ∧ (l.give r).held s + (if r = s then 1 else 0) = l.held s := by
  rw [give, if_neg h]
  refine ⟨rfl, ?_⟩
  simp only [Function.update_apply]
  by_cases hs : r = s
  · subst hs
    rw [if_pos rfl, if_pos rfl]
    omega
  · rw [if_neg (Ne.symm hs), if_neg hs, Nat.add_zero]

theorem takeAll_clean (l : Ledger ρ) (rs : List ρ) : (l.takeAll rs).clean = l.clean := by
  induction rs generalizing l with
  | nil => rfl
  | cons r rs ih => rw [takeAll_cons, ih, take]

theorem takeAll_held (l : Ledger ρ) (rs : List ρ) (s : ρ) :
    (l.takeAll rs).held s = l.held s + rs.count s := by
  induction rs generalizing l with
  | nil => rfl
  | cons r rs ih =>
    rw [takeAll_cons, ih, take_held, List.count_cons, Nat.add_assoc]
    congr 1
    rw [Nat.add_comm]
    simp only [beq_iff_eq]

/-- Things that are held can be given back, each as often as it is held. -/
theorem giveAll_of_held (h : ∀ s, rs.count s ≤ l.held s) :
    (l.giveAll rs).clean = l.clean ∧ ∀ s, (l.giveAll rs).held s + rs.count s = l.held s := by
  induction rs generalizing l with
  | nil => exact ⟨rfl, fun s => rfl⟩
  | cons r rs ih =>
    have hr : l.held r ≠ 0 := by
      have hcount := h r
      rw [List.count_cons_self] at hcount
      omega
    have hcons (s : ρ) : (r :: rs).count s = rs.count s + if r = s then 1 else 0 := by
      rw [List.count_cons]
      simp only [beq_iff_eq]
    obtain ⟨hclean, hheld⟩ := ih (l := l.give r) fun s => by
      have hs := (give_of_held hr s).2
      have hcount := h s
      rw [hcons] at hcount
      omega
    refine ⟨hclean.trans (give_of_held hr r).1, fun s => ?_⟩
    rw [giveAll_cons, hcons, ← Nat.add_assoc, hheld s]
    exact (give_of_held hr s).2

/-- Clean books that hold what is owned. -/
structure Balanced (l : Ledger ρ) (owned : ρ → ℕ) : Prop where
  clean : l.clean = true
  held : ∀ r, l.held r = owned r

variable {owned owned' : ρ → ℕ}

theorem Balanced.takeAll (h : l.Balanced owned) (hown : ∀ r, owned' r = owned r + rs.count r) :
    (l.takeAll rs).Balanced owned' where
  clean := by rw [takeAll_clean, h.clean]
  held r := by rw [takeAll_held, h.held, hown]

theorem Balanced.giveAll (h : l.Balanced owned) (hown : ∀ r, owned r = owned' r + rs.count r) :
    (l.giveAll rs).Balanced owned' := by
  have hcount (s : ρ) : rs.count s ≤ l.held s := by
    rw [h.held, hown]
    exact Nat.le_add_left _ _
  obtain ⟨hclean, hheld⟩ := giveAll_of_held hcount
  refine ⟨hclean.trans h.clean, fun r => ?_⟩
  have hr := hheld r
  rw [h.held, hown] at hr
  omega

end Ledger

end OpenNos
