import OpenNos.Lib.FirstFit
import OpenNos.Lib.History
import OpenNos.Sdk.L2User

/-! The calls that take and give back entries of the L2 user table. VALID in the
table is the only record of what is in use: an add reads the entries from the
first on, passes over those it cannot read, and writes to the first one it saw
free. Whatever reads and writes fail, no history of calls overwrites an entry in
use. -/

namespace OpenNos.Sdk

open Bits FirstFit History

/-- The scan of `bcm56846_l2_user_entry_add` over the entries still to be read. -/
def l2UserScan (a : Asic) (words : Words) : List ℕ → Asic × Rc ℕ
  | [] => (a, .error .enospc)
  | i :: rest =>
    match a.memRead L2_USER_ENTRY_BASE i with
    | (a, none) => l2UserScan a words rest
    | (a, some readBack) =>
      if readBack 0 &&& 1 = 0 then
        match a.memWrite L2_USER_ENTRY_BASE i words L2_USER_ENTRY_WORDS with
        | (a, true) => (a, .ok i)
        | (a, false) => (a, .error .eio)
      else l2UserScan a words rest

/-- No address is the null pointer. -/
def l2UserEntryAdd (a : Asic) (addr : Option L2UserAddr) : Asic × Rc ℕ :=
  match addr with
  | none => (a, .error .einval)
  | some addr => l2UserScan a (l2UserPack addr) (List.range L2_USER_ENTRY_COUNT)

/-- Returns what `sbus_mem_write` returns, -1 when it fails. -/
def l2UserEntryDelete (a : Asic) (index : ℤ) : Asic × Rc Unit :=
  if index < 0 ∨ (L2_USER_ENTRY_COUNT : ℤ) ≤ index then (a, .error .einval)
  else
    match a.memWrite L2_USER_ENTRY_BASE index.toNat (fun _ => 0#32) L2_USER_ENTRY_WORDS with
    | (a, true) => (a, .ok ())
    | (a, false) => (a, .error .eperm)

inductive L2UserCall
  | add (addr : Option L2UserAddr)
  | delete (index : ℤ)

def L2UserCall.step (a : Asic) : L2UserCall → Asic
  | .add addr => (l2UserEntryAdd a addr).1
  | .delete index => (l2UserEntryDelete a index).1

/-- The entry is in use. -/
def Asic.l2UserUsed (a : Asic) (i : ℕ) : Bool := l2UserValid (a.mem L2_USER_ENTRY_BASE i)

/-- A scan starting now reads entry `i` with its operation `i`: the read succeeds
and shows VALID=0. -/
def Asic.ShowsFree (a : Asic) (i : ℕ) : Prop := a.fault i = false ∧ a.l2UserUsed i = false

/-- What an add does, failing or not. -/
structure L2UserAddSound (a : Asic) (addr : Option L2UserAddr) : Prop where
  keepsUsed : ∀ i, a.l2UserUsed i = true →
    (l2UserEntryAdd a addr).1.mem L2_USER_ENTRY_BASE i = a.mem L2_USER_ENTRY_BASE i
  lowest : ∀ i, (l2UserEntryAdd a addr).2 = .ok i →
    i < L2_USER_ENTRY_COUNT ∧ a.ShowsFree i ∧ ∀ j < i, ¬ a.ShowsFree j
  writes : ∀ i, (l2UserEntryAdd a addr).2 = .ok i → ∃ x, addr = some x ∧
    (l2UserEntryAdd a addr).1.Holds L2_USER_ENTRY_BASE i L2_USER_ENTRY_WORDS (l2UserPack x)
  keepsOthers : ∀ i, (l2UserEntryAdd a addr).2 = .ok i →
    ∀ base' i', base' ≠ L2_USER_ENTRY_BASE ∨ i' ≠ i →
      (l2UserEntryAdd a addr).1.mem base' i' = a.mem base' i'
  full : (l2UserEntryAdd a addr).2 = .error .enospc →
    ∀ i < L2_USER_ENTRY_COUNT, ¬ a.ShowsFree i
  failed : ∀ e, (l2UserEntryAdd a addr).2 = .error e → (l2UserEntryAdd a addr).1.mem = a.mem

/-- What a delete does, failing or not. -/
structure L2UserDeleteSound (a : Asic) (index : ℤ) : Prop where
  clears : (l2UserEntryDelete a index).2 = .ok () →
    (0 ≤ index ∧ index < (L2_USER_ENTRY_COUNT : ℤ)) ∧
      (l2UserEntryDelete a index).1.Holds L2_USER_ENTRY_BASE index.toNat L2_USER_ENTRY_WORDS
        (fun _ => 0#32)
  keepsOthers : ∀ base' (i' : ℕ), base' ≠ L2_USER_ENTRY_BASE ∨ (i' : ℤ) ≠ index →
    (l2UserEntryDelete a index).1.mem base' i' = a.mem base' i'
  failed : ∀ e, (l2UserEntryDelete a index).2 = .error e →
    (l2UserEntryDelete a index).1.mem = a.mem

def L2UserCall.Sound (a : Asic) : L2UserCall → Prop
  | .add addr => L2UserAddSound a addr
  | .delete index => L2UserDeleteSound a index

variable {a : Asic}

/-! ### The scan -/

/-- Read `k` of a scan from entry `lo` on fails or shows an entry in use. -/
def Asic.passesOver (a : Asic) (lo k : ℕ) : Bool := a.fault k || a.l2UserUsed (lo + k)

theorem passesOver_eq_false_iff {k : ℕ} : a.passesOver 0 k = false ↔ a.ShowsFree k := by
  rw [Asic.passesOver, Asic.ShowsFree, Bool.or_eq_false_iff, Nat.zero_add]

theorem l2UserValid_eq_false_iff (words : Words) :
    l2UserValid words = false ↔ words 0 &&& 1 = 0 := by
  constructor
  · intro h
    apply BitVec.eq_of_getLsbD_eq
    intro i _
    rw [BitVec.getLsbD_and, show (1 : BitVec 32) = 1#32 from rfl, BitVec.getLsbD_one]
    by_cases hi : i = 0
    · subst hi
      rw [show (words 0).getLsbD 0 = false from h]
      rfl
    · simp [hi]
  · intro h
    have hbit := congrArg (fun x => x.getLsbD 0) h
    simpa [l2UserValid, bit] using hbit

theorem l2UserScan_of_passesOver {lo : ℕ} (h : a.passesOver lo 0 = true) (words : Words)
    (rest : List ℕ) : l2UserScan a words (lo :: rest) = l2UserScan a.tick words rest := by
  rw [l2UserScan, Asic.memRead]
  cases hf : a.fault 0 with
  | true => rfl
  | false =>
    have hused : l2UserValid (a.mem L2_USER_ENTRY_BASE lo) = true := by
      simpa [Asic.passesOver, hf, Asic.l2UserUsed] using h
    have hne : ¬ a.mem L2_USER_ENTRY_BASE lo 0 &&& 1 = 0 := by
      rw [← l2UserValid_eq_false_iff, hused]
      decide
    simp only [Bool.false_eq_true, if_false, if_neg hne]

theorem l2UserScan_of_free {lo : ℕ} (h : a.passesOver lo 0 = false) (words : Words)
    (rest : List ℕ) : l2UserScan a words (lo :: rest) =
      match a.tick.memWrite L2_USER_ENTRY_BASE lo words L2_USER_ENTRY_WORDS with
      | (a, true) => (a, .ok lo)
      | (a, false) => (a, .error .eio) := by
  rw [Asic.passesOver, Bool.or_eq_false_iff] at h
  have hfree : a.mem L2_USER_ENTRY_BASE lo 0 &&& 1 = 0 := (l2UserValid_eq_false_iff _).mp h.2
  rw [l2UserScan, Asic.memRead]
  simp only [h.1, Bool.false_eq_true, if_false, if_pos hfree]

/-- The scan stops at the first entry it does not pass over and writes there. -/
theorem l2UserScan_spec (a : Asic) (words : Words) (lo n : ℕ) :
    match firstFree (a.passesOver lo) 0 n with
    | none => (l2UserScan a words (List.range' lo n)).2 = .error .enospc ∧
        (l2UserScan a words (List.range' lo n)).1.mem = a.mem
    | some k =>
      if a.fault (k + 1) then (l2UserScan a words (List.range' lo n)).2 = .error .eio ∧
        (l2UserScan a words (List.range' lo n)).1.mem = a.mem
      else (l2UserScan a words (List.range' lo n)).2 = .ok (lo + k) ∧
        (l2UserScan a words (List.range' lo n)).1.mem =
          (a.store L2_USER_ENTRY_BASE (lo + k) words L2_USER_ENTRY_WORDS).mem := by
  induction n generalizing a lo with
  | zero => exact ⟨rfl, rfl⟩
  | succ n ih =>
    rw [List.range'_succ]
    cases hp : a.passesOver lo 0 with
    | false =>
      rw [l2UserScan_of_free hp, firstFree_of_low le_rfl (by omega) (fun j _ hj => by omega) hp]
      cases hf : a.fault 1 with
      | true =>
        rw [Asic.memWrite_of_fault hf]
        simp only [Nat.zero_add, hf, if_true]
        exact ⟨trivial, rfl⟩
      | false =>
        rw [Asic.memWrite_of_not_fault hf]
        simp only [Nat.zero_add, hf, Bool.false_eq_true, if_false, Nat.add_zero]
        exact ⟨trivial, rfl⟩
    | true =>
      have hrest := ih a.tick (lo + 1)
      have hshift : a.tick.passesOver (lo + 1) = fun i => a.passesOver lo (i + 1) := by
        funext i
        rw [Asic.passesOver, Asic.passesOver, show lo + 1 + i = lo + (i + 1) by omega]
        rfl
      rw [l2UserScan_of_passesOver hp, firstFree_succ hp, ← hshift]
      cases hk : firstFree (a.tick.passesOver (lo + 1)) 0 n with
      | none =>
        rw [hk] at hrest
        exact hrest
      | some k =>
        rw [hk] at hrest
        simp only [Option.map_some]
        rw [show lo + (k + 1) = lo + 1 + k by omega]
        exact hrest

/-! ### The calls -/

/-- What an add returns and leaves, by the entry its scan stops at. -/
theorem l2UserEntryAdd_spec (a : Asic) (x : L2UserAddr) :
    match firstFree (a.passesOver 0) 0 L2_USER_ENTRY_COUNT with
    | none => (l2UserEntryAdd a (some x)).2 = .error .enospc ∧
        (l2UserEntryAdd a (some x)).1.mem = a.mem
    | some k =>
      if a.fault (k + 1) then (l2UserEntryAdd a (some x)).2 = .error .eio ∧
        (l2UserEntryAdd a (some x)).1.mem = a.mem
      else (l2UserEntryAdd a (some x)).2 = .ok k ∧ (l2UserEntryAdd a (some x)).1.mem =
        (a.store L2_USER_ENTRY_BASE k (l2UserPack x) L2_USER_ENTRY_WORDS).mem := by
  have h := l2UserScan_spec a (l2UserPack x) 0 L2_USER_ENTRY_COUNT
  rw [← List.range_eq_range'] at h
  simp only [Nat.zero_add] at h
  simp only [l2UserEntryAdd]
  exact h

/-- A call that leaves the table alone is sound when it returns an error that it may. -/
theorem l2UserAddSound_of_failed {addr : Option L2UserAddr} {e : Errno}
    (hrc : (l2UserEntryAdd a addr).2 = .error e) (hmem : (l2UserEntryAdd a addr).1.mem = a.mem)
    (hfull : e = .enospc → ∀ i < L2_USER_ENTRY_COUNT, ¬ a.ShowsFree i) :
    L2UserAddSound a addr where
  keepsUsed i _ := by rw [hmem]
  lowest i h := by rw [hrc] at h; cases h
  writes i h := by rw [hrc] at h; cases h
  keepsOthers i h := by rw [hrc] at h; cases h
  full h := by
    rw [hrc] at h
    exact hfull (Except.error.inj h)
  failed _ _ := hmem

theorem l2UserAddSound_of_stored {x : L2UserAddr} {k : ℕ}
    (hk : firstFree (a.passesOver 0) 0 L2_USER_ENTRY_COUNT = some k)
    (hrc : (l2UserEntryAdd a (some x)).2 = .ok k)
    (hmem : (l2UserEntryAdd a (some x)).1.mem =
      (a.store L2_USER_ENTRY_BASE k (l2UserPack x) L2_USER_ENTRY_WORDS).mem) :
    L2UserAddSound a (some x) := by
  obtain ⟨hr, hfree, hlow⟩ := firstFree_eq_some_iff.mp hk
  have hshows : a.ShowsFree k := passesOver_eq_false_iff.mp hfree
  have hothers : ∀ base' i', base' ≠ L2_USER_ENTRY_BASE ∨ i' ≠ k →
      (l2UserEntryAdd a (some x)).1.mem base' i' = a.mem base' i' := by
    intro base' i' hne
    rw [hmem, Asic.store_mem_of_ne _ _ hne]
  have hindex (i : ℕ) (h : (l2UserEntryAdd a (some x)).2 = .ok i) : i = k := by
    rw [hrc] at h
    exact (Except.ok.inj h).symm
  exact {
    keepsUsed := fun i hi => hothers _ i (.inr fun he => by
      rw [he, hshows.2] at hi
      cases hi)
    lowest := fun i h => by
      obtain rfl := hindex i h
      refine ⟨hr.2, hshows, fun j hj hs => ?_⟩
      have hover := hlow j (Nat.zero_le j) hj
      rw [passesOver_eq_false_iff.mpr hs] at hover
      cases hover
    writes := fun i h => by
      obtain rfl := hindex i h
      refine ⟨x, rfl, fun j hj => ?_⟩
      rw [hmem]
      exact Asic.holds_store_self _ _ _ _ j hj
    keepsOthers := fun i h => by
      obtain rfl := hindex i h
      exact hothers
    full := fun h => by
      rw [hrc] at h
      cases h
    failed := fun e h => by
      rw [hrc] at h
      cases h }

theorem l2UserEntryAdd_sound (a : Asic) (addr : Option L2UserAddr) : L2UserAddSound a addr := by
  cases addr with
  | none => exact l2UserAddSound_of_failed rfl rfl fun h => by cases h
  | some x =>
    have h := l2UserEntryAdd_spec a x
    cases hk : firstFree (a.passesOver 0) 0 L2_USER_ENTRY_COUNT with
    | none =>
      rw [hk] at h
      refine l2UserAddSound_of_failed h.1 h.2 fun _ i hi hs => ?_
      have hover := firstFree_eq_none_iff.mp hk i (Nat.zero_le i) hi
      rw [passesOver_eq_false_iff.mpr hs] at hover
      cases hover
    | some k =>
      rw [hk] at h
      dsimp only at h
      cases hf : a.fault (k + 1) with
      | true =>
        rw [if_pos hf] at h
        exact l2UserAddSound_of_failed h.1 h.2 fun he => by cases he
      | false =>
        rw [if_neg (by simp [hf])] at h
        exact l2UserAddSound_of_stored hk h.1 h.2

theorem l2UserEntryDelete_sound (a : Asic) (index : ℤ) : L2UserDeleteSound a index := by
  by_cases hr : index < 0 ∨ (L2_USER_ENTRY_COUNT : ℤ) ≤ index
  · have he : l2UserEntryDelete a index = (a, .error .einval) := if_pos hr
    exact {
      clears := fun h => by rw [he] at h; cases h
      keepsOthers := fun _ _ _ => by rw [he]
      failed := fun _ _ => by rw [he] }
  · cases hf : a.fault 0 with
    | true =>
      have he : l2UserEntryDelete a index = (a.tick, .error .eperm) := by
        rw [l2UserEntryDelete, if_neg hr, Asic.memWrite_of_fault hf]
      exact {
        clears := fun h => by rw [he] at h; cases h
        keepsOthers := fun _ _ _ => by rw [he, Asic.tick_mem]
        failed := fun _ _ => by rw [he, Asic.tick_mem] }
    | false =>
      have he : l2UserEntryDelete a index = (a.tick.store L2_USER_ENTRY_BASE index.toNat
          (fun _ => 0#32) L2_USER_ENTRY_WORDS, .ok ()) := by
        rw [l2UserEntryDelete, if_neg hr, Asic.memWrite_of_not_fault hf]
      exact {
        clears := fun _ => by
          rw [he]
          exact ⟨by omega, Asic.holds_store_self _ _ _ _⟩
        keepsOthers := fun base' i' hne => by
          rw [he, Asic.store_mem_of_ne _ _ (hne.imp_right fun h => by omega), Asic.tick_mem]
        failed := fun e h => by rw [he] at h; cases h }

theorem L2UserCall.sound (a : Asic) (c : L2UserCall) : c.Sound a := by
  cases c with
  | add addr => exact l2UserEntryAdd_sound a addr
  | delete index => exact l2UserEntryDelete_sound a index

/-- An entry in use is touched by nothing but its own delete. -/
theorem L2UserCall.step_keeps {i : ℕ} (hused : a.l2UserUsed i = true) {c : L2UserCall}
    (hc : c ≠ .delete i) : (c.step a).mem L2_USER_ENTRY_BASE i = a.mem L2_USER_ENTRY_BASE i := by
  cases c with
  | add addr => exact (l2UserEntryAdd_sound a addr).keepsUsed i hused
  | delete index =>
    exact (l2UserEntryDelete_sound a index).keepsOthers _ i (.inr fun h => hc (by rw [h]))

/-! ### Histories -/

/-- Every call of every history is sound, from any table and whatever accesses
fail; and an entry in use keeps its words until a call deletes it. -/
theorem l2User_history_sound (a : Asic) (calls : List L2UserCall) :
    EachStep L2UserCall.step (fun a c => c.Sound a) a calls ∧
      ∀ i : ℕ, a.l2UserUsed i = true → (∀ c ∈ calls, c ≠ .delete i) →
        (run L2UserCall.step a calls).mem L2_USER_ENTRY_BASE i = a.mem L2_USER_ENTRY_BASE i := by
  constructor
  · exact eachStep_of_forall (fun s c => c.sound s) a calls
  · intro i hused hcalls
    have hkeep (s : Asic) (c : L2UserCall)
        (hs : s.mem L2_USER_ENTRY_BASE i = a.mem L2_USER_ENTRY_BASE i) (hc : c ≠ .delete i) :
        (c.step s).mem L2_USER_ENTRY_BASE i = a.mem L2_USER_ENTRY_BASE i :=
      (L2UserCall.step_keeps (by rwa [Asic.l2UserUsed, hs]) hc).trans hs
    have hall : Throughout L2UserCall.step
        (fun s => s.mem L2_USER_ENTRY_BASE i = a.mem L2_USER_ENTRY_BASE i) a calls :=
      throughout_of_eachStep hkeep rfl (eachStep_iff_forall.mpr hcalls)
    exact hall.final

end OpenNos.Sdk
