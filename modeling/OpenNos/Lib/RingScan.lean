import Mathlib.Tactic

/-! A ring of slots that a producer fills in cyclic order and a scanner empties
as it goes round. The producer waits for its slot to be empty; the scanner looks
at one slot after the other and passes over the empty ones. What is taken is what
was put, in the same order, as long as the producer never fills the slot under
the scanner while older items wait elsewhere. -/

namespace OpenNos.RingScan

variable {α : Type*}

@[ext]
structure SlotRing (α : Type*) where
  slot : ℕ → Option α
  /-- the slot to be filled next -/
  head : ℕ
  /-- the slot to be looked at next -/
  pos : ℕ
  put : List α
  taken : List α

namespace SlotRing

/-- The producer fills its slot, if that is empty. -/
def fill (n : ℕ) (s : SlotRing α) (x : α) : SlotRing α :=
  match s.slot s.head with
  | none =>
    { s with
      slot := Function.update s.slot s.head (some x)
      head := (s.head + 1) % n
      put := s.put ++ [x] }
  | some _ => s

/-- The scanner looks at its slot, empties it and moves on. -/
def scan (n : ℕ) (s : SlotRing α) : SlotRing α :=
  match s.slot s.pos with
  | none => { s with pos := (s.pos + 1) % n }
  | some x =>
    { s with
      slot := Function.update s.slot s.pos none
      pos := (s.pos + 1) % n
      taken := s.taken ++ [x] }

/-- The slots that hold an item. -/
def waiting (n : ℕ) (s : SlotRing α) : Finset ℕ := {i ∈ Finset.range n | (s.slot i).isSome}

/-- Every item that was put has been taken or waits, and the items were taken in
the order they were put. -/
structure InOrder (n : ℕ) (s : SlotRing α) : Prop where
  ordered : s.taken <+: s.put
  once : s.taken.length + (s.waiting n).card = s.put.length

/-- The producer is about to fill the slot under the scanner while older items
wait. -/
def CatchesUp (n : ℕ) (s : SlotRing α) : Prop :=
  s.head = s.pos ∧ s.slot s.head = none ∧ (s.waiting n).Nonempty

/-- Item number `k` waits in slot `k % n` from the last one taken to the last one
put, and nothing else waits. -/
structure Window (n : ℕ) (s : SlotRing α) : Prop where
  head : s.head = s.put.length % n
  taken : s.taken = s.put.take s.taken.length
  fits : s.put.length ≤ s.taken.length + n
  holds : ∀ k, s.taken.length ≤ k → k < s.put.length → s.slot (k % n) = s.put[k]?
  only : ∀ i < n, s.slot i ≠ none → ∃ k, s.taken.length ≤ k ∧ k < s.put.length ∧ k % n = i

/-- The scanner comes round to the oldest item first. -/
def Ahead (n : ℕ) (s : SlotRing α) : Prop :=
  ∃ k, s.pos = k % n ∧ s.put.length ≤ k ∧ k ≤ s.taken.length + n

variable {n : ℕ} {s : SlotRing α}

/-- Less than one round apart, two numbers have different slots. -/
theorem mod_ne_of_lt {k l : ℕ} (hkl : k < l) (hl : l < k + n) : k % n ≠ l % n := by
  intro h
  have hdvd : n ∣ l - k := (Nat.modEq_iff_dvd' hkl.le).mp h
  exact absurd (Nat.le_of_dvd (by omega) hdvd) (by omega)

/-- Within one round only a whole round leads back to the slot. -/
theorem eq_add_of_mod_eq {k l : ℕ} (hkl : k < l) (hl : l ≤ k + n) (h : k % n = l % n) :
    l = k + n := by
  by_contra hne
  exact mod_ne_of_lt hkl (by omega) h

theorem Window.le (h : s.Window n) : s.taken.length ≤ s.put.length := by
  rw [h.taken]
  exact List.length_take_le' _ _

theorem Window.isSome (h : s.Window n) {k : ℕ} (hk : s.taken.length ≤ k) (hl : k < s.put.length) :
    s.slot (k % n) = some s.put[k] := by
  rw [h.holds k hk hl, List.getElem?_eq_getElem hl]

/-- The waiting slots are those of the items not yet taken. -/
theorem Window.waiting_eq (h : s.Window n) (hn : 0 < n) :
    s.waiting n = (Finset.Ico s.taken.length s.put.length).image (· % n) := by
  ext i
  simp only [waiting, Finset.mem_filter, Finset.mem_range, Finset.mem_image, Finset.mem_Ico]
  constructor
  · rintro ⟨hi, hs⟩
    obtain ⟨k, hk, hl, hki⟩ := h.only i hi (Option.isSome_iff_ne_none.mp hs)
    exact ⟨k, ⟨hk, hl⟩, hki⟩
  · rintro ⟨k, ⟨hk, hl⟩, rfl⟩
    exact ⟨Nat.mod_lt k hn, by rw [h.isSome hk hl, Option.isSome_some]⟩

theorem Window.card_waiting (h : s.Window n) (hn : 0 < n) :
    (s.waiting n).card = s.put.length - s.taken.length := by
  rw [h.waiting_eq hn, Finset.card_image_of_injOn, Nat.card_Ico]
  intro k hk l hl hmod
  have hfits := h.fits
  simp only [Finset.coe_Ico, Set.mem_Ico] at hk hl
  rcases lt_trichotomy k l with hlt | heq | hlt
  · exact absurd hmod (mod_ne_of_lt hlt (by omega))
  · exact heq
  · exact absurd hmod.symm (mod_ne_of_lt hlt (by omega))

theorem Window.inOrder (h : s.Window n) (hn : 0 < n) : s.InOrder n where
  ordered := by
    rw [h.taken]
    exact List.take_prefix _ _
  once := by
    have hle := h.le
    rw [h.card_waiting hn]
    omega

/-! ### The producer -/

theorem fill_of_none (h : s.slot s.head = none) (x : α) : s.fill n x =
    { s with
      slot := Function.update s.slot s.head (some x)
      head := (s.head + 1) % n
      put := s.put ++ [x] } := by
  rw [fill, h]

theorem fill_of_some {y : α} (h : s.slot s.head = some y) (x : α) : s.fill n x = s := by
  rw [fill, h]

/-- An empty slot at the head leaves room in the round. -/
theorem Window.lt_of_none (h : s.Window n) (hn : 0 < n) (hs : s.slot s.head = none) :
    s.put.length < s.taken.length + n := by
  by_contra hfull
  have heq : s.put.length = s.taken.length + n := le_antisymm h.fits (by omega)
  have hold := h.isSome (le_refl s.taken.length) (by omega)
  rw [h.head, heq, Nat.add_mod_right, hold] at hs
  cases hs

theorem Window.fill (h : s.Window n) (hn : 0 < n) (x : α) : (s.fill n x).Window n := by
  cases hs : s.slot s.head with
  | some y => rwa [fill_of_some hs]
  | none =>
    have hroom := h.lt_of_none hn hs
    have hle := h.le
    rw [fill_of_none hs]
    constructor
    · simp only [List.length_append, List.length_singleton, h.head, Nat.mod_add_mod]
    · simp only
      rw [List.take_append_of_le_length hle]
      exact h.taken
    · simp only [List.length_append, List.length_singleton]
      omega
    · intro k hk hl
      simp only [List.length_append, List.length_singleton] at hk hl ⊢
      rw [h.head]
      by_cases hlast : k = s.put.length
      · rw [hlast, Function.update_self, List.getElem?_concat_length]
      · rw [Function.update_of_ne (mod_ne_of_lt (by omega) (by omega)),
          List.getElem?_append_left (by omega)]
        exact h.holds k hk (by omega)
    · intro i hi hne
      simp only [List.length_append, List.length_singleton] at hne ⊢
      by_cases hih : i = s.head
      · exact ⟨s.put.length, hle, by omega, by rw [hih, h.head]⟩
      · rw [Function.update_of_ne hih] at hne
        obtain ⟨k, hk, hl, hki⟩ := h.only i hi hne
        exact ⟨k, hk, by omega, hki⟩

/-- A producer that does not catch up stays behind the scanner. -/
theorem Ahead.fill (h : s.Ahead n) (hw : s.Window n) (hn : 0 < n) (hc : ¬ s.CatchesUp n) (x : α) :
    (s.fill n x).Ahead n := by
  cases hs : s.slot s.head with
  | some y => rwa [fill_of_some hs]
  | none =>
    obtain ⟨k, hpos, hk, hkn⟩ := h
    rw [fill_of_none hs, Ahead]
    simp only [List.length_append, List.length_singleton]
    by_cases heq : k = s.put.length
    · -- the scanner is at the head: nothing waits, and the new item is a round ahead
      have hempty : ¬ (s.waiting n).Nonempty := fun hne =>
        hc ⟨by rw [hpos, hw.head, heq], hs, hne⟩
      have hcard := hw.card_waiting hn
      rw [Finset.not_nonempty_iff_eq_empty.mp hempty, Finset.card_empty] at hcard
      have hle := hw.le
      exact ⟨k + n, by rw [hpos, Nat.add_mod_right], by omega, by omega⟩
    · exact ⟨k, hpos, by omega, hkn⟩

/-! ### The scanner -/

theorem scan_of_none (h : s.slot s.pos = none) :
    s.scan n = { s with pos := (s.pos + 1) % n } := by
  rw [scan, h]

theorem scan_of_some {x : α} (h : s.slot s.pos = some x) : s.scan n =
    { s with
      slot := Function.update s.slot s.pos none
      pos := (s.pos + 1) % n
      taken := s.taken ++ [x] } := by
  rw [scan, h]

/-- The item under the scanner is the oldest. -/
theorem Window.oldest (h : s.Window n) (hn : 0 < n) (ha : s.Ahead n) {x : α}
    (hs : s.slot s.pos = some x) : s.pos = s.taken.length % n ∧
      s.put[s.taken.length]? = some x := by
  obtain ⟨k, hpos, hk, hkn⟩ := ha
  have hlt : s.pos < n := by rw [hpos]; exact Nat.mod_lt k hn
  obtain ⟨l, hl, hlp, hmod⟩ := h.only s.pos hlt (by rw [hs]; exact Option.some_ne_none x)
  have hround : k = l + n :=
    eq_add_of_mod_eq (by omega) (by omega) (by rw [hmod, hpos])
  obtain rfl : l = s.taken.length := by omega
  refine ⟨hmod.symm, ?_⟩
  rw [← h.holds _ hl hlp, hmod, hs]

theorem Window.scan (h : s.Window n) (hn : 0 < n) (ha : s.Ahead n) : (s.scan n).Window n := by
  cases hs : s.slot s.pos with
  | none =>
    rw [scan_of_none hs]
    exact ⟨h.head, h.taken, h.fits, h.holds, h.only⟩
  | some x =>
    obtain ⟨hpos, hx⟩ := h.oldest hn ha hs
    have hlt : s.taken.length < s.put.length := (List.getElem?_eq_some_iff.mp hx).1
    have hfits := h.fits
    rw [scan_of_some hs]
    constructor
    · exact h.head
    · simp only [List.length_append, List.length_singleton]
      rw [List.take_add_one, ← h.taken, hx]
      rfl
    · simp only [List.length_append, List.length_singleton]
      omega
    · intro k hk hl
      simp only [List.length_append, List.length_singleton] at hk hl ⊢
      have hne : s.taken.length % n ≠ k % n := mod_ne_of_lt (by omega) (by omega)
      rw [hpos, Function.update_of_ne hne.symm]
      exact h.holds k (by omega) hl
    · intro i hi hne
      simp only [List.length_append, List.length_singleton] at hne ⊢
      by_cases hip : i = s.pos
      · rw [hip, Function.update_self] at hne
        exact absurd rfl hne
      · rw [Function.update_of_ne hip] at hne
        obtain ⟨k, hk, hl, hki⟩ := h.only i hi hne
        refine ⟨k, ?_, hl, hki⟩
        by_contra hlow
        obtain rfl : k = s.taken.length := by omega
        exact hip (by rw [← hki, hpos])

theorem Ahead.scan (h : s.Ahead n) (hw : s.Window n) (hn : 0 < n) : (s.scan n).Ahead n := by
  obtain ⟨k, hpos, hk, hkn⟩ := h
  have hnext : (s.pos + 1) % n = (k + 1) % n := by rw [hpos, Nat.mod_add_mod]
  cases hs : s.slot s.pos with
  | none =>
    rw [scan_of_none hs]
    by_cases hend : k = s.taken.length + n
    · -- a full round with nothing under the scanner: nothing waits at all
      have hle := hw.le
      have hempty : s.put.length = s.taken.length := by
        by_contra hne
        have hold := hw.isSome (le_refl s.taken.length) (by omega)
        rw [hpos, hend, Nat.add_mod_right, hold] at hs
        cases hs
      refine ⟨s.taken.length + 1, ?_, by simp only; omega, by simp only; omega⟩
      simp only
      rw [hnext, hend, Nat.add_right_comm, Nat.add_mod_right]
    · exact ⟨k + 1, hnext, by simp only; omega, by simp only; omega⟩
  | some x =>
    rw [scan_of_some hs]
    refine ⟨k + 1, hnext, by simp only; omega, ?_⟩
    simp only [List.length_append, List.length_singleton]
    omega

end SlotRing

end OpenNos.RingScan
