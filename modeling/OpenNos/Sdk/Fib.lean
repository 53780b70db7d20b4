import OpenNos.Sdk.NextHop

/-! The forwarding table of the chip as a relation between prefixes and next hops.
An added route becomes the only one of its prefix, a deleted one leaves its
prefix without any, and neither touches another prefix. -/

namespace OpenNos.Sdk

open Bits FirstFit

/-- A valid slot sends the prefix to next hop `n`. -/
def Asic.Forwards (a : Asic) (pfx : BitVec 32) (plen : ℤ) (n : ℕ) : Prop :=
  ∃ i < MAX_L3_DEFIP, ∃ nhop : BitVec 14,
    a.slot i = some (entryOf pfx plen nhop) ∧ nhop.toNat = n

/-- The prefix has a valid slot. -/
def Asic.Live (a : Asic) (pfx : BitVec 32) (plen : ℤ) : Prop :=
  ∃ i < MAX_L3_DEFIP, a.Names i pfx plen

variable {a a' : Asic} {pfx : BitVec 32} {plen : ℤ} {n : ℕ}

theorem live_iff : a.Live pfx plen ↔ ∃ n, a.Forwards pfx plen n := by
  constructor
  · rintro ⟨i, hi, nhop, hs⟩
    exact ⟨nhop.toNat, i, hi, nhop, hs, rfl⟩
  · rintro ⟨n, i, hi, nhop, hs, -⟩
    exact ⟨i, hi, nhop, hs⟩

theorem Asic.Forwards.live (h : a.Forwards pfx plen n) : a.Live pfx plen := live_iff.mpr ⟨n, h⟩

theorem forwards_of_slot (h : a'.slot = a.slot) : a'.Forwards = a.Forwards := by
  funext pfx plen n
  simp only [Asic.Forwards, h]

variable {s : SdkState}

/-- A route written to its own slot or a free one. -/
theorem forwards_withRoute {r : L3Route} {i : ℕ} (hi : i < MAX_L3_DEFIP)
    (hr : 0 ≤ r.prefixLen ∧ r.prefixLen ≤ 32)
    (huniq : ∀ j < MAX_L3_DEFIP, s.asic.Names j r.pfx r.prefixLen → j = i)
    (hslot : s.asic.Names i r.pfx r.prefixLen ∨ s.asic.slot i = none)
    (hl : 0 ≤ plen ∧ plen ≤ 32) :
    (s.withRoute i r).asic.Forwards pfx plen n ↔
      (pfx = r.pfx ∧ plen = r.prefixLen) ∧ n = (BitVec.ofInt 14 r.egressId).toNat ∨
      ¬ (pfx = r.pfx ∧ plen = r.prefixLen) ∧ s.asic.Forwards pfx plen n := by
  rw [Asic.Forwards, slot_withRoute]
  constructor
  · rintro ⟨j, hj, nhop, hs, rfl⟩
    by_cases hji : j = i
    · rw [hji, Function.update_self] at hs
      obtain ⟨rfl, rfl, rfl⟩ := entryOf_injective hr hl (Option.some.inj hs)
      exact .inl ⟨⟨rfl, rfl⟩, rfl⟩
    · rw [Function.update_of_ne hji] at hs
      refine .inr ⟨?_, j, hj, nhop, hs, rfl⟩
      rintro ⟨rfl, rfl⟩
      exact hji (huniq j hj ⟨nhop, hs⟩)
  · rintro (⟨⟨rfl, rfl⟩, rfl⟩ | ⟨hne, j, hj, nhop, hs, rfl⟩)
    · exact ⟨i, hi, _, Function.update_self .., rfl⟩
    · have hji : j ≠ i := by
        rintro rfl
        rcases hslot with ⟨nhop', hs'⟩ | hs'
        · rw [hs'] at hs
          obtain ⟨rfl, rfl, -⟩ := entryOf_injective hr hl (Option.some.inj hs)
          exact hne ⟨rfl, rfl⟩
        · rw [hs'] at hs
          cases hs
      exact ⟨j, hj, nhop, (Function.update_of_ne hji ..).trans hs, rfl⟩

/-- The slot of a prefix is cleared. -/
theorem RouteStore.forwards_withoutRoute (h : RouteStore s) {i : ℕ} (hi : i < MAX_L3_DEFIP)
    {pfx' : BitVec 32} {plen' : ℤ} (hl' : 0 ≤ plen' ∧ plen' ≤ 32)
    (hi' : s.asic.Names i pfx' plen') (hl : 0 ≤ plen ∧ plen ≤ 32) :
    (s.withoutRoute i).asic.Forwards pfx plen n ↔
      ¬ (pfx = pfx' ∧ plen = plen') ∧ s.asic.Forwards pfx plen n := by
  rw [Asic.Forwards, slot_withoutRoute]
  constructor
  · rintro ⟨j, hj, nhop, hs, rfl⟩
    have hji : j ≠ i := by
      rintro rfl
      rw [Function.update_self] at hs
      cases hs
    rw [Function.update_of_ne hji] at hs
    refine ⟨?_, j, hj, nhop, hs, rfl⟩
    rintro ⟨rfl, rfl⟩
    exact hji (h.names_unique hj hi hl ⟨nhop, hs⟩ hi')
  · rintro ⟨hne, j, hj, nhop, hs, rfl⟩
    have hji : j ≠ i := by
      rintro rfl
      obtain ⟨nhop', hs'⟩ := hi'
      rw [hs'] at hs
      obtain ⟨rfl, rfl, -⟩ := entryOf_injective hl' hl (Option.some.inj hs)
      exact hne ⟨rfl, rfl⟩
    exact ⟨j, hj, nhop, (Function.update_of_ne hji ..).trans hs, rfl⟩

end OpenNos.Sdk
