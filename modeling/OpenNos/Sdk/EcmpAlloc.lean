import OpenNos.Sdk.EcmpGroups

/-! The two allocators of `ecmp.c` as searches: the slots of a group are the first window
of the table that is free, the id is a free one from the last one given out on, and
neither search fails while there is anything to find. -/

namespace OpenNos.Sdk

open FirstFit WindowFit

/-- What `alloc_ecmp_slots` finds and marks. -/
structure SlotsFirstFit (s : EcmpState) (count : ℤ) : Prop where
  found : ∀ s' base, allocEcmpSlots s count = some (s', base) →
    (base + count.toNat ≤ L3_ECMP_ENTRIES ∧ Free s.ecmpUsed base count.toNat) ∧
      ∀ b < base, ¬ Free s.ecmpUsed b count.toNat
  marked : ∀ s' base, allocEcmpSlots s count = some (s', base) →
    (∀ i, s'.ecmpUsed i = true ↔
      s.ecmpUsed i = true ∨ (base ≤ i ∧ i < base + count.toNat)) ∧
      s' = { s with ecmpUsed := s'.ecmpUsed }
  refused : allocEcmpSlots s count = none ↔
    ∀ b, b + count.toNat ≤ L3_ECMP_ENTRIES → ¬ Free s.ecmpUsed b count.toNat
  /-- the bases a busy slot makes the search pass over -/
  skipped : ∀ base i, findFirst (fun j => s.ecmpUsed (base + j)) 0 count.toNat = some i →
    ∀ b, base ≤ b → b ≤ base + i → ¬ Free s.ecmpUsed b count.toNat

/-- What `alloc_group_id` finds and marks. -/
structure GroupIdFound (s : EcmpState) : Prop where
  found : ∀ s' g, allocGroupId s = some (s', g) →
    (1 ≤ g ∧ g ≤ 1023) ∧ s.ecmpGroupUsed g = false
  marked : ∀ s' g, allocGroupId s = some (s', g) →
    (∀ i, s'.ecmpGroupUsed i = true ↔ s.ecmpGroupUsed i = true ∨ i = g) ∧
      s' = { s with ecmpGroupUsed := s'.ecmpGroupUsed, nextGroupId := s'.nextGroupId } ∧
      NextInRange s'
  refused : allocGroupId s = none ↔ ∀ g, 1 ≤ g → g ≤ 1023 → s.ecmpGroupUsed g = true

variable {s : EcmpState} {count : ℤ}

theorem slotBase_lowest {base : ℕ} (hcount : 0 < count ∧ count ≤ L3_ECMP_ENTRIES)
    (h : allocEcmpSlots s count = some ({ s with
      ecmpUsed := setRange s.ecmpUsed base count.toNat true }, base)) {b : ℕ} (hb : b < base) :
    ¬ Free s.ecmpUsed b count.toNat := by
  rw [allocEcmpSlots, if_neg (by omega)] at h
  obtain ⟨c, hc, heq⟩ := Option.map_eq_some_iff.mp h
  obtain rfl : c = base := congrArg Prod.snd heq
  exact findWindow_lowest (by omega) hc (Nat.zero_le b) hb

theorem allocEcmpSlots_firstFit (s : EcmpState) (hcount : 0 < count ∧ count ≤ L3_ECMP_ENTRIES) :
    SlotsFirstFit s count := by
  have hskip : ∀ base i, findFirst (fun j => s.ecmpUsed (base + j)) 0 count.toNat = some i →
      ∀ b, base ≤ b → b ≤ base + i → ¬ Free s.ecmpUsed b count.toNat := by
    intro base i hi b hb hle
    obtain ⟨⟨-, hlt⟩, hused, -⟩ := findFirst_eq_some_iff.mp hi
    exact not_free_of_taken hused hlt hb hle
  rcases allocEcmpSlots_cases s hcount with ⟨hnone, hfull⟩ | ⟨base, hfit, hfree, -, halloc⟩
  · exact ⟨fun _ _ h => (nomatch hnone.symm.trans h), fun _ _ h => (nomatch hnone.symm.trans h),
      iff_of_true hnone hfull, hskip⟩
  · refine ⟨fun s' b h => ?_, fun s' b h => ?_, ?_, hskip⟩
    · rw [halloc] at h
      obtain ⟨rfl, rfl⟩ := Prod.mk.inj (Option.some.inj h)
      exact ⟨⟨hfit, hfree⟩, fun b hb => slotBase_lowest hcount halloc hb⟩
    · rw [halloc] at h
      obtain ⟨rfl, rfl⟩ := Prod.mk.inj (Option.some.inj h)
      refine ⟨fun i => ?_, rfl⟩
      by_cases hi : base ≤ i ∧ i < base + count.toNat
      · simp only [setRange_of_mem true hi, hi, and_self, or_true]
      · simp only [setRange_of_not_mem true hi, hi, or_false]
    · refine iff_of_false (by rw [halloc]; nofun) fun hnone => ?_
      exact hnone base hfit hfree

theorem allocGroupId_found (h : NextInRange s) : GroupIdFound s := by
  have hlast : L3_ECMP_GROUP_ENTRIES = 1023 + 1 := rfl
  rcases allocGroupId_cases h with ⟨hnone, hfull⟩ | ⟨id, ⟨hpos, hlt⟩, hfree, halloc⟩
  · exact ⟨fun _ _ h => (nomatch hnone.symm.trans h), fun _ _ h => (nomatch hnone.symm.trans h),
      iff_of_true hnone fun g hg hle => hfull g hg (by omega)⟩
  · refine ⟨fun s' g h => ?_, fun s' g h => ?_, ?_⟩
    · rw [halloc] at h
      obtain ⟨rfl, rfl⟩ := Prod.mk.inj (Option.some.inj h)
      exact ⟨by omega, hfree⟩
    · rw [halloc] at h
      obtain ⟨rfl, rfl⟩ := Prod.mk.inj (Option.some.inj h)
      refine ⟨fun i => ?_, rfl, Nat.succ_pos _, hlt⟩
      by_cases hi : i = id
      · simp [hi]
      · simp [hi]
    · refine iff_of_false (by rw [halloc]; nofun) fun hused => ?_
      rw [hused id hpos (by omega)] at hfree
      cases hfree

/-- Both allocators find what there is, and mark what they find. -/
theorem ecmpAlloc_firstFit (s : EcmpState) (hnext : NextInRange s)
    (hcount : 1 ≤ count ∧ count ≤ L3_ECMP_ENTRIES) : SlotsFirstFit s count ∧ GroupIdFound s :=
  ⟨allocEcmpSlots_firstFit s ⟨by omega, hcount.2⟩, allocGroupId_found hnext⟩

/-- Slots 0 to 3 and 10 to 11 are busy, and every group id but one. -/
def busyTables : EcmpState where
  asic := Asic.blank
  ecmpUsed i := decide (i < 4 ∨ i = 10 ∨ i = 11)
  ecmpGroupUsed g := decide (g ≠ 700)
  nextGroupId := 701

/-- A window of 16 slots and an id, in tables that are partly busy. -/
theorem ecmpAlloc_firstFit_busy : SlotsFirstFit busyTables 16 ∧ GroupIdFound busyTables :=
  ecmpAlloc_firstFit busyTables ⟨by decide, by decide⟩ (by decide)

end OpenNos.Sdk
