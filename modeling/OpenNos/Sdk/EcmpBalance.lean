import OpenNos.Sdk.EcmpGroups

/-! The member slots of ECMP groups over create and destroy. A create marks the
slots it gives to the group; a destroy knows only the id and leaves the slots
marked, so the marks count the live groups' slots as long as no live group is
destroyed. -/

namespace OpenNos.Sdk

open FirstFit WindowFit History Registry

/-- The slots of the group under an id. -/
def groupSize (g : Option EcmpGroup) : ℕ := (g.map (·.count)).getD 0

/-- The slots of all live groups. -/
def liveSlots (groups : ℕ → Option EcmpGroup) : ℕ :=
  ∑ id ∈ Finset.range L3_ECMP_GROUP_ENTRIES, groupSize (groups id)

/-- As many slots are marked as the live groups have. With no group left, all slots
are free and a create of an accepted size finds room. -/
structure EcmpBalanced (t : EcmpLog) : Prop where
  balance : (marked t.sdk.ecmpUsed L3_ECMP_ENTRIES).card = liveSlots t.groups
  drained : (∀ id, t.groups id = none) → ∀ i < L3_ECMP_ENTRIES, t.sdk.ecmpUsed i = false
  room : (∀ id, t.groups id = none) → ∀ egressIds count, 0 < count → count ≤ 1023 →
    (l3EcmpCreate t.sdk egressIds count).2 ≠ .error .enospc

/-- No live group is destroyed. -/
def KeepsGroups (t : EcmpLog) : EcmpCall → Prop
  | .create _ _ => True
  | .destroy ecmpId => t.groups ecmpId.toNat = none

/-- The groups are in place, an id is marked only for a live group, and the marks of
the slots add up. -/
structure BalanceInv (t : EcmpLog) : Prop where
  sound : GroupsSound t
  live : ∀ id, t.sdk.ecmpGroupUsed id = true → t.groups id ≠ none
  balance : (marked t.sdk.ecmpUsed L3_ECMP_ENTRIES).card = liveSlots t.groups

variable {t : EcmpLog}

/-! ### Sums over the live groups -/

/-- The slots apart from those of one group. -/
theorem liveSlots_update (groups : ℕ → Option EcmpGroup) {id : ℕ}
    (hid : id < L3_ECMP_GROUP_ENTRIES) (g : Option EcmpGroup) :
    liveSlots (Function.update groups id g) + groupSize (groups id) =
      liveSlots groups + groupSize g := by
  have hmem : id ∈ Finset.range L3_ECMP_GROUP_ENTRIES := Finset.mem_range.mpr hid
  have hrest : ∑ k ∈ (Finset.range L3_ECMP_GROUP_ENTRIES).erase id,
      groupSize (Function.update groups id g k) =
        ∑ k ∈ (Finset.range L3_ECMP_GROUP_ENTRIES).erase id, groupSize (groups k) := by
    apply Finset.sum_congr rfl
    intro k hk
    rw [Function.update_of_ne (Finset.ne_of_mem_erase hk)]
  rw [liveSlots, liveSlots, ← Finset.add_sum_erase _ _ hmem, hrest, Function.update_self,
    ← Finset.add_sum_erase _ (fun k => groupSize (groups k)) hmem]
  omega

theorem liveSlots_of_none {groups : ℕ → Option EcmpGroup} (h : ∀ id, groups id = none) :
    liveSlots groups = 0 := by
  apply Finset.sum_eq_zero
  intro id _
  rw [h id]
  rfl

/-! ### One call -/

theorem BalanceInv.init (a : Asic) : BalanceInv (EcmpLog.init a) where
  sound := GroupsSound.init a
  live := nofun
  balance := by
    have hnone : liveSlots (EcmpLog.init a).groups = 0 := liveSlots_of_none fun _ => rfl
    rw [hnone]
    simp [marked, EcmpLog.init, EcmpState.init]

theorem BalanceInv.drained (h : BalanceInv t) (hnone : ∀ id, t.groups id = none) :
    ∀ i < L3_ECMP_ENTRIES, t.sdk.ecmpUsed i = false := by
  intro i hi
  have hempty := h.balance
  rw [liveSlots_of_none hnone, Finset.card_eq_zero] at hempty
  by_contra hused
  rw [Bool.not_eq_false] at hused
  have hmem : i ∈ marked t.sdk.ecmpUsed L3_ECMP_ENTRIES :=
    Finset.mem_filter.mpr ⟨Finset.mem_range.mpr hi, hused⟩
  rw [hempty] at hmem
  exact absurd hmem (Finset.notMem_empty i)

/-- With no live group, ids and slots are free. -/
theorem BalanceInv.room (h : BalanceInv t) (hnone : ∀ id, t.groups id = none)
    (egressIds : ℕ → ℤ) {count : ℤ} (hpos : 0 < count) (hmax : count ≤ 1023) :
    (l3EcmpCreate t.sdk egressIds count).2 ≠ .error .enospc := by
  rcases l3EcmpCreate_cases h.sound.next egressIds count with
    ⟨id, base, a, -, heq⟩ | ⟨a, next, e, hno, heq⟩
  · rw [heq]
    exact nofun
  · rw [heq]
    intro he
    cases he
    rcases hno.full rfl with hids | ⟨-, hslots⟩
    · exact h.live 1 (hids 1 (by decide) (by decide)) (hnone 1)
    · have hfit : 0 + count.toNat ≤ L3_ECMP_ENTRIES := by
        rw [L3_ECMP_ENTRIES]
        omega
      exact hslots 0 hfit fun i hi => h.drained hnone _ (by omega)

theorem BalanceInv.balanced (h : BalanceInv t) : EcmpBalanced t where
  balance := h.balance
  drained := h.drained
  room := fun hnone egressIds _ hpos hmax => h.room hnone egressIds hpos hmax

/-- A create marks the slots of the group it makes live. -/
theorem BalanceInv.create (h : BalanceInv t) (egressIds : ℕ → ℤ) (count : ℤ) :
    BalanceInv (t.step (.create egressIds count)) := by
  have hsound := (h.sound.step (.create egressIds count)).1
  rcases l3EcmpCreate_cases h.sound.next egressIds count with
    ⟨id, base, a, hnew, heq⟩ | ⟨a, next, e, hno, heq⟩
  · simp only [EcmpLog.step, heq] at hsound ⊢
    refine ⟨hsound, ?_, ?_⟩
    · intro k hk
      by_cases hid : k = id
      · simp [hid]
      · simp only [Function.update_of_ne hid] at hk ⊢
        exact h.live k hk
    · have hsum := liveSlots_update t.groups hnew.range.2
        (some { basePtr := slotBase t.sdk count, count := count.toNat, egressIds := egressIds })
      rw [h.sound.groups.not_live hnew.unused] at hsum
      rw [card_marked_setRange hnew.fits hnew.free, h.balance]
      simpa [groupSize] using hsum.symm
  · simp only [EcmpLog.step, heq] at hsound ⊢
    exact ⟨hsound, h.live, h.balance⟩

/-- A destroy of an id that is not live does nothing to the marks of the slots. -/
theorem BalanceInv.destroy (h : BalanceInv t) {ecmpId : ℤ}
    (hnone : t.groups ecmpId.toNat = none) : BalanceInv (t.step (.destroy ecmpId)) := by
  have hsound := (h.sound.step (.destroy ecmpId)).1
  rcases l3EcmpDestroy_cases t.sdk ecmpId with ⟨a, -, heq⟩ | ⟨-, e, heq⟩
  · simp only [EcmpLog.step, heq] at hsound ⊢
    have hgroups : Function.update t.groups ecmpId.toNat none = t.groups := by
      rw [← hnone, Function.update_eq_self]
    rw [hgroups] at hsound ⊢
    refine ⟨hsound, ?_, h.balance⟩
    intro k hk
    by_cases hid : k = ecmpId.toNat
    · simp [hid] at hk
    · simp only [Function.update_of_ne hid] at hk
      exact h.live k hk
  · simp only [EcmpLog.step, heq] at hsound ⊢
    exact ⟨hsound, h.live, h.balance⟩

/-- A destroy of a live group leaves its slots marked for nobody. -/
theorem BalanceInv.not_balanced (h : BalanceInv t) {ecmpId : ℤ}
    (hlive : t.groups ecmpId.toNat ≠ none) : ¬ EcmpBalanced (t.step (.destroy ecmpId)) := by
  intro hbal
  obtain ⟨g, hg⟩ := Option.ne_none_iff_exists'.mp hlive
  have hrange := h.sound.groups.range _ hlive
  have hsize := (h.sound.groups.holds _ g hg).size.1
  have hsum := liveSlots_update t.groups hrange.2 none
  rw [hg] at hsum
  rcases l3EcmpDestroy_cases t.sdk ecmpId with ⟨a, -, heq⟩ | ⟨hout, -⟩
  · have hmarks := hbal.balance
    simp only [EcmpLog.step, heq] at hmarks
    rw [h.balance] at hmarks
    simp only [groupSize, Option.map_some, Option.map_none, Option.getD_some,
      Option.getD_none] at hsum
    omega
  · omega

/-- The slots stay in balance through exactly the histories that destroy no live
group. -/
theorem ecmpBalanced_iff_keepsGroups (a : Asic) (calls : List EcmpCall) :
    Throughout EcmpLog.step EcmpBalanced (EcmpLog.init a) calls ↔
      EachStep EcmpLog.step KeepsGroups (EcmpLog.init a) calls := by
  have holds (t : EcmpLog) (h : BalanceInv t) : EcmpBalanced t := h.balanced
  have keep (t : EcmpLog) (c : EcmpCall) (h : BalanceInv t) (hc : KeepsGroups t c) :
      BalanceInv (t.step c) := by
    cases c with
    | create egressIds count => exact h.create egressIds count
    | destroy ecmpId => exact h.destroy hc
  have breaks (t : EcmpLog) (c : EcmpCall) (h : BalanceInv t) (hc : ¬ KeepsGroups t c) :
      ¬ EcmpBalanced (t.step c) := by
    cases c with
    | create egressIds count => exact absurd trivial hc
    | destroy ecmpId => exact h.not_balanced hc
  exact throughout_iff_eachStep_of_any holds keep breaks (BalanceInv.init a) calls

/-- One group of one member, created and destroyed: its slot stays marked. -/
theorem ecmpBalanced_fails :
    ¬ Throughout EcmpLog.step EcmpBalanced (EcmpLog.init Asic.blank)
      [.create (fun _ => 1) 1, .destroy 1] := by
  rintro ⟨-, -, hbal⟩
  have hlive : (((EcmpLog.init Asic.blank).step (.create (fun _ => 1) 1)).groups
      (1 : ℤ).toNat).isSome = true := by
    decide +kernel
  have hinv := (BalanceInv.init Asic.blank).create (fun _ => 1) 1
  exact hinv.not_balanced (Option.isSome_iff_ne_none.mp hlive) hbal

end OpenNos.Sdk
