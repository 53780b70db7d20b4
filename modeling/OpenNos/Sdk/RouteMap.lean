import OpenNos.Sdk.RouteLpm

/-! The route store as a finite map. A history of route calls on a fault-free
chip is compared with the map from prefix and length to the egress id of the
latest add, which has room for 8192 pairs and takes no notice of what the calls
return: the valid slots of L3_DEFIP are the live pairs, one each, and hold the
packed entry to the word, and the calls return what the map says. -/

namespace OpenNos.Sdk

open Bits History FirstFit

/-- A prefix and its length. -/
abbrev RouteKey := BitVec 32 × ℤ

/-- The library state, and the egress id of the latest add of each live pair. -/
structure RouteMap where
  sdk : SdkState
  live : RouteKey → Option ℤ

def L3Route.key (r : L3Route) : RouteKey := (r.pfx, r.prefixLen)

/-- The map is full and the pair is new. -/
def RouteMap.Refuses (s : RouteMap) (k : RouteKey) : Prop :=
  s.live k = none ∧ {k | s.live k ≠ none}.ncard = MAX_L3_DEFIP

open Classical in
/-- What an add makes of the map, whatever the library answers. -/
noncomputable def RouteMap.added (s : RouteMap) (r : L3Route) : RouteKey → Option ℤ :=
  if r.Accepted ∧ ¬ s.Refuses r.key then Function.update s.live r.key (some r.egressId)
  else s.live

def RouteMap.deleted (s : RouteMap) (r : L3Route) : RouteKey → Option ℤ :=
  if r.Deletable then Function.update s.live r.key none else s.live

noncomputable def RouteMap.step (s : RouteMap) : RouteCall → RouteMap
  | .routeAdd r => ⟨(l3RouteAdd s.sdk r).1, s.added r⟩
  | .hostAdd h => ⟨(l3HostAdd s.sdk h).1, s.added h.route⟩
  | .routeDelete r => ⟨(l3RouteDelete s.sdk r).1, s.deleted r⟩

def RouteMap.start (c : Asic) : RouteMap := ⟨SdkState.init c, fun _ => none⟩

/-- The slots that are valid in hardware. -/
def Asic.validSlots (a : Asic) : Set ℕ :=
  {i | i < MAX_L3_DEFIP ∧ defipValid (a.mem L3_DEFIP_BASE i) = true}

/-- The slot holds the packed entry of the pair and the egress id. -/
def Asic.HoldsRoute (a : Asic) (i : ℕ) (k : RouteKey) (egressId : ℤ) : Prop :=
  a.Holds L3_DEFIP_BASE i L3_DEFIP_WORDS (defipPackV4Ucast k.1 k.2 egressId)

/-- The valid slots are the live pairs, one each, with their entries. -/
def RefinesMap (s : RouteMap) : Prop :=
  ∃ slotOf : RouteKey → ℕ,
    Set.BijOn slotOf {k | s.live k ≠ none} s.sdk.asic.validSlots ∧
    (∀ k egressId, s.live k = some egressId → s.sdk.asic.HoldsRoute (slotOf k) k egressId) ∧
    ∀ k, s.live k ≠ none → ∀ i < MAX_L3_DEFIP, s.sdk.asic.Names i k.1 k.2 → i = slotOf k

/-- A live pair is rewritten in its slot, and a new one is refused for lack of room exactly
when 8192 others are live; every other accepted add returns 0. A rejected one does nothing. -/
structure AddFaithful (s : RouteMap) (r : L3Route) (result : SdkState × Rc Unit) : Prop where
  rewritten : r.Accepted → ∀ i < MAX_L3_DEFIP, s.live r.key ≠ none →
    s.sdk.asic.Names i r.pfx r.prefixLen →
      result.2 = .ok () ∧ result.1.asic.HoldsRoute i r.key r.egressId ∧
        ∀ j ≠ i, result.1.asic.mem L3_DEFIP_BASE j = s.sdk.asic.mem L3_DEFIP_BASE j
  refused : r.Accepted → (result.2 = .error .enospc ↔ s.Refuses r.key)
  done : r.Accepted → ¬ s.Refuses r.key → result.2 = .ok ()
  rejected : ¬ r.Accepted → ∃ e, result = (s.sdk, .error e)

/-- A delete returns 0; one of an absent pair changes nothing, and neither does a rejected
one. -/
structure DeleteFaithful (s : RouteMap) (r : L3Route) (result : SdkState × Rc Unit) : Prop where
  done : r.Deletable → result.2 = .ok ()
  absent : s.live r.key = none → result.1 = s.sdk
  rejected : ¬ r.Deletable → ∃ e, result = (s.sdk, .error e)

/-- What the call must do, whatever came before. -/
def CallFaithful (s : RouteMap) : RouteCall → Prop
  | .routeAdd r => AddFaithful s r (l3RouteAdd s.sdk r)
  | .hostAdd h => AddFaithful s h.route (l3HostAdd s.sdk h)
  | .routeDelete r => DeleteFaithful s r (l3RouteDelete s.sdk r)

/-! ### The map behind the arrays -/

structure RouteMap.Inv (s : RouteMap) : Prop where
  store : RouteStore s.sdk
  egress : ∀ i < MAX_L3_DEFIP, s.sdk.defipUsed i = true → ∃ egressId,
    s.live (s.sdk.defipPrefix i, s.sdk.defipPlen i) = some egressId ∧
      s.sdk.asic.HoldsRoute i (s.sdk.defipPrefix i, s.sdk.defipPlen i) egressId
  slot : ∀ k, s.live k ≠ none →
    ∃ i < MAX_L3_DEFIP, s.sdk.defipUsed i = true ∧ s.sdk.defipPrefix i = k.1 ∧
      s.sdk.defipPlen i = k.2

variable {s : RouteMap} {r : L3Route}

theorem RouteMap.Inv.start {c : Asic} (hf : c.FaultFree)
    (hs : ∀ i < MAX_L3_DEFIP, c.slot i = none) : (RouteMap.start c).Inv where
  store := RouteStore.init hf hs
  egress := nofun
  slot := fun _ h => absurd rfl h

theorem RouteStore.valid_iff {s : SdkState} (h : RouteStore s) {i : ℕ} (hi : i < MAX_L3_DEFIP) :
    defipValid (s.asic.mem L3_DEFIP_BASE i) = true ↔ s.defipUsed i = true := by
  have hnone : s.asic.slot i = none ↔ ¬ defipValid (s.asic.mem L3_DEFIP_BASE i) = true := by
    rw [Asic.slot, defipEntry]
    split_ifs with hv <;> simp [hv]
  rw [← not_iff_not, ← hnone, h.slot_eq_none_iff hi, Bool.not_eq_true]

namespace RouteMap.Inv

/-- A pair is live exactly when a slot names it. -/
theorem live_iff (h : s.Inv) {k : RouteKey} (hl : 0 ≤ k.2 ∧ k.2 ≤ 32) :
    s.live k ≠ none ↔ ∃ i < MAX_L3_DEFIP, s.sdk.asic.Names i k.1 k.2 := by
  constructor
  · intro hk
    obtain ⟨i, hi, hn⟩ := h.slot k hk
    exact ⟨i, hi, (h.store.names_iff hi hl).mpr hn⟩
  · rintro ⟨i, hi, hn⟩
    obtain ⟨hu, hp, hq⟩ := (h.store.names_iff hi hl).mp hn
    obtain ⟨e, he, -⟩ := h.egress i hi hu
    rw [hp, hq] at he
    rw [he]
    exact Option.some_ne_none e

/-- The lengths of live pairs are in range. -/
theorem plen (h : s.Inv) {k : RouteKey} (hk : s.live k ≠ none) : 0 ≤ k.2 ∧ k.2 ≤ 32 := by
  obtain ⟨i, hi, hu, -, hq⟩ := h.slot k hk
  rw [← hq]
  exact h.store.plen i hi hu

/-- The slot of a live pair, as `defip_find` finds it. -/
theorem find (h : s.Inv) {k : RouteKey} (hk : s.live k ≠ none) :
    ∃ i < MAX_L3_DEFIP, defipFind s.sdk k.1 k.2 = some i ∧ s.sdk.defipUsed i = true ∧
      (s.sdk.defipPrefix i, s.sdk.defipPlen i) = k := by
  obtain ⟨i, hi, hu, hp, hq⟩ := h.slot k hk
  refine ⟨i, hi, ?_, hu, Prod.ext hp hq⟩
  exact defipFind_of_names h.store (h.plen hk) hi
    ((h.store.names_iff hi (h.plen hk)).mpr ⟨hu, hp, hq⟩)

theorem bijOn (h : s.Inv) : Set.BijOn (fun k => (defipFind s.sdk k.1 k.2).getD 0)
    {k | s.live k ≠ none} s.sdk.asic.validSlots := by
  refine ⟨?_, ?_, ?_⟩
  · intro k hk
    obtain ⟨i, hi, hfind, hu, -⟩ := h.find hk
    simp only [hfind, Option.getD_some]
    exact ⟨hi, (h.store.valid_iff hi).mpr hu⟩
  · intro k hk k' hk' heq
    obtain ⟨i, -, hfind, -, hki⟩ := h.find hk
    obtain ⟨j, -, hfind', -, hkj⟩ := h.find hk'
    simp only [hfind, hfind', Option.getD_some] at heq
    rw [← hki, ← hkj, heq]
  · rintro i ⟨hi, hv⟩
    have hu := (h.store.valid_iff hi).mp hv
    obtain ⟨e, he, -⟩ := h.egress i hi hu
    refine ⟨(s.sdk.defipPrefix i, s.sdk.defipPlen i), ?_, ?_⟩
    · rw [Set.mem_ofPred_eq, he]
      exact Option.some_ne_none e
    · have hn := (h.store.names_iff hi (h.store.plen i hi hu)).mpr ⟨hu, rfl, rfl⟩
      simp only [defipFind_of_names h.store (h.store.plen i hi hu) hi hn, Option.getD_some]

theorem refinesMap (h : s.Inv) : RefinesMap s := by
  refine ⟨_, h.bijOn, ?_, ?_⟩
  · intro k egressId hk
    have hne : s.live k ≠ none := by rw [hk]; exact Option.some_ne_none _
    obtain ⟨i, hi, hfind, hu, hki⟩ := h.find hne
    obtain ⟨e, he, hw⟩ := h.egress i hi hu
    rw [hki] at he hw
    rw [hk] at he
    cases he
    simpa only [hfind, Option.getD_some] using hw
  · intro k hk i hi hn
    simp only [defipFind_of_names h.store (h.plen hk) hi hn, Option.getD_some]

/-- Every slot is valid exactly when 8192 pairs are live. -/
theorem ncard_eq_iff (h : s.Inv) : {k | s.live k ≠ none}.ncard = MAX_L3_DEFIP ↔
    ∀ i < MAX_L3_DEFIP, s.sdk.defipUsed i = true := by
  have himg := h.bijOn.image_eq
  have hcard : {k | s.live k ≠ none}.ncard = s.sdk.asic.validSlots.ncard := by
    rw [← himg, h.bijOn.injOn.ncard_image]
  have hsub : s.sdk.asic.validSlots ⊆ Set.Iio MAX_L3_DEFIP := fun i hi => hi.1
  have hfull : (Set.Iio MAX_L3_DEFIP).ncard = MAX_L3_DEFIP := by
    rw [← Finset.coe_Iio, Set.ncard_coe_finset, Nat.card_Iio]
  rw [hcard]
  constructor
  · intro hc i hi
    have heq := Set.eq_of_subset_of_ncard_le hsub (by rw [hfull, hc]) (Set.finite_Iio _)
    have hmem : i ∈ s.sdk.asic.validSlots := by
      rw [heq]
      exact hi
    exact (h.store.valid_iff hi).mp hmem.2
  · intro hall
    have heq : s.sdk.asic.validSlots = Set.Iio MAX_L3_DEFIP :=
      hsub.antisymm fun i hi => ⟨hi, (h.store.valid_iff hi).mpr (hall i hi)⟩
    rw [heq, hfull]

/-- The record of another slot stays when slot `i` and the pair of the route change. -/
theorem egress_of_ne (h : s.Inv) (hl : 0 ≤ r.prefixLen ∧ r.prefixLen ≤ 32) {i j : ℕ}
    (hj : j < MAX_L3_DEFIP) (hji : j ≠ i) (hu : s.sdk.defipUsed j = true)
    (huniq : s.sdk.asic.Names j r.pfx r.prefixLen → j = i) (live : Option ℤ) (w : Words) :
    ∃ egressId,
      Function.update s.live r.key live (s.sdk.defipPrefix j, s.sdk.defipPlen j) = some egressId ∧
        (s.sdk.asic.store L3_DEFIP_BASE i w L3_DEFIP_WORDS).HoldsRoute j
          (s.sdk.defipPrefix j, s.sdk.defipPlen j) egressId := by
  have hne : (s.sdk.defipPrefix j, s.sdk.defipPlen j) ≠ r.key := by
    rintro hkey
    obtain ⟨hp, hq⟩ := Prod.mk.inj hkey
    exact hji (huniq ((h.store.names_iff hj hl).mpr ⟨hu, hp, hq⟩))
  obtain ⟨e, he, hw⟩ := h.egress j hj hu
  refine ⟨e, by rwa [Function.update_of_ne hne], ?_⟩
  exact (Asic.holds_store_of_ne _ (.inr hji)).mpr hw

/-- Another pair has another slot. -/
theorem slot_of_ne (h : s.Inv) (hl : 0 ≤ r.prefixLen ∧ r.prefixLen ≤ 32) {i : ℕ}
    (hslot : s.sdk.asic.Names i r.pfx r.prefixLen ∨ s.sdk.asic.slot i = none) {k : RouteKey}
    (hkr : k ≠ r.key) (hk : s.live k ≠ none) : ∃ j < MAX_L3_DEFIP, j ≠ i ∧
      s.sdk.defipUsed j = true ∧ s.sdk.defipPrefix j = k.1 ∧ s.sdk.defipPlen j = k.2 := by
  obtain ⟨j, hj, hu, hp, hq⟩ := h.slot k hk
  refine ⟨j, hj, ?_, hu, hp, hq⟩
  rintro rfl
  rcases hslot with hn | hnone
  · obtain ⟨-, hp', hq'⟩ := (h.store.names_iff hj hl).mp hn
    exact hkr (Prod.ext (hp.symm.trans hp') (hq.symm.trans hq'))
  · rw [h.store.slot_eq_none_iff hj, hu] at hnone
    cases hnone

/-- The pair of a route written to its own slot or a free one. -/
theorem withRoute (h : s.Inv) (hr : r.Accepted) {i : ℕ}
    (huniq : ∀ j < MAX_L3_DEFIP, s.sdk.asic.Names j r.pfx r.prefixLen → j = i)
    (hslot : s.sdk.asic.Names i r.pfx r.prefixLen ∨ s.sdk.asic.slot i = none)
    (hi : i < MAX_L3_DEFIP) :
    RouteMap.Inv ⟨s.sdk.withRoute i r, Function.update s.live r.key (some r.egressId)⟩ where
  store := h.store.withRoute hr.2.1 huniq
  egress := by
    intro j hj hu
    simp only [withRoute_defipUsed, withRoute_defipPrefix, withRoute_defipPlen] at hu ⊢
    by_cases hji : j = i
    · subst hji
      rw [Function.update_self, Function.update_self]
      exact ⟨r.egressId, Function.update_self .., Asic.holds_store_self _ _ _ _⟩
    · rw [Function.update_of_ne hji] at hu
      rw [Function.update_of_ne hji, Function.update_of_ne hji]
      exact h.egress_of_ne hr.2.1 hj hji hu (huniq j hj) _ _
  slot := by
    intro k hk
    simp only [withRoute_defipUsed, withRoute_defipPrefix, withRoute_defipPlen] at hk ⊢
    by_cases hkr : k = r.key
    · subst hkr
      exact ⟨i, hi, Function.update_self .., Function.update_self .., Function.update_self ..⟩
    · rw [Function.update_of_ne hkr] at hk
      obtain ⟨j, hj, hji, hrecord⟩ := h.slot_of_ne hr.2.1 hslot hkr hk
      refine ⟨j, hj, ?_⟩
      simpa only [Function.update_of_ne hji] using hrecord

/-- The pair of a cleared slot. -/
theorem withoutRoute (h : s.Inv) (hr : r.Deletable) {i : ℕ} (hi : i < MAX_L3_DEFIP)
    (hn : s.sdk.asic.Names i r.pfx r.prefixLen) :
    RouteMap.Inv ⟨s.sdk.withoutRoute i, Function.update s.live r.key none⟩ where
  store := h.store.withoutRoute i
  egress := by
    intro j hj hu
    simp only [withoutRoute_defipUsed, withoutRoute_defipPrefix, withoutRoute_defipPlen] at hu ⊢
    have hji : j ≠ i := by
      rintro rfl
      rw [Function.update_self] at hu
      cases hu
    rw [Function.update_of_ne hji] at hu
    rw [Function.update_of_ne hji, Function.update_of_ne hji]
    exact h.egress_of_ne hr.2 hj hji hu (fun hn' => h.store.names_unique hj hi hr.2 hn' hn) _ _
  slot := by
    intro k hk
    simp only [withoutRoute_defipUsed, withoutRoute_defipPrefix, withoutRoute_defipPlen] at hk ⊢
    have hkr : k ≠ r.key := by
      rintro rfl
      rw [Function.update_self] at hk
      exact hk rfl
    rw [Function.update_of_ne hkr] at hk
    obtain ⟨j, hj, hji, hrecord⟩ := h.slot_of_ne hr.2 (.inl hn) hkr hk
    refine ⟨j, hj, ?_⟩
    simpa only [Function.update_of_ne hji] using hrecord

/-! ### Every call -/

/-- An accepted add has a slot for its pair, its own or a free one, unless the map refuses
it. -/
theorem add_cases (h : s.Inv) (hr : r.Accepted) :
    (¬ s.Refuses r.key ∧ ∃ i < MAX_L3_DEFIP,
      (∀ j < MAX_L3_DEFIP, s.sdk.asic.Names j r.pfx r.prefixLen → j = i) ∧
        (s.sdk.asic.Names i r.pfx r.prefixLen ∨ s.sdk.asic.slot i = none) ∧
          l3RouteAdd s.sdk r = (s.sdk.withRoute i r, .ok ())) ∨
      s.Refuses r.key ∧ l3RouteAdd s.sdk r = (s.sdk, .error .enospc) := by
  rw [RouteMap.Refuses, h.ncard_eq_iff]
  rcases l3RouteAdd_cases h.store hr with ⟨i, hi, huniq, hslot, he⟩ | ⟨hno, hfull, he⟩
  · refine .inl ⟨?_, i, hi, huniq, hslot, he⟩
    rintro ⟨hk, hall⟩
    rcases hslot with hn | hnone
    · exact (h.live_iff (k := r.key) hr.2.1).mpr ⟨i, hi, hn⟩ hk
    · rw [h.store.slot_eq_none_iff hi, hall i hi] at hnone
      cases hnone
  · refine .inr ⟨⟨?_, ?_⟩, he⟩
    · by_contra hk
      obtain ⟨i, hi, hn⟩ := (h.live_iff (k := r.key) hr.2.1).mp hk
      exact hno i hi hn
    · intro i hi
      by_contra hu
      exact hfull i hi ((h.store.slot_eq_none_iff hi).mpr (by simpa using hu))

theorem added (h : s.Inv) (r : L3Route) : (s.step (.routeAdd r)).Inv := by
  rw [RouteMap.step, RouteMap.added]
  by_cases hr : r.Accepted
  · rcases h.add_cases hr with ⟨hroom, i, hi, huniq, hslot, he⟩ | ⟨hfull, he⟩
    · rw [if_pos ⟨hr, hroom⟩, he]
      exact h.withRoute hr huniq hslot hi
    · rw [if_neg fun hc => hc.2 hfull, he]
      exact h
  · obtain ⟨e, he⟩ := l3RouteAdd_of_rejected s.sdk hr
    rw [if_neg fun hc => hr hc.1, he]
    exact h

/-- A pair that is not live has no slot. -/
theorem not_names (h : s.Inv) (hr : r.Deletable) (hk : s.live r.key = none) :
    ∀ i < MAX_L3_DEFIP, ¬ s.sdk.asic.Names i r.pfx r.prefixLen :=
  fun i hi hn => (h.live_iff (k := r.key) hr.2).mpr ⟨i, hi, hn⟩ hk

theorem deleted (h : s.Inv) (r : L3Route) : (s.step (.routeDelete r)).Inv := by
  rw [RouteMap.step, RouteMap.deleted]
  by_cases hr : r.Deletable
  swap
  · obtain ⟨e, he⟩ := l3RouteDelete_of_rejected s.sdk hr
    rw [if_neg hr, he]
    exact h
  rw [if_pos hr]
  by_cases hk : s.live r.key = none
  · rw [l3RouteDelete_of_absent h.store hr (h.not_names hr hk), ← hk, Function.update_eq_self]
    exact h
  · obtain ⟨i, hi, hn⟩ := (h.live_iff (k := r.key) hr.2).mp hk
    rw [l3RouteDelete_of_names h.store hr hi hn]
    exact h.withoutRoute hr hi hn

theorem step (h : s.Inv) (c : RouteCall) : (s.step c).Inv := by
  cases c with
  | routeAdd r => exact h.added r
  | hostAdd host =>
    rw [RouteMap.step, l3HostAdd_eq]
    exact h.added host.route
  | routeDelete r => exact h.deleted r

theorem addFaithful (h : s.Inv) (r : L3Route) : AddFaithful s r (l3RouteAdd s.sdk r) where
  rewritten hr i hi _ hn := by
    rw [l3RouteAdd_of_names h.store hr hi hn]
    exact ⟨rfl, Asic.holds_store_self _ _ _ _, fun j hj => Asic.store_mem_of_ne _ _ (.inr hj)⟩
  refused hr := by
    rcases h.add_cases hr with ⟨hroom, i, -, -, -, he⟩ | ⟨hfull, he⟩
    · rw [he]
      exact iff_of_false nofun hroom
    · rw [he]
      exact iff_of_true rfl hfull
  done hr hroom := by
    rcases h.add_cases hr with ⟨-, i, -, -, -, he⟩ | ⟨hfull, -⟩
    · rw [he]
    · exact absurd hfull hroom
  rejected hr := l3RouteAdd_of_rejected s.sdk hr

theorem deleteFaithful (h : s.Inv) (r : L3Route) :
    DeleteFaithful s r (l3RouteDelete s.sdk r) where
  done := l3RouteDelete_snd s.sdk
  absent hk := by
    by_cases hr : r.Deletable
    · rw [l3RouteDelete_of_absent h.store hr (h.not_names hr hk)]
    · obtain ⟨e, he⟩ := l3RouteDelete_of_rejected s.sdk hr
      rw [he]
  rejected hr := l3RouteDelete_of_rejected s.sdk hr

theorem callFaithful (h : s.Inv) (c : RouteCall) : CallFaithful s c := by
  cases c with
  | routeAdd r => exact h.addFaithful r
  | hostAdd host =>
    rw [CallFaithful, l3HostAdd_eq]
    exact h.addFaithful host.route
  | routeDelete r => exact h.deleteFaithful r

end RouteMap.Inv

/-- In every history of route calls on an empty table, each state refines the
finite map and each call does what the map says. -/
theorem routeStore_refines (c : Asic) (hf : c.FaultFree)
    (hs : ∀ i < MAX_L3_DEFIP, c.slot i = none) (calls : List RouteCall) :
    Throughout RouteMap.step RefinesMap (RouteMap.start c) calls ∧
      EachStep RouteMap.step CallFaithful (RouteMap.start c) calls := by
  have hstart := RouteMap.Inv.start hf hs
  constructor
  · refine Throughout.mono (fun _ h => RouteMap.Inv.refinesMap h) ?_
    exact throughout_of_step (fun s c (h : s.Inv) => h.step c) hstart calls
  · exact eachStep_of_step (fun s c (h : s.Inv) => h.step c) (fun s c h => h.callFaithful c)
      hstart calls

/-- A prefix added, moved to another next hop and removed. -/
theorem routeStore_refines_readded :
    let r (egressId : ℤ) : L3Route :=
      { pfx := 0x0a000000, prefixLen := 8, egressId := egressId, isIpv6 := false }
    let calls := [.routeAdd (r 1), .routeAdd (r 2), .routeDelete (r 0)]
    Throughout RouteMap.step RefinesMap (RouteMap.start Asic.blank) calls ∧
      EachStep RouteMap.step CallFaithful (RouteMap.start Asic.blank) calls :=
  routeStore_refines Asic.blank Asic.blank_faultFree (fun i _ => slot_blank i) _

end OpenNos.Sdk
