import OpenNos.Sdk.RouteLpm

/-! The arrays of the route store against the hardware when writes fail. An add
marks its slot before it writes and a delete clears the mark whatever becomes of
its write, so the marks tell the valid slots as long as no such write fails. -/

namespace OpenNos.Sdk

open Bits FirstFit History

/-- The state and the result after a call. -/
def RouteCall.perform (s : SdkState) : RouteCall → SdkState × Rc Unit
  | .routeAdd r => l3RouteAdd s r
  | .hostAdd h => l3HostAdd s h
  | .routeDelete r => l3RouteDelete s r

def routeStep (s : SdkState) (c : RouteCall) : SdkState := (c.perform s).1

/-- `defip_used`, `defip_prefix` and `defip_plen` are the same. -/
def SameArrays (s s' : SdkState) : Prop :=
  s'.defipUsed = s.defipUsed ∧ s'.defipPrefix = s.defipPrefix ∧ s'.defipPlen = s.defipPlen

/-- A slot is valid in hardware exactly when it is marked. -/
def MarksAgree (s : SdkState) : Prop :=
  ∀ i < MAX_L3_DEFIP, defipValid (s.asic.mem L3_DEFIP_BASE i) = s.defipUsed i

/-- A call that fails changes no array, and any call leaves the marks right. -/
def ShadowFaithful (s : SdkState) (c : RouteCall) : Prop :=
  ((c.perform s).2 ≠ .ok () → SameArrays s (c.perform s).1) ∧ MarksAgree (c.perform s).1

/-- The write of a new prefix succeeds. -/
def NewWritten (s : SdkState) (r : L3Route) : Prop :=
  r.Accepted → defipFind s r.pfx r.prefixLen = none →
    (∃ i < MAX_L3_DEFIP, s.defipUsed i = false) → s.asic.fault 0 = false

/-- The write succeeds where a prefix is added to the table or taken from it. -/
def NoLostWrite (s : SdkState) : RouteCall → Prop
  | .routeAdd r => NewWritten s r
  | .hostAdd h => NewWritten s h.route
  | .routeDelete r =>
    r.Deletable → defipFind s r.pfx r.prefixLen ≠ none → s.asic.fault 0 = false

variable {s : SdkState} {r : L3Route}

theorem defipFind_used {pfx : BitVec 32} {plen : ℤ} {i : ℕ} (h : defipFind s pfx plen = some i) :
    i < MAX_L3_DEFIP ∧ s.defipUsed i = true ∧ s.defipPrefix i = pfx ∧ s.defipPlen i = plen := by
  obtain ⟨⟨-, hi⟩, hm, -⟩ := findFirst_eq_some_iff.mp h
  simp only [Bool.and_eq_true, beq_iff_eq] at hm
  exact ⟨hi, hm.1.1, hm.1.2, hm.2⟩

/-! ### One slot written -/

theorem defipValid_splice (w old : Words) :
    defipValid (splice L3_DEFIP_WORDS w old) = defipValid w :=
  bit_splice w old (by decide)

/-- A slot is written with what its new mark says. -/
theorem MarksAgree.store (h : MarksAgree s) {i : ℕ} {w : Words} {s' : SdkState}
    (hm : s'.asic.mem = (s.asic.store L3_DEFIP_BASE i w L3_DEFIP_WORDS).mem)
    (hu : s'.defipUsed = Function.update s.defipUsed i (defipValid w)) : MarksAgree s' := by
  intro j hj
  rw [hm, hu]
  by_cases hji : j = i
  · rw [hji, Asic.store_mem_self, defipValid_splice, Function.update_self]
  · rw [Asic.store_mem_of_ne _ _ (.inr hji), Function.update_of_ne hji]
    exact h j hj

/-- A mark that changes without the slot is wrong. -/
theorem MarksAgree.not_update (h : MarksAgree s) {i : ℕ} (hi : i < MAX_L3_DEFIP) (v : Bool)
    (hv : s.defipUsed i ≠ v) {s' : SdkState} (hm : s'.asic.mem = s.asic.mem)
    (hu : s'.defipUsed = Function.update s.defipUsed i v) : ¬ MarksAgree s' := by
  intro h'
  have hnew := h' i hi
  rw [hm, hu, Function.update_self, h i hi] at hnew
  exact hv hnew

/-! ### Adds -/

/-- An accepted add past the choice of its slot. -/
theorem l3RouteAdd_of_accepted (hr : r.Accepted) : l3RouteAdd s r =
    match defipSlot s r.pfx r.prefixLen with
    | none => (s, .error .enospc)
    | some (s', i) =>
      match l3DefipWrite s' i (defipPackV4Ucast r.pfx r.prefixLen r.egressId) with
      | (s'', true) => (s'', .ok ())
      | (s'', false) => (s'', .error .eio) := by
  obtain ⟨h6, hl, he⟩ := hr
  rw [l3RouteAdd, if_neg (by simp [h6]), if_neg (by omega)]
  exact if_neg (by omega)

/-- A prefix that has a slot: the slot is rewritten, -/
theorem l3RouteAdd_of_find (hr : r.Accepted) {i : ℕ} (hf : s.asic.fault 0 = false)
    (hi : defipFind s r.pfx r.prefixLen = some i) : l3RouteAdd s r =
      let w := defipPackV4Ucast r.pfx r.prefixLen r.egressId
      ({ s with asic := s.asic.tick.store L3_DEFIP_BASE i w L3_DEFIP_WORDS }, .ok ()) := by
  rw [l3RouteAdd_of_accepted hr, defipSlot, hi]
  simp only [l3DefipWrite, Asic.memWrite_of_not_fault hf]

/-- or stays as it was. -/
theorem l3RouteAdd_of_find_fault (hr : r.Accepted) {i : ℕ} (hf : s.asic.fault 0 = true)
    (hi : defipFind s r.pfx r.prefixLen = some i) :
    l3RouteAdd s r = ({ s with asic := s.asic.tick }, .error .eio) := by
  rw [l3RouteAdd_of_accepted hr, defipSlot, hi]
  simp only [l3DefipWrite, Asic.memWrite_of_fault hf]

/-- Slot `i` is recorded for the route. -/
def SdkState.recorded (s : SdkState) (i : ℕ) (r : L3Route) : SdkState :=
  { s with
    defipUsed := Function.update s.defipUsed i true
    defipPrefix := Function.update s.defipPrefix i r.pfx
    defipPlen := Function.update s.defipPlen i r.prefixLen }

/-- A new prefix: its slot is recorded before the write, -/
theorem l3RouteAdd_of_new (hr : r.Accepted) (hno : defipFind s r.pfx r.prefixLen = none) {i : ℕ}
    (hf : s.asic.fault 0 = false) (hi : firstFree s.defipUsed 0 MAX_L3_DEFIP = some i) :
    l3RouteAdd s r =
      let w := defipPackV4Ucast r.pfx r.prefixLen r.egressId
      ({ s.recorded i r with asic := s.asic.tick.store L3_DEFIP_BASE i w L3_DEFIP_WORDS },
        .ok ()) := by
  rw [l3RouteAdd_of_accepted hr, defipSlot, hno, allocId, hi]
  simp only [Option.map_some, l3DefipWrite, Asic.memWrite_of_not_fault hf, SdkState.recorded]

/-- and stays recorded when the write fails. -/
theorem l3RouteAdd_of_new_fault (hr : r.Accepted) (hno : defipFind s r.pfx r.prefixLen = none)
    {i : ℕ} (hf : s.asic.fault 0 = true) (hi : firstFree s.defipUsed 0 MAX_L3_DEFIP = some i) :
    l3RouteAdd s r = ({ s.recorded i r with asic := s.asic.tick }, .error .eio) := by
  rw [l3RouteAdd_of_accepted hr, defipSlot, hno, allocId, hi]
  simp only [Option.map_some, l3DefipWrite, Asic.memWrite_of_fault hf, SdkState.recorded]

theorem l3RouteAdd_of_no_room (hr : r.Accepted) (hno : defipFind s r.pfx r.prefixLen = none)
    (hfull : firstFree s.defipUsed 0 MAX_L3_DEFIP = none) :
    l3RouteAdd s r = (s, .error .enospc) := by
  rw [l3RouteAdd_of_accepted hr, defipSlot, hno, allocId, hfull]
  rfl

/-- An add that moves a prefix is faithful, whether its write succeeds or not. -/
theorem routeAdd_faithful_of_find (h : MarksAgree s) (hr : r.Accepted) {i : ℕ}
    (hfind : defipFind s r.pfx r.prefixLen = some i) : ShadowFaithful s (.routeAdd r) := by
  rw [ShadowFaithful, RouteCall.perform]
  cases hf : s.asic.fault 0 with
  | true =>
    rw [l3RouteAdd_of_find_fault hr hf hfind]
    exact ⟨fun _ => ⟨rfl, rfl, rfl⟩, h⟩
  | false =>
    have hu := (defipFind_used hfind).2.1
    rw [l3RouteAdd_of_find hr hf hfind]
    refine ⟨fun hne => absurd rfl hne, h.store rfl ?_⟩
    rw [defipValid_defipPackV4Ucast, ← hu, Function.update_eq_self]

/-- An add of a new prefix that has a slot is faithful if the slot gets written. -/
theorem routeAdd_faithful_iff_of_new (h : MarksAgree s) (hr : r.Accepted)
    (hno : defipFind s r.pfx r.prefixLen = none) {i : ℕ}
    (hi : firstFree s.defipUsed 0 MAX_L3_DEFIP = some i) :
    ShadowFaithful s (.routeAdd r) ↔ s.asic.fault 0 = false := by
  rw [ShadowFaithful, RouteCall.perform]
  cases hf : s.asic.fault 0 with
  | true =>
    rw [l3RouteAdd_of_new_fault hr hno hf hi]
    refine iff_of_false (fun hs => ?_) (fun hne => by cases hne)
    refine h.not_update (firstFree_mem hi).2 true ?_ ?_ ?_ hs.2
    · simp [firstFree_free hi]
    · rfl
    · rfl
  | false =>
    rw [l3RouteAdd_of_new hr hno hf hi]
    refine iff_of_true ⟨fun hne => absurd rfl hne, h.store rfl ?_⟩ rfl
    rw [defipValid_defipPackV4Ucast]
    rfl

/-- An add is faithful exactly when the write of a new prefix succeeds. -/
theorem routeAdd_faithful_iff (h : MarksAgree s) (r : L3Route) :
    ShadowFaithful s (.routeAdd r) ↔ NewWritten s r := by
  by_cases hr : r.Accepted
  swap
  · obtain ⟨e, he⟩ := l3RouteAdd_of_rejected s hr
    rw [ShadowFaithful, RouteCall.perform, he]
    exact iff_of_true ⟨fun _ => ⟨rfl, rfl, rfl⟩, h⟩ fun hr' => absurd hr' hr
  cases hfind : defipFind s r.pfx r.prefixLen with
  | some i =>
    refine iff_of_true (routeAdd_faithful_of_find h hr hfind) fun _ hno => ?_
    rw [hfind] at hno
    cases hno
  | none =>
    cases hff : firstFree s.defipUsed 0 MAX_L3_DEFIP with
    | none =>
      rw [ShadowFaithful, RouteCall.perform, l3RouteAdd_of_no_room hr hfind hff]
      refine iff_of_true ⟨fun _ => ⟨rfl, rfl, rfl⟩, h⟩ ?_
      rintro - - ⟨i, hi, hfree⟩
      have hused := firstFree_eq_none_iff.mp hff i (Nat.zero_le i) hi
      rw [hfree] at hused
      cases hused
    | some i =>
      rw [routeAdd_faithful_iff_of_new h hr hfind hff]
      exact ⟨fun hf _ _ _ => hf,
        fun hw => hw hr hfind ⟨i, (firstFree_mem hff).2, firstFree_free hff⟩⟩

/-! ### Deletes -/

theorem l3RouteDelete_of_not_find (hr : r.Deletable)
    (hno : defipFind s r.pfx r.prefixLen = none) : l3RouteDelete s r = (s, .ok ()) := by
  obtain ⟨h6, hl⟩ := hr
  rw [l3RouteDelete, if_neg (by simp [h6]), if_neg (by omega), ntohl, hno]

/-- The mark goes, whether the slot is cleared or not. -/
theorem l3RouteDelete_of_find (hr : r.Deletable) {i : ℕ}
    (hi : defipFind s r.pfx r.prefixLen = some i) : l3RouteDelete s r =
      let a := (s.asic.memWrite L3_DEFIP_BASE i (fun _ => 0#32) L3_DEFIP_WORDS).1
      ({ s with
          asic := a
          defipUsed := Function.update s.defipUsed i false
          defipPrefix := Function.update s.defipPrefix i 0
          defipPlen := Function.update s.defipPlen i 0 }, .ok ()) := by
  obtain ⟨h6, hl⟩ := hr
  rw [l3RouteDelete, if_neg (by simp [h6]), if_neg (by omega), ntohl, hi]
  rfl

/-- A delete is faithful exactly when the write of its slot succeeds. -/
theorem routeDelete_faithful_iff (h : MarksAgree s) (r : L3Route) :
    ShadowFaithful s (.routeDelete r) ↔ NoLostWrite s (.routeDelete r) := by
  rw [ShadowFaithful, RouteCall.perform]
  by_cases hr : r.Deletable
  swap
  · obtain ⟨e, he⟩ := l3RouteDelete_of_rejected s hr
    rw [he]
    exact iff_of_true ⟨fun _ => ⟨rfl, rfl, rfl⟩, h⟩ fun hr' => absurd hr' hr
  cases hfind : defipFind s r.pfx r.prefixLen with
  | none =>
    rw [l3RouteDelete_of_not_find hr hfind]
    exact iff_of_true ⟨fun _ => ⟨rfl, rfl, rfl⟩, h⟩ fun _ hne => absurd hfind hne
  | some i =>
    obtain ⟨hi, hu, -⟩ := defipFind_used hfind
    rw [l3RouteDelete_of_find hr hfind]
    have hne : defipFind s r.pfx r.prefixLen ≠ none := by
      rw [hfind]
      exact Option.some_ne_none i
    cases hf : s.asic.fault 0 with
    | true =>
      rw [Asic.memWrite_of_fault hf]
      refine iff_of_false (fun hs => ?_) fun hw => ?_
      · refine h.not_update hi false ?_ ?_ ?_ hs.2
        · simp [hu]
        · rfl
        · rfl
      · have hgood := hw hr hne
        rw [hf] at hgood
        cases hgood
    | false =>
      rw [Asic.memWrite_of_not_fault hf]
      refine iff_of_true ⟨fun hne' => absurd rfl hne', h.store rfl ?_⟩ fun _ _ => hf
      rw [defipValid_zero]

/-- What a call must find to be faithful. -/
theorem shadowFaithful_iff (h : MarksAgree s) (c : RouteCall) :
    ShadowFaithful s c ↔ NoLostWrite s c := by
  cases c with
  | routeAdd r => exact routeAdd_faithful_iff h r
  | hostAdd host =>
    rw [ShadowFaithful, RouteCall.perform, l3HostAdd_eq]
    exact routeAdd_faithful_iff h host.route
  | routeDelete r => exact routeDelete_faithful_iff h r

/-- The arrays and the hardware agree through a history of route calls exactly
when every write that adds a prefix or takes one away succeeds. -/
theorem shadowFaithful_iff_noLostWrite (c : Asic) (hs : ∀ i < MAX_L3_DEFIP, c.slot i = none)
    (calls : List RouteCall) :
    EachStep routeStep ShadowFaithful (SdkState.init c) calls ↔
      EachStep routeStep NoLostWrite (SdkState.init c) calls := by
  refine eachStep_congr (fun s call h => shadowFaithful_iff h call) ?_ ?_ calls
  · intro s call h hc
    exact ((shadowFaithful_iff h call).mpr hc).2
  · intro i hi
    have hslot := hs i hi
    rw [Asic.slot, defipEntry] at hslot
    split_ifs at hslot with hv
    simpa [SdkState.init] using hv

/-! ### One prefix -/

def routeOne (egressId : ℤ) : L3Route :=
  { pfx := 0x0a000000, prefixLen := 8, egressId := egressId, isIpv6 := false }

/-- The write of the first route fails: the slot is marked but not valid. -/
theorem shadowFaithful_fails :
    ¬ EachStep routeStep ShadowFaithful (SdkState.init (Asic.failing 0))
      [.routeAdd (routeOne 1)] := by
  rintro ⟨⟨-, hagree⟩, -⟩
  have hnew : (l3RouteAdd (SdkState.init (Asic.failing 0)) (routeOne 1)).1.defipUsed 0 = true := by
    decide +kernel
  have hold : defipValid ((l3RouteAdd (SdkState.init (Asic.failing 0)) (routeOne 1)).1.asic.mem
      L3_DEFIP_BASE 0) = false := by
    decide +kernel
  have h0 := hagree 0 (by decide)
  rw [RouteCall.perform, hnew, hold] at h0
  cases h0

/-- A route added, moved by a write that fails and then by one that succeeds. -/
theorem shadowFaithful_moved :
    EachStep routeStep ShadowFaithful
      (SdkState.init (Asic.failing 1))
      [.routeAdd (routeOne 1), .routeAdd (routeOne 2), .routeAdd (routeOne 2)] := by
  refine (shadowFaithful_iff_noLostWrite (Asic.failing 1) (fun i _ => slot_blank i) _).mpr ?_
  refine ⟨fun _ _ _ => rfl, fun _ hno => ?_, fun _ hno => ?_, trivial⟩
  · exact absurd hno (by decide +kernel)
  · exact absurd hno (by decide +kernel)

end OpenNos.Sdk
