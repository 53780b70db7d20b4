import OpenNos.Switchd.Wired

/-! The next hops marked as used beside those the valid slots name. Every new
route takes a next hop and no message gives one back, so the marks are exact only
as long as routes are neither replaced nor withdrawn and none is refused. -/

namespace OpenNos.Switchd

open Bits FirstFit Sdk History

/-- Slot `i` is valid and names next hop `n`. -/
def NamesHop (a : Asic) (i n : ℕ) : Prop := ∃ e, a.slot i = some e ∧ e.nhop.toNat = n

def liveSlots (a : Asic) : Finset ℕ :=
  (Finset.range MAX_L3_DEFIP).filter fun i => (a.slot i).isSome

def usedHops (s : SdkState) : Finset ℕ :=
  (Finset.range MAX_L3_NHOP).filter fun n => s.nhopUsed n

/-- The marks are exact; so there are no more of them than live routes, and there
is a next hop for every new route. -/
structure NoLeak (s : NetState) : Prop where
  named : ∀ n < MAX_L3_NHOP, s.sdk.nhopUsed n = true ↔
    ∃ i < MAX_L3_DEFIP, NamesHop s.sdk.asic i n
  card_le : (usedHops s.sdk).card ≤ (liveSlots s.sdk.asic).card
  live_le : (liveSlots s.sdk.asic).card ≤ MAX_L3_DEFIP
  room : firstFree s.sdk.nhopUsed 1 MAX_L3_NHOP ≠ none

/-- A route is withdrawn without being live, and offloaded as a new one with room
for it. -/
def OnlyGrows (s : NetState) : Nlmsghdr → Prop
  | .route true m => Unicast m → m.hdr.rtmDstLen.toNat ≤ 32 →
      ¬ s.sdk.asic.Live (m.u32 RTA_DST) m.hdr.rtmDstLen.toNat
  | .route false m => Unicast m → routedPort s (m.u32 RTA_OIF).toNat ≠ none →
      m.hdr.rtmDstLen.toNat ≤ 32 ∧
      ¬ s.sdk.asic.Live (m.u32 RTA_DST) m.hdr.rtmDstLen.toNat ∧
      ∃ i < MAX_L3_DEFIP, s.sdk.asic.slot i = none
  | _ => True

variable {s s' : NetState}

/-- Exact marks are as many as live routes at most. -/
theorem NoLeak.of_named (h : ∀ n < MAX_L3_NHOP, s.sdk.nhopUsed n = true ↔
    ∃ i < MAX_L3_DEFIP, NamesHop s.sdk.asic i n) : NoLeak s := by
  have hle : (usedHops s.sdk).card ≤ (liveSlots s.sdk.asic).card := by
    let hop : ℕ → ℕ := fun i => ((s.sdk.asic.slot i).map (·.nhop.toNat)).getD 0
    have hsub : usedHops s.sdk ⊆ (liveSlots s.sdk.asic).image hop := by
      intro n hn
      obtain ⟨hlt, hu⟩ := Finset.mem_filter.mp hn
      obtain ⟨i, hi, e, he, rfl⟩ := (h n (Finset.mem_range.mp hlt)).mp hu
      refine Finset.mem_image.mpr ⟨i, Finset.mem_filter.mpr ⟨Finset.mem_range.mpr hi, ?_⟩, ?_⟩
      · rw [he]
        rfl
      · simp only [hop, he, Option.map_some, Option.getD_some]
    exact (Finset.card_le_card hsub).trans Finset.card_image_le
  have hlive : (liveSlots s.sdk.asic).card ≤ MAX_L3_DEFIP :=
    (Finset.card_filter_le _ _).trans_eq (Finset.card_range _)
  refine ⟨h, hle, hlive, fun hfull => ?_⟩
  -- a full table would have more marks than there are slots
  have hall : Finset.Ico 1 MAX_L3_NHOP ⊆ usedHops s.sdk := by
    intro n hn
    obtain ⟨h1, hlt⟩ := Finset.mem_Ico.mp hn
    exact Finset.mem_filter.mpr
      ⟨Finset.mem_range.mpr hlt, firstFree_eq_none_iff.mp hfull n h1 hlt⟩
  have hcard := Finset.card_le_card hall
  rw [Nat.card_Ico] at hcard
  have hn : MAX_L3_NHOP = 16384 := rfl
  have hd : MAX_L3_DEFIP = 8192 := rfl
  omega

structure LeakInv (s : NetState) : Prop where
  wired : Wired s
  named : ∀ n < MAX_L3_NHOP, s.sdk.nhopUsed n = true ↔
    ∃ i < MAX_L3_DEFIP, NamesHop s.sdk.asic i n
  apart : ∀ i < MAX_L3_DEFIP, ∀ j < MAX_L3_DEFIP, ∀ n, NamesHop s.sdk.asic i n →
    NamesHop s.sdk.asic j n → i = j

theorem namesHop_lt {a : Asic} {i n : ℕ} (h : NamesHop a i n) : n < MAX_L3_NHOP := by
  obtain ⟨e, -, rfl⟩ := h
  exact e.nhop.isLt

theorem Wired.used_of_namesHop (h : Wired s) {i n : ℕ} (hi : i < MAX_L3_DEFIP)
    (hn : NamesHop s.sdk.asic i n) : s.sdk.nhopUsed n = true := by
  obtain ⟨e, he, rfl⟩ := hn
  exact (h.hop i hi e he).2

theorem Wired.not_namesHop_of_firstFree (h : Wired s) {id : ℕ}
    (hid : firstFree s.sdk.nhopUsed 1 MAX_L3_NHOP = some id) {i : ℕ} (hi : i < MAX_L3_DEFIP) :
    ¬ NamesHop s.sdk.asic i id := by
  intro hn
  have hu := h.used_of_namesHop hi hn
  rw [firstFree_free hid] at hu
  cases hu

theorem namesHop_of_slot {a a' : Asic} (h : a'.slot = a.slot) : NamesHop a' = NamesHop a := by
  funext i n
  simp only [NamesHop, h]

/-- The new slot names the next hop taken, the others what they did. -/
theorem namesHop_installed {m : Nlmsg Rtmsg} {p i id : ℕ} (hid : id < MAX_L3_NHOP) (j n : ℕ) :
    NamesHop ((s.withEgress m p id).withRoute m i id).sdk.asic j n ↔
      j = i ∧ n = id ∨ j ≠ i ∧ NamesHop s.sdk.asic j n := by
  rw [NamesHop, NetState.withRoute, slot_withRoute, NetState.slot_withEgress]
  by_cases hj : j = i
  · rw [hj, Function.update_self]
    simp only [Option.some.injEq, true_and, ne_eq, not_true_eq_false, false_and, or_false,
      exists_eq_left', entryOf, routeOf_nhop hid]
    exact eq_comm
  · simp only [Function.update_of_ne hj, hj, false_and, ne_eq, not_false_eq_true, true_and,
      false_or, NamesHop]

theorem namesHop_withoutRoute (i j n : ℕ) : NamesHop (s.withoutRoute i).sdk.asic j n ↔
    j ≠ i ∧ NamesHop s.sdk.asic j n := by
  rw [NamesHop, NetState.withoutRoute, slot_withoutRoute]
  by_cases hj : j = i
  · rw [hj, Function.update_self]
    simp
  · simp only [Function.update_of_ne hj, ne_eq, hj, not_false_eq_true, true_and, NamesHop]

namespace LeakInv

theorem init {a : Asic} (hf : a.FaultFree) (hs : ∀ i < MAX_L3_DEFIP, a.slot i = none) :
    LeakInv (NetState.init (SdkState.init a)) where
  wired := Wired.init hf hs
  named := by
    intro n _
    refine ⟨nofun, ?_⟩
    rintro ⟨i, hi, e, he, -⟩
    exact absurd ((hs i hi).symm.trans he) nofun
  apart := by
    rintro i hi j hj n ⟨e, he, -⟩ -
    exact absurd ((hs i hi).symm.trans he) nofun

theorem unrouted (h : LeakInv s) {m : Nlmsghdr} (hm : ∀ del r, m ≠ .route del r) :
    LeakInv (dispatch s m) where
  wired := h.wired.dispatch m
  named := by
    have hs := dispatch_sameRoutes h.wired hm
    rw [hs.nhopUsed, namesHop_of_slot hs.slot]
    exact h.named
  apart := by
    rw [namesHop_of_slot (dispatch_sameRoutes h.wired hm).slot]
    exact h.apart

/-- A next hop is taken for a slot that was free. -/
theorem installed (h : LeakInv s) {m : Nlmsg Rtmsg} {p i id : ℕ} (hi : i < MAX_L3_DEFIP)
    (hid : firstFree s.sdk.nhopUsed 1 MAX_L3_NHOP = some id)
    (hlen : m.hdr.rtmDstLen.toNat ≤ 32)
    (huniq : ∀ j < MAX_L3_DEFIP,
      s.sdk.asic.Names j (m.u32 RTA_DST) m.hdr.rtmDstLen.toNat → j = i)
    (hfree : s.sdk.asic.slot i = none) :
    LeakInv ((s.withEgress m p id).withRoute m i id) := by
  have hnames := namesHop_installed (s := s) (m := m) (p := p) (i := i) (firstFree_mem hid).2
  have hunused (j : ℕ) (hj : j < MAX_L3_DEFIP) := h.wired.not_namesHop_of_firstFree hid hj
  refine ⟨h.wired.installed hid hlen huniq, ?_, ?_⟩
  · intro n hn
    simp only [hnames]
    by_cases hnid : n = id
    · subst hnid
      exact iff_of_true (Function.update_self ..) ⟨i, hi, .inl ⟨rfl, rfl⟩⟩
    · have hused : ((s.withEgress m p id).withRoute m i id).sdk.nhopUsed n = s.sdk.nhopUsed n :=
        Function.update_of_ne hnid ..
      rw [hused, h.named n hn]
      constructor
      · rintro ⟨j, hj, e, he, hen⟩
        refine ⟨j, hj, .inr ⟨?_, e, he, hen⟩⟩
        rintro rfl
        rw [hfree] at he
        cases he
      · rintro ⟨j, hj, ⟨-, hn'⟩ | ⟨-, hn'⟩⟩
        · exact absurd hn' hnid
        · exact ⟨j, hj, hn'⟩
  · intro j hj k hk n hjn hkn
    rcases (hnames j n).mp hjn with ⟨rfl, rfl⟩ | ⟨-, hj'⟩
    · rcases (hnames k n).mp hkn with ⟨rfl, -⟩ | ⟨-, hk'⟩
      · rfl
      · exact absurd hk' (hunused k hk)
    · rcases (hnames k n).mp hkn with ⟨rfl, rfl⟩ | ⟨-, hk'⟩
      · exact absurd hj' (hunused j hj)
      · exact h.apart j hj k hk n hj' hk'

/-- The invariant survives every message that meets the condition. -/
theorem step (h : LeakInv s) {m : Nlmsghdr} (hc : OnlyGrows s m) : LeakInv (dispatch s m) := by
  cases m with
  | route del m =>
    cases del with
    | true =>
      by_cases hu : Unicast m
      swap
      · rwa [dispatch, handleRoute_of_not_unicast hu]
      rcases dispatch_delroute h.wired hu with ⟨i, hi, hlen, hn, -⟩ | ⟨-, he⟩
      · exact absurd ⟨i, hi, hn⟩ (hc hu hlen)
      · rwa [he]
    | false =>
      rcases dispatch_newroute h.wired m with he | ⟨p, id, hu, hp, hid⟩
      · rwa [he]
      obtain ⟨hlen, hno, k, hk, hempty⟩ := hc hu (by rw [hp]; exact Option.some_ne_none p)
      rcases dispatch_newroute_of_routed h.wired hu hp hid with
        ⟨i, hi, -, huniq, hown, -, he⟩ | ⟨hlen' | ⟨-, hfull⟩, -⟩
      · rw [he]
        exact h.installed hi hid hlen huniq (hown.resolve_left fun hn => hno ⟨i, hi, hn⟩)
      · exact absurd hlen (by omega)
      · exact absurd hempty (hfull k hk)
  | link del m => exact h.unrouted fun _ _ => Nlmsghdr.noConfusion
  | addr del m => exact h.unrouted fun _ _ => Nlmsghdr.noConfusion
  | neigh del m => exact h.unrouted fun _ _ => Nlmsghdr.noConfusion
  | other => exact h.unrouted fun _ _ => Nlmsghdr.noConfusion

/-- The next hop of a withdrawn route stays marked. -/
theorem not_noLeak_of_delroute (h : LeakInv s) {m : Nlmsg Rtmsg}
    (hc : ¬ OnlyGrows s (.route true m)) : ¬ NoLeak (dispatch s (.route true m)) := by
  simp only [OnlyGrows, not_forall, not_not] at hc
  obtain ⟨hu, hlen, hlive⟩ := hc
  intro hno
  rcases dispatch_delroute h.wired hu with ⟨i, hi, -, ⟨nhop, hs⟩, he⟩ | ⟨hgone, -⟩
  · have hold : NamesHop s.sdk.asic i nhop.toNat := ⟨_, hs, rfl⟩
    rw [he] at hno
    obtain ⟨j, hj, hn⟩ := (hno.named nhop.toNat (namesHop_lt hold)).mp
      (h.wired.used_of_namesHop hi hold)
    obtain ⟨hji, hn⟩ := (namesHop_withoutRoute i j _).mp hn
    exact hji (h.apart j hj i hi _ hn hold)
  · exact hgone hlen hlive

/-- So does the next hop of a replaced route, and the one of a refused route. -/
theorem not_noLeak_of_newroute (h : LeakInv s) {m : Nlmsg Rtmsg}
    (hc : ¬ OnlyGrows s (.route false m)) : ¬ NoLeak (dispatch s (.route false m)) := by
  simp only [OnlyGrows, not_forall] at hc
  obtain ⟨hu, hrouted, hc⟩ := hc
  obtain ⟨p, hp⟩ := Option.ne_none_iff_exists'.mp hrouted
  obtain ⟨id, hid⟩ := Option.ne_none_iff_exists'.mp (NoLeak.of_named h.named).room
  have hrange := firstFree_mem hid
  have hunused (j : ℕ) (hj : j < MAX_L3_DEFIP) := h.wired.not_namesHop_of_firstFree hid hj
  intro hno
  rcases dispatch_newroute_of_routed h.wired hu hp hid with
    ⟨i, hi, hlen, huniq, hown, -, he⟩ | ⟨-, -, he⟩
  · have hnames := namesHop_installed (s := s) (m := m) (p := p) (i := i) hrange.2
    rw [he] at hno
    rcases hown with ⟨nhop, hs⟩ | hfree
    · have hold : NamesHop s.sdk.asic i nhop.toNat := ⟨_, hs, rfl⟩
      have hne : nhop.toNat ≠ id := by
        intro hn
        rw [hn] at hold
        exact hunused i hi hold
      have hused : ((s.withEgress m p id).withRoute m i id).sdk.nhopUsed nhop.toNat = true :=
        (Function.update_of_ne hne ..).trans (h.wired.used_of_namesHop hi hold)
      obtain ⟨j, hj, hn⟩ := (hno.named nhop.toNat (namesHop_lt hold)).mp hused
      rcases (hnames j nhop.toNat).mp hn with ⟨-, hn⟩ | ⟨hji, hn⟩
      · exact hne hn
      · exact hji (h.apart j hj i hi _ hn hold)
    · refine hc ⟨hlen, ?_, i, hi, hfree⟩
      rintro ⟨j, hj, hn⟩
      obtain rfl := huniq j hj hn
      obtain ⟨nhop, hs⟩ := hn
      rw [hfree] at hs
      cases hs
  · rw [he] at hno
    obtain ⟨j, hj, hn⟩ := (hno.named id hrange.2).mp (Function.update_self ..)
    rw [namesHop_of_slot (s.slot_withEgress m p id)] at hn
    exact hunused j hj hn

theorem not_noLeak (h : LeakInv s) {m : Nlmsghdr} (hc : ¬ OnlyGrows s m) :
    ¬ NoLeak (dispatch s m) := by
  match m, hc with
  | .route true _, hc => exact h.not_noLeak_of_delroute hc
  | .route false _, hc => exact h.not_noLeak_of_newroute hc
  | .link _ _, hc => exact absurd trivial hc
  | .addr _ _, hc => exact absurd trivial hc
  | .neigh _ _, hc => exact absurd trivial hc
  | .other, hc => exact absurd trivial hc

end LeakInv

/-- No next hop leaks throughout exactly the histories in which the offloaded
routes only grow. -/
theorem noLeak_iff_onlyGrows {a : Asic} (hf : a.FaultFree)
    (hs : ∀ i < MAX_L3_DEFIP, a.slot i = none) (ms : List Nlmsghdr) :
    Throughout dispatch NoLeak (NetState.init (SdkState.init a)) ms ↔
      EachStep dispatch OnlyGrows (NetState.init (SdkState.init a)) ms :=
  throughout_iff_eachStep_of_any (fun _ h => NoLeak.of_named h.named) (fun _ _ h hc => h.step hc)
    (fun _ _ h hc => h.not_noLeak hc) (LeakInv.init hf hs) ms

/-! ### One route -/

theorem onlyGrows_onSwp1 : OnlyGrows onSwp1 (routeTen false [oifSwp1]) := by
  refine fun _ _ => ⟨by decide, ?_, 0, by decide, slot_onSwp1 0⟩
  rintro ⟨i, -, nhop, hs⟩
  exact absurd ((slot_onSwp1 i).symm.trans hs) nofun

/-- A route is added and withdrawn: next hop 1 stays taken. -/
theorem noLeak_fails :
    ¬ Throughout dispatch NoLeak (NetState.init (SdkState.init Asic.blank))
      [newlinkSwp1, addrSwp1 false, routeTen false [oifSwp1], routeTen true [oifSwp1]] := by
  intro h
  have hinit : LeakInv (NetState.init (SdkState.init Asic.blank)) :=
    LeakInv.init Asic.blank_faultFree fun i _ => slot_blank i
  have hadded : LeakInv (dispatch onSwp1 (routeTen false [oifSwp1])) :=
    ((hinit.step (m := newlinkSwp1) trivial).step (m := addrSwp1 false) trivial).step
      onlyGrows_onSwp1
  have hslot : (dispatch onSwp1 (routeTen false [oifSwp1])).sdk.asic.slot 0 =
      some (entryOf 0x0a000000 8 1) := by decide +kernel
  refine hadded.not_noLeak (m := routeTen true [oifSwp1]) (fun hc => ?_) h.final
  exact hc (by decide) (by decide) ⟨0, by decide, 1, hslot⟩

/-- A route is added and stays. -/
theorem noLeak_firstRoute :
    Throughout dispatch NoLeak (NetState.init (SdkState.init Asic.blank))
      [newlinkSwp1, addrSwp1 false, routeTen false [oifSwp1]] := by
  refine (noLeak_iff_onlyGrows Asic.blank_faultFree (fun i _ => slot_blank i) _).mpr ?_
  exact ⟨trivial, trivial, onlyGrows_onSwp1, trivial⟩

end OpenNos.Switchd
