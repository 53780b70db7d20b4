import OpenNos.Switchd.NeighCache
import OpenNos.Switchd.Wired

/-! The destination MAC of live routes beside the neighbour cache. A route takes
its MAC from the cache once, when it is installed: it gets the zero MAC if the
neighbour is not known yet, and keeps the old one when the neighbour changes. -/

namespace OpenNos.Switchd

open Bits FirstFit Sdk History

def gateway (m : Nlmsg Rtmsg) : Option (BitVec 32) := (m.tb RTA_GATEWAY).map (·.u32)

/-- The netlink thread, and the gateway and interface each prefix was last
installed with. -/
structure MacState where
  net : NetState
  via : BitVec 32 × ℕ → Option (Option (BitVec 32) × BitVec 32)

def MacState.step (f : MacState) (m : Nlmsghdr) : MacState where
  net := dispatch f.net m
  via :=
    match m with
    | .route false r =>
      if Unicast r ∧ routeInstalled f.net r = true then
        Function.update f.via (r.u32 RTA_DST, r.hdr.rtmDstLen.toNat)
          (some (gateway r, r.u32 RTA_OIF))
      else f.via
    | _ => f.via

def MacState.start (a : Asic) : MacState where
  net := NetState.init (SdkState.init a)
  via := fun _ => none

/-- Every live route carries a MAC, and the one the cache has for its gateway. -/
def Fresh (f : MacState) : Prop :=
  ∀ pfx (len n : ℕ), len ≤ 32 → f.net.sdk.asic.Forwards pfx len n →
    f.net.sdk.asic.chain.hopMac n ≠ 0 ∧
    ∀ g oif mac, f.via (pfx, len) = some (some g, oif) →
      neighCacheGet f.net.neighCache g oif = some mac →
      f.net.sdk.asic.chain.hopMac n = mac.u48

/-- A route is installed after its neighbour is known, and a neighbour that
changes its MAC is the gateway of no live route. -/
def KnownFirst (f : MacState) : Nlmsghdr → Prop
  | .route false m => Unicast m → routeInstalled f.net m = true →
      ∃ mac, neighCacheGet f.net.neighCache (m.u32 RTA_GATEWAY) (m.u32 RTA_OIF) = some mac ∧
        mac.u48 ≠ 0
  | .neigh false m => ∀ port mac, neighPort f.net m = some port → neighLladdr m = some mac →
      Takes f.net.neighCache (m.u32 NDA_DST) m.hdr.ndmIfindex →
      ∀ pfx (len n : ℕ), len ≤ 32 →
        f.via (pfx, len) = some (some (m.u32 NDA_DST), m.hdr.ndmIfindex) →
        f.net.sdk.asic.Forwards pfx len n → f.net.sdk.asic.chain.hopMac n = mac.u48
  | _ => True

variable {s s' : NetState} {f : MacState}

structure MacState.Inv (f : MacState) : Prop where
  wired : Wired f.net
  keyed : Keyed f.net.neighCache
  fresh : Fresh f

theorem MacState.Inv.start {a : Asic} (hf : a.FaultFree)
    (hs : ∀ i < MAX_L3_DEFIP, a.slot i = none) : (MacState.start a).Inv where
  wired := Wired.init hf hs
  keyed := List.nodup_nil
  fresh := by
    rintro pfx len n - ⟨i, hi, nhop, he, -⟩
    exact absurd ((hs i hi).symm.trans he) nofun

theorem egressBy_mac_of_some {m : Nlmsg Rtmsg} {mac : Mac}
    (h : neighCacheGet s.neighCache (m.u32 RTA_GATEWAY) (m.u32 RTA_OIF) = some mac) (p : ℕ) :
    (egressBy s m p).mac = mac := by
  rw [egressBy, h, Option.getD_some]

theorem egressBy_mac_of_none {m : Nlmsg Rtmsg}
    (h : neighCacheGet s.neighCache (m.u32 RTA_GATEWAY) (m.u32 RTA_OIF) = none) (p : ℕ) :
    (egressBy s m p).mac.u48 = 0 := by
  rw [egressBy, h, Option.getD_none]
  change Mac.u48 (Vector.replicate 6 0) = 0
  decide

theorem gateway_eq_some {m : Nlmsg Rtmsg} {g : BitVec 32} (h : gateway m = some g) :
    m.u32 RTA_GATEWAY = g := by
  rw [gateway, Option.map_eq_some_iff] at h
  obtain ⟨a, ha, rfl⟩ := h
  rw [Nlmsg.u32, ha]

namespace MacState.Inv

/-- No route is installed, and a neighbour that changes its MAC changes it to what
its routes carry. -/
theorem frame (h : f.Inv) (h' : Wired s') (hk : Keyed s'.neighCache)
    (hfwd : ∀ pfx (len n : ℕ), len ≤ 32 → s'.sdk.asic.Forwards pfx len n →
      f.net.sdk.asic.Forwards pfx len n)
    (hmac : ∀ n, f.net.sdk.nhopUsed n = true →
      s'.sdk.asic.chain.hopMac n = f.net.sdk.asic.chain.hopMac n)
    (hcache : ∀ g oif mac, neighCacheGet s'.neighCache g oif = some mac →
      neighCacheGet f.net.neighCache g oif = some mac ∨
      ∀ pfx (len n : ℕ), len ≤ 32 → f.via (pfx, len) = some (some g, oif) →
        f.net.sdk.asic.Forwards pfx len n → f.net.sdk.asic.chain.hopMac n = mac.u48) :
    MacState.Inv { f with net := s' } where
  wired := h'
  keyed := hk
  fresh := by
    intro pfx len n hlen hn
    have hold := hfwd pfx len n hlen hn
    obtain ⟨hne, hvia⟩ := h.fresh pfx len n hlen hold
    rw [hmac n (h.wired.nhopUsed hold)]
    refine ⟨hne, fun g oif mac hv hc => ?_⟩
    rcases hcache g oif mac hc with hc | hc
    · exact hvia g oif mac hv hc
    · exact hc pfx len n hlen hv hold

/-- The routes and next hops are the same. -/
theorem of_same (h : f.Inv) (hs : SameRoutes f.net s') (h' : Wired s')
    (hk : Keyed s'.neighCache)
    (hcache : ∀ g oif mac, neighCacheGet s'.neighCache g oif = some mac →
      neighCacheGet f.net.neighCache g oif = some mac ∨
      ∀ pfx (len n : ℕ), len ≤ 32 → f.via (pfx, len) = some (some g, oif) →
        f.net.sdk.asic.Forwards pfx len n → f.net.sdk.asic.chain.hopMac n = mac.u48) :
    MacState.Inv { f with net := s' } := by
  refine h.frame h' hk ?_ ?_ hcache
  · intro pfx len n _ hn
    rwa [forwards_of_slot hs.slot] at hn
  · intro n _
    rw [hs.hopMac]

theorem of_same_cache (h : f.Inv) (hs : SameRoutes f.net s') (h' : Wired s')
    (hc : s'.neighCache = f.net.neighCache) : MacState.Inv { f with net := s' } := by
  refine h.of_same hs h' ?_ ?_
  · rw [hc]
    exact h.keyed
  · intro g oif mac hg
    rw [hc] at hg
    exact .inl hg

/-- Messages about neither routes nor neighbours. -/
theorem unconcerned (h : f.Inv) {m : Nlmsghdr} (hr : ∀ del r, m ≠ .route del r)
    (hn : ∀ del n, m ≠ .neigh del n) : MacState.Inv { f with net := dispatch f.net m } :=
  h.of_same_cache (dispatch_sameRoutes h.wired hr) (h.wired.dispatch m)
    (dispatch_neighCache f.net hn)

theorem delroute (h : f.Inv) (m : Nlmsg Rtmsg) :
    MacState.Inv { f with net := dispatch f.net (.route true m) } := by
  have h' := h.wired.dispatch (.route true m)
  by_cases hu : Unicast m
  swap
  · rw [dispatch, handleRoute_of_not_unicast hu]
    exact h
  rcases dispatch_delroute h.wired hu with ⟨i, hi, hlen, hn, he⟩ | ⟨-, he⟩
  · rw [he] at h' ⊢
    refine h.frame h' h.keyed ?_ ?_ fun _ _ _ hc => .inl hc
    · intro pfx len n hl hn'
      exact ((h.wired.store.forwards_withoutRoute hi (natLen hlen) hn (natLen hl)).mp hn').2
    · intro n _
      rw [NetState.chain_withoutRoute]
  · rw [he]
    exact h

/-- The entry of a removed neighbour is gone, and no other comes to light. -/
theorem delneigh (h : f.Inv) (m : Nlmsg Ndmsg) :
    MacState.Inv { f with net := dispatch f.net (.neigh true m) } := by
  have hsame : SameRoutes f.net (dispatch f.net (.neigh true m)) :=
    dispatch_sameRoutes h.wired nofun
  have h' := h.wired.dispatch (.neigh true m)
  cases hp : neighPort f.net m with
  | none =>
    have hcache : (dispatch f.net (.neigh true m)).neighCache = f.net.neighCache := by
      rw [dispatch, handleNeigh_of_none hp]
      rfl
    exact h.of_same_cache hsame h' hcache
  | some port =>
    have hcache : (dispatch f.net (.neigh true m)).neighCache =
        neighCacheRemove f.net.neighCache (m.u32 NDA_DST) m.hdr.ndmIfindex := by
      rw [dispatch, handleNeigh_del hp]
      rfl
    refine h.of_same hsame h' ?_ ?_
    · rw [hcache]
      exact h.keyed.remove _ _
    · intro g oif mac hc
      rw [hcache] at hc
      by_cases hkey : g = m.u32 NDA_DST ∧ oif = m.hdr.ndmIfindex
      · obtain ⟨rfl, rfl⟩ := hkey
        rw [neighCacheGet_remove_self h.keyed] at hc
        cases hc
      · rw [neighCacheGet_remove_of_ne hkey] at hc
        exact .inl hc

theorem newneigh (h : f.Inv) {m : Nlmsg Ndmsg} (hc : KnownFirst f (.neigh false m)) :
    MacState.Inv { f with net := dispatch f.net (.neigh false m) } := by
  have hsame : SameRoutes f.net (dispatch f.net (.neigh false m)) :=
    dispatch_sameRoutes h.wired nofun
  have h' := h.wired.dispatch (.neigh false m)
  cases hp : neighPort f.net m with
  | none =>
    refine h.of_same_cache hsame h' ?_
    rw [dispatch, handleNeigh_of_none hp]
    rfl
  | some port =>
    cases hmac : neighLladdr m with
    | none =>
      refine h.of_same_cache hsame h' ?_
      rw [dispatch, handleNeigh_new_of_none hp hmac]
      rfl
    | some mac =>
      have hcache : (dispatch f.net (.neigh false m)).neighCache =
          neighCacheSet f.net.neighCache (m.u32 NDA_DST) m.hdr.ndmIfindex mac := by
        rw [dispatch, handleNeigh_new hp hmac]
        rfl
      by_cases ht : Takes f.net.neighCache (m.u32 NDA_DST) m.hdr.ndmIfindex
      swap
      · refine h.of_same_cache hsame h' ?_
        rw [hcache, neighCacheSet_of_full ht]
      refine h.of_same hsame h' ?_ ?_
      · rw [hcache]
        exact h.keyed.set _ _ _
      · intro g oif mac' hg
        rw [hcache] at hg
        by_cases hkey : g = m.u32 NDA_DST ∧ oif = m.hdr.ndmIfindex
        · obtain ⟨rfl, rfl⟩ := hkey
          rw [neighCacheGet_set_self ht] at hg
          cases hg
          exact .inr (hc port mac hp hmac ht)
        · rw [neighCacheGet_set_of_ne hkey] at hg
          exact .inl hg

/-- A route is installed with the MAC the cache has for its neighbour. -/
theorem installed (h : f.Inv) {m : Nlmsg Rtmsg} {p i id : ℕ} (hi : i < MAX_L3_DEFIP)
    (hid : firstFree f.net.sdk.nhopUsed 1 MAX_L3_NHOP = some id)
    (hlen : m.hdr.rtmDstLen.toNat ≤ 32)
    (huniq : ∀ j < MAX_L3_DEFIP,
      f.net.sdk.asic.Names j (m.u32 RTA_DST) m.hdr.rtmDstLen.toNat → j = i)
    (hown : f.net.sdk.asic.Names i (m.u32 RTA_DST) m.hdr.rtmDstLen.toNat ∨
      f.net.sdk.asic.slot i = none) {mac : Mac}
    (hmac : neighCacheGet f.net.neighCache (m.u32 RTA_GATEWAY) (m.u32 RTA_OIF) = some mac)
    (hne : mac.u48 ≠ 0) :
    MacState.Inv
      { net := (f.net.withEgress m p id).withRoute m i id
        via := Function.update f.via (m.u32 RTA_DST, m.hdr.rtmDstLen.toNat)
          (some (gateway m, m.u32 RTA_OIF)) } where
  wired := h.wired.installed hid hlen huniq
  keyed := h.keyed
  fresh := by
    intro pfx len n hl hn
    have hn' := (forwards_installed hi (firstFree_mem hid) hlen huniq hown pfx (natLen hl) n).mp hn
    rw [NetState.chain_withRoute]
    rcases hn' with ⟨⟨rfl, hlen'⟩, rfl⟩ | ⟨hkey, hold⟩
    · obtain rfl := Nat.cast_inj.mp hlen'
      rw [(hops_withEgress_self m p n).2.2, egressBy_mac_of_some hmac]
      refine ⟨hne, fun g oif mac' hvia hc => ?_⟩
      simp only [Function.update_self, Option.some.injEq, Prod.mk.injEq] at hvia
      obtain ⟨hg, rfl⟩ := hvia
      have hc' : neighCacheGet f.net.neighCache g (m.u32 RTA_OIF) = some mac' := hc
      rw [← gateway_eq_some hg, hmac] at hc'
      cases hc'
      rfl
    · obtain ⟨hold0, hvia⟩ := h.fresh pfx len n hl hold
      rw [(hops_withEgress_of_used m hid (h.wired.nhopUsed hold)).2.2]
      refine ⟨hold0, fun g oif mac' hv hc => hvia g oif mac' ?_ hc⟩
      have hne' : (pfx, len) ≠ (m.u32 RTA_DST, m.hdr.rtmDstLen.toNat) := by
        rintro ⟨⟩
        exact hkey ⟨rfl, rfl⟩
      simpa only [Function.update_of_ne hne'] using hv

/-- A new route takes the MAC of its neighbour, or is not installed. -/
theorem newroute (h : f.Inv) {m : Nlmsg Rtmsg} (hc : KnownFirst f (.route false m)) :
    (f.step (.route false m)).Inv := by
  have h' := h.wired.dispatch (.route false m)
  rw [MacState.step]
  by_cases hu : Unicast m
  swap
  · simp only [hu, false_and, if_false]
    rw [dispatch, handleRoute_of_not_unicast hu]
    exact h
  cases hp : routedPort f.net (m.u32 RTA_OIF).toNat with
  | none =>
    simp only [routeInstalled_of_unrouted hp, Bool.false_eq_true, and_false, if_false]
    rw [dispatch, handleRoute_of_unrouted hu hp]
    exact h
  | some p =>
    cases hid : firstFree f.net.sdk.nhopUsed 1 MAX_L3_NHOP with
    | none =>
      simp only [h.wired.routeInstalled_of_full hp hid, Bool.false_eq_true, and_false, if_false]
      rw [dispatch, handleRoute_of_full hu hp (h.wired.intfId p) hid]
      exact h
    | some id =>
      rcases dispatch_newroute_of_routed h.wired hu hp hid with
        ⟨i, hi, hlen, huniq, hown, hinst, he⟩ | ⟨-, hinst, he⟩
      · simp only [hu, hinst, and_self, if_true]
        rw [he] at h' ⊢
        obtain ⟨mac, hmac, hne⟩ := hc hu hinst
        exact h.installed hi hid hlen huniq hown hmac hne
      · simp only [hinst, Bool.false_eq_true, and_false, if_false]
        rw [he] at h' ⊢
        refine h.frame h' h.keyed ?_ ?_ fun _ _ _ hc => .inl hc
        · intro pfx len n _ hn
          rwa [forwards_of_slot (f.net.slot_withEgress m p id)] at hn
        · intro n hn
          exact (hops_withEgress_of_used m hid hn).2.2

/-- The invariant survives every message that meets the condition. -/
theorem step (h : f.Inv) {m : Nlmsghdr} (hc : KnownFirst f m) : (f.step m).Inv := by
  cases m with
  | link del m => exact h.unconcerned nofun nofun
  | addr del m => exact h.unconcerned nofun nofun
  | route del m =>
    cases del with
    | true => exact h.delroute m
    | false => exact h.newroute hc
  | neigh del m =>
    cases del with
    | true => exact h.delneigh m
    | false => exact h.newneigh hc
  | other => exact h

/-- A route installed without the MAC of its neighbour has none. -/
theorem not_fresh_of_newroute (h : f.Inv) {m : Nlmsg Rtmsg}
    (hc : ¬ KnownFirst f (.route false m)) : ¬ Fresh (f.step (.route false m)) := by
  simp only [KnownFirst, not_forall, not_exists, not_and, not_not] at hc
  obtain ⟨hu, hinst, hno⟩ := hc
  cases hp : routedPort f.net (m.u32 RTA_OIF).toNat with
  | none =>
    rw [routeInstalled_of_unrouted hp] at hinst
    cases hinst
  | some p =>
    cases hid : firstFree f.net.sdk.nhopUsed 1 MAX_L3_NHOP with
    | none =>
      rw [h.wired.routeInstalled_of_full hp hid] at hinst
      cases hinst
    | some id =>
      rcases dispatch_newroute_of_routed h.wired hu hp hid with
        ⟨i, hi, hlen, huniq, hown, -, he⟩ | ⟨-, hinst', -⟩
      swap
      · rw [hinst'] at hinst
        cases hinst
      intro hfresh
      have hfwd : (f.step (.route false m)).net.sdk.asic.Forwards (m.u32 RTA_DST)
          m.hdr.rtmDstLen.toNat id := by
        rw [MacState.step]
        simp only [he]
        exact (forwards_installed hi (firstFree_mem hid) hlen huniq hown _ (natLen hlen) id).mpr
          (.inl ⟨⟨rfl, rfl⟩, rfl⟩)
      refine (hfresh _ _ id hlen hfwd).1 ?_
      rw [MacState.step]
      simp only [he]
      rw [NetState.chain_withRoute, (hops_withEgress_self m p id).2.2]
      cases hmac : neighCacheGet f.net.neighCache (m.u32 RTA_GATEWAY) (m.u32 RTA_OIF) with
      | none => exact egressBy_mac_of_none hmac p
      | some mac =>
        rw [egressBy_mac_of_some hmac]
        exact hno mac hmac

/-- A route whose gateway changes its MAC keeps the old one. -/
theorem not_fresh_of_newneigh (h : f.Inv) {m : Nlmsg Ndmsg}
    (hc : ¬ KnownFirst f (.neigh false m)) : ¬ Fresh (f.step (.neigh false m)) := by
  simp only [KnownFirst, not_forall] at hc
  obtain ⟨port, mac, hp, hmac, ht, pfx, len, n, hlen, hvia, hfwd, hne⟩ := hc
  have hsame : SameRoutes f.net (dispatch f.net (.neigh false m)) :=
    dispatch_sameRoutes h.wired nofun
  intro hfresh
  have hfwd' : (dispatch f.net (.neigh false m)).sdk.asic.Forwards pfx len n := by
    rwa [forwards_of_slot hsame.slot]
  have hcache : neighCacheGet (dispatch f.net (.neigh false m)).neighCache (m.u32 NDA_DST)
      m.hdr.ndmIfindex = some mac := by
    rw [dispatch, handleNeigh_new hp hmac]
    exact neighCacheGet_set_self ht
  have hold : (dispatch f.net (.neigh false m)).sdk.asic.chain.hopMac n = mac.u48 :=
    (hfresh pfx len n hlen hfwd').2 _ _ mac hvia hcache
  rw [hsame.hopMac] at hold
  exact hne hold

theorem not_fresh (h : f.Inv) {m : Nlmsghdr} (hc : ¬ KnownFirst f m) : ¬ Fresh (f.step m) := by
  match m, hc with
  | .route false _, hc => exact h.not_fresh_of_newroute hc
  | .neigh false _, hc => exact h.not_fresh_of_newneigh hc
  | .route true _, hc => exact absurd trivial hc
  | .neigh true _, hc => exact absurd trivial hc
  | .link _ _, hc => exact absurd trivial hc
  | .addr _ _, hc => exact absurd trivial hc
  | .other, hc => exact absurd trivial hc

end MacState.Inv

/-- The MACs are fresh throughout exactly the histories in which every route is
installed after its neighbour is known and no gateway of a live route changes its
MAC. -/
theorem fresh_iff_knownFirst {a : Asic} (hf : a.FaultFree)
    (hs : ∀ i < MAX_L3_DEFIP, a.slot i = none) (ms : List Nlmsghdr) :
    Throughout MacState.step Fresh (MacState.start a) ms ↔
      EachStep MacState.step KnownFirst (MacState.start a) ms :=
  throughout_iff_eachStep_of_any (fun _ h => h.fresh) (fun _ _ h hc => h.step hc)
    (fun _ _ h hc => h.not_fresh hc) (MacState.Inv.start hf hs) ms

/-! ### A route before its neighbour -/

/-- RTA_GATEWAY 10.0.0.2. -/
def viaTwo : ℕ × List Cstring.Byte := (RTA_GATEWAY, [10, 0, 0, 2])

/-- The route arrives first: its MAC is zero. -/
theorem fresh_fails :
    ¬ Throughout MacState.step Fresh (MacState.start Asic.blank)
      [newlinkSwp1, addrSwp1 false, routeTen false [oifSwp1, viaTwo], neighSwp1 false 2 9] := by
  intro h
  have hfwd : (run MacState.step (MacState.start Asic.blank)
      [newlinkSwp1, addrSwp1 false, routeTen false [oifSwp1, viaTwo],
        neighSwp1 false 2 9]).net.sdk.asic.Forwards 0x0a000000 8 1 :=
    ⟨0, by decide, 1, by decide +kernel, by decide⟩
  refine (h.final 0x0a000000 8 1 (by decide) hfwd).1 ?_
  decide +kernel

/-- The neighbour arrives first. -/
theorem fresh_neighbourFirst :
    Throughout MacState.step Fresh (MacState.start Asic.blank)
      [newlinkSwp1, addrSwp1 false, neighSwp1 false 2 9, routeTen false [oifSwp1, viaTwo]] := by
  refine (fresh_iff_knownFirst Asic.blank_faultFree (fun i _ => slot_blank i) _).mpr ?_
  refine ⟨trivial, trivial, ?_, ?_, trivial⟩
  · exact fun _ _ _ _ _ pfx len n _ hvia => nomatch hvia
  · exact fun _ _ => ⟨#v[2, 0, 0, 0, 0, 9], by decide +kernel, by decide⟩

end OpenNos.Switchd
