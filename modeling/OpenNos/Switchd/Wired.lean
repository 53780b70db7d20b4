import OpenNos.Lib.History
import OpenNos.Sdk.Fib
import OpenNos.Switchd.Dispatch

/-! The invariant of every message: the route store is consistent, the recorded
interfaces are ids of the interface table, and every valid slot names a next hop
that is marked as used. Each kind of message then has one rule that lists what it
does to a state with the invariant. -/

namespace OpenNos.Switchd

open Bits FirstFit Sdk History

structure Wired (s : NetState) : Prop where
  store : RouteStore s.sdk
  intfId : ∀ p, s.portToIntfId p < MAX_L3_INTF
  hop : ∀ i < MAX_L3_DEFIP, ∀ e, s.sdk.asic.slot i = some e →
    0 < e.nhop.toNat ∧ s.sdk.nhopUsed e.nhop.toNat = true

/-- An empty table before the first message. -/
theorem Wired.init {a : Asic} (hf : a.FaultFree) (hs : ∀ i < MAX_L3_DEFIP, a.slot i = none) :
    Wired (NetState.init (SdkState.init a)) where
  store := RouteStore.init hf hs
  intfId _ := show 0 < MAX_L3_INTF by decide
  hop i hi e he := absurd ((hs i hi).symm.trans he) nofun

variable {s : NetState}

theorem Wired.nhopUsed (h : Wired s) {pfx : BitVec 32} {plen : ℤ} {n : ℕ}
    (hr : s.sdk.asic.Forwards pfx plen n) : s.sdk.nhopUsed n = true := by
  obtain ⟨i, hi, nhop, hs, rfl⟩ := hr
  exact (h.hop i hi _ hs).2

/-! ### Effects -/

namespace NetState

/-- An interface is created and recorded for port `p`. -/
def withIntf (s : NetState) (p id : ℕ) : NetState :=
  { s with
    sdk := s.sdk.withIntf id (portMac p) 0
    portToIntfId := Function.update s.portToIntfId p id }

/-- The interface recorded for port `p` is destroyed. -/
def withoutIntf (s : NetState) (p : ℕ) : NetState :=
  { s with
    sdk := s.sdk.withoutIntf (s.portToIntfId p)
    portToIntfId := Function.update s.portToIntfId p 0 }

/-- Next hop `id` is taken for a route by way of port `p`. -/
def withEgress (s : NetState) (m : Nlmsg Rtmsg) (p id : ℕ) : NetState :=
  { s with sdk := s.sdk.withEgress id (egressBy s m p) }

/-- The route is written to slot `i`, by way of next hop `id`. -/
def withRoute (s : NetState) (m : Nlmsg Rtmsg) (i id : ℕ) : NetState :=
  { s with sdk := s.sdk.withRoute i (routeOf m id) }

def withoutRoute (s : NetState) (i : ℕ) : NetState :=
  { s with sdk := s.sdk.withoutRoute i }

section Frame

variable (s : NetState) (m : Nlmsg Rtmsg) (p i id : ℕ)

@[simp] theorem slot_withIntf : (s.withIntf p id).sdk.asic.slot = s.sdk.asic.slot :=
  Sdk.slot_withIntf ..

@[simp] theorem slot_withoutIntf : (s.withoutIntf p).sdk.asic.slot = s.sdk.asic.slot :=
  Sdk.slot_withoutIntf ..

@[simp] theorem slot_withEgress : (s.withEgress m p id).sdk.asic.slot = s.sdk.asic.slot :=
  Sdk.slot_withEgress ..

/-- Creating or destroying an interface leaves the next hops. -/
@[simp] theorem hops_withIntf :
    (s.withIntf p id).sdk.asic.chain.hopPort = s.sdk.asic.chain.hopPort ∧
      (s.withIntf p id).sdk.asic.chain.hopIntf = s.sdk.asic.chain.hopIntf ∧
      (s.withIntf p id).sdk.asic.chain.hopMac = s.sdk.asic.chain.hopMac := by
  rw [withIntf, chain_withIntf]
  exact ⟨rfl, rfl, rfl⟩

@[simp] theorem hops_withoutIntf :
    (s.withoutIntf p).sdk.asic.chain.hopPort = s.sdk.asic.chain.hopPort ∧
      (s.withoutIntf p).sdk.asic.chain.hopIntf = s.sdk.asic.chain.hopIntf ∧
      (s.withoutIntf p).sdk.asic.chain.hopMac = s.sdk.asic.chain.hopMac := by
  rw [withoutIntf, chain_withoutIntf]
  exact ⟨rfl, rfl, rfl⟩

@[simp] theorem chain_withRoute : (s.withRoute m i id).sdk.asic.chain = s.sdk.asic.chain :=
  Sdk.chain_withRoute ..

@[simp] theorem chain_withoutRoute : (s.withoutRoute i).sdk.asic.chain = s.sdk.asic.chain :=
  Sdk.chain_withoutRoute ..

end Frame

end NetState

theorem toNat_ofInt_natCast {w n : ℕ} (h : n < 2 ^ w) : (BitVec.ofInt w (n : ℤ)).toNat = n := by
  rw [BitVec.ofInt_natCast, BitVec.toNat_ofNat, Nat.mod_eq_of_lt h]

theorem natLen {len : ℕ} (h : len ≤ 32) : (0 : ℤ) ≤ len ∧ (len : ℤ) ≤ 32 := by omega

/-- The next hop an installed route names. -/
theorem routeOf_nhop {m : Nlmsg Rtmsg} {id : ℕ} (hid : id < MAX_L3_NHOP) :
    (BitVec.ofInt 14 (routeOf m id).egressId).toNat = id :=
  toNat_ofInt_natCast hid

namespace Wired

theorem of_same {s' : NetState} (h : Wired s) (hs : SameL3 s.sdk s'.sdk)
    (hp : s'.portToIntfId = s.portToIntfId) : Wired s' where
  store := hs.routeStore h.store
  intfId := by rw [hp]; exact h.intfId
  hop := by rw [hs.slot, hs.nhopUsed]; exact h.hop

theorem withIntf (h : Wired s) {p id : ℕ} (hid : id < MAX_L3_INTF) : Wired (s.withIntf p id) where
  store := h.store.withIntf id (portMac p) 0
  intfId := by
    intro q
    by_cases hq : q = p
    · simpa [NetState.withIntf, hq] using hid
    · simpa [NetState.withIntf, hq] using h.intfId q
  hop := by
    intro i hi e he
    rw [NetState.withIntf, slot_withIntf] at he
    exact h.hop i hi e he

theorem withoutIntf (h : Wired s) (p : ℕ) : Wired (s.withoutIntf p) where
  store := h.store.withoutIntf (s.portToIntfId p)
  intfId := by
    intro q
    by_cases hq : q = p
    · simp [NetState.withoutIntf, hq, MAX_L3_INTF]
    · simpa [NetState.withoutIntf, hq] using h.intfId q
  hop := by
    intro i hi e he
    rw [NetState.withoutIntf, slot_withoutIntf] at he
    exact h.hop i hi e he

theorem withEgress (h : Wired s) (m : Nlmsg Rtmsg) (p id : ℕ) : Wired (s.withEgress m p id) where
  store := h.store.withEgress id (egressBy s m p)
  intfId := h.intfId
  hop := by
    intro i hi e he
    rw [NetState.withEgress, slot_withEgress] at he
    obtain ⟨hpos, hu⟩ := h.hop i hi e he
    refine ⟨hpos, ?_⟩
    by_cases hid : e.nhop.toNat = id
    · simp [NetState.withEgress, SdkState.withEgress, hid]
    · simpa [NetState.withEgress, SdkState.withEgress, hid] using hu

theorem withRoute (h : Wired s) {m : Nlmsg Rtmsg} {i id : ℕ} (hid : 1 ≤ id ∧ id < MAX_L3_NHOP)
    (hu : s.sdk.nhopUsed id = true) (hlen : m.hdr.rtmDstLen.toNat ≤ 32)
    (huniq : ∀ j < MAX_L3_DEFIP,
      s.sdk.asic.Names j (m.u32 RTA_DST) m.hdr.rtmDstLen.toNat → j = i) :
    Wired (s.withRoute m i id) where
  store := h.store.withRoute (routeOf_accepted hlen hid).2.1 huniq
  intfId := h.intfId
  hop := by
    intro j hj e he
    rw [NetState.withRoute, slot_withRoute] at he
    by_cases hji : j = i
    · rw [hji, Function.update_self] at he
      cases he
      simp only [entryOf, routeOf_nhop hid.2]
      exact ⟨hid.1, hu⟩
    · rw [Function.update_of_ne hji] at he
      exact h.hop j hj e he

theorem withoutRoute (h : Wired s) (i : ℕ) : Wired (s.withoutRoute i) where
  store := h.store.withoutRoute i
  intfId := h.intfId
  hop := by
    intro j hj e he
    rw [NetState.withoutRoute, slot_withoutRoute] at he
    by_cases hji : j = i
    · rw [hji, Function.update_self] at he
      cases he
    · rw [Function.update_of_ne hji] at he
      exact h.hop j hj e he

end Wired

/-! ### What each kind of message does -/

/-- Messages that leave the L3 tables alone. -/
def Quiet : Nlmsghdr → Prop
  | .link _ _ | .neigh _ _ | .other => True
  | .addr _ _ | .route _ _ => False

theorem dispatch_quiet (h : Wired s) {m : Nlmsghdr} (hm : Quiet m) :
    SameL3 s.sdk (dispatch s m).sdk ∧ (dispatch s m).portToIntfId = s.portToIntfId := by
  cases m with
  | link del m =>
    obtain ⟨f, hf⟩ := handleLink_fst s del m
    rw [dispatch, NetState.perform, hf]
    exact ⟨foldl_perform_same _ h.store.faultFree _, rfl⟩
  | neigh del m =>
    obtain ⟨c, hc⟩ := handleNeigh_fst s del m
    rw [dispatch, NetState.perform, hc]
    exact ⟨foldl_perform_same _ h.store.faultFree _, rfl⟩
  | other => exact ⟨SameL3.refl h.store.faultFree, rfl⟩
  | addr del m => exact hm.elim
  | route del m => exact hm.elim

/-- An address message creates an interface, destroys the recorded one, or does
nothing. -/
theorem dispatch_addr (h : Wired s) (del : Bool) (m : Nlmsg Ifaddrmsg) :
    dispatch s (.addr del m) = s ∨
    (∃ p id, del = false ∧ addrPort s m = some p ∧
      firstFree s.sdk.intfUsed 1 MAX_L3_INTF = some id ∧
      dispatch s (.addr del m) = s.withIntf p id) ∨
    ∃ p, del = true ∧ addrPort s m = some p ∧ s.portToIntfId p ≠ 0 ∧
      dispatch s (.addr del m) = s.withoutIntf p := by
  rw [dispatch]
  cases hp : addrPort s m with
  | none => exact .inl (handleAddr_of_none hp)
  | some p =>
    cases del with
    | false =>
      cases hid : firstFree s.sdk.intfUsed 1 MAX_L3_INTF with
      | none => exact .inl (handleAddr_new_of_full hp hid)
      | some id => exact .inr (.inl ⟨p, id, rfl, rfl, rfl, handleAddr_new h.store.faultFree hp hid⟩)
    | true =>
      by_cases hz : s.portToIntfId p = 0
      · exact .inl (handleAddr_del_of_zero hp hz)
      · have hid : 0 < s.portToIntfId p ∧ s.portToIntfId p < MAX_L3_INTF :=
          ⟨by omega, h.intfId p⟩
        exact .inr (.inr ⟨p, rfl, rfl, hz, handleAddr_del h.store.faultFree hp hid⟩)

/-- The slots and their next hops are the same. -/
structure SameRoutes (s s' : NetState) : Prop where
  slot : s'.sdk.asic.slot = s.sdk.asic.slot
  hopPort : s'.sdk.asic.chain.hopPort = s.sdk.asic.chain.hopPort
  hopMac : s'.sdk.asic.chain.hopMac = s.sdk.asic.chain.hopMac
  nhopUsed : s'.sdk.nhopUsed = s.sdk.nhopUsed

/-- Only route messages change the routes. -/
theorem dispatch_sameRoutes (h : Wired s) {m : Nlmsghdr} (hm : ∀ del r, m ≠ .route del r) :
    SameRoutes s (dispatch s m) := by
  have hquiet (hq : Quiet m) : SameRoutes s (dispatch s m) := by
    obtain ⟨hs, -⟩ := dispatch_quiet h hq
    exact ⟨hs.slot, by rw [hs.chain], by rw [hs.chain], hs.nhopUsed⟩
  cases m with
  | addr del m =>
    rcases dispatch_addr h del m with he | ⟨p, id, -, -, -, he⟩ | ⟨p, -, -, -, he⟩
    · rw [he]
      exact ⟨rfl, rfl, rfl, rfl⟩
    · obtain ⟨hport, -, hmac⟩ := s.hops_withIntf p id
      rw [he]
      exact ⟨s.slot_withIntf p id, hport, hmac, rfl⟩
    · obtain ⟨hport, -, hmac⟩ := s.hops_withoutIntf p
      rw [he]
      exact ⟨s.slot_withoutIntf p, hport, hmac, rfl⟩
  | route del r => exact absurd rfl (hm del r)
  | link del m => exact hquiet trivial
  | neigh del m => exact hquiet trivial
  | other => exact hquiet trivial

/-- A withdrawn route loses its slot. -/
theorem dispatch_delroute (h : Wired s) {m : Nlmsg Rtmsg} (hu : Unicast m) :
    (∃ i < MAX_L3_DEFIP, m.hdr.rtmDstLen.toNat ≤ 32 ∧
      s.sdk.asic.Names i (m.u32 RTA_DST) m.hdr.rtmDstLen.toNat ∧
      dispatch s (.route true m) = s.withoutRoute i) ∨
    (m.hdr.rtmDstLen.toNat ≤ 32 → ¬ s.sdk.asic.Live (m.u32 RTA_DST) m.hdr.rtmDstLen.toNat) ∧
      dispatch s (.route true m) = s := by
  rw [dispatch, handleRoute_del hu]
  rcases l3RouteDelete_cases h.store (routeOf m 0) with ⟨i, hi, hdel, hn, he⟩ | ⟨hno, he⟩
  · have hlen := hdel.2.2
    simp only [routeOf] at hlen
    exact .inl ⟨i, hi, by omega, hn, by rw [he]; rfl⟩
  · refine .inr ⟨?_, by rw [he]⟩
    rintro hlen ⟨i, hi, hn⟩
    exact hno ⟨rfl, by simp [routeOf], by simp only [routeOf]; omega⟩ i hi hn

/-- Both calls of the SDK for a new route succeed. -/
def routeInstalled (s : NetState) (m : Nlmsg Rtmsg) : Bool :=
  match routeEgress s m with
  | none => false
  | some egr =>
    match l3EgressCreate s.sdk egr with
    | (_, .error _) => false
    | (sdk, .ok egressId) => (l3RouteAdd sdk (routeOf m egressId)).2.isOk

theorem routeInstalled_of_unrouted {m : Nlmsg Rtmsg}
    (hp : routedPort s (m.u32 RTA_OIF).toNat = none) : routeInstalled s m = false := by
  rw [routeInstalled]
  cases hegr : routeEgress s m with
  | none => rfl
  | some egr => simp only [l3EgressCreate_of_rejected s.sdk (routeEgress_of_none hp hegr)]

theorem Wired.routeInstalled_of_full (h : Wired s) {m : Nlmsg Rtmsg} {p : ℕ}
    (hp : routedPort s (m.u32 RTA_OIF).toNat = some p)
    (hfull : firstFree s.sdk.nhopUsed 1 MAX_L3_NHOP = none) : routeInstalled s m = false := by
  rw [routeInstalled, routeEgress_of_some hp]
  simp only [l3EgressCreate_of_full (egressBy_accepted m hp (h.intfId p)) hfull]

theorem Wired.routeInstalled_of_routed (h : Wired s) {m : Nlmsg Rtmsg} {p id : ℕ}
    (hp : routedPort s (m.u32 RTA_OIF).toNat = some p)
    (hid : firstFree s.sdk.nhopUsed 1 MAX_L3_NHOP = some id) : routeInstalled s m =
      (l3RouteAdd (s.sdk.withEgress id (egressBy s m p)) (routeOf m id)).2.isOk := by
  rw [routeInstalled, routeEgress_of_some hp]
  simp only [l3EgressCreate_of_firstFree h.store.faultFree
    (egressBy_accepted m hp (h.intfId p)) hid]

/-- What becomes of a new route by way of port `p` for which next hop `id` is
free: it is written to its own slot or a free one, unless its length is no prefix
length or the table is full; the next hop stays taken all the same. -/
theorem dispatch_newroute_of_routed (h : Wired s) {m : Nlmsg Rtmsg} {p id : ℕ} (hu : Unicast m)
    (hp : routedPort s (m.u32 RTA_OIF).toNat = some p)
    (hid : firstFree s.sdk.nhopUsed 1 MAX_L3_NHOP = some id) :
    (∃ i < MAX_L3_DEFIP, m.hdr.rtmDstLen.toNat ≤ 32 ∧
      (∀ j < MAX_L3_DEFIP,
        s.sdk.asic.Names j (m.u32 RTA_DST) m.hdr.rtmDstLen.toNat → j = i) ∧
      (s.sdk.asic.Names i (m.u32 RTA_DST) m.hdr.rtmDstLen.toNat ∨ s.sdk.asic.slot i = none) ∧
      routeInstalled s m = true ∧
      dispatch s (.route false m) = (s.withEgress m p id).withRoute m i id) ∨
    (32 < m.hdr.rtmDstLen.toNat ∨
      ¬ s.sdk.asic.Live (m.u32 RTA_DST) m.hdr.rtmDstLen.toNat ∧
        ∀ j < MAX_L3_DEFIP, s.sdk.asic.slot j ≠ none) ∧
      routeInstalled s m = false ∧
      dispatch s (.route false m) = s.withEgress m p id := by
  have hstore := h.store.withEgress id (egressBy s m p)
  have hslot := slot_withEgress s.sdk (egressBy s m p) id
  rw [h.routeInstalled_of_routed hp hid, dispatch,
    handleRoute_of_routed h.store.faultFree hu hp (h.intfId p) hid]
  by_cases hlen : m.hdr.rtmDstLen.toNat ≤ 32
  · rcases l3RouteAdd_cases hstore (routeOf_accepted hlen (firstFree_mem hid)) with
      ⟨i, hi, huniq, hown, hadd⟩ | ⟨hno, hfull, hadd⟩
    · simp only [Asic.Names, hslot] at huniq hown
      exact .inl ⟨i, hi, hlen, huniq, hown, by rw [hadd]; rfl, by rw [hadd]; rfl⟩
    · simp only [Asic.Names, hslot] at hno hfull
      refine .inr ⟨.inr ⟨?_, hfull⟩, by rw [hadd]; rfl, by rw [hadd]; rfl⟩
      rintro ⟨j, hj, hn⟩
      exact hno j hj hn
  · have hrej : ¬ (routeOf m id).Accepted := by
      rintro ⟨-, ⟨-, h32⟩, -⟩
      simp only [routeOf] at h32
      omega
    obtain ⟨e, he⟩ := l3RouteAdd_of_rejected (s.sdk.withEgress id (egressBy s m p)) hrej
    exact .inr ⟨.inl (by omega), by rw [he]; rfl, by rw [he]; rfl⟩

theorem Wired.installed (h : Wired s) {m : Nlmsg Rtmsg} {p id i : ℕ}
    (hid : firstFree s.sdk.nhopUsed 1 MAX_L3_NHOP = some id)
    (hlen : m.hdr.rtmDstLen.toNat ≤ 32)
    (huniq : ∀ j < MAX_L3_DEFIP,
      s.sdk.asic.Names j (m.u32 RTA_DST) m.hdr.rtmDstLen.toNat → j = i) :
    Wired ((s.withEgress m p id).withRoute m i id) := by
  refine (h.withEgress m p id).withRoute (firstFree_mem hid) ?_ hlen ?_
  · simp [NetState.withEgress, SdkState.withEgress]
  · intro j hj hn
    rw [Asic.Names, NetState.withEgress, slot_withEgress] at hn
    exact huniq j hj hn

/-- The installed route is the only one of its prefix; the others stay. -/
theorem forwards_installed {m : Nlmsg Rtmsg} {p id i : ℕ} (hi : i < MAX_L3_DEFIP)
    (hid : 1 ≤ id ∧ id < MAX_L3_NHOP) (hlen : m.hdr.rtmDstLen.toNat ≤ 32)
    (huniq : ∀ j < MAX_L3_DEFIP,
      s.sdk.asic.Names j (m.u32 RTA_DST) m.hdr.rtmDstLen.toNat → j = i)
    (hown : s.sdk.asic.Names i (m.u32 RTA_DST) m.hdr.rtmDstLen.toNat ∨ s.sdk.asic.slot i = none)
    (pfx : BitVec 32) {plen : ℤ} (hl : 0 ≤ plen ∧ plen ≤ 32) (n : ℕ) :
    ((s.withEgress m p id).withRoute m i id).sdk.asic.Forwards pfx plen n ↔
      (pfx = m.u32 RTA_DST ∧ plen = m.hdr.rtmDstLen.toNat) ∧ n = id ∨
      ¬ (pfx = m.u32 RTA_DST ∧ plen = m.hdr.rtmDstLen.toNat) ∧
        s.sdk.asic.Forwards pfx plen n := by
  have hslot := slot_withEgress s.sdk (egressBy s m p) id
  have hnames (j : ℕ) : (s.sdk.withEgress id (egressBy s m p)).asic.Names j (routeOf m id).pfx
      (routeOf m id).prefixLen ↔ s.sdk.asic.Names j (m.u32 RTA_DST) m.hdr.rtmDstLen.toNat := by
    simp only [Asic.Names, hslot, routeOf]
  have hown' : (s.sdk.withEgress id (egressBy s m p)).asic.Names i (routeOf m id).pfx
      (routeOf m id).prefixLen ∨ (s.sdk.withEgress id (egressBy s m p)).asic.slot i = none := by
    rw [hslot]
    exact hown.imp_left (hnames i).mpr
  refine (forwards_withRoute hi (routeOf_accepted hlen hid).2.1
    (fun j hj hn => huniq j hj ((hnames j).mp hn)) hown' hl).trans ?_
  rw [routeOf_nhop hid.2, forwards_of_slot hslot]
  rfl

/-- The next hop taken leaves by port `p` and its interface. -/
theorem hops_withEgress_self (m : Nlmsg Rtmsg) (p id : ℕ) :
    (s.withEgress m p id).sdk.asic.chain.hopPort id = BitVec.ofInt 7 p ∧
      (s.withEgress m p id).sdk.asic.chain.hopIntf id = BitVec.ofInt 12 (s.portToIntfId p) ∧
      (s.withEgress m p id).sdk.asic.chain.hopMac id = (egressBy s m p).mac.u48 := by
  rw [NetState.withEgress, chain_withEgress]
  exact ⟨Function.update_self .., Function.update_self .., Function.update_self ..⟩

theorem toNat_hopPort {p : ℕ} (hp : p < MAX_PORTS) : (BitVec.ofInt 7 (p : ℤ)).toNat = p := by
  have hlt : p < 56 := hp
  exact toNat_ofInt_natCast (by omega)

theorem Wired.toNat_hopIntf (h : Wired s) (p : ℕ) :
    (BitVec.ofInt 12 (s.portToIntfId p : ℤ)).toNat = s.portToIntfId p :=
  toNat_ofInt_natCast (h.intfId p)

/-- The next hops of the routes that were there keep their port, interface and address. -/
theorem hops_withEgress_of_used (m : Nlmsg Rtmsg) {p id : ℕ}
    (hid : firstFree s.sdk.nhopUsed 1 MAX_L3_NHOP = some id) {n : ℕ}
    (hu : s.sdk.nhopUsed n = true) :
    (s.withEgress m p id).sdk.asic.chain.hopPort n = s.sdk.asic.chain.hopPort n ∧
      (s.withEgress m p id).sdk.asic.chain.hopIntf n = s.sdk.asic.chain.hopIntf n ∧
      (s.withEgress m p id).sdk.asic.chain.hopMac n = s.sdk.asic.chain.hopMac n := by
  have hne : n ≠ id := by
    rintro rfl
    rw [firstFree_free hid] at hu
    cases hu
  rw [NetState.withEgress, chain_withEgress]
  simp only [Function.update_of_ne hne, and_self]

/-- A new route changes nothing or takes a next hop, and perhaps a slot. -/
theorem dispatch_newroute (h : Wired s) (m : Nlmsg Rtmsg) :
    dispatch s (.route false m) = s ∨
    ∃ p id, Unicast m ∧ routedPort s (m.u32 RTA_OIF).toNat = some p ∧
      firstFree s.sdk.nhopUsed 1 MAX_L3_NHOP = some id := by
  rw [dispatch]
  by_cases hu : Unicast m
  swap
  · exact .inl (handleRoute_of_not_unicast hu)
  cases hp : routedPort s (m.u32 RTA_OIF).toNat with
  | none => exact .inl (handleRoute_of_unrouted hu hp)
  | some p =>
    cases hid : firstFree s.sdk.nhopUsed 1 MAX_L3_NHOP with
    | none => exact .inl (handleRoute_of_full hu hp (h.intfId p) hid)
    | some id => exact .inr ⟨p, id, hu, rfl, rfl⟩

/-- The invariant survives every message. -/
theorem Wired.dispatch (h : Wired s) (m : Nlmsghdr) : Wired (dispatch s m) := by
  cases m with
  | addr del m =>
    rcases dispatch_addr h del m with he | ⟨p, id, -, -, hid, he⟩ | ⟨p, -, -, -, he⟩
    · rwa [he]
    · rw [he]
      exact h.withIntf (firstFree_mem hid).2
    · rw [he]
      exact h.withoutIntf p
  | route del m =>
    cases del with
    | true =>
      by_cases hu : Unicast m
      swap
      · rwa [Switchd.dispatch, handleRoute_of_not_unicast hu]
      rcases dispatch_delroute h hu with ⟨i, -, -, -, he⟩ | ⟨-, he⟩
      · rw [he]
        exact h.withoutRoute i
      · rwa [he]
    | false =>
      rcases dispatch_newroute h m with he | ⟨p, id, hu, hp, hid⟩
      · rwa [he]
      rcases dispatch_newroute_of_routed h hu hp hid with ⟨i, -, hlen, huniq, -, -, he⟩ |
        ⟨-, -, he⟩
      · rw [he]
        exact h.installed hid hlen huniq
      · rw [he]
        exact h.withEgress m p id
  | link del m =>
    obtain ⟨hs, hp⟩ := dispatch_quiet h (m := .link del m) trivial
    exact h.of_same hs hp
  | neigh del m =>
    obtain ⟨hs, hp⟩ := dispatch_quiet h (m := .neigh del m) trivial
    exact h.of_same hs hp
  | other => exact h

theorem Wired.final (h : Wired s) (ms : List Nlmsghdr) : Wired (run Switchd.dispatch s ms) := by
  have hall : Throughout Switchd.dispatch Wired s ms :=
    throughout_of_step (fun _ m hs => hs.dispatch m) h ms
  exact hall.final

/-! ### One switch port -/

/-- swp1 has an address. -/
def onSwp1 : NetState :=
  dispatch (dispatch (NetState.init (SdkState.init Asic.blank)) newlinkSwp1) (addrSwp1 false)

theorem wired_blank : Wired (NetState.init (SdkState.init Asic.blank)) :=
  Wired.init Asic.blank_faultFree fun i _ => slot_blank i

theorem slot_onSwp1 (i : ℕ) : onSwp1.sdk.asic.slot i = none := by
  have hlink : SameRoutes _ (dispatch _ newlinkSwp1) := dispatch_sameRoutes wired_blank nofun
  have haddr : SameRoutes _ (dispatch _ (addrSwp1 false)) :=
    dispatch_sameRoutes (wired_blank.dispatch newlinkSwp1) nofun
  rw [onSwp1, haddr.slot, hlink.slot]
  exact slot_blank i

end OpenNos.Switchd
