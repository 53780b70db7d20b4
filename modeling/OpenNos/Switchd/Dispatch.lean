import OpenNos.Sdk.L2Store
import OpenNos.Sdk.NextHop
import OpenNos.Switchd.Netlink

/-! What a message does to the L3 tables of a fault-free chip. Link and neighbour
messages leave them alone; an address message allocates or frees one interface;
a route message clears a slot, or takes a next hop and adds a route. Each handler
is reduced to these effects. -/

namespace OpenNos.Switchd

open Bits FirstFit Sdk

/-! ### Messages without effect on the L3 tables -/

/-- The L3 tables and their arrays are the same. -/
structure SameL3 (s s' : SdkState) : Prop where
  faultFree : s'.asic.FaultFree
  slot : s'.asic.slot = s.asic.slot
  chain : s'.asic.chain = s.asic.chain
  intfUsed : s'.intfUsed = s.intfUsed
  nhopUsed : s'.nhopUsed = s.nhopUsed
  defipUsed : s'.defipUsed = s.defipUsed
  defipPrefix : s'.defipPrefix = s.defipPrefix
  defipPlen : s'.defipPlen = s.defipPlen

theorem SameL3.refl {s : SdkState} (hf : s.asic.FaultFree) : SameL3 s s :=
  ⟨hf, rfl, rfl, rfl, rfl, rfl, rfl, rfl⟩

theorem SameL3.trans {s t u : SdkState} (h : SameL3 s t) (h' : SameL3 t u) : SameL3 s u where
  faultFree := h'.faultFree
  slot := h'.slot.trans h.slot
  chain := h'.chain.trans h.chain
  intfUsed := h'.intfUsed.trans h.intfUsed
  nhopUsed := h'.nhopUsed.trans h.nhopUsed
  defipUsed := h'.defipUsed.trans h.defipUsed
  defipPrefix := h'.defipPrefix.trans h.defipPrefix
  defipPlen := h'.defipPlen.trans h.defipPlen

theorem SameL3.routeStore {s s' : SdkState} (h : SameL3 s s') (hs : RouteStore s) :
    RouteStore s' where
  faultFree := h.faultFree
  free := by rw [h.defipUsed, h.slot]; exact hs.free
  live := by rw [h.defipUsed, h.slot, h.defipPrefix, h.defipPlen]; exact hs.live
  plen := by rw [h.defipUsed, h.defipPlen]; exact hs.plen
  distinct := by rw [h.defipUsed, h.defipPrefix, h.defipPlen]; exact hs.distinct

/-- Another table is written. -/
theorem sameL3_store (s : SdkState) (hf : s.asic.FaultFree) (i : ℕ) (w : Words) (n : ℕ) :
    SameL3 s { s with asic := s.asic.store L2_ENTRY_BASE i w n } where
  faultFree := hf
  slot := slot_store_of_ne _ (by decide) _ _ _
  chain := chain_store_of_ne _ (by decide) (by decide) (by decide) _ _ _
  intfUsed := rfl
  nhopUsed := rfl
  defipUsed := rfl
  defipPrefix := rfl
  defipPlen := rfl

theorem SdkCall.perform_same (s : SdkState) (hf : s.asic.FaultFree) (c : SdkCall) :
    SameL3 s (c.perform s) := by
  cases c with
  | portEnableSet port enable =>
    obtain ⟨a, shadow, he, hmem, hff⟩ := portEnableSet_eq s port enable
    rw [SdkCall.perform, he]
    refine ⟨hff hf, ?_, ?_, rfl, rfl, rfl, rfl, rfl⟩
    · funext i
      simp only [Asic.slot, hmem]
    · simp only [Asic.chain, hmem]
  | l2AddrAdd addr =>
    rw [SdkCall.perform, l2AddrAdd_of_faultFree hf]
    exact sameL3_store s hf _ _ _
  | l2AddrDelete mac vid =>
    rw [SdkCall.perform, l2AddrDelete_of_faultFree hf]
    exact sameL3_store s hf _ _ _

theorem foldl_perform_same (s : SdkState) (hf : s.asic.FaultFree) (cs : List SdkCall) :
    SameL3 s (cs.foldl SdkCall.perform s) := by
  induction cs generalizing s with
  | nil => exact SameL3.refl hf
  | cons c cs ih =>
    have hc := SdkCall.perform_same s hf c
    exact hc.trans (ih (c.perform s) hc.faultFree)

/-- A link message changes the map of interfaces only. -/
theorem handleLink_fst (s : NetState) (del : Bool) (m : Nlmsg Ifinfomsg) :
    ∃ f, (handleLink s del m).1 = { s with ifindexToPort := f } := by
  have hmap (port : ℤ) : ∃ f, (if m.hdr.ifiIndex.toNat < MAX_IFINDEX then
      { s with ifindexToPort := Function.update s.ifindexToPort m.hdr.ifiIndex.toNat port }
      else s) = { s with ifindexToPort := f } := by
    by_cases hi : m.hdr.ifiIndex.toNat < MAX_IFINDEX
    · exact ⟨_, if_pos hi⟩
    · exact ⟨s.ifindexToPort, if_neg hi⟩
  unfold handleLink
  by_cases hl : m.nlmsgLen < NLMSG_LENGTH 16
  · rw [if_pos hl]
    exact ⟨s.ifindexToPort, rfl⟩
  rw [if_neg hl]
  by_cases hd : del = true
  · rw [if_pos hd]
    exact hmap (-1)
  rw [if_neg hd]
  cases m.tb IFLA_IFNAME with
  | none => exact ⟨s.ifindexToPort, rfl⟩
  | some name =>
    cases hn : ifnameToPort (Cstring.cstr name.data) with
    | none => exact ⟨s.ifindexToPort, by simp only [hn]⟩
    | some port =>
      simp only [hn]
      exact hmap port

/-- A neighbour message changes the cache only. -/
theorem handleNeigh_fst (s : NetState) (del : Bool) (m : Nlmsg Ndmsg) :
    ∃ cache, (handleNeigh s del m).1 = { s with neighCache := cache } := by
  unfold handleNeigh
  by_cases hl : m.nlmsgLen < NLMSG_LENGTH 12
  · rw [if_pos hl]
    exact ⟨s.neighCache, rfl⟩
  rw [if_neg hl]
  by_cases hfam : m.hdr.ndmFamily ≠ AF_INET
  · rw [if_pos hfam]
    exact ⟨s.neighCache, rfl⟩
  rw [if_neg hfam]
  by_cases hi : MAX_IFINDEX ≤ m.hdr.ndmIfindex.toNat
  · simp only [if_pos hi]
    exact ⟨s.neighCache, rfl⟩
  simp only [if_neg hi]
  by_cases hp : s.ifindexToPort m.hdr.ndmIfindex.toNat ≤ 0
  · rw [if_pos hp]
    exact ⟨s.neighCache, rfl⟩
  rw [if_neg hp]
  cases del with
  | false =>
    rw [if_pos (by decide)]
    cases neighLladdr m with
    | none => exact ⟨s.neighCache, rfl⟩
    | some mac => exact ⟨_, rfl⟩
  | true =>
    rw [if_neg (by decide)]
    exact ⟨_, rfl⟩

/-! ### Address messages -/

/-- The port whose interface an address message is about. -/
def addrPort (s : NetState) (m : Nlmsg Ifaddrmsg) : Option ℕ :=
  if NLMSG_LENGTH 8 ≤ m.nlmsgLen ∧ (m.tb IFA_ADDRESS).isSome ∧
      m.hdr.ifaIndex.toNat < MAX_IFINDEX ∧
      0 < s.ifindexToPort m.hdr.ifaIndex.toNat ∧
      s.ifindexToPort m.hdr.ifaIndex.toNat < MAX_PORTS then
    some (s.ifindexToPort m.hdr.ifaIndex.toNat).toNat
  else none

variable {s : NetState}

theorem handleAddr_of_none {del : Bool} {m : Nlmsg Ifaddrmsg} (h : addrPort s m = none) :
    handleAddr s del m = s := by
  unfold handleAddr
  by_cases hl : m.nlmsgLen < NLMSG_LENGTH 8
  · exact if_pos hl
  rw [if_neg hl]
  by_cases ha : (m.tb IFA_ADDRESS).isNone = true
  · exact if_pos ha
  rw [if_neg ha]
  by_cases hi : MAX_IFINDEX ≤ m.hdr.ifaIndex.toNat
  · exact if_pos hi
  rw [if_neg hi]
  by_cases hp : s.ifindexToPort m.hdr.ifaIndex.toNat ≤ 0 ∨
      (MAX_PORTS : ℤ) ≤ s.ifindexToPort m.hdr.ifaIndex.toNat
  · exact if_pos hp
  · have hsome : (m.tb IFA_ADDRESS).isSome = true := by
      rwa [Option.isSome_iff_ne_none, ne_eq, ← Option.isNone_iff_eq_none]
    rw [addrPort, if_pos ⟨by omega, hsome, by omega, by omega, by omega⟩] at h
    cases h

/-- The handler past its checks. -/
theorem handleAddr_of_some {del : Bool} {m : Nlmsg Ifaddrmsg} {p : ℕ}
    (h : addrPort s m = some p) : handleAddr s del m =
      if ¬ del then
        match l3IntfCreate s.sdk (portMac p) 0 with
        | (sdk, .ok intfId) =>
          { s with sdk := sdk, portToIntfId := Function.update s.portToIntfId p intfId }
        | (sdk, .error _) => { s with sdk := sdk }
      else if s.portToIntfId p ≠ 0 then
        let sdk := (l3IntfDestroy s.sdk (s.portToIntfId p)).1
        { s with sdk := sdk, portToIntfId := Function.update s.portToIntfId p 0 }
      else s := by
  unfold addrPort at h
  split_ifs at h with hc
  obtain ⟨hl, ha, hi, hp, hmax⟩ := hc
  have hport : s.ifindexToPort m.hdr.ifaIndex.toNat = p := by
    cases h
    omega
  have hnone : ¬ (m.tb IFA_ADDRESS).isNone = true := by
    rwa [Option.isNone_iff_eq_none, ← ne_eq, ← Option.isSome_iff_ne_none]
  rw [handleAddr, if_neg (by omega), if_neg hnone, if_neg (by omega)]
  simp only [hport, Int.toNat_natCast]
  exact if_neg (by omega)

theorem handleAddr_new_of_full {m : Nlmsg Ifaddrmsg} {p : ℕ} (h : addrPort s m = some p)
    (hfull : firstFree s.sdk.intfUsed 1 MAX_L3_INTF = none) : handleAddr s false m = s := by
  rw [handleAddr_of_some h, if_pos (by decide), l3IntfCreate_of_full _ _ hfull]

/-- An interface is created and recorded for the port. -/
theorem handleAddr_new {m : Nlmsg Ifaddrmsg} {p id : ℕ} (hf : s.sdk.asic.FaultFree)
    (h : addrPort s m = some p) (hid : firstFree s.sdk.intfUsed 1 MAX_L3_INTF = some id) :
    handleAddr s false m =
      { s with
        sdk := s.sdk.withIntf id (portMac p) 0
        portToIntfId := Function.update s.portToIntfId p id } := by
  rw [handleAddr_of_some h, if_pos (by decide), l3IntfCreate_of_firstFree hf _ _ hid]

theorem handleAddr_del_of_zero {m : Nlmsg Ifaddrmsg} {p : ℕ} (h : addrPort s m = some p)
    (hz : s.portToIntfId p = 0) : handleAddr s true m = s := by
  rw [handleAddr_of_some h, if_neg (by decide), if_neg (by simp [hz])]

/-- The interface recorded for the port is destroyed. -/
theorem handleAddr_del {m : Nlmsg Ifaddrmsg} {p : ℕ} (hf : s.sdk.asic.FaultFree)
    (h : addrPort s m = some p) (hid : 0 < s.portToIntfId p ∧ s.portToIntfId p < MAX_L3_INTF) :
    handleAddr s true m =
      { s with
        sdk := s.sdk.withoutIntf (s.portToIntfId p)
        portToIntfId := Function.update s.portToIntfId p 0 } := by
  rw [handleAddr_of_some h, if_neg (by decide), if_pos (by omega)]
  simp only [l3IntfDestroy_of_faultFree hf hid]

/-- An address message changes the tables and the interface of a port only. -/
theorem handleAddr_eq (s : NetState) (del : Bool) (m : Nlmsg Ifaddrmsg) :
    ∃ sdk f, handleAddr s del m = { s with sdk := sdk, portToIntfId := f } := by
  cases hp : addrPort s m with
  | none => exact ⟨s.sdk, s.portToIntfId, handleAddr_of_none hp⟩
  | some p =>
    rw [handleAddr_of_some hp]
    cases del with
    | false =>
      rw [if_pos (by decide)]
      cases hc : l3IntfCreate s.sdk (portMac p) 0 with
      | mk sdk r =>
        cases r with
        | ok intfId => exact ⟨sdk, _, rfl⟩
        | error e => exact ⟨sdk, s.portToIntfId, rfl⟩
    | true =>
      rw [if_neg (by decide)]
      by_cases hz : s.portToIntfId p ≠ 0
      · rw [if_pos hz]
        exact ⟨_, _, rfl⟩
      · rw [if_neg hz]
        exact ⟨s.sdk, s.portToIntfId, rfl⟩

/-! ### Route messages -/

/-- A complete message about an IPv4 unicast route. -/
def Unicast (m : Nlmsg Rtmsg) : Prop :=
  NLMSG_LENGTH 12 ≤ m.nlmsgLen ∧ m.hdr.rtmFamily = AF_INET ∧ m.hdr.rtmType = RTN_UNICAST

instance (m : Nlmsg Rtmsg) : Decidable (Unicast m) := by unfold Unicast; infer_instance

theorem handleRoute_of_not_unicast {del : Bool} {m : Nlmsg Rtmsg} (h : ¬ Unicast m) :
    handleRoute s del m = s := by
  unfold handleRoute
  by_cases hl : m.nlmsgLen < NLMSG_LENGTH 12
  · exact if_pos hl
  rw [if_neg hl]
  by_cases ht : m.hdr.rtmFamily ≠ AF_INET ∨ m.hdr.rtmType ≠ RTN_UNICAST
  · exact if_pos ht
  · obtain ⟨hfam, htype⟩ := not_or.mp ht
    exact absurd ⟨by omega, not_not.mp hfam, not_not.mp htype⟩ h

theorem handleRoute_del {m : Nlmsg Rtmsg} (h : Unicast m) :
    handleRoute s true m = { s with sdk := (l3RouteDelete s.sdk (routeOf m 0)).1 } := by
  obtain ⟨hl, hfam, htype⟩ := h
  rw [handleRoute, if_neg (by omega), if_neg (by simp [hfam, htype]), if_pos rfl]

/-- The handler of an RTM_NEWROUTE past its checks. -/
theorem handleRoute_new {m : Nlmsg Rtmsg} (h : Unicast m) : handleRoute s false m =
    match routeEgress s m with
    | none => s
    | some egr =>
      match l3EgressCreate s.sdk egr with
      | (sdk, .error _) => { s with sdk := sdk }
      | (sdk, .ok egressId) => { s with sdk := (l3RouteAdd sdk (routeOf m egressId)).1 } := by
  obtain ⟨hl, hfam, htype⟩ := h
  rw [handleRoute, if_neg (by omega), if_neg (by simp [hfam, htype])]
  exact if_neg (by decide)

/-- The switch port an interface is, where it has an L3 interface. -/
def routedPort (s : NetState) (ifindex : ℕ) : Option ℕ :=
  if ifindex < MAX_IFINDEX ∧ 0 < s.ifindexToPort ifindex ∧
      s.ifindexToPort ifindex < MAX_PORTS ∧
      s.portToIntfId (s.ifindexToPort ifindex).toNat ≠ 0 then
    some (s.ifindexToPort ifindex).toNat
  else none

theorem routedPort_range {ifindex p : ℕ} (h : routedPort s ifindex = some p) :
    (0 < p ∧ p < MAX_PORTS) ∧ s.portToIntfId p ≠ 0 := by
  unfold routedPort at h
  split_ifs at h with hc
  cases h
  exact ⟨by omega, hc.2.2.2⟩

/-- The next hop by way of a port, with the address the cache has or zero. -/
def egressBy (s : NetState) (m : Nlmsg Rtmsg) (p : ℕ) : L3Egress where
  mac := (neighCacheGet s.neighCache (m.u32 RTA_GATEWAY) (m.u32 RTA_OIF)).getD
    (Vector.replicate 6 0)
  port := p
  intfId := s.portToIntfId p

theorem routeEgress_of_some {m : Nlmsg Rtmsg} {p : ℕ}
    (hp : routedPort s (m.u32 RTA_OIF).toNat = some p) :
    routeEgress s m = some (egressBy s m p) := by
  unfold routedPort at hp
  split_ifs at hp with hc
  obtain ⟨hi, hpos, hmax, -⟩ := hc
  have hport : s.ifindexToPort (m.u32 RTA_OIF).toNat = p := by
    cases hp
    omega
  rw [hport] at hpos hmax
  rw [routeEgress, if_neg (by omega)]
  simp only [hport, Int.toNat_natCast]
  rw [if_neg (by omega), if_pos (by omega)]
  rfl

/-- Every other next hop is refused. -/
theorem routeEgress_of_none {m : Nlmsg Rtmsg} (hp : routedPort s (m.u32 RTA_OIF).toNat = none)
    {egr : L3Egress} (hegr : routeEgress s m = some egr) : ¬ egr.Accepted := by
  rintro ⟨-, hid, -⟩
  unfold routeEgress at hegr
  by_cases hi : MAX_IFINDEX ≤ (m.u32 RTA_OIF).toNat
  · rw [if_pos hi] at hegr
    cases hegr
  rw [if_neg hi] at hegr
  by_cases hpos : s.ifindexToPort (m.u32 RTA_OIF).toNat ≤ 0
  · simp only [if_pos hpos] at hegr
    cases hegr
  simp only [if_neg hpos, Option.some.injEq] at hegr
  rw [← hegr] at hid
  by_cases hmax : s.ifindexToPort (m.u32 RTA_OIF).toNat < MAX_PORTS
  · simp only [if_pos hmax] at hid
    rw [routedPort, if_pos ⟨by omega, by omega, hmax, by omega⟩] at hp
    cases hp
  · simp only [if_neg hmax] at hid
    omega

theorem egressBy_accepted (m : Nlmsg Rtmsg) {ifindex p : ℕ} (hp : routedPort s ifindex = some p)
    (hid : s.portToIntfId p < MAX_L3_INTF) : (egressBy s m p).Accepted := by
  obtain ⟨hr, hnz⟩ := routedPort_range hp
  have hmax : p < 56 := hr.2
  exact ⟨⟨by simp only [egressBy]; omega, by simp only [egressBy]; omega⟩,
    by simp only [egressBy]; omega, by simp only [egressBy]; omega⟩

theorem handleRoute_of_unrouted {m : Nlmsg Rtmsg} (h : Unicast m)
    (hp : routedPort s (m.u32 RTA_OIF).toNat = none) : handleRoute s false m = s := by
  rw [handleRoute_new h]
  cases hegr : routeEgress s m with
  | none => rfl
  | some egr => simp only [l3EgressCreate_of_rejected s.sdk (routeEgress_of_none hp hegr)]

theorem handleRoute_of_full {m : Nlmsg Rtmsg} {p : ℕ} (h : Unicast m)
    (hp : routedPort s (m.u32 RTA_OIF).toNat = some p) (hid : s.portToIntfId p < MAX_L3_INTF)
    (hfull : firstFree s.sdk.nhopUsed 1 MAX_L3_NHOP = none) : handleRoute s false m = s := by
  rw [handleRoute_new h, routeEgress_of_some hp]
  simp only [l3EgressCreate_of_full (egressBy_accepted m hp hid) hfull]

/-- A next hop is taken, and the route is added by way of it. -/
theorem handleRoute_of_routed {m : Nlmsg Rtmsg} {p id : ℕ} (hf : s.sdk.asic.FaultFree)
    (h : Unicast m) (hp : routedPort s (m.u32 RTA_OIF).toNat = some p)
    (hintf : s.portToIntfId p < MAX_L3_INTF)
    (hid : firstFree s.sdk.nhopUsed 1 MAX_L3_NHOP = some id) : handleRoute s false m =
      { s with sdk := (l3RouteAdd (s.sdk.withEgress id (egressBy s m p)) (routeOf m id)).1 } := by
  rw [handleRoute_new h, routeEgress_of_some hp]
  simp only [l3EgressCreate_of_firstFree hf (egressBy_accepted m hp hintf) hid]

theorem routeOf_accepted {m : Nlmsg Rtmsg} {id : ℕ} (hlen : m.hdr.rtmDstLen.toNat ≤ 32)
    (hid : 1 ≤ id ∧ id < MAX_L3_NHOP) : (routeOf m id).Accepted :=
  ⟨rfl, ⟨by simp [routeOf], by simp only [routeOf]; omega⟩, by simp only [routeOf]; omega,
    by simp only [routeOf]; omega⟩

/-! ### The neighbour cache -/

theorem handleRoute_neighCache (s : NetState) (del : Bool) (m : Nlmsg Rtmsg) :
    (handleRoute s del m).neighCache = s.neighCache := by
  by_cases hu : Unicast m
  swap
  · rw [handleRoute_of_not_unicast hu]
  cases del with
  | true => rw [handleRoute_del hu]
  | false =>
    rw [handleRoute_new hu]
    split
    · rfl
    · split <;> rfl

/-- Only neighbour messages change the cache. -/
theorem dispatch_neighCache (s : NetState) {m : Nlmsghdr} (hm : ∀ del n, m ≠ .neigh del n) :
    (dispatch s m).neighCache = s.neighCache := by
  cases m with
  | link del m =>
    obtain ⟨f, hf⟩ := handleLink_fst s del m
    rw [dispatch, NetState.perform, hf]
  | addr del m =>
    obtain ⟨sdk, f, hf⟩ := handleAddr_eq s del m
    rw [dispatch, hf]
  | route del m => exact handleRoute_neighCache s del m
  | neigh del m => exact absurd rfl (hm del m)
  | other => rfl

end OpenNos.Switchd
