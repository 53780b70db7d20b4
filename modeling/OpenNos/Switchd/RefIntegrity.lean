import OpenNos.Switchd.Wired

/-! Referential integrity of the forwarding chain: a valid slot names a next hop
in use, the next hop names an interface in use, and the interface carries the MAC
of the port the next hop leaves by. An address message that destroys an interface
does not ask whether a route still uses it. -/

namespace OpenNos.Switchd

open Bits FirstFit Sdk History

/-- What next hop `n` of a valid slot leads to. -/
structure Sound (s : NetState) (n : ℕ) : Prop where
  nhopUsed : s.sdk.nhopUsed n = true
  intfUsed : s.sdk.intfUsed (s.sdk.asic.chain.hopIntf n).toNat = true
  srcMac : s.sdk.asic.chain.srcMac (s.sdk.asic.chain.hopIntf n).toNat =
    (portMac (s.sdk.asic.chain.hopPort n).toNat).u48

/-- Every valid slot leads to a next hop and an interface in use. -/
def Intact (s : NetState) : Prop :=
  ∀ i < MAX_L3_DEFIP, ∀ e, s.sdk.asic.slot i = some e → Sound s e.nhop.toNat

/-- An interface is destroyed only when no valid slot leads to it. -/
def LastUserGone (s : NetState) : Nlmsghdr → Prop
  | .addr true m => ∀ p, addrPort s m = some p → s.portToIntfId p ≠ 0 →
      ∀ i < MAX_L3_DEFIP, ∀ e, s.sdk.asic.slot i = some e →
        (s.sdk.asic.chain.hopIntf e.nhop.toNat).toNat ≠ s.portToIntfId p
  | _ => True

/-- The interfaces recorded for the ports are in use, carry the MAC of their port
and are not shared. -/
structure PortIntfs (s : NetState) : Prop where
  used : ∀ p, s.portToIntfId p ≠ 0 → s.sdk.intfUsed (s.portToIntfId p) = true
  mac : ∀ p, s.portToIntfId p ≠ 0 →
    s.sdk.asic.chain.srcMac (s.portToIntfId p) = (portMac p).u48
  apart : ∀ p q, s.portToIntfId p ≠ 0 → s.portToIntfId p = s.portToIntfId q → p = q

structure IntactInv (s : NetState) : Prop where
  wired : Wired s
  intact : Intact s
  ports : PortIntfs s

theorem IntactInv.init {a : Asic} (hf : a.FaultFree) (hs : ∀ i < MAX_L3_DEFIP, a.slot i = none) :
    IntactInv (NetState.init (SdkState.init a)) where
  wired := Wired.init hf hs
  intact i hi _ he := absurd ((hs i hi).symm.trans he) nofun
  ports := ⟨fun _ h => absurd rfl h, fun _ h => absurd rfl h, fun _ _ h => absurd rfl h⟩

variable {s s' : NetState}

/-- The chain behind a next hop that keeps its words stays sound. -/
theorem Sound.frame {n : ℕ} (h : Sound s n) (hn : s'.sdk.nhopUsed n = true)
    (hport : s'.sdk.asic.chain.hopPort n = s.sdk.asic.chain.hopPort n)
    (hintf : s'.sdk.asic.chain.hopIntf n = s.sdk.asic.chain.hopIntf n)
    (hused : s'.sdk.intfUsed (s.sdk.asic.chain.hopIntf n).toNat =
      s.sdk.intfUsed (s.sdk.asic.chain.hopIntf n).toNat)
    (hmac : s'.sdk.asic.chain.srcMac (s.sdk.asic.chain.hopIntf n).toNat =
      s.sdk.asic.chain.srcMac (s.sdk.asic.chain.hopIntf n).toNat) : Sound s' n where
  nhopUsed := hn
  intfUsed := by
    rw [hintf, hused]
    exact h.intfUsed
  srcMac := by
    rw [hintf, hport, hmac]
    exact h.srcMac

namespace PortIntfs

/-- The interface a port takes is not one of another port. -/
theorem ne_of_firstFree (h : PortIntfs s) {id : ℕ}
    (hid : firstFree s.sdk.intfUsed 1 MAX_L3_INTF = some id) {p : ℕ}
    (hp : s.portToIntfId p ≠ 0) : s.portToIntfId p ≠ id := by
  rintro rfl
  have hu := h.used p hp
  rw [firstFree_free hid] at hu
  cases hu

theorem withIntf (h : PortIntfs s) {p id : ℕ}
    (hid : firstFree s.sdk.intfUsed 1 MAX_L3_INTF = some id) : PortIntfs (s.withIntf p id) where
  used := by
    intro q hq
    by_cases hqp : q = p
    · simp [NetState.withIntf, SdkState.withIntf, hqp]
    · simp only [NetState.withIntf, Function.update_of_ne hqp] at hq ⊢
      simp only [SdkState.withIntf, Function.update_of_ne (h.ne_of_firstFree hid hq)]
      exact h.used q hq
  mac := by
    intro q hq
    by_cases hqp : q = p
    · simp [NetState.withIntf, hqp]
    · simp only [NetState.withIntf, Function.update_of_ne hqp] at hq ⊢
      rw [chain_withIntf]
      simp only [Function.update_of_ne (h.ne_of_firstFree hid hq)]
      exact h.mac q hq
  apart := by
    intro q r hq hqr
    by_cases hqp : q = p
    · subst hqp
      by_cases hrq : r = q
      · exact hrq.symm
      · simp only [NetState.withIntf, Function.update_self, Function.update_of_ne hrq] at hq hqr
        rw [hqr] at hq
        exact absurd hqr.symm (h.ne_of_firstFree hid hq)
    · by_cases hrp : r = p
      · subst hrp
        simp only [NetState.withIntf, Function.update_self, Function.update_of_ne hqp] at hq hqr
        exact absurd hqr (h.ne_of_firstFree hid hq)
      · simp only [NetState.withIntf, Function.update_of_ne hqp,
          Function.update_of_ne hrp] at hq hqr
        exact h.apart q r hq hqr

theorem withoutIntf (h : PortIntfs s) (p : ℕ) : PortIntfs (s.withoutIntf p) where
  used := by
    intro q hq
    by_cases hqp : q = p
    · simp [NetState.withoutIntf, hqp] at hq
    · simp only [NetState.withoutIntf, Function.update_of_ne hqp] at hq ⊢
      simp only [SdkState.withoutIntf, Function.update_of_ne fun he => hqp (h.apart q p hq he)]
      exact h.used q hq
  mac := by
    intro q hq
    by_cases hqp : q = p
    · simp [NetState.withoutIntf, hqp] at hq
    · simp only [NetState.withoutIntf, Function.update_of_ne hqp] at hq ⊢
      rw [chain_withoutIntf]
      simp only [Function.update_of_ne fun he => hqp (h.apart q p hq he)]
      exact h.mac q hq
  apart := by
    intro q r hq hqr
    by_cases hqp : q = p
    · simp [NetState.withoutIntf, hqp] at hq
    · by_cases hrp : r = p
      · simp only [NetState.withoutIntf, Function.update_of_ne hqp, hrp,
          Function.update_self] at hq hqr
        exact absurd hqr hq
      · simp only [NetState.withoutIntf, Function.update_of_ne hqp,
          Function.update_of_ne hrp] at hq hqr
        exact h.apart q r hq hqr

/-- Messages about routes do not concern the interfaces. -/
theorem frame (h : PortIntfs s) (hp : s'.portToIntfId = s.portToIntfId)
    (hu : s'.sdk.intfUsed = s.sdk.intfUsed)
    (hm : s'.sdk.asic.chain.srcMac = s.sdk.asic.chain.srcMac) : PortIntfs s' where
  used := by rw [hp, hu]; exact h.used
  mac := by rw [hp, hm]; exact h.mac
  apart := by rw [hp]; exact h.apart

end PortIntfs

namespace IntactInv

theorem of_same (h : IntactInv s) (hs : SameL3 s.sdk s'.sdk)
    (hp : s'.portToIntfId = s.portToIntfId) : IntactInv s' where
  wired := h.wired.of_same hs hp
  intact := by
    intro i hi e he
    rw [hs.slot] at he
    have hsound := h.intact i hi e he
    refine hsound.frame ?_ ?_ ?_ ?_ ?_
    · rw [hs.nhopUsed]
      exact hsound.nhopUsed
    · rw [hs.chain]
    · rw [hs.chain]
    · rw [hs.intfUsed]
    · rw [hs.chain]
  ports := h.ports.frame hp hs.intfUsed (by rw [hs.chain])

theorem withIntf (h : IntactInv s) {p id : ℕ}
    (hid : firstFree s.sdk.intfUsed 1 MAX_L3_INTF = some id) : IntactInv (s.withIntf p id) where
  wired := h.wired.withIntf (firstFree_mem hid).2
  intact := by
    intro i hi e he
    rw [NetState.slot_withIntf] at he
    have hsound := h.intact i hi e he
    have hne : (s.sdk.asic.chain.hopIntf e.nhop.toNat).toNat ≠ id := by
      intro hn
      have hu := hsound.intfUsed
      rw [hn, firstFree_free hid] at hu
      cases hu
    obtain ⟨hport, hintf, -⟩ := s.hops_withIntf p id
    refine hsound.frame hsound.nhopUsed ?_ ?_ ?_ ?_
    · rw [hport]
    · rw [hintf]
    · exact Function.update_of_ne hne ..
    · rw [NetState.withIntf, chain_withIntf]
      exact Function.update_of_ne hne ..
  ports := h.ports.withIntf hid

theorem withoutIntf (h : IntactInv s) {p : ℕ}
    (hlast : ∀ i < MAX_L3_DEFIP, ∀ e, s.sdk.asic.slot i = some e →
      (s.sdk.asic.chain.hopIntf e.nhop.toNat).toNat ≠ s.portToIntfId p) :
    IntactInv (s.withoutIntf p) where
  wired := h.wired.withoutIntf p
  intact := by
    intro i hi e he
    rw [NetState.slot_withoutIntf] at he
    have hsound := h.intact i hi e he
    have hne := hlast i hi e he
    obtain ⟨hport, hintf, -⟩ := s.hops_withoutIntf p
    refine hsound.frame hsound.nhopUsed ?_ ?_ ?_ ?_
    · rw [hport]
    · rw [hintf]
    · exact Function.update_of_ne hne ..
    · rw [NetState.withoutIntf, chain_withoutIntf]
      exact Function.update_of_ne hne ..
  ports := h.ports.withoutIntf p

theorem withoutRoute (h : IntactInv s) (i : ℕ) : IntactInv (s.withoutRoute i) where
  wired := h.wired.withoutRoute i
  intact := by
    intro j hj e he
    have he' : s.sdk.asic.slot j = some e := by
      rw [NetState.withoutRoute, slot_withoutRoute] at he
      by_cases hji : j = i
      · rw [hji, Function.update_self] at he
        cases he
      · rwa [Function.update_of_ne hji] at he
    have hsound := h.intact j hj e he'
    have hchain := s.chain_withoutRoute i
    exact hsound.frame hsound.nhopUsed (by rw [hchain]) (by rw [hchain]) rfl (by rw [hchain])
  ports := h.ports.frame rfl rfl (by rw [NetState.chain_withoutRoute])

/-- Taking a next hop leaves the chains of the slots. -/
theorem withEgress (h : IntactInv s) (m : Nlmsg Rtmsg) {p id : ℕ}
    (hid : firstFree s.sdk.nhopUsed 1 MAX_L3_NHOP = some id) :
    IntactInv (s.withEgress m p id) where
  wired := h.wired.withEgress m p id
  intact := by
    intro i hi e he
    rw [NetState.slot_withEgress] at he
    have hsound := h.intact i hi e he
    obtain ⟨hport, hintf, -⟩ := hops_withEgress_of_used (p := p) m hid hsound.nhopUsed
    refine hsound.frame ?_ hport hintf rfl ?_
    · exact ((h.wired.withEgress m p id).hop i hi e (by rwa [NetState.slot_withEgress])).2
    · rw [NetState.withEgress, chain_withEgress]
  ports := by
    refine h.ports.frame rfl rfl ?_
    rw [NetState.withEgress, chain_withEgress]

theorem installed (h : IntactInv s) {m : Nlmsg Rtmsg} {p i id : ℕ}
    (hp : routedPort s (m.u32 RTA_OIF).toNat = some p)
    (hid : firstFree s.sdk.nhopUsed 1 MAX_L3_NHOP = some id)
    (hlen : m.hdr.rtmDstLen.toNat ≤ 32)
    (huniq : ∀ j < MAX_L3_DEFIP,
      s.sdk.asic.Names j (m.u32 RTA_DST) m.hdr.rtmDstLen.toNat → j = i) :
    IntactInv ((s.withEgress m p id).withRoute m i id) where
  wired := h.wired.installed hid hlen huniq
  intact := by
    intro j hj e he
    have hmid := h.withEgress m (p := p) hid
    have hchain := (s.withEgress m p id).chain_withRoute m i id
    rw [NetState.withRoute, slot_withRoute] at he
    by_cases hji : j = i
    · -- the new slot leads to the interface of its port
      obtain ⟨hrange, hnz⟩ := routedPort_range hp
      obtain ⟨hport, hintf, -⟩ := hops_withEgress_self (s := s) m p id
      have hmac : (s.withEgress m p id).sdk.asic.chain.srcMac (s.portToIntfId p) =
          (portMac p).u48 := hmid.ports.mac p hnz
      rw [hji, Function.update_self] at he
      cases he
      simp only [entryOf, routeOf_nhop (firstFree_mem hid).2]
      refine ⟨?_, ?_, ?_⟩
      · exact Function.update_self ..
      · rw [hchain, hintf, h.wired.toNat_hopIntf]
        exact h.ports.used p hnz
      · rw [hchain, hintf, h.wired.toNat_hopIntf, hport, toNat_hopPort hrange.2, hmac]
    · rw [Function.update_of_ne hji] at he
      have hsound := hmid.intact j hj e he
      exact hsound.frame hsound.nhopUsed (by rw [hchain]) (by rw [hchain]) rfl (by rw [hchain])
  ports := (h.withEgress m (p := p) hid).ports.frame rfl rfl (by rw [NetState.chain_withRoute])

/-- The invariant survives every message that meets the condition. -/
theorem step (h : IntactInv s) {m : Nlmsghdr} (hc : LastUserGone s m) :
    IntactInv (dispatch s m) := by
  cases m with
  | link del m =>
    obtain ⟨hs, hp⟩ := dispatch_quiet h.wired (m := .link del m) trivial
    exact h.of_same hs hp
  | addr del m =>
    rcases dispatch_addr h.wired del m with he | ⟨p, id, -, -, hid, he⟩ | ⟨p, rfl, hp, hnz, he⟩
    · rwa [he]
    · rw [he]
      exact h.withIntf hid
    · rw [he]
      exact h.withoutIntf (hc p hp hnz)
  | route del m =>
    cases del with
    | true =>
      by_cases hu : Unicast m
      swap
      · rwa [dispatch, handleRoute_of_not_unicast hu]
      rcases dispatch_delroute h.wired hu with ⟨i, -, -, -, he⟩ | ⟨-, he⟩
      · rw [he]
        exact h.withoutRoute i
      · rwa [he]
    | false =>
      rcases dispatch_newroute h.wired m with he | ⟨p, id, hu, hp, hid⟩
      · rwa [he]
      rcases dispatch_newroute_of_routed h.wired hu hp hid with
        ⟨i, -, hlen, huniq, -, -, he⟩ | ⟨-, -, he⟩
      · rw [he]
        exact h.installed hp hid hlen huniq
      · rw [he]
        exact h.withEgress m hid
  | neigh del m =>
    obtain ⟨hs, hp⟩ := dispatch_quiet h.wired (m := .neigh del m) trivial
    exact h.of_same hs hp
  | other => exact h

/-- A slot that leads to a destroyed interface dangles. -/
theorem not_intact (h : IntactInv s) {m : Nlmsghdr} (hc : ¬ LastUserGone s m) :
    ¬ Intact (dispatch s m) := by
  match m, hc with
  | .addr true m, hc =>
    simp only [LastUserGone, not_forall, not_not] at hc
    obtain ⟨p, hp, hnz, i, hi, e, he, hn⟩ := hc
    have hid : 0 < s.portToIntfId p ∧ s.portToIntfId p < MAX_L3_INTF :=
      ⟨by omega, h.wired.intfId p⟩
    have hdel : dispatch s (.addr true m) = s.withoutIntf p :=
      handleAddr_del h.wired.store.faultFree hp hid
    intro hintact
    rw [hdel] at hintact
    have hu := (hintact i hi e (by rwa [NetState.slot_withoutIntf])).intfUsed
    rw [(s.hops_withoutIntf p).2.1, hn] at hu
    simp [NetState.withoutIntf, SdkState.withoutIntf] at hu
  | .addr false _, hc => exact absurd trivial hc
  | .link _ _, hc => exact absurd trivial hc
  | .route _ _, hc => exact absurd trivial hc
  | .neigh _ _, hc => exact absurd trivial hc
  | .other, hc => exact absurd trivial hc

end IntactInv

/-- The chain is intact throughout exactly the histories in which an interface is
destroyed only after its last route is gone. -/
theorem intact_iff_lastUserGone {a : Asic} (hf : a.FaultFree)
    (hs : ∀ i < MAX_L3_DEFIP, a.slot i = none) (ms : List Nlmsghdr) :
    Throughout dispatch Intact (NetState.init (SdkState.init a)) ms ↔
      EachStep dispatch LastUserGone (NetState.init (SdkState.init a)) ms :=
  throughout_iff_eachStep_of_any (fun _ h => h.intact) (fun _ _ h hc => h.step hc)
    (fun _ _ h hc => h.not_intact hc) (IntactInv.init hf hs) ms

/-- An address is removed under a live route. -/
theorem intact_fails :
    ¬ Throughout dispatch Intact (NetState.init (SdkState.init Asic.blank))
      [newlinkSwp1, addrSwp1 false, routeTen false [oifSwp1], addrSwp1 true] := by
  intro h
  have hu := (h.final 0 (by decide) (entryOf 0x0a000000 8 1) (by decide +kernel)).intfUsed
  revert hu
  decide +kernel

/-- An address is removed before there is a route, and set again. -/
theorem intact_addressFirst :
    Throughout dispatch Intact (NetState.init (SdkState.init Asic.blank))
      [newlinkSwp1, addrSwp1 false, addrSwp1 true, addrSwp1 false, routeTen false [oifSwp1]] := by
  refine (intact_iff_lastUserGone Asic.blank_faultFree (fun i _ => slot_blank i) _).mpr ?_
  refine ⟨trivial, trivial, ?_, trivial, trivial, trivial⟩
  intro p hp hnz i hi e he
  exact absurd ((slot_onSwp1 i).symm.trans he) nofun

end OpenNos.Switchd
