import OpenNos.Lib.Lease
import OpenNos.Switchd.Wired

/-! The L3 interface of a port beside its addresses. The kernel announces every
address of a port, the handler keeps one interface per port and no count: a
second address takes a second interface and forgets the first, so the record is
exact only while no port has more than one address. -/

namespace OpenNos.Switchd

open Bits FirstFit Sdk History Lease

/-- An address message and the address it announces, of either family. -/
structure AddrEvent (α : Type*) where
  del : Bool
  msg : Nlmsg Ifaddrmsg
  address : α

/-- The netlink thread, and the addresses each port has. -/
structure AddrState (α : Type*) where
  net : NetState
  present : ℕ → Set α

variable {α : Type*}

/-- The port whose interface the message is about. -/
def AddrState.port (f : AddrState α) (e : AddrEvent α) : ℕ :=
  (f.net.ifindexToPort e.msg.hdr.ifaIndex.toNat).toNat

def AddrState.step (f : AddrState α) (e : AddrEvent α) : AddrState α where
  net := dispatch f.net (.addr e.del e.msg)
  present :=
    let old := f.present (f.port e)
    Function.update f.present (f.port e) (if e.del then old \ {e.address} else insert e.address old)

/-- The interfaces are mapped to ports, and no port has an address. -/
def AddrState.start (a : Asic) (ifindexToPort : ℕ → ℤ) : AddrState α where
  net := { NetState.init (SdkState.init a) with ifindexToPort := ifindexToPort }
  present := fun _ => ∅

/-- `port_to_intf_id[p]`, which has no entry for swp56. -/
def intfOf (s : NetState) (p : ℕ) : ℕ := if p < MAX_PORTS then s.portToIntfId p else 0

/-- One interface for each port that has an address, and no others. -/
structure OneIntf (f : AddrState α) : Prop where
  recorded : ∀ p, 0 < p ∧ p ≤ 56 → (intfOf f.net p ≠ 0 ↔ (f.present p).Nonempty)
  used : ∀ id < MAX_L3_INTF, f.net.sdk.intfUsed id = true ↔
    id ≠ 0 ∧ ∃ p < MAX_PORTS, intfOf f.net p = id
  apart : ∀ p < MAX_PORTS, ∀ q < MAX_PORTS, intfOf f.net p ≠ 0 →
    intfOf f.net p = intfOf f.net q → p = q

/-- A complete message about a switch port, which announces an address it does
not have or takes one it has. -/
def Announces (f : AddrState α) (e : AddrEvent α) : Prop :=
  (NLMSG_LENGTH 8 ≤ e.msg.nlmsgLen ∧ (e.msg.tb IFA_ADDRESS).isSome ∧
    e.msg.hdr.ifaIndex.toNat < MAX_IFINDEX ∧
    0 < f.net.ifindexToPort e.msg.hdr.ifaIndex.toNat ∧
    f.net.ifindexToPort e.msg.hdr.ifaIndex.toNat ≤ 56) ∧
  (e.address ∈ f.present (f.port e) ↔ e.del = true)

/-- A new address is the first of its port, and the port is not swp56. -/
def FirstAddress (f : AddrState α) (e : AddrEvent α) : Prop :=
  e.del = false → f.port e < MAX_PORTS ∧ f.present (f.port e) = ∅

structure AddrState.Inv (f : AddrState α) : Prop where
  faultFree : f.net.sdk.asic.FaultFree
  lt : ∀ p, f.net.portToIntfId p < MAX_L3_INTF
  single : ∀ p, (f.present p).Subsingleton
  one : OneIntf f

variable {f : AddrState α} {e : AddrEvent α}

theorem Announces.port_range (h : Announces f e) : 0 < f.port e ∧ f.port e ≤ 56 := by
  obtain ⟨⟨-, -, -, hpos, hle⟩, -⟩ := h
  rw [AddrState.port]
  omega

theorem Announces.addrPort (h : Announces f e) (hlt : f.port e < MAX_PORTS) :
    addrPort f.net e.msg = some (f.port e) := by
  obtain ⟨⟨hl, ha, hi, hpos, -⟩, -⟩ := h
  rw [AddrState.port] at hlt ⊢
  rw [Switchd.addrPort, if_pos ⟨hl, ha, hi, hpos, by omega⟩]

theorem intfOf_of_lt {s : NetState} {p : ℕ} (h : p < MAX_PORTS) : intfOf s p = s.portToIntfId p :=
  if_pos h

theorem intfOf_of_le {s : NetState} {p : ℕ} (h : MAX_PORTS ≤ p) : intfOf s p = 0 :=
  if_neg (by omega)

theorem intfOf_update {s s' : NetState} {p id : ℕ} (hp : p < MAX_PORTS)
    (h : s'.portToIntfId = Function.update s.portToIntfId p id) :
    intfOf s' = Function.update (intfOf s) p id := by
  funext q
  by_cases hq : q = p
  · rw [hq, Function.update_self, intfOf_of_lt hp, h, Function.update_self]
  · rw [Function.update_of_ne hq, intfOf, intfOf, h, Function.update_of_ne hq]

/-- The ports are the holders of the interfaces. -/
theorem OneIntf.books (h : OneIntf f) :
    Books (· < MAX_PORTS) MAX_L3_INTF f.net.sdk.intfUsed (intfOf f.net) where
  used := h.used
  apart := h.apart

/-- There are fewer ports than interfaces. -/
theorem OneIntf.exists_firstFree (h : OneIntf f) :
    ∃ id, firstFree f.net.sdk.intfUsed 1 MAX_L3_INTF = some id := by
  refine Option.ne_none_iff_exists'.mp fun hfull => ?_
  have hsub : Finset.Ico 1 MAX_L3_INTF ⊆ (Finset.range MAX_PORTS).image (intfOf f.net) := by
    intro id hid
    obtain ⟨h1, hlt⟩ := Finset.mem_Ico.mp hid
    obtain ⟨-, p, hp, hpid⟩ := (h.used id hlt).mp (firstFree_eq_none_iff.mp hfull id h1 hlt)
    exact Finset.mem_image.mpr ⟨p, Finset.mem_range.mpr hp, hpid⟩
  have hcard := (Finset.card_le_card hsub).trans Finset.card_image_le
  rw [Nat.card_Ico, Finset.card_range] at hcard
  have hi : MAX_L3_INTF = 4096 := rfl
  have hp : MAX_PORTS = 56 := rfl
  omega

/-- What a message announces, for the port and for the others. -/
theorem present_step (f : AddrState α) (e : AddrEvent α) : (f.step e).present =
    Function.update f.present (f.port e)
      (if e.del then f.present (f.port e) \ {e.address}
        else insert e.address (f.present (f.port e))) := rfl

namespace AddrState.Inv

theorem start {a : Asic} (hf : a.FaultFree) (ifindexToPort : ℕ → ℤ) :
    (AddrState.start a ifindexToPort : AddrState α).Inv where
  faultFree := hf
  lt _ := show 0 < MAX_L3_INTF by decide
  single _ := Set.subsingleton_empty
  one := by
    have hzero (p : ℕ) : intfOf (AddrState.start a ifindexToPort : AddrState α).net p = 0 :=
      ite_self 0
    refine ⟨fun p _ => ?_, fun id _ => ?_, fun p _ q _ hp => absurd (hzero p) hp⟩
    · exact iff_of_false (fun h => h (hzero p)) Set.not_nonempty_empty
    · refine ⟨nofun, ?_⟩
      rintro ⟨hid, p, -, hp⟩
      exact absurd ((hp.symm.trans (hzero p))) hid

/-- One port changes its addresses and its interface together. -/
theorem update (h : f.Inv) {f' : AddrState α} {p : ℕ} (id : ℕ) {addrs : Set α}
    (hp : p < MAX_PORTS) (hf : f'.net.sdk.asic.FaultFree)
    (hids : f'.net.portToIntfId = Function.update f.net.portToIntfId p id)
    (hpresent : f'.present = Function.update f.present p addrs)
    (hlt : id < MAX_L3_INTF) (hsub : addrs.Subsingleton) (hrec : id ≠ 0 ↔ addrs.Nonempty)
    (hbooks : Books (· < MAX_PORTS) MAX_L3_INTF f'.net.sdk.intfUsed
      (Function.update (intfOf f.net) p id)) : f'.Inv := by
  rw [← intfOf_update hp hids] at hbooks
  refine ⟨hf, ?_, ?_, ?_, hbooks.used, hbooks.apart⟩
  · intro q
    rw [hids]
    by_cases hq : q = p
    · rwa [hq, Function.update_self]
    · rw [Function.update_of_ne hq]
      exact h.lt q
  · intro q
    rw [hpresent]
    by_cases hq : q = p
    · rwa [hq, Function.update_self]
    · rw [Function.update_of_ne hq]
      exact h.single q
  · intro q hr
    rw [hpresent, intfOf_update hp hids]
    by_cases hq : q = p
    · rwa [hq, Function.update_self, Function.update_self]
    · rw [Function.update_of_ne hq, Function.update_of_ne hq]
      exact h.one.recorded q hr

/-- The first address of a port takes an interface. -/
theorem newaddr (h : f.Inv) (hd : Announces f e) (hdel : e.del = false)
    (hlt : f.port e < MAX_PORTS) (hempty : f.present (f.port e) = ∅) : (f.step e).Inv := by
  obtain ⟨id, hid⟩ := h.one.exists_firstFree
  have hrange : 0 < id ∧ id < MAX_L3_INTF := firstFree_mem hid
  have hnet : (f.step e).net = f.net.withIntf (f.port e) id := by
    rw [AddrState.step, dispatch, hdel]
    exact handleAddr_new h.faultFree (hd.addrPort hlt) hid
  have hpresent : (f.step e).present = Function.update f.present (f.port e) {e.address} := by
    rw [present_step, hdel, if_neg (by decide), hempty, insert_empty_eq]
  have hold : intfOf f.net (f.port e) = 0 := by
    by_contra hne
    have hsome := (h.one.recorded _ hd.port_range).mp hne
    rw [hempty] at hsome
    exact Set.not_nonempty_empty hsome
  refine h.update id hlt ?_ ?_ hpresent hrange.2 Set.subsingleton_singleton ?_ ?_
  · rw [hnet]
    exact h.faultFree
  · rw [hnet]
    rfl
  · exact iff_of_true hrange.1.ne' (Set.singleton_nonempty _)
  · rw [hnet]
    exact h.one.books.take hlt hold (firstFree_mem hid) (firstFree_free hid)

/-- The only address of a port gives its interface back. -/
theorem deladdr (h : f.Inv) (hd : Announces f e) (hdel : e.del = true) : (f.step e).Inv := by
  have hmem : e.address ∈ f.present (f.port e) := hd.2.mpr hdel
  have hne := (h.one.recorded _ hd.port_range).mpr ⟨e.address, hmem⟩
  have hlt : f.port e < MAX_PORTS := by
    by_contra hle
    exact hne (intfOf_of_le (by omega))
  have hid : 0 < f.net.portToIntfId (f.port e) ∧
      f.net.portToIntfId (f.port e) < MAX_L3_INTF := by
    rw [intfOf_of_lt hlt] at hne
    exact ⟨by omega, h.lt _⟩
  have hnet : (f.step e).net = f.net.withoutIntf (f.port e) := by
    rw [AddrState.step, dispatch, hdel]
    exact handleAddr_del h.faultFree (hd.addrPort hlt) hid
  have hpresent : (f.step e).present = Function.update f.present (f.port e) ∅ := by
    have honly : f.present (f.port e) = {e.address} :=
      (h.single _).eq_singleton_of_mem hmem
    rw [present_step, hdel, if_pos rfl, honly, Set.sdiff_self]
  refine h.update 0 hlt ?_ ?_ hpresent (by decide) Set.subsingleton_empty ?_ ?_
  · rw [hnet]
    exact h.faultFree
  · rw [hnet]
    rfl
  · exact iff_of_false (fun h => h rfl) Set.not_nonempty_empty
  · rw [hnet, NetState.withoutIntf, ← intfOf_of_lt hlt]
    exact h.one.books.release hlt hne

theorem step (h : f.Inv) (hd : Announces f e) (hc : FirstAddress f e) : (f.step e).Inv := by
  cases hdel : e.del with
  | false =>
    obtain ⟨hlt, hempty⟩ := hc hdel
    exact h.newaddr hd hdel hlt hempty
  | true => exact h.deladdr hd hdel

/-- A second address leaves the first interface without a port, and swp56 gets none. -/
theorem not_oneIntf (h : f.Inv) (hd : Announces f e) (hc : ¬ FirstAddress f e) :
    ¬ OneIntf (f.step e) := by
  simp only [FirstAddress, not_forall, exists_prop] at hc
  obtain ⟨hdel, hc⟩ := hc
  intro hone
  by_cases hlt : f.port e < MAX_PORTS
  swap
  · have hsome : ((f.step e).present (f.port e)).Nonempty := by
      rw [present_step, Function.update_self, hdel, if_neg (by decide)]
      exact Set.insert_nonempty ..
    exact (hone.recorded _ hd.port_range).mpr hsome (intfOf_of_le (by omega))
  have hsome : (f.present (f.port e)).Nonempty :=
    Set.nonempty_iff_ne_empty.mpr fun hempty => hc ⟨hlt, hempty⟩
  have hne := (h.one.recorded _ hd.port_range).mpr hsome
  obtain ⟨id, hid⟩ := h.one.exists_firstFree
  have hnet : (f.step e).net = f.net.withIntf (f.port e) id := by
    rw [AddrState.step, dispatch, hdel]
    exact handleAddr_new h.faultFree (hd.addrPort hlt) hid
  have hold : intfOf f.net (f.port e) < MAX_L3_INTF := by
    rw [intfOf_of_lt hlt]
    exact h.lt _
  refine h.one.books.not_overwrite hlt hne hold (firstFree_mem hid) (firstFree_free hid) ?_
  have hbooks := hone.books
  have hids : (f.step e).net.portToIntfId =
      Function.update f.net.portToIntfId (f.port e) id := by
    rw [hnet]
    rfl
  rwa [intfOf_update hlt hids, hnet] at hbooks

end AddrState.Inv

/-- There is one interface for each addressed port throughout exactly the
histories in which no port has a second address and swp56 has none. -/
theorem oneIntf_iff_firstAddress {a : Asic} (hf : a.FaultFree) (ifindexToPort : ℕ → ℤ)
    {es : List (AddrEvent α)}
    (hd : EachStep AddrState.step Announces (AddrState.start a ifindexToPort) es) :
    Throughout AddrState.step OneIntf (AddrState.start a ifindexToPort) es ↔
      EachStep AddrState.step FirstAddress (AddrState.start a ifindexToPort) es :=
  throughout_iff_eachStep (fun _ h => h.one) (fun _ _ h hd hc => h.step hd hc)
    (fun _ _ h hd hc => h.not_oneIntf hd hc) (AddrState.Inv.start hf ifindexToPort) hd

/-! ### Two addresses of swp1 -/

/-- Interface 3 is swp1. -/
def swp1Only (ifindex : ℕ) : ℤ := if ifindex = 3 then 1 else -1

/-- A message about an address of swp1, given by its bytes. -/
def addrEvent (del : Bool) (address : List Cstring.Byte) : AddrEvent (List Cstring.Byte) where
  del := del
  msg := { nlmsgLen := 32, hdr := { ifaIndex := 3 }, tb := attrs [(IFA_ADDRESS, address)] }
  address := address

/-- The interfaces keep their ports. -/
theorem port_of_swp1Only {f : AddrState (List Cstring.Byte)}
    (h : f.net.ifindexToPort = swp1Only) (del : Bool) (address : List Cstring.Byte) :
    f.port (addrEvent del address) = 1 := by
  rw [AddrState.port, h]
  rfl

theorem ifindexToPort_step (f : AddrState α) (e : AddrEvent α) :
    (f.step e).net.ifindexToPort = f.net.ifindexToPort := by
  obtain ⟨sdk, g, hg⟩ := handleAddr_eq f.net e.del e.msg
  rw [AddrState.step, dispatch, hg]

/-- What a message about swp1 must announce. -/
theorem announces_swp1 {f : AddrState (List Cstring.Byte)} (h : f.net.ifindexToPort = swp1Only)
    {del : Bool} {address : List Cstring.Byte} (hmem : address ∈ f.present 1 ↔ del = true) :
    Announces f (addrEvent del address) := by
  refine ⟨⟨show NLMSG_LENGTH 8 ≤ 32 by decide, rfl, show 3 < MAX_IFINDEX by decide, ?_, ?_⟩, ?_⟩
  · rw [h]
    exact show (0 : ℤ) < 1 by decide
  · rw [h]
    exact show (1 : ℤ) ≤ 56 by decide
  · rw [port_of_swp1Only h]
    exact hmem

theorem present_swp1 {f : AddrState (List Cstring.Byte)} (h : f.net.ifindexToPort = swp1Only)
    (del : Bool) (address : List Cstring.Byte) :
    (f.step (addrEvent del address)).present 1 =
      if del then f.present 1 \ {address} else insert address (f.present 1) := by
  rw [present_step, port_of_swp1Only h, Function.update_self]
  rfl

/-- An IPv4 and an IPv6 address: interface 1 is forgotten. -/
theorem oneIntf_fails :
    EachStep AddrState.step Announces (AddrState.start Asic.blank swp1Only)
        [addrEvent false [10, 0, 0, 1], addrEvent false [0xfe, 0x80]] ∧
      ¬ Throughout AddrState.step OneIntf (AddrState.start Asic.blank swp1Only)
        [addrEvent false [10, 0, 0, 1], addrEvent false [0xfe, 0x80]] := by
  have hmap : (AddrState.start Asic.blank swp1Only :
      AddrState (List Cstring.Byte)).net.ifindexToPort = swp1Only := rfl
  constructor
  · refine ⟨announces_swp1 hmap (iff_of_false (Set.notMem_empty _) nofun), ?_, trivial⟩
    refine announces_swp1 (by rw [ifindexToPort_step, hmap]) (iff_of_false ?_ nofun)
    rw [present_swp1 hmap]
    rintro (h | h)
    · exact absurd h (by decide)
    · exact h
  · intro h
    obtain ⟨-, p, hp, hid⟩ := (h.final.used 1 (by decide)).mp (by decide +kernel)
    revert p
    decide +kernel

theorem firstAddress_swp1 {f : AddrState (List Cstring.Byte)} (h : f.net.ifindexToPort = swp1Only)
    (hempty : f.present 1 = ∅) (address : List Cstring.Byte) :
    FirstAddress f (addrEvent false address) := by
  intro _
  rw [port_of_swp1Only h]
  exact ⟨by decide, hempty⟩

/-- An address is set, removed and replaced by another. -/
theorem oneIntf_readdressed :
    Throughout AddrState.step OneIntf (AddrState.start Asic.blank swp1Only)
      [addrEvent false [10, 0, 0, 1], addrEvent true [10, 0, 0, 1],
        addrEvent false [10, 0, 0, 2]] := by
  let start : AddrState (List Cstring.Byte) := AddrState.start Asic.blank swp1Only
  let added := start.step (addrEvent false [10, 0, 0, 1])
  let removed := added.step (addrEvent true [10, 0, 0, 1])
  have hstart : start.net.ifindexToPort = swp1Only := rfl
  have hadded : added.net.ifindexToPort = swp1Only := by rw [ifindexToPort_step, hstart]
  have hremoved : removed.net.ifindexToPort = swp1Only := by rw [ifindexToPort_step, hadded]
  have hone : added.present 1 = {[10, 0, 0, 1]} := by
    rw [present_swp1 hstart, if_neg (by decide)]
    exact insert_empty_eq _
  have hnone : removed.present 1 = ∅ := by
    rw [present_swp1 hadded, if_pos rfl, hone, Set.sdiff_self]
  have hd : EachStep AddrState.step Announces start
      [addrEvent false [10, 0, 0, 1], addrEvent true [10, 0, 0, 1],
        addrEvent false [10, 0, 0, 2]] := by
    refine ⟨announces_swp1 hstart ?_, announces_swp1 hadded ?_, announces_swp1 hremoved ?_, trivial⟩
    · exact iff_of_false (Set.notMem_empty _) nofun
    · rw [hone]
      exact iff_of_true rfl rfl
    · rw [hnone]
      exact iff_of_false (Set.notMem_empty _) nofun
  refine (oneIntf_iff_firstAddress Asic.blank_faultFree swp1Only hd).mpr ?_
  exact ⟨firstAddress_swp1 hstart rfl _, nofun, firstAddress_swp1 hremoved hnone _, trivial⟩

end OpenNos.Switchd
