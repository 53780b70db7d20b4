import OpenNos.Switchd.Wired

/-! The forwarding table of the chip beside the kernel's. For each prefix the
latest route message says what the table should hold: nothing once the route is
withdrawn or can be forwarded by the kernel only, one slot by way of the port
otherwise. The handler ignores a route it cannot offload, so the slot of the
route it replaces stays. -/

namespace OpenNos.Switchd

open Bits FirstFit Sdk History

/-- What the latest route message for a prefix asks of the table. -/
inductive Wanted where
  | withdrawn
  | offloaded (port : ℕ)
  | kernelOnly

/-- A message about the route of an IPv4 prefix. -/
def ForPrefix (m : Nlmsg Rtmsg) : Prop := Unicast m ∧ m.hdr.rtmDstLen.toNat ≤ 32

instance (m : Nlmsg Rtmsg) : Decidable (ForPrefix m) := by unfold ForPrefix; infer_instance

/-- The port with an L3 interface that RTA_OIF leads to. -/
def offloadPort (s : NetState) (m : Nlmsg Rtmsg) : Option ℕ :=
  (m.tb RTA_OIF).bind fun oif => routedPort s oif.u32.toNat

def wanted (s : NetState) (del : Bool) (m : Nlmsg Rtmsg) : Wanted :=
  if del then .withdrawn
  else
    match offloadPort s m with
    | some p => .offloaded p
    | none => .kernelOnly

/-- The netlink thread, and what was asked last of each prefix. -/
structure FibState where
  net : NetState
  latest : BitVec 32 × ℕ → Option Wanted

def FibState.step (f : FibState) (m : Nlmsghdr) : FibState where
  net := dispatch f.net m
  latest :=
    match m with
    | .route del r =>
      if ForPrefix r then
        Function.update f.latest (r.u32 RTA_DST, r.hdr.rtmDstLen.toNat) (some (wanted f.net del r))
      else f.latest
    | _ => f.latest

def FibState.start (a : Asic) : FibState where
  net := NetState.init (SdkState.init a)
  latest := fun _ => none

/-- What the slots of a prefix hold against what is wanted. -/
def Agrees (a : Asic) (pfx : BitVec 32) (len : ℕ) : Wanted → Prop
  | .offloaded p => ∃ i < MAX_L3_DEFIP,
      (∃ nhop, a.slot i = some (entryOf pfx len nhop) ∧
        (a.chain.hopPort nhop.toNat).toNat = p) ∧
      ∀ j < MAX_L3_DEFIP, a.Names j pfx len → j = i
  | _ => ∀ i < MAX_L3_DEFIP, ¬ a.Names i pfx len

/-- The table follows the latest message of every prefix. -/
def Follows (f : FibState) : Prop :=
  ∀ pfx len w, f.latest (pfx, len) = some w → Agrees f.net.sdk.asic pfx len w

/-- No table is full when a new route arrives. -/
def Room (f : FibState) : Nlmsghdr → Prop
  | .route false _ =>
    (∃ n, (1 ≤ n ∧ n < MAX_L3_NHOP) ∧ f.net.sdk.nhopUsed n = false) ∧
      ∃ i < MAX_L3_DEFIP, f.net.sdk.asic.slot i = none
  | _ => True

/-- A route that cannot be offloaded replaces none that was, and without RTA_OIF
it is not taken for one by way of interface 0. -/
def ReplacesNone (f : FibState) : Nlmsghdr → Prop
  | .route false m => ForPrefix m → offloadPort f.net m = none →
      routedPort f.net (m.u32 RTA_OIF).toNat = none ∧
        ∀ i < MAX_L3_DEFIP, ¬ f.net.sdk.asic.Names i (m.u32 RTA_DST) m.hdr.rtmDstLen.toNat
  | _ => True

/-! ### Agreement as a matter of next hops -/

variable {s s' : NetState} {f : FibState} {m : Nlmsg Rtmsg}

theorem agrees_offloaded_iff (h : Wired s) {pfx : BitVec 32} {len p : ℕ} (hlen : len ≤ 32) :
    Agrees s.sdk.asic pfx len (.offloaded p) ↔
      ∃ n, s.sdk.asic.Forwards pfx len n ∧ (s.sdk.asic.chain.hopPort n).toNat = p := by
  constructor
  · rintro ⟨i, hi, ⟨nhop, hs, hp⟩, -⟩
    exact ⟨nhop.toNat, ⟨i, hi, nhop, hs, rfl⟩, hp⟩
  · rintro ⟨n, ⟨i, hi, nhop, hs, rfl⟩, hp⟩
    refine ⟨i, hi, ⟨nhop, hs, hp⟩, fun j hj hn => ?_⟩
    exact h.store.names_unique hj hi (natLen hlen) hn ⟨nhop, hs⟩

theorem not_live_iff {a : Asic} {pfx : BitVec 32} {plen : ℤ} :
    ¬ a.Live pfx plen ↔ ∀ i < MAX_L3_DEFIP, ¬ a.Names i pfx plen := by
  simp only [Asic.Live, not_exists, not_and]

/-- Agreement depends on the next hop of the prefix and on its port. -/
theorem Agrees.frame (h : Wired s) (h' : Wired s') {pfx : BitVec 32} {len : ℕ} (hlen : len ≤ 32)
    (hfwd : ∀ n, s'.sdk.asic.Forwards pfx len n ↔ s.sdk.asic.Forwards pfx len n)
    (hport : ∀ n, s.sdk.asic.Forwards pfx len n →
      s'.sdk.asic.chain.hopPort n = s.sdk.asic.chain.hopPort n) {w : Wanted}
    (hw : Agrees s.sdk.asic pfx len w) : Agrees s'.sdk.asic pfx len w := by
  have hgone (hno : ∀ i < MAX_L3_DEFIP, ¬ s.sdk.asic.Names i pfx len) :
      ∀ i < MAX_L3_DEFIP, ¬ s'.sdk.asic.Names i pfx len := by
    rw [← not_live_iff, live_iff] at hno ⊢
    exact fun ⟨n, hn⟩ => hno ⟨n, (hfwd n).mp hn⟩
  cases w with
  | offloaded p =>
    obtain ⟨n, hn, hp⟩ := (agrees_offloaded_iff h hlen).mp hw
    exact (agrees_offloaded_iff h' hlen).mpr ⟨n, (hfwd n).mpr hn, by rw [hport n hn, hp]⟩
  | withdrawn => exact hgone hw
  | kernelOnly => exact hgone hw

/-! ### Every message -/

structure FibState.Inv (f : FibState) : Prop where
  wired : Wired f.net
  len : ∀ pfx len w, f.latest (pfx, len) = some w → len ≤ 32
  follows : Follows f

theorem FibState.Inv.start {a : Asic} (hf : a.FaultFree)
    (hs : ∀ i < MAX_L3_DEFIP, a.slot i = none) : (FibState.start a).Inv where
  wired := Wired.init hf hs
  len := nofun
  follows := nofun

theorem offloadPort_of_none (h : routedPort s (m.u32 RTA_OIF).toNat = none) :
    offloadPort s m = none := by
  rw [offloadPort]
  cases hoif : m.tb RTA_OIF with
  | none => rfl
  | some oif => simpa only [Nlmsg.u32, hoif, Option.bind_some] using h

theorem wanted_of_none (h : offloadPort s m = none) : wanted s false m = .kernelOnly := by
  rw [wanted, if_neg (by decide), h]

/-- A routed message without RTA_OIF aside, the port wanted is the one routed to. -/
theorem wanted_of_routed {p : ℕ} (hp : routedPort s (m.u32 RTA_OIF).toNat = some p)
    (hno : offloadPort s m ≠ none) : wanted s false m = .offloaded p := by
  have hoff : offloadPort s m = some p := by
    rw [offloadPort] at hno ⊢
    cases hoif : m.tb RTA_OIF with
    | none => exact absurd (by rw [hoif]; rfl) hno
    | some oif => simpa only [Nlmsg.u32, hoif, Option.bind_some] using hp
  rw [wanted, if_neg (by decide), hoff]

namespace FibState.Inv

/-- Nothing new is wanted, and every route keeps its next hop and port. -/
theorem unasked (h : f.Inv) (h' : Wired s')
    (hfwd : s'.sdk.asic.Forwards = f.net.sdk.asic.Forwards)
    (hport : ∀ pfx plen n, f.net.sdk.asic.Forwards pfx plen n →
      s'.sdk.asic.chain.hopPort n = f.net.sdk.asic.chain.hopPort n) :
    FibState.Inv { f with net := s' } where
  wired := h'
  len := h.len
  follows := by
    intro pfx len w hw
    have hlen := h.len pfx len w hw
    refine (h.follows pfx len w hw).frame h.wired h' hlen ?_ ?_
    · intro n
      rw [hfwd]
    · exact hport pfx len

/-- The prefix of the message gets what is wanted, and the others keep what they have. -/
theorem asked (h : f.Inv) (h' : Wired s') (hm : ForPrefix m) {w : Wanted}
    (hw : Agrees s'.sdk.asic (m.u32 RTA_DST) m.hdr.rtmDstLen.toNat w)
    (hfwd : ∀ pfx (plen : ℤ) n, (0 ≤ plen ∧ plen ≤ 32) →
      ¬ (pfx = m.u32 RTA_DST ∧ plen = m.hdr.rtmDstLen.toNat) →
      (s'.sdk.asic.Forwards pfx plen n ↔ f.net.sdk.asic.Forwards pfx plen n))
    (hport : ∀ pfx plen n, f.net.sdk.asic.Forwards pfx plen n →
      s'.sdk.asic.chain.hopPort n = f.net.sdk.asic.chain.hopPort n) :
    FibState.Inv
      { net := s'
        latest := Function.update f.latest (m.u32 RTA_DST, m.hdr.rtmDstLen.toNat) (some w) } where
  wired := h'
  len := by
    intro pfx len w' hw'
    by_cases hk : (pfx, len) = (m.u32 RTA_DST, m.hdr.rtmDstLen.toNat)
    · cases hk
      exact hm.2
    · simp only [Function.update_of_ne hk] at hw'
      exact h.len pfx len w' hw'
  follows := by
    intro pfx len w' hw'
    by_cases hk : (pfx, len) = (m.u32 RTA_DST, m.hdr.rtmDstLen.toNat)
    · cases hk
      simp only [Function.update_self] at hw'
      cases hw'
      exact hw
    · simp only [Function.update_of_ne hk] at hw'
      have hlen := h.len pfx len w' hw'
      refine (h.follows pfx len w' hw').frame h.wired h' hlen ?_ (hport pfx len)
      intro n
      refine hfwd pfx len n (natLen hlen) ?_
      rintro ⟨rfl, hl⟩
      exact hk (by rw [Nat.cast_inj.mp hl])

theorem unrouted (h : f.Inv) {m : Nlmsghdr} (hm : ∀ del r, m ≠ .route del r) :
    FibState.Inv { f with net := dispatch f.net m } := by
  have hs := dispatch_sameRoutes h.wired hm
  refine h.unasked (h.wired.dispatch m) (forwards_of_slot hs.slot) ?_
  intro pfx plen n _
  rw [hs.hopPort]

theorem of_not_unicast (h : f.Inv) {del : Bool} (hu : ¬ Unicast m) :
    (f.step (.route del m)).Inv := by
  rw [FibState.step, dispatch, handleRoute_of_not_unicast hu]
  simp only [if_neg fun hm : ForPrefix m => hu hm.1]
  exact h

theorem delroute (h : f.Inv) (m : Nlmsg Rtmsg) : (f.step (.route true m)).Inv := by
  by_cases hu : Unicast m
  swap
  · exact h.of_not_unicast hu
  have h' := h.wired.dispatch (.route true m)
  rcases dispatch_delroute h.wired hu with ⟨i, hi, hlen, hn, he⟩ | ⟨hno, he⟩
  · have hfwd (pfx : BitVec 32) (plen : ℤ) (n : ℕ) (hl : 0 ≤ plen ∧ plen ≤ 32) :
        (f.net.withoutRoute i).sdk.asic.Forwards pfx plen n ↔
          ¬ (pfx = m.u32 RTA_DST ∧ plen = m.hdr.rtmDstLen.toNat) ∧
            f.net.sdk.asic.Forwards pfx plen n :=
      h.wired.store.forwards_withoutRoute hi (natLen hlen) hn hl
    rw [FibState.step]
    simp only [if_pos (show ForPrefix m from ⟨hu, hlen⟩)]
    rw [he] at h' ⊢
    refine h.asked h' ⟨hu, hlen⟩ ?_ ?_ ?_
    · refine not_live_iff.mp fun hlive => ?_
      obtain ⟨n, hfn⟩ := live_iff.mp hlive
      exact ((hfwd _ _ n (natLen hlen)).mp hfn).1 ⟨rfl, rfl⟩
    · intro pfx plen n hl hne
      exact (hfwd pfx plen n hl).trans (and_iff_right hne)
    · intro pfx plen n _
      rw [NetState.chain_withoutRoute]
  · rw [FibState.step, he]
    by_cases hlen : m.hdr.rtmDstLen.toNat ≤ 32
    · simp only [if_pos (show ForPrefix m from ⟨hu, hlen⟩)]
      exact h.asked h.wired ⟨hu, hlen⟩ (not_live_iff.mp (hno hlen)) (fun _ _ _ _ _ => Iff.rfl)
        fun _ _ _ _ => rfl
    · simp only [if_neg fun hm : ForPrefix m => hlen hm.2]
      exact h

/-- A new route goes to its slot, or changes nothing. -/
theorem newroute (h : f.Inv) (hroom : Room f (.route false m))
    (hc : ReplacesNone f (.route false m)) : (f.step (.route false m)).Inv := by
  have h' := h.wired.dispatch (.route false m)
  by_cases hu : Unicast m
  swap
  · exact h.of_not_unicast hu
  rw [FibState.step]
  cases hp : routedPort f.net (m.u32 RTA_OIF).toNat with
  | none =>
    rw [dispatch, handleRoute_of_unrouted hu hp]
    by_cases hlen : m.hdr.rtmDstLen.toNat ≤ 32
    · simp only [if_pos (show ForPrefix m from ⟨hu, hlen⟩), wanted_of_none (offloadPort_of_none hp)]
      have hno := (hc ⟨hu, hlen⟩ (offloadPort_of_none hp)).2
      exact h.asked h.wired ⟨hu, hlen⟩ hno (fun _ _ _ _ _ => Iff.rfl) fun _ _ _ _ => rfl
    · simp only [if_neg fun hm : ForPrefix m => hlen hm.2]
      exact h
  | some p =>
    obtain ⟨⟨k, hk, hfree⟩, j, hj, hempty⟩ := hroom
    obtain ⟨id, -, hid⟩ := exists_firstFree hk.1 hk.2 hfree
    have hport (pfx : BitVec 32) (plen : ℤ) (n : ℕ)
        (hn : f.net.sdk.asic.Forwards pfx plen n) :=
      (hops_withEgress_of_used (p := p) m hid (h.wired.nhopUsed hn)).1
    rcases dispatch_newroute_of_routed h.wired hu hp hid with
      ⟨i, hi, hlen, huniq, hown, -, he⟩ | ⟨hlen | ⟨-, hfull⟩, -, he⟩
    · have hfwd (pfx : BitVec 32) (plen : ℤ) (n : ℕ) (hl : 0 ≤ plen ∧ plen ≤ 32) :=
        forwards_installed (p := p) hi (firstFree_mem hid) hlen huniq hown pfx hl n
      simp only [if_pos (show ForPrefix m from ⟨hu, hlen⟩)]
      rw [he] at h' ⊢
      refine h.asked h' ⟨hu, hlen⟩ ?_ ?_ ?_
      · rw [wanted_of_routed hp fun hno => ?_]
        · refine (agrees_offloaded_iff h' hlen).mpr ⟨id, ?_, ?_⟩
          · exact (hfwd _ _ id (natLen hlen)).mpr (.inl ⟨⟨rfl, rfl⟩, rfl⟩)
          · rw [NetState.chain_withRoute, (hops_withEgress_self m p id).1,
              toNat_hopPort (routedPort_range hp).1.2]
        · rw [(hc ⟨hu, hlen⟩ hno).1] at hp
          cases hp
      · intro pfx plen n hl hne
        refine (hfwd pfx plen n hl).trans ?_
        rw [or_iff_right fun hn => hne hn.1, and_iff_right hne]
      · rw [NetState.chain_withRoute]
        exact hport
    · simp only [if_neg fun hm : ForPrefix m => absurd hm.2 (by omega)]
      rw [he] at h' ⊢
      exact h.unasked h' (forwards_of_slot (f.net.slot_withEgress m p id)) hport
    · exact absurd hempty (hfull j hj)

end FibState.Inv

/-- The invariant survives every message that meets the condition. -/
theorem FibState.Inv.step (h : f.Inv) {m : Nlmsghdr} (hroom : Room f m) (hc : ReplacesNone f m) :
    (f.step m).Inv := by
  cases m with
  | link del m => exact h.unrouted nofun
  | addr del m => exact h.unrouted nofun
  | route del m =>
    cases del with
    | true => exact h.delroute m
    | false => exact h.newroute hroom hc
  | neigh del m => exact h.unrouted nofun
  | other => exact h.unrouted nofun

/-- Any other message leaves a slot the kernel has given up, or makes one. -/
theorem FibState.Inv.not_follows (h : f.Inv) {m : Nlmsghdr} (hroom : Room f m)
    (hc : ¬ ReplacesNone f m) : ¬ Follows (f.step m) := by
  match m, hroom, hc with
  | .route false m, hroom, hc =>
    simp only [ReplacesNone, not_forall] at hc
    obtain ⟨hm, hno, hc⟩ := hc
    intro hfollows
    have hgone : ∀ i < MAX_L3_DEFIP, ¬ (dispatch f.net (.route false m)).sdk.asic.Names i
        (m.u32 RTA_DST) m.hdr.rtmDstLen.toNat := by
      refine hfollows (m.u32 RTA_DST) m.hdr.rtmDstLen.toNat .kernelOnly ?_
      simp only [FibState.step, if_pos hm, Function.update_self, wanted_of_none hno]
    cases hp : routedPort f.net (m.u32 RTA_OIF).toNat with
    | none =>
      rw [dispatch, handleRoute_of_unrouted hm.1 hp] at hgone
      exact hc ⟨hp, hgone⟩
    | some p =>
      obtain ⟨⟨k, hk, hfree⟩, j, hj, hempty⟩ := hroom
      obtain ⟨id, -, hid⟩ := exists_firstFree hk.1 hk.2 hfree
      rcases dispatch_newroute_of_routed h.wired hm.1 hp hid with
        ⟨i, hi, -, -, -, -, he⟩ | ⟨hlen | ⟨-, hfull⟩, -⟩
      · rw [he] at hgone
        refine hgone i hi ⟨BitVec.ofInt 14 (routeOf m id).egressId, ?_⟩
        rw [NetState.withRoute, slot_withRoute, Function.update_self]
        rfl
      · exact absurd hm.2 (by omega)
      · exact absurd hempty (hfull j hj)
  | .route true _, _, hc => exact absurd trivial hc
  | .link _ _, _, hc => exact absurd trivial hc
  | .addr _ _, _, hc => exact absurd trivial hc
  | .neigh _ _, _, hc => exact absurd trivial hc
  | .other, _, hc => exact absurd trivial hc

/-- While no table is full, the table follows the kernel throughout exactly the
histories in which no route that cannot be offloaded replaces one that was. -/
theorem follows_iff_replacesNone {a : Asic} (hf : a.FaultFree)
    (hs : ∀ i < MAX_L3_DEFIP, a.slot i = none) {ms : List Nlmsghdr}
    (hroom : EachStep FibState.step Room (FibState.start a) ms) :
    Throughout FibState.step Follows (FibState.start a) ms ↔
      EachStep FibState.step ReplacesNone (FibState.start a) ms :=
  throughout_iff_eachStep (fun _ h => h.follows) (fun _ _ h hr hc => h.step hr hc)
    (fun _ _ h hr hc => h.not_follows hr hc) (FibState.Inv.start hf hs) hroom

/-! ### A route that becomes multipath -/

/-- There is room for the routes of 10.0.0.0/8 on swp1. -/
theorem room_routeTen (l : List (ℕ × List Cstring.Byte)) (f : FibState)
    (hn : f.net.sdk.nhopUsed 2 = false) (hs : f.net.sdk.asic.slot 1 = none) :
    Room f (routeTen false l) :=
  ⟨⟨2, by decide, hn⟩, 1, by decide, hs⟩

/-- A route by way of swp1 is replaced by one with two next hops: its slot stays. -/
theorem follows_fails :
    EachStep FibState.step Room (FibState.start Asic.blank)
        [newlinkSwp1, addrSwp1 false, routeTen false [oifSwp1], routeTen false []] ∧
      ¬ Throughout FibState.step Follows (FibState.start Asic.blank)
        [newlinkSwp1, addrSwp1 false, routeTen false [oifSwp1], routeTen false []] := by
  constructor
  · refine ⟨trivial, trivial, room_routeTen _ _ ?_ ?_, room_routeTen _ _ ?_ ?_, trivial⟩
    · decide +kernel
    · exact slot_onSwp1 1
    · decide +kernel
    · decide +kernel
  · intro h
    refine h.final 0x0a000000 8 .kernelOnly (by rfl) 0 (by decide) ⟨1, ?_⟩
    decide +kernel

/-- A route is added and withdrawn. -/
theorem follows_withdrawn :
    Throughout FibState.step Follows (FibState.start Asic.blank)
      [newlinkSwp1, addrSwp1 false, routeTen false [oifSwp1], routeTen true [oifSwp1]] := by
  refine (follows_iff_replacesNone Asic.blank_faultFree (fun i _ => slot_blank i) ?_).mpr ?_
  · refine ⟨trivial, trivial, room_routeTen _ _ ?_ (slot_onSwp1 1), trivial, trivial⟩
    decide +kernel
  · exact ⟨trivial, trivial, fun _ hno => absurd hno (by decide +kernel), trivial, trivial⟩

end OpenNos.Switchd
