import OpenNos.Switchd.NetlinkBytes

/-! Where the reads of the netlink handlers lie. Every message the loop hands out lies in
the bytes received, every attribute in its message, and the headers are read only when
they are there. What is left are the values of attributes, which are inside exactly if
they are as long as the handler takes for granted. -/

namespace OpenNos.Switchd

open Cstring

/-- The read stays in the message, and a read of a value in its attribute. -/
def Access.Inside (buf : List Byte) (nlh : ℕ) (a : Access) : Prop :=
  (nlh ≤ a.off ∧ a.off + a.size ≤ nlh + nlmsgLen buf nlh) ∧
    ∀ rta ∈ a.attr, RTA_DATA rta ≤ a.off ∧ a.off + a.size ≤ rta + rtaLen buf rta

/-- All reads of the handlers stay inside, in the state each message finds. -/
def ReadsInside (s : NetState) (r : Recv) : Prop :=
  ∀ p ∈ messagesFound r.buf s (messageLoop r).recs,
    ∀ a ∈ dispatchReads r.buf p.1 p.2, a.Inside r.buf p.2

/-- The loop over the messages comes to its end, and so does `parse_rtattr` whatever it
is called with. -/
structure LoopsEnd (r : Recv) : Prop where
  messages : (messageLoop r).stop.isSome
  attributes : ∀ rta len, (rtattrLoop r.buf rta len).stop.isSome

/-- The bytes of a value. -/
def rtaValue (buf : List Byte) (rta : ℕ) : List Byte :=
  (buf.drop (RTA_DATA rta)).take (rtaLen buf rta - 4)

/-- A value that tells within its length whether it is the name of a port. -/
def NameEnds (name : List Byte) : Prop := ¬ name <+: SWP ∧ (SWP <+: name → 0 ∈ name)

/-- The attribute, where it is there, has a value of at least `size` bytes. -/
def AtLeast (buf : List Byte) (tb : ℕ → Option ℕ) (type size : ℕ) : Prop :=
  ∀ rta ∈ tb type, (size : ℤ) ≤ RTA_PAYLOAD buf rta

/-- The attributes that are read are long enough. -/
structure LongEnough (buf : List Byte) (nlh : ℕ) : Prop where
  link : nlmsgType buf nlh = RTM_NEWLINK → NLMSG_LENGTH 16 ≤ nlmsgLen buf nlh →
    ∀ rta ∈ msgTb buf RTA_TB_SIZE nlh 16 IFLA_IFNAME, NameEnds (rtaValue buf rta)
  neigh : nlmsgType buf nlh = RTM_NEWNEIGH ∨ nlmsgType buf nlh = RTM_DELNEIGH →
    NLMSG_LENGTH 12 ≤ nlmsgLen buf nlh → byteAt buf (nlh + 16) = AF_INET →
      AtLeast buf (msgTb buf NDA_TB_SIZE nlh 12) NDA_DST 4 ∧
        AtLeast buf (msgTb buf NDA_TB_SIZE nlh 12) NDA_VLAN 2
  route : nlmsgType buf nlh = RTM_NEWROUTE ∨ nlmsgType buf nlh = RTM_DELROUTE →
    NLMSG_LENGTH 12 ≤ nlmsgLen buf nlh → byteAt buf (nlh + 16) = AF_INET →
      byteAt buf (nlh + 23) = RTN_UNICAST →
        AtLeast buf (msgTb buf RTA_TB_SIZE nlh 12) RTA_DST 4 ∧
          (nlmsgType buf nlh = RTM_NEWROUTE →
            AtLeast buf (msgTb buf RTA_TB_SIZE nlh 12) RTA_GATEWAY 4 ∧
              AtLeast buf (msgTb buf RTA_TB_SIZE nlh 12) RTA_OIF 4)

variable {buf : List Byte} {nlh rta hdrLen max type size : ℕ} {r : Recv}

/-! ### The loops -/

theorem messageLoop_ends (r : Recv) : (messageLoop r).stop.isSome := by
  refine Walk.ends (fun nlh l hl hok => ?_) (by omega)
  obtain ⟨h16, hlen, hle⟩ := hok
  have hreceived := r.received
  rw [NETLINK_BUF_SIZE] at hreceived
  refine ⟨by omega, ?_⟩
  rw [NLMSG_ALIGN]
  omega

theorem rtattrLoop_ends (buf : List Byte) (rta : ℕ) (len : ℤ) :
    (rtattrLoop buf rta len).stop.isSome := by
  refine Walk.ends (fun rta l _ hok => ?_) (by omega)
  obtain ⟨h4, hlen, hle⟩ := hok
  refine ⟨by omega, ?_⟩
  rw [RTA_ALIGN]
  omega

/-- A message lies in the bytes received. -/
theorem messageLoop_inside (h : nlh ∈ (messageLoop r).recs) :
    16 ≤ nlmsgLen r.buf nlh ∧ nlh + nlmsgLen r.buf nlh ≤ r.len := by
  obtain ⟨-, -, hlen, hle⟩ := Walk.ok_of_mem h
  refine ⟨hlen, ?_⟩
  push_cast at hle
  omega

/-- An attribute lies in its message. -/
theorem rtattrLoop_inside (h : rta ∈ (rtattrLoop buf (nlh + NLMSG_LENGTH hdrLen)
    ((nlmsgLen buf nlh : ℤ) - NLMSG_LENGTH hdrLen)).recs) :
    nlh ≤ rta ∧ 4 ≤ rtaLen buf rta ∧ rta + rtaLen buf rta ≤ nlh + nlmsgLen buf nlh := by
  obtain ⟨hrta, -, h4, hle⟩ := Walk.ok_of_mem h
  push_cast at hle
  exact ⟨by omega, h4, by omega⟩

/-- An entry of `tb[]` is an attribute found. -/
theorem mem_of_parseRtattr {len : ℤ} {start : ℕ}
    (h : parseRtattr buf max start len type = some rta) :
    rta ∈ (rtattrLoop buf start len).recs := by
  rw [parseRtattr] at h
  generalize (rtattrLoop buf start len).recs = recs at h
  induction recs using List.reverseRecOn with
  | nil => cases h
  | append_singleton recs last ih =>
    rw [List.foldl_append, List.foldl_cons, List.foldl_nil] at h
    rw [List.mem_append, List.mem_singleton]
    split at h
    · by_cases htype : type = rtaType buf last
      · rw [htype, Function.update_self] at h
        exact .inr (Option.some.inj h).symm
      · rw [Function.update_of_ne htype] at h
        exact .inl (ih h)
    · exact .inl (ih h)

theorem msgTb_inside (h : msgTb buf max nlh hdrLen type = some rta) :
    nlh ≤ rta ∧ 4 ≤ rtaLen buf rta ∧ rta + rtaLen buf rta ≤ nlh + nlmsgLen buf nlh :=
  rtattrLoop_inside (mem_of_parseRtattr h)

/-! ### One read -/

theorem field_inside {off : ℕ} (h : off + size ≤ nlmsgLen buf nlh) :
    (field nlh off size).Inside buf nlh := by
  refine ⟨⟨Nat.le_add_right .., ?_⟩, fun rta hrta => by cases hrta⟩
  rw [field]
  dsimp only
  omega

theorem header_inside (hlen : 16 ≤ nlmsgLen buf nlh) (off size : ℕ) (h : off + size ≤ 16) :
    (field nlh off size).Inside buf nlh :=
  field_inside (h.trans hlen)

theorem body_inside {n : ℕ} (hlong : NLMSG_LENGTH n ≤ nlmsgLen buf nlh) (off size : ℕ)
    (h : off + size ≤ NLMSG_LENGTH n) : (field nlh off size).Inside buf nlh :=
  field_inside (h.trans hlong)

/-- The reads of `parse_rtattr` stay in the message. -/
theorem parseReads_inside (buf : List Byte) (nlh hdrLen : ℕ) :
    ∀ a ∈ parseReads buf nlh hdrLen, a.Inside buf nlh := by
  intro a ha
  rw [parseReads, List.mem_append] at ha
  rcases ha with ha | ha
  · obtain ⟨rta, hrta, ha⟩ := List.mem_flatMap.mp ha
    obtain ⟨hle, h4, hend⟩ := rtattrLoop_inside hrta
    simp only [List.mem_cons, List.not_mem_nil, or_false] at ha
    rcases ha with rfl | rfl
    · exact ⟨⟨hle, by dsimp only; omega⟩, fun _ h => by cases h⟩
    · exact ⟨⟨by dsimp only; omega, by dsimp only; omega⟩, fun _ h => by cases h⟩
  · cases hstop : (rtattrLoop buf (nlh + NLMSG_LENGTH hdrLen)
        ((nlmsgLen buf nlh : ℤ) - NLMSG_LENGTH hdrLen)).stop with
    | none =>
      rw [hstop] at ha
      cases ha
    | some p =>
      obtain ⟨rta, len⟩ := p
      rw [hstop] at ha
      dsimp only at ha
      obtain ⟨hle, hend⟩ := Walk.stop_eq hstop
      push_cast at hend
      split at ha
      · rw [List.mem_singleton.mp ha]
        exact ⟨⟨by dsimp only; omega, by dsimp only; omega⟩, fun _ h => by cases h⟩
      · cases ha

/-- A value is read inside its attribute, and so inside the message, exactly if it is
long enough. -/
theorem value_inside_iff (h : msgTb buf max nlh hdrLen type = some rta) :
    (value rta size).Inside buf nlh ↔ (size : ℤ) ≤ RTA_PAYLOAD buf rta := by
  obtain ⟨hle, h4, hend⟩ := msgTb_inside h
  rw [Access.Inside, value, RTA_PAYLOAD]
  dsimp only
  rw [RTA_DATA]
  constructor
  · rintro ⟨-, hattr⟩
    have := (hattr rta rfl).2
    omega
  · intro hsize
    refine ⟨⟨by omega, by omega⟩, fun rta' hrta' => ?_⟩
    obtain rfl := Option.some.inj hrta'
    exact ⟨le_rfl, by omega⟩

theorem valueReads_inside_iff :
    (∀ a ∈ valueReads (msgTb buf max nlh hdrLen) type size, a.Inside buf nlh) ↔
      AtLeast buf (msgTb buf max nlh hdrLen) type size := by
  rw [valueReads, AtLeast]
  cases h : msgTb buf max nlh hdrLen type with
  | none => simp
  | some rta =>
    rw [List.forall_mem_singleton, value_inside_iff h]
    simp

/-! ### The name of an interface -/

theorem zero_mem_take_iff {s : List Byte} {k : ℕ} (hk : k ≤ s.length) :
    0 ∈ s.take k ↔ (cstr s).length < k := by
  induction s generalizing k with
  | nil => simp_all
  | cons c s ih =>
    cases k with
    | zero => simp
    | succ k =>
      rw [List.take_succ_cons, List.mem_cons, cstr, List.takeWhile_cons]
      by_cases hc : c = 0
      · simp [hc]
      · have hk' : k ≤ s.length := by simpa using hk
        rw [if_pos (by simpa using hc), List.length_cons, Nat.succ_lt_succ_iff, ih hk', cstr]
        exact or_iff_right fun h => hc h.symm

/-- A value as far as it agrees with "swp" does not tell. -/
theorem not_nameEnds_of_take {s : List Byte} {k : ℕ} (h : s.take k = SWP.take k) :
    ¬ NameEnds (s.take k) := fun hn => hn.1 (h ▸ List.take_prefix k SWP)

/-- A value that differs from "swp" tells from the first difference on. -/
theorem nameEnds_of_differs {s : List Byte} {j k : ℕ} (hk : k ≤ s.length) (hj : j < 3)
    (heq : s.take j = SWP.take j) (hne : s.take (j + 1) ≠ SWP.take (j + 1)) :
    j + 1 ≤ k ↔ NameEnds (s.take k) := by
  constructor
  · intro hjk
    have htake : (s.take k).take (j + 1) = s.take (j + 1) := by
      rw [List.take_take, Nat.min_eq_left hjk]
    constructor
    · intro hp
      have hlen : (s.take k).length = k := List.length_take_of_le hk
      rw [List.prefix_iff_eq_take, hlen] at hp
      exact hne (by rw [← htake, hp, List.take_take, Nat.min_eq_left hjk])
    · intro hp
      have hswp : SWP = (s.take k).take 3 := List.prefix_iff_eq_take.mp hp
      refine absurd ?_ hne
      have hshort : ((s.take k).take 3).take (j + 1) = (s.take k).take (j + 1) := by
        rw [List.take_take, Nat.min_eq_left (by omega)]
      rw [← htake, ← hshort, ← hswp]
  · intro hn
    by_contra hjk
    refine not_nameEnds_of_take ?_ hn
    have hkj : k ≤ j := by omega
    have h := congrArg (List.take k) heq
    rwa [List.take_take, List.take_take, Nat.min_eq_left hkj] at h

/-- A value that begins with "swp" tells from its NUL on. -/
theorem nameEnds_of_swp {s : List Byte} {k : ℕ} (hk : k ≤ s.length) (h : s.take 3 = SWP) :
    3 + ((cstr (s.drop 3)).length + 1) ≤ k ↔ NameEnds (s.take k) := by
  by_cases h3 : k ≤ 3
  · have htake : s.take k = SWP.take k := by
      rw [← h, List.take_take, Nat.min_eq_left h3]
    exact iff_of_false (by omega) (not_nameEnds_of_take htake)
  · obtain ⟨k, rfl⟩ : ∃ k', k = 3 + k' := ⟨k - 3, by omega⟩
    have htake : s.take (3 + k) = SWP ++ (s.drop 3).take k := by
      rw [List.take_add, h]
    have hdrop : k ≤ (s.drop 3).length := by
      rw [List.length_drop]
      omega
    have hnot : ¬ SWP ++ (s.drop 3).take k <+: SWP := by
      intro hp
      have hle := hp.length_le
      rw [List.length_append, List.length_take_of_le hdrop] at hle
      omega
    have hmem : 0 ∈ SWP ++ (s.drop 3).take k ↔ (cstr (s.drop 3)).length < k := by
      rw [List.mem_append, zero_mem_take_iff hdrop]
      exact or_iff_right (by decide)
    rw [htake, NameEnds, hmem]
    constructor
    · intro hle
      exact ⟨hnot, fun _ => by omega⟩
    · rintro ⟨-, hlt⟩
      have := hlt (List.prefix_append ..)
      omega

/-- The name is read within a number of bytes exactly if these tell. -/
theorem ifnameReads_le_iff {s : List Byte} {k : ℕ} (hk : k ≤ s.length) :
    ifnameReads s ≤ k ↔ NameEnds (s.take k) := by
  rw [ifnameReads]
  by_cases h1 : s.take 1 ≠ SWP.take 1
  · rw [if_pos h1]
    exact nameEnds_of_differs hk (j := 0) (by omega) rfl h1
  · rw [if_neg h1]
    by_cases h2 : s.take 2 ≠ SWP.take 2
    · rw [if_pos h2]
      exact nameEnds_of_differs hk (by omega) (not_not.mp h1) h2
    · rw [if_neg h2]
      by_cases h3 : s.take 3 ≠ SWP
      · rw [if_pos h3]
        exact nameEnds_of_differs hk (by omega) (not_not.mp h2) h3
      · rw [if_neg h3]
        exact nameEnds_of_swp hk (not_not.mp h3)

/-! ### The handlers -/

theorem handleLinkReads_inside_iff (hlen : 16 ≤ nlmsgLen buf nlh)
    (hbuf : nlh + nlmsgLen buf nlh ≤ buf.length) :
    (∀ a ∈ handleLinkReads buf nlh, a.Inside buf nlh) ↔
      (nlmsgType buf nlh ≠ RTM_DELLINK → NLMSG_LENGTH 16 ≤ nlmsgLen buf nlh →
        ∀ rta ∈ msgTb buf RTA_TB_SIZE nlh 16 IFLA_IFNAME, NameEnds (rtaValue buf rta)) := by
  have hfield := header_inside hlen
  rw [handleLinkReads]
  by_cases hshort : nlmsgLen buf nlh < NLMSG_LENGTH 16
  · rw [if_pos hshort, List.forall_mem_singleton]
    exact iff_of_true (hfield 0 4 (by omega)) fun _ h => by omega
  · have hlong : NLMSG_LENGTH 16 ≤ nlmsgLen buf nlh := by omega
    have hbody := body_inside hlong
    rw [if_neg hshort, List.forall_mem_append, List.forall_mem_append, List.forall_mem_append,
      List.forall_mem_singleton, List.forall_mem_singleton,
      and_iff_right ⟨⟨hfield 0 4 (by omega), parseReads_inside buf nlh _⟩, hfield 4 2 (by omega)⟩]
    by_cases hdel : nlmsgType buf nlh = RTM_DELLINK
    · rw [if_pos hdel, List.forall_mem_singleton]
      exact iff_of_true (hbody 20 4 (by decide)) fun h => absurd hdel h
    · rw [if_neg hdel]
      cases hname : msgTb buf RTA_TB_SIZE nlh 16 IFLA_IFNAME with
      | none => simp
      | some rta =>
        obtain ⟨hle, h4, hend⟩ := msgTb_inside hname
        have hdrop : rtaLen buf rta - 4 ≤ (buf.drop (RTA_DATA rta)).length := by
          rw [List.length_drop, RTA_DATA]
          omega
        have hrest : ∀ a ∈ (if (ifnameToPort (cstr (buf.drop (RTA_DATA rta)))).isSome then
            [field nlh 20 4, field nlh 24 4] else []), a.Inside buf nlh := by
          split
          · simp only [List.forall_mem_cons]
            exact ⟨hbody 20 4 (by decide), hbody 24 4 (by decide), List.forall_mem_nil _⟩
          · exact List.forall_mem_nil _
        dsimp only
        rw [List.forall_mem_cons, and_iff_left hrest, value_inside_iff hname]
        have hiff := ifnameReads_le_iff hdrop
        have hpay : ((ifnameReads (buf.drop (RTA_DATA rta)) : ℕ) : ℤ) ≤ RTA_PAYLOAD buf rta ↔
            ifnameReads (buf.drop (RTA_DATA rta)) ≤ rtaLen buf rta - 4 := by
          rw [RTA_PAYLOAD]
          omega
        rw [hpay, hiff]
        constructor
        · intro h _ _ rta' hrta'
          obtain rfl := Option.some.inj hrta'
          exact h
        · intro h
          exact h hdel hlong rta rfl

theorem handleAddrReads_inside (s : NetState) (hlen : 16 ≤ nlmsgLen buf nlh) :
    ∀ a ∈ handleAddrReads buf s nlh, a.Inside buf nlh := by
  have hfield := header_inside hlen
  rw [handleAddrReads]
  by_cases hshort : nlmsgLen buf nlh < NLMSG_LENGTH 8
  · rw [if_pos hshort, List.forall_mem_singleton]
    exact hfield 0 4 (by omega)
  · have hlong : NLMSG_LENGTH 8 ≤ nlmsgLen buf nlh := by omega
    have hindex := body_inside hlong 20 4 (by decide)
    rw [if_neg hshort, List.forall_mem_append, List.forall_mem_append, List.forall_mem_singleton]
    refine ⟨⟨hfield 0 4 (by omega), parseReads_inside buf nlh _⟩, ?_⟩
    split
    · exact List.forall_mem_nil _
    · dsimp only
      split
      · exact List.forall_mem_singleton.mpr hindex
      · simp only [List.forall_mem_cons]
        exact ⟨hindex, hfield 4 2 (by omega), List.forall_mem_nil _⟩

theorem payloadReads_inside (buf : List Byte) (max nlh hdrLen type : ℕ) :
    ∀ a ∈ payloadReads (msgTb buf max nlh hdrLen) type, a.Inside buf nlh := by
  rw [payloadReads]
  cases h : msgTb buf max nlh hdrLen type with
  | none => exact List.forall_mem_nil _
  | some rta =>
    obtain ⟨hle, h4, hend⟩ := msgTb_inside h
    refine List.forall_mem_singleton.mpr ⟨⟨hle, ?_⟩, fun _ h => by cases h⟩
    dsimp only
    omega

/-- NDA_LLADDR is measured, so the read of the address stays in it. -/
theorem lladdrReads_inside (s : NetState) (hlen : 16 ≤ nlmsgLen buf nlh) (max hdrLen : ℕ) :
    ∀ a ∈ lladdrReads buf s nlh (msgTb buf max nlh hdrLen), a.Inside buf nlh := by
  rw [lladdrReads]
  split
  · exact List.forall_mem_nil _
  · refine List.forall_mem_cons.mpr ⟨field_inside (by omega), ?_⟩
    cases h : (msgTb buf max nlh hdrLen NDA_LLADDR).filter fun rta => 6 ≤ RTA_PAYLOAD buf rta with
    | none => exact List.forall_mem_nil _
    | some rta =>
      obtain ⟨hmem, hsix⟩ := Option.filter_eq_some_iff.mp h
      exact List.forall_mem_singleton.mpr ((value_inside_iff hmem).mpr (of_decide_eq_true hsix))

theorem handleNeighReads_inside_iff (s : NetState) (hlen : 16 ≤ nlmsgLen buf nlh) :
    (∀ a ∈ handleNeighReads buf s nlh, a.Inside buf nlh) ↔
      (NLMSG_LENGTH 12 ≤ nlmsgLen buf nlh → byteAt buf (nlh + 16) = AF_INET →
        AtLeast buf (msgTb buf NDA_TB_SIZE nlh 12) NDA_DST 4 ∧
          AtLeast buf (msgTb buf NDA_TB_SIZE nlh 12) NDA_VLAN 2) := by
  rw [handleNeighReads]
  by_cases hshort : nlmsgLen buf nlh < NLMSG_LENGTH 12
  · rw [if_pos hshort, List.forall_mem_singleton]
    exact iff_of_true (field_inside (by omega)) fun h => by omega
  · have hlong : NLMSG_LENGTH 12 ≤ nlmsgLen buf nlh := by omega
    have hhead : ∀ a ∈ [field nlh 0 4, field nlh 16 1], a.Inside buf nlh := by
      simp only [List.forall_mem_cons]
      exact ⟨header_inside hlen 0 4 (by omega), body_inside hlong 16 1 (by decide),
        List.forall_mem_nil _⟩
    rw [if_neg hshort]
    by_cases hfam : byteAt buf (nlh + 16) ≠ AF_INET
    · rw [if_pos hfam]
      exact iff_of_true hhead fun _ h => absurd h hfam
    · rw [if_neg hfam]
      simp only [List.forall_mem_append, List.forall_mem_singleton, valueReads_inside_iff]
      constructor
      · rintro ⟨⟨⟨⟨-, hdst⟩, hvlan⟩, -⟩, -⟩ _ _
        exact ⟨hdst, hvlan⟩
      · intro h
        obtain ⟨hdst, hvlan⟩ := h hlong (not_not.mp hfam)
        exact ⟨⟨⟨⟨⟨⟨hhead, parseReads_inside buf nlh 12⟩, payloadReads_inside buf _ nlh 12 _⟩,
          hdst⟩, hvlan⟩, body_inside hlong _ _ (by decide)⟩,
          lladdrReads_inside s hlen _ _⟩

theorem handleRouteReads_inside_iff (hlen : 16 ≤ nlmsgLen buf nlh) :
    (∀ a ∈ handleRouteReads buf nlh, a.Inside buf nlh) ↔
      (NLMSG_LENGTH 12 ≤ nlmsgLen buf nlh → byteAt buf (nlh + 16) = AF_INET →
        byteAt buf (nlh + 23) = RTN_UNICAST →
          AtLeast buf (msgTb buf RTA_TB_SIZE nlh 12) RTA_DST 4 ∧
            (nlmsgType buf nlh ≠ RTM_DELROUTE →
              AtLeast buf (msgTb buf RTA_TB_SIZE nlh 12) RTA_GATEWAY 4 ∧
                AtLeast buf (msgTb buf RTA_TB_SIZE nlh 12) RTA_OIF 4)) := by
  rw [handleRouteReads]
  by_cases hshort : nlmsgLen buf nlh < NLMSG_LENGTH 12
  · rw [if_pos hshort, List.forall_mem_singleton]
    exact iff_of_true (field_inside (by omega)) fun h => by omega
  · have hlong : NLMSG_LENGTH 12 ≤ nlmsgLen buf nlh := by omega
    have hbody := body_inside hlong
    have hfamily : ∀ a ∈ [field nlh 0 4, field nlh 16 1], a.Inside buf nlh := by
      simp only [List.forall_mem_cons]
      exact ⟨hbody 0 4 (by decide), hbody 16 1 (by decide), List.forall_mem_nil _⟩
    have htype : ∀ a ∈ [field nlh 0 4, field nlh 16 1, field nlh 23 1], a.Inside buf nlh := by
      simp only [List.forall_mem_cons]
      exact ⟨hbody 0 4 (by decide), hbody 16 1 (by decide), hbody 23 1 (by decide),
        List.forall_mem_nil _⟩
    have hdstLen : ∀ a ∈ [field nlh 17 1, field nlh 4 2], a.Inside buf nlh := by
      simp only [List.forall_mem_cons]
      exact ⟨hbody 17 1 (by decide), hbody 4 2 (by decide), List.forall_mem_nil _⟩
    rw [if_neg hshort]
    by_cases hfam : byteAt buf (nlh + 16) ≠ AF_INET
    · rw [if_pos hfam]
      exact iff_of_true hfamily fun _ h => absurd h hfam
    · rw [if_neg hfam]
      by_cases huni : byteAt buf (nlh + 23) ≠ RTN_UNICAST
      · rw [if_pos huni]
        exact iff_of_true htype fun _ _ h => absurd h huni
      · have hnexthop : (∀ a ∈ (if nlmsgType buf nlh = RTM_DELROUTE then []
            else valueReads (msgTb buf RTA_TB_SIZE nlh 12) RTA_GATEWAY 4 ++
              valueReads (msgTb buf RTA_TB_SIZE nlh 12) RTA_OIF 4), a.Inside buf nlh) ↔
            (nlmsgType buf nlh ≠ RTM_DELROUTE →
              AtLeast buf (msgTb buf RTA_TB_SIZE nlh 12) RTA_GATEWAY 4 ∧
                AtLeast buf (msgTb buf RTA_TB_SIZE nlh 12) RTA_OIF 4) := by
          by_cases hdel : nlmsgType buf nlh = RTM_DELROUTE
          · rw [if_pos hdel]
            exact iff_of_true (List.forall_mem_nil _) fun h => absurd hdel h
          · rw [if_neg hdel, List.forall_mem_append, valueReads_inside_iff, valueReads_inside_iff]
            exact ⟨fun h _ => h, fun h => h hdel⟩
        rw [if_neg huni]
        simp only [List.forall_mem_append, valueReads_inside_iff, hnexthop]
        constructor
        · rintro ⟨⟨⟨-, hdst⟩, -⟩, hnext⟩ _ _ _
          exact ⟨hdst, hnext⟩
        · intro h
          obtain ⟨hdst, hnext⟩ := h hlong (not_not.mp hfam) (not_not.mp huni)
          exact ⟨⟨⟨⟨htype, parseReads_inside buf nlh 12⟩, hdst⟩, hdstLen⟩, hnext⟩

/-! ### The messages of a buffer -/

/-- The reads for one message stay inside exactly if its attributes are long enough,
whatever state the thread is in. -/
theorem dispatchReads_inside_iff (s : NetState) (hlen : 16 ≤ nlmsgLen buf nlh)
    (hbuf : nlh + nlmsgLen buf nlh ≤ buf.length) :
    (∀ a ∈ dispatchReads buf s nlh, a.Inside buf nlh) ↔ LongEnough buf nlh := by
  have hconsts : RTM_NEWLINK = 16 ∧ RTM_DELLINK = 17 ∧ RTM_NEWADDR = 20 ∧ RTM_DELADDR = 21 ∧
      RTM_NEWROUTE = 24 ∧ RTM_DELROUTE = 25 ∧ RTM_NEWNEIGH = 28 ∧ RTM_DELNEIGH = 29 ∧
      NLMSG_ERROR = 2 ∧ NLMSG_DONE = 3 := ⟨rfl, rfl, rfl, rfl, rfl, rfl, rfl, rfl, rfl, rfl⟩
  rw [dispatchReads]
  by_cases hdone : nlmsgType buf nlh = NLMSG_DONE ∨ nlmsgType buf nlh = NLMSG_ERROR
  · rw [if_pos hdone]
    refine iff_of_true (List.forall_mem_nil _) ⟨fun h => ?_, fun h => ?_, fun h => ?_⟩ <;> omega
  rw [if_neg hdone]
  by_cases hlink : nlmsgType buf nlh = RTM_NEWLINK ∨ nlmsgType buf nlh = RTM_DELLINK
  · rw [if_pos hlink, handleLinkReads_inside_iff hlen hbuf]
    constructor
    · intro h
      exact ⟨fun hnew => h (by omega), fun _ => by omega, fun _ => by omega⟩
    · intro h hdel
      exact h.link (by omega)
  rw [if_neg hlink]
  by_cases haddr : nlmsgType buf nlh = RTM_NEWADDR ∨ nlmsgType buf nlh = RTM_DELADDR
  · rw [if_pos haddr]
    refine iff_of_true (handleAddrReads_inside s hlen) ⟨fun h => ?_, fun h => ?_, fun h => ?_⟩ <;>
      omega
  rw [if_neg haddr]
  by_cases hroute : nlmsgType buf nlh = RTM_NEWROUTE ∨ nlmsgType buf nlh = RTM_DELROUTE
  · rw [if_pos hroute, handleRouteReads_inside_iff hlen]
    constructor
    · intro h
      refine ⟨fun _ => by omega, fun _ => by omega, fun _ h12 hfam huni => ?_⟩
      obtain ⟨hdst, hnext⟩ := h h12 hfam huni
      exact ⟨hdst, fun hnew => hnext (by omega)⟩
    · intro h h12 hfam huni
      obtain ⟨hdst, hnext⟩ := h.route hroute h12 hfam huni
      exact ⟨hdst, fun hdel => hnext (by omega)⟩
  rw [if_neg hroute]
  by_cases hneigh : nlmsgType buf nlh = RTM_NEWNEIGH ∨ nlmsgType buf nlh = RTM_DELNEIGH
  · rw [if_pos hneigh, handleNeighReads_inside_iff s hlen]
    constructor
    · intro h
      exact ⟨fun _ => by omega, fun _ => h, fun _ => by omega⟩
    · intro h
      exact h.neigh hneigh
  rw [if_neg hneigh]
  refine iff_of_true (List.forall_mem_nil _) ⟨fun h => ?_, fun h => ?_, fun h => ?_⟩ <;> omega

theorem messagesFound_snd (buf : List Byte) (s : NetState) (recs : List ℕ) :
    (messagesFound buf s recs).map Prod.snd = recs := by
  induction recs generalizing s with
  | nil => rfl
  | cons nlh recs ih => rw [messagesFound, List.map_cons, ih]

/-- Both loops end, and every read stays inside if and only if the attributes of every
message are as long as their handler takes for granted. -/
theorem netlink_inside_iff (s : NetState) (r : Recv) :
    LoopsEnd r ∧ (ReadsInside s r ↔ ∀ nlh ∈ (messageLoop r).recs, LongEnough r.buf nlh) := by
  have hone : ∀ nlh ∈ (messageLoop r).recs, ∀ s,
      ((∀ a ∈ dispatchReads r.buf s nlh, a.Inside r.buf nlh) ↔ LongEnough r.buf nlh) := by
    intro nlh hmem s
    obtain ⟨hlen, hend⟩ := messageLoop_inside hmem
    have hsize := r.size
    have hreceived := r.received
    exact dispatchReads_inside_iff s hlen (by omega)
  have hfound := messagesFound_snd r.buf s (messageLoop r).recs
  refine ⟨⟨messageLoop_ends r, rtattrLoop_ends r.buf⟩, fun h nlh hmem => ?_, fun h p hp => ?_⟩
  · rw [← hfound] at hmem
    obtain ⟨p, hp, rfl⟩ := List.mem_map.mp hmem
    exact (hone p.2 (hfound ▸ hmem) p.1).mp (h p hp)
  · have hmem : p.2 ∈ (messageLoop r).recs := hfound ▸ List.mem_map_of_mem hp
    exact (hone p.2 hmem p.1).mpr (h p.2 hmem)

/-- An RTM_NEWNEIGH of 32 bytes, whose only attribute is an NDA_DST without a value. -/
def emptyNeighDst : Recv where
  buf := [0, 0, 0, 32, 0, 28, 0, 0, 0, 0, 0, 0, 0, 0, 0, 0, 2, 0, 0, 0, 0, 0, 0, 3, 0, 0, 0, 0,
    0, 4, 0, 1] ++ List.replicate 65504 0
  len := 32
  size := by rw [List.length_append, List.length_replicate]; rfl
  received := by decide

/-- The address is read behind the end of the message. -/
theorem not_netlink_inside_short :
    ¬ ReadsInside (NetState.init (Sdk.SdkState.init Sdk.Asic.blank)) emptyNeighDst := by
  set s := NetState.init (Sdk.SdkState.init Sdk.Asic.blank)
  intro h
  have hrecs : (messageLoop emptyNeighDst).recs = [0] := rfl
  have hfirst : (s, 0) ∈ messagesFound emptyNeighDst.buf s (messageLoop emptyNeighDst).recs := by
    rw [hrecs, messagesFound]
    exact List.mem_cons_self ..
  have hreads : ∀ a ∈ dispatchReads emptyNeighDst.buf s 0, a.Inside emptyNeighDst.buf 0 :=
    h (s, 0) hfirst
  have hbuf : 0 + nlmsgLen emptyNeighDst.buf 0 ≤ emptyNeighDst.buf.length := by
    rw [emptyNeighDst.size]
    decide
  have hlong : LongEnough emptyNeighDst.buf 0 :=
    (dispatchReads_inside_iff s (by decide) hbuf).mp hreads
  have hdst : msgTb emptyNeighDst.buf NDA_TB_SIZE 0 12 NDA_DST = some 28 := rfl
  have hfour : ((4 : ℕ) : ℤ) ≤ RTA_PAYLOAD emptyNeighDst.buf 28 :=
    (hlong.neigh (.inl rfl) (by decide) rfl).1 28 hdst
  exact absurd hfour (by decide)

end OpenNos.Switchd
