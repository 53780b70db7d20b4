import OpenNos.Lib.KeyedList
import OpenNos.Switchd.Dispatch

/-! The neighbour cache as a map from address and interface to MAC, and what a
neighbour message does to it. -/

namespace OpenNos.Switchd

open Sdk

def NeighEntry.key (e : NeighEntry) : BitVec 32 × BitVec 32 := (e.ip, e.ifindex)

/-- No address and interface twice. -/
def Keyed (cache : List NeighEntry) : Prop := (cache.map NeighEntry.key).Nodup

/-- The key is known or there is room for it. -/
def Takes (cache : List NeighEntry) (ip ifindex : BitVec 32) : Prop :=
  neighCacheGet cache ip ifindex ≠ none ∨ cache.length < NEIGH_CACHE_SIZE

instance (cache : List NeighEntry) (ip ifindex : BitVec 32) :
    Decidable (Takes cache ip ifindex) := by
  unfold Takes
  infer_instance

variable {cache : List NeighEntry} {ip ifindex ip' ifindex' : BitVec 32} {mac : Mac}

theorem isFor_eq (ip ifindex : BitVec 32) : (fun e : NeighEntry => e.isFor ip ifindex) =
    fun e => decide (e.key = (ip, ifindex)) := by
  funext e
  simp only [NeighEntry.isFor, NeighEntry.key, Prod.mk.injEq, Bool.decide_and]
  rfl

theorem key_mk (ip ifindex : BitVec 32) (mac : Mac) :
    NeighEntry.key { ip := ip, ifindex := ifindex, mac := mac } = (ip, ifindex) := rfl

theorem neighCacheGet_eq (cache : List NeighEntry) (ip ifindex : BitVec 32) :
    neighCacheGet cache ip ifindex =
      (KeyedList.get NeighEntry.key cache (ip, ifindex)).map (·.mac) := by
  rw [neighCacheGet, isFor_eq, KeyedList.get]

theorem neighCacheGet_eq_none_iff : neighCacheGet cache ip ifindex = none ↔
    KeyedList.get NeighEntry.key cache (ip, ifindex) = none := by
  rw [neighCacheGet_eq, Option.map_eq_none_iff]

theorem any_isFor_iff : cache.any (·.isFor ip ifindex) = true ↔
    KeyedList.get NeighEntry.key cache (ip, ifindex) ≠ none := by
  rw [isFor_eq, KeyedList.get, ne_eq, List.find?_eq_none, List.any_eq_true]
  simp only [not_forall, not_not, exists_prop]

theorem neighCacheSet_of_known (h : neighCacheGet cache ip ifindex ≠ none) :
    neighCacheSet cache ip ifindex mac =
      KeyedList.replace NeighEntry.key cache { ip := ip, ifindex := ifindex, mac := mac } := by
  rw [neighCacheSet, if_pos (any_isFor_iff.mpr fun hn => h (neighCacheGet_eq_none_iff.mpr hn)),
    isFor_eq]
  rfl

theorem neighCacheSet_of_new (h : neighCacheGet cache ip ifindex = none)
    (hroom : cache.length < NEIGH_CACHE_SIZE) : neighCacheSet cache ip ifindex mac =
      cache ++ [{ ip := ip, ifindex := ifindex, mac := mac }] := by
  rw [neighCacheSet, if_neg fun ha => any_isFor_iff.mp ha (neighCacheGet_eq_none_iff.mp h),
    if_neg (by omega)]

theorem neighCacheSet_of_full (h : ¬ Takes cache ip ifindex) :
    neighCacheSet cache ip ifindex mac = cache := by
  rw [Takes, not_or, not_not] at h
  rw [neighCacheSet, if_neg fun ha => any_isFor_iff.mp ha (neighCacheGet_eq_none_iff.mp h.1),
    if_pos (by omega)]

theorem neighCacheGet_set_self (h : Takes cache ip ifindex) :
    neighCacheGet (neighCacheSet cache ip ifindex mac) ip ifindex = some mac := by
  by_cases hk : neighCacheGet cache ip ifindex = none
  · rw [neighCacheSet_of_new hk (h.resolve_left fun hn => hn hk), neighCacheGet_eq,
      KeyedList.get_append_self (key_mk ip ifindex mac) (neighCacheGet_eq_none_iff.mp hk),
      Option.map_some]
  · rw [neighCacheSet_of_known hk, neighCacheGet_eq,
      KeyedList.get_replace_self (key_mk ip ifindex mac) (mt neighCacheGet_eq_none_iff.mpr hk),
      Option.map_some]

theorem neighCacheGet_set_of_ne (h : ¬ (ip' = ip ∧ ifindex' = ifindex)) :
    neighCacheGet (neighCacheSet cache ip ifindex mac) ip' ifindex' =
      neighCacheGet cache ip' ifindex' := by
  have hne : NeighEntry.key { ip := ip, ifindex := ifindex, mac := mac } ≠ (ip', ifindex') := by
    rintro ⟨⟩
    exact h ⟨rfl, rfl⟩
  by_cases ht : Takes cache ip ifindex
  · by_cases hk : neighCacheGet cache ip ifindex = none
    · rw [neighCacheSet_of_new hk (ht.resolve_left fun hn => hn hk), neighCacheGet_eq,
        KeyedList.get_append_of_ne hne, neighCacheGet_eq]
    · rw [neighCacheSet_of_known hk, neighCacheGet_eq, KeyedList.get_replace_of_ne hne,
        neighCacheGet_eq]
  · rw [neighCacheSet_of_full ht]

theorem Keyed.set (h : Keyed cache) (ip ifindex : BitVec 32) (mac : Mac) :
    Keyed (neighCacheSet cache ip ifindex mac) := by
  by_cases ht : Takes cache ip ifindex
  · by_cases hk : neighCacheGet cache ip ifindex = none
    · rw [neighCacheSet_of_new hk (ht.resolve_left fun hn => hn hk)]
      exact KeyedList.nodup_append h (neighCacheGet_eq_none_iff.mp hk)
    · rw [neighCacheSet_of_known hk, Keyed, KeyedList.keys_replace]
      exact h
  · rwa [neighCacheSet_of_full ht]

theorem neighCacheRemove_eq : neighCacheRemove cache ip ifindex =
    KeyedList.remove NeighEntry.key cache (ip, ifindex) := by
  rw [neighCacheRemove, isFor_eq, KeyedList.remove]

theorem neighCacheGet_remove_self (h : Keyed cache) :
    neighCacheGet (neighCacheRemove cache ip ifindex) ip ifindex = none := by
  rw [neighCacheGet_eq_none_iff, neighCacheRemove_eq, KeyedList.get_remove_self h]

theorem neighCacheGet_remove_of_ne (h : ¬ (ip' = ip ∧ ifindex' = ifindex)) :
    neighCacheGet (neighCacheRemove cache ip ifindex) ip' ifindex' =
      neighCacheGet cache ip' ifindex' := by
  have hne : (ip', ifindex') ≠ (ip, ifindex) := fun he => h (Prod.mk.inj he)
  rw [neighCacheGet_eq, neighCacheRemove_eq, KeyedList.get_remove_of_ne hne, neighCacheGet_eq]

theorem Keyed.remove (h : Keyed cache) (ip ifindex : BitVec 32) :
    Keyed (neighCacheRemove cache ip ifindex) := by
  rw [neighCacheRemove_eq]
  exact KeyedList.nodup_remove h

/-! ### Neighbour messages -/

/-- The port of an IPv4 neighbour message past its checks. -/
def neighPort (s : NetState) (m : Nlmsg Ndmsg) : Option ℤ :=
  if NLMSG_LENGTH 12 ≤ m.nlmsgLen ∧ m.hdr.ndmFamily = AF_INET ∧
      m.hdr.ndmIfindex.toNat < MAX_IFINDEX ∧ 0 < s.ifindexToPort m.hdr.ndmIfindex.toNat then
    some (s.ifindexToPort m.hdr.ndmIfindex.toNat)
  else none

/-- The entry a removed neighbour leads the handler to delete. -/
def deletedMac (s : NetState) (m : Nlmsg Ndmsg) : Option Mac :=
  match neighLladdr m with
  | some mac => some mac
  | none =>
    if m.u32 NDA_DST = 0 then none
    else neighCacheGet s.neighCache (m.u32 NDA_DST) m.hdr.ndmIfindex

variable {s : NetState} {m : Nlmsg Ndmsg}

theorem handleNeigh_of_none {del : Bool} (h : neighPort s m = none) :
    handleNeigh s del m = (s, []) := by
  unfold handleNeigh
  by_cases hl : m.nlmsgLen < NLMSG_LENGTH 12
  · exact if_pos hl
  rw [if_neg hl]
  by_cases hfam : m.hdr.ndmFamily ≠ AF_INET
  · exact if_pos hfam
  rw [if_neg hfam]
  by_cases hi : MAX_IFINDEX ≤ m.hdr.ndmIfindex.toNat
  · exact if_pos hi
  simp only [if_neg hi]
  by_cases hp : s.ifindexToPort m.hdr.ndmIfindex.toNat ≤ 0
  · exact if_pos hp
  · rw [neighPort, if_pos ⟨by omega, not_not.mp hfam, by omega, by omega⟩] at h
    cases h

/-- The handler past its checks. -/
theorem handleNeigh_of_some {del : Bool} {port : ℤ} (h : neighPort s m = some port) :
    handleNeigh s del m =
      if ¬ del then
        match neighLladdr m with
        | none => (s, [])
        | some mac =>
          ({ s with neighCache := neighCacheSet s.neighCache (m.u32 NDA_DST) m.hdr.ndmIfindex mac },
            [.l2AddrAdd { mac := mac, vid := neighVid m, port := port, staticEntry := 1 }])
      else
        ({ s with neighCache := neighCacheRemove s.neighCache (m.u32 NDA_DST) m.hdr.ndmIfindex },
          (deletedMac s m).toList.map fun mac => .l2AddrDelete mac (neighVid m)) := by
  unfold neighPort at h
  split_ifs at h with hc
  obtain ⟨hl, hfam, hi, hp⟩ := hc
  cases h
  rw [handleNeigh, if_neg (by omega), if_neg (by simpa using hfam), if_neg (by omega)]
  simp only [if_neg (show ¬ s.ifindexToPort m.hdr.ndmIfindex.toNat ≤ 0 by omega)]
  cases del with
  | false => rfl
  | true =>
    simp only [not_true_eq_false, if_false, deletedMac]
    cases neighLladdr m with
    | some mac => rfl
    | none =>
      by_cases hz : m.u32 NDA_DST = 0
      · simp only [if_pos hz]
        rfl
      · simp only [if_neg hz]
        cases neighCacheGet s.neighCache (m.u32 NDA_DST) m.hdr.ndmIfindex with
        | none => rfl
        | some mac => rfl

theorem handleNeigh_new {mac : Mac} {port : ℤ} (h : neighPort s m = some port)
    (hmac : neighLladdr m = some mac) : handleNeigh s false m =
      ({ s with neighCache := neighCacheSet s.neighCache (m.u32 NDA_DST) m.hdr.ndmIfindex mac },
        [.l2AddrAdd { mac := mac, vid := neighVid m, port := port, staticEntry := 1 }]) := by
  rw [handleNeigh_of_some h, if_pos (by decide), hmac]

theorem handleNeigh_new_of_none {port : ℤ} (h : neighPort s m = some port)
    (hmac : neighLladdr m = none) : handleNeigh s false m = (s, []) := by
  rw [handleNeigh_of_some h, if_pos (by decide), hmac]

theorem handleNeigh_del {port : ℤ} (h : neighPort s m = some port) : handleNeigh s true m =
    ({ s with neighCache := neighCacheRemove s.neighCache (m.u32 NDA_DST) m.hdr.ndmIfindex },
      (deletedMac s m).toList.map fun mac => .l2AddrDelete mac (neighVid m)) := by
  rw [handleNeigh_of_some h, if_neg (by decide)]

end OpenNos.Switchd
