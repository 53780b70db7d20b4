import Mathlib.Data.Set.Card
import OpenNos.Lib.FirstFit
import OpenNos.Lib.History
import OpenNos.Switchd.NeighCache

/-! The array of `netlink.c` that holds the neighbour cache. A removal moves the
entries behind it down by one place, an update is made in place, and an entry that
finds no room is dropped. The first `neigh_cache_count` entries, read as a list,
behave as the list the handlers are modelled with; and as long as no more than 256
keys are live, as a map from keys to addresses. -/

namespace OpenNos.Switchd

open FirstFit History Sdk

/-- `neigh_cache` and `neigh_cache_count`. -/
structure NeighTable where
  entries : ℕ → NeighEntry
  count : ℕ

/-- `memmove` of `n` entries. -/
def moveEntries (e : ℕ → NeighEntry) (dst src n : ℕ) : ℕ → NeighEntry := fun j =>
  if dst ≤ j ∧ j < dst + n then e (src + (j - dst)) else e j

namespace NeighTable

/-- The loop all three functions begin with. -/
def find (t : NeighTable) (ip ifindex : BitVec 32) : Option ℕ :=
  findFirst (fun i => (t.entries i).isFor ip ifindex) 0 t.count

/-- `neigh_cache_set` -/
def set (t : NeighTable) (ip ifindex : BitVec 32) (mac : Mac) : NeighTable :=
  match t.find ip ifindex with
  | some i => { t with entries := Function.update t.entries i { t.entries i with mac := mac } }
  | none =>
    if NEIGH_CACHE_SIZE ≤ t.count then t
    else
      { entries :=
          Function.update t.entries t.count { ip := ip, ifindex := ifindex, mac := mac }
        count := t.count + 1 }

/-- `neigh_cache_get` -/
def get (t : NeighTable) (ip ifindex : BitVec 32) : Option Mac :=
  (t.find ip ifindex).map fun i => (t.entries i).mac

/-- `neigh_cache_remove` -/
def remove (t : NeighTable) (ip ifindex : BitVec 32) : NeighTable :=
  match t.find ip ifindex with
  | some i =>
    { entries := moveEntries t.entries i (i + 1) (t.count - 1 - i)
      count := t.count - 1 }
  | none => t

/-- The entries in use. -/
def list (t : NeighTable) : List NeighEntry := (List.range t.count).map t.entries

/-- Before the first message. -/
def empty (entries : ℕ → NeighEntry) : NeighTable := { entries := entries, count := 0 }

end NeighTable

/-- A call of one of the three functions. -/
inductive NeighOp
  | set (ip ifindex : BitVec 32) (mac : Mac)
  | get (ip ifindex : BitVec 32)
  | remove (ip ifindex : BitVec 32)

def NeighTable.step (t : NeighTable) : NeighOp → NeighTable
  | .set ip ifindex mac => t.set ip ifindex mac
  | .get _ _ => t
  | .remove ip ifindex => t.remove ip ifindex

/-- What the cache is for: the address a key was last given, if it was not taken
away since. -/
abbrev NeighMap := BitVec 32 × BitVec 32 → Option Mac

def NeighMap.step (m : NeighMap) : NeighOp → NeighMap
  | .set ip ifindex mac => Function.update m (ip, ifindex) (some mac)
  | .get _ _ => m
  | .remove ip ifindex => Function.update m (ip, ifindex) none

def NeighMap.after (ops : List NeighOp) : NeighMap := run NeighMap.step (fun _ => none) ops

/-- The keys that have an address. -/
def NeighMap.live (m : NeighMap) : Set (BitVec 32 × BitVec 32) := {k | m k ≠ none}

/-- The state of the cache after some calls. -/
structure NeighTable.Refines (t : NeighTable) (ops : List NeighOp) : Prop where
  distinct : Keyed t.list
  count_le : t.count ≤ NEIGH_CACHE_SIZE
  map : (∀ pre, pre <+: ops → (NeighMap.after pre).live.encard ≤ NEIGH_CACHE_SIZE) →
    ∀ ip ifindex, t.get ip ifindex = NeighMap.after ops (ip, ifindex)
  set_other : ∀ ip ifindex mac ip' ifindex', (ip', ifindex') ≠ (ip, ifindex) →
    (t.set ip ifindex mac).get ip' ifindex' = t.get ip' ifindex'
  remove_other : ∀ ip ifindex ip' ifindex', (ip', ifindex') ≠ (ip, ifindex) →
    (t.remove ip ifindex).get ip' ifindex' = t.get ip' ifindex'
  full : t.count = NEIGH_CACHE_SIZE → ∀ ip ifindex mac, t.get ip ifindex = none →
    t.set ip ifindex mac = t
  update : ∀ ip ifindex mac, t.get ip ifindex ≠ none →
    (t.set ip ifindex mac).get ip ifindex = some mac

variable {t : NeighTable} {ip ifindex : BitVec 32} {mac : Mac}

/-! ### The array as a list -/

theorem length_list (t : NeighTable) : t.list.length = t.count := by
  rw [NeighTable.list, List.length_map, List.length_range]

theorem getElem?_list (t : NeighTable) (j : ℕ) :
    t.list[j]? = if j < t.count then some (t.entries j) else none := by
  rw [NeighTable.list, List.getElem?_map]
  by_cases hj : j < t.count
  · rw [if_pos hj, List.getElem?_range hj, Option.map_some]
  · rw [if_neg hj, List.getElem?_eq_none (by rw [List.length_range]; omega), Option.map_none]

theorem find?_list (t : NeighTable) (ip ifindex : BitVec 32) :
    t.list.find? (·.isFor ip ifindex) = (t.find ip ifindex).map t.entries := by
  rw [NeighTable.list, List.find?_map, NeighTable.find, findFirst, Nat.sub_zero,
    ← List.range_eq_range']
  rfl

/-- The array answers as the list. -/
theorem get_list (t : NeighTable) (ip ifindex : BitVec 32) :
    neighCacheGet t.list ip ifindex = t.get ip ifindex := by
  rw [neighCacheGet, find?_list, NeighTable.get, Option.map_map]
  rfl

theorem getElem_list (t : NeighTable) (j : ℕ) (hj : j < t.list.length) :
    t.list[j] = t.entries j := by
  simp only [NeighTable.list, List.getElem_map, List.getElem_range]

theorem find_eq_some_iff {i : ℕ} : t.find ip ifindex = some i ↔ i < t.count ∧
    (t.entries i).isFor ip ifindex = true ∧ ∀ j < i, (t.entries j).isFor ip ifindex = false := by
  rw [NeighTable.find, findFirst_eq_some_iff]
  constructor
  · rintro ⟨⟨-, hi⟩, hfor, hlow⟩
    exact ⟨hi, hfor, fun j hj => hlow j (Nat.zero_le j) hj⟩
  · rintro ⟨hi, hfor, hlow⟩
    exact ⟨⟨Nat.zero_le i, hi⟩, hfor, fun j _ hj => hlow j hj⟩

theorem findIdx?_list (t : NeighTable) (ip ifindex : BitVec 32) :
    t.list.findIdx? (·.isFor ip ifindex) = t.find ip ifindex := by
  ext i
  rw [List.findIdx?_eq_some_iff_getElem, find_eq_some_iff]
  simp only [getElem_list, length_list, Bool.not_eq_true, exists_prop]

theorem get_eq_none_iff : t.get ip ifindex = none ↔ t.find ip ifindex = none := by
  rw [NeighTable.get, Option.map_eq_none_iff]

/-- The array is updated as the list is. -/
theorem list_set (t : NeighTable) (ip ifindex : BitVec 32) (mac : Mac) :
    (t.set ip ifindex mac).list = neighCacheSet t.list ip ifindex mac := by
  apply List.ext_getElem?
  intro j
  rw [NeighTable.set, neighCacheSet, length_list]
  cases hf : t.find ip ifindex with
  | none =>
    have hany : ¬ t.list.any (·.isFor ip ifindex) = true := by
      rw [any_isFor_iff, not_not, ← neighCacheGet_eq_none_iff, get_list, get_eq_none_iff, hf]
    rw [if_neg hany]
    split_ifs with hfull
    · rfl
    · rw [getElem?_list, List.getElem?_append, length_list, getElem?_list]
      dsimp only
      rcases Nat.lt_trichotomy j t.count with hlt | rfl | hgt
      · rw [if_pos (by omega), if_pos hlt, if_pos hlt, Function.update_of_ne (by omega)]
      · rw [if_pos (by omega), if_neg (by omega), Function.update_self, Nat.sub_self]
        rfl
      · rw [if_neg (by omega), if_neg (by omega), List.getElem?_eq_none (by simp; omega)]
  | some i =>
    obtain ⟨hi, hfor, -⟩ := find_eq_some_iff.mp hf
    have hany : t.list.any (·.isFor ip ifindex) = true := by
      rw [any_isFor_iff, ne_eq, ← neighCacheGet_eq_none_iff, get_list, get_eq_none_iff, hf]
      simp
    have hidx : t.list.findIdx (·.isFor ip ifindex) = i :=
      (List.findIdx?_eq_some_iff_findIdx_eq.mp ((findIdx?_list t ip ifindex).trans hf)).2
    rw [if_pos hany, hidx, List.getElem?_set, length_list, getElem?_list, getElem?_list]
    dsimp only
    by_cases hij : i = j
    · subst hij
      simp only [NeighEntry.isFor, Bool.and_eq_true, beq_iff_eq] at hfor
      rw [if_pos hi, if_pos rfl, if_pos hi, Function.update_self, ← hfor.1, ← hfor.2]
    · rw [if_neg hij, Function.update_of_ne (Ne.symm hij)]

/-- An entry is taken out of the array as it is out of the list. -/
theorem list_remove (t : NeighTable) (ip ifindex : BitVec 32) :
    (t.remove ip ifindex).list = neighCacheRemove t.list ip ifindex := by
  rw [NeighTable.remove, neighCacheRemove, List.eraseP_eq_eraseIdx, findIdx?_list]
  cases hf : t.find ip ifindex with
  | none => rfl
  | some i =>
    obtain ⟨hi, -, -⟩ := find_eq_some_iff.mp hf
    apply List.ext_getElem?
    intro j
    rw [List.getElem?_eraseIdx, getElem?_list, getElem?_list, getElem?_list]
    dsimp only [moveEntries]
    by_cases hlow : j < i
    · rw [if_pos hlow, if_pos (by omega), if_neg (by omega), if_pos (by omega)]
    · rw [if_neg hlow]
      by_cases hin : j < t.count - 1
      · rw [if_pos hin, if_pos (by omega), if_pos (by omega),
          show i + 1 + (j - i) = j + 1 by omega]
      · rw [if_neg hin, if_neg (by omega)]

/-! ### The cache as a map -/

theorem get_set_other (t : NeighTable) {ip' ifindex' : BitVec 32}
    (h : (ip', ifindex') ≠ (ip, ifindex)) :
    (t.set ip ifindex mac).get ip' ifindex' = t.get ip' ifindex' := by
  rw [← get_list, ← get_list, list_set]
  exact neighCacheGet_set_of_ne fun he => h (Prod.ext he.1 he.2)

theorem get_remove_other (t : NeighTable) {ip' ifindex' : BitVec 32}
    (h : (ip', ifindex') ≠ (ip, ifindex)) :
    (t.remove ip ifindex).get ip' ifindex' = t.get ip' ifindex' := by
  rw [← get_list, ← get_list, list_remove]
  exact neighCacheGet_remove_of_ne fun he => h (Prod.ext he.1 he.2)

theorem get_set_self (t : NeighTable) (h : t.get ip ifindex ≠ none ∨ t.count < NEIGH_CACHE_SIZE) :
    (t.set ip ifindex mac).get ip ifindex = some mac := by
  rw [← get_list, list_set]
  refine neighCacheGet_set_self ?_
  rwa [Takes, get_list, length_list]

theorem set_of_full (h : t.get ip ifindex = none) (hfull : NEIGH_CACHE_SIZE ≤ t.count) :
    t.set ip ifindex mac = t := by
  rw [NeighTable.set, get_eq_none_iff.mp h]
  exact if_pos hfull

/-- The keys are distinct and the array is not overrun. -/
structure NeighTable.Inv (t : NeighTable) : Prop where
  distinct : Keyed t.list
  count_le : t.count ≤ NEIGH_CACHE_SIZE

theorem NeighTable.Inv.step (h : t.Inv) (op : NeighOp) : (t.step op).Inv := by
  cases op with
  | set ip ifindex mac =>
    refine ⟨?_, ?_⟩
    · rw [NeighTable.step, list_set]
      exact h.distinct.set ip ifindex mac
    · have hcount := h.count_le
      rw [NeighTable.step, NeighTable.set]
      cases t.find ip ifindex with
      | some i => exact hcount
      | none =>
        dsimp only
        split_ifs with hfull
        · exact hcount
        · dsimp only
          omega
  | get ip ifindex => exact h
  | remove ip ifindex =>
    refine ⟨?_, ?_⟩
    · rw [NeighTable.step, list_remove]
      exact h.distinct.remove ip ifindex
    · have hcount := h.count_le
      rw [NeighTable.step, NeighTable.remove]
      cases t.find ip ifindex with
      | some i =>
        dsimp only
        omega
      | none => exact hcount

theorem mem_live {m : NeighMap} {k : BitVec 32 × BitVec 32} : k ∈ m.live ↔ m k ≠ none := Iff.rfl

/-- A cache that answers as the map has no more keys than the map. -/
theorem NeighTable.Inv.count_le_live (h : t.Inv) {m : NeighMap}
    (hm : ∀ ip ifindex, t.get ip ifindex = m (ip, ifindex)) : (t.count : ℕ∞) ≤ m.live.encard := by
  have hsub : ((t.list.map NeighEntry.key).toFinset : Set (BitVec 32 × BitVec 32)) ⊆ m.live := by
    intro k hk
    obtain ⟨e, he, rfl⟩ := List.mem_map.mp (List.mem_toFinset.mp hk)
    change m (e.ip, e.ifindex) ≠ none
    rw [← hm, ← get_list, ne_eq, neighCacheGet_eq_none_iff, KeyedList.get_eq_none_iff]
    exact fun hall => hall e he rfl
  have hcard : (t.list.map NeighEntry.key).toFinset.card = t.count := by
    rw [List.toFinset_card_of_nodup h.distinct, List.length_map, length_list]
  have hle := Set.encard_le_encard hsub
  rwa [Set.encard_coe_eq_coe_finsetCard, hcard] at hle

/-- One call, while the keys that are live afterwards fit in. -/
theorem NeighTable.Inv.step_map (h : t.Inv) {m : NeighMap}
    (hm : ∀ ip ifindex, t.get ip ifindex = m (ip, ifindex)) (op : NeighOp)
    (hlive : (m.step op).live.encard ≤ NEIGH_CACHE_SIZE) :
    ∀ ip ifindex, (t.step op).get ip ifindex = m.step op (ip, ifindex) := by
  intro ip' ifindex'
  cases op with
  | set ip ifindex mac =>
    rw [NeighTable.step, NeighMap.step]
    by_cases hk : (ip', ifindex') = (ip, ifindex)
    · obtain ⟨rfl, rfl⟩ := Prod.mk.inj hk
      rw [Function.update_self]
      refine get_set_self t ?_
      by_contra hno
      obtain ⟨hnew, hfull⟩ := not_or.mp hno
      -- the new key comes on top of those the full cache holds
      have hlive' : (m.step (.set ip' ifindex' mac)).live = insert (ip', ifindex') m.live := by
        ext k
        rw [Set.mem_insert_iff, mem_live, mem_live, NeighMap.step]
        by_cases hkk : k = (ip', ifindex')
        · simp [hkk]
        · simp [hkk]
      have hnot : (ip', ifindex') ∉ m.live := by
        rw [mem_live, not_not, ← hm]
        exact not_not.mp hnew
      have hcount := h.count_le_live hm
      rw [hlive', Set.encard_insert_of_notMem hnot] at hlive
      have hle : (NEIGH_CACHE_SIZE : ℕ∞) ≤ m.live.encard :=
        le_trans (by exact_mod_cast not_lt.mp hfull) hcount
      have hover : (NEIGH_CACHE_SIZE : ℕ∞) + 1 ≤ NEIGH_CACHE_SIZE :=
        (add_le_add_left hle 1).trans hlive
      have : NEIGH_CACHE_SIZE + 1 ≤ NEIGH_CACHE_SIZE := by exact_mod_cast hover
      omega
    · rw [Function.update_of_ne hk, get_set_other t hk, hm]
  | get ip ifindex => exact hm ip' ifindex'
  | remove ip ifindex =>
    rw [NeighTable.step, NeighMap.step]
    by_cases hk : (ip', ifindex') = (ip, ifindex)
    · obtain ⟨rfl, rfl⟩ := Prod.mk.inj hk
      rw [Function.update_self, ← get_list, list_remove]
      exact neighCacheGet_remove_self h.distinct
    · rw [Function.update_of_ne hk, get_remove_other t hk, hm]

theorem neighTable_inv (entries : ℕ → NeighEntry) (ops : List NeighOp) :
    (run NeighTable.step (.empty entries) ops).Inv :=
  (throughout_of_step (fun t op (h : t.Inv) => h.step op)
    ⟨List.nodup_nil, Nat.zero_le _⟩ ops).final

/-- As long as the live keys fit in, the cache is the map. -/
theorem neighTable_map (entries : ℕ → NeighEntry) (ops : List NeighOp)
    (hlive : ∀ pre, pre <+: ops → (NeighMap.after pre).live.encard ≤ NEIGH_CACHE_SIZE) :
    ∀ ip ifindex, (run NeighTable.step (.empty entries) ops).get ip ifindex =
      NeighMap.after ops (ip, ifindex) := by
  induction ops using List.reverseRecOn with
  | nil => exact fun _ _ => rfl
  | append_singleton ops op ih =>
    have hafter : NeighMap.after (ops ++ [op]) = (NeighMap.after ops).step op :=
      run_concat NeighMap.step _ ops op
    have hm := ih fun pre hpre => hlive pre (hpre.trans (List.prefix_append ops [op]))
    rw [run_concat, hafter]
    refine (neighTable_inv entries ops).step_map hm op ?_
    rw [← hafter]
    exact hlive _ List.prefix_rfl

/-- From any contents of the array, every sequence of calls leaves a cache that
refines the map. -/
theorem neighTable_refines (entries : ℕ → NeighEntry) (ops : List NeighOp) :
    (run NeighTable.step (.empty entries) ops).Refines ops where
  distinct := (neighTable_inv entries ops).distinct
  count_le := (neighTable_inv entries ops).count_le
  map := neighTable_map entries ops
  set_other _ _ _ _ _ h := get_set_other _ h
  remove_other _ _ _ _ h := get_remove_other _ h
  full hcount _ _ _ hnew := set_of_full hnew hcount.ge
  update _ _ _ hlive := get_set_self _ (.inl hlive)

end OpenNos.Switchd
