import OpenNos.Lib.History
import OpenNos.Sdk.L2

/-! L2_ENTRY as a store of addresses by key. Add and delete write to the home
slot of the key without reading it, so the store is a finite map along exactly
those histories in which no add or delete finds a different live key with the
same home slot. -/

namespace OpenNos.Sdk

open Bits History

def l2Key (mac : Mac) (vid : BitVec 16) : Mac × BitVec 16 := (mac, vid &&& 0xfff)

def L2Addr.key (addr : L2Addr) : Mac × BitVec 16 := l2Key addr.mac addr.vid

def l2Decode (words : Words) : Option L2Addr :=
  if l2Valid words then some (l2UnpackEntry words) else none

/-- The address in a slot that is valid. -/
def Asic.l2Slot (a : Asic) (idx : ℕ) : Option L2Addr := l2Decode (a.mem L2_ENTRY_BASE idx)

/-! ### Slots -/

theorem l2Decode_splice (w old : Words) : l2Decode (splice L2_ENTRY_WORDS w old) = l2Decode w := by
  have hw (k : ℕ) (hk : k < 4) : splice L2_ENTRY_WORDS w old k = w k := if_pos hk
  have hv : l2Valid (splice L2_ENTRY_WORDS w old) = l2Valid w := by
    rw [l2Valid, l2Valid, hw 0 (by decide)]
  have hu : l2UnpackEntry (splice L2_ENTRY_WORDS w old) = l2UnpackEntry w := by
    simp only [l2UnpackEntry, hw 0 (by decide), hw 1 (by decide), hw 2 (by decide)]
  rw [l2Decode, l2Decode, hv, hu]

theorem l2Slot_store (a : Asic) (idx : ℕ) (w : Words) :
    (a.store L2_ENTRY_BASE idx w L2_ENTRY_WORDS).l2Slot =
      Function.update a.l2Slot idx (l2Decode w) := by
  funext j
  by_cases hj : j = idx
  · subst hj
    rw [Function.update_self, Asic.l2Slot, Asic.store_mem_self, l2Decode_splice]
  · rw [Function.update_of_ne hj, Asic.l2Slot, Asic.store_mem_of_ne _ _ (.inr hj), Asic.l2Slot]

theorem l2Decode_l2PackEntry (addr : L2Addr) : l2Decode (l2PackEntry addr) = some addr.stored := by
  rw [l2Decode, if_pos (l2Valid_l2PackEntry addr), l2UnpackEntry_l2PackEntry]

theorem l2Decode_zero : l2Decode (fun _ => 0#32) = none := rfl

theorem vid_and_idem (vid : BitVec 16) : vid &&& 0xfff &&& 0xfff = vid &&& 0xfff := by
  rw [BitVec.and_assoc, BitVec.and_self]

theorem stored_key (addr : L2Addr) : addr.stored.key = addr.key := by
  rw [L2Addr.key, L2Addr.stored, l2Key, vid_and_idem]
  rfl

theorem l2UnpackEntry_key (words : Words) :
    (l2UnpackEntry words).key = ((l2UnpackEntry words).mac, (l2UnpackEntry words).vid) := by
  rw [L2Addr.key, l2Key]
  congr 1
  apply BitVec.eq_of_getLsbD_eq
  intro j hj
  interval_cases j <;> simp [l2UnpackEntry]

/-- The comparison of a probe, in terms of the slot. -/
theorem l2EntryMatches_iff_slot (a : Asic) (idx : ℕ) (mac : Mac) (vid : BitVec 16) :
    l2EntryMatches (a.mem L2_ENTRY_BASE idx) mac vid = true ↔
      ∃ x, a.l2Slot idx = some x ∧ x.key = l2Key mac vid := by
  rw [l2EntryMatches_iff, Asic.l2Slot, l2Decode]
  by_cases hv : l2Valid (a.mem L2_ENTRY_BASE idx) = true
  · simp only [hv, if_true, Option.some.injEq, exists_eq_left', l2UnpackEntry_key, l2Key,
      Prod.mk.injEq, true_and]
  · simp [hv]

/-! ### Home slots -/

theorem l2Index_lt (mac : Mac) (vid : BitVec 16) : l2Index mac vid < L2_ENTRY_ENTRIES :=
  Nat.mod_lt _ (by decide)

theorem l2Index_mod (mac : Mac) (vid : BitVec 16) : l2Index mac vid % 16 = 0 := by
  rw [l2Index_eq]
  omega

/-- Two keys share their home slot when the VIDs and the lowest MAC bits agree. -/
theorem l2Index_eq_iff (mac mac' : Mac) (vid vid' : BitVec 16) :
    l2Index mac vid = l2Index mac' vid' ↔
      (mac.get 5).toNat % 2 = (mac'.get 5).toNat % 2 ∧ vid.toNat % 4096 = vid'.toNat % 4096 := by
  rw [l2Index_eq, l2Index_eq]
  omega

theorem l2Index_of_key {mac mac' : Mac} {vid vid' : BitVec 16}
    (h : l2Key mac vid = l2Key mac' vid') : l2Index mac vid = l2Index mac' vid' := by
  obtain ⟨rfl, hv⟩ := Prod.mk.inj h
  have hn := congrArg BitVec.toNat hv
  have hm (v : BitVec 16) : (v &&& 0xfff).toNat = v.toNat % 2 ^ 12 := by
    rw [BitVec.toNat_and]
    exact Nat.and_two_pow_sub_one_eq_mod _ 12
  rw [hm, hm] at hn
  exact (l2Index_eq_iff ..).mpr ⟨rfl, hn⟩

theorem l2Probe_zero (mac : Mac) (vid : BitVec 16) :
    l2Probe (l2Index mac vid) 0 = l2Index mac vid :=
  Nat.mod_eq_of_lt (l2Index_lt mac vid)

/-- Valid slots are home slots. -/
def Asic.HomesOnly (a : Asic) : Prop := ∀ idx < L2_ENTRY_ENTRIES, idx % 16 ≠ 0 → a.l2Slot idx = none

theorem Asic.HomesOnly.probe {a : Asic} (h : a.HomesOnly) (mac : Mac) (vid : BitVec 16) {p : ℕ}
    (hp : 0 < p ∧ p < 16) : a.l2Slot (l2Probe (l2Index mac vid) p) = none := by
  apply h
  · exact Nat.mod_lt _ (by decide)
  · have hmod := l2Index_mod mac vid
    rw [l2Probe, L2_ENTRY_ENTRIES]
    omega

/-! ### The calls on a fault-free chip -/

variable {a : Asic}

theorem probes_eq : List.range 6 = [0, 1, 2, 3, 4, 5] := rfl

/-- The first probe takes the write. -/
theorem l2WriteProbes_of_faultFree (hf : a.FaultFree) (mac : Mac) (vid : BitVec 16) (w : Words) :
    l2WriteProbes a (l2Index mac vid) w (List.range 6) =
      (a.store L2_ENTRY_BASE (l2Index mac vid) w L2_ENTRY_WORDS, true) := by
  rw [probes_eq, l2WriteProbes, hf.memWrite, l2Probe_zero]

theorem l2AddrAdd_of_faultFree (hf : a.FaultFree) (addr : L2Addr) : l2AddrAdd a addr =
    (a.store L2_ENTRY_BASE (l2Index addr.mac addr.vid) (l2PackEntry addr) L2_ENTRY_WORDS,
      .ok ()) := by
  rw [l2AddrAdd, l2WriteProbes_of_faultFree hf]

theorem l2AddrDelete_of_faultFree (hf : a.FaultFree) (mac : Mac) (vid : BitVec 16) :
    l2AddrDelete a mac vid =
      (a.store L2_ENTRY_BASE (l2Index mac vid) (fun _ => 0#32) L2_ENTRY_WORDS, .ok ()) := by
  rw [l2AddrDelete, l2WriteProbes_of_faultFree hf]

theorem l2ReadProbes_of_empty (hf : a.FaultFree) (index : ℕ) (mac : Mac) (vid : BitVec 16)
    (probes : List ℕ) (hn : ∀ p ∈ probes, a.l2Slot (l2Probe index p) = none) :
    l2ReadProbes a index mac vid probes = (a, .error .enoent) := by
  induction probes with
  | nil => rfl
  | cons p ps ih =>
    obtain ⟨hp, hps⟩ := List.forall_mem_cons.mp hn
    have hno : ¬ l2EntryMatches (a.mem L2_ENTRY_BASE (l2Probe index p)) mac vid = true := by
      rw [l2EntryMatches_iff_slot, hp]
      rintro ⟨x, hx, -⟩
      cases hx
    rw [l2ReadProbes, hf.memRead]
    simp only [if_neg hno]
    exact ih hps

/-- A lookup whose key is in its home slot finds it there. -/
theorem l2AddrGet_of_slot (hf : a.FaultFree) {mac : Mac} {vid : BitVec 16} {x : L2Addr}
    (hx : a.l2Slot (l2Index mac vid) = some x) (hk : x.key = l2Key mac vid) :
    l2AddrGet a mac vid = (a, .ok x) := by
  have hm := (l2EntryMatches_iff_slot a (l2Index mac vid) mac vid).mpr ⟨x, hx, hk⟩
  rw [Asic.l2Slot, l2Decode] at hx
  split_ifs at hx with hv
  rw [l2AddrGet, probes_eq, l2ReadProbes, l2Probe_zero, hf.memRead]
  simp only [if_pos hm, Option.some.inj hx]

/-- A lookup whose key is not in its home slot fails while only home slots are
valid. -/
theorem l2AddrGet_of_absent (hf : a.FaultFree) (hh : a.HomesOnly) {mac : Mac} {vid : BitVec 16}
    (hno : ∀ x, a.l2Slot (l2Index mac vid) = some x → x.key ≠ l2Key mac vid) :
    l2AddrGet a mac vid = (a, .error .enoent) := by
  have hm : ¬ l2EntryMatches (a.mem L2_ENTRY_BASE (l2Index mac vid)) mac vid = true := by
    rw [l2EntryMatches_iff_slot]
    rintro ⟨x, hx, hk⟩
    exact hno x hx hk
  rw [l2AddrGet, probes_eq, l2ReadProbes, l2Probe_zero, hf.memRead]
  simp only [if_neg hm]
  refine l2ReadProbes_of_empty hf _ mac vid _ fun p hp => hh.probe mac vid ?_
  simp only [List.mem_cons, List.not_mem_nil, or_false] at hp
  omega

/-! ### Histories -/

inductive L2Call where
  | add (addr : L2Addr)
  | delete (mac : Mac) (vid : BitVec 16)
  | get (mac : Mac) (vid : BitVec 16)

/-- The chip, and for each key what its most recent add that returned 0 stored,
unless a delete of the key came after. -/
structure L2Log where
  asic : Asic
  spec : Mac × BitVec 16 → Option L2Addr

def L2Log.added (s : L2Log) (addr : L2Addr) : Asic × Rc Unit → L2Log
  | (a, .ok ()) => ⟨a, Function.update s.spec addr.key (some addr.stored)⟩
  | (a, .error _) => ⟨a, s.spec⟩

def L2Log.step (s : L2Log) : L2Call → L2Log
  | .add addr => s.added addr (l2AddrAdd s.asic addr)
  | .delete mac vid =>
    ⟨(l2AddrDelete s.asic mac vid).1, Function.update s.spec (l2Key mac vid) none⟩
  | .get mac vid => ⟨(l2AddrGet s.asic mac vid).1, s.spec⟩

/-- Every lookup returns what the map holds, and an add that finds its window
full of other keys is refused. -/
def L2Log.Refines (s : L2Log) : Prop :=
  (∀ mac vid, (l2AddrGet s.asic mac vid).2 =
    match s.spec (l2Key mac vid) with
    | some x => .ok x
    | none => .error .enoent) ∧
  ∀ addr : L2Addr,
    (∀ p < 6, ∃ x, s.asic.l2Slot (l2Probe (l2Index addr.mac addr.vid) p) = some x ∧
      x.key ≠ addr.key) →
    l2AddrAdd s.asic addr = (s.asic, .error .enospc)

/-- No other live key has the home slot of this one. -/
def L2Log.Alone (s : L2Log) (mac : Mac) (vid : BitVec 16) : Prop :=
  ∀ mac' vid', s.spec (l2Key mac' vid') ≠ none → l2Key mac' vid' ≠ l2Key mac vid →
    l2Index mac' vid' ≠ l2Index mac vid

def L2Log.StepAlone (s : L2Log) : L2Call → Prop
  | .add addr => s.Alone addr.mac addr.vid
  | .delete mac vid => s.Alone mac vid
  | .get _ _ => True

/-- The map and the slots hold the same addresses, each in its home slot. -/
structure L2Log.Inv (s : L2Log) : Prop where
  faultFree : s.asic.FaultFree
  slot : ∀ idx < L2_ENTRY_ENTRIES, ∀ x, s.asic.l2Slot idx = some x →
    idx = l2Index x.mac x.vid ∧ s.spec x.key = some x
  spec : ∀ mac vid x, s.spec (l2Key mac vid) = some x →
    x.key = l2Key mac vid ∧ s.asic.l2Slot (l2Index mac vid) = some x

variable {s : L2Log}

theorem L2Log.Inv.homesOnly (h : s.Inv) : s.asic.HomesOnly := by
  intro idx hlt hmod
  by_contra hne
  obtain ⟨x, hx⟩ := Option.ne_none_iff_exists'.mp hne
  rw [(h.slot idx hlt x hx).1] at hmod
  exact hmod (l2Index_mod x.mac x.vid)

theorem refines_of_get (hf : s.asic.FaultFree) (hh : s.asic.HomesOnly)
    (hget : ∀ mac vid x, s.spec (l2Key mac vid) = some x ↔
      s.asic.l2Slot (l2Index mac vid) = some x ∧ x.key = l2Key mac vid) : s.Refines := by
  constructor
  · intro mac vid
    cases hs : s.spec (l2Key mac vid) with
    | some x =>
      obtain ⟨hx, hk⟩ := (hget mac vid x).mp hs
      rw [l2AddrGet_of_slot hf hx hk]
    | none =>
      rw [l2AddrGet_of_absent hf hh]
      intro x hx hk
      rw [(hget mac vid x).mpr ⟨hx, hk⟩] at hs
      cases hs
  · intro addr hfull
    obtain ⟨x, hx, -⟩ := hfull 1 (by decide)
    rw [hh.probe addr.mac addr.vid ⟨by decide, by decide⟩] at hx
    cases hx

theorem L2Log.Inv.refines (h : s.Inv) : s.Refines := by
  refine refines_of_get h.faultFree h.homesOnly ?_
  intro mac vid x
  constructor
  · intro hs
    exact ⟨(h.spec mac vid x hs).2, (h.spec mac vid x hs).1⟩
  · rintro ⟨hx, hk⟩
    rw [← hk]
    exact (h.slot _ (l2Index_lt mac vid) x hx).2

/-- Writing the home slot of a key that is alone there changes that key only. -/
theorem L2Log.Inv.write (h : s.Inv) {mac : Mac} {vid : BitVec 16} (halone : s.Alone mac vid)
    {w : Words} (hw : ∀ x, l2Decode w = some x → x.key = l2Key mac vid) :
    L2Log.Inv ⟨s.asic.store L2_ENTRY_BASE (l2Index mac vid) w L2_ENTRY_WORDS,
      Function.update s.spec (l2Key mac vid) (l2Decode w)⟩ where
  faultFree := h.faultFree
  slot := by
    intro idx hlt x hx
    simp only [l2Slot_store] at hx ⊢
    by_cases hi : idx = l2Index mac vid
    · rw [hi, Function.update_self] at hx
      have hk := hw x hx
      exact ⟨hi.trans (l2Index_of_key hk).symm, by rw [hk, Function.update_self, hx]⟩
    · rw [Function.update_of_ne hi] at hx
      obtain ⟨hidx, hs⟩ := h.slot idx hlt x hx
      have hk : x.key ≠ l2Key mac vid := fun hk => hi (hidx.trans (l2Index_of_key hk))
      exact ⟨hidx, by rw [Function.update_of_ne hk, hs]⟩
  spec := by
    intro mac' vid' x hx
    simp only [l2Slot_store] at hx ⊢
    by_cases hk : l2Key mac' vid' = l2Key mac vid
    · rw [hk, Function.update_self] at hx
      exact ⟨(hw x hx).trans hk.symm, by rw [l2Index_of_key hk, Function.update_self, hx]⟩
    · rw [Function.update_of_ne hk] at hx
      have hi := halone mac' vid' (by rw [hx]; exact nofun) hk
      rw [Function.update_of_ne hi]
      exact h.spec mac' vid' x hx

/-- Writing the home slot of a key loses the other live keys that share it. -/
theorem L2Log.Inv.not_refines_write (h : s.Inv) {mac : Mac} {vid : BitVec 16}
    (hshared : ¬ s.Alone mac vid) {w : Words}
    (hw : ∀ x, l2Decode w = some x → x.key = l2Key mac vid) {v : Option L2Addr} :
    ¬ L2Log.Refines ⟨s.asic.store L2_ENTRY_BASE (l2Index mac vid) w L2_ENTRY_WORDS,
      Function.update s.spec (l2Key mac vid) v⟩ := by
  rintro ⟨hget, -⟩
  simp only [L2Log.Alone, not_forall, not_not] at hshared
  obtain ⟨mac', vid', hlive, hk, hi⟩ := hshared
  obtain ⟨x, hx⟩ := Option.ne_none_iff_exists'.mp hlive
  have hlookup := hget mac' vid'
  have hh : (s.asic.store L2_ENTRY_BASE (l2Index mac vid) w L2_ENTRY_WORDS).HomesOnly := by
    intro idx hlt hmod
    have hidx : idx ≠ l2Index mac vid := fun he => hmod (he ▸ l2Index_mod mac vid)
    rw [l2Slot_store, Function.update_of_ne hidx]
    exact h.homesOnly idx hlt hmod
  have habsent : ∀ y, (s.asic.store L2_ENTRY_BASE (l2Index mac vid) w L2_ENTRY_WORDS).l2Slot
      (l2Index mac' vid') = some y → y.key ≠ l2Key mac' vid' := by
    intro y hy
    rw [l2Slot_store, hi, Function.update_self] at hy
    rw [hw y hy]
    exact Ne.symm hk
  have hf : (s.asic.store L2_ENTRY_BASE (l2Index mac vid) w L2_ENTRY_WORDS).FaultFree := h.faultFree
  simp only [l2AddrGet_of_absent hf hh habsent, Function.update_of_ne hk, hx] at hlookup
  cases hlookup

theorem l2ReadProbes_fst (hf : a.FaultFree) (index : ℕ) (mac : Mac) (vid : BitVec 16)
    (probes : List ℕ) : (l2ReadProbes a index mac vid probes).1 = a := by
  induction probes with
  | nil => rfl
  | cons p ps ih =>
    rw [l2ReadProbes, hf.memRead]
    by_cases hm : l2EntryMatches (a.mem L2_ENTRY_BASE (l2Probe index p)) mac vid = true
    · simp only [if_pos hm]
    · simp only [if_neg hm, ih]

theorem L2Log.step_add (hf : s.asic.FaultFree) (addr : L2Addr) : s.step (.add addr) =
    ⟨s.asic.store L2_ENTRY_BASE (l2Index addr.mac addr.vid) (l2PackEntry addr) L2_ENTRY_WORDS,
      Function.update s.spec addr.key (l2Decode (l2PackEntry addr))⟩ := by
  rw [L2Log.step, l2AddrAdd_of_faultFree hf, L2Log.added, l2Decode_l2PackEntry]

theorem L2Log.step_delete (hf : s.asic.FaultFree) (mac : Mac) (vid : BitVec 16) :
    s.step (.delete mac vid) =
      ⟨s.asic.store L2_ENTRY_BASE (l2Index mac vid) (fun _ => 0#32) L2_ENTRY_WORDS,
        Function.update s.spec (l2Key mac vid) (l2Decode (fun _ => 0#32))⟩ := by
  rw [L2Log.step, l2AddrDelete_of_faultFree hf, l2Decode_zero]

theorem L2Log.step_get (hf : s.asic.FaultFree) (mac : Mac) (vid : BitVec 16) :
    s.step (.get mac vid) = s := by
  rw [L2Log.step, l2AddrGet, l2ReadProbes_fst hf]

theorem packed_key (addr : L2Addr) (x : L2Addr) (hx : l2Decode (l2PackEntry addr) = some x) :
    x.key = l2Key addr.mac addr.vid := by
  rw [l2Decode_l2PackEntry] at hx
  cases hx
  exact stored_key addr

theorem zero_key (k : Mac × BitVec 16) (x : L2Addr) (hx : l2Decode (fun _ => 0#32) = some x) :
    x.key = k := by
  rw [l2Decode_zero] at hx
  cases hx

theorem L2Log.Inv.step (h : s.Inv) (c : L2Call) (hc : s.StepAlone c) : (s.step c).Inv := by
  cases c with
  | add addr =>
    rw [L2Log.step_add h.faultFree]
    exact h.write hc (packed_key addr)
  | delete mac vid =>
    rw [L2Log.step_delete h.faultFree]
    exact h.write hc (zero_key _)
  | get mac vid =>
    rw [L2Log.step_get h.faultFree]
    exact h

theorem L2Log.Inv.not_refines_step (h : s.Inv) (c : L2Call) (hc : ¬ s.StepAlone c) :
    ¬ (s.step c).Refines := by
  cases c with
  | add addr =>
    rw [L2Log.step_add h.faultFree]
    exact h.not_refines_write hc (packed_key addr)
  | delete mac vid =>
    rw [L2Log.step_delete h.faultFree]
    exact h.not_refines_write hc (zero_key _)
  | get mac vid => exact absurd trivial hc

/-- An all-invalid table and the empty map. -/
def L2Log.start (a : Asic) : L2Log := ⟨a, fun _ => none⟩

theorem L2Log.Inv.start (hf : a.FaultFree) (hs : ∀ idx < L2_ENTRY_ENTRIES, a.l2Slot idx = none) :
    (L2Log.start a).Inv where
  faultFree := hf
  slot := by
    intro idx hlt x hx
    exact absurd ((hs idx hlt).symm.trans hx) nofun
  spec := by
    intro mac vid x hx
    cases hx

/-- The table is the finite map of its history exactly when no add or delete
finds a different live key in the home slot of its own. -/
theorem refines_iff_stepAlone (a : Asic) (hf : a.FaultFree)
    (hs : ∀ idx < L2_ENTRY_ENTRIES, a.l2Slot idx = none) (calls : List L2Call) :
    Throughout L2Log.step L2Log.Refines (L2Log.start a) calls ↔
      EachStep L2Log.step L2Log.StepAlone (L2Log.start a) calls :=
  throughout_iff_eachStep_of_any (fun _ h => h.refines) (fun _ c h hc => h.step c hc)
    (fun _ c h hc => h.not_refines_step c hc) (L2Log.Inv.start hf hs) calls

/-! ### Two stations -/

/-- 02:00:00:00:00:02. -/
def stationA : L2Addr :=
  { mac := #v[0x02, 0, 0, 0, 0, 0x02], vid := 1, port := 1, staticEntry := 1 }

/-- 02:00:00:00:00:04 in the same VLAN. -/
def stationB : L2Addr :=
  { mac := #v[0x02, 0, 0, 0, 0, 0x04], vid := 1, port := 2, staticEntry := 1 }

/-- 02:00:00:00:00:05 in the same VLAN. -/
def stationC : L2Addr :=
  { mac := #v[0x02, 0, 0, 0, 0, 0x05], vid := 1, port := 3, staticEntry := 1 }

theorem l2Slot_blank (idx : ℕ) : Asic.blank.l2Slot idx = none := l2Decode_zero

/-- After the first add only its key is live. -/
theorem alone_second_iff (x y : L2Addr) (hk : x.key ≠ y.key) :
    ((L2Log.start Asic.blank).step (.add x)).Alone y.mac y.vid ↔
      l2Index x.mac x.vid ≠ l2Index y.mac y.vid := by
  rw [L2Log.step_add Asic.blank_faultFree, l2Decode_l2PackEntry]
  constructor
  · intro h
    exact h x.mac x.vid (by simp [L2Addr.key]) hk
  · intro h mac' vid' hlive _
    have hkey : l2Key mac' vid' = x.key := by
      by_contra hne
      exact hlive (Function.update_of_ne hne ..)
    rw [l2Index_of_key hkey]
    exact h

theorem L2Log.start_inv : (L2Log.start Asic.blank).Inv :=
  L2Log.Inv.start Asic.blank_faultFree fun idx _ => l2Slot_blank idx

theorem L2Log.start_alone (mac : Mac) (vid : BitVec 16) :
    (L2Log.start Asic.blank).Alone mac vid :=
  fun _ _ h => absurd rfl h

/-- The second station takes the slot of the first, which is then not found. -/
theorem refines_fails : ¬ Throughout L2Log.step L2Log.Refines (L2Log.start Asic.blank)
    [.add stationA, .add stationB] := by
  intro h
  have hinv := L2Log.start_inv.step (.add stationA) (L2Log.start_alone _ _)
  refine hinv.not_refines_step (.add stationB) ?_ h.final
  rw [L2Log.StepAlone, alone_second_iff stationA stationB (by decide), not_ne_iff, l2Index_eq_iff]
  decide

/-- Stations with different home slots. -/
theorem refines_stationC : Throughout L2Log.step L2Log.Refines (L2Log.start Asic.blank)
    [.add stationA, .add stationC, .get stationA.mac 1] := by
  refine (refines_iff_stepAlone Asic.blank Asic.blank_faultFree (fun idx _ => l2Slot_blank idx)
    _).mpr ⟨L2Log.start_alone _ _, ?_, trivial, trivial⟩
  rw [L2Log.StepAlone, alone_second_iff stationA stationC (by decide), ne_eq, l2Index_eq_iff]
  decide

end OpenNos.Sdk
