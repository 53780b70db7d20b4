import OpenNos.Lib.FirstFit
import OpenNos.Sdk.L2Store

/-! L2_ENTRY when accesses fail. A failed write sends add and delete to the next
of the six probe slots, while a lookup stops at the first entry of its key; so an
add may be hidden by an older entry of the key in front of it, and a delete may
leave one in any slot but the one it clears. -/

namespace OpenNos.Sdk

open Bits FirstFit

/-- No access to come fails. -/
def Asic.healed (a : Asic) : Asic := { a with fault := fun _ => false }

/-- What a lookup of the key finds at a probe. -/
def Asic.l2Found (a : Asic) (mac : Mac) (vid : BitVec 16) (probe : ℕ) : Option L2Addr :=
  (a.l2Slot (l2Probe (l2Index mac vid) probe)).filter fun x => x.key = l2Key mac vid

/-- The probe whose write succeeds first. -/
def Asic.l2Target (a : Asic) : Option ℕ := firstFree a.fault 0 6

/-- An add that returns 0 is what the next lookup returns. -/
def AddSeen (a : Asic) (addr : L2Addr) : Prop :=
  (l2AddrAdd a addr).2 = .ok () →
    (l2AddrGet (l2AddrAdd a addr).1.healed addr.mac addr.vid).2 = .ok addr.stored

/-- After a delete that returns 0 the next lookup finds nothing. -/
def DeleteSeen (a : Asic) (mac : Mac) (vid : BitVec 16) : Prop :=
  (l2AddrDelete a mac vid).2 = .ok () →
    (l2AddrGet (l2AddrDelete a mac vid).1.healed mac vid).2 = .error .enoent

/-- The first entry of the key in front of the slot that is written, if there is
one, has the same attributes. -/
def NotHidden (a : Asic) (addr : L2Addr) : Prop :=
  ∀ p, a.l2Target = some p → ∀ q < p, (∀ r < q, a.l2Found addr.mac addr.vid r = none) →
    ∀ x, a.l2Found addr.mac addr.vid q = some x → x = addr.stored

/-- No slot but the one that is cleared holds the key. -/
def NoOtherCopy (a : Asic) (mac : Mac) (vid : BitVec 16) : Prop :=
  ∀ q < 6, a.l2Target ≠ some q → a.l2Found mac vid q = none

variable {a : Asic} {mac : Mac} {vid : BitVec 16}

theorem healed_faultFree (a : Asic) : a.healed.FaultFree := fun _ => rfl

@[simp] theorem l2Slot_healed (a : Asic) : a.healed.l2Slot = a.l2Slot := rfl

/-! ### Lookups -/

theorem l2EntryMatches_iff_found (a : Asic) (mac : Mac) (vid : BitVec 16) (q : ℕ) :
    l2EntryMatches (a.mem L2_ENTRY_BASE (l2Probe (l2Index mac vid) q)) mac vid = true ↔
      a.l2Found mac vid q =
        some (l2UnpackEntry (a.mem L2_ENTRY_BASE (l2Probe (l2Index mac vid) q))) := by
  rw [l2EntryMatches_iff_slot, Asic.l2Found, Option.filter_eq_some_iff, decide_eq_true_iff]
  constructor
  · rintro ⟨x, hx, hk⟩
    have hdec := hx
    rw [Asic.l2Slot, l2Decode] at hdec
    split_ifs at hdec
    rw [Option.some.inj hdec]
    exact ⟨hx, hk⟩
  · rintro ⟨hx, hk⟩
    exact ⟨_, hx, hk⟩

theorem l2Found_eq_none (a : Asic) (mac : Mac) (vid : BitVec 16) (q : ℕ)
    (h : ¬ l2EntryMatches (a.mem L2_ENTRY_BASE (l2Probe (l2Index mac vid) q)) mac vid = true) :
    a.l2Found mac vid q = none := by
  rw [l2EntryMatches_iff_slot] at h
  rw [Asic.l2Found, Option.filter_eq_none_iff]
  intro x hx
  rw [decide_eq_true_iff]
  exact fun hk => h ⟨x, hx, hk⟩

/-- A lookup without faults returns the first find among the probes. -/
theorem l2ReadProbes_eq_findSome (hf : a.FaultFree) (probes : List ℕ) :
    (l2ReadProbes a (l2Index mac vid) mac vid probes).2 =
      match probes.findSome? (a.l2Found mac vid) with
      | some x => .ok x
      | none => .error .enoent := by
  induction probes with
  | nil => rfl
  | cons p ps ih =>
    rw [l2ReadProbes, hf.memRead, List.findSome?_cons]
    by_cases hm : l2EntryMatches (a.mem L2_ENTRY_BASE (l2Probe (l2Index mac vid) p)) mac vid = true
    · rw [(l2EntryMatches_iff_found a mac vid p).mp hm]
      simp only [if_pos hm]
    · rw [l2Found_eq_none a mac vid p hm]
      simp only [if_neg hm]
      exact ih

theorem l2AddrGet_eq_enoent_iff (hf : a.FaultFree) :
    (l2AddrGet a mac vid).2 = .error .enoent ↔ ∀ q < 6, a.l2Found mac vid q = none := by
  rw [l2AddrGet, l2ReadProbes_eq_findSome hf]
  have hnone : (List.range 6).findSome? (a.l2Found mac vid) = none ↔
      ∀ q < 6, a.l2Found mac vid q = none := by
    simp only [List.findSome?_eq_none_iff, List.mem_range]
  rw [← hnone]
  cases (List.range 6).findSome? (a.l2Found mac vid) with
  | none => exact iff_of_true rfl rfl
  | some x => exact iff_of_false (fun h => by cases h) (fun h => by cases h)

/-- A lookup returns what it finds at the first probe that has a find. -/
theorem l2AddrGet_of_found (hf : a.FaultFree) {q : ℕ} {x : L2Addr} (hq : q < 6)
    (hx : a.l2Found mac vid q = some x) (hlow : ∀ r < q, a.l2Found mac vid r = none) :
    (l2AddrGet a mac vid).2 = .ok x := by
  have hsome : (List.range 6).findSome? (a.l2Found mac vid) = some x := by
    rw [List.findSome?_eq_some_iff]
    refine ⟨List.range q, q, List.range' (q + 1) (5 - q), ?_, hx, fun r hr => ?_⟩
    · interval_cases q <;> rfl
    · exact hlow r (List.mem_range.mp hr)
  rw [l2AddrGet, l2ReadProbes_eq_findSome hf, hsome]

/-! ### Writes -/

/-- A run of probes writes where the first write succeeds, and leaves the table
alone when none does. -/
theorem l2WriteProbes_slots (a : Asic) (index : ℕ) (words : Words) (lo : ℕ) (n : ℕ) :
    match firstFree a.fault 0 n with
    | some k => (l2WriteProbes a index words (List.range' lo n)).2 = true ∧
        (l2WriteProbes a index words (List.range' lo n)).1.l2Slot =
          Function.update a.l2Slot (l2Probe index (lo + k)) (l2Decode words)
    | none => (l2WriteProbes a index words (List.range' lo n)).2 = false ∧
        (l2WriteProbes a index words (List.range' lo n)).1.l2Slot = a.l2Slot := by
  induction n generalizing a lo with
  | zero => exact ⟨rfl, rfl⟩
  | succ n ih =>
    rw [List.range'_succ, l2WriteProbes]
    cases hf : a.fault 0 with
    | false =>
      rw [firstFree_of_low le_rfl (by omega) (fun j _ hj => by omega) hf,
        Asic.memWrite_of_not_fault hf]
      exact ⟨rfl, l2Slot_store a.tick _ words⟩
    | true =>
      rw [Asic.memWrite_of_fault hf]
      have hrest := ih a.tick (lo + 1)
      rw [firstFree_succ hf]
      change match (firstFree a.tick.fault 0 n).map (· + 1) with | some k => _ | none => _
      cases hk : firstFree a.tick.fault 0 n with
      | none =>
        rw [hk] at hrest
        exact hrest
      | some k =>
        rw [hk] at hrest
        simp only [Option.map_some]
        rw [show lo + (k + 1) = lo + 1 + k by omega]
        exact hrest

theorem l2Probe_inj {index p q : ℕ} (hp : p < 6) (hq : q < 6)
    (h : l2Probe index p = l2Probe index q) : p = q := by
  rw [l2Probe, l2Probe, L2_ENTRY_ENTRIES] at h
  omega

/-- The slots an add or delete leaves, as a later lookup of the key finds them. -/
theorem l2Found_write (a' : Asic) {p : ℕ} {d : Option L2Addr} (hp : p < 6)
    (hslot : a'.l2Slot = Function.update a.l2Slot (l2Probe (l2Index mac vid) p) d) {q : ℕ}
    (hq : q < 6) : a'.l2Found mac vid q =
      if q = p then d.filter fun x => x.key = l2Key mac vid else a.l2Found mac vid q := by
  rw [Asic.l2Found, hslot]
  by_cases hqp : q = p
  · rw [if_pos hqp, hqp, Function.update_self]
  · rw [if_neg hqp, Function.update_of_ne fun h => hqp (l2Probe_inj hq hp h), Asic.l2Found]

theorem l2AddrAdd_target (addr : L2Addr) :
    match a.l2Target with
    | some p => (l2AddrAdd a addr).2 = .ok () ∧ (l2AddrAdd a addr).1.l2Slot =
        Function.update a.l2Slot (l2Probe (l2Index addr.mac addr.vid) p) (some addr.stored)
    | none => (l2AddrAdd a addr).2 = .error .enospc := by
  have h := l2WriteProbes_slots a (l2Index addr.mac addr.vid) (l2PackEntry addr) 0 6
  rw [← List.range_eq_range', l2Decode_l2PackEntry] at h
  rw [l2AddrAdd]
  generalize l2WriteProbes a (l2Index addr.mac addr.vid) (l2PackEntry addr) (List.range 6) = r at h
  obtain ⟨a', ok⟩ := r
  unfold Asic.l2Target
  cases hk : firstFree a.fault 0 6 with
  | none =>
    rw [hk] at h
    obtain ⟨rfl, -⟩ := h
    rfl
  | some k =>
    rw [hk] at h
    simp only [Nat.zero_add] at h
    obtain ⟨rfl, hslot⟩ := h
    exact ⟨rfl, hslot⟩

theorem l2AddrDelete_target (mac : Mac) (vid : BitVec 16) :
    (l2AddrDelete a mac vid).2 = .ok () ∧ (l2AddrDelete a mac vid).1.l2Slot =
      match a.l2Target with
      | some p => Function.update a.l2Slot (l2Probe (l2Index mac vid) p) none
      | none => a.l2Slot := by
  have h := l2WriteProbes_slots a (l2Index mac vid) (fun _ => 0#32) 0 6
  rw [← List.range_eq_range', l2Decode_zero] at h
  refine ⟨rfl, ?_⟩
  rw [l2AddrDelete]
  unfold Asic.l2Target
  cases hk : firstFree a.fault 0 6 with
  | none =>
    rw [hk] at h
    exact h.2
  | some k =>
    rw [hk] at h
    simp only [Nat.zero_add] at h
    exact h.2

/-! ### What the next lookup sees -/

theorem addSeen_iff_notHidden (a : Asic) (addr : L2Addr) : AddSeen a addr ↔ NotHidden a addr := by
  have hadd := l2AddrAdd_target (a := a) addr
  cases ht : a.l2Target with
  | none =>
    rw [ht] at hadd
    refine iff_of_true (fun h => ?_) fun p hp => ?_
    · rw [hadd] at h
      cases h
    · rw [ht] at hp
      cases hp
  | some p =>
    rw [ht] at hadd
    obtain ⟨hok, hslot⟩ := hadd
    have hp6 : p < 6 := (firstFree_mem ht).2
    have hfound {q : ℕ} (hq : q < 6) :=
      l2Found_write (l2AddrAdd a addr).1.healed hp6 hslot hq
    have hself : (some addr.stored).filter (fun x => x.key = l2Key addr.mac addr.vid) =
        some addr.stored := by
      rw [Option.filter_eq_some_iff]
      exact ⟨rfl, decide_eq_true (stored_key addr)⟩
    have hget := healed_faultFree (l2AddrAdd a addr).1
    constructor
    · intro hseen p' hp' q hq hlow x hx
      obtain rfl : p = p' := Option.some.inj (ht.symm.trans hp')
      have hfirst := l2AddrGet_of_found hget (q := q) (x := x) (by omega)
        (by rw [hfound (by omega), if_neg (by omega), hx])
        fun r hr => by rw [hfound (by omega), if_neg (by omega), hlow r hr]
      exact Except.ok.inj (hfirst.symm.trans (hseen hok))
    · intro hno _
      cases hq : findFirst (fun q => (a.l2Found addr.mac addr.vid q).isSome) 0 p with
      | none =>
        have hlow := findFirst_eq_none_iff.mp hq
        refine l2AddrGet_of_found hget hp6 ?_ fun r hr => ?_
        · rw [hfound hp6, if_pos rfl, hself]
        · rw [hfound (by omega), if_neg (by omega)]
          exact Option.not_isSome_iff_eq_none.mp (by simpa using hlow r (Nat.zero_le r) hr)
      | some q =>
        obtain ⟨⟨-, hqp⟩, hsome, hlow⟩ := findFirst_eq_some_iff.mp hq
        obtain ⟨x, hx⟩ := Option.isSome_iff_exists.mp hsome
        have hnone (r : ℕ) (hr : r < q) : a.l2Found addr.mac addr.vid r = none :=
          Option.not_isSome_iff_eq_none.mp (by simpa using hlow r (Nat.zero_le r) hr)
        rw [← hno p ht q hqp hnone x hx]
        refine l2AddrGet_of_found hget (q := q) (by omega) ?_ fun r hr => ?_
        · rw [hfound (by omega), if_neg (by omega), hx]
        · rw [hfound (by omega), if_neg (by omega), hnone r hr]

theorem deleteSeen_iff_noOtherCopy (a : Asic) (mac : Mac) (vid : BitVec 16) :
    DeleteSeen a mac vid ↔ NoOtherCopy a mac vid := by
  obtain ⟨hok, hslot⟩ := l2AddrDelete_target (a := a) mac vid
  have hget := healed_faultFree (l2AddrDelete a mac vid).1
  rw [DeleteSeen, l2AddrGet_eq_enoent_iff hget]
  have hfound (q : ℕ) (hq : q < 6) : (l2AddrDelete a mac vid).1.healed.l2Found mac vid q =
      if a.l2Target = some q then none else a.l2Found mac vid q := by
    cases ht : a.l2Target with
    | none =>
      rw [ht] at hslot
      rw [if_neg nofun, Asic.l2Found, l2Slot_healed, hslot, Asic.l2Found]
    | some p =>
      rw [ht] at hslot
      rw [l2Found_write (l2AddrDelete a mac vid).1.healed (firstFree_mem ht).2 hslot hq]
      by_cases hqp : q = p
      · rw [if_pos hqp, if_pos (by rw [hqp])]
        rfl
      · rw [if_neg hqp, if_neg fun h => hqp (Option.some.inj h).symm]
  constructor
  · intro h q hq hne
    have := h hok q hq
    rwa [hfound q hq, if_neg hne] at this
  · intro h _ q hq
    rw [hfound q hq]
    split_ifs with ht
    · rfl
    · exact h q hq ht

/-- Whatever the table holds and whichever accesses fail, a successful add or
delete shows in the next lookup exactly under these conditions. -/
theorem seen_iff_firstCopy (a : Asic) :
    (∀ addr, AddSeen a addr ↔ NotHidden a addr) ∧
      ∀ mac vid, DeleteSeen a mac vid ↔ NoOtherCopy a mac vid :=
  ⟨addSeen_iff_notHidden a, deleteSeen_iff_noOtherCopy a⟩

/-- 02:00:00:00:00:02 moves to port 2. -/
def movedA : L2Addr := { stationA with port := 2 }

/-- The first address is in its home slot, and the next write fails. -/
def stationAFailing : Asic := { (l2AddrAdd Asic.blank stationA).1 with fault := fun n => n == 0 }

/-- The new port goes to the second slot, and the lookup still returns the old one. -/
theorem addSeen_fails : ¬ ((∀ a addr, AddSeen a addr) ∧ ∀ a mac vid, DeleteSeen a mac vid) := by
  rintro ⟨h, -⟩
  have hget := h stationAFailing movedA (by decide +kernel)
  revert hget
  decide +kernel

end OpenNos.Sdk
