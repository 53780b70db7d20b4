import OpenNos.Lib.History
import OpenNos.Lib.Registry
import OpenNos.Sdk.Ecmp
import OpenNos.Sdk.L3

/-! The live ECMP groups when table writes fail. Beside the SDK stands the log of
the live groups: the window of slots the allocator gave to each and the ids its
create was called with. Creates write only slots that are free, so no group
touches the members of another. -/

namespace OpenNos.Sdk

open Bits FirstFit WindowFit History Registry

inductive EcmpCall
  | create (egressIds : ℕ → ℤ) (count : ℤ)
  | destroy (ecmpId : ℤ)

structure EcmpGroup where
  basePtr : ℕ
  count : ℕ
  egressIds : ℕ → ℤ

/-- The member slots of a group. -/
def EcmpGroup.slots (g : EcmpGroup) : Finset ℕ := Finset.Ico g.basePtr (g.basePtr + g.count)

structure EcmpLog where
  sdk : EcmpState
  groups : ℕ → Option EcmpGroup

def EcmpLog.init (a : Asic) : EcmpLog where
  sdk := EcmpState.init a
  groups := fun _ => none

/-- The window the allocator gives for so many members. -/
def slotBase (s : EcmpState) (count : ℤ) : ℕ :=
  (findWindow s.ecmpUsed count.toNat L3_ECMP_ENTRIES (L3_ECMP_ENTRIES + 1) 0).getD 0

/-- A create that returns an id makes the group live, a destroy that returns 0 ends it. -/
def EcmpLog.step (t : EcmpLog) : EcmpCall → EcmpLog
  | .create egressIds count =>
    match l3EcmpCreate t.sdk egressIds count with
    | (s, .ok id) =>
      let g := { basePtr := slotBase t.sdk count, count := count.toNat, egressIds := egressIds }
      { sdk := s, groups := Function.update t.groups id (some g) }
    | (s, .error _) => { t with sdk := s }
  | .destroy ecmpId =>
    match l3EcmpDestroy t.sdk ecmpId with
    | (s, .ok ()) => { sdk := s, groups := Function.update t.groups ecmpId.toNat none }
    | (s, .error _) => { t with sdk := s }

/-- A group as it is marked and programmed. -/
structure Placed (s : EcmpState) (id : ℕ) (g : EcmpGroup) : Prop where
  size : 0 < g.count ∧ g.count ≤ 1023
  fits : g.basePtr + g.count ≤ L3_ECMP_ENTRIES
  marked : ∀ j ∈ g.slots, s.ecmpUsed j = true
  base : (ecmpBasePtr (s.asic.mem L3_ECMP_GROUP_BASE id)).toNat = g.basePtr
  count : (ecmpCount (s.asic.mem L3_ECMP_GROUP_BASE id)).toNat = g.count
  members : ∀ i < g.count, s.asic.mem L3_ECMP_BASE (g.basePtr + i) 0 = l3EcmpPack (g.egressIds i)

/-- The next id to try is one of the table, or the one past it. -/
def NextInRange (s : EcmpState) : Prop := 0 < s.nextGroupId ∧ s.nextGroupId ≤ L3_ECMP_GROUP_ENTRIES

/-- The windows of different groups are disjoint. -/
def Apart (groups : ℕ → Option EcmpGroup) : Prop :=
  ∀ id id' g g', id ≠ id' → groups id = some g → groups id' = some g' → Disjoint g.slots g'.slots

/-- What every call keeps. -/
structure GroupsSound (t : EcmpLog) : Prop where
  next : NextInRange t.sdk
  groups : Sound L3_ECMP_GROUP_ENTRIES t.sdk.ecmpGroupUsed t.groups (Placed t.sdk)
  apart : Apart t.groups

variable {s : EcmpState} {egressIds : ℕ → ℤ} {count : ℤ}

/-! ### The allocators -/

theorem allocGroupId_cases (h : NextInRange s) :
    (allocGroupId s = none ∧ ∀ g, 0 < g → g < L3_ECMP_GROUP_ENTRIES → s.ecmpGroupUsed g = true) ∨
    ∃ g, (0 < g ∧ g < L3_ECMP_GROUP_ENTRIES) ∧ s.ecmpGroupUsed g = false ∧
      allocGroupId s = some
        ({ s with
            ecmpGroupUsed := Function.update s.ecmpGroupUsed g true
            nextGroupId := g + 1 }, g) := by
  obtain ⟨hpos, hle⟩ := h
  rw [allocGroupId]
  cases hup : firstFree s.ecmpGroupUsed s.nextGroupId L3_ECMP_GROUP_ENTRIES with
  | some g =>
    have hg := firstFree_mem hup
    exact .inr ⟨g, ⟨by omega, hg.2⟩, firstFree_free hup, rfl⟩
  | none =>
    cases hlow : firstFree s.ecmpGroupUsed 1 s.nextGroupId with
    | some g =>
      have hg := firstFree_mem hlow
      exact .inr ⟨g, ⟨hg.1, by omega⟩, firstFree_free hlow, rfl⟩
    | none =>
      refine .inl ⟨rfl, fun g hg hmax => ?_⟩
      rcases Nat.lt_or_ge g s.nextGroupId with hlt | hge
      · exact firstFree_eq_none_iff.mp hlow g hg hlt
      · exact firstFree_eq_none_iff.mp hup g hge hmax

theorem allocEcmpSlots_cases (s : EcmpState) (hcount : 0 < count ∧ count ≤ L3_ECMP_ENTRIES) :
    (allocEcmpSlots s count = none ∧
      ∀ b, b + count.toNat ≤ L3_ECMP_ENTRIES → ¬ Free s.ecmpUsed b count.toNat) ∨
    ∃ base, base + count.toNat ≤ L3_ECMP_ENTRIES ∧ Free s.ecmpUsed base count.toNat ∧
      slotBase s count = base ∧
      allocEcmpSlots s count =
        some ({ s with ecmpUsed := setRange s.ecmpUsed base count.toNat true }, base) := by
  have hfuel : L3_ECMP_ENTRIES < 0 + (L3_ECMP_ENTRIES + 1) := by omega
  rw [allocEcmpSlots, if_neg (by omega), slotBase]
  cases hw : findWindow s.ecmpUsed count.toNat L3_ECMP_ENTRIES (L3_ECMP_ENTRIES + 1) 0 with
  | some base =>
    obtain ⟨hfit, hfree⟩ := findWindow_free hw
    exact .inr ⟨base, hfit, hfree, rfl, rfl⟩
  | none =>
    refine .inl ⟨rfl, fun b hb hfree => ?_⟩
    obtain ⟨c, -, hc⟩ := exists_findWindow hfuel (Nat.zero_le b) hb hfree
    rw [hw] at hc
    cases hc

/-- Slots and id given back after a create that cannot go on. -/
theorem freeEcmpSlots_alloc (s : EcmpState) (a : Asic) {base : ℕ}
    (hcount : 0 < count) (hfit : base + count.toNat ≤ L3_ECMP_ENTRIES)
    (hfree : Free s.ecmpUsed base count.toNat) :
    freeEcmpSlots
      { s with asic := a, ecmpUsed := setRange s.ecmpUsed base count.toNat true } base count =
        { s with asic := a } := by
  rw [freeEcmpSlots, if_neg (by omega), if_neg (by omega)]
  simp only [Int.toNat_natCast, setRange_release hfree]

theorem freeGroupId_alloc (s : EcmpState) (next : ℕ) {g : ℕ}
    (hg : 0 < g ∧ g < L3_ECMP_GROUP_ENTRIES) (hfree : s.ecmpGroupUsed g = false) :
    freeGroupId
      { s with ecmpGroupUsed := Function.update s.ecmpGroupUsed g true, nextGroupId := next } g =
        { s with nextGroupId := next } := by
  rw [freeGroupId, if_pos (by omega)]
  simp only [Int.toNat_natCast, Function.update_idem, ← hfree, Function.update_eq_self]

/-! ### The member entries -/

theorem writeMembers_mem_of_ne (a : Asic) (basePtr : ℕ) (egressIds : ℕ → ℤ) (n : ℕ)
    {b : BitVec 32} {j : ℕ} (h : b ≠ L3_ECMP_BASE ∨ ¬ (basePtr ≤ j ∧ j < basePtr + n)) :
    (writeMembers a basePtr egressIds n).1.mem b j = a.mem b j := by
  induction n with
  | zero => rfl
  | succ n ih =>
    have hrest := ih (h.imp_right fun hj => by omega)
    rw [writeMembers]
    split
    · next a' hw => rwa [hw] at hrest
    · next a' hw =>
      rw [hw] at hrest
      rw [Asic.memWrite_mem_of_ne _ _ (h.imp_right fun hj => by omega), hrest]

theorem writeMembers_written {a a' : Asic} {basePtr n : ℕ}
    (h : writeMembers a basePtr egressIds n = (a', true)) :
    ∀ i < n, a'.mem L3_ECMP_BASE (basePtr + i) 0 = l3EcmpPack (egressIds i) := by
  induction n generalizing a' with
  | zero => simp
  | succ n ih =>
    rw [writeMembers] at h
    split at h
    · cases h
    · next b hw =>
      intro i hi
      cases hf : b.fault 0 with
      | true =>
        rw [Asic.memWrite_of_fault hf] at h
        cases h
      | false =>
        rw [Asic.memWrite_of_not_fault hf] at h
        cases h
        rcases Nat.lt_succ_iff_lt_or_eq.mp hi with hlt | rfl
        · rw [Asic.store_mem_of_ne _ _ (.inr (by omega))]
          exact ih hw i hlt
        · rw [Asic.store_mem_self]
          rfl

/-! ### What a create does -/

/-- A group written under a free id, with members in free slots. -/
structure EcmpCreated (s : EcmpState) (egressIds : ℕ → ℤ) (count : ℤ) (id base : ℕ) (a : Asic) :
    Prop where
  size : 0 < count ∧ count ≤ 1023
  range : 0 < id ∧ id < L3_ECMP_GROUP_ENTRIES
  unused : s.ecmpGroupUsed id = false
  fits : base + count.toNat ≤ L3_ECMP_ENTRIES
  free : Free s.ecmpUsed base count.toNat
  found : slotBase s count = base
  groupFrame : ∀ k ≠ id, a.mem L3_ECMP_GROUP_BASE k = s.asic.mem L3_ECMP_GROUP_BASE k
  memberFrame : ∀ j, ¬ (base ≤ j ∧ j < base + count.toNat) →
    a.mem L3_ECMP_BASE j = s.asic.mem L3_ECMP_BASE j
  group : a.Holds L3_ECMP_GROUP_BASE id L3_ECMP_GROUP_WORDS
    (l3EcmpGroupPack base count.toNat egressIds)
  members : ∀ i < count.toNat, a.mem L3_ECMP_BASE (base + i) 0 = l3EcmpPack (egressIds i)

/-- An attempt that has written free slots at most. -/
structure EcmpRefused (s : EcmpState) (count : ℤ) (a : Asic) (next : ℕ) (e : Errno) : Prop where
  next : 0 < next ∧ next ≤ L3_ECMP_GROUP_ENTRIES
  frame : ∀ b j, b ≠ L3_ECMP_BASE ∨ s.ecmpUsed j = true → a.mem b j = s.asic.mem b j
  full : e = .enospc →
    (∀ g, 0 < g → g < L3_ECMP_GROUP_ENTRIES → s.ecmpGroupUsed g = true) ∨
      (0 < count ∧ count ≤ 1023) ∧
        ∀ b, b + count.toNat ≤ L3_ECMP_ENTRIES → ¬ Free s.ecmpUsed b count.toNat

/-- A failed create gives back the slots and the id it took. -/
theorem undo_create (s : EcmpState) (a : Asic) {id base : ℕ}
    (hid : 0 < id ∧ id < L3_ECMP_GROUP_ENTRIES) (hunused : s.ecmpGroupUsed id = false)
    (hcount : 0 < count) (hfit : base + count.toNat ≤ L3_ECMP_ENTRIES)
    (hfree : Free s.ecmpUsed base count.toNat) :
    freeGroupId (freeEcmpSlots
      { s with
        asic := a
        ecmpUsed := setRange s.ecmpUsed base count.toNat true
        ecmpGroupUsed := Function.update s.ecmpGroupUsed id true
        nextGroupId := id + 1 } base count) id = { s with asic := a, nextGroupId := id + 1 } := by
  have hslots := freeEcmpSlots_alloc
    { s with ecmpGroupUsed := Function.update s.ecmpGroupUsed id true, nextGroupId := id + 1 } a
    hcount hfit hfree
  rw [hslots]
  exact freeGroupId_alloc { s with asic := a } (id + 1) hid hunused

/-- The members go to free slots. -/
theorem writeMembers_frame {base n : ℕ} (hfree : Free s.ecmpUsed base n) (egressIds : ℕ → ℤ)
    (b : BitVec 32) (j : ℕ) (h : b ≠ L3_ECMP_BASE ∨ s.ecmpUsed j = true) :
    (writeMembers s.asic base egressIds n).1.mem b j = s.asic.mem b j :=
  writeMembers_mem_of_ne _ _ _ _ (h.imp_right fun hj => hfree.not_mem hj)

/-- The chip after the members and the descriptor. -/
theorem EcmpCreated.of_written {id base : ℕ} {a : Asic} (hsize : 0 < count ∧ count ≤ 1023)
    (hid : 0 < id ∧ id < L3_ECMP_GROUP_ENTRIES) (hunused : s.ecmpGroupUsed id = false)
    (hfit : base + count.toNat ≤ L3_ECMP_ENTRIES) (hfree : Free s.ecmpUsed base count.toNat)
    (hfound : slotBase s count = base)
    (hw : writeMembers s.asic base egressIds count.toNat = (a, true)) :
    EcmpCreated s egressIds count id base (a.tick.store L3_ECMP_GROUP_BASE id
      (l3EcmpGroupPack base count.toNat egressIds) L3_ECMP_GROUP_WORDS) := by
  have hmem : (writeMembers s.asic base egressIds count.toNat).1 = a := by rw [hw]
  have hbase : L3_ECMP_BASE ≠ L3_ECMP_GROUP_BASE := by decide
  refine ⟨hsize, hid, hunused, hfit, hfree, hfound, ?_, ?_, ?_, ?_⟩
  · intro k hk
    rw [Asic.store_mem_of_ne _ _ (.inr hk), Asic.tick_mem, ← hmem]
    exact writeMembers_frame hfree _ _ _ (.inl hbase.symm)
  · intro j hj
    rw [Asic.store_mem_of_ne _ _ (.inl hbase), Asic.tick_mem, ← hmem]
    exact writeMembers_mem_of_ne _ _ _ _ (.inr hj)
  · exact Asic.holds_store_self _ _ _ _
  · intro i hi
    rw [Asic.store_mem_of_ne _ _ (.inl hbase), Asic.tick_mem]
    exact writeMembers_written hw i hi

theorem l3EcmpCreate_cases (h : NextInRange s) (egressIds : ℕ → ℤ) (count : ℤ) :
    (∃ id base a, EcmpCreated s egressIds count id base a ∧
      l3EcmpCreate s egressIds count =
        ({ asic := a
           ecmpUsed := setRange s.ecmpUsed base count.toNat true
           ecmpGroupUsed := Function.update s.ecmpGroupUsed id true
           nextGroupId := id + 1 }, .ok id)) ∨
    ∃ a next e, EcmpRefused s count a next e ∧
      l3EcmpCreate s egressIds count = ({ s with asic := a, nextGroupId := next }, .error e) := by
  rw [l3EcmpCreate]
  by_cases hpos : count ≤ 0
  · rw [if_pos hpos]
    exact .inr ⟨s.asic, s.nextGroupId, .einval, ⟨h, fun _ _ _ => rfl, nofun⟩, rfl⟩
  rw [if_neg hpos]
  by_cases hmax : 1023 < count
  · rw [if_pos hmax]
    exact .inr ⟨s.asic, s.nextGroupId, .einval, ⟨h, fun _ _ _ => rfl, nofun⟩, rfl⟩
  rw [if_neg hmax]
  have hsize : 0 < count ∧ count ≤ 1023 := by omega
  rcases allocGroupId_cases h with ⟨hnone, hfull⟩ | ⟨id, hid, hunused, hid'⟩
  · rw [hnone]
    exact .inr ⟨s.asic, s.nextGroupId, .enospc, ⟨h, fun _ _ _ => rfl, fun _ => .inl hfull⟩, rfl⟩
  have hnext : 0 < id + 1 ∧ id + 1 ≤ L3_ECMP_GROUP_ENTRIES := by omega
  rw [hid']
  dsimp only
  -- the state with the id taken has the slots of the state before
  set t : EcmpState := { s with
    ecmpGroupUsed := Function.update s.ecmpGroupUsed id true
    nextGroupId := id + 1 } with ht
  have hroom : 0 < count ∧ count ≤ L3_ECMP_ENTRIES := ⟨hsize.1, hsize.2.trans (by decide)⟩
  rcases allocEcmpSlots_cases t hroom with ⟨hnone, hfull⟩ | ⟨base, hfit, hfree, hfound, hbase⟩
  · rw [hnone]
    dsimp only
    rw [ht, freeGroupId_alloc s (id + 1) hid hunused]
    exact .inr ⟨s.asic, id + 1, .enospc,
      ⟨hnext, fun _ _ _ => rfl, fun _ => .inr ⟨hsize, hfull⟩⟩, rfl⟩
  rw [hbase]
  dsimp only
  have hkeep := writeMembers_frame hfree egressIds
  cases hw : writeMembers s.asic base egressIds count.toNat with
  | mk a ok =>
    rw [hw] at hkeep
    cases ok with
    | false =>
      exact .inr ⟨a, id + 1, .eio, ⟨hnext, hkeep, nofun⟩,
        Prod.ext (undo_create s a hid hunused hsize.1 hfit hfree) rfl⟩
    | true =>
      cases hf : a.fault 0 with
      | true =>
        simp only [Asic.memWrite_of_fault hf]
        exact .inr ⟨a.tick, id + 1, .eio, ⟨hnext, hkeep, nofun⟩,
          Prod.ext (undo_create s a.tick hid hunused hsize.1 hfit hfree) rfl⟩
      | false =>
        simp only [Asic.memWrite_of_not_fault hf]
        exact .inl ⟨id, base, _,
          EcmpCreated.of_written hsize hid hunused hfit hfree hfound hw, rfl⟩

/-- A destroy clears the descriptor and the mark of its id and nothing else. -/
theorem l3EcmpDestroy_cases (s : EcmpState) (ecmpId : ℤ) :
    (∃ a, (∀ b j, b ≠ L3_ECMP_GROUP_BASE ∨ j ≠ ecmpId.toNat → a.mem b j = s.asic.mem b j) ∧
      l3EcmpDestroy s ecmpId =
        ({ s with
            asic := a
            ecmpGroupUsed := Function.update s.ecmpGroupUsed ecmpId.toNat false }, .ok ())) ∨
    (ecmpId ≤ 0 ∨ (L3_ECMP_GROUP_ENTRIES : ℤ) ≤ ecmpId) ∧
      ∃ e, l3EcmpDestroy s ecmpId = (s, .error e) := by
  rw [l3EcmpDestroy]
  by_cases hid : ecmpId ≤ 0 ∨ (L3_ECMP_GROUP_ENTRIES : ℤ) ≤ ecmpId
  · rw [if_pos hid]
    exact .inr ⟨hid, .einval, rfl⟩
  · have hfree (s : EcmpState) : freeGroupId s ecmpId =
        { s with ecmpGroupUsed := Function.update s.ecmpGroupUsed ecmpId.toNat false } :=
      if_pos (by omega)
    rw [if_neg hid]
    exact .inl ⟨_, fun b j h => Asic.memWrite_mem_of_ne _ _ h, Prod.ext (hfree _) rfl⟩

/-! ### One call -/

theorem EcmpGroup.mem_slots {g : EcmpGroup} {j : ℕ} :
    j ∈ g.slots ↔ g.basePtr ≤ j ∧ j < g.basePtr + g.count := Finset.mem_Ico

/-- A group stays when its descriptor and the marked slots do. -/
theorem Placed.frame {s s' : EcmpState} {id : ℕ} {g : EcmpGroup} (h : Placed s id g)
    (hmarks : ∀ j, s.ecmpUsed j = true → s'.ecmpUsed j = true)
    (hgroup : s'.asic.mem L3_ECMP_GROUP_BASE id = s.asic.mem L3_ECMP_GROUP_BASE id)
    (hslots : ∀ j, s.ecmpUsed j = true → s'.asic.mem L3_ECMP_BASE j = s.asic.mem L3_ECMP_BASE j) :
    Placed s' id g where
  size := h.size
  fits := h.fits
  marked := fun j hj => hmarks j (h.marked j hj)
  base := by rw [hgroup, h.base]
  count := by rw [hgroup, h.count]
  members := by
    intro i hi
    have hmem : g.basePtr + i ∈ g.slots := EcmpGroup.mem_slots.mpr (by omega)
    rw [hslots _ (h.marked _ hmem), h.members i hi]

theorem EcmpCreated.placed {id base : ℕ} {a : Asic} (h : EcmpCreated s egressIds count id base a)
    {s' : EcmpState} (hs : s'.ecmpUsed = setRange s.ecmpUsed base count.toNat true)
    (ha : s'.asic = a) :
    Placed s' id { basePtr := base, count := count.toNat, egressIds := egressIds } where
  size := by
    have hsize := h.size
    show 0 < count.toNat ∧ count.toNat ≤ 1023
    omega
  fits := h.fits
  marked := by
    intro j hj
    rw [hs]
    exact setRange_of_mem true (EcmpGroup.mem_slots.mp hj)
  base := by
    have hbase : base < 4096 := by
      have hfit := h.fits
      have hsize := h.size
      rw [L3_ECMP_ENTRIES] at hfit
      omega
    rw [ha, ecmpBasePtr, h.group.field_eq (by decide)]
    exact ecmpBasePtr_l3EcmpGroupPack count.toNat egressIds hbase
  count := by
    have hcount : count.toNat < 1024 := by
      have := h.size
      omega
    rw [ha, ecmpCount, h.group.field_eq (by decide)]
    exact ecmpCount_l3EcmpGroupPack base egressIds hcount
  members := by
    rw [ha]
    exact h.members

theorem Apart.update {groups : ℕ → Option EcmpGroup} (h : Apart groups) {id : ℕ} {g : EcmpGroup}
    (new : ∀ k g', k ≠ id → groups k = some g' → Disjoint g.slots g'.slots) :
    Apart (Function.update groups id (some g)) := by
  intro k k' e e' hne hk hk'
  by_cases hid : k = id
  · subst hid
    rw [Function.update_self] at hk
    rw [Function.update_of_ne hne.symm] at hk'
    cases hk
    exact new k' e' hne.symm hk'
  · rw [Function.update_of_ne hid] at hk
    by_cases hid' : k' = id
    · subst hid'
      rw [Function.update_self] at hk'
      cases hk'
      exact (new k e hid hk).symm
    · rw [Function.update_of_ne hid'] at hk'
      exact h k k' e e' hne hk hk'

theorem Apart.remove {groups : ℕ → Option EcmpGroup} (h : Apart groups) (id : ℕ) :
    Apart (Function.update groups id none) := by
  have hsub (k : ℕ) (e : EcmpGroup) (hk : Function.update groups id none k = some e) :
      groups k = some e := by
    by_cases hid : k = id
    · rw [hid, Function.update_self] at hk
      cases hk
    · rwa [Function.update_of_ne hid] at hk
  intro k k' e e' hne hk hk'
  exact h k k' e e' hne (hsub k e hk) (hsub k' e' hk')

theorem GroupsSound.init (a : Asic) : GroupsSound (EcmpLog.init a) where
  next := ⟨Nat.one_pos, show 1 ≤ L3_ECMP_GROUP_ENTRIES by decide⟩
  groups := Sound.empty
  apart := nofun

/-- A create returns a free id in range, or an error and the marks as they were. -/
def EcmpCreateSound (t : EcmpLog) : EcmpCall → Prop
  | .create egressIds count =>
    match l3EcmpCreate t.sdk egressIds count with
    | (_, .ok id) => (0 < id ∧ id < L3_ECMP_GROUP_ENTRIES) ∧ t.groups id = none
    | (s, .error _) =>
      s.ecmpUsed = t.sdk.ecmpUsed ∧ s.ecmpGroupUsed = t.sdk.ecmpGroupUsed
  | .destroy _ => True

/-- Every call keeps the live groups apart and as they were programmed. -/
theorem GroupsSound.step {t : EcmpLog} (h : GroupsSound t) (c : EcmpCall) :
    GroupsSound (t.step c) ∧ EcmpCreateSound t c := by
  cases c with
  | create egressIds count =>
    rcases l3EcmpCreate_cases h.next egressIds count with
      ⟨id, base, a, hnew, heq⟩ | ⟨a, next, e, hno, heq⟩
    · simp only [EcmpLog.step, EcmpCreateSound, heq]
      rw [hnew.found]
      refine ⟨⟨⟨Nat.succ_pos id, hnew.range.2⟩, h.groups.create hnew.range ?_ ?_,
        h.apart.update ?_⟩, hnew.range, h.groups.not_live hnew.unused⟩
      · intro k hk g hg
        refine hg.frame (fun j hj => ?_) (hnew.groupFrame k hk) fun j hj => ?_
        · exact (setRange_of_not_mem true (hnew.free.not_mem hj)).trans hj
        · exact hnew.memberFrame j (hnew.free.not_mem hj)
      · exact hnew.placed rfl rfl
      · intro k g' _ hg'
        rw [Finset.disjoint_left]
        intro j hj hj'
        exact hnew.free.not_mem ((h.groups.holds k g' hg').marked j hj') (EcmpGroup.mem_slots.mp hj)
    · simp only [EcmpLog.step, EcmpCreateSound, heq, and_self]
      refine ⟨⟨hno.next, h.groups.frame ?_, h.apart⟩, trivial⟩
      intro k _ g hg
      exact hg.frame (fun _ hj => hj) (hno.frame _ k (.inl (by decide)))
        fun j hj => hno.frame _ j (.inr hj)
  | destroy ecmpId =>
    refine ⟨?_, trivial⟩
    rcases l3EcmpDestroy_cases t.sdk ecmpId with ⟨a, hframe, heq⟩ | ⟨-, e, heq⟩
    · simp only [EcmpLog.step, heq]
      refine ⟨h.next, h.groups.destroy ?_, h.apart.remove _⟩
      intro k hk g hg
      exact hg.frame (fun _ hj => hj) (hframe _ k (.inr hk)) fun j _ =>
        hframe _ j (.inl (by decide))
    · simp only [EcmpLog.step, heq]
      exact h

/-- Every live group has an id of the table, its own window of slots, a descriptor
that points to the window, and its members there in order. -/
structure GroupsIsolated (t : EcmpLog) : Prop where
  range : ∀ id, t.groups id ≠ none → 0 < id ∧ id < L3_ECMP_GROUP_ENTRIES
  fits : ∀ id g, t.groups id = some g → g.basePtr + g.count ≤ L3_ECMP_ENTRIES
  apart : Apart t.groups
  decodes : ∀ id g, t.groups id = some g →
    (ecmpBasePtr (t.sdk.asic.mem L3_ECMP_GROUP_BASE id)).toNat = g.basePtr ∧
      (ecmpCount (t.sdk.asic.mem L3_ECMP_GROUP_BASE id)).toNat = g.count
  members : ∀ id g, t.groups id = some g → ∀ i < g.count,
    t.sdk.asic.mem L3_ECMP_BASE (g.basePtr + i) 0 = l3EcmpPack (g.egressIds i) ∧
      (0 ≤ g.egressIds i ∧ g.egressIds i < MAX_L3_NHOP →
        ((t.sdk.asic.mem L3_ECMP_BASE (g.basePtr + i) 0).toNat : ℤ) = g.egressIds i)

theorem GroupsSound.isolated {t : EcmpLog} (h : GroupsSound t) : GroupsIsolated t where
  range := h.groups.range
  fits := fun id g hg => (h.groups.holds id g hg).fits
  apart := h.apart
  decodes := fun id g hg => ⟨(h.groups.holds id g hg).base, (h.groups.holds id g hg).count⟩
  members := by
    intro id g hg i hi
    have hmem := (h.groups.holds id g hg).members i hi
    refine ⟨hmem, fun hid => ?_⟩
    rw [hmem, toNat_l3EcmpPack hid]

/-- Through any history and any pattern of faults the live groups are isolated, and
a create returns an id that is not live or leaves the marks as they were. -/
theorem ecmpGroups_isolated (a : Asic) (calls : List EcmpCall) :
    EachStep EcmpLog.step EcmpCreateSound (EcmpLog.init a) calls ∧
      Throughout EcmpLog.step GroupsIsolated (EcmpLog.init a) calls := by
  have hinit := GroupsSound.init a
  have keep (t : EcmpLog) (c : EcmpCall) (h : GroupsSound t) := (h.step c).1
  constructor
  · exact eachStep_of_step keep (fun t c h => (h.step c).2) hinit calls
  · exact (throughout_of_step keep hinit calls).mono fun t h => h.isolated

end OpenNos.Sdk
