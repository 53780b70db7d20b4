import OpenNos.Sdk.L3

/-! L3_DEFIP as the chip sees it, a table of ternary entries, and the invariant
that ties it to the arrays `defip_used`, `defip_prefix` and `defip_plen`: a slot
is valid exactly when it is marked, it then holds the entry of its recorded
prefix, and no prefix has two slots. Each route call is reduced to its effect on
the slots. -/

namespace OpenNos.Sdk

open Bits FirstFit

/-- A valid slot: search key, mask and next hop. -/
structure DefipEntry where
  key : BitVec 44
  mask : BitVec 44
  nhop : BitVec 14
  deriving DecidableEq

/-- The entry of a prefix. -/
def entryOf (pfx : BitVec 32) (plen : ℤ) (nhop : BitVec 14) : DefipEntry where
  key := (defipKey pfx).setWidth 44
  mask := (0x3ff#64 <<< 33 ||| (ipMask plen).setWidth 64 <<< 1 ||| 1#64).setWidth 44
  nhop := nhop

theorem defipKey_injective : Function.Injective fun p => (defipKey p).setWidth 44 := by
  intro p q h
  apply BitVec.eq_of_getLsbD_eq
  intro i hi
  have hb := congrArg (fun x => x.getLsbD (i + 1)) h
  simpa [defipKey, hi, show i + 1 < 44 by omega, show i + 1 < 64 by omega,
    show i < 64 by omega] using hb

/-- Bit `b` of the address mask: the first `plen` bits of the address count. -/
theorem getLsbD_ipMask {plen : ℤ} (b : ℕ) (hb : b < 32) :
    (ipMask plen).getLsbD b = decide (32 - plen ≤ b ∧ 0 < plen) := by
  unfold ipMask
  have hones (i : ℕ) : (0xffffffff#32).getLsbD i = decide (i < 32) := by
    rw [show (0xffffffff#32) = BitVec.allOnes 32 by decide, BitVec.getLsbD_allOnes]
  by_cases h : plen ≤ 0
  · rw [if_pos h, BitVec.getLsbD_zero, eq_comm, decide_eq_false_iff_not]
    omega
  · rw [if_neg h, BitVec.getLsbD_shiftLeft, hones, decide_eq_true hb, Bool.true_and]
    have hs : b < (32 - plen).toNat ↔ ¬ (32 - plen ≤ b ∧ 0 < plen) := by omega
    by_cases hp : 32 - plen ≤ b ∧ 0 < plen
    · rw [decide_eq_true hp, decide_eq_false (fun hlt => hs.mp hlt hp), decide_eq_true (by omega)]
      rfl
    · rw [decide_eq_false hp, decide_eq_true (hs.mpr hp)]
      rfl

theorem ipMask_injective {l l' : ℤ} (hl : 0 ≤ l ∧ l ≤ 32) (hl' : 0 ≤ l' ∧ l' ≤ 32)
    (h : ipMask l = ipMask l') : l = l' := by
  have key (b : ℕ) (hb : b < 32) : (32 - l ≤ b ∧ 0 < l) ↔ (32 - l' ≤ b ∧ 0 < l') := by
    have hbit := congrArg (fun m => m.getLsbD b) h
    simp only [getLsbD_ipMask b hb] at hbit
    exact decide_eq_decide.mp hbit
  by_contra hne
  rcases lt_or_gt_of_ne hne with hlt | hlt
  · have := key (32 - l').toNat (by omega)
    omega
  · have := key (32 - l).toNat (by omega)
    omega

theorem getLsbD_entryOf_mask (pfx : BitVec 32) (plen : ℤ) (nhop : BitVec 14) (b : ℕ) (hb : b < 32) :
    (entryOf pfx plen nhop).mask.getLsbD (b + 1) = (ipMask plen).getLsbD b := by
  have hv : (0x3ff#64 <<< 33).getLsbD (b + 1) = false := by
    rw [BitVec.getLsbD_shiftLeft]
    simp [show b + 1 < 33 by omega]
  have hm : (1#64).getLsbD (b + 1) = false := by simp
  simp only [entryOf, BitVec.getLsbD_setWidth, BitVec.getLsbD_or, hv, hm, Bool.false_or,
    Bool.or_false]
  simp [show b + 1 < 44 by omega, show b + 1 < 64 by omega]

theorem entryOf_injective {p p' : BitVec 32} {l l' : ℤ} {n n' : BitVec 14}
    (hl : 0 ≤ l ∧ l ≤ 32) (hl' : 0 ≤ l' ∧ l' ≤ 32) (h : entryOf p l n = entryOf p' l' n') :
    p = p' ∧ l = l' ∧ n = n' := by
  refine ⟨defipKey_injective (congrArg DefipEntry.key h), ?_, congrArg DefipEntry.nhop h⟩
  apply ipMask_injective hl hl'
  apply BitVec.eq_of_getLsbD_eq
  intro b hb
  have hbit := congrArg (fun e : DefipEntry => e.mask.getLsbD (b + 1)) h
  simpa only [getLsbD_entryOf_mask _ _ _ b hb] using hbit

/-! ### The table -/

/-- What the chip reads in the words of a slot. -/
def defipEntry (w : Words) : Option DefipEntry :=
  if defipValid w then
    some { key := defipKey0 w, mask := defipMask0 w, nhop := defipNhop w }
  else none

theorem defipEntry_splice (w old : Words) :
    defipEntry (splice L3_DEFIP_WORDS w old) = defipEntry w := by
  have hv : defipValid (splice L3_DEFIP_WORDS w old) = defipValid w := bit_splice w old (by decide)
  have hk : defipKey0 (splice L3_DEFIP_WORDS w old) = defipKey0 w := field_splice w old (by decide)
  have hm : defipMask0 (splice L3_DEFIP_WORDS w old) = defipMask0 w :=
    field_splice w old (by decide)
  have hn : defipNhop (splice L3_DEFIP_WORDS w old) = defipNhop w := field_splice w old (by decide)
  rw [defipEntry, defipEntry, hv, hk, hm, hn]

theorem defipEntry_defipPackV4Ucast (pfx : BitVec 32) (plen nhop : ℤ) :
    defipEntry (defipPackV4Ucast pfx plen nhop) =
      some (entryOf pfx plen (BitVec.ofInt 14 nhop)) := by
  rw [defipEntry, if_pos (defipValid_defipPackV4Ucast pfx plen nhop),
    defipKey0_defipPackV4Ucast, defipMask0_defipPackV4Ucast, defipNhop_defipPackV4Ucast]
  rfl

theorem defipEntry_zero : defipEntry (fun _ => 0#32) = none := by
  rw [defipEntry, defipValid_zero]
  rfl

def Asic.slot (a : Asic) (i : ℕ) : Option DefipEntry := defipEntry (a.mem L3_DEFIP_BASE i)

theorem slot_blank (i : ℕ) : Asic.blank.slot i = none := defipEntry_zero

/-- A valid slot for the prefix. -/
def Asic.Names (a : Asic) (i : ℕ) (pfx : BitVec 32) (plen : ℤ) : Prop :=
  ∃ nhop, a.slot i = some (entryOf pfx plen nhop)

theorem slot_store (a : Asic) (i : ℕ) (w : Words) :
    (a.store L3_DEFIP_BASE i w L3_DEFIP_WORDS).slot =
      Function.update a.slot i (defipEntry w) := by
  funext j
  by_cases hj : j = i
  · subst hj
    rw [Function.update_self, Asic.slot, Asic.store_mem_self, defipEntry_splice]
  · rw [Function.update_of_ne hj, Asic.slot, Asic.store_mem_of_ne _ _ (.inr hj), Asic.slot]

/-- A write to another table leaves the slots. -/
theorem slot_store_of_ne (a : Asic) {base : BitVec 32} (h : base ≠ L3_DEFIP_BASE) (i : ℕ)
    (w : Words) (n : ℕ) : (a.store base i w n).slot = a.slot := by
  funext j
  rw [Asic.slot, Asic.store_mem_of_ne _ _ (.inl h.symm), Asic.slot]

/-! ### The invariant of the route store -/

structure RouteStore (s : SdkState) : Prop where
  faultFree : s.asic.FaultFree
  free : ∀ i < MAX_L3_DEFIP, s.defipUsed i = false → s.asic.slot i = none
  live : ∀ i < MAX_L3_DEFIP, s.defipUsed i = true →
    ∃ nhop, s.asic.slot i = some (entryOf (s.defipPrefix i) (s.defipPlen i) nhop)
  plen : ∀ i < MAX_L3_DEFIP, s.defipUsed i = true → 0 ≤ s.defipPlen i ∧ s.defipPlen i ≤ 32
  distinct : ∀ i < MAX_L3_DEFIP, ∀ j < MAX_L3_DEFIP, s.defipUsed i = true → s.defipUsed j = true →
    s.defipPrefix i = s.defipPrefix j → s.defipPlen i = s.defipPlen j → i = j

/-- Nothing allocated, no slot valid. -/
theorem RouteStore.init {a : Asic} (hf : a.FaultFree) (hs : ∀ i < MAX_L3_DEFIP, a.slot i = none) :
    RouteStore (SdkState.init a) where
  faultFree := hf
  free := fun i hi _ => hs i hi
  live := fun _ _ h => absurd h (by simp [SdkState.init])
  plen := fun _ _ h => absurd h (by simp [SdkState.init])
  distinct := fun _ _ _ _ h => absurd h (by simp [SdkState.init])

variable {s : SdkState}

theorem RouteStore.slot_eq_none_iff (h : RouteStore s) {i : ℕ} (hi : i < MAX_L3_DEFIP) :
    s.asic.slot i = none ↔ s.defipUsed i = false := by
  constructor
  · intro hn
    by_contra hu
    obtain ⟨nhop, hs⟩ := h.live i hi (by simpa using hu)
    rw [hn] at hs
    cases hs
  · exact h.free i hi

theorem RouteStore.names_iff (h : RouteStore s) {i : ℕ} (hi : i < MAX_L3_DEFIP) {pfx : BitVec 32}
    {plen : ℤ} (hl : 0 ≤ plen ∧ plen ≤ 32) : s.asic.Names i pfx plen ↔
      s.defipUsed i = true ∧ s.defipPrefix i = pfx ∧ s.defipPlen i = plen := by
  constructor
  · rintro ⟨nhop, hs⟩
    have hu : s.defipUsed i = true := by
      by_contra hu
      rw [h.free i hi (by simpa using hu)] at hs
      cases hs
    obtain ⟨nhop', hs'⟩ := h.live i hi hu
    rw [hs'] at hs
    obtain ⟨hp, hq, -⟩ := entryOf_injective (h.plen i hi hu) hl (Option.some.inj hs)
    exact ⟨hu, hp, hq⟩
  · rintro ⟨hu, rfl, rfl⟩
    exact h.live i hi hu

/-- A prefix has one slot at most. -/
theorem RouteStore.names_unique (h : RouteStore s) {i j : ℕ} (hi : i < MAX_L3_DEFIP)
    (hj : j < MAX_L3_DEFIP) {pfx : BitVec 32} {plen : ℤ} (hl : 0 ≤ plen ∧ plen ≤ 32)
    (hni : s.asic.Names i pfx plen) (hnj : s.asic.Names j pfx plen) : i = j := by
  obtain ⟨hui, hpi, hli⟩ := (h.names_iff hi hl).mp hni
  obtain ⟨huj, hpj, hlj⟩ := (h.names_iff hj hl).mp hnj
  exact h.distinct i hi j hj hui huj (hpi.trans hpj.symm) (hli.trans hlj.symm)

theorem RouteStore.defipFind_eq_some (h : RouteStore s) {i : ℕ} {pfx : BitVec 32} {plen : ℤ}
    (hl : 0 ≤ plen ∧ plen ≤ 32) (hf : defipFind s pfx plen = some i) :
    i < MAX_L3_DEFIP ∧ s.asic.Names i pfx plen := by
  obtain ⟨⟨-, hi⟩, hm, -⟩ := findFirst_eq_some_iff.mp hf
  simp only [Bool.and_eq_true, beq_iff_eq] at hm
  exact ⟨hi, (h.names_iff hi hl).mpr ⟨hm.1.1, hm.1.2, hm.2⟩⟩

theorem RouteStore.defipFind_eq_none (h : RouteStore s) {pfx : BitVec 32} {plen : ℤ}
    (hl : 0 ≤ plen ∧ plen ≤ 32) (hf : defipFind s pfx plen = none) :
    ∀ i < MAX_L3_DEFIP, ¬ s.asic.Names i pfx plen := by
  intro i hi hn
  obtain ⟨hu, hp, hq⟩ := (h.names_iff hi hl).mp hn
  have hm := findFirst_eq_none_iff.mp hf i (Nat.zero_le i) hi
  simp [hu, hp, hq] at hm

/-! ### The effect of the route calls -/

/-- The route is written to slot `i`, which is recorded for it. -/
def SdkState.withRoute (s : SdkState) (i : ℕ) (r : L3Route) : SdkState :=
  let w := defipPackV4Ucast r.pfx r.prefixLen r.egressId
  { s with
    asic := s.asic.store L3_DEFIP_BASE i w L3_DEFIP_WORDS
    defipUsed := Function.update s.defipUsed i true
    defipPrefix := Function.update s.defipPrefix i r.pfx
    defipPlen := Function.update s.defipPlen i r.prefixLen }

/-- Slot `i` is cleared. -/
def SdkState.withoutRoute (s : SdkState) (i : ℕ) : SdkState :=
  { s with
    asic := s.asic.store L3_DEFIP_BASE i (fun _ => 0#32) L3_DEFIP_WORDS
    defipUsed := Function.update s.defipUsed i false
    defipPrefix := Function.update s.defipPrefix i 0
    defipPlen := Function.update s.defipPlen i 0 }

@[simp] theorem slot_withRoute (s : SdkState) (i : ℕ) (r : L3Route) : (s.withRoute i r).asic.slot =
    Function.update s.asic.slot i
      (some (entryOf r.pfx r.prefixLen (BitVec.ofInt 14 r.egressId))) := by
  rw [SdkState.withRoute, slot_store, defipEntry_defipPackV4Ucast]

@[simp] theorem slot_withoutRoute (s : SdkState) (i : ℕ) :
    (s.withoutRoute i).asic.slot = Function.update s.asic.slot i none := by
  rw [SdkState.withoutRoute, slot_store, defipEntry_zero]

@[simp] theorem withRoute_defipUsed (s : SdkState) (i : ℕ) (r : L3Route) :
    (s.withRoute i r).defipUsed = Function.update s.defipUsed i true := rfl

@[simp] theorem withRoute_defipPrefix (s : SdkState) (i : ℕ) (r : L3Route) :
    (s.withRoute i r).defipPrefix = Function.update s.defipPrefix i r.pfx := rfl

@[simp] theorem withRoute_defipPlen (s : SdkState) (i : ℕ) (r : L3Route) :
    (s.withRoute i r).defipPlen = Function.update s.defipPlen i r.prefixLen := rfl

@[simp] theorem withoutRoute_defipUsed (s : SdkState) (i : ℕ) :
    (s.withoutRoute i).defipUsed = Function.update s.defipUsed i false := rfl

@[simp] theorem withoutRoute_defipPrefix (s : SdkState) (i : ℕ) :
    (s.withoutRoute i).defipPrefix = Function.update s.defipPrefix i 0 := rfl

@[simp] theorem withoutRoute_defipPlen (s : SdkState) (i : ℕ) :
    (s.withoutRoute i).defipPlen = Function.update s.defipPlen i 0 := rfl

/-- The routes `l3RouteAdd` takes. -/
def L3Route.Accepted (r : L3Route) : Prop :=
  r.isIpv6 = false ∧ (0 ≤ r.prefixLen ∧ r.prefixLen ≤ 32) ∧
    0 < r.egressId ∧ r.egressId < MAX_L3_NHOP

instance (r : L3Route) : Decidable r.Accepted := by unfold L3Route.Accepted; infer_instance

/-- The prefixes `l3RouteDelete` takes. -/
def L3Route.Deletable (r : L3Route) : Prop :=
  r.isIpv6 = false ∧ 0 ≤ r.prefixLen ∧ r.prefixLen ≤ 32

instance (r : L3Route) : Decidable r.Deletable := by unfold L3Route.Deletable; infer_instance

variable {r : L3Route}

theorem l3RouteAdd_of_rejected (s : SdkState) (hr : ¬ r.Accepted) :
    ∃ e, l3RouteAdd s r = (s, .error e) := by
  unfold l3RouteAdd
  by_cases h6 : r.isIpv6 = true
  · exact ⟨_, if_pos h6⟩
  by_cases hl : r.prefixLen < 0 ∨ 32 < r.prefixLen
  · exact ⟨_, (if_neg h6).trans (if_pos hl)⟩
  by_cases he : r.egressId ≤ 0 ∨ (MAX_L3_NHOP : ℤ) ≤ r.egressId
  · exact ⟨_, (if_neg h6).trans ((if_neg hl).trans (if_pos he))⟩
  · exact absurd ⟨by simpa using h6, by omega, by omega⟩ hr

theorem l3DefipWrite_of_faultFree (hf : s.asic.FaultFree) (i : ℕ) (w : Words) :
    l3DefipWrite s i w =
      ({ s with asic := s.asic.store L3_DEFIP_BASE i w L3_DEFIP_WORDS }, true) := by
  rw [l3DefipWrite, hf.memWrite]

/-- An accepted route is written to the slot found for it. -/
theorem l3RouteAdd_of_defipSlot (hr : r.Accepted) {s' : SdkState} {i : ℕ}
    (hi : defipSlot s r.pfx r.prefixLen = some (s', i)) (hf : s'.asic.FaultFree) :
    l3RouteAdd s r =
      let w := defipPackV4Ucast r.pfx r.prefixLen r.egressId
      ({ s' with asic := s'.asic.store L3_DEFIP_BASE i w L3_DEFIP_WORDS }, .ok ()) := by
  obtain ⟨h6, hl, he⟩ := hr
  rw [l3RouteAdd, if_neg (by simp [h6]), if_neg (by omega), if_neg (by omega)]
  simp only [ntohl, hi, l3DefipWrite_of_faultFree hf]

theorem defipFind_of_names (h : RouteStore s) {pfx : BitVec 32} {plen : ℤ}
    (hl : 0 ≤ plen ∧ plen ≤ 32) {i : ℕ} (hi : i < MAX_L3_DEFIP) (hn : s.asic.Names i pfx plen) :
    defipFind s pfx plen = some i := by
  cases hf : defipFind s pfx plen with
  | none => exact absurd hn (h.defipFind_eq_none hl hf i hi)
  | some j =>
    obtain ⟨hj, hnj⟩ := h.defipFind_eq_some hl hf
    rw [h.names_unique hj hi hl hnj hn]

theorem defipFind_of_absent (h : RouteStore s) {pfx : BitVec 32} {plen : ℤ}
    (hl : 0 ≤ plen ∧ plen ≤ 32) (hno : ∀ j < MAX_L3_DEFIP, ¬ s.asic.Names j pfx plen) :
    defipFind s pfx plen = none := by
  cases hf : defipFind s pfx plen with
  | none => rfl
  | some j =>
    obtain ⟨hj, hnj⟩ := h.defipFind_eq_some hl hf
    exact absurd hnj (hno j hj)

/-- A prefix that has a slot keeps it. -/
theorem l3RouteAdd_of_names (h : RouteStore s) (hr : r.Accepted) {i : ℕ} (hi : i < MAX_L3_DEFIP)
    (hn : s.asic.Names i r.pfx r.prefixLen) : l3RouteAdd s r = (s.withRoute i r, .ok ()) := by
  obtain ⟨hu, hp, hl⟩ := (h.names_iff hi hr.2.1).mp hn
  have hslot : defipSlot s r.pfx r.prefixLen = some (s, i) := by
    rw [defipSlot, defipFind_of_names h hr.2.1 hi hn]
  rw [l3RouteAdd_of_defipSlot hr hslot h.faultFree]
  simp only [SdkState.withRoute, ← hu, ← hp, ← hl, Function.update_eq_self]

/-- A new prefix takes the lowest free slot. -/
theorem l3RouteAdd_of_firstFree (h : RouteStore s) (hr : r.Accepted)
    (hno : ∀ j < MAX_L3_DEFIP, ¬ s.asic.Names j r.pfx r.prefixLen) {i : ℕ}
    (hi : firstFree s.defipUsed 0 MAX_L3_DEFIP = some i) :
    l3RouteAdd s r = (s.withRoute i r, .ok ()) := by
  have hslot : defipSlot s r.pfx r.prefixLen = some
      ({ s with
          defipUsed := Function.update s.defipUsed i true
          defipPrefix := Function.update s.defipPrefix i r.pfx
          defipPlen := Function.update s.defipPlen i r.prefixLen }, i) := by
    rw [defipSlot, defipFind_of_absent h hr.2.1 hno, allocId, hi]
    rfl
  exact l3RouteAdd_of_defipSlot hr hslot h.faultFree

/-- A new prefix finds no room in a full table. -/
theorem l3RouteAdd_of_full (h : RouteStore s) (hr : r.Accepted)
    (hno : ∀ j < MAX_L3_DEFIP, ¬ s.asic.Names j r.pfx r.prefixLen)
    (hfull : firstFree s.defipUsed 0 MAX_L3_DEFIP = none) :
    l3RouteAdd s r = (s, .error .enospc) := by
  obtain ⟨h6, hl, he⟩ := hr
  have hslot : defipSlot s r.pfx r.prefixLen = none := by
    rw [defipSlot, defipFind_of_absent h hl hno, allocId, hfull]
    rfl
  rw [l3RouteAdd, if_neg (by simp [h6]), if_neg (by omega), if_neg (by omega)]
  simp only [ntohl, hslot]

/-- An accepted route is written to its own slot, or to a free one if it has none;
it is refused when there is neither. -/
theorem l3RouteAdd_cases (h : RouteStore s) (hr : r.Accepted) :
    (∃ i < MAX_L3_DEFIP, (∀ j < MAX_L3_DEFIP, s.asic.Names j r.pfx r.prefixLen → j = i) ∧
        (s.asic.Names i r.pfx r.prefixLen ∨ s.asic.slot i = none) ∧
        l3RouteAdd s r = (s.withRoute i r, .ok ())) ∨
      (∀ j < MAX_L3_DEFIP, ¬ s.asic.Names j r.pfx r.prefixLen) ∧
        (∀ j < MAX_L3_DEFIP, s.asic.slot j ≠ none) ∧ l3RouteAdd s r = (s, .error .enospc) := by
  by_cases hex : ∃ i < MAX_L3_DEFIP, s.asic.Names i r.pfx r.prefixLen
  · obtain ⟨i, hi, hn⟩ := hex
    left
    exact ⟨i, hi, fun j hj hnj => h.names_unique hj hi hr.2.1 hnj hn, .inl hn,
      l3RouteAdd_of_names h hr hi hn⟩
  have hno : ∀ j < MAX_L3_DEFIP, ¬ s.asic.Names j r.pfx r.prefixLen :=
    fun j hj hn => hex ⟨j, hj, hn⟩
  cases hff : firstFree s.defipUsed 0 MAX_L3_DEFIP with
  | none =>
    right
    refine ⟨hno, ?_, l3RouteAdd_of_full h hr hno hff⟩
    intro j hj hn
    have hu := firstFree_eq_none_iff.mp hff j (Nat.zero_le j) hj
    rw [(h.slot_eq_none_iff hj).mp hn] at hu
    cases hu
  | some i =>
    left
    have hi := (firstFree_mem hff).2
    exact ⟨i, hi, fun j hj hn => absurd hn (hno j hj), .inr (h.free i hi (firstFree_free hff)),
      l3RouteAdd_of_firstFree h hr hno hff⟩

theorem l3RouteDelete_of_rejected (s : SdkState) (hr : ¬ r.Deletable) :
    ∃ e, l3RouteDelete s r = (s, .error e) := by
  unfold l3RouteDelete
  by_cases h6 : r.isIpv6 = true
  · exact ⟨_, if_pos h6⟩
  by_cases hl : r.prefixLen < 0 ∨ 32 < r.prefixLen
  · exact ⟨_, (if_neg h6).trans (if_pos hl)⟩
  · exact absurd ⟨by simpa using h6, by omega⟩ hr

/-- A delete with valid arguments returns 0, whatever it finds. -/
theorem l3RouteDelete_snd (s : SdkState) (hr : r.Deletable) : (l3RouteDelete s r).2 = .ok () := by
  obtain ⟨h6, hl⟩ := hr
  rw [l3RouteDelete, if_neg (by simp [h6]), if_neg (by omega)]
  cases defipFind s (ntohl r.pfx) r.prefixLen with
  | none => rfl
  | some i => rfl

theorem l3RouteDelete_of_absent (h : RouteStore s) (hr : r.Deletable)
    (hno : ∀ j < MAX_L3_DEFIP, ¬ s.asic.Names j r.pfx r.prefixLen) :
    l3RouteDelete s r = (s, .ok ()) := by
  obtain ⟨h6, hl⟩ := hr
  rw [l3RouteDelete, if_neg (by simp [h6]), if_neg (by omega), ntohl, defipFind_of_absent h hl hno]

theorem l3RouteDelete_of_names (h : RouteStore s) (hr : r.Deletable) {i : ℕ}
    (hi : i < MAX_L3_DEFIP) (hn : s.asic.Names i r.pfx r.prefixLen) :
    l3RouteDelete s r = (s.withoutRoute i, .ok ()) := by
  obtain ⟨h6, hl⟩ := hr
  rw [l3RouteDelete, if_neg (by simp [h6]), if_neg (by omega), ntohl, defipFind_of_names h hl hi hn]
  simp only [l3DefipWrite_of_faultFree h.faultFree]
  rfl

/-- A delete clears the slot of its prefix, or does nothing. -/
theorem l3RouteDelete_cases (h : RouteStore s) (r : L3Route) :
    (∃ i < MAX_L3_DEFIP, r.Deletable ∧ s.asic.Names i r.pfx r.prefixLen ∧
        (l3RouteDelete s r).1 = s.withoutRoute i) ∨
      (r.Deletable → ∀ i < MAX_L3_DEFIP, ¬ s.asic.Names i r.pfx r.prefixLen) ∧
        (l3RouteDelete s r).1 = s := by
  by_cases hr : r.Deletable
  swap
  · obtain ⟨e, he⟩ := l3RouteDelete_of_rejected s hr
    exact .inr ⟨fun h => absurd h hr, by rw [he]⟩
  by_cases hex : ∃ i < MAX_L3_DEFIP, s.asic.Names i r.pfx r.prefixLen
  · obtain ⟨i, hi, hn⟩ := hex
    exact .inl ⟨i, hi, hr, hn, by rw [l3RouteDelete_of_names h hr hi hn]⟩
  · have hno : ∀ i < MAX_L3_DEFIP, ¬ s.asic.Names i r.pfx r.prefixLen :=
      fun i hi hn => hex ⟨i, hi, hn⟩
    exact .inr ⟨fun _ => hno, by rw [l3RouteDelete_of_absent h hr hno]⟩

theorem RouteStore.withRoute (h : RouteStore s) {i : ℕ} (hl : 0 ≤ r.prefixLen ∧ r.prefixLen ≤ 32)
    (hslot : ∀ j < MAX_L3_DEFIP, s.asic.Names j r.pfx r.prefixLen → j = i) :
    RouteStore (s.withRoute i r) where
  faultFree := h.faultFree
  free := by
    intro j hj hu
    rcases eq_or_ne j i with rfl | hne
    · simp at hu
    · rw [slot_withRoute, Function.update_of_ne hne]
      exact h.free j hj (by simpa [hne] using hu)
  live := by
    intro j hj hu
    rcases eq_or_ne j i with rfl | hne
    · refine ⟨BitVec.ofInt 14 r.egressId, ?_⟩
      rw [slot_withRoute, Function.update_self]
      simp
    · rw [slot_withRoute, Function.update_of_ne hne]
      simpa [hne] using h.live j hj (by simpa [hne] using hu)
  plen := by
    intro j hj hu
    rcases eq_or_ne j i with rfl | hne
    · simpa using hl
    · simpa [hne] using h.plen j hj (by simpa [hne] using hu)
  distinct := by
    -- another slot with the prefix of slot `i` would have named it before
    have hother (j : ℕ) (hj : j < MAX_L3_DEFIP) (hne : j ≠ i) (hu : s.defipUsed j = true)
        (hp : s.defipPrefix j = r.pfx) (hq : s.defipPlen j = r.prefixLen) : False :=
      hne (hslot j hj ((h.names_iff hj hl).mpr ⟨hu, hp, hq⟩))
    intro j hj k hk huj huk hp hq
    by_cases hji : j = i <;> by_cases hki : k = i
    · exact hji.trans hki.symm
    · simp [hji, hki] at huk hp hq
      exact (hother k hk hki huk hp.symm hq.symm).elim
    · simp [hji, hki] at huj hp hq
      exact (hother j hj hji huj hp hq).elim
    · simp [hji, hki] at huj huk hp hq
      exact h.distinct j hj k hk huj huk hp hq

theorem RouteStore.withoutRoute (h : RouteStore s) (i : ℕ) : RouteStore (s.withoutRoute i) where
  faultFree := h.faultFree
  free := by
    intro j hj hu
    rcases eq_or_ne j i with rfl | hne
    · rw [slot_withoutRoute, Function.update_self]
    · rw [slot_withoutRoute, Function.update_of_ne hne]
      exact h.free j hj (by simpa [hne] using hu)
  live := by
    intro j hj hu
    have hne : j ≠ i := by rintro rfl; simp at hu
    rw [slot_withoutRoute, Function.update_of_ne hne]
    simpa [hne] using h.live j hj (by simpa [hne] using hu)
  plen := by
    intro j hj hu
    have hne : j ≠ i := by rintro rfl; simp at hu
    simpa [hne] using h.plen j hj (by simpa [hne] using hu)
  distinct := by
    intro j hj k hk huj huk hp hq
    have hji : j ≠ i := by rintro rfl; simp at huj
    have hki : k ≠ i := by rintro rfl; simp at huk
    simp [hji, hki] at huj huk hp hq
    exact h.distinct j hj k hk huj huk hp hq

end OpenNos.Sdk
