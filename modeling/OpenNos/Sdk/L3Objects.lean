import OpenNos.Lib.History
import OpenNos.Lib.Registry
import OpenNos.Sdk.L3

/-! The store of L3 interfaces and next hops when table writes fail. A create
takes a free id, writes the entries under it and gives the id back when a write
fails; a destroy clears the entries and the mark. Beside the SDK stands the log of
what each live id was created with. -/

namespace OpenNos.Sdk

open Bits FirstFit History Registry

inductive L3ObjectCall
  | intfCreate (mac : Mac) (vid : BitVec 16)
  | intfDestroy (intfId : ℤ)
  | egressCreate (egress : L3Egress)
  | egressDestroy (egressId : ℤ)

/-- The SDK, and the arguments of the create behind every live id. -/
structure L3Log where
  sdk : SdkState
  intfs : ℕ → Option (Mac × BitVec 16)
  hops : ℕ → Option L3Egress

def L3Log.init (a : Asic) : L3Log where
  sdk := SdkState.init a
  intfs := fun _ => none
  hops := fun _ => none

namespace L3Log

/-- A create that returns an id makes it live, a destroy that returns 0 ends it. -/
def step (t : L3Log) : L3ObjectCall → L3Log
  | .intfCreate mac vid =>
    match l3IntfCreate t.sdk mac vid with
    | (s, .ok id) => { t with sdk := s, intfs := Function.update t.intfs id (some (mac, vid)) }
    | (s, .error _) => { t with sdk := s }
  | .intfDestroy intfId =>
    match l3IntfDestroy t.sdk intfId with
    | (s, .ok ()) => { t with sdk := s, intfs := Function.update t.intfs intfId.toNat none }
    | (s, .error _) => { t with sdk := s }
  | .egressCreate egress =>
    match l3EgressCreate t.sdk egress with
    | (s, .ok id) => { t with sdk := s, hops := Function.update t.hops id (some egress) }
    | (s, .error _) => { t with sdk := s }
  | .egressDestroy egressId =>
    match l3EgressDestroy t.sdk egressId with
    | (s, .ok ()) => { t with sdk := s, hops := Function.update t.hops egressId.toNat none }
    | (s, .error _) => { t with sdk := s }

end L3Log

/-- The entry of an interface holds what its create packed. -/
def IntfWritten (a : Asic) (id : ℕ) (x : Mac × BitVec 16) : Prop :=
  a.Holds EGR_L3_INTF_BASE id EGR_L3_INTF_WORDS (egrL3IntfPack x.1 x.2)

/-- The two entries of a next hop hold what its create packed. -/
def HopWritten (a : Asic) (id : ℕ) (e : L3Egress) : Prop :=
  a.Holds ING_L3_NEXT_HOP_BASE id ING_L3_NEXT_HOP_WORDS (ingL3NhopPack e.port) ∧
    a.Holds EGR_L3_NEXT_HOP_BASE id EGR_L3_NEXT_HOP_WORDS (egrL3NhopPack e.mac e.intfId)

/-- The live interfaces and next hops against the marks and the chip. -/
structure ObjectsSound (t : L3Log) : Prop where
  intfs : Sound MAX_L3_INTF t.sdk.intfUsed t.intfs (IntfWritten t.sdk.asic)
  hops : Sound MAX_L3_NHOP t.sdk.nhopUsed t.hops (HopWritten t.sdk.asic)

/-- A create returns an id in range that is not live, or an error and the marks as
they were. -/
def CreateSound (t : L3Log) : L3ObjectCall → Prop
  | .intfCreate mac vid =>
    match l3IntfCreate t.sdk mac vid with
    | (_, .ok id) => (0 < id ∧ id < MAX_L3_INTF) ∧ t.intfs id = none
    | (s, .error _) => s.intfUsed = t.sdk.intfUsed ∧ s.nhopUsed = t.sdk.nhopUsed
  | .egressCreate egress =>
    match l3EgressCreate t.sdk egress with
    | (_, .ok id) => (0 < id ∧ id < MAX_L3_NHOP) ∧ t.hops id = none
    | (s, .error _) => s.intfUsed = t.sdk.intfUsed ∧ s.nhopUsed = t.sdk.nhopUsed
  | .intfDestroy _ => True
  | .egressDestroy _ => True

variable {s : SdkState}

/-! ### The marks -/

theorem allocId_cases (used : ℕ → Bool) (max : ℕ) : allocId used max 1 = none ∨
    ∃ id, (0 < id ∧ id < max) ∧ used id = false ∧
      allocId used max 1 = some (id, Function.update used id true) := by
  rw [allocId]
  cases h : firstFree used 1 max with
  | none => exact .inl rfl
  | some id => exact .inr ⟨id, firstFree_mem h, firstFree_free h, rfl⟩

/-- An id given back right after it was taken. -/
theorem freeId_alloc {used : ℕ → Bool} {max id : ℕ} (hid : 0 < id ∧ id < max)
    (hfree : used id = false) : freeId (Function.update used id true) max id = used := by
  rw [freeId, if_pos (by omega), Int.toNat_natCast, Function.update_idem, ← hfree,
    Function.update_eq_self]

theorem freeId_of_range {used : ℕ → Bool} {max : ℕ} {id : ℤ} (h : ¬ (id ≤ 0 ∨ (max : ℤ) ≤ id)) :
    freeId used max id = Function.update used id.toNat false := by
  rw [freeId, if_pos (by omega)]

/-! ### What each call does -/

theorem l3IntfCreate_cases (s : SdkState) (mac : Mac) (vid : BitVec 16) :
    (∃ id a, (0 < id ∧ id < MAX_L3_INTF) ∧ s.intfUsed id = false ∧
      (∀ base j, base ≠ EGR_L3_INTF_BASE ∨ j ≠ id → a.mem base j = s.asic.mem base j) ∧
      IntfWritten a id (mac, vid) ∧
      l3IntfCreate s mac vid =
        ({ s with asic := a, intfUsed := Function.update s.intfUsed id true }, .ok id)) ∨
    ∃ a e, a.mem = s.asic.mem ∧ l3IntfCreate s mac vid = ({ s with asic := a }, .error e) := by
  rw [l3IntfCreate]
  rcases allocId_cases s.intfUsed MAX_L3_INTF with hfull | ⟨id, hid, hfree, halloc⟩
  · rw [hfull]
    exact .inr ⟨s.asic, .enospc, rfl, rfl⟩
  · rw [halloc]
    cases hf : s.asic.fault 0 with
    | true =>
      simp only [Asic.memWrite_of_fault hf, freeId_alloc hid hfree]
      exact .inr ⟨s.asic.tick, .eio, rfl, rfl⟩
    | false =>
      simp only [Asic.memWrite_of_not_fault hf]
      refine .inl ⟨id, _, hid, hfree, fun base j h => ?_, Asic.holds_store_self _ _ _ _, rfl⟩
      exact Asic.store_mem_of_ne _ _ h

theorem l3IntfDestroy_cases (s : SdkState) (intfId : ℤ) :
    (∃ a, (∀ base j, base ≠ EGR_L3_INTF_BASE ∨ j ≠ intfId.toNat →
        a.mem base j = s.asic.mem base j) ∧
      l3IntfDestroy s intfId =
        ({ s with
            asic := a
            intfUsed := Function.update s.intfUsed intfId.toNat false }, .ok ())) ∨
    ∃ e, l3IntfDestroy s intfId = (s, .error e) := by
  rw [l3IntfDestroy]
  by_cases hid : intfId ≤ 0 ∨ (MAX_L3_INTF : ℤ) ≤ intfId
  · rw [if_pos hid]
    exact .inr ⟨.einval, rfl⟩
  · rw [if_neg hid, freeId_of_range hid]
    exact .inl ⟨_, fun base j h => Asic.memWrite_mem_of_ne _ _ h, rfl⟩

theorem l3EgressCreate_cases (s : SdkState) (egress : L3Egress) :
    (∃ id a, (0 < id ∧ id < MAX_L3_NHOP) ∧ s.nhopUsed id = false ∧
      (∀ base j, base ≠ ING_L3_NEXT_HOP_BASE ∧ base ≠ EGR_L3_NEXT_HOP_BASE ∨ j ≠ id →
        a.mem base j = s.asic.mem base j) ∧
      HopWritten a id egress ∧
      l3EgressCreate s egress =
        ({ s with asic := a, nhopUsed := Function.update s.nhopUsed id true }, .ok id)) ∨
    ∃ a e, (∀ base j, base ≠ ING_L3_NEXT_HOP_BASE ∨ s.nhopUsed j = true →
        a.mem base j = s.asic.mem base j) ∧
      l3EgressCreate s egress = ({ s with asic := a }, .error e) := by
  rw [l3EgressCreate]
  by_cases hport : egress.port ≤ 0 ∨ 255 < egress.port
  · rw [if_pos hport]
    exact .inr ⟨s.asic, .einval, fun _ _ _ => rfl, rfl⟩
  rw [if_neg hport]
  by_cases hintf : egress.intfId ≤ 0 ∨ (MAX_L3_INTF : ℤ) ≤ egress.intfId
  · rw [if_pos hintf]
    exact .inr ⟨s.asic, .einval, fun _ _ _ => rfl, rfl⟩
  rw [if_neg hintf]
  rcases allocId_cases s.nhopUsed MAX_L3_NHOP with hfull | ⟨id, hid, hfree, halloc⟩
  · rw [hfull]
    exact .inr ⟨s.asic, .enospc, fun _ _ _ => rfl, rfl⟩
  rw [halloc]
  cases hf : s.asic.fault 0 with
  | true =>
    simp only [Asic.memWrite_of_fault hf, freeId_alloc hid hfree]
    exact .inr ⟨s.asic.tick, .eio, fun _ _ _ => rfl, rfl⟩
  | false =>
    simp only [Asic.memWrite_of_not_fault hf]
    cases hf' : (s.asic.tick.store ING_L3_NEXT_HOP_BASE id (ingL3NhopPack egress.port)
        ING_L3_NEXT_HOP_WORDS).fault 0 with
    | true =>
      -- the first entry is written, but under an id that stays free
      simp only [Asic.memWrite_of_fault hf', freeId_alloc hid hfree]
      refine .inr ⟨_, .eio, fun base j h => ?_, rfl⟩
      refine Asic.store_mem_of_ne _ _ (h.imp_right fun hused hj => ?_)
      rw [hj, hfree] at hused
      cases hused
    | false =>
      simp only [Asic.memWrite_of_not_fault hf']
      refine .inl ⟨id, _, hid, hfree, fun base j h => ?_, ⟨?_, ?_⟩, rfl⟩
      · rw [Asic.store_mem_of_ne _ _ (h.imp_left And.right)]
        exact Asic.store_mem_of_ne _ _ (h.imp_left And.left)
      · rw [Asic.holds_store_of_ne _ (.inl ingNhop_ne_egrNhop), Asic.holds_tick]
        exact Asic.holds_store_self _ _ _ _
      · exact Asic.holds_store_self _ _ _ _

theorem l3EgressDestroy_cases (s : SdkState) (egressId : ℤ) :
    (∃ a, (∀ base j, base ≠ ING_L3_NEXT_HOP_BASE ∧ base ≠ EGR_L3_NEXT_HOP_BASE ∨
        j ≠ egressId.toNat → a.mem base j = s.asic.mem base j) ∧
      l3EgressDestroy s egressId =
        ({ s with
            asic := a
            nhopUsed := Function.update s.nhopUsed egressId.toNat false }, .ok ())) ∨
    ∃ e, l3EgressDestroy s egressId = (s, .error e) := by
  rw [l3EgressDestroy]
  by_cases hid : egressId ≤ 0 ∨ (MAX_L3_NHOP : ℤ) ≤ egressId
  · rw [if_pos hid]
    exact .inr ⟨.einval, rfl⟩
  · rw [if_neg hid, freeId_of_range hid]
    refine .inl ⟨_, fun base j h => ?_, rfl⟩
    rw [Asic.memWrite_mem_of_ne _ _ (h.imp_left And.right)]
    exact Asic.memWrite_mem_of_ne _ _ (h.imp_left And.left)

/-! ### One call -/

/-- The entry of an interface is where it was. -/
theorem IntfWritten.frame {a a' : Asic} {id : ℕ} {x : Mac × BitVec 16}
    (h : a'.mem EGR_L3_INTF_BASE id = a.mem EGR_L3_INTF_BASE id) (hx : IntfWritten a id x) :
    IntfWritten a' id x := by
  intro j hj
  rw [h]
  exact hx j hj

/-- The entries of a next hop are where they were. -/
theorem HopWritten.frame {a a' : Asic} {id : ℕ} {e : L3Egress}
    (hi : a'.mem ING_L3_NEXT_HOP_BASE id = a.mem ING_L3_NEXT_HOP_BASE id)
    (he : a'.mem EGR_L3_NEXT_HOP_BASE id = a.mem EGR_L3_NEXT_HOP_BASE id)
    (hx : HopWritten a id e) : HopWritten a' id e := by
  constructor
  · intro j hj
    rw [hi]
    exact hx.1 j hj
  · intro j hj
    rw [he]
    exact hx.2 j hj

/-- A call that writes no more than one interface entry leaves the next hops. -/
theorem HopWritten.kept_by_intf {a a' : Asic} {id : ℕ}
    (hframe : ∀ base j, base ≠ EGR_L3_INTF_BASE ∨ j ≠ id → a'.mem base j = a.mem base j) {k : ℕ}
    {e : L3Egress} (hx : HopWritten a k e) : HopWritten a' k e :=
  hx.frame (hframe _ k (.inl intf_ne_ingNhop.symm)) (hframe _ k (.inl intf_ne_egrNhop.symm))

/-- One that writes no more than the entries of one next hop leaves the others and the
interfaces. -/
theorem IntfWritten.kept_by_egress {a a' : Asic} {id : ℕ}
    (hframe : ∀ base j, base ≠ ING_L3_NEXT_HOP_BASE ∧ base ≠ EGR_L3_NEXT_HOP_BASE ∨ j ≠ id →
      a'.mem base j = a.mem base j) {k : ℕ} {x : Mac × BitVec 16} (hx : IntfWritten a k x) :
    IntfWritten a' k x :=
  hx.frame (hframe _ k (.inl ⟨intf_ne_ingNhop, intf_ne_egrNhop⟩))

theorem HopWritten.kept_by_egress {a a' : Asic} {id : ℕ}
    (hframe : ∀ base j, base ≠ ING_L3_NEXT_HOP_BASE ∧ base ≠ EGR_L3_NEXT_HOP_BASE ∨ j ≠ id →
      a'.mem base j = a.mem base j) {k : ℕ} (hk : k ≠ id) {e : L3Egress}
    (hx : HopWritten a k e) : HopWritten a' k e :=
  hx.frame (hframe _ k (.inr hk)) (hframe _ k (.inr hk))

theorem ObjectsSound.init (a : Asic) : ObjectsSound (L3Log.init a) := ⟨Sound.empty, Sound.empty⟩

section Calls

variable {t : L3Log} (h : ObjectsSound t)

include h

theorem ObjectsSound.intfCreate (mac : Mac) (vid : BitVec 16) :
    ObjectsSound (t.step (.intfCreate mac vid)) ∧ CreateSound t (.intfCreate mac vid) := by
  rcases l3IntfCreate_cases t.sdk mac vid with
    ⟨id, a, hid, hfree, hframe, hnew, heq⟩ | ⟨a, e, hmem, heq⟩
  · simp only [L3Log.step, CreateSound, heq]
    refine ⟨⟨h.intfs.create hid ?_ hnew, h.hops.frame ?_⟩, hid, h.intfs.not_live hfree⟩
    · intro k hk x hx
      exact hx.frame (hframe _ k (.inr hk))
    · intro k _ x hx
      exact hx.kept_by_intf hframe
  · simp only [L3Log.step, CreateSound, heq, and_self]
    refine ⟨⟨h.intfs.frame ?_, h.hops.frame ?_⟩, trivial⟩
    · intro k _ x hx
      exact hx.frame (by rw [hmem])
    · intro k _ x hx
      exact hx.frame (by rw [hmem]) (by rw [hmem])

theorem ObjectsSound.intfDestroy (intfId : ℤ) : ObjectsSound (t.step (.intfDestroy intfId)) := by
  rcases l3IntfDestroy_cases t.sdk intfId with ⟨a, hframe, heq⟩ | ⟨e, heq⟩
  · simp only [L3Log.step, heq]
    refine ⟨h.intfs.destroy ?_, h.hops.frame ?_⟩
    · intro k hk x hx
      exact hx.frame (hframe _ k (.inr hk))
    · intro k _ x hx
      exact hx.kept_by_intf hframe
  · simp only [L3Log.step, heq]
    exact h

theorem ObjectsSound.egressCreate (egress : L3Egress) :
    ObjectsSound (t.step (.egressCreate egress)) ∧ CreateSound t (.egressCreate egress) := by
  rcases l3EgressCreate_cases t.sdk egress with
    ⟨id, a, hid, hfree, hframe, hnew, heq⟩ | ⟨a, e, hframe, heq⟩
  · simp only [L3Log.step, CreateSound, heq]
    refine ⟨⟨h.intfs.frame ?_, h.hops.create hid ?_ hnew⟩, hid, h.hops.not_live hfree⟩
    · intro k _ x hx
      exact hx.kept_by_egress hframe
    · intro k hk x hx
      exact hx.kept_by_egress hframe hk
  · simp only [L3Log.step, CreateSound, heq, and_self]
    refine ⟨⟨h.intfs.frame ?_, h.hops.frame ?_⟩, trivial⟩
    · intro k _ x hx
      exact hx.frame (hframe _ k (.inl intf_ne_ingNhop))
    · intro k hk x hx
      exact hx.frame (hframe _ k (.inr hk)) (hframe _ k (.inl ingNhop_ne_egrNhop.symm))

theorem ObjectsSound.egressDestroy (egressId : ℤ) :
    ObjectsSound (t.step (.egressDestroy egressId)) := by
  rcases l3EgressDestroy_cases t.sdk egressId with ⟨a, hframe, heq⟩ | ⟨e, heq⟩
  · simp only [L3Log.step, heq]
    refine ⟨h.intfs.frame ?_, h.hops.destroy ?_⟩
    · intro k _ x hx
      exact hx.kept_by_egress hframe
    · intro k hk x hx
      exact hx.kept_by_egress hframe hk
  · simp only [L3Log.step, heq]
    exact h

/-- Every call keeps the live objects and hands out only free ids. -/
theorem ObjectsSound.step (c : L3ObjectCall) : ObjectsSound (t.step c) ∧ CreateSound t c := by
  cases c with
  | intfCreate mac vid => exact h.intfCreate mac vid
  | intfDestroy intfId => exact ⟨h.intfDestroy intfId, trivial⟩
  | egressCreate egress => exact h.egressCreate egress
  | egressDestroy egressId => exact ⟨h.egressDestroy egressId, trivial⟩

end Calls

/-- Through any history and any pattern of faults: every id a create returns is in
range and not live, a live id keeps the entries its create packed, and a create
that fails leaves the marks. -/
theorem l3Objects_sound (a : Asic) (calls : List L3ObjectCall) :
    EachStep L3Log.step CreateSound (L3Log.init a) calls ∧
      Throughout L3Log.step
        (fun t =>
          (∀ id mac vid, t.intfs id = some (mac, vid) →
            t.sdk.asic.Holds EGR_L3_INTF_BASE id EGR_L3_INTF_WORDS (egrL3IntfPack mac vid)) ∧
          ∀ id e, t.hops id = some e →
            t.sdk.asic.Holds ING_L3_NEXT_HOP_BASE id ING_L3_NEXT_HOP_WORDS
              (ingL3NhopPack e.port) ∧
            t.sdk.asic.Holds EGR_L3_NEXT_HOP_BASE id EGR_L3_NEXT_HOP_WORDS
              (egrL3NhopPack e.mac e.intfId))
        (L3Log.init a) calls := by
  have hinit := ObjectsSound.init a
  have keep (t : L3Log) (c : L3ObjectCall) (h : ObjectsSound t) := (h.step c).1
  constructor
  · exact eachStep_of_step keep (fun t c h => (h.step c).2) hinit calls
  · refine (throughout_of_step keep hinit calls).mono fun t h => ⟨?_, h.hops.holds⟩
    intro id mac vid hid
    exact h.intfs.holds id (mac, vid) hid

end OpenNos.Sdk
