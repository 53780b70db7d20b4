import OpenNos.Sdk.AsicOnStack
import OpenNos.Sdk.EcmpFastPath

/-! The calls of `ecmp.c` on the whole stack. A member entry is short; of the descriptor of a
group word 5 arrives as MISC_CONTROL. The pointer to the members and their number are
elsewhere, but the last three of the eight interfaces of a small group are there. -/

namespace OpenNos.Sdk

open Bits OpProg Component FirstFit WindowFit History Bde

variable {calls : ℕ → SbusCall} {a b : Asic} {bar : ℕ → BitVec 32} {s : SbusChip} {d : SocDev}
  {k : ℕ} {misc : BitVec 32}

/-- The static variables of `ecmp.c`. -/
structure EcmpArrays where
  ecmpUsed : ℕ → Bool
  ecmpGroupUsed : ℕ → Bool
  nextGroupId : ℕ

/-- The static variables before any call. -/
def EcmpArrays.init : EcmpArrays where
  ecmpUsed := fun _ => false
  ecmpGroupUsed := fun _ => false
  nextGroupId := 1

def EcmpState.arrays (s : EcmpState) : EcmpArrays where
  ecmpUsed := s.ecmpUsed
  ecmpGroupUsed := s.ecmpGroupUsed
  nextGroupId := s.nextGroupId

/-- The arrays with a chip. -/
def EcmpArrays.on (t : EcmpArrays) (a : Asic) : EcmpState where
  asic := a
  ecmpUsed := t.ecmpUsed
  ecmpGroupUsed := t.ecmpGroupUsed
  nextGroupId := t.nextGroupId

/-! ### The calls as programs of accesses

The allocators look at no chip; they are those of the state with any. -/

def EcmpArrays.allocGroupId (t : EcmpArrays) : Option (EcmpArrays × ℕ) :=
  (Sdk.allocGroupId (t.on .blank)).map fun r => (r.1.arrays, r.2)

def EcmpArrays.freeGroupId (t : EcmpArrays) (id : ℤ) : EcmpArrays :=
  (Sdk.freeGroupId (t.on .blank) id).arrays

def EcmpArrays.allocEcmpSlots (t : EcmpArrays) (count : ℤ) : Option (EcmpArrays × ℕ) :=
  (Sdk.allocEcmpSlots (t.on .blank) count).map fun r => (r.1.arrays, r.2)

def EcmpArrays.freeEcmpSlots (t : EcmpArrays) (base count : ℤ) : EcmpArrays :=
  (Sdk.freeEcmpSlots (t.on .blank) base count).arrays

/-- The first `n` member entries, up to a write that fails. -/
def writeMembersProg (basePtr : ℕ) (egressIds : ℕ → ℤ) : (n : ℕ) → Sbus Bool
  | 0 => return true
  | n + 1 => do
    if ← writeMembersProg basePtr egressIds n then
      sbusMemWrite L3_ECMP_BASE (basePtr + n) (fun _ => l3EcmpPack (egressIds n)) L3_ECMP_WORDS
    else return false

def l3EcmpCreateProg (t : EcmpArrays) (egressIds : ℕ → ℤ) (count : ℤ) :
    Sbus (EcmpArrays × Rc ℕ) :=
  if count ≤ 0 then return (t, .error .einval)
  else if 1023 < count then return (t, .error .einval)
  else
    match t.allocGroupId with
    | none => return (t, .error .enospc)
    | some (t, group) =>
      match t.allocEcmpSlots count with
      | none => return (t.freeGroupId group, .error .enospc)
      | some (t, basePtr) => do
        let failed : EcmpArrays × Rc ℕ :=
          ((t.freeEcmpSlots basePtr count).freeGroupId group, .error .eio)
        if ← writeMembersProg basePtr egressIds count.toNat then
          let w := l3EcmpGroupPack basePtr count.toNat egressIds
          if ← sbusMemWrite L3_ECMP_GROUP_BASE group w L3_ECMP_GROUP_WORDS then
            return (t, .ok group)
          else return failed
        else return failed

def l3EcmpDestroyProg (t : EcmpArrays) (ecmpId : ℤ) : Sbus (EcmpArrays × Rc Unit) :=
  if ecmpId ≤ 0 ∨ (L3_ECMP_GROUP_ENTRIES : ℤ) ≤ ecmpId then return (t, .error .einval)
  else do
    let w : Words := fun _ => 0#32
    discard <| sbusMemWrite L3_ECMP_GROUP_BASE ecmpId.toNat w L3_ECMP_GROUP_WORDS
    return (t.freeGroupId ecmpId, .ok ())

/-- What a call returns: the id of a group or nothing. -/
inductive EcmpReply
  | group (rc : Rc ℕ)
  | done (rc : Rc Unit)

def EcmpCall.prog (t : EcmpArrays) : EcmpCall → Sbus (EcmpArrays × EcmpReply)
  | .create egressIds count =>
    return (← l3EcmpCreateProg t egressIds count).map id EcmpReply.group
  | .destroy ecmpId => return (← l3EcmpDestroyProg t ecmpId).map id EcmpReply.done

/-! ### The same calls on the chip of tables and faults -/

def EcmpCall.perform (s : EcmpState) : EcmpCall → EcmpState × EcmpReply
  | .create egressIds count => (l3EcmpCreate s egressIds count).map id EcmpReply.group
  | .destroy ecmpId => (l3EcmpDestroy s ecmpId).map id EcmpReply.done

/-! ### Both agree -/

/-- A program gives what the call on the chip of tables and faults gives. -/
def GivesEcmp {ρ : Type} (p : Sbus (EcmpArrays × ρ)) (a : Asic) (r : EcmpState × ρ) : Prop :=
  p.runOn (Asic.sbusStep id) a = ((r.1.arrays, r.2), r.1.asic)

theorem GivesEcmp.map {ρ ρ' : Type} {p : Sbus (EcmpArrays × ρ)} {r : EcmpState × ρ}
    (h : GivesEcmp p a r) (f : ρ → ρ') : GivesEcmp (do return (← p).map id f) a (r.map id f) := by
  rw [GivesEcmp, runOn_bind, h]
  rfl

theorem allocGroupId_on (t : EcmpArrays) (a : Asic) :
    allocGroupId (t.on a) = t.allocGroupId.map fun r => (r.1.on a, r.2) := by
  rw [EcmpArrays.allocGroupId, allocGroupId, allocGroupId, Option.map_map, Option.map_map]
  rfl

theorem freeGroupId_on (t : EcmpArrays) (a : Asic) (i : ℤ) :
    freeGroupId (t.on a) i = (t.freeGroupId i).on a := by
  rw [EcmpArrays.freeGroupId, freeGroupId, freeGroupId]
  split_ifs <;> rfl

theorem allocEcmpSlots_on (t : EcmpArrays) (a : Asic) (count : ℤ) :
    allocEcmpSlots (t.on a) count = (t.allocEcmpSlots count).map fun r => (r.1.on a, r.2) := by
  rw [EcmpArrays.allocEcmpSlots, allocEcmpSlots, allocEcmpSlots]
  split_ifs
  · rfl
  · rw [Option.map_map, Option.map_map]
    rfl

theorem freeEcmpSlots_on (t : EcmpArrays) (a : Asic) (base count : ℤ) :
    freeEcmpSlots (t.on a) base count = (t.freeEcmpSlots base count).on a := by
  rw [EcmpArrays.freeEcmpSlots, freeEcmpSlots, freeEcmpSlots]
  split_ifs <;> rfl

theorem writeMembersProg_runOn (a : Asic) (basePtr : ℕ) (egressIds : ℕ → ℤ) (n : ℕ) :
    (writeMembersProg basePtr egressIds n).runOn (Asic.sbusStep id) a =
      ((writeMembers a basePtr egressIds n).2, (writeMembers a basePtr egressIds n).1) := by
  induction n with
  | zero => rfl
  | succ n ih =>
    rw [writeMembersProg, writeMembers, runOn_bind, ih]
    obtain ⟨a', ok⟩ := writeMembers a basePtr egressIds n
    cases ok with
    | false => rfl
    | true =>
      dsimp only
      rw [if_pos rfl, sbusMemWrite_runOn, id]

theorem l3EcmpCreateProg_gives (t : EcmpArrays) (a : Asic) (egressIds : ℕ → ℤ) (count : ℤ) :
    GivesEcmp (l3EcmpCreateProg t egressIds count) a (l3EcmpCreate (t.on a) egressIds count) := by
  rw [l3EcmpCreateProg, l3EcmpCreate, allocGroupId_on]
  split_ifs
  · rfl
  · rfl
  · cases t.allocGroupId with
    | none => rfl
    | some found =>
      obtain ⟨t', group⟩ := found
      dsimp only [Option.map_some]
      rw [allocEcmpSlots_on]
      cases t'.allocEcmpSlots count with
      | none =>
        dsimp only [Option.map_none]
        rw [freeGroupId_on]
        rfl
      | some found =>
        obtain ⟨t'', basePtr⟩ := found
        have hfailed (a' : Asic) :
            freeGroupId (freeEcmpSlots { t''.on a with asic := a' } basePtr count) group =
              ((t''.freeEcmpSlots basePtr count).freeGroupId group).on a' := by
          rw [show { t''.on a with asic := a' } = t''.on a' from rfl, freeEcmpSlots_on,
            freeGroupId_on]
        dsimp only [Option.map_some]
        simp only [hfailed]
        rw [GivesEcmp, runOn_bind, writeMembersProg_runOn, show (t''.on a).asic = a from rfl]
        obtain ⟨a', ok⟩ := writeMembers a basePtr egressIds count.toNat
        cases ok with
        | false => rfl
        | true =>
          dsimp only
          rw [if_pos rfl, runOn_bind, sbusMemWrite_runOn, id]
          obtain ⟨a'', ok'⟩ := a'.memWrite L3_ECMP_GROUP_BASE group
            (l3EcmpGroupPack basePtr count.toNat egressIds) L3_ECMP_GROUP_WORDS
          cases ok' <;> rfl

theorem l3EcmpDestroyProg_gives (t : EcmpArrays) (a : Asic) (ecmpId : ℤ) :
    GivesEcmp (l3EcmpDestroyProg t ecmpId) a (l3EcmpDestroy (t.on a) ecmpId) := by
  rw [l3EcmpDestroyProg, l3EcmpDestroy]
  split_ifs
  · rfl
  · rw [GivesEcmp, runOn_bind, runOn_discard, sbusMemWrite_runOn]
    dsimp only
    rw [show ∀ a', { t.on a with asic := a' } = t.on a' from fun _ => rfl, freeGroupId_on]
    rfl

theorem EcmpCall.prog_gives (s : EcmpState) (c : EcmpCall) :
    GivesEcmp (c.prog s.arrays) s.asic (c.perform s) := by
  cases c with
  | create egressIds count =>
    exact (l3EcmpCreateProg_gives s.arrays s.asic egressIds count).map EcmpReply.group
  | destroy ecmpId => exact (l3EcmpDestroyProg_gives s.arrays s.asic ecmpId).map EcmpReply.done

/-! ### Their accesses -/

/-- A write of a member entry, or of a descriptor with its word 5. -/
def EcmpAccess : SbusOp → Prop
  | .memWrite addr index _ nwords =>
    addr = L3_ECMP_BASE ∧ index < L3_ECMP_ENTRIES ∧ nwords ≤ 5 ∨
      addr = L3_ECMP_GROUP_BASE ∧ index < L3_ECMP_GROUP_ENTRIES ∧ 5 < nwords ∧ nwords ≤ 14
  | _ => False

theorem size_ecmp : sdkTables.size L3_ECMP_BASE = L3_ECMP_ENTRIES ∧
    sdkTables.size L3_ECMP_GROUP_BASE = L3_ECMP_GROUP_ENTRIES := by decide +kernel

/-- The tables of `ecmp.c`. Word 5 is written of descriptors only. -/
def ecmpTables : Set (BitVec 32) := {L3_ECMP_BASE, L3_ECMP_GROUP_BASE}

theorem EcmpAccess.table {o : SbusOp} (h : EcmpAccess o) :
    TableAccess sdkTables ecmpTables {L3_ECMP_GROUP_BASE} o := by
  cases o with
  | memWrite addr index data nwords =>
    rcases h with ⟨rfl, hindex, hwords⟩ | ⟨rfl, hindex, -, hwords⟩
    · exact ⟨.inl rfl, hindex.trans_eq size_ecmp.1.symm, by omega, .inl hwords⟩
    · exact ⟨.inr rfl, hindex.trans_eq size_ecmp.2.symm, hwords, .inr rfl⟩
  | _ => exact h.elim

theorem sbusMemWrite_ecmpAccess {addr : BitVec 32} {index n : ℕ} {data : Words}
    (h : EcmpAccess (.memWrite addr index data n)) :
    (sbusMemWrite addr index data n).EachOp EcmpAccess :=
  eachOp_bind (eachOp_perform h) fun _ => eachOp_pure _

theorem writeMembersProg_access (basePtr : ℕ) (egressIds : ℕ → ℤ) (n : ℕ)
    (hfit : basePtr + n ≤ L3_ECMP_ENTRIES) :
    (writeMembersProg basePtr egressIds n).EachOp EcmpAccess := by
  induction n with
  | zero => exact eachOp_pure _
  | succ n ih =>
    refine eachOp_bind (ih (by omega)) fun ok => ?_
    split_ifs
    · exact sbusMemWrite_ecmpAccess (.inl ⟨rfl, by omega, by decide⟩)
    · exact eachOp_pure _

/-- The search for the next id goes on inside the table. -/
def EcmpArrays.InRange (t : EcmpArrays) : Prop := NextInRange (t.on .blank)

variable {t t' : EcmpArrays}

theorem allocGroupId_inRange {g : ℕ} (h : t.InRange) (halloc : t.allocGroupId = some (t', g)) :
    g < L3_ECMP_GROUP_ENTRIES ∧ t'.InRange := by
  rw [EcmpArrays.allocGroupId] at halloc
  rcases allocGroupId_cases h with ⟨hnone, -⟩ | ⟨g', hg', -, hsome⟩
  · rw [hnone] at halloc
    cases halloc
  · rw [hsome] at halloc
    obtain ⟨rfl, rfl⟩ := Prod.mk.inj (Option.some.inj halloc)
    exact ⟨hg'.2, Nat.succ_pos _, hg'.2⟩

theorem freeGroupId_inRange (h : t.InRange) (i : ℤ) : (t.freeGroupId i).InRange := by
  rw [EcmpArrays.freeGroupId, freeGroupId]
  split_ifs <;> exact h

theorem freeEcmpSlots_inRange (h : t.InRange) (base count : ℤ) :
    (t.freeEcmpSlots base count).InRange := by
  rw [EcmpArrays.freeEcmpSlots, freeEcmpSlots]
  split_ifs <;> exact h

theorem allocEcmpSlots_inRange {base : ℕ} {count : ℤ} (h : t.InRange)
    (hcount : 0 < count ∧ count ≤ L3_ECMP_ENTRIES)
    (halloc : t.allocEcmpSlots count = some (t', base)) :
    base + count.toNat ≤ L3_ECMP_ENTRIES ∧ t'.InRange := by
  rw [EcmpArrays.allocEcmpSlots] at halloc
  rcases allocEcmpSlots_cases (t.on .blank) hcount with ⟨hnone, -⟩ | ⟨base', hfit, -, -, hsome⟩
  · rw [hnone] at halloc
    cases halloc
  · rw [hsome] at halloc
    obtain ⟨rfl, rfl⟩ := Prod.mk.inj (Option.some.inj halloc)
    exact ⟨hfit, h⟩

/-- A create goes no further than the tables, and leaves the search inside. -/
theorem l3EcmpCreateProg_access (h : t.InRange) (egressIds : ℕ → ℤ) (count : ℤ) :
    (l3EcmpCreateProg t egressIds count).EachOp EcmpAccess ∧
      (l3EcmpCreateProg t egressIds count).Returns fun r => r.1.InRange := by
  rw [l3EcmpCreateProg]
  split_ifs with hpos hmax
  · exact ⟨eachOp_pure _, returns_pure h⟩
  · exact ⟨eachOp_pure _, returns_pure h⟩
  · cases hgroup : t.allocGroupId with
    | none => exact ⟨eachOp_pure _, returns_pure h⟩
    | some found =>
      obtain ⟨t', group⟩ := found
      obtain ⟨hid, h'⟩ := allocGroupId_inRange h hgroup
      dsimp only
      cases hslots : t'.allocEcmpSlots count with
      | none => exact ⟨eachOp_pure _, returns_pure (freeGroupId_inRange h' _)⟩
      | some found =>
        obtain ⟨t'', basePtr⟩ := found
        have hcount : 0 < count ∧ count ≤ L3_ECMP_ENTRIES := by
          rw [L3_ECMP_ENTRIES]
          omega
        obtain ⟨hfit, h''⟩ := allocEcmpSlots_inRange h' hcount hslots
        have hfailed := freeGroupId_inRange (freeEcmpSlots_inRange h'' basePtr count) group
        dsimp only
        constructor
        · refine eachOp_bind (writeMembersProg_access _ _ _ hfit) fun ok => ?_
          split_ifs
          · refine eachOp_bind (sbusMemWrite_ecmpAccess
              (.inr ⟨rfl, hid, by decide, by decide⟩)) fun ok => ?_
            split_ifs <;> exact eachOp_pure _
          · exact eachOp_pure _
        · refine returns_discard fun ok => ?_
          split_ifs
          · refine returns_discard fun ok => ?_
            split_ifs
            · exact returns_pure h''
            · exact returns_pure hfailed
          · exact returns_pure hfailed

theorem l3EcmpDestroyProg_access (h : t.InRange) (ecmpId : ℤ) :
    (l3EcmpDestroyProg t ecmpId).EachOp EcmpAccess ∧
      (l3EcmpDestroyProg t ecmpId).Returns fun r => r.1.InRange := by
  rw [l3EcmpDestroyProg]
  split_ifs with hid
  · exact ⟨eachOp_pure _, returns_pure h⟩
  · have hlt : ecmpId.toNat < L3_ECMP_GROUP_ENTRIES := by omega
    constructor
    · exact eachOp_bind (closed_eachOp.discard (sbusMemWrite_ecmpAccess
        (.inr ⟨rfl, hlt, by decide, by decide⟩))) fun _ => eachOp_pure _
    · exact returns_discard fun _ => returns_pure (freeGroupId_inRange h _)

theorem EcmpCall.prog_access (h : t.InRange) (c : EcmpCall) :
    (c.prog t).EachOp EcmpAccess ∧ (c.prog t).Returns fun r => r.1.InRange := by
  cases c with
  | create egressIds count =>
    obtain ⟨haccess, hreturns⟩ := l3EcmpCreateProg_access h egressIds count
    exact ⟨eachOp_bind haccess fun _ => eachOp_pure _,
      returns_bind hreturns fun _ hr => returns_pure hr⟩
  | destroy ecmpId =>
    obtain ⟨haccess, hreturns⟩ := l3EcmpDestroyProg_access h ecmpId
    exact ⟨eachOp_bind haccess fun _ => eachOp_pure _,
      returns_bind hreturns fun _ hr => returns_pure hr⟩

/-- `ecmp.c` with its arrays. -/
abbrev ecmpFile : Component SbusOp (Option Words) where
  State := EcmpArrays
  Call := EcmpCall
  Reply := EcmpReply
  prog := EcmpCall.prog
  Inv := EcmpArrays.InRange
  Ok := EcmpAccess
  each c h := (c.prog_access h).1
  keeps c h := (c.prog_access h).2

theorem init_inRange : EcmpArrays.init.InRange :=
  ⟨Nat.one_pos, show 1 ≤ L3_ECMP_GROUP_ENTRIES by decide⟩

/-! ### The descriptors of live groups -/

/-- The descriptor of every live group has the words of its create. -/
def Described (t : EcmpLog) : Prop :=
  ∀ gid g, t.groups gid = some g → t.sdk.asic.Holds L3_ECMP_GROUP_BASE gid L3_ECMP_GROUP_WORDS
    (l3EcmpGroupPack g.basePtr g.count g.egressIds)

theorem Described.step {t : EcmpLog} (h : Described t) (hsound : GroupsSound t) (c : EcmpCall) :
    Described (t.step c) := by
  -- a group whose descriptor is not written
  have keep {a : Asic} {gid : ℕ} {g : EcmpGroup} (hg : t.groups gid = some g)
      (hmem : a.mem L3_ECMP_GROUP_BASE gid = t.sdk.asic.mem L3_ECMP_GROUP_BASE gid) :
      a.Holds L3_ECMP_GROUP_BASE gid L3_ECMP_GROUP_WORDS
        (l3EcmpGroupPack g.basePtr g.count g.egressIds) := by
    intro i hi
    rw [hmem]
    exact h gid g hg i hi
  cases c with
  | create egressIds count =>
    rcases l3EcmpCreate_cases hsound.next egressIds count with
      ⟨gid, base, a, hnew, heq⟩ | ⟨a, next, e, hno, heq⟩
    · simp only [EcmpLog.step, heq]
      intro k g hg
      dsimp only at hg ⊢
      by_cases hk : k = gid
      · subst hk
        rw [Function.update_self] at hg
        cases hg
        rw [hnew.found]
        exact hnew.group
      · rw [Function.update_of_ne hk] at hg
        exact keep hg (hnew.groupFrame k hk)
    · simp only [EcmpLog.step, heq]
      exact fun k g hg => keep hg (hno.frame _ k (.inl (by decide)))
  | destroy ecmpId =>
    rcases l3EcmpDestroy_cases t.sdk ecmpId with ⟨a, hframe, heq⟩ | ⟨-, e, heq⟩
    · simp only [EcmpLog.step, heq]
      intro k g hg
      dsimp only at hg
      by_cases hk : k = ecmpId.toNat
      · rw [hk, Function.update_self] at hg
        cases hg
      · rw [Function.update_of_ne hk] at hg
        exact keep hg (hframe _ k (.inr hk))
    · simp only [EcmpLog.step, heq]
      exact h

/-- Word 5 of the live groups. -/
def GroupsFive (misc : BitVec 32) (b : Asic) (t : EcmpLog) : Prop :=
  ∀ gid g, t.groups gid = some g → b.mem L3_ECMP_GROUP_BASE gid 5 = misc

theorem groupFive_step (misc : BitVec 32) (gid : ℕ) (a : Asic) (o : SbusOp) (ho : EcmpAccess o)
    (h : a.mem L3_ECMP_GROUP_BASE gid 5 = misc) :
    (a.sbusStep (arrived misc) o).1.mem L3_ECMP_GROUP_BASE gid 5 = misc := by
  cases o with
  | memWrite addr index data nwords =>
    rcases ho with ⟨rfl, -, -⟩ | ⟨-, -, hlong, -⟩
    · exact five_kept (.inr (by decide)) h
    · exact five_kept (.inl hlong) h
  | _ => exact ho.elim

/-- A create that returns an id has written the descriptor. -/
theorem l3EcmpCreateProg_five (t : EcmpArrays) (egressIds : ℕ → ℤ) (count : ℤ) (b : Asic) {gid : ℕ}
    (hok : ((l3EcmpCreateProg t egressIds count).runOn (Asic.sbusStep (arrived misc)) b).1.2 =
      .ok gid) :
    ((l3EcmpCreateProg t egressIds count).runOn (Asic.sbusStep (arrived misc)) b).2.mem
      L3_ECMP_GROUP_BASE gid 5 = misc := by
  rw [l3EcmpCreateProg] at hok ⊢
  split_ifs at hok ⊢
  · cases hok
  · cases hok
  · cases hgroup : t.allocGroupId with
    | none =>
      rw [hgroup] at hok
      cases hok
    | some found =>
      rw [hgroup] at hok
      obtain ⟨t', group⟩ := found
      dsimp only at hok ⊢
      cases hslots : t'.allocEcmpSlots count with
      | none =>
        rw [hslots] at hok
        cases hok
      | some found =>
        rw [hslots] at hok
        obtain ⟨t'', basePtr⟩ := found
        dsimp only at hok ⊢
        rw [runOn_bind] at hok ⊢
        split_ifs at hok ⊢
        · rw [runOn_bind, sbusMemWrite_runOn] at hok ⊢
          dsimp only at hok ⊢
          split_ifs at hok ⊢ with hw
          · cases hok
            exact five_of_written (by decide) hw
          · cases hok
        · cases hok

theorem EcmpLog.step_sdk (t : EcmpLog) (c : EcmpCall) : (t.step c).sdk = (c.perform t.sdk).1 := by
  cases c with
  | create egressIds count =>
    rw [EcmpLog.step, EcmpCall.perform]
    obtain ⟨s, rc⟩ := l3EcmpCreate t.sdk egressIds count
    cases rc <;> rfl
  | destroy ecmpId =>
    rw [EcmpLog.step, EcmpCall.perform]
    obtain ⟨s, rc⟩ := l3EcmpDestroy t.sdk ecmpId
    cases rc <;> rfl

/-- A group is live by a create that returned its id, or was before. -/
theorem EcmpLog.live_of_step (t : EcmpLog) (c : EcmpCall) {gid : ℕ} {g : EcmpGroup}
    (h : (t.step c).groups gid = some g) :
    t.groups gid = some g ∨
      ∃ egressIds count, c = .create egressIds count ∧
        (l3EcmpCreate t.sdk egressIds count).2 = .ok gid := by
  cases c with
  | create egressIds count =>
    rw [EcmpLog.step] at h
    cases hp : l3EcmpCreate t.sdk egressIds count with
    | mk s rc =>
      rw [hp] at h
      cases rc with
      | error e => exact .inl h
      | ok gid' =>
        dsimp only at h
        by_cases hid : gid = gid'
        · exact .inr ⟨egressIds, count, rfl, by rw [hp, hid]⟩
        · rw [Function.update_of_ne hid] at h
          exact .inl h
  | destroy ecmpId =>
    rw [EcmpLog.step] at h
    cases hp : l3EcmpDestroy t.sdk ecmpId with
    | mk s rc =>
      rw [hp] at h
      cases rc with
      | error e => exact .inl h
      | ok u =>
        dsimp only at h
        by_cases hid : gid = ecmpId.toNat
        · rw [hid, Function.update_self] at h
          cases h
        · rw [Function.update_of_ne hid] at h
          exact .inl h

/-- What one call of a history keeps, with MISC_CONTROL arriving and without. -/
structure EcmpArrived (misc : BitVec 32) (b : Asic) (t : EcmpLog) : Prop where
  sound : GroupsSound t
  described : Described t
  same : SameButFive {L3_ECMP_GROUP_BASE} b t.sdk.asic
  five : GroupsFive misc b t

theorem EcmpArrived.inRange {t : EcmpLog} (h : EcmpArrived misc b t) : t.sdk.arrays.InRange :=
  h.sound.next

theorem EcmpArrived.step {t : EcmpLog} (h : EcmpArrived misc b t) (c : EcmpCall) :
    let run := (c.prog t.sdk.arrays).runOn (Asic.sbusStep (arrived misc)) b
    run.1 = ((t.step c).sdk.arrays, (c.perform t.sdk).2) ∧ EcmpArrived misc run.2 (t.step c) := by
  obtain ⟨haccess, -⟩ := c.prog_access h.inRange
  obtain ⟨hreply, hsame⟩ := runOn_arrived misc (haccess.mono fun o ho => ho.table) h.same
  rw [c.prog_gives t.sdk, ← t.step_sdk c] at hreply hsame
  refine ⟨hreply, (h.sound.step c).1, h.described.step h.sound c, hsame, fun gid g hg => ?_⟩
  rcases t.live_of_step c hg with hold | ⟨egressIds, count, rfl, hok⟩
  · exact runOn_invariant (groupFive_step misc gid) haccess (h.five gid g hold)
  · rw [EcmpCall.prog, runOn_bind]
    refine l3EcmpCreateProg_five t.sdk.arrays egressIds count b ?_
    rw [EcmpCall.prog, runOn_bind] at hreply
    have hrc := (congrArg Prod.snd hreply).trans (congrArg EcmpReply.group hok)
    exact EcmpReply.group.inj hrc

theorem EcmpArrived.run {t : EcmpLog} (h : EcmpArrived misc b t) (history : List EcmpCall) :
    let run := (ecmpFile.history t.sdk.arrays history).runOn (Asic.sbusStep (arrived misc)) b
    EcmpArrived misc run.2 (History.run EcmpLog.step t history) := by
  induction history generalizing t b with
  | nil => exact h
  | cons c rest ih =>
    obtain ⟨hreply, hnext⟩ := h.step c
    have hprog : ecmpFile.prog t.sdk.arrays c = c.prog t.sdk.arrays := rfl
    rw [Component.history, runOn_bind, hprog, hreply]
    dsimp only
    rw [runOn_bind]
    exact ih hnext

theorem EcmpArrived.init (misc : BitVec 32) (a : Asic) : EcmpArrived misc a (EcmpLog.init a) where
  sound := .init a
  described := nofun
  same := .refl _ a
  five := nofun

/-! ### On the stack -/

/-- The descriptor of a live group as the chip reads it. Of an interface the bits in word 5
are those of MISC_CONTROL. -/
structure GroupArrives (misc : BitVec 32) (w : Words) (g : EcmpGroup) : Prop where
  base : (ecmpBasePtr w).toNat = g.basePtr
  count : (ecmpCount w).toNat = g.count
  gt8 : ecmpGt8 w = decide (8 < g.count)
  oif : g.count ≤ 8 → ∀ i < g.count, ∀ j < 13, (ecmpOif w i).getLsbD j =
    if 160 ≤ oifBits.getD i 0 + j ∧ oifBits.getD i 0 + j < 192 then
      misc.getLsbD (oifBits.getD i 0 + j - 160)
    else (BitVec.ofInt 13 (g.egressIds i)).getLsbD j

theorem EcmpArrived.groupArrives {t : EcmpLog} (h : EcmpArrived misc b t) {gid : ℕ} {g : EcmpGroup}
    (hg : t.groups gid = some g) : GroupArrives misc (b.mem L3_ECMP_GROUP_BASE gid) g := by
  have hplaced := h.sound.groups.holds gid g hg
  have hwords := h.described gid g hg
  have hfive := h.five gid g hg
  refine ⟨?_, ?_, ?_, fun hsmall i hi j hj => ?_⟩
  · rw [ecmpBasePtr, h.same.field _ _ (by decide)]
    exact hplaced.base
  · rw [ecmpCount, h.same.field _ _ (by decide)]
    exact hplaced.count
  · rw [ecmpGt8, h.same.bit _ _ (by decide), hwords.bit_eq (by decide), ← ecmpGt8]
    exact ecmpGt8_l3EcmpGroupPack _ _ _
  · obtain ⟨-, -, htop⟩ := oifBits_eq i (by omega)
    rw [ecmpOif, getLsbD_field, decide_eq_true hj, Bool.true_and]
    split_ifs with hin
    · rw [bit_five hfive (by omega)]
      exact congrArg misc.getLsbD (by omega)
    · have hpacked := congrArg (fun v => v.getLsbD j)
        (ecmpOif_l3EcmpGroupPack g.basePtr g.egressIds hsmall hi)
      simp only [ecmpOif, getLsbD_field, decide_eq_true hj, Bool.true_and] at hpacked
      have hwidth : oifBits.getD i 0 + j < 32 * L3_ECMP_GROUP_WORDS := by
        rw [L3_ECMP_GROUP_WORDS]
        omega
      have hword : (oifBits.getD i 0 + j) / 32 ≠ 5 := by omega
      rw [h.same.bit _ _ hword, hwords.bit_eq hwidth]
      exact hpacked

/-- A history of creates and destroys on the stack returns what it returns on the chip of
tables and faults, whatever accesses are lost. Every live group has its members where its
descriptor points; of the interfaces in the descriptor the bits of word 5 are those of
MISC_CONTROL. -/
theorem ecmp_on_stack (honest : ∀ k, (calls k).Honest) (hprov : Provides sdkTables bar s d)
    (hm : Mirrors calls a (k, d)) (history : List EcmpCall) :
    let run := (ecmpFile.history .init history).runOn (stackStep calls) (k, s)
    let log := History.run EcmpLog.step (EcmpLog.init a) history
    let chip (addr : BitVec 32) (index : ℕ) := run.2.2.space.mem (cellAddr addr index)
    run.1.2 = (callAll EcmpCall.perform (.init a) history).2 ∧
      ∀ gid g, log.groups gid = some g →
        GroupArrives (bar CMIC_MISC_CONTROL) (chip L3_ECMP_GROUP_BASE gid) g ∧
          ∀ i < g.count, chip L3_ECMP_BASE (g.basePtr + i) 0 = l3EcmpPack (g.egressIds i) := by
  have haccess := (history_each (A := ecmpFile) init_inRange history).mono
    fun o ho => EcmpAccess.table ho
  have hruns := history_runOn (A := ecmpFile) (fun s c => c.prog_gives s) (.init a) history
  obtain ⟨hreply, hmem⟩ := runOn_asic honest haccess hprov hm
  obtain ⟨hreply', -⟩ := runOn_arrived (bar CMIC_MISC_CONTROL) haccess (.refl _ a)
  have hreplies := ((hreply.trans hreply').trans (congrArg Prod.fst hruns))
  have hend := (EcmpArrived.init (bar CMIC_MISC_CONTROL) a).run history
  refine ⟨congrArg Prod.snd hreplies, fun gid g hg => ?_⟩
  have hrange := hend.sound.groups.range gid (by rw [hg]; exact nofun)
  have hplaced := hend.sound.groups.holds gid g hg
  have hfits := hplaced.fits
  dsimp only
  rw [hmem _ gid (hrange.2.trans_eq size_ecmp.2.symm)]
  refine ⟨hend.groupArrives hg, fun i hi => ?_⟩
  have hindex : g.basePtr + i < L3_ECMP_ENTRIES := by omega
  rw [hmem _ _ (hindex.trans_eq size_ecmp.1.symm), ← hplaced.members i hi]
  exact hend.same.mem _ _ 0 (.inl (by decide))

theorem ecmp_on_stack_droppy :
    let history : List EcmpCall := [.create (fun _ => 7) 2, .create (fun i => i + 1) 8, .destroy 1]
    let run := (ecmpFile.history .init history).runOn (stackStep droppyCalls) (0, blankChip)
    let log := History.run EcmpLog.step (EcmpLog.init droppyAsic) history
    let chip (addr : BitVec 32) (index : ℕ) := run.2.2.space.mem (cellAddr addr index)
    run.1.2 = (callAll EcmpCall.perform (.init droppyAsic) history).2 ∧
      ∀ gid g, log.groups gid = some g →
        GroupArrives (blankChip.reg CMIC_MISC_CONTROL) (chip L3_ECMP_GROUP_BASE gid) g ∧
          ∀ i < g.count, chip L3_ECMP_BASE (g.basePtr + i) 0 = l3EcmpPack (g.egressIds i) :=
  ecmp_on_stack droppyCalls_honest droppy_provides droppy_mirrors _

end OpenNos.Sdk
