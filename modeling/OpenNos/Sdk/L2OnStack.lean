import OpenNos.Sdk.AsicOnStack
import OpenNos.Sdk.L2Store
import OpenNos.Sdk.L2UserAlloc

/-! The calls of `l2.c` on the whole stack, those of the host entries and those of the user
entries. All their accesses are short, so that a history of them comes to the same there as
on the chip of tables and faults. -/

namespace OpenNos.Sdk

open Bits OpProg Component Bde

variable {calls : ℕ → SbusCall} {a : Asic} {bar : ℕ → BitVec 32} {s : SbusChip} {d : SocDev}
  {k : ℕ}

/-! ### The calls of `l2.c` as programs of accesses -/

def l2WriteProbesProg (index : ℕ) (words : Words) : List ℕ → Sbus Bool
  | [] => return false
  | probe :: rest => do
    if ← sbusMemWrite L2_ENTRY_BASE (l2Probe index probe) words L2_ENTRY_WORDS then return true
    else l2WriteProbesProg index words rest

def l2AddrAddProg (addr : L2Addr) : Sbus (Rc Unit) := do
  let index := l2Index addr.mac addr.vid
  if ← l2WriteProbesProg index (l2PackEntry addr) (List.range 6) then return .ok ()
  else return .error .enospc

def l2AddrDeleteProg (mac : Mac) (vid : BitVec 16) : Sbus (Rc Unit) := do
  discard <| l2WriteProbesProg (l2Index mac vid) (fun _ => 0) (List.range 6)
  return .ok ()

def l2ReadProbesProg (index : ℕ) (mac : Mac) (vid : BitVec 16) : List ℕ → Sbus (Rc L2Addr)
  | [] => return .error .enoent
  | probe :: rest => do
    match ← sbusMemRead L2_ENTRY_BASE (l2Probe index probe) L2_ENTRY_WORDS with
    | none => l2ReadProbesProg index mac vid rest
    | some words =>
      if l2EntryMatches words mac vid then return .ok (l2UnpackEntry words)
      else l2ReadProbesProg index mac vid rest

def l2AddrGetProg (mac : Mac) (vid : BitVec 16) : Sbus (Rc L2Addr) :=
  l2ReadProbesProg (l2Index mac vid) mac vid (List.range 6)

/-- The scan over the entries still to be read. -/
def l2UserScanProg (words : Words) : List ℕ → Sbus (Rc ℕ)
  | [] => return .error .enospc
  | i :: rest => do
    match ← sbusMemRead L2_USER_ENTRY_BASE i L2_USER_ENTRY_WORDS with
    | none => l2UserScanProg words rest
    | some readBack =>
      if readBack 0 &&& 1 = 0 then
        if ← sbusMemWrite L2_USER_ENTRY_BASE i words L2_USER_ENTRY_WORDS then return .ok i
        else return .error .eio
      else l2UserScanProg words rest

def l2UserEntryAddProg (addr : Option L2UserAddr) : Sbus (Rc ℕ) :=
  match addr with
  | none => return .error .einval
  | some addr => l2UserScanProg (l2UserPack addr) (List.range L2_USER_ENTRY_COUNT)

def l2UserEntryDeleteProg (index : ℤ) : Sbus (Rc Unit) :=
  if index < 0 ∨ (L2_USER_ENTRY_COUNT : ℤ) ≤ index then return .error .einval
  else do
    if ← sbusMemWrite L2_USER_ENTRY_BASE index.toNat (fun _ => 0#32) L2_USER_ENTRY_WORDS then
      return .ok ()
    else return .error .eperm

/-- A call of `l2.c`. -/
inductive L2FileCall
  | host (c : L2Call)
  | user (c : L2UserCall)

/-- What a call returns: nothing, an address or an index. -/
inductive L2Reply
  | done (rc : Rc Unit)
  | found (rc : Rc L2Addr)
  | index (rc : Rc ℕ)

def L2FileCall.prog : L2FileCall → Sbus L2Reply
  | .host (.add addr) => return .done (← l2AddrAddProg addr)
  | .host (.delete mac vid) => return .done (← l2AddrDeleteProg mac vid)
  | .host (.get mac vid) => return .found (← l2AddrGetProg mac vid)
  | .user (.add addr) => return .index (← l2UserEntryAddProg addr)
  | .user (.delete index) => return .done (← l2UserEntryDeleteProg index)

/-! ### The same calls on the chip of tables and faults -/

def L2FileCall.perform (a : Asic) : L2FileCall → Asic × L2Reply
  | .host (.add addr) => (l2AddrAdd a addr).map id L2Reply.done
  | .host (.delete mac vid) => (l2AddrDelete a mac vid).map id L2Reply.done
  | .host (.get mac vid) => (l2AddrGet a mac vid).map id L2Reply.found
  | .user (.add addr) => (l2UserEntryAdd a addr).map id L2Reply.index
  | .user (.delete index) => (l2UserEntryDelete a index).map id L2Reply.done

/-! ### Both agree -/

theorem l2WriteProbesProg_runOn (a : Asic) (index : ℕ) (words : Words) (probes : List ℕ) :
    (l2WriteProbesProg index words probes).runOn (Asic.sbusStep id) a =
      ((l2WriteProbes a index words probes).2, (l2WriteProbes a index words probes).1) := by
  induction probes generalizing a with
  | nil => rfl
  | cons probe rest ih =>
    rw [l2WriteProbesProg, l2WriteProbes, runOn_bind, sbusMemWrite_runOn, id]
    obtain ⟨a', ok⟩ := a.memWrite L2_ENTRY_BASE (l2Probe index probe) words L2_ENTRY_WORDS
    cases ok with
    | true => rfl
    | false => exact ih a'

theorem l2EntryMatches_splice (words : Words) (mac : Mac) (vid : BitVec 16) :
    l2EntryMatches (splice L2_ENTRY_WORDS words fun _ => 0) mac vid =
      l2EntryMatches words mac vid := by
  have hw (k : ℕ) (hk : k < 4) : splice L2_ENTRY_WORDS words (fun _ => 0) k = words k := if_pos hk
  rw [l2EntryMatches, l2EntryMatches, hw 0 (by decide), hw 1 (by decide)]

theorem l2UnpackEntry_splice (words : Words) :
    l2UnpackEntry (splice L2_ENTRY_WORDS words fun _ => 0) = l2UnpackEntry words := by
  have hw (k : ℕ) (hk : k < 4) : splice L2_ENTRY_WORDS words (fun _ => 0) k = words k := if_pos hk
  simp only [l2UnpackEntry, hw 0 (by decide), hw 1 (by decide), hw 2 (by decide)]

theorem l2ReadProbesProg_runOn (a : Asic) (index : ℕ) (mac : Mac) (vid : BitVec 16)
    (probes : List ℕ) : (l2ReadProbesProg index mac vid probes).runOn (Asic.sbusStep id) a =
      ((l2ReadProbes a index mac vid probes).2, (l2ReadProbes a index mac vid probes).1) := by
  induction probes generalizing a with
  | nil => rfl
  | cons probe rest ih =>
    rw [l2ReadProbesProg, l2ReadProbes, runOn_bind, sbusMemRead, runOn_perform, Asic.sbusStep]
    obtain ⟨a', reply⟩ := a.memRead L2_ENTRY_BASE (l2Probe index probe)
    cases reply with
    | none => exact ih a'
    | some words =>
      simp only [Option.map_some, l2EntryMatches_splice, l2UnpackEntry_splice]
      split
      · rfl
      · exact ih a'

/-- A program gives what the call on the chip of tables and faults gives. -/
def GivesL2 {ρ : Type} (p : Sbus ρ) (a : Asic) (r : Asic × ρ) : Prop :=
  p.runOn (Asic.sbusStep id) a = (r.2, r.1)

theorem GivesL2.map {ρ ρ' : Type} {p : Sbus ρ} {r : Asic × ρ} (h : GivesL2 p a r) (f : ρ → ρ') :
    GivesL2 (do return f (← p)) a (r.map id f) := by
  rw [GivesL2, runOn_bind, h]
  rfl

theorem l2AddrAddProg_gives (a : Asic) (addr : L2Addr) :
    GivesL2 (l2AddrAddProg addr) a (l2AddrAdd a addr) := by
  rw [GivesL2, l2AddrAddProg, l2AddrAdd, runOn_bind, l2WriteProbesProg_runOn]
  obtain ⟨a', ok⟩ := l2WriteProbes a (l2Index addr.mac addr.vid) (l2PackEntry addr) (List.range 6)
  cases ok <;> rfl

theorem l2AddrDeleteProg_gives (a : Asic) (mac : Mac) (vid : BitVec 16) :
    GivesL2 (l2AddrDeleteProg mac vid) a (l2AddrDelete a mac vid) := by
  rw [GivesL2, l2AddrDeleteProg, l2AddrDelete, runOn_bind, runOn_discard, l2WriteProbesProg_runOn]
  rfl

theorem l2UserScanProg_gives (a : Asic) (words : Words) (entries : List ℕ) :
    GivesL2 (l2UserScanProg words entries) a (l2UserScan a words entries) := by
  have hword (w : Words) : splice L2_USER_ENTRY_WORDS w (fun _ => 0) 0 = w 0 := rfl
  induction entries generalizing a with
  | nil => rfl
  | cons i rest ih =>
    rw [GivesL2, l2UserScanProg, l2UserScan, runOn_bind, sbusMemRead, runOn_perform, Asic.sbusStep]
    obtain ⟨a', reply⟩ := a.memRead L2_USER_ENTRY_BASE i
    cases reply with
    | none => exact ih a'
    | some readBack =>
      simp only [Option.map_some, hword]
      split
      · rw [runOn_bind, sbusMemWrite_runOn, id]
        obtain ⟨a'', ok⟩ := a'.memWrite L2_USER_ENTRY_BASE i words L2_USER_ENTRY_WORDS
        cases ok <;> rfl
      · exact ih a'

theorem l2UserEntryAddProg_gives (a : Asic) (addr : Option L2UserAddr) :
    GivesL2 (l2UserEntryAddProg addr) a (l2UserEntryAdd a addr) := by
  cases addr with
  | none => rfl
  | some addr => exact l2UserScanProg_gives a _ _

theorem l2UserEntryDeleteProg_gives (a : Asic) (index : ℤ) :
    GivesL2 (l2UserEntryDeleteProg index) a (l2UserEntryDelete a index) := by
  rw [l2UserEntryDeleteProg, l2UserEntryDelete]
  split_ifs
  · rfl
  · rw [GivesL2, runOn_bind, sbusMemWrite_runOn, id]
    obtain ⟨a', ok⟩ :=
      a.memWrite L2_USER_ENTRY_BASE index.toNat (fun _ => 0#32) L2_USER_ENTRY_WORDS
    cases ok <;> rfl

theorem L2FileCall.prog_gives (a : Asic) (c : L2FileCall) : GivesL2 c.prog a (c.perform a) := by
  cases c with
  | host c =>
    cases c with
    | add addr => exact (l2AddrAddProg_gives a addr).map L2Reply.done
    | delete mac vid => exact (l2AddrDeleteProg_gives a mac vid).map L2Reply.done
    | get mac vid => exact GivesL2.map (l2ReadProbesProg_runOn a _ mac vid _) L2Reply.found
  | user c =>
    cases c with
    | add addr => exact (l2UserEntryAddProg_gives a addr).map L2Reply.index
    | delete index => exact (l2UserEntryDeleteProg_gives a index).map L2Reply.done

/-! ### Their accesses -/

theorem size_l2 : sdkTables.size L2_ENTRY_BASE = L2_ENTRY_ENTRIES ∧
    sdkTables.size L2_USER_ENTRY_BASE = L2_USER_ENTRY_COUNT := by decide +kernel

/-- The tables of `l2.c`. -/
def l2Tables : Set (BitVec 32) := {L2_ENTRY_BASE, L2_USER_ENTRY_BASE}

/-- A short access to one of them. -/
abbrev L2Access : SbusOp → Prop := TableAccess sdkTables l2Tables ∅

theorem l2Probe_lt (index probe : ℕ) : l2Probe index probe < sdkTables.size L2_ENTRY_BASE := by
  rw [size_l2.1]
  exact Nat.mod_lt _ (by decide)

theorem l2Write_access (index probe : ℕ) (words : Words) :
    L2Access (.memWrite L2_ENTRY_BASE (l2Probe index probe) words L2_ENTRY_WORDS) :=
  ⟨.inl rfl, l2Probe_lt index probe, by decide, .inl (by decide)⟩

theorem l2Read_access (index probe : ℕ) :
    L2Access (.memRead L2_ENTRY_BASE (l2Probe index probe) L2_ENTRY_WORDS) :=
  ⟨.inl rfl, l2Probe_lt index probe, by decide⟩

theorem l2UserWrite_access {i : ℕ} (hi : i < L2_USER_ENTRY_COUNT) (words : Words) :
    L2Access (.memWrite L2_USER_ENTRY_BASE i words L2_USER_ENTRY_WORDS) :=
  ⟨.inr rfl, hi.trans_eq size_l2.2.symm, by decide, .inl (by decide)⟩

theorem l2WriteProbesProg_access (index : ℕ) (words : Words) (probes : List ℕ) :
    (l2WriteProbesProg index words probes).EachOp L2Access := by
  induction probes with
  | nil => exact eachOp_pure _
  | cons probe rest ih =>
    refine eachOp_bind (eachOp_bind (eachOp_perform (l2Write_access index probe words))
      fun _ => eachOp_pure _) fun ok => ?_
    cases ok with
    | true => exact eachOp_pure _
    | false => exact ih

theorem l2ReadProbesProg_access (index : ℕ) (mac : Mac) (vid : BitVec 16) (probes : List ℕ) :
    (l2ReadProbesProg index mac vid probes).EachOp L2Access := by
  induction probes with
  | nil => exact eachOp_pure _
  | cons probe rest ih =>
    refine eachOp_bind (eachOp_perform (l2Read_access index probe)) fun reply => ?_
    cases reply with
    | none => exact ih
    | some words =>
      dsimp only
      split
      · exact eachOp_pure _
      · exact ih

theorem l2UserScanProg_access (words : Words) {entries : List ℕ}
    (h : ∀ i ∈ entries, i < L2_USER_ENTRY_COUNT) :
    (l2UserScanProg words entries).EachOp L2Access := by
  induction entries with
  | nil => exact eachOp_pure _
  | cons i rest ih =>
    obtain ⟨hi, hrest⟩ := List.forall_mem_cons.mp h
    have hread : L2Access (.memRead L2_USER_ENTRY_BASE i L2_USER_ENTRY_WORDS) :=
      ⟨.inr rfl, hi.trans_eq size_l2.2.symm, by decide⟩
    refine eachOp_bind (eachOp_perform hread) fun reply => ?_
    cases reply with
    | none => exact ih hrest
    | some readBack =>
      dsimp only
      split
      · refine eachOp_bind (eachOp_bind (eachOp_perform (l2UserWrite_access hi words))
          fun _ => eachOp_pure _) fun ok => ?_
        split_ifs <;> exact eachOp_pure _
      · exact ih hrest

theorem l2AddrAddProg_access (addr : L2Addr) : (l2AddrAddProg addr).EachOp L2Access := by
  refine eachOp_bind (l2WriteProbesProg_access _ _ _) fun ok => ?_
  cases ok <;> exact eachOp_pure _

theorem l2AddrDeleteProg_access (mac : Mac) (vid : BitVec 16) :
    (l2AddrDeleteProg mac vid).EachOp L2Access :=
  eachOp_bind (closed_eachOp.discard (l2WriteProbesProg_access _ _ _)) fun _ => eachOp_pure _

theorem L2FileCall.prog_access (c : L2FileCall) : c.prog.EachOp L2Access := by
  cases c with
  | host c =>
    cases c with
    | add addr => exact eachOp_bind (l2AddrAddProg_access addr) fun _ => eachOp_pure _
    | delete mac vid => exact eachOp_bind (l2AddrDeleteProg_access mac vid) fun _ => eachOp_pure _
    | get mac vid => exact eachOp_bind (l2ReadProbesProg_access _ _ _ _) fun _ => eachOp_pure _
  | user c =>
    cases c with
    | add addr =>
      refine eachOp_bind ?_ fun _ => eachOp_pure _
      cases addr with
      | none => exact eachOp_pure _
      | some addr => exact l2UserScanProg_access _ fun i hi => List.mem_range.mp hi
    | delete index =>
      refine eachOp_bind ?_ fun _ => eachOp_pure _
      rw [l2UserEntryDeleteProg]
      split_ifs with hindex
      · exact eachOp_pure _
      · have hlt : index.toNat < L2_USER_ENTRY_COUNT := by omega
        refine eachOp_bind (eachOp_bind (eachOp_perform (l2UserWrite_access hlt _))
          fun _ => eachOp_pure _) fun ok => ?_
        split_ifs <;> exact eachOp_pure _

/-- `l2.c`, which keeps no state of its own. -/
abbrev l2File : Component SbusOp (Option Words) where
  State := Unit
  Call := L2FileCall
  Reply := L2Reply
  prog _ c := do return ((), ← c.prog)
  Inv _ := True
  Ok := L2Access
  each c _ := eachOp_bind c.prog_access fun _ => eachOp_pure _
  keeps _ _ := returns_true _

/-- A history of calls of `l2.c` through `sbus.c`, the ioctl, the driver and a device that
refuses whatever it likes returns what it returns on the chip of tables and faults, and
leaves every table of the SDK as it does there. -/
theorem l2_on_stack (honest : ∀ k, (calls k).Honest) (hprov : Provides sdkTables bar s d)
    (hm : Mirrors calls a (k, d)) (history : List L2FileCall) :
    let run := (l2File.history () history).runOn (stackStep calls) (k, s)
    let asic := callAll L2FileCall.perform a history
    run.1.2 = asic.2 ∧ ∀ addr, ∀ index < sdkTables.size addr,
      run.2.2.space.mem (cellAddr addr index) = asic.1.mem addr index := by
  have haccess := history_each (A := l2File) (t := ()) trivial history
  have hperform (a : Asic) (c : L2FileCall) : (l2File.prog () c).runOn (Asic.sbusStep id) a =
      (((), (c.perform a).2), (c.perform a).1) := by
    have hprog : l2File.prog () c = do return ((), ← c.prog) := rfl
    rw [hprog, runOn_bind, c.prog_gives a]
    rfl
  have hruns := history_runOn (A := l2File) hperform a history
  obtain ⟨hreply, hmem⟩ := runOn_asic honest haccess hprov hm
  obtain ⟨hreply', hsame⟩ := runOn_arrived (bar CMIC_MISC_CONTROL) haccess (.refl _ a)
  rw [hruns] at hreply' hsame
  refine ⟨congrArg Prod.snd (hreply.trans hreply'), fun addr index hindex => ?_⟩
  rw [hmem addr index hindex]
  funext i
  exact hsame.mem addr index i (.inr (Set.notMem_empty addr))

theorem l2_on_stack_droppy :
    let history : List L2FileCall := [.host (.add stationA),
      .user (.add (some ⟨stationB.mac, 1, 3, 0, 1, 0, 0⟩)), .host (.get stationA.mac stationA.vid),
      .user (.delete 3)]
    let run := (l2File.history () history).runOn (stackStep droppyCalls) (0, blankChip)
    let asic := callAll L2FileCall.perform droppyAsic history
    run.1.2 = asic.2 ∧ ∀ addr, ∀ index < sdkTables.size addr,
      run.2.2.space.mem (cellAddr addr index) = asic.1.mem addr index :=
  l2_on_stack droppyCalls_honest droppy_provides droppy_mirrors _

end OpenNos.Sdk
