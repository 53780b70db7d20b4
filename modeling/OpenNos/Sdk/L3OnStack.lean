import OpenNos.Sdk.AsicOnStack
import OpenNos.Sdk.Defip
import OpenNos.Sdk.L3Objects
import OpenNos.Sdk.RouteLpm

/-! The calls of `l3.c` on the whole stack. The entries of interfaces and next hops are
short; of the longer entry of a route word 5 arrives as MISC_CONTROL, where nothing of it
is read. -/

namespace OpenNos.Sdk

open Bits OpProg Component FirstFit Bde

variable {calls : ℕ → SbusCall} {a : Asic} {bar : ℕ → BitVec 32} {s : SbusChip} {d : SocDev}
  {k : ℕ}

/-- The static variables of `l3.c`. -/
structure L3Arrays where
  intfUsed : ℕ → Bool
  nhopUsed : ℕ → Bool
  defipUsed : ℕ → Bool
  defipPrefix : ℕ → BitVec 32
  defipPlen : ℕ → ℤ

/-- The static variables before any call. -/
def L3Arrays.init : L3Arrays where
  intfUsed := fun _ => false
  nhopUsed := fun _ => false
  defipUsed := fun _ => false
  defipPrefix := fun _ => 0
  defipPlen := fun _ => 0

def SdkState.arrays (s : SdkState) : L3Arrays where
  intfUsed := s.intfUsed
  nhopUsed := s.nhopUsed
  defipUsed := s.defipUsed
  defipPrefix := s.defipPrefix
  defipPlen := s.defipPlen

/-! ### The calls as programs of accesses

A call gives the arrays that it leaves and what it returns. -/

def l3IntfCreateProg (t : L3Arrays) (mac : Mac) (vid : BitVec 16) : Sbus (L3Arrays × Rc ℕ) :=
  match allocId t.intfUsed MAX_L3_INTF 1 with
  | none => return (t, .error .enospc)
  | some (id, used) => do
    if ← sbusMemWrite EGR_L3_INTF_BASE id (egrL3IntfPack mac vid) EGR_L3_INTF_WORDS then
      return ({ t with intfUsed := used }, .ok id)
    else return ({ t with intfUsed := freeId used MAX_L3_INTF id }, .error .eio)

def l3IntfDestroyProg (t : L3Arrays) (intfId : ℤ) : Sbus (L3Arrays × Rc Unit) :=
  if intfId ≤ 0 ∨ (MAX_L3_INTF : ℤ) ≤ intfId then return (t, .error .einval)
  else do
    discard <| sbusMemWrite EGR_L3_INTF_BASE intfId.toNat (fun _ => 0#32) EGR_L3_INTF_WORDS
    return ({ t with intfUsed := freeId t.intfUsed MAX_L3_INTF intfId }, .ok ())

def l3EgressCreateProg (t : L3Arrays) (egress : L3Egress) : Sbus (L3Arrays × Rc ℕ) :=
  if egress.port ≤ 0 ∨ 255 < egress.port then return (t, .error .einval)
  else if egress.intfId ≤ 0 ∨ (MAX_L3_INTF : ℤ) ≤ egress.intfId then return (t, .error .einval)
  else
    match allocId t.nhopUsed MAX_L3_NHOP 1 with
    | none => return (t, .error .enospc)
    | some (id, used) => do
      let failed : L3Arrays × Rc ℕ :=
        ({ t with nhopUsed := freeId used MAX_L3_NHOP id }, .error .eio)
      let ingw := ingL3NhopPack egress.port
      let egrw := egrL3NhopPack egress.mac egress.intfId
      if ← sbusMemWrite ING_L3_NEXT_HOP_BASE id ingw ING_L3_NEXT_HOP_WORDS then
        if ← sbusMemWrite EGR_L3_NEXT_HOP_BASE id egrw EGR_L3_NEXT_HOP_WORDS then
          return ({ t with nhopUsed := used }, .ok id)
        else return failed
      else return failed

def l3EgressDestroyProg (t : L3Arrays) (egressId : ℤ) : Sbus (L3Arrays × Rc Unit) :=
  if egressId ≤ 0 ∨ (MAX_L3_NHOP : ℤ) ≤ egressId then return (t, .error .einval)
  else do
    let id := egressId.toNat
    discard <| sbusMemWrite ING_L3_NEXT_HOP_BASE id (fun _ => 0#32) ING_L3_NEXT_HOP_WORDS
    discard <| sbusMemWrite EGR_L3_NEXT_HOP_BASE id (fun _ => 0#32) EGR_L3_NEXT_HOP_WORDS
    return ({ t with nhopUsed := freeId t.nhopUsed MAX_L3_NHOP egressId }, .ok ())

def L3Arrays.find (t : L3Arrays) (pfx : BitVec 32) (plen : ℤ) : Option ℕ :=
  findFirst (fun i => t.defipUsed i && t.defipPrefix i == pfx && t.defipPlen i == plen) 0
    MAX_L3_DEFIP

/-- The slot of the route: the one it has, else a new one, recorded for it. -/
def L3Arrays.slot (t : L3Arrays) (pfx : BitVec 32) (plen : ℤ) : Option (L3Arrays × ℕ) :=
  match t.find pfx plen with
  | some idx => some (t, idx)
  | none =>
    match allocId t.defipUsed MAX_L3_DEFIP 0 with
    | none => none
    | some (idx, used) =>
      let prefixes := Function.update t.defipPrefix idx pfx
      let plens := Function.update t.defipPlen idx plen
      some ({ t with defipUsed := used, defipPrefix := prefixes, defipPlen := plens }, idx)

def l3RouteAddProg (t : L3Arrays) (route : L3Route) : Sbus (L3Arrays × Rc Unit) :=
  if route.isIpv6 then return (t, .error .enotsup)
  else if route.prefixLen < 0 ∨ 32 < route.prefixLen then return (t, .error .einval)
  else if route.egressId ≤ 0 ∨ (MAX_L3_NHOP : ℤ) ≤ route.egressId then return (t, .error .einval)
  else
    let pfxHost := ntohl route.pfx
    match t.slot pfxHost route.prefixLen with
    | none => return (t, .error .enospc)
    | some (t, idx) => do
      let words := defipPackV4Ucast pfxHost route.prefixLen route.egressId
      if ← sbusMemWrite L3_DEFIP_BASE idx words L3_DEFIP_WORDS then return (t, .ok ())
      else return (t, .error .eio)

def l3RouteDeleteProg (t : L3Arrays) (route : L3Route) : Sbus (L3Arrays × Rc Unit) :=
  if route.isIpv6 then return (t, .error .enotsup)
  else if route.prefixLen < 0 ∨ 32 < route.prefixLen then return (t, .error .einval)
  else
    match t.find (ntohl route.pfx) route.prefixLen with
    | none => return (t, .ok ())
    | some idx => do
      discard <| sbusMemWrite L3_DEFIP_BASE idx (fun _ => 0#32) L3_DEFIP_WORDS
      let used := Function.update t.defipUsed idx false
      let prefixes := Function.update t.defipPrefix idx 0
      let plens := Function.update t.defipPlen idx 0
      return ({ t with defipUsed := used, defipPrefix := prefixes, defipPlen := plens }, .ok ())

def l3HostAddProg (t : L3Arrays) (host : L3Host) : Sbus (L3Arrays × Rc Unit) :=
  if host.isIpv6 then return (t, .error .enotsup)
  else
    l3RouteAddProg t
      { pfx := htonl host.addr, prefixLen := 32, egressId := host.egressId, isIpv6 := false }

/-- A call of `l3.c`. -/
inductive L3Call
  | object (c : L3ObjectCall)
  | route (c : RouteCall)

/-- What a call returns: an id or nothing. -/
inductive L3Reply
  | id (rc : Rc ℕ)
  | done (rc : Rc Unit)

def L3Call.prog (t : L3Arrays) : L3Call → Sbus (L3Arrays × L3Reply)
  | .object (.intfCreate mac vid) => return (← l3IntfCreateProg t mac vid).map id .id
  | .object (.intfDestroy intfId) => return (← l3IntfDestroyProg t intfId).map id .done
  | .object (.egressCreate egress) => return (← l3EgressCreateProg t egress).map id .id
  | .object (.egressDestroy egressId) => return (← l3EgressDestroyProg t egressId).map id .done
  | .route (.routeAdd r) => return (← l3RouteAddProg t r).map id .done
  | .route (.hostAdd host) => return (← l3HostAddProg t host).map id .done
  | .route (.routeDelete r) => return (← l3RouteDeleteProg t r).map id .done

/-! ### The same calls on the chip of tables and faults -/

def L3Call.perform (s : SdkState) : L3Call → SdkState × L3Reply
  | .object (.intfCreate mac vid) => (l3IntfCreate s mac vid).map id .id
  | .object (.intfDestroy intfId) => (l3IntfDestroy s intfId).map id .done
  | .object (.egressCreate egress) => (l3EgressCreate s egress).map id .id
  | .object (.egressDestroy egressId) => (l3EgressDestroy s egressId).map id .done
  | .route (.routeAdd r) => (l3RouteAdd s r).map id .done
  | .route (.hostAdd host) => (l3HostAdd s host).map id .done
  | .route (.routeDelete r) => (l3RouteDelete s r).map id .done

/-! ### Both agree -/

/-- A program gives what the call on the chip of tables and faults gives. -/
def GivesL3 {ρ : Type} (p : Sbus (L3Arrays × ρ)) (a : Asic) (r : SdkState × ρ) : Prop :=
  p.runOn (Asic.sbusStep id) a = ((r.1.arrays, r.2), r.1.asic)

theorem GivesL3.map {ρ ρ' : Type} {p : Sbus (L3Arrays × ρ)} {r : SdkState × ρ} (h : GivesL3 p a r)
    (f : ρ → ρ') : GivesL3 (do return (← p).map id f) a (r.map id f) := by
  rw [GivesL3, runOn_bind, h]
  rfl

theorem l3IntfCreateProg_gives (s : SdkState) (mac : Mac) (vid : BitVec 16) :
    GivesL3 (l3IntfCreateProg s.arrays mac vid) s.asic (l3IntfCreate s mac vid) := by
  have halloc : allocId s.arrays.intfUsed = allocId s.intfUsed := rfl
  rw [l3IntfCreateProg, l3IntfCreate, halloc]
  cases allocId s.intfUsed MAX_L3_INTF 1 with
  | none => rfl
  | some found =>
    obtain ⟨id', used⟩ := found
    dsimp only
    rw [GivesL3, runOn_bind, sbusMemWrite_runOn, id]
    obtain ⟨a', ok⟩ := s.asic.memWrite EGR_L3_INTF_BASE id' (egrL3IntfPack mac vid)
      EGR_L3_INTF_WORDS
    cases ok <;> rfl

theorem l3IntfDestroyProg_gives (s : SdkState) (intfId : ℤ) :
    GivesL3 (l3IntfDestroyProg s.arrays intfId) s.asic (l3IntfDestroy s intfId) := by
  rw [l3IntfDestroyProg, l3IntfDestroy]
  split_ifs
  · rfl
  · rw [GivesL3, runOn_bind, runOn_discard, sbusMemWrite_runOn]
    rfl

theorem l3EgressCreateProg_gives (s : SdkState) (egress : L3Egress) :
    GivesL3 (l3EgressCreateProg s.arrays egress) s.asic (l3EgressCreate s egress) := by
  have halloc : allocId s.arrays.nhopUsed = allocId s.nhopUsed := rfl
  rw [l3EgressCreateProg, l3EgressCreate, halloc]
  split_ifs
  · rfl
  · rfl
  · cases allocId s.nhopUsed MAX_L3_NHOP 1 with
    | none => rfl
    | some found =>
      obtain ⟨id', used⟩ := found
      dsimp only
      rw [GivesL3, runOn_bind, sbusMemWrite_runOn, id]
      obtain ⟨a', ok⟩ := s.asic.memWrite ING_L3_NEXT_HOP_BASE id' (ingL3NhopPack egress.port)
        ING_L3_NEXT_HOP_WORDS
      cases ok with
      | false => rfl
      | true =>
        dsimp only
        rw [if_pos rfl, runOn_bind, sbusMemWrite_runOn, id]
        obtain ⟨a'', ok'⟩ := a'.memWrite EGR_L3_NEXT_HOP_BASE id'
          (egrL3NhopPack egress.mac egress.intfId) EGR_L3_NEXT_HOP_WORDS
        cases ok' <;> rfl

theorem l3EgressDestroyProg_gives (s : SdkState) (egressId : ℤ) :
    GivesL3 (l3EgressDestroyProg s.arrays egressId) s.asic (l3EgressDestroy s egressId) := by
  rw [l3EgressDestroyProg, l3EgressDestroy]
  split_ifs
  · rfl
  · rw [GivesL3, runOn_bind, runOn_discard, sbusMemWrite_runOn, runOn_bind, runOn_discard,
      sbusMemWrite_runOn]
    rfl

/-- The slot of a route leaves the chip alone. -/
theorem slot_arrays (s : SdkState) (pfx : BitVec 32) (plen : ℤ) :
    (s.arrays.slot pfx plen = none ∧ defipSlot s pfx plen = none) ∨
      ∃ s' idx, s'.asic = s.asic ∧ s.arrays.slot pfx plen = some (s'.arrays, idx) ∧
        defipSlot s pfx plen = some (s', idx) := by
  have hfind : s.arrays.find pfx plen = defipFind s pfx plen := rfl
  have halloc : allocId s.arrays.defipUsed = allocId s.defipUsed := rfl
  rw [L3Arrays.slot, defipSlot, hfind, halloc]
  cases defipFind s pfx plen with
  | some idx => exact .inr ⟨s, idx, rfl, rfl, rfl⟩
  | none =>
    cases allocId s.defipUsed MAX_L3_DEFIP 0 with
    | none => exact .inl ⟨rfl, rfl⟩
    | some found =>
      let s' : SdkState :=
        { s with
          defipUsed := found.2
          defipPrefix := Function.update s.defipPrefix found.1 pfx
          defipPlen := Function.update s.defipPlen found.1 plen }
      exact .inr ⟨s', found.1, rfl, rfl, rfl⟩

theorem l3RouteAddProg_gives (s : SdkState) (route : L3Route) :
    GivesL3 (l3RouteAddProg s.arrays route) s.asic (l3RouteAdd s route) := by
  rw [l3RouteAddProg, l3RouteAdd]
  split_ifs
  · rfl
  · rfl
  · rfl
  · dsimp only
    rcases slot_arrays s (ntohl route.pfx) route.prefixLen with
      ⟨hslot, hslot'⟩ | ⟨s', idx, hasic, hslot, hslot'⟩
    · rw [hslot, hslot']
      rfl
    · rw [hslot, hslot']
      dsimp only
      rw [GivesL3, runOn_bind, sbusMemWrite_runOn, id, ← hasic, l3DefipWrite]
      obtain ⟨a', ok⟩ := s'.asic.memWrite L3_DEFIP_BASE idx
        (defipPackV4Ucast (ntohl route.pfx) route.prefixLen route.egressId) L3_DEFIP_WORDS
      cases ok <;> rfl

theorem l3RouteDeleteProg_gives (s : SdkState) (route : L3Route) :
    GivesL3 (l3RouteDeleteProg s.arrays route) s.asic (l3RouteDelete s route) := by
  have hfind (pfx : BitVec 32) (plen : ℤ) : s.arrays.find pfx plen = defipFind s pfx plen := rfl
  rw [l3RouteDeleteProg, l3RouteDelete, hfind]
  split_ifs
  · rfl
  · rfl
  · cases defipFind s (ntohl route.pfx) route.prefixLen with
    | none => rfl
    | some idx =>
      dsimp only
      rw [GivesL3, runOn_bind, runOn_discard, sbusMemWrite_runOn]
      rfl

theorem l3HostAddProg_gives (s : SdkState) (host : L3Host) :
    GivesL3 (l3HostAddProg s.arrays host) s.asic (l3HostAdd s host) := by
  rw [l3HostAddProg, l3HostAdd]
  split_ifs
  · rfl
  · exact l3RouteAddProg_gives s _

theorem L3Call.prog_gives (s : SdkState) (c : L3Call) :
    GivesL3 (c.prog s.arrays) s.asic (c.perform s) := by
  cases c with
  | object c =>
    cases c with
    | intfCreate mac vid => exact (l3IntfCreateProg_gives s mac vid).map L3Reply.id
    | intfDestroy intfId => exact (l3IntfDestroyProg_gives s intfId).map L3Reply.done
    | egressCreate egress => exact (l3EgressCreateProg_gives s egress).map L3Reply.id
    | egressDestroy egressId => exact (l3EgressDestroyProg_gives s egressId).map L3Reply.done
  | route c =>
    cases c with
    | routeAdd route => exact (l3RouteAddProg_gives s route).map L3Reply.done
    | hostAdd host => exact (l3HostAddProg_gives s host).map L3Reply.done
    | routeDelete route => exact (l3RouteDeleteProg_gives s route).map L3Reply.done

/-! ### Their accesses -/

/-- The tables of `l3.c`. -/
def l3Tables : Set (BitVec 32) :=
  {EGR_L3_INTF_BASE, ING_L3_NEXT_HOP_BASE, EGR_L3_NEXT_HOP_BASE, L3_DEFIP_BASE}

/-- Word 5 is written of the entries of routes only. -/
abbrev L3Access : SbusOp → Prop := TableAccess sdkTables l3Tables {L3_DEFIP_BASE}

theorem size_l3 : sdkTables.size EGR_L3_INTF_BASE = MAX_L3_INTF ∧
    sdkTables.size ING_L3_NEXT_HOP_BASE = MAX_L3_NHOP ∧
    sdkTables.size EGR_L3_NEXT_HOP_BASE = MAX_L3_NHOP ∧
    sdkTables.size L3_DEFIP_BASE = MAX_L3_DEFIP := by decide +kernel

theorem allocId_lt {used used' : ℕ → Bool} {max start id : ℕ}
    (h : allocId used max start = some (id, used')) : id < max := by
  obtain ⟨i, hi, heq⟩ := Option.map_eq_some_iff.mp h
  obtain rfl := (Prod.mk.inj heq).1
  exact (firstFree_mem hi).2

section Access

variable {index : ℕ} {data : Words}

theorem sbusMemWrite_l3Access {addr : BitVec 32} {n : ℕ}
    (h : L3Access (.memWrite addr index data n)) :
    (sbusMemWrite addr index data n).EachOp L3Access :=
  eachOp_bind (eachOp_perform h) fun _ => eachOp_pure _

theorem intfWrite_access (h : index < MAX_L3_INTF) :
    (sbusMemWrite EGR_L3_INTF_BASE index data EGR_L3_INTF_WORDS).EachOp L3Access :=
  sbusMemWrite_l3Access ⟨.inl rfl, h.trans_eq size_l3.1.symm, by decide, .inl (by decide)⟩

theorem ingNhopWrite_access (h : index < MAX_L3_NHOP) :
    (sbusMemWrite ING_L3_NEXT_HOP_BASE index data ING_L3_NEXT_HOP_WORDS).EachOp L3Access :=
  sbusMemWrite_l3Access ⟨.inr (.inl rfl), h.trans_eq size_l3.2.1.symm, by decide, .inl (by decide)⟩

theorem egrNhopWrite_access (h : index < MAX_L3_NHOP) :
    (sbusMemWrite EGR_L3_NEXT_HOP_BASE index data EGR_L3_NEXT_HOP_WORDS).EachOp L3Access :=
  sbusMemWrite_l3Access
    ⟨.inr (.inr (.inl rfl)), h.trans_eq size_l3.2.2.1.symm, by decide, .inl (by decide)⟩

theorem defipWrite_access (h : index < MAX_L3_DEFIP) :
    (sbusMemWrite L3_DEFIP_BASE index data L3_DEFIP_WORDS).EachOp L3Access :=
  sbusMemWrite_l3Access ⟨.inr (.inr (.inr rfl)), h.trans_eq size_l3.2.2.2.symm, by decide, .inr rfl⟩

end Access

theorem l3IntfCreateProg_access (t : L3Arrays) (mac : Mac) (vid : BitVec 16) :
    (l3IntfCreateProg t mac vid).EachOp L3Access := by
  rw [l3IntfCreateProg]
  cases halloc : allocId t.intfUsed MAX_L3_INTF 1 with
  | none => exact eachOp_pure _
  | some found =>
    refine eachOp_bind (intfWrite_access (allocId_lt halloc)) fun ok => ?_
    split_ifs <;> exact eachOp_pure _

theorem l3IntfDestroyProg_access (t : L3Arrays) (intfId : ℤ) :
    (l3IntfDestroyProg t intfId).EachOp L3Access := by
  rw [l3IntfDestroyProg]
  split_ifs with hid
  · exact eachOp_pure _
  · exact eachOp_bind (closed_eachOp.discard (intfWrite_access (by omega))) fun _ => eachOp_pure _

theorem l3EgressCreateProg_access (t : L3Arrays) (egress : L3Egress) :
    (l3EgressCreateProg t egress).EachOp L3Access := by
  rw [l3EgressCreateProg]
  split_ifs
  · exact eachOp_pure _
  · exact eachOp_pure _
  · cases halloc : allocId t.nhopUsed MAX_L3_NHOP 1 with
    | none => exact eachOp_pure _
    | some found =>
      refine eachOp_bind (ingNhopWrite_access (allocId_lt halloc)) fun ok => ?_
      split_ifs
      · refine eachOp_bind (egrNhopWrite_access (allocId_lt halloc)) fun ok => ?_
        split_ifs <;> exact eachOp_pure _
      · exact eachOp_pure _

theorem l3EgressDestroyProg_access (t : L3Arrays) (egressId : ℤ) :
    (l3EgressDestroyProg t egressId).EachOp L3Access := by
  rw [l3EgressDestroyProg]
  split_ifs with hid
  · exact eachOp_pure _
  · exact eachOp_bind (closed_eachOp.discard (ingNhopWrite_access (by omega))) fun _ =>
      eachOp_bind (closed_eachOp.discard (egrNhopWrite_access (by omega))) fun _ => eachOp_pure _

theorem L3Arrays.find_lt {t : L3Arrays} {pfx : BitVec 32} {plen : ℤ} {idx : ℕ}
    (h : t.find pfx plen = some idx) : idx < MAX_L3_DEFIP :=
  (findFirst_eq_some_iff.mp h).1.2

theorem L3Arrays.slot_lt {t t' : L3Arrays} {pfx : BitVec 32} {plen : ℤ} {idx : ℕ}
    (h : t.slot pfx plen = some (t', idx)) : idx < MAX_L3_DEFIP := by
  rw [L3Arrays.slot] at h
  cases hfind : t.find pfx plen with
  | some i =>
    rw [hfind] at h
    obtain ⟨-, rfl⟩ := Prod.mk.inj (Option.some.inj h)
    exact L3Arrays.find_lt hfind
  | none =>
    rw [hfind] at h
    cases halloc : allocId t.defipUsed MAX_L3_DEFIP 0 with
    | none =>
      rw [halloc] at h
      cases h
    | some found =>
      rw [halloc] at h
      obtain ⟨-, rfl⟩ := Prod.mk.inj (Option.some.inj h)
      exact allocId_lt halloc

theorem l3RouteAddProg_access (t : L3Arrays) (route : L3Route) :
    (l3RouteAddProg t route).EachOp L3Access := by
  rw [l3RouteAddProg]
  split_ifs
  · exact eachOp_pure _
  · exact eachOp_pure _
  · exact eachOp_pure _
  · dsimp only
    cases hslot : t.slot (ntohl route.pfx) route.prefixLen with
    | none => exact eachOp_pure _
    | some found =>
      refine eachOp_bind (defipWrite_access (L3Arrays.slot_lt hslot)) fun ok => ?_
      split_ifs <;> exact eachOp_pure _

theorem l3RouteDeleteProg_access (t : L3Arrays) (route : L3Route) :
    (l3RouteDeleteProg t route).EachOp L3Access := by
  rw [l3RouteDeleteProg]
  split_ifs
  · exact eachOp_pure _
  · exact eachOp_pure _
  · cases hfind : t.find (ntohl route.pfx) route.prefixLen with
    | none => exact eachOp_pure _
    | some idx =>
      exact eachOp_bind (closed_eachOp.discard (defipWrite_access (L3Arrays.find_lt hfind)))
        fun _ => eachOp_pure _

theorem l3HostAddProg_access (t : L3Arrays) (host : L3Host) :
    (l3HostAddProg t host).EachOp L3Access := by
  rw [l3HostAddProg]
  split_ifs
  · exact eachOp_pure _
  · exact l3RouteAddProg_access t _

theorem L3Call.prog_access (t : L3Arrays) (c : L3Call) : (c.prog t).EachOp L3Access := by
  cases c with
  | object c =>
    cases c with
    | intfCreate mac vid =>
      exact eachOp_bind (l3IntfCreateProg_access t mac vid) fun _ => eachOp_pure _
    | intfDestroy intfId =>
      exact eachOp_bind (l3IntfDestroyProg_access t intfId) fun _ => eachOp_pure _
    | egressCreate egress =>
      exact eachOp_bind (l3EgressCreateProg_access t egress) fun _ => eachOp_pure _
    | egressDestroy egressId =>
      exact eachOp_bind (l3EgressDestroyProg_access t egressId) fun _ => eachOp_pure _
  | route c =>
    cases c with
    | routeAdd route => exact eachOp_bind (l3RouteAddProg_access t route) fun _ => eachOp_pure _
    | hostAdd host => exact eachOp_bind (l3HostAddProg_access t host) fun _ => eachOp_pure _
    | routeDelete route =>
      exact eachOp_bind (l3RouteDeleteProg_access t route) fun _ => eachOp_pure _

/-- `l3.c` with its arrays. -/
abbrev l3File : Component SbusOp (Option Words) where
  State := L3Arrays
  Call := L3Call
  Reply := L3Reply
  prog := L3Call.prog
  Inv _ := True
  Ok := L3Access
  each c _ := c.prog_access _
  keeps _ _ := returns_true _

/-! ### On the stack -/

/-- Nothing that the chip reads in the entry of a route is in word 5. -/
theorem SameButFive.defipEntry {long : Set (BitVec 32)} {a b : Asic} (h : SameButFive long a b)
    (i : ℕ) : Sdk.defipEntry (a.mem L3_DEFIP_BASE i) = b.slot i := by
  have hvalid : defipValid (a.mem L3_DEFIP_BASE i) = defipValid (b.mem L3_DEFIP_BASE i) :=
    h.bit _ _ (by decide)
  have hkey : defipKey0 (a.mem L3_DEFIP_BASE i) = defipKey0 (b.mem L3_DEFIP_BASE i) :=
    h.field _ _ (by decide)
  have hmask : defipMask0 (a.mem L3_DEFIP_BASE i) = defipMask0 (b.mem L3_DEFIP_BASE i) :=
    h.field _ _ (by decide)
  have hnhop : defipNhop (a.mem L3_DEFIP_BASE i) = defipNhop (b.mem L3_DEFIP_BASE i) :=
    h.field _ _ (by decide)
  rw [Asic.slot, Sdk.defipEntry, Sdk.defipEntry, hvalid, hkey, hmask, hnhop]

/-- A history of calls of `l3.c` on the stack returns what it returns on the chip of tables and
faults, whatever accesses are lost. It leaves the tables of interfaces and next hops as
there, and in every slot of L3_DEFIP the chip reads the same entry. -/
theorem l3_on_stack (honest : ∀ k, (calls k).Honest) (hprov : Provides sdkTables bar s d)
    (hm : Mirrors calls a (k, d)) (history : List L3Call) :
    let run := (l3File.history .init history).runOn (stackStep calls) (k, s)
    let sdk := callAll L3Call.perform (.init a) history
    let chip (addr : BitVec 32) (index : ℕ) := run.2.2.space.mem (cellAddr addr index)
    run.1 = (sdk.1.arrays, sdk.2) ∧
      (∀ addr ≠ L3_DEFIP_BASE, ∀ index < sdkTables.size addr,
        chip addr index = sdk.1.asic.mem addr index) ∧
      ∀ index < MAX_L3_DEFIP, defipEntry (chip L3_DEFIP_BASE index) = sdk.1.asic.slot index := by
  have haccess := history_each (A := l3File) (t := .init) trivial history
  have hruns := history_runOn (A := l3File) (fun s c => c.prog_gives s) (.init a) history
  obtain ⟨hreply, hmem⟩ := runOn_asic honest haccess hprov hm
  obtain ⟨hreply', hsame⟩ := runOn_arrived (bar CMIC_MISC_CONTROL) haccess (.refl _ a)
  have hasic : ((l3File.history .init history).runOn (Asic.sbusStep id) a).2 =
    (callAll L3Call.perform (.init a) history).1.asic := congrArg Prod.snd hruns
  rw [hasic] at hsame
  refine ⟨(hreply.trans hreply').trans (congrArg Prod.fst hruns), fun addr hne index hindex => ?_,
    fun index hindex => ?_⟩
  · dsimp only
    rw [hmem addr index hindex]
    funext i
    exact hsame.mem addr index i (.inr hne)
  · dsimp only
    rw [hmem _ index (hindex.trans_eq size_l3.2.2.2.symm)]
    exact hsame.defipEntry index

theorem l3_on_stack_droppy :
    let history : List L3Call := [.object (.intfCreate (Vector.replicate 6 2) 10),
      .object (.egressCreate ⟨Vector.replicate 6 4, 3, 1⟩), .route (.routeAdd tenSlash8),
      .route (.hostAdd ⟨0x0a000001, false, 1⟩), .route (.routeDelete tenSlash8)]
    let run := (l3File.history .init history).runOn (stackStep droppyCalls) (0, blankChip)
    let sdk := callAll L3Call.perform (.init droppyAsic) history
    let chip (addr : BitVec 32) (index : ℕ) := run.2.2.space.mem (cellAddr addr index)
    run.1 = (sdk.1.arrays, sdk.2) ∧
      (∀ addr ≠ L3_DEFIP_BASE, ∀ index < sdkTables.size addr,
        chip addr index = sdk.1.asic.mem addr index) ∧
      ∀ index < MAX_L3_DEFIP, defipEntry (chip L3_DEFIP_BASE index) = sdk.1.asic.slot index :=
  l3_on_stack droppyCalls_honest droppy_provides droppy_mirrors _

end OpenNos.Sdk
