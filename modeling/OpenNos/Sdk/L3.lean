import OpenNos.Lib.FirstFit
import OpenNos.Sdk.L3Entry

/-! The L3 objects of `l3.c`: interfaces, next hops and routes, allocated from
arrays of marks and written to the chip. Pointer arguments are values here, so
the checks for NULL are absent, and the unit number, which the code ignores, is
left out. -/

namespace OpenNos.Sdk

open Bits FirstFit

/-- The chip and the static variables of `l3.c` and `port.c`. -/
structure SdkState where
  asic : Asic
  intfUsed : ℕ → Bool
  nhopUsed : ℕ → Bool
  defipUsed : ℕ → Bool
  defipPrefix : ℕ → BitVec 32
  defipPlen : ℕ → ℤ
  xlportEnableShadow : ℕ → BitVec 32

/-- The static variables before any call. -/
def SdkState.init (asic : Asic) : SdkState where
  asic := asic
  intfUsed := fun _ => false
  nhopUsed := fun _ => false
  defipUsed := fun _ => false
  defipPrefix := fun _ => 0
  defipPlen := fun _ => 0
  xlportEnableShadow := fun _ => 0

def EGR_L3_INTF_BASE : BitVec 32 := 0x01264000

def ING_L3_NEXT_HOP_BASE : BitVec 32 := 0x0e17c000

def EGR_L3_NEXT_HOP_BASE : BitVec 32 := 0x0c260000

def L3_DEFIP_BASE : BitVec 32 := 0x0a170000

theorem intf_ne_ingNhop : EGR_L3_INTF_BASE ≠ ING_L3_NEXT_HOP_BASE := by decide

theorem intf_ne_egrNhop : EGR_L3_INTF_BASE ≠ EGR_L3_NEXT_HOP_BASE := by decide

theorem ingNhop_ne_egrNhop : ING_L3_NEXT_HOP_BASE ≠ EGR_L3_NEXT_HOP_BASE := by decide

def MAX_L3_INTF : ℕ := 4096

def MAX_L3_NHOP : ℕ := 16384

def MAX_L3_DEFIP : ℕ := 8192

/-- The id found and the marks with it set. -/
def allocId (used : ℕ → Bool) (max start : ℕ) : Option (ℕ × (ℕ → Bool)) :=
  (firstFree used start max).map fun i => (i, Function.update used i true)

def freeId (used : ℕ → Bool) (max : ℕ) (id : ℤ) : ℕ → Bool :=
  if 0 < id ∧ id < max then Function.update used id.toNat false else used

/-- The target is big-endian, as network order is. -/
def ntohl (x : BitVec 32) : BitVec 32 := x

def htonl (x : BitVec 32) : BitVec 32 := x

/-! ### Interfaces -/

def l3IntfCreate (s : SdkState) (mac : Mac) (vid : BitVec 16) : SdkState × Rc ℕ :=
  match allocId s.intfUsed MAX_L3_INTF 1 with
  | none => (s, .error .enospc)
  | some (id, used) =>
    match s.asic.memWrite EGR_L3_INTF_BASE id (egrL3IntfPack mac vid) EGR_L3_INTF_WORDS with
    | (a, true) => ({ s with asic := a, intfUsed := used }, .ok id)
    | (a, false) =>
      ({ s with asic := a, intfUsed := freeId used MAX_L3_INTF id }, .error .eio)

def l3IntfDestroy (s : SdkState) (intfId : ℤ) : SdkState × Rc Unit :=
  if intfId ≤ 0 ∨ (MAX_L3_INTF : ℤ) ≤ intfId then (s, .error .einval)
  else
    -- the result of the write is ignored
    let a := (s.asic.memWrite EGR_L3_INTF_BASE intfId.toNat (fun _ => 0#32) EGR_L3_INTF_WORDS).1
    ({ s with asic := a, intfUsed := freeId s.intfUsed MAX_L3_INTF intfId }, .ok ())

/-! ### Next hops -/

/-- `bcm56846_l3_egress_t`; its VLAN is not used. -/
structure L3Egress where
  mac : Mac
  port : ℤ
  intfId : ℤ

def l3EgressCreate (s : SdkState) (egress : L3Egress) : SdkState × Rc ℕ :=
  if egress.port ≤ 0 ∨ 255 < egress.port then (s, .error .einval)
  else if egress.intfId ≤ 0 ∨ (MAX_L3_INTF : ℤ) ≤ egress.intfId then (s, .error .einval)
  else
    match allocId s.nhopUsed MAX_L3_NHOP 1 with
    | none => (s, .error .enospc)
    | some (id, used) =>
      let failed (a : Asic) : SdkState × Rc ℕ :=
        ({ s with asic := a, nhopUsed := freeId used MAX_L3_NHOP id }, .error .eio)
      let ingw := ingL3NhopPack egress.port
      let egrw := egrL3NhopPack egress.mac egress.intfId
      match s.asic.memWrite ING_L3_NEXT_HOP_BASE id ingw ING_L3_NEXT_HOP_WORDS with
      | (a, false) => failed a
      | (a, true) =>
        match a.memWrite EGR_L3_NEXT_HOP_BASE id egrw EGR_L3_NEXT_HOP_WORDS with
        | (a, false) => failed a
        | (a, true) => ({ s with asic := a, nhopUsed := used }, .ok id)

def l3EgressDestroy (s : SdkState) (egressId : ℤ) : SdkState × Rc Unit :=
  if egressId ≤ 0 ∨ (MAX_L3_NHOP : ℤ) ≤ egressId then (s, .error .einval)
  else
    -- the results of the writes are ignored
    let id := egressId.toNat
    let a := (s.asic.memWrite ING_L3_NEXT_HOP_BASE id (fun _ => 0#32) ING_L3_NEXT_HOP_WORDS).1
    let a := (a.memWrite EGR_L3_NEXT_HOP_BASE id (fun _ => 0#32) EGR_L3_NEXT_HOP_WORDS).1
    ({ s with asic := a, nhopUsed := freeId s.nhopUsed MAX_L3_NHOP egressId }, .ok ())

/-! ### Routes -/

/-- `bcm56846_l3_route_t` without the IPv6 address, which is not used. -/
structure L3Route where
  pfx : BitVec 32
  prefixLen : ℤ
  egressId : ℤ
  isIpv6 : Bool

def defipFind (s : SdkState) (pfx : BitVec 32) (plen : ℤ) : Option ℕ :=
  findFirst (fun i => s.defipUsed i && s.defipPrefix i == pfx && s.defipPlen i == plen) 0
    MAX_L3_DEFIP

def l3DefipWrite (s : SdkState) (index : ℕ) (words : Words) : SdkState × Bool :=
  let (a, ok) := s.asic.memWrite L3_DEFIP_BASE index words L3_DEFIP_WORDS
  ({ s with asic := a }, ok)

/-- The slot of the route: the one it has, else a new one, recorded for it. -/
def defipSlot (s : SdkState) (pfx : BitVec 32) (plen : ℤ) : Option (SdkState × ℕ) :=
  match defipFind s pfx plen with
  | some idx => some (s, idx)
  | none =>
    match allocId s.defipUsed MAX_L3_DEFIP 0 with
    | none => none
    | some (idx, used) =>
      let prefixes := Function.update s.defipPrefix idx pfx
      let plens := Function.update s.defipPlen idx plen
      some ({ s with defipUsed := used, defipPrefix := prefixes, defipPlen := plens }, idx)

def l3RouteAdd (s : SdkState) (route : L3Route) : SdkState × Rc Unit :=
  if route.isIpv6 then (s, .error .enotsup)
  else if route.prefixLen < 0 ∨ 32 < route.prefixLen then (s, .error .einval)
  else if route.egressId ≤ 0 ∨ (MAX_L3_NHOP : ℤ) ≤ route.egressId then (s, .error .einval)
  else
    let pfxHost := ntohl route.pfx
    match defipSlot s pfxHost route.prefixLen with
    | none => (s, .error .enospc)
    | some (s, idx) =>
      match l3DefipWrite s idx (defipPackV4Ucast pfxHost route.prefixLen route.egressId) with
      | (s, true) => (s, .ok ())
      | (s, false) => (s, .error .eio)

def l3RouteDelete (s : SdkState) (route : L3Route) : SdkState × Rc Unit :=
  if route.isIpv6 then (s, .error .enotsup)
  else if route.prefixLen < 0 ∨ 32 < route.prefixLen then (s, .error .einval)
  else
    match defipFind s (ntohl route.pfx) route.prefixLen with
    | none => (s, .ok ())
    | some idx =>
      let (s, _) := l3DefipWrite s idx (fun _ => 0#32)
      let used := Function.update s.defipUsed idx false
      let prefixes := Function.update s.defipPrefix idx 0
      let plens := Function.update s.defipPlen idx 0
      ({ s with defipUsed := used, defipPrefix := prefixes, defipPlen := plens }, .ok ())

/-- `bcm56846_l3_host_t` with the address word the code reads. -/
structure L3Host where
  addr : BitVec 32
  isIpv6 : Bool
  egressId : ℤ

def l3HostAdd (s : SdkState) (host : L3Host) : SdkState × Rc Unit :=
  if host.isIpv6 then (s, .error .enotsup)
  else
    l3RouteAdd s
      { pfx := htonl host.addr, prefixLen := 32, egressId := host.egressId, isIpv6 := false }

end OpenNos.Sdk
