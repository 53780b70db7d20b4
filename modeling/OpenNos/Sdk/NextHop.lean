import OpenNos.Sdk.Defip

/-! The chain behind a slot of L3_DEFIP as the chip follows it: the port of the
next hop, its interface and destination address, and the source address of the
interface. Each call that allocates or frees an object of the chain is reduced
to its effect on a fault-free chip. -/

namespace OpenNos.Sdk

open Bits FirstFit

/-- What the chip reads in the tables behind the slots. -/
structure Chain where
  /-- PORT_NUM of a next hop -/
  hopPort : ℕ → BitVec 7
  /-- INTF_NUM of a next hop -/
  hopIntf : ℕ → BitVec 12
  /-- MAC_ADDRESS of a next hop -/
  hopMac : ℕ → BitVec 48
  /-- MAC_ADDRESS of an interface -/
  srcMac : ℕ → BitVec 48

def Asic.chain (a : Asic) : Chain where
  hopPort n := nhopPort (a.mem ING_L3_NEXT_HOP_BASE n)
  hopIntf n := nhopIntf (a.mem EGR_L3_NEXT_HOP_BASE n)
  hopMac n := nhopMac (a.mem EGR_L3_NEXT_HOP_BASE n)
  srcMac n := intfMac (a.mem EGR_L3_INTF_BASE n)

/-- A write to any other table leaves the chain. -/
theorem chain_store_of_ne (a : Asic) {base : BitVec 32} (hi : base ≠ ING_L3_NEXT_HOP_BASE)
    (he : base ≠ EGR_L3_NEXT_HOP_BASE) (hs : base ≠ EGR_L3_INTF_BASE) (i : ℕ) (w : Words) (n : ℕ) :
    (a.store base i w n).chain = a.chain := by
  simp only [Asic.chain, Asic.store_mem_base hi.symm, Asic.store_mem_base he.symm,
    Asic.store_mem_base hs.symm]

/-- Reading one field of every entry of a table after a write of one entry. -/
theorem read_store {α : Type*} (a : Asic) (base : BitVec 32) (i : ℕ) (w : Words) (n : ℕ)
    (f : Words → α) (hf : f (splice n w (a.mem base i)) = f w) :
    (fun k => f ((a.store base i w n).mem base k)) =
      Function.update (fun k => f (a.mem base k)) i (f w) := by
  funext k
  rcases eq_or_ne k i with rfl | hk
  · rw [Function.update_self, Asic.store_mem_self, hf]
  · rw [Function.update_of_ne hk, Asic.store_mem_of_ne _ _ (.inr hk)]

/-! ### Effects -/

namespace SdkState

/-- Next hop `id` is allocated and written. -/
def withEgress (s : SdkState) (id : ℕ) (egress : L3Egress) : SdkState :=
  let ingw := ingL3NhopPack egress.port
  let egrw := egrL3NhopPack egress.mac egress.intfId
  let a := s.asic.store ING_L3_NEXT_HOP_BASE id ingw ING_L3_NEXT_HOP_WORDS
  { s with
    asic := a.store EGR_L3_NEXT_HOP_BASE id egrw EGR_L3_NEXT_HOP_WORDS
    nhopUsed := Function.update s.nhopUsed id true }

/-- Interface `id` is allocated and written. -/
def withIntf (s : SdkState) (id : ℕ) (mac : Mac) (vid : BitVec 16) : SdkState :=
  { s with
    asic := s.asic.store EGR_L3_INTF_BASE id (egrL3IntfPack mac vid) EGR_L3_INTF_WORDS
    intfUsed := Function.update s.intfUsed id true }

/-- Interface `id` is cleared and freed. -/
def withoutIntf (s : SdkState) (id : ℕ) : SdkState :=
  { s with
    asic := s.asic.store EGR_L3_INTF_BASE id (fun _ => 0#32) EGR_L3_INTF_WORDS
    intfUsed := Function.update s.intfUsed id false }

end SdkState

/-- The next hops `l3EgressCreate` takes. -/
def L3Egress.Accepted (e : L3Egress) : Prop :=
  (0 < e.port ∧ e.port ≤ 255) ∧ 0 < e.intfId ∧ e.intfId < MAX_L3_INTF

instance (e : L3Egress) : Decidable e.Accepted := by unfold L3Egress.Accepted; infer_instance

variable {s : SdkState} {e : L3Egress}

theorem l3EgressCreate_of_rejected (s : SdkState) (he : ¬ e.Accepted) :
    l3EgressCreate s e = (s, .error .einval) := by
  unfold l3EgressCreate
  by_cases hp : e.port ≤ 0 ∨ 255 < e.port
  · exact if_pos hp
  by_cases hi : e.intfId ≤ 0 ∨ (MAX_L3_INTF : ℤ) ≤ e.intfId
  · exact (if_neg hp).trans (if_pos hi)
  · exact absurd ⟨by omega, by omega⟩ he

theorem l3EgressCreate_of_full (he : e.Accepted)
    (hfull : firstFree s.nhopUsed 1 MAX_L3_NHOP = none) :
    l3EgressCreate s e = (s, .error .enospc) := by
  obtain ⟨hp, hi⟩ := he
  rw [l3EgressCreate, if_neg (by omega), if_neg (by omega), allocId, hfull]
  rfl

theorem l3EgressCreate_of_firstFree (hf : s.asic.FaultFree) (he : e.Accepted) {id : ℕ}
    (hid : firstFree s.nhopUsed 1 MAX_L3_NHOP = some id) :
    l3EgressCreate s e = (s.withEgress id e, .ok id) := by
  obtain ⟨hp, hi⟩ := he
  rw [l3EgressCreate, if_neg (by omega), if_neg (by omega), allocId, hid]
  simp only [Option.map_some, hf.memWrite, (hf.store _ _ _ _).memWrite]
  rfl

theorem l3IntfCreate_of_full (mac : Mac) (vid : BitVec 16)
    (hfull : firstFree s.intfUsed 1 MAX_L3_INTF = none) :
    l3IntfCreate s mac vid = (s, .error .enospc) := by
  rw [l3IntfCreate, allocId, hfull]
  rfl

theorem l3IntfCreate_of_firstFree (hf : s.asic.FaultFree) (mac : Mac) (vid : BitVec 16) {id : ℕ}
    (hid : firstFree s.intfUsed 1 MAX_L3_INTF = some id) :
    l3IntfCreate s mac vid = (s.withIntf id mac vid, .ok id) := by
  rw [l3IntfCreate, allocId, hid]
  simp only [Option.map_some, hf.memWrite]
  rfl

theorem l3IntfDestroy_of_faultFree (hf : s.asic.FaultFree) {id : ℕ}
    (hid : 0 < id ∧ id < MAX_L3_INTF) : l3IntfDestroy s id = (s.withoutIntf id, .ok ()) := by
  rw [l3IntfDestroy, if_neg (by omega), hf.memWrite, freeId, if_pos (by omega), Int.toNat_natCast]
  rfl

/-! ### What each effect leaves and changes -/

section Frame

variable (s) (id : ℕ) (e) (mac : Mac) (vid : BitVec 16) (r : L3Route)

@[simp] theorem slot_withEgress : (s.withEgress id e).asic.slot = s.asic.slot := by
  rw [SdkState.withEgress, slot_store_of_ne _ (by decide), slot_store_of_ne _ (by decide)]

@[simp] theorem slot_withIntf : (s.withIntf id mac vid).asic.slot = s.asic.slot := by
  rw [SdkState.withIntf, slot_store_of_ne _ (by decide)]

@[simp] theorem slot_withoutIntf : (s.withoutIntf id).asic.slot = s.asic.slot := by
  rw [SdkState.withoutIntf, slot_store_of_ne _ (by decide)]

@[simp] theorem chain_withRoute (i : ℕ) : (s.withRoute i r).asic.chain = s.asic.chain :=
  chain_store_of_ne _ (by decide) (by decide) (by decide) _ _ _

@[simp] theorem chain_withoutRoute (i : ℕ) : (s.withoutRoute i).asic.chain = s.asic.chain :=
  chain_store_of_ne _ (by decide) (by decide) (by decide) _ _ _

@[simp] theorem chain_withEgress : (s.withEgress id e).asic.chain =
    { s.asic.chain with
      hopPort := Function.update s.asic.chain.hopPort id (BitVec.ofInt 7 e.port)
      hopIntf := Function.update s.asic.chain.hopIntf id (BitVec.ofInt 12 e.intfId)
      hopMac := Function.update s.asic.chain.hopMac id e.mac.u48 } := by
  simp only [Asic.chain, SdkState.withEgress, Chain.mk.injEq, Asic.store_mem_base intf_ne_egrNhop,
    Asic.store_mem_base intf_ne_ingNhop, Asic.store_mem_base ingNhop_ne_egrNhop, and_true]
  refine ⟨?_, ?_, ?_⟩
  · rw [read_store _ _ _ _ ING_L3_NEXT_HOP_WORDS nhopPort (field_splice _ _ (by decide)),
      nhopPort_ingL3NhopPack]
  · rw [read_store _ _ _ _ EGR_L3_NEXT_HOP_WORDS nhopIntf (field_splice _ _ (by decide)),
      nhopIntf_egrL3NhopPack, Asic.store_mem_base ingNhop_ne_egrNhop.symm]
  · rw [read_store _ _ _ _ EGR_L3_NEXT_HOP_WORDS nhopMac (field_splice _ _ (by decide)),
      nhopMac_egrL3NhopPack, Asic.store_mem_base ingNhop_ne_egrNhop.symm]

@[simp] theorem chain_withIntf : (s.withIntf id mac vid).asic.chain =
    { s.asic.chain with srcMac := Function.update s.asic.chain.srcMac id mac.u48 } := by
  simp only [Asic.chain, SdkState.withIntf, Chain.mk.injEq,
    Asic.store_mem_base intf_ne_ingNhop.symm, Asic.store_mem_base intf_ne_egrNhop.symm, true_and]
  rw [read_store _ _ _ _ EGR_L3_INTF_WORDS intfMac (field_splice _ _ (by decide)),
    intfMac_egrL3IntfPack]

@[simp] theorem chain_withoutIntf : (s.withoutIntf id).asic.chain =
    { s.asic.chain with srcMac := Function.update s.asic.chain.srcMac id 0 } := by
  simp only [Asic.chain, SdkState.withoutIntf, Chain.mk.injEq,
    Asic.store_mem_base intf_ne_ingNhop.symm, Asic.store_mem_base intf_ne_egrNhop.symm, true_and]
  rw [read_store _ _ _ _ EGR_L3_INTF_WORDS intfMac (field_splice _ _ (by decide)), intfMac,
    field_zero]

end Frame

/-! ### The route store does not notice -/

theorem RouteStore.withEgress (h : RouteStore s) (id : ℕ) (e : L3Egress) :
    RouteStore (s.withEgress id e) where
  faultFree := h.faultFree
  free := by rw [slot_withEgress]; exact h.free
  live := by rw [slot_withEgress]; exact h.live
  plen := h.plen
  distinct := h.distinct

theorem RouteStore.withIntf (h : RouteStore s) (id : ℕ) (mac : Mac) (vid : BitVec 16) :
    RouteStore (s.withIntf id mac vid) where
  faultFree := h.faultFree
  free := by rw [slot_withIntf]; exact h.free
  live := by rw [slot_withIntf]; exact h.live
  plen := h.plen
  distinct := h.distinct

theorem RouteStore.withoutIntf (h : RouteStore s) (id : ℕ) : RouteStore (s.withoutIntf id) where
  faultFree := h.faultFree
  free := by rw [slot_withoutIntf]; exact h.free
  live := by rw [slot_withoutIntf]; exact h.live
  plen := h.plen
  distinct := h.distinct

end OpenNos.Sdk
