import OpenNos.Lib.Errno
import OpenNos.Sdk.VlanEntry

/-! The VLAN tables (`vlan.c`). Software keeps the words of every ingress and egress
entry beside bitmaps of the members, changes them first and then writes both
entries. The unit number, which the code ignores, is left out. -/

namespace OpenNos.Sdk

open Bits

def VLAN_BASE : BitVec 32 := 0x12168000

def EGR_VLAN_BASE : BitVec 32 := 0x0d260000

/-- The static arrays of `vlan.c` at one VID. -/
structure VlanShadow where
  vlanIng : Words
  vlanEgr : Words
  vlanValid : Bool
  vlanIngPbm : BitVec 64
  vlanEgrPbm : BitVec 64
  vlanEgrUtbm : BitVec 64

/-- The arrays before any call, and after `memset`. -/
def VlanShadow.cleared : VlanShadow where
  vlanIng := fun _ => 0#32
  vlanEgr := fun _ => 0#32
  vlanValid := false
  vlanIngPbm := 0
  vlanEgrPbm := 0
  vlanEgrUtbm := 0

structure VlanState where
  asic : Asic
  vlans : ℕ → VlanShadow

def VlanState.init (a : Asic) : VlanState where
  asic := a
  vlans := fun _ => .cleared

/-! ### The calls -/

def vlanWriteIng (s : VlanState) (vid : ℕ) : VlanState × Bool :=
  let (a, ok) := s.asic.memWrite VLAN_BASE vid (s.vlans vid).vlanIng VLAN_WORDS
  ({ s with asic := a }, ok)

def vlanWriteEgr (s : VlanState) (vid : ℕ) : VlanState × Bool :=
  let (a, ok) := s.asic.memWrite EGR_VLAN_BASE vid (s.vlans vid).vlanEgr EGR_VLAN_WORDS
  ({ s with asic := a }, ok)

/-- Both entries, the second only when the first is written. -/
def vlanWrite (s : VlanState) (vid : ℕ) : VlanState × Rc Unit :=
  match vlanWriteIng s vid with
  | (s, false) => (s, .error .eio)
  | (s, true) =>
    match vlanWriteEgr s vid with
    | (s, false) => (s, .error .eio)
    | (s, true) => (s, .ok ())

def VlanState.put (s : VlanState) (vid : ℕ) (e : VlanShadow) : VlanState :=
  { s with vlans := Function.update s.vlans vid e }

/-- A valid VLAN without members. -/
def VlanShadow.created : VlanShadow :=
  let ing := vlanSetPortBitmap (fun _ => 0#32) 0
  let ing := vlanSetIngPortBitmap ing 0
  let ing := vlanSetStgValidProfile ing 2 true 0
  let egr := egrVlanSetValidStg (fun _ => 0#32) 2 true
  let egr := egrVlanSetUtPortBitmap egr 0
  let egr := egrVlanSetPortBitmap egr 0
  { vlanIng := ing
    vlanEgr := egr
    vlanValid := true
    vlanIngPbm := 0
    vlanEgrPbm := 0
    vlanEgrUtbm := 0 }

def vlanCreate (s : VlanState) (vid : BitVec 16) : VlanState × Rc Unit :=
  if 4095 < vid.toNat then (s, .error .einval)
  else vlanWrite (s.put vid.toNat .created) vid.toNat

/-- One more member. -/
def VlanShadow.add (e : VlanShadow) (port : ℕ) (tagged : Bool) : VlanShadow :=
  let ingPbm := e.vlanIngPbm ||| 1#64 <<< port
  let ing := vlanSetPortBitmap e.vlanIng ingPbm
  let ing := vlanSetIngPortBitmap ing ingPbm
  let utbm := if tagged then e.vlanEgrUtbm else e.vlanEgrUtbm ||| 1#64 <<< port
  let pbm := e.vlanEgrPbm ||| 1#64 <<< port
  let egr := egrVlanSetUtPortBitmap e.vlanEgr utbm
  let egr := egrVlanSetPortBitmap egr pbm
  { vlanIng := ing
    vlanEgr := egr
    vlanValid := e.vlanValid
    vlanIngPbm := ingPbm
    vlanEgrPbm := pbm
    vlanEgrUtbm := utbm }

/-- The part of an add past the check that the VLAN exists. -/
def vlanAddMember (s : VlanState) (vid : ℕ) (port : ℕ) (tagged : Bool) : VlanState × Rc Unit :=
  vlanWrite (s.put vid ((s.vlans vid).add port tagged)) vid

def vlanPortAdd (s : VlanState) (vid : BitVec 16) (port : ℤ) (tagged : Bool) :
    VlanState × Rc Unit :=
  if 4095 < vid.toNat ∨ port ≤ 0 ∨ 52 < port then (s, .error .einval)
  else if (s.vlans vid.toNat).vlanValid then vlanAddMember s vid.toNat port.toNat tagged
  else
    match vlanCreate s vid with
    | (s, .error e) => (s, .error e)
    | (s, .ok ()) => vlanAddMember s vid.toNat port.toNat tagged

def vlanDestroy (s : VlanState) (vid : BitVec 16) : VlanState × Rc Unit :=
  if 4095 < vid.toNat then (s, .error .einval)
  else
    -- the results of the writes are ignored
    let s := s.put vid.toNat .cleared
    let s := (vlanWriteIng s vid.toNat).1
    ((vlanWriteEgr s vid.toNat).1, .ok ())

/-! ### A VLAN by its members -/

/-- A valid VLAN with these members, as the arrays hold it. -/
def VlanShadow.packed (pbm utbm : BitVec 64) : VlanShadow where
  vlanIng := ingPack pbm
  vlanEgr := egrPack pbm utbm
  vlanValid := true
  vlanIngPbm := pbm
  vlanEgrPbm := pbm
  vlanEgrUtbm := utbm

theorem VlanShadow.created_eq : VlanShadow.created = .packed 0 0 := rfl

/-- The untagged members after an add. -/
def addUntagged (utbm : BitVec 64) (port : ℕ) (tagged : Bool) : BitVec 64 :=
  if tagged then utbm else utbm ||| 1#64 <<< port

theorem VlanShadow.packed_add (pbm utbm : BitVec 64) (port : ℕ) (tagged : Bool) :
    (VlanShadow.packed pbm utbm).add port tagged =
      .packed (pbm ||| 1#64 <<< port) (addUntagged utbm port tagged) := by
  simp only [VlanShadow.add, VlanShadow.packed, ingPack_setBitmaps, egrPack_setBitmaps,
    addUntagged]

/-- The bitmap with one more bit. -/
theorem getLsbD_or_one (bm : BitVec 64) {port : ℕ} (hport : port < 64) (i : ℕ) :
    (bm ||| 1#64 <<< port).getLsbD i = (bm.getLsbD i || decide (i = port)) := by
  rw [BitVec.getLsbD_or, ← BitVec.twoPow_eq, BitVec.getLsbD_twoPow]
  simp [hport, eq_comm]

/-- A bitmap of just these ports. -/
def IsBitmap (bm : BitVec 64) (ports : Finset ℕ) : Prop := ∀ p, bm.getLsbD p = decide (p ∈ ports)

theorem isBitmap_zero : IsBitmap 0 ∅ := by
  intro p
  simp

theorem IsBitmap.with_port {bm : BitVec 64} {ports : Finset ℕ} (h : IsBitmap bm ports) {port : ℕ}
    (hport : port < 64) : IsBitmap (bm ||| 1#64 <<< port) (insert port ports) := by
  intro p
  rw [getLsbD_or_one bm hport, h p]
  simp [Bool.or_comm]

/-! ### The writes -/

variable {s : VlanState} {vid : ℕ}

/-- The two entries in hardware after both writes. -/
def Asic.storeVlan (a : Asic) (vid : ℕ) (e : VlanShadow) : Asic :=
  ((a.tick.store VLAN_BASE vid e.vlanIng VLAN_WORDS).tick.store EGR_VLAN_BASE vid e.vlanEgr
    EGR_VLAN_WORDS)

theorem vlanWrite_of_fault (h : s.asic.fault 0 = true) :
    vlanWrite s vid = ({ s with asic := s.asic.tick }, .error .eio) := by
  rw [vlanWrite, vlanWriteIng, Asic.memWrite_of_fault h]

theorem vlanWrite_of_egr_fault (h : s.asic.fault 0 = false) (h' : s.asic.fault 1 = true) :
    vlanWrite s vid =
      ({ s with
          asic := (s.asic.tick.store VLAN_BASE vid (s.vlans vid).vlanIng VLAN_WORDS).tick },
        .error .eio) := by
  have hegr : (s.asic.tick.store VLAN_BASE vid (s.vlans vid).vlanIng VLAN_WORDS).fault 0 = true :=
    h'
  rw [vlanWrite, vlanWriteIng, Asic.memWrite_of_not_fault h]
  simp only [vlanWriteEgr, Asic.memWrite_of_fault hegr]

theorem vlanWrite_of_not_fault (h : s.asic.fault 0 = false) (h' : s.asic.fault 1 = false) :
    vlanWrite s vid = ({ s with asic := s.asic.storeVlan vid (s.vlans vid) }, .ok ()) := by
  have hegr : (s.asic.tick.store VLAN_BASE vid (s.vlans vid).vlanIng VLAN_WORDS).fault 0 = false :=
    h'
  rw [vlanWrite, vlanWriteIng, Asic.memWrite_of_not_fault h]
  simp only [vlanWriteEgr, Asic.memWrite_of_not_fault hegr]
  rfl

theorem storeVlan_vlan (a : Asic) (vid : ℕ) (e : VlanShadow) :
    (a.storeVlan vid e).Holds VLAN_BASE vid VLAN_WORDS e.vlanIng := by
  rw [Asic.storeVlan, Asic.holds_store_of_ne _ (.inl (by decide)), Asic.holds_tick]
  exact Asic.holds_store_self _ _ _ _

theorem storeVlan_egr (a : Asic) (vid : ℕ) (e : VlanShadow) :
    (a.storeVlan vid e).Holds EGR_VLAN_BASE vid EGR_VLAN_WORDS e.vlanEgr :=
  Asic.holds_store_self _ _ _ _

theorem storeVlan_faultFree {a : Asic} (h : a.FaultFree) (vid : ℕ) (e : VlanShadow) :
    (a.storeVlan vid e).FaultFree := fun n => h (n + 2)

/-- Arrays and hardware agree that the VLAN has these members. -/
structure Settled (s : VlanState) (vid : ℕ) (pbm utbm : BitVec 64) : Prop where
  shadow : s.vlans vid = .packed pbm utbm
  ing : s.asic.Holds VLAN_BASE vid VLAN_WORDS (ingPack pbm)
  egr : s.asic.Holds EGR_VLAN_BASE vid EGR_VLAN_WORDS (egrPack pbm utbm)

section Bitmaps

variable {pbm utbm : BitVec 64} {ports : Finset ℕ} (h : Settled s vid pbm utbm)
  (hports : IsBitmap pbm ports) (p : ℕ)

include h hports

/-- The members are in the member bitmaps of both tables. -/
theorem Settled.vlanPortBitmap : (Sdk.vlanPortBitmap (s.asic.mem VLAN_BASE vid)).getLsbD p =
    decide (p ∈ ports) := by
  rw [Sdk.vlanPortBitmap, h.ing.field_eq (by decide), ← hports p]
  exact getLsbD_vlanPortBitmap_ingPack pbm p

theorem Settled.vlanIngPortBitmap :
    (Sdk.vlanIngPortBitmap (s.asic.mem VLAN_BASE vid)).getLsbD p = decide (p ∈ ports) := by
  rw [Sdk.vlanIngPortBitmap, h.ing.field_eq (by decide), ← hports p]
  exact getLsbD_vlanIngPortBitmap_ingPack pbm p

theorem Settled.egrVlanPortBitmap :
    (Sdk.egrVlanPortBitmap (s.asic.mem EGR_VLAN_BASE vid)).getLsbD p = decide (p ∈ ports) := by
  rw [Sdk.egrVlanPortBitmap, h.egr.field_eq (by decide), ← hports p]
  exact getLsbD_egrVlanPortBitmap_egrPack pbm utbm p

end Bitmaps

/-! ### The other VIDs -/

/-- The arrays and the tables are the same at every other VID. -/
def SameElsewhere (s s' : VlanState) (vid : ℕ) : Prop :=
  ∀ v ≠ vid, s'.vlans v = s.vlans v ∧ ∀ base, s'.asic.mem base v = s.asic.mem base v

theorem SameElsewhere.refl (s : VlanState) (vid : ℕ) : SameElsewhere s s vid :=
  fun _ _ => ⟨rfl, fun _ => rfl⟩

theorem SameElsewhere.trans {s s' s'' : VlanState} (h : SameElsewhere s s' vid)
    (h' : SameElsewhere s' s'' vid) : SameElsewhere s s'' vid := by
  intro v hv
  exact ⟨(h' v hv).1.trans (h v hv).1, fun base => ((h' v hv).2 base).trans ((h v hv).2 base)⟩

theorem put_elsewhere (s : VlanState) (vid : ℕ) (e : VlanShadow) :
    SameElsewhere s (s.put vid e) vid :=
  fun _ hv => ⟨Function.update_of_ne hv _ _, fun _ => rfl⟩

theorem vlanWriteIng_elsewhere (s : VlanState) (vid : ℕ) :
    SameElsewhere s (vlanWriteIng s vid).1 vid :=
  fun _ hv => ⟨rfl, fun _ => Asic.memWrite_mem_of_ne _ _ (.inr hv)⟩

theorem vlanWriteEgr_elsewhere (s : VlanState) (vid : ℕ) :
    SameElsewhere s (vlanWriteEgr s vid).1 vid :=
  fun _ hv => ⟨rfl, fun _ => Asic.memWrite_mem_of_ne _ _ (.inr hv)⟩

theorem vlanWrite_elsewhere (s : VlanState) (vid : ℕ) :
    SameElsewhere s (vlanWrite s vid).1 vid := by
  have hing := vlanWriteIng_elsewhere s vid
  rw [vlanWrite]
  cases hw : vlanWriteIng s vid with
  | mk s' ok =>
    rw [hw] at hing
    cases ok with
    | false => exact hing
    | true =>
      have hegr := vlanWriteEgr_elsewhere s' vid
      dsimp only
      cases hw' : vlanWriteEgr s' vid with
      | mk s'' ok' =>
        rw [hw'] at hegr
        cases ok' with
        | false => exact hing.trans hegr
        | true => exact hing.trans hegr

theorem Settled.elsewhere {pbm utbm : BitVec 64} (h : Settled s vid pbm utbm) {s' : VlanState}
    {v : ℕ} (hsame : SameElsewhere s s' v) (hne : vid ≠ v) : Settled s' vid pbm utbm := by
  obtain ⟨hshadow, hmem⟩ := hsame vid hne
  constructor
  · rw [hshadow, h.shadow]
  · simpa only [Asic.Holds, hmem] using h.ing
  · simpa only [Asic.Holds, hmem] using h.egr

theorem vlanCreate_elsewhere (s : VlanState) (vid : BitVec 16) :
    SameElsewhere s (vlanCreate s vid).1 vid.toNat := by
  rw [vlanCreate]
  split_ifs
  · exact .refl s vid.toNat
  · exact (put_elsewhere s _ _).trans (vlanWrite_elsewhere _ _)

theorem vlanAddMember_elsewhere (s : VlanState) (vid port : ℕ) (tagged : Bool) :
    SameElsewhere s (vlanAddMember s vid port tagged).1 vid :=
  (put_elsewhere s _ _).trans (vlanWrite_elsewhere _ _)

theorem vlanPortAdd_elsewhere (s : VlanState) (vid : BitVec 16) (port : ℤ) (tagged : Bool) :
    SameElsewhere s (vlanPortAdd s vid port tagged).1 vid.toNat := by
  have hcreate := vlanCreate_elsewhere s vid
  rw [vlanPortAdd]
  split_ifs
  · exact .refl s vid.toNat
  · exact vlanAddMember_elsewhere s _ _ _
  · cases hw : vlanCreate s vid with
    | mk s' rc =>
      rw [hw] at hcreate
      cases rc with
      | error e => exact hcreate
      | ok u => exact hcreate.trans (vlanAddMember_elsewhere s' _ _ _)

theorem vlanDestroy_elsewhere (s : VlanState) (vid : BitVec 16) :
    SameElsewhere s (vlanDestroy s vid).1 vid.toNat := by
  rw [vlanDestroy]
  split_ifs
  · exact .refl s vid.toNat
  · exact ((put_elsewhere s _ _).trans (vlanWriteIng_elsewhere _ _)).trans
      (vlanWriteEgr_elsewhere _ _)

/-! ### Without faults -/

/-- The VLAN is this one, in software and in hardware. -/
def VlanState.settle (s : VlanState) (vid : ℕ) (e : VlanShadow) : VlanState where
  asic := s.asic.storeVlan vid e
  vlans := Function.update s.vlans vid e

@[simp] theorem settle_vlans_self (s : VlanState) (vid : ℕ) (e : VlanShadow) :
    (s.settle vid e).vlans vid = e := Function.update_self _ _ _

theorem settled_settle (s : VlanState) (vid : ℕ) (pbm utbm : BitVec 64) :
    Settled (s.settle vid (.packed pbm utbm)) vid pbm utbm where
  shadow := settle_vlans_self s vid _
  ing := storeVlan_vlan s.asic vid (.packed pbm utbm)
  egr := storeVlan_egr s.asic vid (.packed pbm utbm)

theorem Settled.settle_add {pbm utbm : BitVec 64} (h : Settled s vid pbm utbm) (port : ℕ)
    (tagged : Bool) : Settled (s.settle vid ((s.vlans vid).add port tagged)) vid
      (pbm ||| 1#64 <<< port) (addUntagged utbm port tagged) := by
  rw [h.shadow, VlanShadow.packed_add]
  exact settled_settle s vid _ _

theorem vlanWrite_put (h : s.asic.FaultFree) (e : VlanShadow) :
    vlanWrite (s.put vid e) vid = (s.settle vid e, .ok ()) := by
  have hing : (s.put vid e).asic.fault 0 = false := h 0
  have hegr : (s.put vid e).asic.fault 1 = false := h 1
  rw [vlanWrite_of_not_fault hing hegr, VlanState.settle, VlanState.put]
  simp only [Function.update_self]

theorem vlanCreate_faultFree (h : s.asic.FaultFree) {vid : BitVec 16} (hvid : vid.toNat ≤ 4095) :
    vlanCreate s vid = (s.settle vid.toNat .created, .ok ()) := by
  rw [vlanCreate, if_neg (by omega), vlanWrite_put h]

theorem vlanAddMember_faultFree (h : s.asic.FaultFree) (port : ℕ) (tagged : Bool) :
    vlanAddMember s vid port tagged = (s.settle vid ((s.vlans vid).add port tagged), .ok ()) :=
  vlanWrite_put h _

/-- An add to a VLAN that exists. -/
theorem vlanPortAdd_of_valid (h : s.asic.FaultFree) {vid : BitVec 16} {port : ℤ} (tagged : Bool)
    (hok : ¬ (4095 < vid.toNat ∨ port ≤ 0 ∨ 52 < port))
    (hvalid : (s.vlans vid.toNat).vlanValid = true) :
    vlanPortAdd s vid port tagged =
      (s.settle vid.toNat ((s.vlans vid.toNat).add port.toNat tagged), .ok ()) := by
  rw [vlanPortAdd, if_neg hok, if_pos hvalid, vlanAddMember_faultFree h]

/-- An add that creates the VLAN first. -/
theorem vlanPortAdd_of_not_valid (h : s.asic.FaultFree) {vid : BitVec 16} {port : ℤ}
    (tagged : Bool) (hok : ¬ (4095 < vid.toNat ∨ port ≤ 0 ∨ 52 < port))
    (hvalid : (s.vlans vid.toNat).vlanValid = false) :
    vlanPortAdd s vid port tagged =
      ((s.settle vid.toNat .created).settle vid.toNat
        (VlanShadow.created.add port.toNat tagged), .ok ()) := by
  have hf : (s.settle vid.toNat .created).asic.FaultFree := storeVlan_faultFree h _ _
  rw [vlanPortAdd, if_neg hok, if_neg (by simp [hvalid]), vlanCreate_faultFree h (by omega)]
  dsimp only
  rw [vlanAddMember_faultFree hf, settle_vlans_self]

theorem vlanDestroy_faultFree (h : s.asic.FaultFree) {vid : BitVec 16} (hvid : vid.toNat ≤ 4095) :
    vlanDestroy s vid = (s.settle vid.toNat .cleared, .ok ()) := by
  have hing : (s.put vid.toNat .cleared).asic.fault 0 = false := h 0
  rw [vlanDestroy, if_neg (by omega)]
  simp only [vlanWriteIng, Asic.memWrite_of_not_fault hing, vlanWriteEgr]
  rw [Asic.memWrite_of_not_fault (h 1)]
  simp only [VlanState.settle, VlanState.put, Asic.storeVlan, Function.update_self]

end OpenNos.Sdk
