import OpenNos.Lib.History
import OpenNos.Sdk.Vlan

/-! The VLAN tables over any history of creates, adds and destroys with an ideal
transport. Beside the SDK stands the record of each VID: whether it was created or
destroyed last, and the ports added since. -/

namespace OpenNos.Sdk

open Bits History

inductive VlanCall
  | create (vid : BitVec 16)
  | portAdd (vid : BitVec 16) (port : ℤ) (tagged : Bool)
  | destroy (vid : BitVec 16)

def VlanCall.vid : VlanCall → BitVec 16
  | .create vid => vid
  | .portAdd vid _ _ => vid
  | .destroy vid => vid

def VlanCall.perform (s : VlanState) : VlanCall → VlanState × Rc Unit
  | .create vid => vlanCreate s vid
  | .portAdd vid port tagged => vlanPortAdd s vid port tagged
  | .destroy vid => vlanDestroy s vid

/-- The arguments that the calls take. -/
def VlanCall.Valid : VlanCall → Prop
  | .create vid => vid.toNat ≤ 4095
  | .portAdd vid port _ => vid.toNat ≤ 4095 ∧ 1 ≤ port ∧ port ≤ 52
  | .destroy vid => vid.toNat ≤ 4095

/-- What the calls on a VID came to: never created, created with these ports added
since, or destroyed. -/
inductive VidRecord
  | untouched
  | live (ports untagged : Finset ℕ)
  | destroyed

namespace VidRecord

/-- The ports and the untagged ones among them. -/
def members : VidRecord → Finset ℕ × Finset ℕ
  | .untouched => (∅, ∅)
  | .live ports untagged => (ports, untagged)
  | .destroyed => (∅, ∅)

/-- What a call that returned 0 makes of the record. -/
def after (r : VidRecord) : VlanCall → VidRecord
  | .create _ => .live ∅ ∅
  | .portAdd _ port tagged =>
    let untagged := if tagged then r.members.2 else insert port.toNat r.members.2
    .live (insert port.toNat r.members.1) untagged
  | .destroy _ => .destroyed

end VidRecord

structure VlanLog where
  sdk : VlanState
  vids : ℕ → VidRecord

def VlanLog.init (a : Asic) : VlanLog where
  sdk := VlanState.init a
  vids := fun _ => .untouched

def VlanLog.step (t : VlanLog) (c : VlanCall) : VlanLog :=
  match c.perform t.sdk with
  | (s, .ok ()) =>
    let v := c.vid.toNat
    { sdk := s, vids := Function.update t.vids v ((t.vids v).after c) }
  | (s, .error _) => { t with sdk := s }

/-- The two entries of a VLAN with these members. -/
structure VlanDecodes (a : Asic) (vid : ℕ) (ports untagged : Finset ℕ) : Prop where
  valid : vlanEntryValid (a.mem VLAN_BASE vid) = true
  stg : vlanEntryStg (a.mem VLAN_BASE vid) = 2
  portBitmap : ∀ p, (vlanPortBitmap (a.mem VLAN_BASE vid)).getLsbD p = decide (p ∈ ports)
  ingPortBitmap : ∀ p, (vlanIngPortBitmap (a.mem VLAN_BASE vid)).getLsbD p = decide (p ∈ ports)
  egrValid : egrVlanValid (a.mem EGR_VLAN_BASE vid) = true
  egrStg : egrVlanStg (a.mem EGR_VLAN_BASE vid) = 2
  egrPortBitmap : ∀ p, (egrVlanPortBitmap (a.mem EGR_VLAN_BASE vid)).getLsbD p = decide (p ∈ ports)
  utPortBitmap :
    ∀ p, (egrVlanUtPortBitmap (a.mem EGR_VLAN_BASE vid)).getLsbD p = decide (p ∈ untagged)
  subset : untagged ⊆ ports

/-- The entries of a VID are as its record says. -/
def VidDecodes (a : Asic) (vid : ℕ) : VidRecord → Prop
  | .untouched => True
  | .live ports untagged => VlanDecodes a vid ports untagged
  | .destroyed => a.Holds VLAN_BASE vid VLAN_WORDS (fun _ => 0#32) ∧
      a.Holds EGR_VLAN_BASE vid EGR_VLAN_WORDS (fun _ => 0#32)

/-- A call leaves the entries of every other VID. -/
def OthersKept (t : VlanLog) (c : VlanCall) : Prop :=
  ∀ vid ≠ c.vid.toNat,
    (c.perform t.sdk).1.asic.mem VLAN_BASE vid = t.sdk.asic.mem VLAN_BASE vid ∧
      (c.perform t.sdk).1.asic.mem EGR_VLAN_BASE vid = t.sdk.asic.mem EGR_VLAN_BASE vid

/-- A call with valid arguments returns 0, and another one does nothing. -/
structure CallAnswers (t : VlanLog) (c : VlanCall) : Prop where
  done : c.Valid → (c.perform t.sdk).2 = .ok ()
  rejected : ¬ c.Valid → c.perform t.sdk = (t.sdk, .error .einval)

/-- The arrays and the hardware hold a VID as recorded. -/
def VidSound (s : VlanState) (vid : ℕ) : VidRecord → Prop
  | .untouched => (s.vlans vid).vlanValid = false
  | .live ports untagged => ∃ pbm utbm, Settled s vid pbm utbm ∧
      IsBitmap pbm ports ∧ IsBitmap utbm untagged ∧ untagged ⊆ ports
  | .destroyed => (s.vlans vid).vlanValid = false ∧
      s.asic.Holds VLAN_BASE vid VLAN_WORDS (fun _ => 0#32) ∧
        s.asic.Holds EGR_VLAN_BASE vid EGR_VLAN_WORDS (fun _ => 0#32)

/-- What every call keeps. -/
structure VlanSound (t : VlanLog) : Prop where
  faultFree : t.sdk.asic.FaultFree
  vids : ∀ vid, VidSound t.sdk vid (t.vids vid)

variable {s : VlanState} {vid : ℕ} {r : VidRecord}

theorem IsBitmap.with_untagged {utbm : BitVec 64} {untagged : Finset ℕ} (h : IsBitmap utbm untagged)
    {port : ℕ} (hport : port < 64) (tagged : Bool) :
    IsBitmap (addUntagged utbm port tagged)
      (if tagged then untagged else insert port untagged) := by
  cases tagged with
  | true => exact h
  | false => exact h.with_port hport

/-! ### One VID -/

/-- A live VID decodes to its members. -/
theorem VidSound.decodes (h : VidSound s vid r) : VidDecodes s.asic vid r := by
  cases r with
  | untouched => trivial
  | destroyed => exact h.2
  | live ports untagged =>
    obtain ⟨pbm, utbm, hset, hports, hut, hsub⟩ := h
    have hing := hset.ing
    have hegr := hset.egr
    exact
      { valid := (hing.bit_eq (by decide)).trans (vlanEntryValid_ingPack pbm)
        stg := (hing.field_eq (by decide)).trans (vlanEntryStg_ingPack pbm)
        portBitmap := hset.vlanPortBitmap hports
        ingPortBitmap := hset.vlanIngPortBitmap hports
        egrValid := (hegr.bit_eq (by decide)).trans (egrVlanValid_egrPack pbm utbm)
        egrStg := (hegr.field_eq (by decide)).trans (egrVlanStg_egrPack pbm utbm)
        egrPortBitmap := hset.egrVlanPortBitmap hports
        utPortBitmap := fun p => by
          rw [egrVlanUtPortBitmap, hegr.field_eq (by decide), ← hut p]
          exact getLsbD_egrVlanUtPortBitmap_egrPack pbm utbm p
        subset := hsub }

/-- A call at one VID leaves the others. -/
theorem VidSound.elsewhere (h : VidSound s vid r) {s' : VlanState} {v : ℕ}
    (hsame : SameElsewhere s s' v) (hne : vid ≠ v) : VidSound s' vid r := by
  obtain ⟨hshadow, hmem⟩ := hsame vid hne
  cases r with
  | untouched => simpa only [VidSound, hshadow] using h
  | destroyed => simpa only [VidSound, hshadow, Asic.Holds, hmem] using h
  | live ports untagged =>
    obtain ⟨pbm, utbm, hset, hbits⟩ := h
    exact ⟨pbm, utbm, hset.elsewhere hsame hne, hbits⟩

theorem vidSound_settle_created (s : VlanState) (vid : ℕ) :
    VidSound (s.settle vid .created) vid (.live ∅ ∅) := by
  rw [VlanShadow.created_eq]
  exact ⟨0, 0, settled_settle s vid 0 0, isBitmap_zero, isBitmap_zero, Finset.Subset.refl ∅⟩

theorem vidSound_settle_cleared (s : VlanState) (vid : ℕ) :
    VidSound (s.settle vid .cleared) vid .destroyed := by
  refine ⟨?_, storeVlan_vlan s.asic vid .cleared, storeVlan_egr s.asic vid .cleared⟩
  rw [settle_vlans_self, VlanShadow.cleared]

/-- A member added to a live VLAN. -/
theorem VidSound.settle_add {ports untagged : Finset ℕ} (h : VidSound s vid (.live ports untagged))
    {port : ℕ} (hport : port < 64) (tagged : Bool) :
    VidSound (s.settle vid ((s.vlans vid).add port tagged)) vid
      (.live (insert port ports) (if tagged then untagged else insert port untagged)) := by
  obtain ⟨pbm, utbm, hset, hports, hut, hsub⟩ := h
  refine ⟨_, _, hset.settle_add port tagged, hports.with_port hport,
    hut.with_untagged hport tagged, ?_⟩
  cases tagged with
  | true => exact hsub.trans (Finset.subset_insert port ports)
  | false => exact Finset.insert_subset_insert port hsub

/-! ### One call -/

theorem VlanCall.perform_elsewhere (s : VlanState) (c : VlanCall) :
    SameElsewhere s (c.perform s).1 c.vid.toNat := by
  cases c with
  | create vid => exact vlanCreate_elsewhere s vid
  | portAdd vid port tagged => exact vlanPortAdd_elsewhere s vid port tagged
  | destroy vid => exact vlanDestroy_elsewhere s vid

/-- A call with invalid arguments is rejected at once. -/
theorem VlanCall.perform_of_not_valid (s : VlanState) {c : VlanCall} (hc : ¬ c.Valid) :
    c.perform s = (s, .error .einval) := by
  cases c with
  | create vid => exact if_pos (not_le.mp hc)
  | destroy vid => exact if_pos (not_le.mp hc)
  | portAdd vid port tagged =>
    have hrej : 4095 < vid.toNat ∨ port ≤ 0 ∨ 52 < port := by
      rw [VlanCall.Valid] at hc
      omega
    exact if_pos hrej

/-- Any other call leaves its VID as the record says. -/
theorem VlanCall.perform_of_valid (hf : s.asic.FaultFree) {c : VlanCall} (hc : c.Valid)
    (h : VidSound s c.vid.toNat r) : ∃ s', c.perform s = (s', .ok ()) ∧ s'.asic.FaultFree ∧
      VidSound s' c.vid.toNat (r.after c) := by
  cases c with
  | create vid =>
    exact ⟨_, vlanCreate_faultFree hf hc, storeVlan_faultFree hf _ _,
      vidSound_settle_created s vid.toNat⟩
  | destroy vid =>
    exact ⟨_, vlanDestroy_faultFree hf hc, storeVlan_faultFree hf _ _,
      vidSound_settle_cleared s vid.toNat⟩
  | portAdd vid port tagged =>
    obtain ⟨hvid, hlow, hhigh⟩ := hc
    have hrange : ¬ (4095 < vid.toNat ∨ port ≤ 0 ∨ 52 < port) := by omega
    have hport : port.toNat < 64 := by omega
    have hcreated := vidSound_settle_created s vid.toNat
    -- a VID that is not live is created first
    have hnew (hvalid : (s.vlans vid.toNat).vlanValid = false) (hr : r.members = (∅, ∅)) :
        ∃ s', vlanPortAdd s vid port tagged = (s', .ok ()) ∧ s'.asic.FaultFree ∧
          VidSound s' vid.toNat (r.after (.portAdd vid port tagged)) := by
      refine ⟨_, vlanPortAdd_of_not_valid hf tagged hrange hvalid,
        storeVlan_faultFree (storeVlan_faultFree hf _ _) _ _, ?_⟩
      have hadd := hcreated.settle_add hport tagged
      rw [settle_vlans_self] at hadd
      rw [VidRecord.after, hr]
      exact hadd
    cases r with
    | untouched => exact hnew h rfl
    | destroyed => exact hnew h.1 rfl
    | live ports untagged =>
      have hvalid : (s.vlans vid.toNat).vlanValid = true := by
        obtain ⟨pbm, utbm, hset, -⟩ := h
        exact congrArg VlanShadow.vlanValid hset.shadow
      exact ⟨_, vlanPortAdd_of_valid hf tagged hrange hvalid, storeVlan_faultFree hf _ _,
        h.settle_add hport tagged⟩

theorem VlanSound.init {a : Asic} (hf : a.FaultFree) : VlanSound (VlanLog.init a) where
  faultFree := hf
  vids := fun _ => rfl

/-- Every call keeps the VIDs as recorded. -/
theorem VlanSound.step {t : VlanLog} (h : VlanSound t) (c : VlanCall) : VlanSound (t.step c) := by
  have hsame := c.perform_elsewhere t.sdk
  by_cases hc : c.Valid
  · obtain ⟨s, heq, hf, hvid⟩ := VlanCall.perform_of_valid h.faultFree hc (h.vids c.vid.toNat)
    rw [heq] at hsame
    simp only [VlanLog.step, heq]
    refine ⟨hf, fun v => ?_⟩
    by_cases hv : v = c.vid.toNat
    · subst hv
      simpa only [Function.update_self] using hvid
    · simpa only [Function.update_of_ne hv] using (h.vids v).elsewhere hsame hv
  · simpa only [VlanLog.step, VlanCall.perform_of_not_valid t.sdk hc] using h

theorem VlanSound.callAnswers {t : VlanLog} (h : VlanSound t) (c : VlanCall) :
    CallAnswers t c where
  done hc := by
    obtain ⟨s, heq, -⟩ := VlanCall.perform_of_valid h.faultFree hc (h.vids c.vid.toNat)
    rw [heq]
  rejected hc := VlanCall.perform_of_not_valid t.sdk hc

/-- With an ideal transport every VID decodes to what its record says, every call with valid
arguments returns 0, and a call leaves the entries of the other VIDs. -/
theorem vlanTables_decode (a : Asic) (hf : a.FaultFree) (calls : List VlanCall) :
    Throughout VlanLog.step (fun t => ∀ vid, VidDecodes t.sdk.asic vid (t.vids vid))
      (VlanLog.init a) calls ∧
    EachStep VlanLog.step CallAnswers (VlanLog.init a) calls ∧
    EachStep VlanLog.step OthersKept (VlanLog.init a) calls := by
  have hinit := VlanSound.init hf
  have keep (t : VlanLog) (c : VlanCall) (h : VlanSound t) := h.step c
  refine ⟨?_, ?_, ?_⟩
  · exact (throughout_of_step keep hinit calls).mono fun t h vid => (h.vids vid).decodes
  · exact eachStep_of_step keep (fun t c h => h.callAnswers c) hinit calls
  · refine eachStep_of_step keep (fun t c _ vid hne => ?_) hinit calls
    have hmem := (c.perform_elsewhere t.sdk vid hne).2
    exact ⟨hmem VLAN_BASE, hmem EGR_VLAN_BASE⟩

/-- A VLAN made by its first add, with a tagged and an untagged port, next to one
that is created and destroyed. -/
theorem vlanTables_decode_two :
    Throughout VlanLog.step (fun t => ∀ vid, VidDecodes t.sdk.asic vid (t.vids vid))
      (VlanLog.init Asic.blank)
      [.portAdd 10 1 true, .create 20, .portAdd 10 52 false, .destroy 20] ∧
    EachStep VlanLog.step CallAnswers (VlanLog.init Asic.blank)
      [.portAdd 10 1 true, .create 20, .portAdd 10 52 false, .destroy 20] ∧
    EachStep VlanLog.step OthersKept (VlanLog.init Asic.blank)
      [.portAdd 10 1 true, .create 20, .portAdd 10 52 false, .destroy 20] :=
  vlanTables_decode Asic.blank Asic.blank_faultFree _

end OpenNos.Sdk
