import OpenNos.Sdk.VlanTables

/-! Tagging by the latest request. Beside the log of the VLAN calls stands, for each
VID and port, how the port was added last since the VLAN was created. An add never
takes a port out of the untagged bitmap, so the bitmap holds the ports that were
added untagged at any time since. -/

namespace OpenNos.Sdk

open Bits History

/-- The log and the last tagging asked for, by VID and port. -/
structure TagLog where
  log : VlanLog
  latest : ℕ → ℕ → Option Bool

def TagLog.init (a : Asic) : TagLog where
  log := VlanLog.init a
  latest := fun _ _ => none

/-- The last taggings at one VID after a call that returned 0. An add that creates its
VLAN finds none: the VLAN is new, or the destroy took them. -/
def latestAfter (latest : ℕ → Option Bool) : VlanCall → ℕ → Option Bool
  | .create _ => fun _ => none
  | .portAdd _ port tagged => Function.update latest port.toNat (some tagged)
  | .destroy _ => fun _ => none

def TagLog.step (t : TagLog) (c : VlanCall) : TagLog :=
  let latest :=
    match (c.perform t.log.sdk).2 with
    | .ok () => Function.update t.latest c.vid.toNat (latestAfter (t.latest c.vid.toNat) c)
    | .error _ => t.latest
  { log := t.log.step c, latest := latest }

/-- Every member is untagged on the chip exactly if it was added so last. -/
def TagsFollow (t : TagLog) : Prop :=
  ∀ vid p, p ∈ (t.log.vids vid).members.1 →
    ((egrVlanUtPortBitmap (t.log.sdk.asic.mem EGR_VLAN_BASE vid)).getLsbD p = true ↔
      t.latest vid p = some false)

/-- The ranges `bcm56846_vlan_port_add` checks. -/
def AddInRange (vid : BitVec 16) (port : ℤ) : Prop := vid.toNat ≤ 4095 ∧ 0 < port ∧ port ≤ 52

/-- The call does not add a port tagged that was added untagged since the create. -/
def KeepsTagging (t : TagLog) (c : VlanCall) : Prop :=
  ∀ vid port, c = .portAdd vid port true → AddInRange vid port →
    port.toNat ∉ (t.log.vids vid.toNat).members.2

/-- The record of a VID against the last taggings. -/
structure TagSound (r : VidRecord) (latest : ℕ → Option Bool) : Prop where
  untagged : ∀ p ∈ r.members.1, (p ∈ r.members.2 ↔ latest p = some false)

/-- What every call that keeps the tagging keeps. -/
structure TagInv (t : TagLog) : Prop where
  sound : VlanSound t.log
  tags : ∀ vid, TagSound (t.log.vids vid) (t.latest vid)

/-! ### One VID -/

/-- The untagged bitmap of a member is what the record says. -/
theorem VidDecodes.untagged_iff {a : Asic} {vid p : ℕ} {r : VidRecord} (h : VidDecodes a vid r)
    (hp : p ∈ r.members.1) :
    (egrVlanUtPortBitmap (a.mem EGR_VLAN_BASE vid)).getLsbD p = true ↔ p ∈ r.members.2 := by
  cases r with
  | untouched => simp [VidRecord.members] at hp
  | destroyed => simp [VidRecord.members] at hp
  | live ports untagged =>
    rw [VlanDecodes.utPortBitmap h p, decide_eq_true_iff]
    rfl

theorem members_after_portAdd (r : VidRecord) (vid : BitVec 16) (port : ℤ) (tagged : Bool) :
    (r.after (.portAdd vid port tagged)).members = (insert port.toNat r.members.1,
      if tagged then r.members.2 else insert port.toNat r.members.2) := rfl

theorem TagSound.after {r : VidRecord} {latest : ℕ → Option Bool} (h : TagSound r latest)
    {c : VlanCall}
    (hkeep : ∀ vid port, c = .portAdd vid port true → port.toNat ∉ r.members.2) :
    TagSound (r.after c) (latestAfter latest c) := by
  constructor
  intro p hp
  cases c with
  | create vid => simp [VidRecord.after, VidRecord.members] at hp
  | destroy vid => simp [VidRecord.after, VidRecord.members] at hp
  | portAdd vid port tagged =>
    rw [members_after_portAdd] at hp ⊢
    by_cases hport : p = port.toNat
    · subst hport
      rw [latestAfter, Function.update_self]
      cases tagged with
      | true => simp [hkeep vid port rfl]
      | false => simp
    · have hold := h.untagged p (Finset.mem_of_mem_insert_of_ne hp hport)
      rw [latestAfter, Function.update_of_ne hport]
      cases tagged with
      | true => exact hold
      | false => simp [hport, hold]

/-! ### One call -/

theorem VlanCall.perform_inRange {s : VlanState} {vid : BitVec 16} {port : ℤ} {tagged : Bool}
    (h : (VlanCall.perform s (.portAdd vid port tagged)).2 = .ok ()) : AddInRange vid port := by
  by_contra hout
  have hrej : 4095 < vid.toNat ∨ port ≤ 0 ∨ 52 < port := by
    unfold AddInRange at hout
    omega
  rw [VlanCall.perform, vlanPortAdd, if_pos hrej] at h
  cases h

/-- A call that returns 0 moves its VID and the last taggings on. -/
theorem TagLog.step_of_ok {t : TagLog} {c : VlanCall} (hok : (c.perform t.log.sdk).2 = .ok ()) :
    (t.step c).log.vids = Function.update t.log.vids c.vid.toNat
        ((t.log.vids c.vid.toNat).after c) ∧
      (t.step c).latest = Function.update t.latest c.vid.toNat
        (latestAfter (t.latest c.vid.toNat) c) := by
  have heq : c.perform t.log.sdk = ((c.perform t.log.sdk).1, .ok ()) := Prod.ext rfl hok
  simp only [TagLog.step, VlanLog.step]
  rw [heq]
  exact ⟨rfl, rfl⟩

/-- The calls that do not return 0 are rejected at their checks. -/
theorem TagLog.step_cases {t : TagLog} (h : TagInv t) (c : VlanCall) :
    t.step c = t ∨ (c.perform t.log.sdk).2 = .ok () := by
  by_cases hc : c.Valid
  · exact .inr ((h.sound.callAnswers c).done hc)
  · left
    simp only [TagLog.step, VlanLog.step, (h.sound.callAnswers c).rejected hc]

theorem TagInv.init {a : Asic} (hf : a.FaultFree) : TagInv (TagLog.init a) where
  sound := VlanSound.init hf
  tags := fun _ => ⟨by simp [TagLog.init, VlanLog.init, VidRecord.members]⟩

theorem TagInv.follows {t : TagLog} (h : TagInv t) : TagsFollow t := by
  intro vid p hp
  rw [(h.sound.vids vid).decodes.untagged_iff hp]
  exact (h.tags vid).untagged p hp

theorem TagInv.step {t : TagLog} (h : TagInv t) {c : VlanCall} (hc : KeepsTagging t c) :
    TagInv (t.step c) := by
  refine ⟨h.sound.step c, fun vid => ?_⟩
  rcases TagLog.step_cases h c with hsame | hok
  · rw [hsame]
    exact h.tags vid
  · obtain ⟨hvids, hlatest⟩ := TagLog.step_of_ok hok
    rw [hvids, hlatest]
    by_cases hv : vid = c.vid.toNat
    · subst hv
      rw [Function.update_self, Function.update_self]
      refine (h.tags _).after fun v port heq => ?_
      subst heq
      exact hc v port rfl (VlanCall.perform_inRange hok)
    · rw [Function.update_of_ne hv, Function.update_of_ne hv]
      exact h.tags vid

/-- The chip holds a VID with an untagged port, so an add there is not refused. -/
theorem TagInv.add_ok {t : TagLog} (h : TagInv t) {vid : BitVec 16} {port : ℤ} {p : ℕ}
    (hrange : AddInRange vid port) (hut : p ∈ (t.log.vids vid.toNat).members.2) (tagged : Bool) :
    (VlanCall.perform t.log.sdk (.portAdd vid port tagged)).2 = .ok () := by
  have hrej : ¬ (4095 < vid.toNat ∨ port ≤ 0 ∨ 52 < port) := by
    unfold AddInRange at hrange
    omega
  have hvid := h.sound.vids vid.toNat
  cases hr : t.log.vids vid.toNat with
  | untouched => simp [hr, VidRecord.members] at hut
  | destroyed => simp [hr, VidRecord.members] at hut
  | live ports untagged =>
    rw [hr] at hvid
    obtain ⟨pbm, utbm, hset, -⟩ := hvid
    have hvalid : (t.log.sdk.vlans vid.toNat).vlanValid = true :=
      congrArg VlanShadow.vlanValid hset.shadow
    rw [VlanCall.perform, vlanPortAdd_of_valid h.sound.faultFree tagged hrej hvalid]

/-- An add in the other mode returns 0 and the port stays untagged. -/
theorem TagInv.not_follows {t : TagLog} (h : TagInv t) {c : VlanCall} (hc : ¬ KeepsTagging t c) :
    ¬ TagsFollow (t.step c) := by
  unfold KeepsTagging at hc
  push Not at hc
  obtain ⟨vid, port, rfl, hrange, hut⟩ := hc
  obtain ⟨hvids, hlatest⟩ := TagLog.step_of_ok (h.add_ok hrange hut true)
  intro hfollow
  have hdecodes := ((h.sound.step (.portAdd vid port true)).vids vid.toNat).decodes
  have hrecord : (t.step (.portAdd vid port true)).log.vids vid.toNat =
      (t.log.vids vid.toNat).after (.portAdd vid port true) := by
    rw [hvids]
    exact Function.update_self _ _ _
  have hlast : (t.step (.portAdd vid port true)).latest vid.toNat port.toNat = some true := by
    rw [hlatest]
    change Function.update t.latest vid.toNat _ vid.toNat port.toNat = _
    rw [Function.update_self, latestAfter, Function.update_self]
  have hmem : port.toNat ∈ ((t.step (.portAdd vid port true)).log.vids vid.toNat).members.1 := by
    rw [hrecord]
    exact Finset.mem_insert_self _ _
  have hstays : port.toNat ∈
      ((t.step (.portAdd vid port true)).log.vids vid.toNat).members.2 := by
    rw [hrecord]
    exact hut
  have hbit := (hdecodes.untagged_iff hmem).mpr hstays
  have hnow := (hfollow vid.toNat port.toNat hmem).mp hbit
  rw [hlast] at hnow
  cases hnow

/-- The untagged bitmap follows the latest request through exactly the histories that
add no port tagged after it was added untagged. -/
theorem tagsFollow_iff_keepsTagging (a : Asic) (hf : a.FaultFree) (calls : List VlanCall) :
    Throughout TagLog.step TagsFollow (TagLog.init a) calls ↔
      EachStep TagLog.step KeepsTagging (TagLog.init a) calls :=
  throughout_iff_eachStep_of_any (fun _ h => h.follows) (fun _ _ h hc => h.step hc)
    (fun _ _ h hc => h.not_follows hc) (TagInv.init hf) calls

/-- A port that goes from tagged to untagged. -/
theorem tagsFollow_to_untagged :
    Throughout TagLog.step TagsFollow (TagLog.init Asic.blank)
      [.create 10, .portAdd 10 1 true, .portAdd 10 1 false] := by
  refine (tagsFollow_iff_keepsTagging Asic.blank Asic.blank_faultFree _).mpr ⟨?_, ?_, ?_, trivial⟩
  · rintro vid port ⟨⟩
  · rintro vid port ⟨⟩ -
    decide +kernel
  · rintro vid port ⟨⟩

/-- A port that goes from untagged to tagged stays untagged. -/
theorem tagsFollow_fails :
    ¬ Throughout TagLog.step TagsFollow (TagLog.init Asic.blank)
      [.create 10, .portAdd 10 1 false, .portAdd 10 1 true] := by
  rintro ⟨-, -, -, hfollow⟩
  have hinit := TagInv.init Asic.blank_faultFree
  have hcreate := hinit.step (show KeepsTagging _ (.create 10) by rintro vid port ⟨⟩)
  have hadd := hcreate.step (show KeepsTagging _ (.portAdd 10 1 false) by rintro vid port ⟨⟩)
  refine hadd.not_follows (fun hkeep => ?_) hfollow
  have hnot := hkeep 10 1 rfl ⟨by decide, by decide, by decide⟩
  exact hnot (by decide +kernel)

end OpenNos.Sdk
