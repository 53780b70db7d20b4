import OpenNos.Lib.History
import OpenNos.Sdk.Vlan

/-! VLAN updates when table writes fail. The arrays change before the two writes, so a
call that fails may leave in them a member that is none, or lose one, and the entry
of a later call carries it to hardware. Beside the SDK stand the members of each
VLAN: the ports whose own add returned 0 since the last create that did. -/

namespace OpenNos.Sdk

open Bits History

inductive VlanUpdate
  | create (vid : BitVec 16)
  | portAdd (vid : BitVec 16) (port : ℤ) (tagged : Bool)

namespace VlanUpdate

def vid : VlanUpdate → BitVec 16
  | .create vid => vid
  | .portAdd vid _ _ => vid

def perform (s : VlanState) : VlanUpdate → VlanState × Rc Unit
  | .create vid => vlanCreate s vid
  | .portAdd vid port tagged => vlanPortAdd s vid port tagged

/-- The members after the call, when it returns 0. -/
def members (M : Finset ℕ) : VlanUpdate → Finset ℕ
  | .create _ => ∅
  | .portAdd _ port _ => insert port.toNat M

end VlanUpdate

structure MemberLog where
  sdk : VlanState
  members : ℕ → Finset ℕ

namespace MemberLog

def init (a : Asic) : MemberLog where
  sdk := VlanState.init a
  members := fun _ => ∅

/-- A call that returns an error changes no membership. -/
def record (t : MemberLog) (vid : ℕ) (ports : Finset ℕ) : VlanState × Rc Unit → MemberLog
  | (s, .ok ()) => { sdk := s, members := Function.update t.members vid ports }
  | (s, .error _) => { t with sdk := s }

def step (t : MemberLog) (c : VlanUpdate) : MemberLog :=
  t.record c.vid.toNat (c.members (t.members c.vid.toNat)) (c.perform t.sdk)

end MemberLog

/-- The state with other faults to come. -/
def VlanState.withFaults (s : VlanState) (fault : ℕ → Bool) : VlanState :=
  { s with asic := { s.asic with fault := fault } }

/-- The three member bitmaps of a VID in hardware have just these ports. -/
structure BitmapsAre (a : Asic) (vid : ℕ) (ports : Finset ℕ) : Prop where
  vlan : ∀ p, (vlanPortBitmap (a.mem VLAN_BASE vid)).getLsbD p = decide (p ∈ ports)
  ing : ∀ p, (vlanIngPortBitmap (a.mem VLAN_BASE vid)).getLsbD p = decide (p ∈ ports)
  egr : ∀ p, (egrVlanPortBitmap (a.mem EGR_VLAN_BASE vid)).getLsbD p = decide (p ∈ ports)

/-- Whatever faults come, a next call that succeeds writes the members. -/
def NextWritesMembers (t : MemberLog) : Prop :=
  ∀ (fault : ℕ → Bool) (c : VlanUpdate) (s : VlanState),
    c.perform (t.sdk.withFaults fault) = (s, .ok ()) →
      BitmapsAre s.asic c.vid.toNat (c.members (t.members c.vid.toNat))

/-- The ingress entry is changed and the egress entry is not. -/
def HalfWritten (a a' : Asic) (vid : ℕ) : Prop :=
  (∃ j < VLAN_WORDS, a'.mem VLAN_BASE vid j ≠ a.mem VLAN_BASE vid j) ∧
    ∀ j < EGR_VLAN_WORDS, a'.mem EGR_VLAN_BASE vid j = a.mem EGR_VLAN_BASE vid j

/-- After the call every next one writes the members, and a call that fails leaves no
entry half written. -/
def NoDelayedEffect (t : MemberLog) (c : VlanUpdate) : Prop :=
  NextWritesMembers (t.step c) ∧
    ((c.perform t.sdk).2 ≠ .ok () →
      ¬ HalfWritten t.sdk.asic (c.perform t.sdk).1.asic c.vid.toNat)

/-- The writes of an update to a VLAN with the bitmap `pbm` of `N`: where one fails, `N`
are the members, and where it is the second, the ingress entry has the bitmap already. -/
def WriteHarmless (t : MemberLog) (vid : ℕ) (pbm : BitVec 64) (N : Finset ℕ) : Prop :=
  (t.sdk.asic.fault 0 = true → N = t.members vid) ∧
    (t.sdk.asic.fault 0 = false → t.sdk.asic.fault 1 = true →
      N = t.members vid ∧ t.sdk.asic.Holds VLAN_BASE vid VLAN_WORDS (ingPack pbm))

/-- The writes of a create. -/
def CreateHarmless (t : MemberLog) (vid : ℕ) : Prop := WriteHarmless t vid 0 ∅

/-- The writes of an add to a VLAN that exists: where one fails, the port is a member
already. -/
def AddHarmless (t : MemberLog) (vid port : ℕ) : Prop :=
  t.sdk.asic.fault 0 = true ∨ t.sdk.asic.fault 1 = true → port ∈ t.members vid

/-- What a call must find for its failing writes to do no harm. An add to a VLAN that
does not exist creates it first; then its own writes are the third and fourth. -/
def Harmless (t : MemberLog) : VlanUpdate → Prop
  | .create vid => vid.toNat ≤ 4095 → CreateHarmless t vid.toNat
  | .portAdd vid port _ =>
    ¬ (4095 < vid.toNat ∨ port ≤ 0 ∨ 52 < port) →
      if (t.sdk.vlans vid.toNat).vlanValid then AddHarmless t vid.toNat port.toNat
      else
        CreateHarmless t vid.toNat ∧
          (t.sdk.asic.fault 0 = false → t.sdk.asic.fault 1 = false →
            t.sdk.asic.fault 2 = true ∨ t.sdk.asic.fault 3 = true →
              port.toNat ∈ t.members vid.toNat)

/-- A VID whose arrays have the members, and whose entry in hardware does when there
are any. -/
def MembersRight (t : MemberLog) (vid : ℕ) : Prop :=
  ((t.sdk.vlans vid).vlanValid = false ∧ t.members vid = ∅) ∨
    ∃ pbm utbm, t.sdk.vlans vid = .packed pbm utbm ∧ IsBitmap pbm (t.members vid) ∧
      (t.members vid ≠ ∅ → t.sdk.asic.Holds VLAN_BASE vid VLAN_WORDS (ingPack pbm))

variable {s : VlanState} {t : MemberLog} {vid : ℕ} {pbm utbm : BitVec 64} {N : Finset ℕ}

/-! ### Bitmaps of members -/

theorem IsBitmap.unique {pbm pbm' : BitVec 64} (h : IsBitmap pbm N) (h' : IsBitmap pbm' N) :
    pbm = pbm' := by
  apply BitVec.eq_of_getLsbD_eq
  intro i _
  rw [h i, h' i]

theorem Settled.bitmapsAre (h : Settled s vid pbm utbm) (hN : IsBitmap pbm N) :
    BitmapsAre s.asic vid N where
  vlan := h.vlanPortBitmap hN
  ing := h.vlanIngPortBitmap hN
  egr := h.egrVlanPortBitmap hN

/-- Different members stay different after an add of some port. -/
theorem exists_port_apart {M : Finset ℕ} (h : N ≠ M) :
    ∃ q, (q = 1 ∨ q = 2) ∧ insert q N ≠ insert q M := by
  obtain ⟨x, hx⟩ := not_forall.mp fun hall => h (Finset.ext hall)
  have hq : ∃ q, (q = 1 ∨ q = 2) ∧ x ≠ q := by
    by_cases hx1 : x = 1
    · exact ⟨2, .inr rfl, by omega⟩
    · exact ⟨1, .inl rfl, hx1⟩
  obtain ⟨q, hq, hne⟩ := hq
  refine ⟨q, hq, fun heq => hx ?_⟩
  have hmem : x ∈ insert q N ↔ x ∈ insert q M := by rw [heq]
  simpa only [Finset.mem_insert, hne, false_or] using hmem

/-! ### The two writes of an update -/

/-- A VLAN put into the arrays and written: nothing reaches the tables, only the
ingress entry does, or both do. -/
theorem vlanWrite_put_cases (s : VlanState) (vid : ℕ) (pbm utbm : BitVec 64) :
    (s.asic.fault 0 = true ∧ ∃ s',
      vlanWrite (s.put vid (.packed pbm utbm)) vid = (s', .error .eio) ∧
      s'.vlans vid = .packed pbm utbm ∧ ∀ base, s'.asic.mem base vid = s.asic.mem base vid) ∨
    (s.asic.fault 0 = false ∧ s.asic.fault 1 = true ∧
      ∃ s', vlanWrite (s.put vid (.packed pbm utbm)) vid = (s', .error .eio) ∧
        s'.vlans vid = .packed pbm utbm ∧ s'.asic.Holds VLAN_BASE vid VLAN_WORDS (ingPack pbm) ∧
        s'.asic.mem EGR_VLAN_BASE vid = s.asic.mem EGR_VLAN_BASE vid) ∨
    (s.asic.fault 0 = false ∧ s.asic.fault 1 = false ∧
      vlanWrite (s.put vid (.packed pbm utbm)) vid =
        (s.settle vid (.packed pbm utbm), .ok ())) := by
  set e := VlanShadow.packed pbm utbm with he
  have hshadow : (s.put vid e).vlans vid = e := Function.update_self _ _ _
  cases h0 : s.asic.fault 0 with
  | true =>
    have hfault : (s.put vid e).asic.fault 0 = true := h0
    exact .inl ⟨rfl, _, vlanWrite_of_fault hfault, hshadow, fun _ => rfl⟩
  | false =>
    have hing : (s.put vid e).asic.fault 0 = false := h0
    cases h1 : s.asic.fault 1 with
    | true =>
      have hegr : (s.put vid e).asic.fault 1 = true := h1
      refine .inr (.inl ⟨rfl, rfl, _, vlanWrite_of_egr_fault hing hegr, hshadow, ?_, ?_⟩)
      · rw [Asic.holds_tick, hshadow]
        exact Asic.holds_store_self _ _ _ _
      · have hbase : EGR_VLAN_BASE ≠ VLAN_BASE := by decide
        simp only [Asic.tick_mem, Asic.store_mem_base hbase]
        rfl
    | false =>
      have hegr : (s.put vid e).asic.fault 1 = false := h1
      refine .inr (.inr ⟨rfl, rfl, ?_⟩)
      rw [vlanWrite_of_not_fault hing hegr, hshadow]
      rfl

theorem vlanCreate_eq (s : VlanState) {vid : BitVec 16} (hvid : vid.toNat ≤ 4095) :
    vlanCreate s vid = vlanWrite (s.put vid.toNat (.packed 0 0)) vid.toNat := by
  rw [vlanCreate, if_neg (by omega), VlanShadow.created_eq]

theorem vlanAddMember_eq (h : s.vlans vid = .packed pbm utbm) (port : ℕ) (tagged : Bool) :
    vlanAddMember s vid port tagged =
      vlanWrite (s.put vid (.packed (pbm ||| 1#64 <<< port) (addUntagged utbm port tagged)))
        vid := by
  rw [vlanAddMember, h, VlanShadow.packed_add]

/-- An add to a VLAN that exists, whatever faults come. -/
theorem vlanPortAdd_packed {vid : BitVec 16} {port : ℤ}
    (hok : ¬ (4095 < vid.toNat ∨ port ≤ 0 ∨ 52 < port))
    (h : s.vlans vid.toNat = .packed pbm utbm) (tagged : Bool) :
    vlanPortAdd s vid port tagged =
      vlanWrite (s.put vid.toNat (.packed (pbm ||| 1#64 <<< port.toNat)
        (addUntagged utbm port.toNat tagged))) vid.toNat := by
  rw [vlanPortAdd, if_neg hok, h, if_pos (by rfl), vlanAddMember_eq h]

/-- An add to a VLAN that does not exist fails like its create, or adds to an empty
VLAN. -/
theorem vlanPortAdd_new_cases {vid : BitVec 16} {port : ℤ}
    (hok : ¬ (4095 < vid.toNat ∨ port ≤ 0 ∨ 52 < port))
    (hvalid : (s.vlans vid.toNat).vlanValid = false) (tagged : Bool) :
    ((s.asic.fault 0 = true ∨ s.asic.fault 1 = true) ∧ ∃ s',
      vlanWrite (s.put vid.toNat (.packed 0 0)) vid.toNat = (s', .error .eio) ∧
      vlanPortAdd s vid port tagged = (s', .error .eio)) ∨
    (s.asic.fault 0 = false ∧ s.asic.fault 1 = false) ∧
      vlanPortAdd s vid port tagged =
        vlanWrite ((s.settle vid.toNat (.packed 0 0)).put vid.toNat
          (.packed (0 ||| 1#64 <<< port.toNat) (addUntagged 0 port.toNat tagged))) vid.toNat := by
  rw [vlanPortAdd, if_neg hok, if_neg (by simp [hvalid]), vlanCreate_eq s (by omega)]
  rcases vlanWrite_put_cases s vid.toNat 0 0 with
    ⟨h0, s', heq, -⟩ | ⟨-, h1, s', heq, -⟩ | ⟨h0, h1, heq⟩
  · rw [heq]
    exact .inl ⟨.inl h0, s', rfl, rfl⟩
  · rw [heq]
    exact .inl ⟨.inr h1, s', rfl, rfl⟩
  · rw [heq]
    exact .inr ⟨⟨h0, h1⟩,
      vlanAddMember_eq (settle_vlans_self s vid.toNat _) port.toNat tagged⟩

/-! ### The next call -/

/-- A successful update of a VLAN writes its bitmaps. -/
theorem bitmapsAre_of_ok {s' : VlanState} (hN : IsBitmap pbm N)
    (h : vlanWrite (s.put vid (.packed pbm utbm)) vid = (s', .ok ())) :
    BitmapsAre s'.asic vid N := by
  rcases vlanWrite_put_cases s vid pbm utbm with ⟨-, _, heq, -⟩ | ⟨-, -, _, heq, -⟩ | ⟨-, -, heq⟩
  · rw [heq] at h
    cases h
  · rw [heq] at h
    cases h
  · rw [heq] at h
    cases h
    exact (settled_settle s vid pbm utbm).bitmapsAre hN

/-- A next call at a VID that is right writes its members. -/
theorem MembersRight.next {c : VlanUpdate} (h : MembersRight t c.vid.toNat) (fault : ℕ → Bool)
    {s' : VlanState} (hok : c.perform (t.sdk.withFaults fault) = (s', .ok ())) :
    BitmapsAre s'.asic c.vid.toNat (c.members (t.members c.vid.toNat)) := by
  cases c with
  | create vid =>
    rw [VlanUpdate.perform] at hok
    by_cases hvid : 4095 < vid.toNat
    · rw [vlanCreate, if_pos hvid] at hok
      cases hok
    · rw [vlanCreate_eq _ (by omega)] at hok
      exact bitmapsAre_of_ok isBitmap_zero hok
  | portAdd vid port tagged =>
    rw [VlanUpdate.perform] at hok
    by_cases hrej : 4095 < vid.toNat ∨ port ≤ 0 ∨ 52 < port
    · rw [vlanPortAdd, if_pos hrej] at hok
      cases hok
    have hport : port.toNat < 64 := by omega
    rcases h with ⟨hvalid, hempty⟩ | ⟨pbm, utbm, hshadow, hbits, -⟩
    · have hvalid' : ((t.sdk.withFaults fault).vlans vid.toNat).vlanValid = false := hvalid
      rcases vlanPortAdd_new_cases hrej hvalid' tagged with ⟨-, _, -, heq⟩ | ⟨-, heq⟩
      · rw [heq] at hok
        cases hok
      · rw [heq] at hok
        simp only [VlanUpdate.vid] at hempty ⊢
        rw [VlanUpdate.members, hempty]
        exact bitmapsAre_of_ok (isBitmap_zero.with_port hport) hok
    · have hshadow' : (t.sdk.withFaults fault).vlans vid.toNat = .packed pbm utbm := hshadow
      rw [vlanPortAdd_packed hrej hshadow'] at hok
      exact bitmapsAre_of_ok (hbits.with_port hport) hok

/-- Arrays that have other members than the log are written by some next add. -/
theorem not_nextWritesMembers {vid : BitVec 16} (hvid : vid.toNat ≤ 4095)
    (hshadow : t.sdk.vlans vid.toNat = .packed pbm utbm) (hN : IsBitmap pbm N)
    (hne : N ≠ t.members vid.toNat) : ¬ NextWritesMembers t := by
  intro h
  obtain ⟨q, hq, hapart⟩ := exists_port_apart hne
  have hok : ¬ (4095 < vid.toNat ∨ (q : ℤ) ≤ 0 ∨ 52 < (q : ℤ)) := by omega
  have hshadow' : (t.sdk.withFaults fun _ => false).vlans vid.toNat = .packed pbm utbm := hshadow
  have heq := vlanPortAdd_packed hok hshadow' true
  rw [vlanWrite_put fun _ => rfl] at heq
  have hwritten := h (fun _ => false) (.portAdd vid q true) _ heq
  have hnew := (settled_settle (t.sdk.withFaults fun _ => false) vid.toNat
    (pbm ||| 1#64 <<< (q : ℤ).toNat) (addUntagged utbm (q : ℤ).toNat true)).bitmapsAre
      (hN.with_port (by omega))
  apply hapart
  ext x
  have hx := (hnew.vlan x).symm.trans (hwritten.vlan x)
  rw [decide_eq_decide] at hx
  exact hx

/-! ### One call -/

/-- What the calls at other VIDs leave. -/
theorem MembersRight.elsewhere {v : ℕ} (h : MembersRight t v) {t' : MemberLog}
    (hsame : SameElsewhere t.sdk t'.sdk vid) (hne : v ≠ vid)
    (hmembers : t'.members v = t.members v) : MembersRight t' v := by
  obtain ⟨hshadow, hmem⟩ := hsame v hne
  simpa only [MembersRight, hshadow, hmembers, Asic.Holds, hmem] using h

/-- An entry written with the words it has is not half written. -/
theorem not_halfWritten {a a' : Asic} (h : a.Holds VLAN_BASE vid VLAN_WORDS (ingPack pbm))
    (h' : a'.Holds VLAN_BASE vid VLAN_WORDS (ingPack pbm)) : ¬ HalfWritten a a' vid := by
  rintro ⟨⟨j, hj, hne⟩, -⟩
  exact hne ((h' j hj).trans (h j hj).symm)

/-- Harmless writes keep the VID right and leave no entry half written. -/
theorem MembersRight.write {r : VlanState × Rc Unit} (h : MembersRight t vid)
    (hN : IsBitmap pbm N) (hr : vlanWrite (t.sdk.put vid (.packed pbm utbm)) vid = r)
    (hw : WriteHarmless t vid pbm N) :
    MembersRight (t.record vid N r) vid ∧
      (r.2 ≠ .ok () → ¬ HalfWritten t.sdk.asic r.1.asic vid) := by
  rcases vlanWrite_put_cases t.sdk vid pbm utbm with
    ⟨h0, s', heq, hshadow, hmem⟩ | ⟨h0, h1, s', heq, hshadow, hing, -⟩ | ⟨-, -, heq⟩
  · obtain rfl := heq.symm.trans hr
    have hsame := hw.1 h0
    rw [hsame] at hN
    constructor
    · refine .inr ⟨pbm, utbm, hshadow, hN, fun hne => ?_⟩
      rcases h with ⟨-, hempty⟩ | ⟨pbm', utbm', -, hbits, hold⟩
      · exact absurd hempty hne
      · have hwords := hold hne
        rw [hbits.unique hN] at hwords
        intro j hj
        rw [← hwords j hj]
        exact congrFun (hmem VLAN_BASE) j
    · rintro - ⟨⟨j, -, hne⟩, -⟩
      exact hne (congrFun (hmem VLAN_BASE) j)
  · obtain rfl := heq.symm.trans hr
    obtain ⟨hsame, hold⟩ := hw.2 h0 h1
    rw [hsame] at hN
    exact ⟨.inr ⟨pbm, utbm, hshadow, hN, fun _ => hing⟩, fun _ => not_halfWritten hold hing⟩
  · obtain rfl := heq.symm.trans hr
    have hset := settled_settle t.sdk vid pbm utbm
    refine ⟨.inr ⟨pbm, utbm, hset.shadow, ?_, fun _ => hset.ing⟩, fun hne => absurd rfl hne⟩
    simpa only [MemberLog.record, Function.update_self] using hN

/-- A failed update after which every next call writes the members was to a bitmap of
the members. -/
theorem members_of_next {vid : BitVec 16} (hvid : vid.toNat ≤ 4095) {s' : VlanState}
    (hshadow : s'.vlans vid.toNat = .packed pbm utbm) (hN : IsBitmap pbm N)
    (hnext : NextWritesMembers { t with sdk := s' }) : N = t.members vid.toNat := by
  by_contra hne
  exact not_nextWritesMembers (t := { t with sdk := s' }) hvid hshadow hN hne hnext

/-- Writes after which every next call writes the members and no entry is half
written were harmless. -/
theorem writeHarmless_of_next {vid : BitVec 16} (hvid : vid.toNat ≤ 4095)
    {r : VlanState × Rc Unit} (hN : IsBitmap pbm N)
    (hr : vlanWrite (t.sdk.put vid.toNat (.packed pbm utbm)) vid.toNat = r)
    (hnext : NextWritesMembers (t.record vid.toNat N r))
    (hhalf : r.2 ≠ .ok () → ¬ HalfWritten t.sdk.asic r.1.asic vid.toNat) :
    WriteHarmless t vid.toNat pbm N := by
  rcases vlanWrite_put_cases t.sdk vid.toNat pbm utbm with
    ⟨h0, s', heq, hshadow, -⟩ | ⟨h0, h1, s', heq, hshadow, hing, hegr⟩ | ⟨h0, h1, -⟩
  · obtain rfl := hr.symm.trans heq
    have hN' := members_of_next hvid hshadow hN hnext
    exact ⟨fun _ => hN', fun hne => by rw [h0] at hne; cases hne⟩
  · obtain rfl := hr.symm.trans heq
    have hN' := members_of_next hvid hshadow hN hnext
    refine ⟨fun _ => hN', fun _ _ => ⟨hN', fun j hj => ?_⟩⟩
    by_contra hne
    refine hhalf (fun hok => by cases hok) ⟨⟨j, hj, fun hold => hne ?_⟩, fun k _ => ?_⟩
    · rw [← hold, hing j hj]
    · exact congrFun hegr k
  · refine ⟨fun hne => ?_, fun _ hne => ?_⟩
    · rw [h0] at hne
      cases hne
    · rw [h1] at hne
      cases hne

/-- For a VLAN that exists the writes of an add are harmless for a member. -/
theorem addHarmless_iff {port : ℕ} (hport : port < 64) (hbits : IsBitmap pbm (t.members vid))
    (hold : t.members vid ≠ ∅ → t.sdk.asic.Holds VLAN_BASE vid VLAN_WORDS (ingPack pbm)) :
    AddHarmless t vid port ↔
      WriteHarmless t vid (pbm ||| 1#64 <<< port) (insert port (t.members vid)) := by
  constructor
  · intro h
    have hsame (hmem : port ∈ t.members vid) : insert port (t.members vid) = t.members vid :=
      Finset.insert_eq_of_mem hmem
    refine ⟨fun h0 => hsame (h (.inl h0)), fun _ h1 => ?_⟩
    have hmem := h (.inr h1)
    have hnew := hbits.with_port hport
    rw [hsame hmem] at hnew
    rw [← hbits.unique hnew]
    exact ⟨hsame hmem, hold (Finset.ne_empty_of_mem hmem)⟩
  · rintro ⟨h, h'⟩ hfault
    apply Finset.insert_eq_self.mp
    cases h0 : t.sdk.asic.fault 0 with
    | true => exact h h0
    | false => exact (h' h0 (hfault.resolve_left (by simp [h0]))).1

/-- Without members the VLAN does not exist, or its arrays have none. -/
theorem MembersRight.of_not_valid (h : MembersRight t vid)
    (hvalid : (t.sdk.vlans vid).vlanValid = false) : t.members vid = ∅ := by
  rcases h with ⟨-, hempty⟩ | ⟨pbm, utbm, hshadow, -⟩
  · exact hempty
  · rw [hshadow] at hvalid
    cases hvalid

theorem MembersRight.of_valid (h : MembersRight t vid)
    (hvalid : (t.sdk.vlans vid).vlanValid = true) :
    ∃ pbm utbm, t.sdk.vlans vid = .packed pbm utbm ∧ IsBitmap pbm (t.members vid) ∧
      (t.members vid ≠ ∅ → t.sdk.asic.Holds VLAN_BASE vid VLAN_WORDS (ingPack pbm)) := by
  rcases h with ⟨hno, -⟩ | h
  · rw [hvalid] at hno
    cases hno
  · exact h

/-- An add to a VLAN that does not exist: its create does no harm, and the writes of the
add itself succeed. -/
theorem MembersRight.add_new {vid : BitVec 16} {port : ℤ} (h : MembersRight t vid.toNat)
    (hrej : ¬ (4095 < vid.toNat ∨ port ≤ 0 ∨ 52 < port))
    (hvalid : (t.sdk.vlans vid.toNat).vlanValid = false) (tagged : Bool)
    (hcreate : CreateHarmless t vid.toNat)
    (hadd : t.sdk.asic.fault 0 = false → t.sdk.asic.fault 1 = false →
      t.sdk.asic.fault 2 = true ∨ t.sdk.asic.fault 3 = true → port.toNat ∈ t.members vid.toNat) :
    MembersRight (t.step (.portAdd vid port tagged)) vid.toNat ∧
      ((vlanPortAdd t.sdk vid port tagged).2 ≠ .ok () →
        ¬ HalfWritten t.sdk.asic (vlanPortAdd t.sdk vid port tagged).1.asic vid.toNat) := by
  have hport : port.toNat < 64 := by omega
  have hempty := h.of_not_valid hvalid
  rw [MemberLog.step, VlanUpdate.perform]
  rcases vlanPortAdd_new_cases hrej hvalid tagged with ⟨-, s', hfail, heq⟩ | ⟨⟨h0, h1⟩, heq⟩
  · rw [heq]
    have hright := MembersRight.write h isBitmap_zero hfail hcreate
    exact hright
  · have hno (hf : t.sdk.asic.fault 2 = true ∨ t.sdk.asic.fault 3 = true) : False := by
      have hmem := hadd h0 h1 hf
      rw [hempty] at hmem
      exact Finset.notMem_empty _ hmem
    rw [heq]
    rcases vlanWrite_put_cases (t.sdk.settle vid.toNat (.packed 0 0)) vid.toNat
        (0 ||| 1#64 <<< port.toNat) (addUntagged 0 port.toNat tagged) with
      ⟨h2, -⟩ | ⟨-, h3, -⟩ | ⟨-, -, hok⟩
    · exact (hno (.inl h2)).elim
    · exact (hno (.inr h3)).elim
    · have hset := settled_settle (t.sdk.settle vid.toNat (.packed 0 0)) vid.toNat
        (0 ||| 1#64 <<< port.toNat) (addUntagged 0 port.toNat tagged)
      rw [hok]
      refine ⟨.inr ⟨_, _, hset.shadow, ?_, fun _ => hset.ing⟩, fun hne => absurd rfl hne⟩
      simp only [MemberLog.record, VlanUpdate.vid, VlanUpdate.members, Function.update_self,
        hempty]
      exact isBitmap_zero.with_port hport

/-- A call that meets its condition keeps its VID right and leaves no entry half
written. -/
theorem Harmless.right {c : VlanUpdate} (h : MembersRight t c.vid.toNat) (hc : Harmless t c) :
    MembersRight (t.step c) c.vid.toNat ∧
      ((c.perform t.sdk).2 ≠ .ok () →
        ¬ HalfWritten t.sdk.asic (c.perform t.sdk).1.asic c.vid.toNat) := by
  cases c with
  | create vid =>
    by_cases hvid : 4095 < vid.toNat
    · have heq : vlanCreate t.sdk vid = (t.sdk, .error .einval) := if_pos hvid
      rw [MemberLog.step, VlanUpdate.perform, heq]
      exact ⟨h, fun _ ⟨⟨_, _, hne⟩, _⟩ => hne rfl⟩
    · rw [MemberLog.step, VlanUpdate.perform, vlanCreate_eq _ (by omega)]
      exact MembersRight.write h isBitmap_zero rfl (hc (by omega))
  | portAdd vid port tagged =>
    by_cases hrej : 4095 < vid.toNat ∨ port ≤ 0 ∨ 52 < port
    · have heq : vlanPortAdd t.sdk vid port tagged = (t.sdk, .error .einval) := if_pos hrej
      rw [MemberLog.step, VlanUpdate.perform, heq]
      exact ⟨h, fun _ ⟨⟨_, _, hne⟩, _⟩ => hne rfl⟩
    have hport : port.toNat < 64 := by omega
    have hc' := hc hrej
    simp only [VlanUpdate.vid] at h
    split_ifs at hc' with hvalid
    · obtain ⟨pbm, utbm, hshadow, hbits, hold⟩ := h.of_valid hvalid
      rw [MemberLog.step, VlanUpdate.perform, vlanPortAdd_packed hrej hshadow]
      exact MembersRight.write h (hbits.with_port hport) rfl
        ((addHarmless_iff hport hbits hold).mp hc')
    · rw [Bool.not_eq_true] at hvalid
      exact h.add_new hrej hvalid tagged hc'.1 hc'.2

/-- An add to a VLAN that does not exist whose own writes fail leaves the port in the
arrays. -/
theorem mem_of_failed_add {vid : BitVec 16} {port : ℤ} {tagged : Bool}
    (hvid : vid.toNat ≤ 4095) (hport : port.toNat < 64)
    (hfault : t.sdk.asic.fault 2 = true ∨ t.sdk.asic.fault 3 = true)
    (hnext : NextWritesMembers (t.record vid.toNat (insert port.toNat (t.members vid.toNat))
      (vlanWrite ((t.sdk.settle vid.toNat (.packed 0 0)).put vid.toNat
        (.packed (0 ||| 1#64 <<< port.toNat) (addUntagged 0 port.toNat tagged))) vid.toNat))) :
    port.toNat ∈ t.members vid.toNat := by
  have hN := isBitmap_zero.with_port hport
  have hmem {s' : VlanState} (hshadow : s'.vlans vid.toNat =
      .packed (0 ||| 1#64 <<< port.toNat) (addUntagged 0 port.toNat tagged))
      (hnext : NextWritesMembers { t with sdk := s' }) : port.toNat ∈ t.members vid.toNat := by
    rw [← members_of_next hvid hshadow hN hnext]
    exact Finset.mem_insert_self _ _
  rcases vlanWrite_put_cases (t.sdk.settle vid.toNat (.packed 0 0)) vid.toNat
      (0 ||| 1#64 <<< port.toNat) (addUntagged 0 port.toNat tagged) with
    ⟨-, s', hfail, hshadow, -⟩ | ⟨-, -, s', hfail, hshadow, -⟩ | ⟨h2, h3, -⟩
  · rw [hfail] at hnext
    exact hmem hshadow hnext
  · rw [hfail] at hnext
    exact hmem hshadow hnext
  · have h2' : t.sdk.asic.fault 2 = false := h2
    have h3' : t.sdk.asic.fault 3 = false := h3
    simp [h2', h3'] at hfault

theorem MembersRight.harmless_of_add_new {vid : BitVec 16} {port : ℤ} {tagged : Bool}
    (h : MembersRight t vid.toNat) (hrej : ¬ (4095 < vid.toNat ∨ port ≤ 0 ∨ 52 < port))
    (hvalid : (t.sdk.vlans vid.toNat).vlanValid = false)
    (hnext : NextWritesMembers (t.record vid.toNat (insert port.toNat (t.members vid.toNat))
      (vlanPortAdd t.sdk vid port tagged)))
    (hhalf : (vlanPortAdd t.sdk vid port tagged).2 ≠ .ok () →
      ¬ HalfWritten t.sdk.asic (vlanPortAdd t.sdk vid port tagged).1.asic vid.toNat) :
    CreateHarmless t vid.toNat ∧
      (t.sdk.asic.fault 0 = false → t.sdk.asic.fault 1 = false →
        t.sdk.asic.fault 2 = true ∨ t.sdk.asic.fault 3 = true →
          port.toNat ∈ t.members vid.toNat) := by
  have hvid : vid.toNat ≤ 4095 := by omega
  rcases vlanPortAdd_new_cases hrej hvalid tagged with ⟨hfault, s', hfail, heq⟩ | ⟨⟨h0, h1⟩, heq⟩
  · rw [heq] at hnext hhalf
    refine ⟨writeHarmless_of_next hvid isBitmap_zero hfail hnext hhalf, fun h0 h1 => ?_⟩
    simp [h0, h1] at hfault
  · rw [heq] at hnext
    have hempty := h.of_not_valid hvalid
    refine ⟨⟨fun _ => hempty.symm, fun _ hne => ?_⟩, fun _ _ hfault => ?_⟩
    · rw [h1] at hne
      cases hne
    · exact mem_of_failed_add hvid (by omega) hfault hnext

/-- A call after which every next one writes the members, and that leaves no entry half
written, met its condition. -/
theorem NoDelayedEffect.harmless {c : VlanUpdate} (h : MembersRight t c.vid.toNat)
    (hc : NoDelayedEffect t c) : Harmless t c := by
  obtain ⟨hnext, hhalf⟩ := hc
  cases c with
  | create vid =>
    intro hvid
    rw [MemberLog.step, VlanUpdate.perform, vlanCreate_eq _ hvid] at hnext
    rw [VlanUpdate.perform, vlanCreate_eq _ hvid] at hhalf
    exact writeHarmless_of_next hvid isBitmap_zero rfl hnext hhalf
  | portAdd vid port tagged =>
    intro hrej
    have hvid : vid.toNat ≤ 4095 := by omega
    have hport : port.toNat < 64 := by omega
    simp only [VlanUpdate.vid] at h
    rw [MemberLog.step, VlanUpdate.perform] at hnext
    rw [VlanUpdate.perform] at hhalf
    split_ifs with hvalid
    · obtain ⟨pbm, utbm, hshadow, hbits, hold⟩ := h.of_valid hvalid
      rw [vlanPortAdd_packed hrej hshadow] at hnext hhalf
      apply (addHarmless_iff hport hbits hold).mpr
      exact writeHarmless_of_next hvid (hbits.with_port hport) rfl hnext hhalf
    · rw [Bool.not_eq_true] at hvalid
      exact h.harmless_of_add_new hrej hvalid hnext hhalf

theorem VlanUpdate.perform_elsewhere (s : VlanState) (c : VlanUpdate) :
    SameElsewhere s (c.perform s).1 c.vid.toNat := by
  cases c with
  | create vid => exact vlanCreate_elsewhere s vid
  | portAdd vid port tagged => exact vlanPortAdd_elsewhere s vid port tagged

theorem MemberLog.record_sdk (t : MemberLog) (vid : ℕ) (N : Finset ℕ) (r : VlanState × Rc Unit) :
    (t.record vid N r).sdk = r.1 := by
  rcases r with ⟨s, rc⟩
  cases rc with
  | ok u => rfl
  | error e => rfl

theorem MemberLog.record_members_of_ne (t : MemberLog) {vid v : ℕ} (N : Finset ℕ)
    (r : VlanState × Rc Unit) (h : v ≠ vid) : (t.record vid N r).members v = t.members v := by
  rcases r with ⟨s, rc⟩
  cases rc with
  | ok u => exact Function.update_of_ne h _ _
  | error e => rfl

/-- A call that meets its condition keeps every VID right. -/
theorem Harmless.right_all {c : VlanUpdate} (h : ∀ v, MembersRight t v) (hc : Harmless t c)
    (v : ℕ) : MembersRight (t.step c) v := by
  by_cases hv : v = c.vid.toNat
  · rw [hv]
    exact (hc.right (h _)).1
  · have hsame : SameElsewhere t.sdk (t.step c).sdk c.vid.toNat := by
      rw [MemberLog.step, MemberLog.record_sdk]
      exact c.perform_elsewhere t.sdk
    exact (h v).elsewhere hsame hv (MemberLog.record_members_of_ne t _ _ hv)

theorem nextWritesMembers_of_right (h : ∀ v, MembersRight t v) : NextWritesMembers t :=
  fun fault _ _ hok => (h _).next fault hok

/-- A call has no delayed effect exactly when it meets its condition. -/
theorem noDelayedEffect_iff (h : ∀ v, MembersRight t v) (c : VlanUpdate) :
    NoDelayedEffect t c ↔ Harmless t c := by
  constructor
  · intro hc
    exact hc.harmless (h _)
  · intro hc
    exact ⟨nextWritesMembers_of_right (hc.right_all h), (hc.right (h _)).2⟩

/-- The histories of creates and adds without a delayed effect, whatever faults come:
those in which every failing write meets its condition. -/
theorem noDelayedEffect_iff_harmless (a : Asic) (calls : List VlanUpdate) :
    EachStep MemberLog.step NoDelayedEffect (MemberLog.init a) calls ↔
      EachStep MemberLog.step Harmless (MemberLog.init a) calls := by
  have same (t : MemberLog) (c : VlanUpdate) (h : ∀ v, MembersRight t v) :
      NoDelayedEffect t c ↔ Harmless t c := noDelayedEffect_iff h c
  have keep (t : MemberLog) (c : VlanUpdate) (h : ∀ v, MembersRight t v) (hc : Harmless t c) :
      ∀ v, MembersRight (t.step c) v := hc.right_all h
  have hinit (v : ℕ) : MembersRight (MemberLog.init a) v := .inl ⟨rfl, rfl⟩
  exact eachStep_congr same keep hinit calls

/-- The first write of an add to VLAN 10 fails: the port comes in with the next add. -/
theorem noDelayedEffect_fails :
    ¬ EachStep MemberLog.step NoDelayedEffect (MemberLog.init (Asic.failing 2))
      [.portAdd 10 1 true] := by
  rintro ⟨⟨hnext, -⟩, -⟩
  set t := (MemberLog.init (Asic.failing 2)).step (.portAdd 10 1 true)
  set r := vlanPortAdd (t.sdk.withFaults fun _ => false) 10 2 true
  have hok : r.2 = .ok () := by
    decide +kernel
  have hbit : (vlanPortBitmap (r.1.asic.mem VLAN_BASE 10)).getLsbD 1 = true := by
    decide +kernel
  have hmembers : t.members 10 = ∅ := by
    decide +kernel
  have hperform : VlanUpdate.perform (t.sdk.withFaults fun _ => false) (.portAdd 10 2 true) =
      (r.1, .ok ()) := Prod.ext rfl hok
  have hwritten : BitmapsAre r.1.asic 10 (insert 2 (t.members 10)) := hnext _ _ _ hperform
  have hone := hwritten.vlan 1
  rw [hbit, hmembers] at hone
  exact absurd hone (by decide)

end OpenNos.Sdk
