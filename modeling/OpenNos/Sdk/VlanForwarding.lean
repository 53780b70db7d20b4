import OpenNos.Lib.History
import OpenNos.Sdk.Vlan

/-! Adds to the VLANs that `init_vlan_forwarding` of `init_datapath.c` left in
hardware. It writes VLAN 1 with every port and tells nothing to the arrays of
`vlan.c`, for which VLAN 1 does not exist: the first add there writes a new entry
over the one with all ports. -/

namespace OpenNos.Sdk

open Bits History

def STG_TABm : BitVec 32 := 0x05176000

def VLAN_TABm : BitVec 32 := 0x12168000

def EGR_VLANm : BitVec 32 := 0x0d260000

def UNKNOWN_UCAST_BLOCK_MASKm : BitVec 32 := 0x0f174c00

def UNKNOWN_MCAST_BLOCK_MASKm : BitVec 32 := 0x0f175000

/-- The ports 0 to 52: the CPU and the front panel. -/
def pbmLo : BitVec 32 := 0xffffffff

def pbmHi : BitVec 32 := 0x001fffff

def allPorts : BitVec 64 := pbmHi.setWidth 64 <<< 32 ||| pbmLo.setWidth 64

/-- An array of words by its initial values. -/
def wordsOf (ws : List (BitVec 32)) : Words := fun i => ws.getD i 0#32

/-- All ports of the spanning tree group forward. -/
def stgWords : Words := wordsOf [0xffffffff, 0xffffffff, 0xffffffff, 0x000003ff, 0]

def vlanWords : Words :=
  let bm := allPorts
  let w2 := ((bm &&& 0x3fffffff) <<< 2).setWidth 32
  let w3 := (bm >>> 30 &&& 0xffffffff).setWidth 32
  let w4 := (bm >>> 62 &&& 0x3).setWidth 32 ||| 2 <<< 4
  wordsOf [pbmLo, pbmHi, w2, w3, w4, 0, 1 <<< 13, 0, 0, 0]

def egrVlanWords : Words :=
  let bm := allPorts
  let w5 := ((bm &&& 0x3fffffff) <<< 2).setWidth 32
  let w6 := (bm >>> 30 &&& 0xffffffff).setWidth 32
  let w7 := (bm >>> 62 &&& 0xf).setWidth 32
  wordsOf [1 ||| 2 <<< 1, 0, 0, pbmLo, pbmHi, w5, w6, w7]

/-- The first `n` entries of both block masks. -/
def clearBlockMasks (a : Asic) : (n : ℕ) → Asic
  | 0 => a
  | n + 1 =>
    let zero : Words := fun _ => 0#32
    let a := ((clearBlockMasks a n).memWrite UNKNOWN_UCAST_BLOCK_MASKm n zero 3).1
    (a.memWrite UNKNOWN_MCAST_BLOCK_MASKm n zero 3).1

/-- A write that fails is only logged. -/
def initVlanForwarding (a : Asic) : Asic :=
  let a := (a.memWrite STG_TABm 2 stgWords 5).1
  let a := (a.memWrite VLAN_TABm 1 vlanWords 10).1
  let a := (a.memWrite EGR_VLANm 1 egrVlanWords 8).1
  clearBlockMasks a 67

/-- The state the first call of `vlan.c` finds. -/
def VlanState.afterInit (a : Asic) : VlanState := VlanState.init (initVlanForwarding a)

structure VlanAdd where
  vid : BitVec 16
  port : ℤ
  tagged : Bool

namespace VlanAdd

def perform (s : VlanState) (c : VlanAdd) : VlanState := (vlanPortAdd s c.vid c.port c.tagged).1

/-- The arguments the code accepts. -/
def Accepted (c : VlanAdd) : Prop := ¬ (4095 < c.vid.toNat ∨ c.port ≤ 0 ∨ 52 < c.port)

instance (c : VlanAdd) : Decidable c.Accepted := inferInstanceAs (Decidable (¬ _))

end VlanAdd

/-- The member bits of the two entries of a VID that are set stay set. -/
structure MembersKept (a a' : Asic) (vid : ℕ) : Prop where
  ing : ∀ b < 132, bit (a.mem VLAN_BASE vid) b = true → bit (a'.mem VLAN_BASE vid) b = true
  egr : ∀ b, 96 ≤ b → b < 228 →
    bit (a.mem EGR_VLAN_BASE vid) b = true → bit (a'.mem EGR_VLAN_BASE vid) b = true

/-- An add removes no member of any VID. -/
def RemovesNone (s : VlanState) (c : VlanAdd) : Prop :=
  ∀ vid, MembersKept s.asic (c.perform s).asic vid

/-- The only member bits of the VID in hardware are those of this port. -/
structure OnlyMember (a : Asic) (vid port : ℕ) (tagged : Bool) : Prop where
  ing : ∀ b < 132, bit (a.mem VLAN_BASE vid) b = true → b = port ∨ b = 66 + port
  egr : ∀ b, 96 ≤ b → b < 228 → bit (a.mem EGR_VLAN_BASE vid) b = true →
    b = 162 + port ∨ tagged = false ∧ b = 96 + port

/-- An add to a VID that `vlan.c` has not created finds no member but its own. -/
def FindsOwn (s : VlanState) (c : VlanAdd) : Prop :=
  c.Accepted → (s.vlans c.vid.toNat).vlanValid = false →
    OnlyMember s.asic c.vid.toNat c.port.toNat c.tagged

/-- No member bit of the VID is set. -/
structure NoMembers (a : Asic) (vid : ℕ) : Prop where
  ing : ∀ b < 132, bit (a.mem VLAN_BASE vid) b = false
  egr : ∀ b, 96 ≤ b → b < 228 → bit (a.mem EGR_VLAN_BASE vid) b = false

/-- What every add keeps: a VID that `vlan.c` created is as it holds it. -/
structure AddInv (s : VlanState) : Prop where
  faultFree : s.asic.FaultFree
  created : ∀ v, (s.vlans v).vlanValid = true → ∃ pbm utbm, Settled s v pbm utbm

variable {s : VlanState} {c : VlanAdd}

/-! ### The start -/

theorem memWrite_faultFree {a : Asic} (h : a.FaultFree) (base : BitVec 32) (i : ℕ) (w : Words)
    (n : ℕ) : (a.memWrite base i w n).1.FaultFree := by
  rw [h.memWrite]
  exact h.store base i w n

theorem clearBlockMasks_faultFree {a : Asic} (h : a.FaultFree) (n : ℕ) :
    (clearBlockMasks a n).FaultFree := by
  induction n with
  | zero => exact h
  | succ n ih => exact memWrite_faultFree (memWrite_faultFree ih _ _ _ _) _ _ _ _

theorem clearBlockMasks_mem (a : Asic) (n : ℕ) {base : BitVec 32} (i : ℕ)
    (hu : base ≠ UNKNOWN_UCAST_BLOCK_MASKm) (hm : base ≠ UNKNOWN_MCAST_BLOCK_MASKm) :
    (clearBlockMasks a n).mem base i = a.mem base i := by
  induction n with
  | zero => rfl
  | succ n ih =>
    rw [clearBlockMasks, Asic.memWrite_mem_of_ne _ _ (.inl hm),
      Asic.memWrite_mem_of_ne _ _ (.inl hu), ih]

theorem initVlanForwarding_faultFree {a : Asic} (h : a.FaultFree) :
    (initVlanForwarding a).FaultFree :=
  clearBlockMasks_faultFree (memWrite_faultFree (memWrite_faultFree
    (memWrite_faultFree h _ _ _ _) _ _ _ _) _ _ _ _) 67

/-- The entries of the other VIDs are those of the chip before. -/
theorem initVlanForwarding_of_ne (a : Asic) {vid : ℕ} (h : vid ≠ 1) :
    (initVlanForwarding a).mem VLAN_BASE vid = a.mem VLAN_BASE vid ∧
      (initVlanForwarding a).mem EGR_VLAN_BASE vid = a.mem EGR_VLAN_BASE vid := by
  constructor
  · rw [initVlanForwarding, clearBlockMasks_mem _ _ _ (by decide) (by decide),
      Asic.memWrite_mem_of_ne _ _ (.inr h), Asic.memWrite_mem_of_ne _ _ (.inr h),
      Asic.memWrite_mem_of_ne _ _ (.inl (by decide))]
  · rw [initVlanForwarding, clearBlockMasks_mem _ _ _ (by decide) (by decide),
      Asic.memWrite_mem_of_ne _ _ (.inr h), Asic.memWrite_mem_of_ne _ _ (.inr h),
      Asic.memWrite_mem_of_ne _ _ (.inl (by decide))]

/-- VLAN 1 has all ports, the CPU port among them. -/
theorem initVlanForwarding_vlan {a : Asic} (h : a.FaultFree) :
    (initVlanForwarding a).Holds VLAN_BASE 1 VLAN_WORDS (ingPack allPorts) := by
  have hwords : ∀ j < 10, vlanWords j = ingPack allPorts j := by decide +kernel
  have hbase : VLAN_BASE = VLAN_TABm := rfl
  intro j hj
  rw [← hwords j hj, hbase, initVlanForwarding, clearBlockMasks_mem _ _ _ (by decide) (by decide),
    Asic.memWrite_mem_of_ne _ _ (.inl (by decide)),
    (memWrite_faultFree h STG_TABm 2 stgWords 5).memWrite]
  exact Asic.holds_store_self VLAN_TABm 1 10 vlanWords j hj

theorem AddInv.init {a : Asic} (h : a.FaultFree) : AddInv (VlanState.init a) where
  faultFree := h
  created := fun _ hvalid => absurd hvalid Bool.false_ne_true

/-! ### The bits of an entry with one more member -/

theorem bit_ingPack_or (pbm : BitVec 64) {port b : ℕ} (hport : port < 64) (hb : b < 132) :
    bit (ingPack (pbm ||| 1#64 <<< port)) b =
      (bit (ingPack pbm) b || decide (b = port ∨ b = 66 + port)) := by
  rw [bit_ingPack, bit_ingPack]
  by_cases hlow : b < 66
  · simp [hlow, getLsbD_or_one pbm hport, show b ≠ 66 + port by omega]
  · simp [hlow, hb, getLsbD_or_one pbm hport, show b ≠ port by omega,
      show b - 66 = port ↔ b = 66 + port by omega]

theorem bit_egrPack_or (pbm utbm : BitVec 64) {port b : ℕ} (tagged : Bool) (hport : port < 64)
    (hlow : 96 ≤ b) (hhigh : b < 228) :
    bit (egrPack (pbm ||| 1#64 <<< port) (addUntagged utbm port tagged)) b =
      (bit (egrPack pbm utbm) b ||
        decide (b = 162 + port ∨ tagged = false ∧ b = 96 + port)) := by
  rw [bit_egrPack, bit_egrPack]
  by_cases hmid : 162 ≤ b
  · simp [hmid, hhigh, getLsbD_or_one pbm hport, show b ≠ 96 + port by omega,
      show b - 162 = port ↔ b = 162 + port by omega]
  · cases tagged with
    | true => simp [hmid, hlow, addUntagged, show b ≠ 162 + port by omega]
    | false =>
      simp [hmid, hlow, addUntagged, getLsbD_or_one utbm hport, show b < 162 by omega,
        show b ≠ 162 + port by omega, show b - 96 = port ↔ b = 96 + port by omega]

/-! ### One add -/

/-- An add to a VLAN of `vlan.c` only sets bits. -/
theorem Settled.membersKept {pbm utbm : BitVec 64} {s' : VlanState} {vid port : ℕ} {tagged : Bool}
    (h : Settled s vid pbm utbm)
    (h' : Settled s' vid (pbm ||| 1#64 <<< port) (addUntagged utbm port tagged))
    (hport : port < 64) : MembersKept s.asic s'.asic vid where
  ing := by
    intro b hb hset
    rw [h.ing.bit_eq (by rw [VLAN_WORDS]; omega)] at hset
    rw [h'.ing.bit_eq (by rw [VLAN_WORDS]; omega), bit_ingPack_or pbm hport hb, hset, Bool.true_or]
  egr := by
    intro b hlow hhigh hset
    rw [h.egr.bit_eq (by rw [EGR_VLAN_WORDS]; omega)] at hset
    rw [h'.egr.bit_eq (by rw [EGR_VLAN_WORDS]; omega),
      bit_egrPack_or pbm utbm tagged hport hlow hhigh, hset, Bool.true_or]

/-- A new entry with one member keeps the members found exactly when it has them. -/
theorem membersKept_new_iff {s' : VlanState} {vid port : ℕ} {tagged : Bool}
    (h' : Settled s' vid (0 ||| 1#64 <<< port) (addUntagged 0 port tagged)) (hport : port < 64) :
    MembersKept s.asic s'.asic vid ↔ OnlyMember s.asic vid port tagged := by
  have hing (b : ℕ) (hb : b < 132) : bit (s'.asic.mem VLAN_BASE vid) b =
      decide (b = port ∨ b = 66 + port) := by
    have hzero : bit (ingPack 0) b = false := by
      rw [bit_ingPack]
      simp [hb]
    rw [h'.ing.bit_eq (by rw [VLAN_WORDS]; omega), bit_ingPack_or 0 hport hb, hzero, Bool.false_or]
  have hegr (b : ℕ) (hlow : 96 ≤ b) (hhigh : b < 228) : bit (s'.asic.mem EGR_VLAN_BASE vid) b =
      decide (b = 162 + port ∨ tagged = false ∧ b = 96 + port) := by
    have hzero : bit (egrPack 0 0) b = false := by
      rw [bit_egrPack]
      simp [hlow, hhigh]
      omega
    rw [h'.egr.bit_eq (by rw [EGR_VLAN_WORDS]; omega), bit_egrPack_or 0 0 tagged hport hlow hhigh,
      hzero, Bool.false_or]
  constructor
  · rintro ⟨hi, he⟩
    constructor
    · intro b hb hset
      have hnew := hi b hb hset
      rw [hing b hb] at hnew
      exact of_decide_eq_true hnew
    · intro b hlow hhigh hset
      have hnew := he b hlow hhigh hset
      rw [hegr b hlow hhigh] at hnew
      exact of_decide_eq_true hnew
  · rintro ⟨hi, he⟩
    constructor
    · intro b hb hset
      rw [hing b hb]
      exact decide_eq_true (hi b hb hset)
    · intro b hlow hhigh hset
      rw [hegr b hlow hhigh]
      exact decide_eq_true (he b hlow hhigh hset)

/-- Only the VID of the add matters. -/
theorem removesNone_iff_at (s : VlanState) (c : VlanAdd) :
    RemovesNone s c ↔ MembersKept s.asic (c.perform s).asic c.vid.toNat := by
  constructor
  · intro h
    exact h c.vid.toNat
  · intro h vid
    by_cases hvid : vid = c.vid.toNat
    · rwa [hvid]
    · have hmem := (vlanPortAdd_elsewhere s c.vid c.port c.tagged vid hvid).2
      constructor
      · intro b _ hset
        rw [VlanAdd.perform, hmem]
        exact hset
      · intro b _ _ hset
        rw [VlanAdd.perform, hmem]
        exact hset

/-- What an accepted add leaves at its VID. -/
theorem AddInv.settled (h : AddInv s) (hc : c.Accepted) :
    (∃ pbm utbm, Settled s c.vid.toNat pbm utbm ∧
      Settled (c.perform s) c.vid.toNat (pbm ||| 1#64 <<< c.port.toNat)
        (addUntagged utbm c.port.toNat c.tagged)) ∨
    (s.vlans c.vid.toNat).vlanValid = false ∧
      Settled (c.perform s) c.vid.toNat (0 ||| 1#64 <<< c.port.toNat)
        (addUntagged 0 c.port.toNat c.tagged) := by
  cases hvalid : (s.vlans c.vid.toNat).vlanValid with
  | true =>
    obtain ⟨pbm, utbm, hset⟩ := h.created _ hvalid
    refine .inl ⟨pbm, utbm, hset, ?_⟩
    rw [VlanAdd.perform, vlanPortAdd_of_valid h.faultFree c.tagged hc hvalid]
    exact hset.settle_add _ _
  | false =>
    refine .inr ⟨rfl, ?_⟩
    rw [VlanAdd.perform, vlanPortAdd_of_not_valid h.faultFree c.tagged hc hvalid,
      VlanShadow.created_eq, VlanShadow.packed_add]
    exact settled_settle _ _ _ _

theorem AddInv.perform_of_rejected (hc : ¬ c.Accepted) : c.perform s = s := by
  rw [VlanAdd.perform, vlanPortAdd, if_pos (not_not.mp hc)]

theorem AddInv.perform (h : AddInv s) (c : VlanAdd) : AddInv (c.perform s) := by
  by_cases hc : c.Accepted
  · refine ⟨?_, fun v hv => ?_⟩
    · cases hvalid : (s.vlans c.vid.toNat).vlanValid with
      | true =>
        rw [VlanAdd.perform, vlanPortAdd_of_valid h.faultFree c.tagged hc hvalid]
        exact storeVlan_faultFree h.faultFree _ _
      | false =>
        rw [VlanAdd.perform, vlanPortAdd_of_not_valid h.faultFree c.tagged hc hvalid]
        exact storeVlan_faultFree (storeVlan_faultFree h.faultFree _ _) _ _
    · by_cases hvid : v = c.vid.toNat
      · rcases h.settled hc with ⟨_, _, -, hset⟩ | ⟨-, hset⟩
        · exact ⟨_, _, hvid ▸ hset⟩
        · exact ⟨_, _, hvid ▸ hset⟩
      · have hsame := vlanPortAdd_elsewhere s c.vid c.port c.tagged
        rw [VlanAdd.perform, (hsame v hvid).1] at hv
        obtain ⟨pbm, utbm, hset⟩ := h.created v hv
        exact ⟨pbm, utbm, hset.elsewhere hsame hvid⟩
  · rwa [AddInv.perform_of_rejected hc]

/-- An add removes no member exactly when it finds none but its own. -/
theorem AddInv.removesNone_iff (h : AddInv s) (c : VlanAdd) :
    RemovesNone s c ↔ FindsOwn s c := by
  rw [removesNone_iff_at]
  by_cases hc : c.Accepted
  swap
  · rw [AddInv.perform_of_rejected hc]
    exact iff_of_true ⟨fun _ _ hset => hset, fun _ _ _ hset => hset⟩ fun hc' => absurd hc' hc
  have hport : c.port.toNat < 64 := by
    have hrange := hc
    rw [VlanAdd.Accepted] at hrange
    omega
  rcases h.settled hc with ⟨pbm, utbm, hold, hnew⟩ | ⟨hvalid, hnew⟩
  · refine iff_of_true (hold.membersKept hnew hport) fun _ hvalid => ?_
    rw [hold.shadow] at hvalid
    cases hvalid
  · rw [membersKept_new_iff hnew hport]
    exact ⟨fun hfind _ _ => hfind, fun hfind => hfind hc hvalid⟩

/-! ### Histories of adds -/

/-- VLAN 1 is as the initialisation left it, and the other VIDs have no member but
those of `vlan.c`. -/
structure InitialInv (s : VlanState) : Prop where
  adds : AddInv s
  unseen : (s.vlans 1).vlanValid = false
  cpu : bit (s.asic.mem VLAN_BASE 1) 0 = true
  others : ∀ v ≠ 1, (s.vlans v).vlanValid = false → NoMembers s.asic v

theorem InitialInv.afterInit {a : Asic} (hf : a.FaultFree) (hno : ∀ vid ≠ 1, NoMembers a vid) :
    InitialInv (VlanState.afterInit a) where
  adds := AddInv.init (initVlanForwarding_faultFree hf)
  unseen := rfl
  cpu := by
    have hport : bit (ingPack allPorts) 0 = true := by decide +kernel
    rw [VlanState.afterInit, VlanState.init, (initVlanForwarding_vlan hf).bit_eq (by decide), hport]
  others := by
    intro v hv _
    obtain ⟨hing, hegr⟩ := initVlanForwarding_of_ne a hv
    constructor
    · intro b hb
      rw [VlanState.afterInit, VlanState.init, hing]
      exact (hno v hv).ing b hb
    · intro b hlow hhigh
      rw [VlanState.afterInit, VlanState.init, hegr]
      exact (hno v hv).egr b hlow hhigh

/-- An accepted add finds only its own members unless it is for VLAN 1. -/
theorem InitialInv.findsOwn_iff (h : InitialInv s) (c : VlanAdd) :
    FindsOwn s c ↔ (c.Accepted → c.vid.toNat ≠ 1) := by
  constructor
  · intro hfind hc hvid
    have hrange := hc
    rw [VlanAdd.Accepted] at hrange
    have hcpu := h.cpu
    have hunseen := h.unseen
    rw [← hvid] at hcpu hunseen
    have hport := (hfind hc hunseen).ing 0 (by omega) hcpu
    omega
  · intro hvid hc hvalid
    have hno := h.others _ (hvid hc) hvalid
    constructor
    · intro b hb hset
      rw [hno.ing b hb] at hset
      cases hset
    · intro b hlow hhigh hset
      rw [hno.egr b hlow hhigh] at hset
      cases hset

theorem InitialInv.perform (h : InitialInv s) {c : VlanAdd} (hc : c.Accepted → c.vid.toNat ≠ 1) :
    InitialInv (c.perform s) := by
  have hadds := h.adds.perform c
  by_cases hacc : c.Accepted
  swap
  · rwa [AddInv.perform_of_rejected hacc]
  have hsame := vlanPortAdd_elsewhere s c.vid c.port c.tagged
  obtain ⟨hshadow, hmem⟩ := hsame 1 (Ne.symm (hc hacc))
  refine ⟨hadds, ?_, ?_, fun v hv hvalid => ?_⟩
  · rw [VlanAdd.perform, hshadow]
    exact h.unseen
  · rw [VlanAdd.perform, hmem]
    exact h.cpu
  · by_cases hvid : v = c.vid.toNat
    · have hset : ∃ pbm utbm, Settled (c.perform s) c.vid.toNat pbm utbm := by
        rcases h.adds.settled hacc with ⟨_, _, -, hset⟩ | ⟨-, hset⟩
        · exact ⟨_, _, hset⟩
        · exact ⟨_, _, hset⟩
      obtain ⟨pbm, utbm, hset⟩ := hset
      rw [hvid, hset.shadow] at hvalid
      cases hvalid
    · obtain ⟨hshadow', hmem'⟩ := hsame v hvid
      rw [VlanAdd.perform, hshadow'] at hvalid
      have hno := h.others v hv hvalid
      constructor
      · intro b hb
        rw [VlanAdd.perform, hmem']
        exact hno.ing b hb
      · intro b hlow hhigh
        rw [VlanAdd.perform, hmem']
        exact hno.egr b hlow hhigh

/-- Adds after the initialisation remove no member exactly when each finds, at a VID
that `vlan.c` has not created, no member but its own. Where the chip has no member at
the VIDs other than 1, that is when none of them is for VLAN 1. -/
theorem removesNone_iff_findsOwn (a : Asic) (hf : a.FaultFree) (calls : List VlanAdd) :
    (EachStep VlanAdd.perform RemovesNone (VlanState.afterInit a) calls ↔
      EachStep VlanAdd.perform FindsOwn (VlanState.afterInit a) calls) ∧
    ((∀ vid ≠ 1, NoMembers a vid) →
      (EachStep VlanAdd.perform RemovesNone (VlanState.afterInit a) calls ↔
        ∀ c ∈ calls, c.Accepted → c.vid.toNat ≠ 1)) := by
  have hinit : AddInv (VlanState.afterInit a) := AddInv.init (initVlanForwarding_faultFree hf)
  have same (s : VlanState) (c : VlanAdd) (h : AddInv s) : RemovesNone s c ↔ FindsOwn s c :=
    h.removesNone_iff c
  have keep (s : VlanState) (c : VlanAdd) (h : AddInv s) (_ : FindsOwn s c) :
      AddInv (c.perform s) := h.perform c
  have hfinds := eachStep_congr same keep hinit calls
  refine ⟨hfinds, fun hno => hfinds.trans ?_⟩
  have same' (s : VlanState) (c : VlanAdd) (h : InitialInv s) :
      FindsOwn s c ↔ (c.Accepted → c.vid.toNat ≠ 1) := h.findsOwn_iff c
  have keep' (s : VlanState) (c : VlanAdd) (h : InitialInv s)
      (hc : c.Accepted → c.vid.toNat ≠ 1) : InitialInv (c.perform s) := h.perform hc
  exact (eachStep_congr same' keep' (InitialInv.afterInit hf hno) calls).trans eachStep_iff_forall

theorem noMembers_blank (vid : ℕ) : NoMembers Asic.blank vid :=
  ⟨fun _ _ => bit_zero _, fun _ _ _ => bit_zero _⟩

/-- Two ports added to VLAN 10. -/
theorem removesNone_vlan10 :
    EachStep VlanAdd.perform RemovesNone (VlanState.afterInit Asic.blank)
      [⟨10, 1, true⟩, ⟨10, 2, false⟩] := by
  refine ((removesNone_iff_findsOwn Asic.blank Asic.blank_faultFree _).2
    (fun vid _ => noMembers_blank vid)).mpr ?_
  decide

/-- The first port added to VLAN 1: the CPU port and all others are gone. -/
theorem removesNone_fails :
    ¬ EachStep VlanAdd.perform RemovesNone (VlanState.afterInit Asic.blank) [⟨1, 1, false⟩] := by
  rintro ⟨hkept, -⟩
  have hbefore : bit ((VlanState.afterInit Asic.blank).asic.mem VLAN_BASE 1) 0 = true := by
    decide +kernel
  have hafter : bit ((VlanAdd.perform (VlanState.afterInit Asic.blank) ⟨1, 1, false⟩).asic.mem
      VLAN_BASE 1) 0 = false := by
    decide +kernel
  have hset := (hkept 1).ing 0 (by decide) hbefore
  rw [hafter] at hset
  cases hset

end OpenNos.Sdk
