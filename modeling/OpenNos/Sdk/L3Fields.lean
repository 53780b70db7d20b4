import OpenNos.Sdk.L3Objects

/-! What the entries of next hops and interfaces keep of the arguments their
creates accept. The port of a next hop is checked against 255 and stored in seven
bits; the VLAN of an interface is stored in twelve and not checked. Every other
field is as wide as the check before it, and the rest of the words is zero. -/

namespace OpenNos.Sdk

open Bits

/-- The entries of a next hop read back as its arguments, all other bits zero. -/
structure EgressEncoded (a : Asic) (id : ℕ) (egress : L3Egress) : Prop where
  port : ((nhopPort (a.mem ING_L3_NEXT_HOP_BASE id)).toNat : ℤ) = egress.port
  intf : ((nhopIntf (a.mem EGR_L3_NEXT_HOP_BASE id)).toNat : ℤ) = egress.intfId
  mac : nhopMac (a.mem EGR_L3_NEXT_HOP_BASE id) = egress.mac.u48
  ingRest : ∀ b < 32 * ING_L3_NEXT_HOP_WORDS, ¬ (16 ≤ b ∧ b ≤ 22) →
    bit (a.mem ING_L3_NEXT_HOP_BASE id) b = false
  egrRest : ∀ b < 32 * EGR_L3_NEXT_HOP_WORDS, ¬ (3 ≤ b ∧ b ≤ 14) → ¬ (15 ≤ b ∧ b ≤ 62) →
    bit (a.mem EGR_L3_NEXT_HOP_BASE id) b = false

/-- EGR_L3_INTF.VID. -/
def intfVid (w : Words) : BitVec 12 := field w 13 12

/-- The entry of an interface reads back as its arguments, all other bits zero. -/
structure IntfEncoded (a : Asic) (id : ℕ) (mac : Mac) (vid : BitVec 16) : Prop where
  vid : (intfVid (a.mem EGR_L3_INTF_BASE id)).toNat = vid.toNat
  mac : intfMac (a.mem EGR_L3_INTF_BASE id) = mac.u48
  rest : ∀ b < 32 * EGR_L3_INTF_WORDS, ¬ (13 ≤ b ∧ b ≤ 24) → ¬ (33 ≤ b ∧ b ≤ 80) →
    bit (a.mem EGR_L3_INTF_BASE id) b = false

/-! ### The packed words -/

theorem bit_ingL3NhopPack (port : ℤ) {b : ℕ} (hb : ¬ (16 ≤ b ∧ b ≤ 22)) :
    bit (ingL3NhopPack port) b = false := by
  rw [ingL3NhopPack, bit_putField_of_disjoint _ (by omega), bit_putField]
  split_ifs
  · simp
  · exact bit_zero b

theorem bit_egrL3NhopPack (mac : Mac) (intfId : ℤ) {b : ℕ} (hintf : ¬ (3 ≤ b ∧ b ≤ 14))
    (hmac : ¬ (15 ≤ b ∧ b ≤ 62)) : bit (egrL3NhopPack mac intfId) b = false := by
  rw [egrL3NhopPack, bit_putField_of_disjoint _ (by omega), bit_putField_of_disjoint _ (by omega),
    bit_putField]
  split_ifs
  · simp
  · exact bit_zero b

theorem bit_egrL3IntfPack (mac : Mac) (vid : BitVec 16) {b : ℕ} (hvid : ¬ (13 ≤ b ∧ b ≤ 24))
    (hmac : ¬ (33 ≤ b ∧ b ≤ 80)) : bit (egrL3IntfPack mac vid) b = false := by
  rw [egrL3IntfPack, bit_putField_of_disjoint _ (by omega), bit_putField_of_disjoint _ (by omega)]
  exact bit_zero b

theorem intfVid_egrL3IntfPack (mac : Mac) (vid : BitVec 16) :
    intfVid (egrL3IntfPack mac vid) = vid.setWidth 12 := by
  refine (field_putField_of_disjoint _ (by decide)).trans ?_
  refine (field_putField _ (by decide)).trans ?_
  rw [BitVec.setWidth_setWidth_of_le _ (by decide), setWidth_and_of_ones _ _ (by decide)]

/-! ### Next hops -/

/-- A create that returns 0 had its arguments in the ranges it checks. -/
theorem l3EgressCreate_accepted {s s' : SdkState} {egress : L3Egress} {id : ℕ}
    (hok : l3EgressCreate s egress = (s', .ok id)) :
    (0 < egress.port ∧ egress.port ≤ 255) ∧ 0 < egress.intfId ∧ egress.intfId < 4096 := by
  rw [l3EgressCreate] at hok
  by_cases hport : egress.port ≤ 0 ∨ 255 < egress.port
  · rw [if_pos hport] at hok
    cases (Prod.mk.inj hok).2
  rw [if_neg hport] at hok
  by_cases hintf : egress.intfId ≤ 0 ∨ (MAX_L3_INTF : ℤ) ≤ egress.intfId
  · rw [if_pos hintf] at hok
    cases (Prod.mk.inj hok).2
  rw [MAX_L3_INTF] at hintf
  omega

theorem l3EgressCreate_written {s s' : SdkState} {egress : L3Egress} {id : ℕ}
    (hok : l3EgressCreate s egress = (s', .ok id)) : HopWritten s'.asic id egress := by
  rcases l3EgressCreate_cases s egress with ⟨id', a, -, -, -, hwritten, heq⟩ | ⟨a, e, -, heq⟩
  · rw [heq] at hok
    obtain ⟨rfl, hid⟩ := Prod.mk.inj hok
    cases hid
    exact hwritten
  · rw [heq] at hok
    cases (Prod.mk.inj hok).2

theorem HopWritten.encoded_iff {a : Asic} {id : ℕ} {egress : L3Egress}
    (h : HopWritten a id egress) (hport : 0 < egress.port) (hintf : 0 < egress.intfId)
    (hmax : egress.intfId < 4096) : EgressEncoded a id egress ↔ egress.port < 128 := by
  have hread : ((nhopPort (a.mem ING_L3_NEXT_HOP_BASE id)).toNat : ℤ) = egress.port % 128 := by
    rw [nhopPort, h.1.field_eq (by decide), ← nhopPort, nhopPort_ingL3NhopPack, BitVec.toNat_ofInt]
    omega
  constructor
  · intro henc
    have := henc.port
    omega
  · intro hlow
    constructor
    · omega
    · rw [nhopIntf, h.2.field_eq (by decide), ← nhopIntf, nhopIntf_egrL3NhopPack,
        BitVec.toNat_ofInt]
      omega
    · rw [nhopMac, h.2.field_eq (by decide), ← nhopMac, nhopMac_egrL3NhopPack]
    · intro b hb hout
      rw [h.1.bit_eq hb, bit_ingL3NhopPack _ hout]
    · intro b hb hout hout'
      rw [h.2.bit_eq hb, bit_egrL3NhopPack _ _ hout hout']

/-! ### Interfaces -/

theorem l3IntfCreate_written {s s' : SdkState} {mac : Mac} {vid : BitVec 16} {id : ℕ}
    (hok : l3IntfCreate s mac vid = (s', .ok id)) : IntfWritten s'.asic id (mac, vid) := by
  rcases l3IntfCreate_cases s mac vid with ⟨id', a, -, -, -, hwritten, heq⟩ | ⟨a, e, -, heq⟩
  · rw [heq] at hok
    obtain ⟨rfl, hid⟩ := Prod.mk.inj hok
    cases hid
    exact hwritten
  · rw [heq] at hok
    cases (Prod.mk.inj hok).2

theorem IntfWritten.encoded_iff {a : Asic} {id : ℕ} {mac : Mac} {vid : BitVec 16}
    (h : IntfWritten a id (mac, vid)) : IntfEncoded a id mac vid ↔ vid.toNat < 4096 := by
  have hread : (intfVid (a.mem EGR_L3_INTF_BASE id)).toNat = vid.toNat % 4096 := by
    rw [intfVid, Asic.Holds.field_eq h (by decide), ← intfVid, intfVid_egrL3IntfPack,
      BitVec.toNat_setWidth]
  constructor
  · intro henc
    have := henc.vid
    omega
  · intro hlow
    constructor
    · omega
    · rw [intfMac, Asic.Holds.field_eq h (by decide), ← intfMac, intfMac_egrL3IntfPack]
    · intro b hb hout hout'
      rw [Asic.Holds.bit_eq h hb, bit_egrL3IntfPack _ _ hout hout']

/-- What a create that returns 0 has written reads back as its arguments exactly if
the port is below 128, and the VLAN below 4096. -/
theorem l3Create_encoded_iff (s : SdkState) :
    (∀ egress s' id, l3EgressCreate s egress = (s', .ok id) →
      (EgressEncoded s'.asic id egress ↔ egress.port < 128)) ∧
    ∀ mac vid s' id, l3IntfCreate s mac vid = (s', .ok id) →
      (IntfEncoded s'.asic id mac vid ↔ vid.toNat < 4096) := by
  constructor
  · intro egress s' id hok
    obtain ⟨hport, hintf, hmax⟩ := l3EgressCreate_accepted hok
    exact (l3EgressCreate_written hok).encoded_iff hport.1 hintf hmax
  · intro mac vid s' id hok
    exact (l3IntfCreate_written hok).encoded_iff

/-- The first next hop of a new SDK on a blank chip. -/
theorem l3EgressCreate_blank (mac : Mac) :
    l3EgressCreate (SdkState.init Asic.blank) ⟨mac, 128, 1⟩ =
      ((l3EgressCreate (SdkState.init Asic.blank) ⟨mac, 128, 1⟩).1, .ok 1) := rfl

theorem l3Create_encoded_first :
    EgressEncoded (l3EgressCreate (SdkState.init Asic.blank) ⟨#v[2, 0, 0, 0, 0, 1], 5, 1⟩).1.asic 1
        ⟨#v[2, 0, 0, 0, 0, 1], 5, 1⟩ ∧
      IntfEncoded (l3IntfCreate (SdkState.init Asic.blank) #v[2, 0, 0, 0, 0, 1] 100).1.asic 1
        #v[2, 0, 0, 0, 0, 1] 100 :=
  ⟨((l3Create_encoded_iff (SdkState.init Asic.blank)).1 _ _ 1 rfl).mpr (by decide),
    ((l3Create_encoded_iff (SdkState.init Asic.blank)).2 _ _ _ 1 rfl).mpr (by decide)⟩

/-- Port 128 is accepted and stored as port 0. -/
theorem l3EgressCreate_port_lost :
    (l3EgressCreate (SdkState.init Asic.blank) ⟨#v[2, 0, 0, 0, 0, 1], 128, 1⟩).2 = .ok 1 ∧
      ¬ EgressEncoded
        (l3EgressCreate (SdkState.init Asic.blank) ⟨#v[2, 0, 0, 0, 0, 1], 128, 1⟩).1.asic 1
        ⟨#v[2, 0, 0, 0, 0, 1], 128, 1⟩ := by
  refine ⟨rfl, fun h => ?_⟩
  have hwritten := l3EgressCreate_written (l3EgressCreate_blank #v[2, 0, 0, 0, 0, 1])
  have hlow := (hwritten.encoded_iff (by decide) (by decide) (by decide)).mp h
  exact absurd hlow (by decide)

end OpenNos.Sdk
