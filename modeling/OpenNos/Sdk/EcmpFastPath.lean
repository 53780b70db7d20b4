import OpenNos.Sdk.EcmpGroups

/-! The outgoing interfaces in the descriptor of a small ECMP group beside its
member entries. The eight precomputed interfaces lie apart from each other and
from the other fields. They are a bit narrower than the next-hop index of a
member, so a next hop of the upper half of the table has two names. -/

namespace OpenNos.Sdk

open Bits History WindowFit

/-- OIF_i of a descriptor. -/
def ecmpOif (w : Words) (i : ℕ) : BitVec 13 := field w (oifBits.getD i 0) 13

def ecmpGt8 (w : Words) : Bool := bit w 196

/-- NEXT_HOP_INDEX of a member entry. -/
def ecmpNextHop (w : Words) : BitVec 14 := field w 0 14

/-- Bit `c` belongs to OIF_i or TYPE_i. -/
def OwnBit (i c : ℕ) : Prop :=
  oifBits.getD i 0 ≤ c ∧ c < oifBits.getD i 0 + 13 ∨ c = typeBits.getD i 0

/-! ### The fields of a descriptor -/

/-- Each interface has its type bit below it, and the next pair lies above. -/
theorem oifBits_apart : ∀ i < 8, ∀ m < 8, i ≠ m →
    typeBits.getD m 0 + 14 ≤ oifBits.getD i 0 ∨ oifBits.getD i 0 + 13 ≤ typeBits.getD m 0 := by
  decide

theorem oifBits_eq : ∀ i < 8, oifBits.getD i 0 = typeBits.getD i 0 + 1 ∧
    81 ≤ typeBits.getD i 0 ∧ oifBits.getD i 0 + 13 ≤ 193 := by
  decide

/-- A write of one interface leaves every bit that is not its own. -/
theorem bit_oifPack_succ (w : Words) (egressIds : ℕ → ℤ) {i c : ℕ} (hc : ¬ OwnBit i c) :
    bit (oifPack w egressIds (i + 1)) c = bit (oifPack w egressIds i) c := by
  have htype : c ≠ typeBits.getD i 0 := fun h => hc (.inr h)
  have hoif : c < oifBits.getD i 0 ∨ oifBits.getD i 0 + 13 ≤ c := by
    by_contra hin
    exact hc (.inl (by omega))
  rw [oifPack, bit_putBit, if_neg fun h => htype h.1, bit_putField_of_disjoint _ hoif]

theorem ecmpOif_oifPack (w : Words) (egressIds : ℕ → ℤ) {n i : ℕ} (hn : n ≤ 8) (hi : i < n) :
    ecmpOif (oifPack w egressIds n) i = BitVec.ofInt 13 (egressIds i) := by
  induction n with
  | zero => omega
  | succ m ih =>
    obtain ⟨heq, -, htop⟩ := oifBits_eq m hn
    rcases Nat.lt_succ_iff_lt_or_eq.mp hi with hlt | rfl
    · have hapart := oifBits_apart i (by omega) m hn (by omega)
      rw [← ih (by omega) hlt]
      refine field_congr fun j hj => bit_oifPack_succ w egressIds ?_
      unfold OwnBit
      omega
    · rw [ecmpOif, oifPack, field_putBit_of_disjoint _ (.inr (by omega)), field_putField _ (by
        rw [L3_ECMP_GROUP_WORDS]; omega), setWidth_and_of_ones _ _ (by decide),
        setWidth_ofInt (by decide)]

theorem ecmpGt8_oifPack (w : Words) (egressIds : ℕ → ℤ) {n : ℕ} (hn : n ≤ 8) :
    ecmpGt8 (oifPack w egressIds n) = ecmpGt8 w := by
  induction n with
  | zero => rfl
  | succ m ih =>
    obtain ⟨heq, -, htop⟩ := oifBits_eq m hn
    rw [← ih (by omega)]
    refine bit_oifPack_succ w egressIds ?_
    unfold OwnBit
    omega

theorem ecmpOif_l3EcmpGroupPack (basePtr : ℕ) (egressIds : ℕ → ℤ) {count i : ℕ} (hcount : count ≤ 8)
    (hi : i < count) :
    ecmpOif (l3EcmpGroupPack basePtr count egressIds) i = BitVec.ofInt 13 (egressIds i) := by
  rw [l3EcmpGroupPack, if_pos hcount]
  exact ecmpOif_oifPack _ egressIds hcount hi

theorem ecmpGt8_l3EcmpGroupPack (basePtr count : ℕ) (egressIds : ℕ → ℤ) :
    ecmpGt8 (l3EcmpGroupPack basePtr count egressIds) = decide (8 < count) := by
  rw [l3EcmpGroupPack]
  split_ifs with hcount
  · rw [ecmpGt8_oifPack _ egressIds hcount, ecmpGt8, bit_putBit, if_pos ⟨rfl, by decide⟩]
  · rw [ecmpGt8, bit_putBit, if_pos ⟨rfl, by decide⟩]

/-- A member entry names the next hop it was written for. -/
theorem ecmpNextHop_eq {w : Words} {egressId : ℤ} (hw : w 0 = l3EcmpPack egressId)
    (hid : 0 < egressId ∧ egressId < MAX_L3_NHOP) : ((ecmpNextHop w).toNat : ℤ) = egressId := by
  have hfield : ecmpNextHop w = (w 0).setWidth 14 := by
    rw [ecmpNextHop, field_eq_iff]
    intro i hi
    rw [bit, show (0 + i) / 32 = 0 by omega, show (0 + i) % 32 = i by omega,
      BitVec.getLsbD_setWidth, decide_eq_true hi, Bool.true_and]
  have hlt : egressId < 16384 := hid.2
  have hnat := toNat_l3EcmpPack ⟨hid.1.le, hlt⟩
  rw [hfield, hw, BitVec.toNat_setWidth, Nat.mod_eq_of_lt (by omega), hnat]

/-! ### The two names of a member -/

/-- The descriptor of a group against its members, after a create. -/
structure EcmpFastPath (a : Asic) (id count : ℕ) (egressIds : ℕ → ℤ) : Prop where
  agree : ∀ i < count, (ecmpOif (a.mem L3_ECMP_GROUP_BASE id) i).toNat =
    (ecmpNextHop (a.mem L3_ECMP_BASE
      ((ecmpBasePtr (a.mem L3_ECMP_GROUP_BASE id)).toNat + i))).toNat
  named : ∀ i < count, ((ecmpNextHop (a.mem L3_ECMP_BASE
    ((ecmpBasePtr (a.mem L3_ECMP_GROUP_BASE id)).toNat + i))).toNat : ℤ) = egressIds i
  undisturbed : ∀ w, ∀ i < count, ∀ c, ¬ OwnBit i c →
    bit (oifPack w egressIds (i + 1)) c = bit (oifPack w egressIds i) c
  size : (ecmpCount (a.mem L3_ECMP_GROUP_BASE id)).toNat = count
  gt8 : ecmpGt8 (a.mem L3_ECMP_GROUP_BASE id) = false

/-- What a create of at most eight members leaves in both tables. -/
structure SmallGroup (a : Asic) (id count : ℕ) (egressIds : ℕ → ℤ) : Prop where
  oif : ∀ i < count, ecmpOif (a.mem L3_ECMP_GROUP_BASE id) i = BitVec.ofInt 13 (egressIds i)
  named : ∀ i < count, ((ecmpNextHop (a.mem L3_ECMP_BASE
    ((ecmpBasePtr (a.mem L3_ECMP_GROUP_BASE id)).toNat + i))).toNat : ℤ) = egressIds i
  size : (ecmpCount (a.mem L3_ECMP_GROUP_BASE id)).toNat = count
  gt8 : ecmpGt8 (a.mem L3_ECMP_GROUP_BASE id) = false

theorem EcmpCreated.smallGroup {s : EcmpState} {egressIds : ℕ → ℤ} {count : ℤ} {id base : ℕ}
    {a : Asic} (h : EcmpCreated s egressIds count id base a) (hcount : count ≤ 8)
    (hids : ∀ i < count.toNat, 0 < egressIds i ∧ egressIds i < MAX_L3_NHOP) :
    SmallGroup a id count.toNat egressIds := by
  have hplaced : Placed
      { s with asic := a, ecmpUsed := setRange s.ecmpUsed base count.toNat true } id
      { basePtr := base, count := count.toNat, egressIds := egressIds } := h.placed rfl rfl
  constructor
  · intro i hi
    obtain ⟨-, -, htop⟩ := oifBits_eq i (by omega)
    rw [ecmpOif, h.group.field_eq (by rw [L3_ECMP_GROUP_WORDS]; omega)]
    exact ecmpOif_l3EcmpGroupPack base egressIds (by omega) hi
  · intro i hi
    have hbase : (ecmpBasePtr (a.mem L3_ECMP_GROUP_BASE id)).toNat = base := hplaced.base
    rw [hbase]
    exact ecmpNextHop_eq (h.members i hi) (hids i hi)
  · exact hplaced.count
  · rw [ecmpGt8, h.group.bit_eq (by decide), ← ecmpGt8, ecmpGt8_l3EcmpGroupPack,
      decide_eq_false (by omega)]

/-- The two names of a member are the same if the next hop is of the lower half. -/
theorem SmallGroup.fastPath_iff {a : Asic} {id count : ℕ} {egressIds : ℕ → ℤ}
    (h : SmallGroup a id count egressIds)
    (hids : ∀ i < count, 0 < egressIds i ∧ egressIds i < MAX_L3_NHOP) :
    EcmpFastPath a id count egressIds ↔ ∀ i < count, egressIds i < 8192 := by
  have hoif : ∀ i < count, ((ecmpOif (a.mem L3_ECMP_GROUP_BASE id) i).toNat : ℤ) =
      egressIds i % 8192 := by
    intro i hi
    rw [h.oif i hi, BitVec.toNat_ofInt]
    have := (hids i hi).1
    omega
  constructor
  · intro hpath i hi
    have hagree := hpath.agree i hi
    have hnamed := h.named i hi
    have := hoif i hi
    omega
  · intro hlow
    refine ⟨?_, h.named, fun w i _ c hc => bit_oifPack_succ w egressIds hc, h.size, h.gt8⟩
    intro i hi
    have hnamed := h.named i hi
    have hlt := hlow i hi
    have := hoif i hi
    have := (hids i hi).1
    omega

/-- A successful create makes its group small. -/
theorem GroupsSound.smallGroup {t : EcmpLog} (h : GroupsSound t) {egressIds : ℕ → ℤ} {count : ℤ}
    {s' : EcmpState} {id : ℕ} (hok : l3EcmpCreate t.sdk egressIds count = (s', .ok id))
    (hcount : count ≤ 8) (hids : ∀ i < count.toNat, 0 < egressIds i ∧ egressIds i < MAX_L3_NHOP) :
    SmallGroup s'.asic id count.toNat egressIds := by
  rcases l3EcmpCreate_cases h.next egressIds count with
    ⟨id', base, a, hcreated, heq⟩ | ⟨a, next, e, -, heq⟩
  · rw [heq] at hok
    obtain ⟨rfl, hid⟩ := Prod.mk.inj hok
    cases hid
    exact hcreated.smallGroup hcount hids
  · rw [heq] at hok
    cases (Prod.mk.inj hok).2

theorem GroupsSound.run {t : EcmpLog} (h : GroupsSound t) (calls : List EcmpCall) :
    GroupsSound (run EcmpLog.step t calls) :=
  (throughout_of_step (fun _ c ht => (ht.step c).1) h calls).final

/-- After any history, a create of at most eight members names each of them the same in
the descriptor and in the member table exactly if all of them are below 8192. -/
theorem ecmpFastPath_iff (a : Asic) (calls : List EcmpCall) {egressIds : ℕ → ℤ} {count : ℤ}
    {s' : EcmpState} {id : ℕ}
    (hok : l3EcmpCreate (run EcmpLog.step (EcmpLog.init a) calls).sdk egressIds count =
      (s', .ok id))
    (hcount : count ≤ 8) (hids : ∀ i < count.toNat, 0 < egressIds i ∧ egressIds i < MAX_L3_NHOP) :
    EcmpFastPath s'.asic id count.toNat egressIds ↔ ∀ i < count.toNat, egressIds i < 8192 :=
  (((GroupsSound.init a).run calls).smallGroup hok hcount hids).fastPath_iff hids

/-- The first group of a new SDK on a blank chip. -/
theorem l3EcmpCreate_blank (egressIds : ℕ → ℤ) :
    l3EcmpCreate (run EcmpLog.step (EcmpLog.init Asic.blank) []).sdk egressIds 1 =
      ((l3EcmpCreate (EcmpState.init Asic.blank) egressIds 1).1, .ok 1) := rfl

/-- A group of the next hops 8189, 8190 and 8191, after a group of others. -/
theorem ecmpFastPath_iff_low :
    let t := run EcmpLog.step (EcmpLog.init Asic.blank) [.create (fun _ => 9000) 2]
    EcmpFastPath (l3EcmpCreate t.sdk (fun i => 8189 + i) 3).1.asic 2 3 fun i => 8189 + i := by
  have hcreate : l3EcmpCreate
      (run EcmpLog.step (EcmpLog.init Asic.blank) [.create (fun _ => 9000) 2]).sdk
      (fun i => 8189 + i) 3 = (_, .ok 2) := rfl
  have hlow : ∀ i < 3, (8189 : ℤ) + (i : ℕ) < 8192 := fun i hi => by omega
  refine (ecmpFastPath_iff Asic.blank _ hcreate (by decide) fun i hi => ?_).mpr hlow
  have hi := hlow i hi
  have hmax : MAX_L3_NHOP = 16384 := rfl
  omega

/-- Next hop 8192, alone in a group: OIF_0 is 0 and the member entry is 8192. -/
theorem ecmpFastPath_fails : ¬ EcmpFastPath
    (l3EcmpCreate (EcmpState.init Asic.blank) (fun _ => 8192) 1).1.asic 1 1 fun _ => 8192 := by
  intro h
  have hsmall := (GroupsSound.init Asic.blank).smallGroup (l3EcmpCreate_blank fun _ => 8192)
    (by decide) fun _ _ => by decide
  have hlow := (hsmall.fastPath_iff fun _ _ => by decide).mp h 0 (by decide)
  exact absurd hlow (by decide)

end OpenNos.Sdk
