import OpenNos.Lib.WindowFit
import OpenNos.Sdk.L3Entry

/-! ECMP groups (`ecmp.c`): a group id from a search that goes on from the last one
given out, a window of member slots, the member entries and the descriptor that
points to them. The array argument is the function of its indices. -/

namespace OpenNos.Sdk

open Bits FirstFit WindowFit

def L3_ECMP_BASE : BitVec 32 := 0x0e176000

def L3_ECMP_WORDS : ℕ := 1

def L3_ECMP_ENTRIES : ℕ := 4096

def L3_ECMP_GROUP_BASE : BitVec 32 := 0x0e174000

def L3_ECMP_GROUP_WORDS : ℕ := 7

def L3_ECMP_GROUP_ENTRIES : ℕ := 1024

/-- The chip and the static variables of `ecmp.c`. -/
structure EcmpState where
  asic : Asic
  ecmpUsed : ℕ → Bool
  ecmpGroupUsed : ℕ → Bool
  nextGroupId : ℕ

/-- The static variables before any call. -/
def EcmpState.init (asic : Asic) : EcmpState where
  asic := asic
  ecmpUsed := fun _ => false
  ecmpGroupUsed := fun _ => false
  nextGroupId := 1

/-! ### L3_ECMP and L3_ECMP_GROUP: COUNT at 9:0, BASE_PTR at 21:10, ECMP_GT8 at 196 -/

def l3EcmpPack (egressId : ℤ) : BitVec 32 := BitVec.ofInt 32 egressId &&& 0x3fff

def oifBits : List ℕ := [82, 96, 110, 124, 138, 152, 166, 180]

def typeBits : List ℕ := [81, 95, 109, 123, 137, 151, 165, 179]

/-- The first `n` of the precomputed outgoing interfaces. -/
def oifPack (w : Words) (egressIds : ℕ → ℤ) : (n : ℕ) → Words
  | 0 => w
  | n + 1 =>
    let oif := BitVec.ofInt 64 (egressIds n) &&& 0x1fff
    let w := setBitsU64 (oifPack w egressIds n) L3_ECMP_GROUP_WORDS (oifBits.getD n 0) 13 oif
    setBit w L3_ECMP_GROUP_WORDS (typeBits.getD n 0) false

def l3EcmpGroupPack (basePtr count : ℕ) (egressIds : ℕ → ℤ) : Words :=
  let w := setBitsU64 (fun _ => 0#32) L3_ECMP_GROUP_WORDS 10 12 (BitVec.ofNat 64 basePtr &&& 0xfff)
  let w := setBitsU64 w L3_ECMP_GROUP_WORDS 0 10 (BitVec.ofNat 64 count &&& 0x3ff)
  let w := setBit w L3_ECMP_GROUP_WORDS 196 (8 < count)
  if count ≤ 8 then oifPack w egressIds count else w

def ecmpBasePtr (w : Words) : BitVec 12 := field w 10 12

def ecmpCount (w : Words) : BitVec 10 := field w 0 10

/-! ### Ids and slots -/

def allocGroupId (s : EcmpState) : Option (EcmpState × ℕ) :=
  ((firstFree s.ecmpGroupUsed s.nextGroupId L3_ECMP_GROUP_ENTRIES).or
    (firstFree s.ecmpGroupUsed 1 s.nextGroupId)).map fun i =>
      ({ s with
          ecmpGroupUsed := Function.update s.ecmpGroupUsed i true
          nextGroupId := i + 1 }, i)

def freeGroupId (s : EcmpState) (id : ℤ) : EcmpState :=
  if 0 < id ∧ id < L3_ECMP_GROUP_ENTRIES then
    { s with ecmpGroupUsed := Function.update s.ecmpGroupUsed id.toNat false }
  else s

def allocEcmpSlots (s : EcmpState) (count : ℤ) : Option (EcmpState × ℕ) :=
  if count ≤ 0 ∨ L3_ECMP_ENTRIES < count then none
  else
    (findWindow s.ecmpUsed count.toNat L3_ECMP_ENTRIES (L3_ECMP_ENTRIES + 1) 0).map fun base =>
      ({ s with ecmpUsed := setRange s.ecmpUsed base count.toNat true }, base)

def freeEcmpSlots (s : EcmpState) (base count : ℤ) : EcmpState :=
  if base < 0 ∨ count ≤ 0 then s
  else if L3_ECMP_ENTRIES < base + count then s
  else { s with ecmpUsed := setRange s.ecmpUsed base.toNat count.toNat false }

/-! ### Groups -/

/-- The first `n` member entries, up to a write that fails. -/
def writeMembers (a : Asic) (basePtr : ℕ) (egressIds : ℕ → ℤ) : (n : ℕ) → Asic × Bool
  | 0 => (a, true)
  | n + 1 =>
    match writeMembers a basePtr egressIds n with
    | (a, false) => (a, false)
    | (a, true) =>
      a.memWrite L3_ECMP_BASE (basePtr + n) (fun _ => l3EcmpPack (egressIds n)) L3_ECMP_WORDS

def l3EcmpCreate (s : EcmpState) (egressIds : ℕ → ℤ) (count : ℤ) : EcmpState × Rc ℕ :=
  if count ≤ 0 then (s, .error .einval)
  else if 1023 < count then (s, .error .einval)
  else
    match allocGroupId s with
    | none => (s, .error .enospc)
    | some (s, group) =>
      match allocEcmpSlots s count with
      | none => (freeGroupId s group, .error .enospc)
      | some (s, basePtr) =>
        let failed (a : Asic) : EcmpState × Rc ℕ :=
          (freeGroupId (freeEcmpSlots { s with asic := a } basePtr count) group, .error .eio)
        match writeMembers s.asic basePtr egressIds count.toNat with
        | (a, false) => failed a
        | (a, true) =>
          let w := l3EcmpGroupPack basePtr count.toNat egressIds
          match a.memWrite L3_ECMP_GROUP_BASE group w L3_ECMP_GROUP_WORDS with
          | (a, false) => failed a
          | (a, true) => ({ s with asic := a }, .ok group)

def l3EcmpDestroy (s : EcmpState) (ecmpId : ℤ) : EcmpState × Rc Unit :=
  if ecmpId ≤ 0 ∨ (L3_ECMP_GROUP_ENTRIES : ℤ) ≤ ecmpId then (s, .error .einval)
  else
    -- the result of the write is ignored, and the member slots stay marked
    let w : Words := fun _ => 0#32
    let a := (s.asic.memWrite L3_ECMP_GROUP_BASE ecmpId.toNat w L3_ECMP_GROUP_WORDS).1
    (freeGroupId { s with asic := a } ecmpId, .ok ())

/-! ### What the entries read -/

/-- The outgoing interfaces lie past the pointer and the count. -/
theorem field_oifPack {w : Words} {egressIds : ℕ → ℤ} {n start width : ℕ} (hn : n ≤ 8)
    (h : start + width ≤ 81) :
    field (oifPack w egressIds n) start width = field w start width := by
  have hbits : ∀ m < 8, 81 ≤ typeBits.getD m 0 ∧ 81 ≤ oifBits.getD m 0 := by decide
  induction n with
  | zero => rfl
  | succ m ih =>
    obtain ⟨htype, hoif⟩ := hbits m hn
    rw [oifPack, ← ih (by omega), field_putBit_of_disjoint _ (.inl (by omega)),
      field_putField_of_disjoint _ (.inl (by omega))]

theorem field_l3EcmpGroupPack {basePtr count : ℕ} {egressIds : ℕ → ℤ} {start width : ℕ}
    (h : start + width ≤ 81) :
    field (l3EcmpGroupPack basePtr count egressIds) start width =
      field (setBitsU64
        (setBitsU64 (fun _ => 0#32) L3_ECMP_GROUP_WORDS 10 12 (BitVec.ofNat 64 basePtr &&& 0xfff))
        L3_ECMP_GROUP_WORDS 0 10 (BitVec.ofNat 64 count &&& 0x3ff)) start width := by
  rw [l3EcmpGroupPack]
  split_ifs with hcount
  · rw [field_oifPack hcount h, field_putBit_of_disjoint _ (.inl (by omega))]
  · rw [field_putBit_of_disjoint _ (.inl (by omega))]

theorem ecmpBasePtr_l3EcmpGroupPack {basePtr : ℕ} (count : ℕ) (egressIds : ℕ → ℤ)
    (h : basePtr < 4096) :
    (ecmpBasePtr (l3EcmpGroupPack basePtr count egressIds)).toNat = basePtr := by
  rw [ecmpBasePtr, field_l3EcmpGroupPack (by decide),
    field_putField_of_disjoint _ (.inr (by decide)), field_putField _ (by decide),
    setWidth_and_of_ones _ _ (by decide), BitVec.setWidth_ofNat_of_le (by decide),
    BitVec.toNat_ofNat, Nat.mod_eq_of_lt h]

theorem ecmpCount_l3EcmpGroupPack (basePtr : ℕ) {count : ℕ} (egressIds : ℕ → ℤ)
    (h : count < 1024) :
    (ecmpCount (l3EcmpGroupPack basePtr count egressIds)).toNat = count := by
  rw [ecmpCount, field_l3EcmpGroupPack (by decide), field_putField _ (by decide),
    setWidth_and_of_ones _ _ (by decide), BitVec.setWidth_ofNat_of_le (by decide),
    BitVec.toNat_ofNat, Nat.mod_eq_of_lt h]

/-- The ids of next hops fit a member entry. -/
theorem toNat_l3EcmpPack {egressId : ℤ} (h : 0 ≤ egressId ∧ egressId < 16384) :
    ((l3EcmpPack egressId).toNat : ℤ) = egressId := by
  obtain ⟨k, rfl⟩ := Int.eq_ofNat_of_zero_le h.1
  have hmask : ((0x3fff : BitVec 32)).toNat = 2 ^ 14 - 1 := rfl
  rw [l3EcmpPack, BitVec.ofInt_natCast, BitVec.toNat_and, hmask, Nat.and_two_pow_sub_one_eq_mod,
    BitVec.toNat_ofNat]
  omega

end OpenNos.Sdk
