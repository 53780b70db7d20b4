import OpenNos.Sdk.Asic
import OpenNos.Sdk.L3Entry

/-! The L2 user table of `l2.c`, a TCAM of 512 entries: the entry `l2_user_pack`
makes of an address, and what the chip reads in it. The packed words hold
VALID, a key of 61 bits, a mask of 61 bits and the data as fields apart from one
another, so a lookup hits the entry exactly if its key agrees with the key of
the address wherever the mask is set. -/

namespace OpenNos.Sdk

open Bits

def L2_USER_ENTRY_BASE : BitVec 32 := 0x06168000

def L2_USER_ENTRY_COUNT : ℕ := 512

def L2_USER_ENTRY_WORDS : ℕ := 5

/-- `bcm56846_l2_user_addr_t`. -/
structure L2UserAddr where
  mac : Mac
  vid : BitVec 16
  port : ℤ
  keyType : ℤ
  copyToCpu : ℤ
  bpdu : ℤ
  mask : BitVec 64
  deriving DecidableEq

def l2UserPack (addr : L2UserAddr) : Words :=
  let mac48 := mac48ToU64 addr.mac
  let mask := addr.mask
  let vid := addr.vid &&& 0xfff
  let port := BitVec.ofInt 32 addr.port &&& 0x7f#32
  let w0 := 1#32 ||| (mac48 &&& 0x7fffffff).setWidth 32 <<< 1
  let w1 := ((mac48 >>> 31) &&& 0x1ffff).setWidth 32 ||| (vid &&& 0xfff).setWidth 32 <<< 17 |||
    (BitVec.ofInt 32 addr.keyType &&& 1#32) <<< 29 ||| (mask &&& 3).setWidth 32 <<< 30
  let w2 := ((mask >>> 2) &&& 0xffffffff).setWidth 32
  let w3 := ((mask >>> 34) &&& 0x7fffffff).setWidth 32
  let w4 := (BitVec.ofInt 32 addr.copyToCpu &&& 1#32) <<< 1 ||| (port &&& 0x7f#32) <<< 3 |||
    (BitVec.ofInt 32 addr.bpdu &&& 1#32) <<< 26
  fun k => if k = 0 then w0 else if k = 1 then w1 else if k = 2 then w2 else
    if k = 3 then w3 else if k = 4 then w4 else 0#32

/-- VALID of an entry. -/
def l2UserValid (words : Words) : Bool := bit words 0

/-- The 160 bits of the five words, word `k` at 32k+31:32k. -/
def l2UserEntry (words : Words) : BitVec 160 := field words 0 160

/-- KEY_TYPE, VLAN and MAC as the chip compares them. -/
def l2UserKey (mac : Mac) (vid : BitVec 12) (keyType : BitVec 1) : BitVec 61 :=
  keyType ++ vid ++ mac.u48

/-- The entry is valid and the key under its mask is that of the lookup. -/
def L2UserHit (words : Words) (key : BitVec 61) : Prop :=
  l2UserValid words = true ∧ (field words 1 61 ^^^ key) &&& field words 62 61 = 0

instance (words : Words) (key : BitVec 61) : Decidable (L2UserHit words key) :=
  inferInstanceAs (Decidable (_ ∧ _))

/-- The key of an address. -/
def L2UserAddr.key (addr : L2UserAddr) : BitVec 61 :=
  l2UserKey addr.mac (addr.vid.setWidth 12) (BitVec.ofInt 1 addr.keyType)

/-- The mask documented for BPDU entries. -/
def L2_USER_MASK_ANY_VLAN : BitVec 64 := 0x1000ffffffffffff

/-! ### The fields of a packed entry -/

variable (addr : L2UserAddr)

theorem l2UserPack_zero : l2UserPack addr 0 =
    1#32 ||| (mac48ToU64 addr.mac &&& 0x7fffffff).setWidth 32 <<< 1 := rfl

theorem l2UserPack_one : l2UserPack addr 1 =
    ((mac48ToU64 addr.mac >>> 31) &&& 0x1ffff).setWidth 32 |||
      (addr.vid &&& 0xfff &&& 0xfff).setWidth 32 <<< 17 |||
      (BitVec.ofInt 32 addr.keyType &&& 1#32) <<< 29 ||| (addr.mask &&& 3).setWidth 32 <<< 30 := rfl

theorem l2UserPack_two : l2UserPack addr 2 = ((addr.mask >>> 2) &&& 0xffffffff).setWidth 32 := rfl

theorem l2UserPack_three :
    l2UserPack addr 3 = ((addr.mask >>> 34) &&& 0x7fffffff).setWidth 32 := rfl

theorem l2UserPack_four : l2UserPack addr 4 =
    (BitVec.ofInt 32 addr.copyToCpu &&& 1#32) <<< 1 |||
      (BitVec.ofInt 32 addr.port &&& 0x7f#32 &&& 0x7f#32) <<< 3 |||
      (BitVec.ofInt 32 addr.bpdu &&& 1#32) <<< 26 := rfl

theorem valid_l2UserPack : field (l2UserPack addr) 0 1 = 1#1 := by
  rw [field_eq_iff]
  intro i hi
  rw [bit, show (0 + i) / 32 = 0 by omega, l2UserPack_zero]
  interval_cases i
  simp

/-- The MAC lies across the first two words. -/
theorem mac_l2UserPack : field (l2UserPack addr) 1 48 = addr.mac.u48 := by
  rw [field_eq_iff]
  intro i hi
  rw [bit, Mac.u48]
  by_cases h : i < 31
  · rw [show (1 + i) / 32 = 0 by omega, l2UserPack_zero]
    interval_cases i <;> simp
  · rw [show (1 + i) / 32 = 1 by omega, l2UserPack_one]
    interval_cases i <;> simp at h ⊢

theorem vlan_l2UserPack : field (l2UserPack addr) 49 12 = addr.vid.setWidth 12 := by
  rw [field_eq_iff]
  intro i hi
  rw [bit, show (49 + i) / 32 = 1 by omega, l2UserPack_one]
  interval_cases i <;> simp

theorem keyType_l2UserPack : field (l2UserPack addr) 61 1 = BitVec.ofInt 1 addr.keyType := by
  rw [← setWidth_ofInt (show 1 ≤ 32 by decide), field_eq_iff]
  intro i hi
  rw [bit, show (61 + i) / 32 = 1 by omega, l2UserPack_one]
  interval_cases i
  simp

/-- The mask lies across three words. -/
theorem mask_l2UserPack : field (l2UserPack addr) 62 61 = addr.mask.setWidth 61 := by
  rw [field_eq_iff]
  intro i hi
  rw [bit]
  by_cases h : i < 2
  · rw [show (62 + i) / 32 = 1 by omega, l2UserPack_one]
    interval_cases i <;> simp
  · by_cases h' : i < 34
    · rw [show (62 + i) / 32 = 2 by omega, l2UserPack_two]
      interval_cases i <;> simp at h ⊢
    · rw [show (62 + i) / 32 = 3 by omega, l2UserPack_three]
      interval_cases i <;> simp at h h' ⊢

theorem copyToCpu_l2UserPack :
    field (l2UserPack addr) 129 1 = BitVec.ofInt 1 addr.copyToCpu := by
  rw [← setWidth_ofInt (show 1 ≤ 32 by decide), field_eq_iff]
  intro i hi
  rw [bit, show (129 + i) / 32 = 4 by omega, l2UserPack_four]
  interval_cases i
  simp

theorem port_l2UserPack : field (l2UserPack addr) 131 7 = BitVec.ofInt 7 addr.port := by
  rw [← setWidth_ofInt (show 7 ≤ 32 by decide), field_eq_iff]
  intro i hi
  rw [bit, show (131 + i) / 32 = 4 by omega, l2UserPack_four]
  interval_cases i <;> simp

theorem bpdu_l2UserPack : field (l2UserPack addr) 154 1 = BitVec.ofInt 1 addr.bpdu := by
  rw [← setWidth_ofInt (show 1 ≤ 32 by decide), field_eq_iff]
  intro i hi
  rw [bit, show (154 + i) / 32 = 4 by omega, l2UserPack_four]
  interval_cases i
  simp

theorem unused_l2UserPack {start width : ℕ} (h : start = 130 ∧ width = 1 ∨
    start = 138 ∧ width = 16 ∨ start = 155 ∧ width = 5) :
    field (l2UserPack addr) start width = 0 := by
  rw [field_eq_iff]
  intro i hi
  rcases h with ⟨rfl, rfl⟩ | ⟨rfl, rfl⟩ | ⟨rfl, rfl⟩ <;>
    (rw [bit, show (_ + i) / 32 = 4 by omega, l2UserPack_four]
     interval_cases i <;> simp)

variable {addr}

/-- A mask of the documented width leaves the top of its words alone. -/
theorem gap_l2UserPack (hm : addr.mask.toNat < 2 ^ 61) :
    field (l2UserPack addr) 123 6 = 0#6 := by
  have hhigh (k : ℕ) (hk : 61 ≤ k) : addr.mask.getLsbD k = false :=
    Nat.testBit_lt_two_pow (hm.trans_le (Nat.pow_le_pow_right (by decide) hk))
  rw [field_eq_iff]
  intro i hi
  rw [bit]
  by_cases h : i < 5
  · rw [show (123 + i) / 32 = 3 by omega, l2UserPack_three]
    interval_cases i
    · simpa using hhigh 61 (by decide)
    · simpa using hhigh 62 (by decide)
    · simpa using hhigh 63 (by decide)
    · simp
    · simp
  · obtain rfl : i = 5 := by omega
    rw [show (123 + 5) / 32 = 4 by rfl, l2UserPack_four]
    simp

/-! ### The entry as a number -/

theorem Mac.toNat_u48 (mac : Mac) : mac.u48.toNat = (mac48ToU64 mac).toNat := by
  have hwide : mac48ToU64 mac = mac.u48.setWidth 64 := by
    apply BitVec.eq_of_getLsbD_eq
    intro i hi
    by_cases h : i < 48
    · simp [Mac.u48, h, hi]
    · interval_cases i
      all_goals simp [mac48ToU64] at h ⊢
  rw [hwide, BitVec.toNat_setWidth_of_le (by decide)]

/-- The fields of the entry, from its low end on. -/
def l2UserFields (addr : L2UserAddr) : List FieldWrite :=
  [{ start := 0, width := 1, value := 1 },
    { start := 1, width := 48, value := mac48ToU64 addr.mac },
    { start := 49, width := 12, value := addr.vid.setWidth 64 },
    { start := 61, width := 1, value := BitVec.ofInt 64 addr.keyType },
    { start := 62, width := 61, value := addr.mask },
    { start := 129, width := 1, value := BitVec.ofInt 64 addr.copyToCpu },
    { start := 131, width := 7, value := BitVec.ofInt 64 addr.port },
    { start := 154, width := 1, value := BitVec.ofInt 64 addr.bpdu }]

theorem l2UserFields_apart (addr : L2UserAddr) :
    (l2UserFields addr).Pairwise FieldWrite.Apart := by
  simp [l2UserFields, FieldWrite.Apart]

/-- Every field reads back the low bits of its value. -/
theorem field_l2UserPack {f : FieldWrite} (hf : f ∈ l2UserFields addr) :
    field (l2UserPack addr) f.start f.width = f.value.setWidth f.width := by
  simp only [l2UserFields, List.mem_cons, List.not_mem_nil, or_false] at hf
  rcases hf with rfl | rfl | rfl | rfl | rfl | rfl | rfl | rfl
  · exact valid_l2UserPack addr
  · exact mac_l2UserPack addr
  · rw [vlan_l2UserPack]
    exact (BitVec.setWidth_setWidth_of_le _ (by decide)).symm
  · rw [keyType_l2UserPack, setWidth_ofInt (by simp)]
  · exact mask_l2UserPack addr
  · rw [copyToCpu_l2UserPack, setWidth_ofInt (by simp)]
  · rw [port_l2UserPack, setWidth_ofInt (by simp)]
  · rw [bpdu_l2UserPack, setWidth_ofInt (by simp)]

theorem toNat_unused_l2UserPack {start width : ℕ} (h : start = 130 ∧ width = 1 ∨
    start = 138 ∧ width = 16 ∨ start = 155 ∧ width = 5) :
    (field (l2UserPack addr) start width).toNat = 0 := by
  rw [unused_l2UserPack addr h]
  exact BitVec.toNat_zero

/-- The entry in three parts: the key, the mask and the data. -/
theorem toNat_l2UserEntry_parts (hm : addr.mask.toNat < 2 ^ 61) :
    (l2UserEntry (l2UserPack addr)).toNat = (field (l2UserPack addr) 0 62).toNat +
      addr.mask.toNat * 2 ^ 62 + (field (l2UserPack addr) 129 31).toNat * 2 ^ 129 := by
  have hkey : (l2UserEntry (l2UserPack addr)).toNat = (field (l2UserPack addr) 0 62).toNat +
      (field (l2UserPack addr) 62 98).toNat * 2 ^ 62 := toNat_field_add _ 0 62 98
  have hmask : (field (l2UserPack addr) 62 98).toNat = (field (l2UserPack addr) 62 61).toNat +
      (field (l2UserPack addr) 123 37).toNat * 2 ^ 61 := toNat_field_add _ 62 61 37
  have hgap : (field (l2UserPack addr) 123 37).toNat = (field (l2UserPack addr) 123 6).toNat +
      (field (l2UserPack addr) 129 31).toNat * 2 ^ 6 := toNat_field_add _ 123 6 31
  rw [mask_l2UserPack, BitVec.toNat_setWidth, Nat.mod_eq_of_lt hm] at hmask
  rw [gap_l2UserPack hm, BitVec.toNat_ofNat] at hgap
  omega

theorem toNat_l2UserEntry_key : (field (l2UserPack addr) 0 62).toNat =
    1 + (mac48ToU64 addr.mac).toNat * 2 ^ 1 + addr.vid.toNat % 4096 * 2 ^ 49 +
      (BitVec.ofInt 1 addr.keyType).toNat * 2 ^ 61 := by
  have hvalid : (field (l2UserPack addr) 0 62).toNat = (field (l2UserPack addr) 0 1).toNat +
      (field (l2UserPack addr) 1 61).toNat * 2 ^ 1 := toNat_field_add _ 0 1 61
  have hmac : (field (l2UserPack addr) 1 61).toNat = (field (l2UserPack addr) 1 48).toNat +
      (field (l2UserPack addr) 49 13).toNat * 2 ^ 48 := toNat_field_add _ 1 48 13
  have hvlan : (field (l2UserPack addr) 49 13).toNat = (field (l2UserPack addr) 49 12).toNat +
      (field (l2UserPack addr) 61 1).toNat * 2 ^ 12 := toNat_field_add _ 49 12 1
  rw [valid_l2UserPack, BitVec.toNat_ofNat] at hvalid
  rw [mac_l2UserPack, Mac.toNat_u48] at hmac
  rw [vlan_l2UserPack, keyType_l2UserPack, BitVec.toNat_setWidth] at hvlan
  omega

theorem toNat_l2UserEntry_data : (field (l2UserPack addr) 129 31).toNat =
    (BitVec.ofInt 1 addr.copyToCpu).toNat + (BitVec.ofInt 7 addr.port).toNat * 2 ^ 2 +
      (BitVec.ofInt 1 addr.bpdu).toNat * 2 ^ 25 := by
  have hcpu : (field (l2UserPack addr) 129 31).toNat = (field (l2UserPack addr) 129 1).toNat +
      (field (l2UserPack addr) 130 30).toNat * 2 ^ 1 := toNat_field_add _ 129 1 30
  have hdst : (field (l2UserPack addr) 130 30).toNat = (field (l2UserPack addr) 130 1).toNat +
      (field (l2UserPack addr) 131 29).toNat * 2 ^ 1 := toNat_field_add _ 130 1 29
  have hport : (field (l2UserPack addr) 131 29).toNat = (field (l2UserPack addr) 131 7).toNat +
      (field (l2UserPack addr) 138 22).toNat * 2 ^ 7 := toNat_field_add _ 131 7 22
  have hfree : (field (l2UserPack addr) 138 22).toNat = (field (l2UserPack addr) 138 16).toNat +
      (field (l2UserPack addr) 154 6).toNat * 2 ^ 16 := toNat_field_add _ 138 16 6
  have hbpdu : (field (l2UserPack addr) 154 6).toNat = (field (l2UserPack addr) 154 1).toNat +
      (field (l2UserPack addr) 155 5).toNat * 2 ^ 1 := toNat_field_add _ 154 1 5
  have h130 : (field (l2UserPack addr) 130 1).toNat = 0 := toNat_unused_l2UserPack (by simp)
  have h138 : (field (l2UserPack addr) 138 16).toNat = 0 := toNat_unused_l2UserPack (by simp)
  have h155 : (field (l2UserPack addr) 155 5).toNat = 0 := toNat_unused_l2UserPack (by simp)
  rw [copyToCpu_l2UserPack] at hcpu
  rw [port_l2UserPack] at hport
  rw [bpdu_l2UserPack] at hbpdu
  omega

theorem toNat_l2UserEntry (hm : addr.mask.toNat < 2 ^ 61) :
    ((l2UserEntry (l2UserPack addr)).toNat : ℤ) =
      1 + (mac48ToU64 addr.mac).toNat * 2 ^ 1 + (addr.vid.toNat % 4096 : ℕ) * 2 ^ 49 +
        addr.keyType % 2 * 2 ^ 61 + addr.mask.toNat * 2 ^ 62 + addr.copyToCpu % 2 * 2 ^ 129 +
        addr.port % 128 * 2 ^ 131 + addr.bpdu % 2 * 2 ^ 154 := by
  rw [toNat_l2UserEntry_parts hm, toNat_l2UserEntry_key, toNat_l2UserEntry_data]
  simp only [BitVec.toNat_ofInt]
  omega

/-! ### The lookup -/

theorem key_l2UserPack (addr : L2UserAddr) : field (l2UserPack addr) 1 61 = addr.key := by
  have hmac : field (l2UserPack addr) 1 61 =
      field (l2UserPack addr) 49 13 ++ field (l2UserPack addr) 1 48 := field_append _ 1 48 13
  have hvlan : field (l2UserPack addr) 49 13 =
      field (l2UserPack addr) 61 1 ++ field (l2UserPack addr) 49 12 := field_append _ 49 12 1
  rw [hmac, hvlan, keyType_l2UserPack, vlan_l2UserPack, mac_l2UserPack]
  rfl

theorem l2UserValid_l2UserPack (addr : L2UserAddr) : l2UserValid (l2UserPack addr) = true := by
  have h := (field_eq_iff _ 0 1 1#1).mp (valid_l2UserPack addr) 0 (by decide)
  exact h

/-- The lookup compares the key of the address under its mask. -/
theorem l2UserHit_l2UserPack_iff (key : BitVec 61) : L2UserHit (l2UserPack addr) key ↔
    ∀ i < 61, addr.mask.getLsbD i = true → key.getLsbD i = addr.key.getLsbD i := by
  rw [L2UserHit, l2UserValid_l2UserPack, key_l2UserPack, mask_l2UserPack, xor_and_eq_zero_iff]
  simp only [true_and]
  refine forall₂_congr fun i hi => ?_
  rw [BitVec.getLsbD_setWidth, decide_eq_true hi, Bool.true_and]

/-- What the packed words of an address are, and which lookups hit them. -/
structure L2UserCodec (addr : L2UserAddr) : Prop where
  entry : ((l2UserEntry (l2UserPack addr)).toNat : ℤ) =
    1 + (mac48ToU64 addr.mac).toNat * 2 ^ 1 + (addr.vid.toNat % 4096 : ℕ) * 2 ^ 49 +
      addr.keyType % 2 * 2 ^ 61 + addr.mask.toNat * 2 ^ 62 + addr.copyToCpu % 2 * 2 ^ 129 +
      addr.port % 128 * 2 ^ 131 + addr.bpdu % 2 * 2 ^ 154
  apart : (l2UserFields addr).Pairwise FieldWrite.Apart
  fields : ∀ f ∈ l2UserFields addr,
    field (l2UserPack addr) f.start f.width = f.value.setWidth f.width
  hit : ∀ (mac : Mac) (vid : BitVec 12) (keyType : BitVec 1),
    L2UserHit (l2UserPack addr) (l2UserKey mac vid keyType) ↔
      ∀ i < 61, addr.mask.getLsbD i = true →
        (l2UserKey mac vid keyType).getLsbD i = addr.key.getLsbD i
  anyVlan : addr.mask = L2_USER_MASK_ANY_VLAN →
    ∀ (mac : Mac) (vid : BitVec 12) (keyType : BitVec 1),
      L2UserHit (l2UserPack addr) (l2UserKey mac vid keyType) ↔
        mac = addr.mac ∧ keyType = BitVec.ofInt 1 addr.keyType

/-- The documented mask is set outside the VLAN. -/
theorem getLsbD_l2UserMaskAnyVlan (i : ℕ) (hi : i < 61) :
    L2_USER_MASK_ANY_VLAN.getLsbD i = true ↔ i < 48 ∨ i = 60 := by
  rw [L2_USER_MASK_ANY_VLAN]
  interval_cases i <;> decide

theorem getLsbD_l2UserKey (mac : Mac) (vid : BitVec 12) (keyType : BitVec 1) (i : ℕ) :
    (l2UserKey mac vid keyType).getLsbD i =
      if i < 48 then mac.u48.getLsbD i
      else if i - 48 < 12 then vid.getLsbD (i - 48) else keyType.getLsbD (i - 48 - 12) := by
  rw [l2UserKey, BitVec.getLsbD_append, BitVec.getLsbD_append]

/-- Under the documented mask the VLAN alone is ignored. -/
theorem l2UserHit_anyVlan (h : addr.mask = L2_USER_MASK_ANY_VLAN) (mac : Mac) (vid : BitVec 12)
    (keyType : BitVec 1) : L2UserHit (l2UserPack addr) (l2UserKey mac vid keyType) ↔
      mac = addr.mac ∧ keyType = BitVec.ofInt 1 addr.keyType := by
  rw [l2UserHit_l2UserPack_iff, h]
  constructor
  · intro hall
    constructor
    · apply Mac.u48_injective
      apply BitVec.eq_of_getLsbD_eq
      intro i hi
      have hbit := hall i (by omega) ((getLsbD_l2UserMaskAnyVlan i (by omega)).mpr (.inl hi))
      rwa [L2UserAddr.key, getLsbD_l2UserKey, getLsbD_l2UserKey, if_pos hi, if_pos hi] at hbit
    · apply BitVec.eq_of_getLsbD_eq
      intro i hi
      obtain rfl : i = 0 := by omega
      have hbit := hall 60 (by decide) (by decide)
      rw [L2UserAddr.key, getLsbD_l2UserKey, getLsbD_l2UserKey] at hbit
      exact hbit
  · rintro ⟨rfl, rfl⟩ i hi hm
    rw [L2UserAddr.key, getLsbD_l2UserKey, getLsbD_l2UserKey]
    rcases (getLsbD_l2UserMaskAnyVlan i hi).mp hm with hlow | rfl
    · rw [if_pos hlow, if_pos hlow]
    · rfl

/-- With a mask of 61 bits the packed words are the sum of their fields, and a
lookup hits them exactly where the mask says. -/
theorem l2UserPack_codec (addr : L2UserAddr) (hm : addr.mask.toNat < 2 ^ 61) :
    L2UserCodec addr where
  entry := toNat_l2UserEntry hm
  apart := l2UserFields_apart addr
  fields _ hf := field_l2UserPack hf
  hit mac vid keyType := l2UserHit_l2UserPack_iff (l2UserKey mac vid keyType)
  anyVlan h mac vid keyType := l2UserHit_anyVlan h mac vid keyType

/-- The entry for 01:80:c2:00:00:00 in any VLAN. -/
theorem l2UserPack_codec_bpdu :
    L2UserCodec ⟨#v[0x01, 0x80, 0xc2, 0, 0, 0], 0, 0, 0, 1, 1, L2_USER_MASK_ANY_VLAN⟩ :=
  l2UserPack_codec _ (by decide)

end OpenNos.Sdk
