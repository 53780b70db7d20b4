import OpenNos.Sdk.Asic

/-! The hashed L2 table of `l2.c`: the key of an address, the packed entry, and
the calls that add, delete and look up an address over at most six probes. -/

namespace OpenNos.Sdk

open Bits

def L2_ENTRY_BASE : BitVec 32 := 0x07120000

def L2_ENTRY_ENTRIES : ℕ := 131072

def L2_ENTRY_WORDS : ℕ := 4

def KEY_TYPE_L2 : ℕ := 0

/-- `bcm56846_l2_addr_t`. -/
structure L2Addr where
  mac : Mac
  vid : BitVec 16
  port : ℤ
  staticEntry : ℤ
  deriving DecidableEq

def l2HashKey (mac : Mac) (vid : BitVec 16) : BitVec 64 :=
  (mac48ToU64 mac <<< 16) ||| ((vid &&& 0xfff).setWidth 64 <<< 4) |||
    BitVec.ofNat 64 (KEY_TYPE_L2 <<< 1)

def l2PackEntry (addr : L2Addr) : Words :=
  let vid := addr.vid &&& 0xfff
  let port := BitVec.ofInt 32 addr.port &&& 0x7f#32
  let mod := 0#32
  let staticBit := if addr.staticEntry ≠ 0 then 1#32 else 0#32
  let m (i : Fin 6) : BitVec 32 := (addr.mac.get i).setWidth 32
  let w0 := 1#32 ||| BitVec.ofNat 32 (KEY_TYPE_L2 <<< 1) ||| vid.setWidth 32 <<< 4 |||
    (m 0 <<< 8 ||| m 1) <<< 16
  let w1 := m 2 <<< 24 ||| m 3 <<< 16 ||| m 4 <<< 8 ||| m 5
  let w2 := port ||| (mod &&& 0xff) <<< 7 ||| staticBit <<< 29
  fun k => if k = 0 then w0 else if k = 1 then w1 else if k = 2 then w2 else 0#32

def l2UnpackEntry (words : Words) : L2Addr where
  vid := ((words 0 >>> 4) &&& 0xfff).setWidth 16
  mac := #v[(words 0 >>> 24).setWidth 8, (words 0 >>> 16).setWidth 8,
    (words 1 >>> 24).setWidth 8, (words 1 >>> 16).setWidth 8, (words 1 >>> 8).setWidth 8,
    (words 1).setWidth 8]
  port := (words 2 &&& 0x7f).toNat
  staticEntry := if (words 2 >>> 29) &&& 1 ≠ 0 then 1 else 0

/-- The home slot of a key. -/
def l2Index (mac : Mac) (vid : BitVec 16) : ℕ := (l2HashKey mac vid).toNat % L2_ENTRY_ENTRIES

/-- The slot of a probe. -/
def l2Probe (index probe : ℕ) : ℕ := (index + probe) % L2_ENTRY_ENTRIES

/-- The first probe whose write succeeds takes the words. -/
def l2WriteProbes (a : Asic) (index : ℕ) (words : Words) : List ℕ → Asic × Bool
  | [] => (a, false)
  | probe :: rest =>
    match a.memWrite L2_ENTRY_BASE (l2Probe index probe) words L2_ENTRY_WORDS with
    | (a, true) => (a, true)
    | (a, false) => l2WriteProbes a index words rest

def l2AddrAdd (a : Asic) (addr : L2Addr) : Asic × Rc Unit :=
  let index := l2Index addr.mac addr.vid
  match l2WriteProbes a index (l2PackEntry addr) (List.range 6) with
  | (a, true) => (a, .ok ())
  | (a, false) => (a, .error .enospc)

/-- Returns 0 also when no write succeeded. -/
def l2AddrDelete (a : Asic) (mac : Mac) (vid : BitVec 16) : Asic × Rc Unit :=
  let index := l2Index mac vid
  let (a, _) := l2WriteProbes a index (fun _ => 0#32) (List.range 6)
  (a, .ok ())

/-- The comparison of an entry with a key: VALID, VID and the six bytes. -/
def l2EntryMatches (words : Words) (mac : Mac) (vid : BitVec 16) : Bool :=
  words 0 &&& 1 != 0 &&
    (words 0 >>> 4) &&& 0xfff == (vid &&& 0xfff).setWidth 32 &&
    (words 0 >>> 24).setWidth 8 == mac.get 0 && (words 0 >>> 16).setWidth 8 == mac.get 1 &&
    (words 1 >>> 24).setWidth 8 == mac.get 2 && (words 1 >>> 16).setWidth 8 == mac.get 3 &&
    (words 1 >>> 8).setWidth 8 == mac.get 4 && (words 1).setWidth 8 == mac.get 5

/-- The first probe that can be read and matches. -/
def l2ReadProbes (a : Asic) (index : ℕ) (mac : Mac) (vid : BitVec 16) :
    List ℕ → Asic × Rc L2Addr
  | [] => (a, .error .enoent)
  | probe :: rest =>
    match a.memRead L2_ENTRY_BASE (l2Probe index probe) with
    | (a, none) => l2ReadProbes a index mac vid rest
    | (a, some words) =>
      if l2EntryMatches words mac vid then (a, .ok (l2UnpackEntry words))
      else l2ReadProbes a index mac vid rest

def l2AddrGet (a : Asic) (mac : Mac) (vid : BitVec 16) : Asic × Rc L2Addr :=
  l2ReadProbes a (l2Index mac vid) mac vid (List.range 6)

/-! ### The codec -/

/-- What an entry keeps of an address. -/
def L2Addr.stored (addr : L2Addr) : L2Addr where
  mac := addr.mac
  vid := addr.vid &&& 0xfff
  port := addr.port % 128
  staticEntry := if addr.staticEntry ≠ 0 then 1 else 0

def l2Valid (words : Words) : Bool := words 0 &&& 1 != 0

theorem l2Valid_l2PackEntry (addr : L2Addr) : l2Valid (l2PackEntry addr) = true := by
  rw [l2Valid, bne_iff_ne]
  intro h
  have hbit := congrArg (fun x => x.getLsbD 0) h
  simp [l2PackEntry] at hbit

theorem l2PackEntry_zero (addr : L2Addr) : l2PackEntry addr 0 =
    1#32 ||| 0#32 ||| (addr.vid &&& 0xfff).setWidth 32 <<< 4 |||
      ((addr.mac.get 0).setWidth 32 <<< 8 ||| (addr.mac.get 1).setWidth 32) <<< 16 := rfl

theorem l2PackEntry_one (addr : L2Addr) : l2PackEntry addr 1 =
    (addr.mac.get 2).setWidth 32 <<< 24 ||| (addr.mac.get 3).setWidth 32 <<< 16 |||
      (addr.mac.get 4).setWidth 32 <<< 8 ||| (addr.mac.get 5).setWidth 32 := rfl

theorem l2PackEntry_two (addr : L2Addr) : l2PackEntry addr 2 =
    (BitVec.ofInt 32 addr.port &&& 0x7f#32) ||| (0#32 &&& 0xff) <<< 7 |||
      (if addr.staticEntry ≠ 0 then 1#32 else 0#32) <<< 29 := rfl

/-- The bytes of a word put together from four. -/
theorem byte_of_four (a b c d : BitVec 8) {w : BitVec 32}
    (hw : w = a.setWidth 32 <<< 24 ||| b.setWidth 32 <<< 16 ||| c.setWidth 32 <<< 8 |||
      d.setWidth 32) :
    (w >>> 24).setWidth 8 = a ∧ (w >>> 16).setWidth 8 = b ∧ (w >>> 8).setWidth 8 = c ∧
      w.setWidth 8 = d := by
  subst hw
  refine ⟨?_, ?_, ?_, ?_⟩ <;> apply BitVec.eq_of_getLsbD_eq <;> intro j hj <;>
    interval_cases j <;> simp

theorem l2UnpackEntry_mac (addr : L2Addr) :
    (l2UnpackEntry (l2PackEntry addr)).mac = addr.mac := by
  have hfour := byte_of_four _ _ _ _ (l2PackEntry_one addr)
  have h0 : (l2PackEntry addr 0 >>> 24).setWidth 8 = addr.mac.get 0 := by
    rw [l2PackEntry_zero]
    apply BitVec.eq_of_getLsbD_eq
    intro j hj
    interval_cases j <;> simp
  have h1 : (l2PackEntry addr 0 >>> 16).setWidth 8 = addr.mac.get 1 := by
    rw [l2PackEntry_zero]
    apply BitVec.eq_of_getLsbD_eq
    intro j hj
    interval_cases j <;> simp
  apply Vector.ext
  intro i hi
  interval_cases i
  exacts [h0, h1, hfour.1, hfour.2.1, hfour.2.2.1, hfour.2.2.2]

theorem l2UnpackEntry_vid (addr : L2Addr) :
    (l2UnpackEntry (l2PackEntry addr)).vid = addr.vid &&& 0xfff := by
  change (l2PackEntry addr 0 >>> 4 &&& 0xfff).setWidth 16 = _
  rw [l2PackEntry_zero]
  apply BitVec.eq_of_getLsbD_eq
  intro j hj
  interval_cases j <;> simp

theorem l2UnpackEntry_port (addr : L2Addr) :
    (l2UnpackEntry (l2PackEntry addr)).port = addr.port % 128 := by
  have hw : l2PackEntry addr 2 &&& 0x7f#32 = BitVec.ofInt 32 addr.port &&& 0x7f#32 := by
    rw [l2PackEntry_two]
    apply BitVec.eq_of_getLsbD_eq
    intro j hj
    by_cases hs : addr.staticEntry ≠ 0 <;> interval_cases j <;> simp [hs]
  have hm : (BitVec.ofInt 32 addr.port &&& 0x7f#32).toNat =
      (BitVec.ofInt 32 addr.port).toNat % 2 ^ 7 := by
    rw [BitVec.toNat_and]
    exact Nat.and_two_pow_sub_one_eq_mod _ 7
  change ((l2PackEntry addr 2 &&& 0x7f#32).toNat : ℤ) = _
  rw [hw, hm, BitVec.toNat_ofInt]
  omega

theorem l2UnpackEntry_staticEntry (addr : L2Addr) :
    (l2UnpackEntry (l2PackEntry addr)).staticEntry = if addr.staticEntry ≠ 0 then 1 else 0 := by
  have hw : (l2PackEntry addr 2 >>> 29) &&& 1#32 =
      if addr.staticEntry ≠ 0 then 1#32 else 0#32 := by
    rw [l2PackEntry_two]
    apply BitVec.eq_of_getLsbD_eq
    intro j hj
    by_cases hs : addr.staticEntry ≠ 0 <;> interval_cases j <;> simp [hs]
  change (if (l2PackEntry addr 2 >>> 29) &&& 1#32 ≠ 0 then (1 : ℤ) else 0) = _
  rw [hw]
  by_cases hs : addr.staticEntry ≠ 0
  · rw [if_pos hs, if_pos hs, if_pos (by decide)]
  · rw [if_neg hs, if_neg hs, if_neg (by decide)]

theorem l2UnpackEntry_l2PackEntry (addr : L2Addr) :
    l2UnpackEntry (l2PackEntry addr) = addr.stored := by
  rw [L2Addr.stored, ← l2UnpackEntry_vid, ← l2UnpackEntry_port, ← l2UnpackEntry_staticEntry]
  conv_rhs => rw [← l2UnpackEntry_mac addr]

/-- A valid entry matches the key it unpacks to. -/
theorem l2EntryMatches_iff (words : Words) (mac : Mac) (vid : BitVec 16) :
    l2EntryMatches words mac vid = true ↔ l2Valid words = true ∧
      (l2UnpackEntry words).mac = mac ∧ (l2UnpackEntry words).vid = vid &&& 0xfff := by
  have hvid : (words 0 >>> 4) &&& 0xfff = (vid &&& 0xfff).setWidth 32 ↔
      (l2UnpackEntry words).vid = vid &&& 0xfff := by
    constructor
    · intro h
      rw [l2UnpackEntry, h]
      simp
    · intro h
      rw [← h, l2UnpackEntry]
      apply BitVec.eq_of_getLsbD_eq
      intro j hj
      interval_cases j <;> simp
  have hmac : (l2UnpackEntry words).mac = mac ↔
      ∀ i (hi : i < 6), (l2UnpackEntry words).mac[i] = mac[i] :=
    ⟨fun h i hi => by rw [h], fun h => Vector.ext h⟩
  have hbytes : (l2UnpackEntry words).mac = mac ↔
      (words 0 >>> 24).setWidth 8 = mac.get 0 ∧ (words 0 >>> 16).setWidth 8 = mac.get 1 ∧
      (words 1 >>> 24).setWidth 8 = mac.get 2 ∧ (words 1 >>> 16).setWidth 8 = mac.get 3 ∧
      (words 1 >>> 8).setWidth 8 = mac.get 4 ∧ (words 1).setWidth 8 = mac.get 5 := by
    rw [hmac]
    constructor
    · intro h
      exact ⟨h 0 (by decide), h 1 (by decide), h 2 (by decide), h 3 (by decide), h 4 (by decide),
        h 5 (by decide)⟩
    · rintro ⟨h0, h1, h2, h3, h4, h5⟩ i hi
      interval_cases i
      exacts [h0, h1, h2, h3, h4, h5]
  rw [hbytes, ← hvid, l2EntryMatches, l2Valid]
  simp only [Bool.and_eq_true, beq_iff_eq]
  tauto

/-- The home slot is made of the VID and the lowest bit of the MAC. -/
theorem l2Index_eq (mac : Mac) (vid : BitVec 16) :
    l2Index mac vid = 65536 * ((mac.get 5).toNat % 2) + 16 * (vid.toNat % 4096) := by
  have hget : mac.get 5 = mac[5] := rfl
  have hk : (l2HashKey mac vid).setWidth 17 =
      ((mac.get 5).setWidth 1 ++ (vid.setWidth 12 ++ 0#4)).cast rfl := by
    apply BitVec.eq_of_getLsbD_eq
    intro j hj
    rw [BitVec.getLsbD_cast, BitVec.getLsbD_append, BitVec.getLsbD_append]
    interval_cases j <;> simp [l2HashKey, mac48ToU64, hget, KEY_TYPE_L2]
  have hn := congrArg BitVec.toNat hk
  have hlow : (vid.setWidth 12 ++ 0#4).toNat = 16 * (vid.toNat % 4096) := by
    rw [BitVec.toNat_append, BitVec.toNat_setWidth]
    simp [Nat.shiftLeft_eq]
    omega
  rw [BitVec.toNat_cast, BitVec.toNat_append, ← Nat.shiftLeft_add_eq_or_of_lt (BitVec.isLt _), hlow,
    BitVec.toNat_setWidth, BitVec.toNat_setWidth, Nat.shiftLeft_eq] at hn
  rw [l2Index, L2_ENTRY_ENTRIES]
  omega

end OpenNos.Sdk
