import OpenNos.Sdk.L2
import OpenNos.Sdk.L3Entry

/-! The L2 entry against the layout its packer names. Read as one little-endian
sequence of words, the way the L3, ECMP and VLAN packers write theirs, an entry
holds the hash key in its low 64 bits, PORT_NUM at 70:64 and STATIC_BIT at 93.
The bytes of the MAC are placed as if the first word came last, so the entry
carries the key of another address. -/

namespace OpenNos.Sdk

open Bits

/-- The key bits of an entry: its low 64 bits with VALID cleared. -/
def l2EntryKey (words : Words) : BitVec 64 := (words 1 ++ words 0) &&& ~~~1#64

/-- The layout at the head of `l2_pack_entry`, of the words packed for an address. -/
structure L2Layout (addr : L2Addr) : Prop where
  key : l2EntryKey (l2PackEntry addr) = l2HashKey addr.mac addr.vid
  keyType : field (l2PackEntry addr) 1 3 = 0#3
  vlan : field (l2PackEntry addr) 4 12 = addr.vid.setWidth 12
  macAddr : field (l2PackEntry addr) 16 48 = addr.mac.u48
  portNum : field (l2PackEntry addr) 64 7 = BitVec.ofInt 7 addr.port
  staticBit : field (l2PackEntry addr) 93 1 = if addr.staticEntry ≠ 0 then 1#1 else 0#1

/-- A byte by its number, 0 beyond the last. -/
def Mac.byte (mac : Mac) (i : ℕ) : BitVec 8 := mac.toArray.getD i 0

/-- The address whose key the entry carries: the first two bytes come last. -/
def Mac.entryOrder (mac : Mac) : Mac :=
  #v[mac.byte 2, mac.byte 3, mac.byte 4, mac.byte 5, mac.byte 0, mac.byte 1]

/-- The three pairs of bytes are the same. -/
def Mac.PairsEqual (mac : Mac) : Prop :=
  mac.byte 0 = mac.byte 2 ∧ mac.byte 2 = mac.byte 4 ∧ mac.byte 1 = mac.byte 3 ∧
    mac.byte 3 = mac.byte 5

instance (mac : Mac) : Decidable mac.PairsEqual :=
  inferInstanceAs (Decidable (_ ∧ _ ∧ _ ∧ _))

theorem Mac.byte_eq (mac : Mac) (i : Fin 6) : mac.byte i = mac.get i := by
  rw [Mac.byte, Array.getD, dif_pos (mac.size_toArray.symm ▸ i.isLt)]
  rfl

theorem Mac.entryOrder_eq_iff (mac : Mac) : mac.entryOrder = mac ↔ mac.PairsEqual := by
  constructor
  · intro h
    have hget (i : Fin 6) : mac.entryOrder.get i = mac.get i := by rw [h]
    have hkept (i : Fin 6) : mac.byte i = mac.entryOrder.get i :=
      (mac.byte_eq i).trans (hget i).symm
    exact ⟨hkept 0, hkept 2, hkept 1, hkept 3⟩
  · rintro ⟨h02, h24, h13, h35⟩
    apply Vector.ext
    intro i hi
    interval_cases i
    exacts [h02.symm.trans (mac.byte_eq 0), h13.symm.trans (mac.byte_eq 1),
      h24.symm.trans (mac.byte_eq 2), h35.symm.trans (mac.byte_eq 3),
      (h02.trans h24).trans (mac.byte_eq 4), (h13.trans h35).trans (mac.byte_eq 5)]

/-! ### The fields of a packed entry -/

theorem keyType_l2PackEntry (addr : L2Addr) : field (l2PackEntry addr) 1 3 = 0#3 := by
  rw [field_eq_iff]
  intro i hi
  rw [bit, show (1 + i) / 32 = 0 by omega, l2PackEntry_zero]
  interval_cases i <;> simp

theorem vlan_l2PackEntry (addr : L2Addr) :
    field (l2PackEntry addr) 4 12 = addr.vid.setWidth 12 := by
  rw [field_eq_iff]
  intro i hi
  rw [bit, show (4 + i) / 32 = 0 by omega, l2PackEntry_zero]
  interval_cases i <;> simp

theorem portNum_l2PackEntry (addr : L2Addr) :
    field (l2PackEntry addr) 64 7 = BitVec.ofInt 7 addr.port := by
  rw [← setWidth_ofInt (show 7 ≤ 32 by decide), field_eq_iff]
  intro i hi
  rw [bit, show (64 + i) / 32 = 2 by omega, l2PackEntry_two]
  by_cases hs : addr.staticEntry ≠ 0 <;> interval_cases i <;> simp [hs]

theorem staticBit_l2PackEntry (addr : L2Addr) :
    field (l2PackEntry addr) 93 1 = if addr.staticEntry ≠ 0 then 1#1 else 0#1 := by
  rw [field_eq_iff]
  intro i hi
  rw [bit, show (93 + i) / 32 = 2 by omega, l2PackEntry_two]
  by_cases hs : addr.staticEntry ≠ 0 <;> interval_cases i <;> simp [hs]

/-- Byte by byte: the high half of word 0 is the low end of the field. -/
theorem macAddr_l2PackEntry (addr : L2Addr) :
    field (l2PackEntry addr) 16 48 = addr.mac.entryOrder.u48 := by
  rw [field_eq_iff]
  intro i hi
  obtain ⟨b, j, hb, hj, rfl⟩ : ∃ b j, b < 6 ∧ j < 8 ∧ i = 8 * (5 - b) + j :=
    ⟨5 - i / 8, i % 8, by omega, by omega, by omega⟩
  have hbyte : addr.mac.entryOrder.u48.getLsbD (8 * (5 - b) + j) =
      (addr.mac.entryOrder[b]).getLsbD j := by
    rw [Mac.u48, BitVec.getLsbD_setWidth, decide_eq_true hi, Bool.true_and,
      getLsbD_mac48ToU64 _ b j hb hj]
  rw [hbyte, bit]
  interval_cases b
  · rw [show (16 + (8 * (5 - 0) + j)) / 32 = 1 by omega, l2PackEntry_one]
    rw [show addr.mac.entryOrder[0] = addr.mac.get 2 from addr.mac.byte_eq 2]
    interval_cases j <;> simp
  · rw [show (16 + (8 * (5 - 1) + j)) / 32 = 1 by omega, l2PackEntry_one]
    rw [show addr.mac.entryOrder[1] = addr.mac.get 3 from addr.mac.byte_eq 3]
    interval_cases j <;> simp
  · rw [show (16 + (8 * (5 - 2) + j)) / 32 = 1 by omega, l2PackEntry_one]
    rw [show addr.mac.entryOrder[2] = addr.mac.get 4 from addr.mac.byte_eq 4]
    interval_cases j <;> simp
  · rw [show (16 + (8 * (5 - 3) + j)) / 32 = 1 by omega, l2PackEntry_one]
    rw [show addr.mac.entryOrder[3] = addr.mac.get 5 from addr.mac.byte_eq 5]
    interval_cases j <;> simp
  · rw [show (16 + (8 * (5 - 4) + j)) / 32 = 0 by omega, l2PackEntry_zero]
    rw [show addr.mac.entryOrder[4] = addr.mac.get 0 from addr.mac.byte_eq 0]
    interval_cases j <;> simp
  · rw [show (16 + (8 * (5 - 5) + j)) / 32 = 0 by omega, l2PackEntry_zero]
    rw [show addr.mac.entryOrder[5] = addr.mac.get 1 from addr.mac.byte_eq 1]
    interval_cases j <;> simp

/-! ### The key of an entry -/

/-- The key bits are the three fields above VALID. -/
theorem l2EntryKey_eq (w : Words) :
    l2EntryKey w = field w 16 48 ++ (field w 4 12 ++ (field w 1 3 ++ 0#1)) := by
  apply BitVec.eq_of_getLsbD_eq
  intro i hi
  simp only [l2EntryKey, BitVec.getLsbD_and, BitVec.getLsbD_append, getLsbD_field, bit]
  interval_cases i <;> simp

theorem l2HashKey_eq (mac : Mac) (vid : BitVec 16) :
    l2HashKey mac vid = mac.u48 ++ (vid.setWidth 12 ++ (0#3 ++ 0#1)) := by
  apply BitVec.eq_of_getLsbD_eq
  intro i hi
  simp only [l2HashKey, Mac.u48, KEY_TYPE_L2, BitVec.getLsbD_or, BitVec.getLsbD_append,
    BitVec.getLsbD_shiftLeft, BitVec.getLsbD_setWidth, BitVec.getLsbD_and]
  interval_cases i <;> simp

theorem l2HashKey_mac_injective {mac mac' : Mac} {vid : BitVec 16}
    (h : l2HashKey mac vid = l2HashKey mac' vid) : mac = mac' := by
  rw [l2HashKey_eq, l2HashKey_eq] at h
  exact Mac.u48_injective (BitVec.append_left_inj _ |>.mp h)

/-- The entry packed for an address carries the key of the reordered one. -/
theorem l2EntryKey_l2PackEntry (addr : L2Addr) :
    l2EntryKey (l2PackEntry addr) = l2HashKey addr.mac.entryOrder addr.vid := by
  rw [l2EntryKey_eq, l2HashKey_eq, macAddr_l2PackEntry, vlan_l2PackEntry, keyType_l2PackEntry]

/-- An entry has the layout exactly if its address has three equal pairs of bytes. -/
theorem l2Layout_iff (addr : L2Addr) : L2Layout addr ↔ addr.mac.PairsEqual := by
  rw [← Mac.entryOrder_eq_iff]
  constructor
  · intro h
    exact l2HashKey_mac_injective ((l2EntryKey_l2PackEntry addr).symm.trans h.key)
  · intro h
    exact {
      key := by rw [l2EntryKey_l2PackEntry, h]
      keyType := keyType_l2PackEntry addr
      vlan := vlan_l2PackEntry addr
      macAddr := by rw [macAddr_l2PackEntry, h]
      portNum := portNum_l2PackEntry addr
      staticBit := staticBit_l2PackEntry addr }

/-- 02:00:00:00:00:01: the entry holds 00:00:00:01:02:00 in its place. -/
theorem not_l2Layout_distinct_pairs :
    ¬ L2Layout ⟨#v[0x02, 0x00, 0x00, 0x00, 0x00, 0x01], 1, 5, 0⟩ := by
  intro h
  exact absurd h.key (by decide)

end OpenNos.Sdk
