import OpenNos.Sdk.L2Faults
import OpenNos.Sdk.L2Layout

/-! The three byte placements of an L2 entry, in the packer, the unpacker and the
comparison of a lookup. They agree with one another, so a lookup takes the entry
of one address for that of another exactly when the two have the same hash key. -/

namespace OpenNos.Sdk

open Bits

/-- A table whose only entry is that of the address, in the given slot. -/
def Asic.withOnly (addr : L2Addr) (idx : ℕ) : Asic :=
  Asic.blank.store L2_ENTRY_BASE idx (l2PackEntry addr) L2_ENTRY_WORDS

/-- Pack, unpack and comparison agree on the address. -/
structure L2CodecAgrees (addr : L2Addr) : Prop where
  mac : (l2UnpackEntry (l2PackEntry addr)).mac = addr.mac
  vid : (l2UnpackEntry (l2PackEntry addr)).vid.toNat = addr.vid.toNat % 4096
  port : (l2UnpackEntry (l2PackEntry addr)).port = addr.port % 128
  staticEntry : (l2UnpackEntry (l2PackEntry addr)).staticEntry =
    if addr.staticEntry ≠ 0 then 1 else 0
  valid : l2Valid (l2PackEntry addr) = true
  accepted : ∀ mac vid, l2EntryMatches (l2PackEntry addr) mac vid = true ↔
    mac = addr.mac ∧ vid.toNat % 4096 = addr.vid.toNat % 4096
  confused : ∀ mac vid, l2EntryMatches (l2PackEntry addr) mac vid = true ↔
    l2HashKey mac vid = l2HashKey addr.mac addr.vid
  get : ∀ mac vid, ∀ probe < 6,
    (l2AddrGet (Asic.withOnly addr (l2Probe (l2Index mac vid) probe)) mac vid).2 =
      if l2HashKey mac vid = l2HashKey addr.mac addr.vid then .ok addr.stored else .error .enoent

variable {addr : L2Addr} {mac mac' : Mac} {vid vid' : BitVec 16}

theorem toNat_and_0xfff (vid : BitVec 16) : (vid &&& 0xfff).toNat = vid.toNat % 4096 := by
  rw [BitVec.toNat_and]
  exact Nat.and_two_pow_sub_one_eq_mod _ 12

theorem and_0xfff_eq_iff : vid &&& 0xfff = vid' &&& 0xfff ↔
    vid.toNat % 4096 = vid'.toNat % 4096 := by
  rw [← BitVec.toNat_inj, toNat_and_0xfff, toNat_and_0xfff]

theorem l2HashKey_eq_iff : l2HashKey mac vid = l2HashKey mac' vid' ↔
    mac = mac' ∧ vid.toNat % 4096 = vid'.toNat % 4096 := by
  have hvid : vid.setWidth 12 = vid'.setWidth 12 ↔ vid.toNat % 4096 = vid'.toNat % 4096 := by
    rw [← BitVec.toNat_inj, BitVec.toNat_setWidth, BitVec.toNat_setWidth]
  rw [l2HashKey_eq, l2HashKey_eq, append_inj, append_inj, Mac.u48_injective.eq_iff, hvid]
  simp only [and_true]

theorem l2Key_eq_iff : l2Key mac vid = l2Key mac' vid' ↔
    l2HashKey mac vid = l2HashKey mac' vid' := by
  rw [l2HashKey_eq_iff, l2Key, l2Key, Prod.mk.injEq, and_0xfff_eq_iff]

theorem l2EntryMatches_l2PackEntry_iff : l2EntryMatches (l2PackEntry addr) mac vid = true ↔
    mac = addr.mac ∧ vid.toNat % 4096 = addr.vid.toNat % 4096 := by
  rw [l2EntryMatches_iff, l2Valid_l2PackEntry, l2UnpackEntry_mac, l2UnpackEntry_vid,
    and_0xfff_eq_iff, eq_comm (a := addr.mac), eq_comm (a := addr.vid.toNat % 4096)]
  simp only [true_and]

/-! ### Lookups in a table of one entry -/

theorem withOnly_faultFree (addr : L2Addr) (idx : ℕ) : (Asic.withOnly addr idx).FaultFree :=
  Asic.blank_faultFree

theorem l2Slot_withOnly (addr : L2Addr) (idx j : ℕ) :
    (Asic.withOnly addr idx).l2Slot j = if j = idx then some addr.stored else none := by
  rw [Asic.withOnly, l2Slot_store, l2Decode_l2PackEntry, Function.update_apply,
    show Asic.blank.l2Slot j = none from l2Decode_zero]

/-- The entry comes to light at its probe, if its key is the one looked for. -/
theorem l2Found_withOnly {p q : ℕ} (hp : p < 6) (hq : q < 6) :
    (Asic.withOnly addr (l2Probe (l2Index mac vid) p)).l2Found mac vid q =
      if q = p ∧ l2HashKey mac vid = l2HashKey addr.mac addr.vid then some addr.stored
      else none := by
  have hkey : addr.stored.key = l2Key mac vid ↔
      l2HashKey mac vid = l2HashKey addr.mac addr.vid := by
    rw [stored_key, L2Addr.key, eq_comm, l2Key_eq_iff]
  rw [Asic.l2Found, l2Slot_withOnly]
  by_cases hqp : q = p
  · subst hqp
    by_cases hk : l2HashKey mac vid = l2HashKey addr.mac addr.vid
    · simp [hk, hkey]
    · simp [hk, hkey]
  · rw [if_neg fun h => hqp (l2Probe_inj hq hp h), if_neg fun h => hqp h.1]
    rfl

theorem l2AddrGet_withOnly (addr : L2Addr) (mac : Mac) (vid : BitVec 16) {p : ℕ} (hp : p < 6) :
    (l2AddrGet (Asic.withOnly addr (l2Probe (l2Index mac vid) p)) mac vid).2 =
      if l2HashKey mac vid = l2HashKey addr.mac addr.vid then .ok addr.stored
      else .error .enoent := by
  have hf := withOnly_faultFree addr (l2Probe (l2Index mac vid) p)
  by_cases hk : l2HashKey mac vid = l2HashKey addr.mac addr.vid
  · rw [if_pos hk]
    refine l2AddrGet_of_found hf hp ?_ fun r hr => ?_
    · rw [l2Found_withOnly hp hp, if_pos ⟨rfl, hk⟩]
    · rw [l2Found_withOnly hp (hr.trans hp), if_neg fun h => by omega]
  · rw [if_neg hk, l2AddrGet_eq_enoent_iff hf]
    intro q hq
    rw [l2Found_withOnly hp hq, if_neg fun h => hk h.2]

/-- For every address the codec and the comparison agree, and a lookup confuses
two addresses exactly when their keys are equal. -/
theorem l2Codec_agrees (addr : L2Addr) : L2CodecAgrees addr where
  mac := l2UnpackEntry_mac addr
  vid := by rw [l2UnpackEntry_vid, toNat_and_0xfff]
  port := l2UnpackEntry_port addr
  staticEntry := l2UnpackEntry_staticEntry addr
  valid := l2Valid_l2PackEntry addr
  accepted _ _ := l2EntryMatches_l2PackEntry_iff
  confused _ _ := l2EntryMatches_l2PackEntry_iff.trans l2HashKey_eq_iff.symm
  get mac vid _ hp := l2AddrGet_withOnly addr mac vid hp

end OpenNos.Sdk
