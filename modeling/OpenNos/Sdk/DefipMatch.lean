import OpenNos.Sdk.RouteLpm

/-! The words `defip_pack_v4_ucast` makes of a prefix, read as the chip reads
them. The entry is four fields written apart from one another; its key and mask
match the search keys of the addresses inside the prefix and no others, from the
prefix of no bits to the host route. -/

namespace OpenNos.Sdk

open Bits Lpm

/-- VALID0, KEY0, MASK0 and NEXT_HOP_INDEX0, in the order they are written. -/
def defipWrites (pfxHost : BitVec 32) (plen : ℤ) (nhopIndex : ℤ) : List FieldWrite :=
  [{ start := 0, width := 1, value := 1 },
    { start := 2, width := 44, value := defipKey pfxHost },
    { start := 90, width := 44,
      value := 0x3ff#64 <<< 33 ||| (ipMask plen).setWidth 64 <<< 1 ||| 1#64 },
    { start := 207, width := 14, value := BitVec.ofInt 64 nhopIndex &&& 0x3fff }]

/-- ECMP0. -/
def defipEcmp (w : Words) : Bool := bit w 206

/-- The key of the words agrees with a search key in every bit the mask keeps. -/
def TernaryMatch (w : Words) (key : BitVec 44) : Prop :=
  ∀ i < 44, (defipMask0 w).getLsbD i = true → (defipKey0 w).getLsbD i = key.getLsbD i

/-- The words match exactly the addresses inside the prefix and lead to one next
hop. -/
structure EntersPrefix (w : Words) (pfx : BitVec 32) (plen nhop : ℤ) : Prop where
  valid : defipValid w = true
  ecmp : defipEcmp w = false
  nextHop : ((defipNhop w).toNat : ℤ) = nhop
  inside : ∀ a, TernaryMatch w (searchKey a) ↔ ∀ i : ℕ, i < plen → a.getMsbD i = pfx.getMsbD i

variable {pfx : BitVec 32} {plen nhop : ℤ}

theorem defipPackV4Ucast_eq_putFields (pfx : BitVec 32) (plen nhop : ℤ) :
    defipPackV4Ucast pfx plen nhop =
      putFields (fun _ => 0#32) L3_DEFIP_WORDS (defipWrites pfx plen nhop) := by
  have hone (w : Words) : putField w L3_DEFIP_WORDS 0 1 1 = setBit w L3_DEFIP_WORDS 0 true := rfl
  simp only [defipWrites, putFields, List.foldl_cons, List.foldl_nil, hone]
  rfl

theorem defipWrites_apart (pfx : BitVec 32) (plen nhop : ℤ) :
    (defipWrites pfx plen nhop).Pairwise FieldWrite.Apart := by
  simp [defipWrites, FieldWrite.Apart]

theorem defipEcmp_defipPackV4Ucast (pfx : BitVec 32) (plen nhop : ℤ) :
    defipEcmp (defipPackV4Ucast pfx plen nhop) = false := by
  rw [defipEcmp, defipPackV4Ucast_eq_putFields, bit_putFields_of_outside, bit_zero]
  simp [defipWrites]

/-- No field disturbs another. -/
theorem field_defipPackV4Ucast {f : FieldWrite} (hf : f ∈ defipWrites pfx plen nhop) :
    field (defipPackV4Ucast pfx plen nhop) f.start f.width = f.value.setWidth f.width := by
  have hin : ∀ g ∈ defipWrites pfx plen nhop, g.start + g.width ≤ 32 * L3_DEFIP_WORDS := by
    simp [defipWrites, L3_DEFIP_WORDS]
  rw [defipPackV4Ucast_eq_putFields]
  exact field_putFields (defipWrites_apart pfx plen nhop) _ hf (hin f hf)

/-- Bit by bit, the match is an equality under the mask. -/
theorem ternaryMatch_iff_matches {w : Words} {key : BitVec 44} :
    TernaryMatch w key ↔
      DefipEntry.Matches ⟨defipKey0 w, defipMask0 w, defipNhop w⟩ key := by
  constructor
  · intro h
    apply BitVec.eq_of_getLsbD_eq
    intro i hi
    simp only [BitVec.getLsbD_and]
    cases hm : (defipMask0 w).getLsbD i with
    | true => rw [h i hi hm]
    | false => rw [Bool.and_false, Bool.and_false]
  · intro h i hi hm
    have hbit := congrArg (fun x => x.getLsbD i) h
    simp only [BitVec.getLsbD_and, hm, Bool.and_true] at hbit
    exact hbit.symm

/-- Counted from the top, the covered addresses share the first bits. -/
theorem covers_iff_getMsbD {a : BitVec 32} (hl : 0 ≤ plen ∧ plen ≤ 32) :
    (⟨pfx, plen.toNat⟩ : Prefix 32).Covers a ↔
      ∀ i : ℕ, i < plen → a.getMsbD i = pfx.getMsbD i := by
  constructor
  · intro h i hi
    have hb := h (31 - i) (by omega) (by simp only; omega)
    rw [BitVec.getMsbD_eq_getLsbD, BitVec.getMsbD_eq_getLsbD]
    rw [show 32 - 1 - i = 31 - i by omega, hb]
  · intro h b hb hp
    have hi := h (31 - b) (by simp only at hp; omega)
    rw [BitVec.getMsbD_eq_getLsbD, BitVec.getMsbD_eq_getLsbD,
      show 32 - 1 - (31 - b) = b by omega] at hi
    simpa [show 31 - b < 32 by omega] using hi

/-- For every prefix, length and next hop the packed words are the entry of the
prefix, made of fields that do not overlap. -/
theorem defipPackV4Ucast_entersPrefix (pfx : BitVec 32) (hl : 0 ≤ plen ∧ plen ≤ 32)
    (hn : 1 ≤ nhop ∧ nhop ≤ 16383) :
    EntersPrefix (defipPackV4Ucast pfx plen nhop) pfx plen nhop ∧
      defipPackV4Ucast pfx plen nhop =
        putFields (fun _ => 0#32) L3_DEFIP_WORDS (defipWrites pfx plen nhop) ∧
      (defipWrites pfx plen nhop).Pairwise FieldWrite.Apart ∧
      ∀ f ∈ defipWrites pfx plen nhop,
        field (defipPackV4Ucast pfx plen nhop) f.start f.width = f.value.setWidth f.width := by
  refine ⟨⟨?_, ?_, ?_, ?_⟩, defipPackV4Ucast_eq_putFields pfx plen nhop,
    defipWrites_apart pfx plen nhop, fun f hf => field_defipPackV4Ucast hf⟩
  · exact defipValid_defipPackV4Ucast pfx plen nhop
  · exact defipEcmp_defipPackV4Ucast pfx plen nhop
  · rw [defipNhop_defipPackV4Ucast, BitVec.toNat_ofInt]
    omega
  · intro a
    rw [ternaryMatch_iff_matches, defipKey0_defipPackV4Ucast, defipMask0_defipPackV4Ucast,
      ← covers_iff_getMsbD hl]
    exact entryOf_matches_iff (n := defipNhop (defipPackV4Ucast pfx plen nhop)) hl

/-- 10.32.0.0/11 to next hop 5. -/
theorem tenSlash11_entersPrefix :
    EntersPrefix (defipPackV4Ucast 0x0a200000 11 5) 0x0a200000 11 5 :=
  (defipPackV4Ucast_entersPrefix 0x0a200000 (by decide) (by decide)).1

end OpenNos.Sdk
