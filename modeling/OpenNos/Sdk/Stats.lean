import OpenNos.Sdk.InitDatapath

/-! The port counters of `stats.c`, against 64-bit registers whose first word is
the low one. The datapath initialisation writes its registers in that order; the
reader of a counter takes the words the other way round. -/

namespace OpenNos.Sdk

open Bits OpProg Bde

/-- `bcm56846_stat_t`. -/
inductive Stat
  | rpkt | rbyt | tpkt | tbyt
  deriving DecidableEq

structure XlportStat where
  blockId : BitVec 32
  baseXe : ℤ
  lane : List (BitVec 32)

def statBlocks : List XlportStat :=
  [⟨0x40a, 0, [0, 1, 2, 3]⟩, ⟨0x40b, 4, [0, 1, 2, 3]⟩, ⟨0x00b, 8, [0, 1, 2, 3]⟩,
    ⟨0x00c, 12, [0, 1, 2, 3]⟩, ⟨0x00d, 16, [0, 1, 2, 3]⟩, ⟨0x00e, 20, [1, 0, 3, 2]⟩,
    ⟨0x00f, 24, [1, 0, 3, 2]⟩, ⟨0x400, 28, [0, 1, 2, 3]⟩, ⟨0x401, 32, [0, 1, 2, 3]⟩,
    ⟨0x402, 36, [0, 1, 2, 3]⟩, ⟨0x403, 40, [0, 1, 2, 3]⟩, ⟨0x404, 44, [0, 1, 2, 3]⟩,
    ⟨0x406, 48, [0, 0, 0, 0]⟩, ⟨0x405, 49, [0, 0, 0, 0]⟩, ⟨0x409, 50, [0, 0, 0, 0]⟩,
    ⟨0x408, 51, [0, 0, 0, 0]⟩]

def statRegAddr (xcport : ℤ) (regOffset : BitVec 32) : Option (BitVec 32) :=
  statBlocks.findSome? fun (b : XlportStat) =>
    let span : ℤ := if 48 ≤ b.baseXe then 1 else 4
    if xcport < b.baseXe ∨ b.baseXe + span ≤ xcport then none
    else some (b.blockId <<< 20 ||| (b.lane.getD (xcport - b.baseXe).toNat 0) <<< 12 ||| regOffset)

def REG_RPKT : BitVec 32 := 0x0b

def REG_RBYT : BitVec 32 := 0x34

def REG_TPKT : BitVec 32 := 0x45

def REG_TBYT : BitVec 32 := 0x64

def Stat.reg : Stat → BitVec 32
  | .rpkt => REG_RPKT
  | .rbyt => REG_RBYT
  | .tpkt => REG_TPKT
  | .tbyt => REG_TBYT

def statGet (port : ℤ) (stat : Stat) : Sbus (Rc (BitVec 64)) :=
  if port ≤ 0 ∨ 52 < port then return .error .einval
  else
    match statRegAddr (port - 1) stat.reg with
    | none => return .error .einval
    | some addr => do
      match ← perform (.regRead64 addr) with
      | none => return .error .eio
      | some words => return .ok ((words 0).setWidth 64 <<< 32 ||| (words 1).setWidth 64)

/-- Every port has its block, lane and register. -/
theorem statRegAddr_of_port {port : ℤ} (hlo : 1 ≤ port) (hhi : port ≤ 52) (stat : Stat) :
    ∃ addr, statRegAddr (port - 1) stat.reg = some addr := by
  have hall : ∀ i < 52, (statRegAddr (Int.ofNat i) stat.reg).isSome := by
    cases stat <;> decide
  have hnat : port - 1 = Int.ofNat (port - 1).toNat := by simp; omega
  rw [hnat]
  exact Option.isSome_iff_exists.mp (hall _ (by omega))

/-- The register of a counter. -/
def counterAddr (port : ℤ) (stat : Stat) : BitVec 32 :=
  (statRegAddr (port - 1) stat.reg).getD 0

theorem statRegAddr_eq_counterAddr {port : ℤ} (hlo : 1 ≤ port) (hhi : port ≤ 52) (stat : Stat) :
    statRegAddr (port - 1) stat.reg = some (counterAddr port stat) := by
  obtain ⟨addr, haddr⟩ := statRegAddr_of_port hlo hhi stat
  rw [counterAddr, haddr, Option.getD_some]

/-! ### Registers of two words, the low one first -/

abbrev Reg64 := BitVec 32 → BitVec 64

def lowFirst (v : BitVec 64) : Words := wordsOf [v.setWidth 32, (v >>> 32).setWidth 32]

/-- A chip of 64-bit registers, whose accesses succeed. -/
def Reg64.step (r : Reg64) : SbusOp → Reg64 × Option Words
  | .regRead64 addr => (r, some (lowFirst (r addr)))
  | .regWrite64 addr data => (Function.update r addr (data 1 ++ data 0), some fun _ => 0#32)
  | .regRead _ | .regWrite .. | .memRead .. | .memWrite .. => (r, none)

theorem lowFirst_append (v : BitVec 64) : lowFirst v 1 ++ lowFirst v 0 = v := by
  apply BitVec.eq_of_getLsbD_eq
  intro i hi
  change ((v >>> 32).setWidth 32 ++ v.setWidth 32).getLsbD i = _
  rw [BitVec.getLsbD_append]
  by_cases hlow : i < 32
  · simp [hlow]
  · have hhigh : 32 + (i - 32) = i := by omega
    simp [hlow, hhigh]
    omega

/-! ### Reading a counter -/

/-- One reading, with the registers as they are. -/
def statReading (port : ℤ) (stat : Stat) (r : Reg64) : Rc (BitVec 64) :=
  ((statGet port stat).runOn Reg64.step r).1

theorem append_eq_shiftLeft_or (hi lo : BitVec 32) :
    hi.setWidth 64 <<< 32 ||| lo.setWidth 64 = hi ++ lo := by
  apply BitVec.eq_of_getLsbD_eq
  intro i hlt
  rw [BitVec.getLsbD_append, BitVec.getLsbD_or, BitVec.getLsbD_shiftLeft, BitVec.getLsbD_setWidth,
    BitVec.getLsbD_setWidth]
  by_cases hlow : i < 32
  · simp [hlow, hlt]
  · have hzero : lo.getLsbD i = false := BitVec.getLsbD_of_ge lo i (by omega)
    simp [hlow, hlt, hzero]
    omega

/-- A reading is the counter with its halves exchanged. -/
theorem statReading_eq {port : ℤ} (hlo : 1 ≤ port) (hhi : port ≤ 52) (stat : Stat) (r : Reg64) :
    statReading port stat r =
      .ok (lowFirst (r (counterAddr port stat)) 0 ++ lowFirst (r (counterAddr port stat)) 1) := by
  unfold statReading statGet
  rw [if_neg (by omega), statRegAddr_eq_counterAddr hlo hhi]
  simp [runOn_bind, Reg64.step, append_eq_shiftLeft_or]

/-- The two words of a value are the same. -/
def HalvesEqual (v : BitVec 64) : Prop := lowFirst v 0 = lowFirst v 1

instance (v : BitVec 64) : Decidable (HalvesEqual v) := inferInstanceAs (Decidable (_ = _))

theorem exchanged_eq_iff (v : BitVec 64) : lowFirst v 0 ++ lowFirst v 1 = v ↔ HalvesEqual v := by
  constructor
  · intro h
    have hbits := h.trans (lowFirst_append v).symm
    apply BitVec.eq_of_getLsbD_eq
    intro i hi
    have hbit : (lowFirst v 0 ++ lowFirst v 1 : BitVec 64).getLsbD i =
        (lowFirst v 1 ++ lowFirst v 0 : BitVec 64).getLsbD i := by rw [hbits]
    rw [BitVec.getLsbD_append, BitVec.getLsbD_append, if_pos hi, if_pos hi] at hbit
    exact hbit.symm
  · intro h
    nth_rw 3 [← lowFirst_append v]
    rw [h]

/-- The readings of a counter, one for each state of the registers in turn: each is the
value the counter has then, and they do not go down while the counter only grows. -/
structure StatExact (port : ℤ) (stat : Stat) (regs : ℕ → Reg64) : Prop where
  value : ∀ n, statReading port stat (regs n) = .ok (regs n (counterAddr port stat))
  grows : (∀ m n, m ≤ n → regs m (counterAddr port stat) ≤ regs n (counterAddr port stat)) →
    ∀ m n, m ≤ n → ∀ v w, statReading port stat (regs m) = .ok v →
      statReading port stat (regs n) = .ok w → v ≤ w

theorem statExact_iff {port : ℤ} (hlo : 1 ≤ port) (hhi : port ≤ 52) (stat : Stat)
    (regs : ℕ → Reg64) :
    StatExact port stat regs ↔ ∀ n, HalvesEqual (regs n (counterAddr port stat)) := by
  have hvalue (n : ℕ) : statReading port stat (regs n) = .ok (regs n (counterAddr port stat)) ↔
      HalvesEqual (regs n (counterAddr port stat)) := by
    rw [statReading_eq hlo hhi, Except.ok.injEq, exchanged_eq_iff]
  constructor
  · intro h n
    exact (hvalue n).mp (h.value n)
  · intro h
    refine ⟨fun n => (hvalue n).mpr (h n), ?_⟩
    intro hgrows m n hmn v w hv hw
    rw [(hvalue m).mpr (h m), Except.ok.injEq] at hv
    rw [(hvalue n).mpr (h n), Except.ok.injEq] at hw
    exact hv ▸ hw ▸ hgrows m n hmn

/-- A counter that goes from 0x500000005 to 0x600000006 is read as it is. -/
theorem statExact_equalHalves :
    StatExact 1 .rpkt fun n _ => if n = 0 then 0x500000005#64 else 0x600000006#64 := by
  refine (statExact_iff (by decide) (by decide) .rpkt _).mpr fun n => ?_
  split_ifs <;> decide

/-- The step at which the low word wraps: 0xffffffff is read before 0x100000000. -/
theorem statReading_wrap :
    ¬ StatExact 1 .rbyt fun n _ => if n = 0 then 0xffffffff#64 else 0x100000000#64 := by
  intro h
  have hwraps : ∀ m n : ℕ, m ≤ n →
      (if m = 0 then 0xffffffff#64 else 0x100000000#64) ≤
        if n = 0 then 0xffffffff#64 else 0x100000000#64 := by
    intro m n hmn
    by_cases hm : m = 0
    · by_cases hn : n = 0 <;> simp [hm, hn]
    · rw [if_neg hm, if_neg (by omega : ¬n = 0)]
      exact BitVec.le_refl _
  have hread := h.grows hwraps 0 1 (by decide) _ _ (statReading_eq (by decide) (by decide) _ _)
    (statReading_eq (by decide) (by decide) _ _)
  exact absurd hread (by decide)

end OpenNos.Sdk
