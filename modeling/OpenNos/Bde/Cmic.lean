import OpenNos.Bde.Containment
import OpenNos.Lib.RelyGuarantee

/-! The CMIC with its two engines. The control register at 0x50 belongs to both: a
write that sets bit 0 or 2 starts or aborts an S-Channel operation, one that sets
bit 16 or 17 triggers a MIIM read or write, one that clears it ends that. An engine
at work finishes when it likes; the state records how often each was started and how
its last transaction ended. -/

namespace OpenNos.Bde

open Bits RegProg

/-- START, DONE, ABORT, SER, NAK and TIMEOUT. -/
def schanBits : List ℕ := [0, 1, 2, 20, 21, 22]

structure Cmic where
  reg : ℕ → BitVec 32
  schanMutex : Bool
  schanBusy : Bool
  schanStarted : ℕ
  /-- the value of the control register when the last operation completed -/
  schanEnd : Option (BitVec 32)
  miimBusy : Bool
  miimStarted : ℕ
  /-- the last transaction has completed -/
  miimEnd : Bool

/-- Both engines at rest, with this value in the control register. -/
def restingCmic (ctrl : BitVec 32) : Cmic where
  reg := fun off =>
    if off = CMICE_SCHAN_CTRL then ctrl else if off = CMIC_MISC_CONTROL then 1 else 0
  schanMutex := false
  schanBusy := false
  schanStarted := 0
  schanEnd := none
  miimBusy := false
  miimStarted := 0
  miimEnd := false

/-- A byte write that sets this bit. -/
def SetsBit (v : BitVec 32) (b : ℕ) : Prop := v.getLsbD 7 = true ∧ (v &&& 0x7f).toNat = b

instance (v : BitVec 32) (b : ℕ) : Decidable (SetsBit v b) := inferInstanceAs (Decidable (_ ∧ _))

/-- A byte write that clears this bit. -/
def ClearsBit (v : BitVec 32) (b : ℕ) : Prop := v.getLsbD 7 = false ∧ (v &&& 0x7f).toNat = b

instance (v : BitVec 32) (b : ℕ) : Decidable (ClearsBit v b) :=
  inferInstanceAs (Decidable (_ ∧ _))

/-- What a write to the control register sets going or stops; clearing a trigger bit
resets the MIIM state. -/
def Cmic.ctrlWritten (s : Cmic) (v : BitVec 32) : Cmic :=
  if SetsBit v 0 then
    { s with schanBusy := true, schanStarted := s.schanStarted + 1, schanEnd := none }
  else if SetsBit v 2 then { s with schanBusy := false }
  else if SetsBit v 16 ∨ SetsBit v 17 then
    { s with miimBusy := true, miimStarted := s.miimStarted + 1, miimEnd := false }
  else if ClearsBit v 16 ∨ ClearsBit v 17 then { s with miimBusy := false }
  else s

def cmic : Agent Cmic ℕ (BitVec 32) KernelEvent where
  read s off := s.reg off
  seen s _ := s
  write s off v :=
    let s := { s with reg := Function.update s.reg off (written off (s.reg off) v) }
    if off = CMICE_SCHAN_CTRL then s.ctrlWritten v else s
  event s
    | .lockSchanMutex => { s with schanMutex := true }
    | .unlockSchanMutex => { s with schanMutex := false }
    | .udelay _ => s
    | .usleepRange _ _ => s

@[simp] theorem cmic_read (s : Cmic) (off : ℕ) : cmic.read s off = s.reg off := rfl

@[simp] theorem ctrlWritten_reg (s : Cmic) (v : BitVec 32) : (s.ctrlWritten v).reg = s.reg := by
  unfold Cmic.ctrlWritten
  split_ifs <;> rfl

@[simp] theorem ctrlWritten_schanMutex (s : Cmic) (v : BitVec 32) :
    (s.ctrlWritten v).schanMutex = s.schanMutex := by
  unfold Cmic.ctrlWritten
  split_ifs <;> rfl

theorem cmic_write_reg (s : Cmic) (off : ℕ) (v : BitVec 32) :
    (cmic.write s off v).reg = Function.update s.reg off (written off (s.reg off) v) := by
  simp only [cmic]
  split_ifs
  · rw [ctrlWritten_reg]
  · rfl

/-- A write to another register only stores. -/
theorem cmic_write_of_ne {s : Cmic} {off : ℕ} (h : off ≠ CMICE_SCHAN_CTRL) (v : BitVec 32) :
    cmic.write s off v = { s with reg := Function.update s.reg off v } := by
  simp only [cmic, if_neg h, written_of_ne h]

/-- The control register after a byte write. -/
def Cmic.setCtrl (s : Cmic) (v : BitVec 32) : Cmic :=
  { s with reg := Function.update s.reg CMICE_SCHAN_CTRL (byteWrite (s.reg CMICE_SCHAN_CTRL) v) }

theorem cmic_write_ctrl (s : Cmic) (v : BitVec 32) :
    cmic.write s CMICE_SCHAN_CTRL v = (s.setCtrl v).ctrlWritten v := rfl

theorem not_setsBit {v : BitVec 32} (hv : v.getLsbD 7 = false) (b : ℕ) : ¬ SetsBit v b :=
  fun h => Bool.false_ne_true (hv.symm.trans h.1)

/-- A write that neither starts nor aborts an S-Channel operation concerns the MIIM. -/
theorem cmic_write_miim {v : BitVec 32} (hstart : ¬ SetsBit v 0) (habort : ¬ SetsBit v 2)
    (s : Cmic) : cmic.write s CMICE_SCHAN_CTRL v =
      let s := s.setCtrl v
      if SetsBit v 16 ∨ SetsBit v 17 then
        { s with miimBusy := true, miimStarted := s.miimStarted + 1, miimEnd := false }
      else if ClearsBit v 16 ∨ ClearsBit v 17 then { s with miimBusy := false }
      else s := by
  rw [cmic_write_ctrl, Cmic.ctrlWritten, if_neg hstart, if_neg habort]

theorem cmic_write_trigger {v : BitVec 32} (hstart : ¬ SetsBit v 0) (habort : ¬ SetsBit v 2)
    (htrigger : SetsBit v 16 ∨ SetsBit v 17) (s : Cmic) : cmic.write s CMICE_SCHAN_CTRL v =
      { s.setCtrl v with
        miimBusy := true, miimStarted := s.miimStarted + 1, miimEnd := false } := by
  rw [cmic_write_miim hstart habort]
  exact if_pos htrigger

/-- A write that clears a bit stores, and the two trigger bits reset the MIIM. -/
theorem cmic_write_clears {v : BitVec 32} (hv : v.getLsbD 7 = false) (s : Cmic) :
    cmic.write s CMICE_SCHAN_CTRL v =
      if ClearsBit v 16 ∨ ClearsBit v 17 then { s.setCtrl v with miimBusy := false }
      else s.setCtrl v := by
  have hset := not_setsBit hv
  rw [cmic_write_miim (hset 0) (hset 2)]
  exact if_neg (not_or.mpr ⟨hset 16, hset 17⟩)

/-- A write that clears a bit other than the two triggers only stores. -/
theorem cmic_write_clr {v : BitVec 32} (hv : v.getLsbD 7 = false)
    (hmiim : (v &&& 0x7f).toNat ≠ 16 ∧ (v &&& 0x7f).toNat ≠ 17) (s : Cmic) :
    cmic.write s CMICE_SCHAN_CTRL v = s.setCtrl v := by
  rw [cmic_write_clears hv, if_neg]
  rintro (h | h)
  · exact hmiim.1 h.2
  · exact hmiim.2 h.2

theorem getLsbD_one_shiftLeft {n b : ℕ} (hb : b < 32) :
    (1#32 <<< n).getLsbD b = decide (b = n) := by
  rw [BitVec.getLsbD_shiftLeft, BitVec.getLsbD_one]
  by_cases h : b = n
  · simp [h]
    omega
  · simp [h, hb]
    omega

/-- A byte write changes the one bit it names. -/
theorem getLsbD_byteWrite (ctrl v : BitVec 32) {b : ℕ} (hb : b < 32) :
    (byteWrite ctrl v).getLsbD b =
      if b = (v &&& 0x7f).toNat then v.getLsbD 7 else ctrl.getLsbD b := by
  unfold byteWrite
  cases hv : v.getLsbD 7
  · rw [if_neg Bool.false_ne_true, BitVec.getLsbD_and, BitVec.getLsbD_not,
      getLsbD_one_shiftLeft hb, decide_eq_true hb, Bool.true_and]
    split_ifs with h
    · rw [decide_eq_true h, Bool.not_true, Bool.and_false]
    · rw [decide_eq_false h, Bool.not_false, Bool.and_true]
  · rw [if_pos rfl, BitVec.getLsbD_or, getLsbD_one_shiftLeft hb]
    split_ifs with h
    · rw [decide_eq_true h, Bool.or_true]
    · rw [decide_eq_false h, Bool.or_false]

theorem getLsbD_setCtrl (s : Cmic) (v : BitVec 32) {b : ℕ} (hb : b < 32) :
    ((s.setCtrl v).reg CMICE_SCHAN_CTRL).getLsbD b =
      if b = (v &&& 0x7f).toNat then v.getLsbD 7 else (s.reg CMICE_SCHAN_CTRL).getLsbD b := by
  simp only [Cmic.setCtrl, Function.update_self]
  exact getLsbD_byteWrite _ v hb

theorem lt_of_mem_schanBits {b : ℕ} (h : b ∈ schanBits) : b < 32 := by
  simp only [schanBits, List.mem_cons, List.not_mem_nil, or_false] at h
  omega

/-- A write to the control register leaves the bits it does not name. -/
theorem getLsbD_write_ctrl (s : Cmic) (v : BitVec 32) {b : ℕ} (hb : b < 32) :
    ((cmic.write s CMICE_SCHAN_CTRL v).reg CMICE_SCHAN_CTRL).getLsbD b =
      if b = (v &&& 0x7f).toNat then v.getLsbD 7 else (s.reg CMICE_SCHAN_CTRL).getLsbD b := by
  rw [cmic_write_ctrl, ctrlWritten_reg]
  exact getLsbD_setCtrl s v hb

/-- A mask test, bit by bit. -/
theorem and_eq_zero_iff (v m : BitVec 32) :
    v &&& m = 0 ↔ ∀ b < 32, m.getLsbD b = true → v.getLsbD b = false := by
  constructor
  · intro h b hb hm
    have hbit : (v &&& m).getLsbD b = false := by rw [h, BitVec.ofNat_eq_ofNat, BitVec.getLsbD_zero]
    rwa [BitVec.getLsbD_and, hm, Bool.and_true] at hbit
  · intro h
    apply BitVec.eq_of_getLsbD_eq
    intro b hb
    rw [BitVec.getLsbD_and, BitVec.ofNat_eq_ofNat, BitVec.getLsbD_zero]
    cases hm : m.getLsbD b
    · exact Bool.and_false _
    · rw [h b hb hm, Bool.false_and]

/-- The test of a single bit. -/
theorem and_bit_eq_zero_iff (v : BitVec 32) {b : ℕ} (hb : b < 32) :
    v &&& 1#32 <<< b = 0 ↔ v.getLsbD b = false := by
  rw [and_eq_zero_iff]
  constructor
  · intro h
    refine h b hb ?_
    rw [getLsbD_one_shiftLeft hb, decide_eq_true rfl]
  · intro h i hi hbit
    rw [getLsbD_one_shiftLeft hi, decide_eq_true_eq] at hbit
    rw [hbit, h]

end OpenNos.Bde
