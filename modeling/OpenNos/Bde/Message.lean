import OpenNos.Bde.Sbus

/-! The message an S-Channel operation leaves in the window when it is started.
Every word of the command is in its register, except that a command of more than
seven words finds the saved MISC_CONTROL in word 7, because the driver restores
that register after it has written the command. A table write whose entry has
six words or more therefore starts with data word 5 replaced. -/

namespace OpenNos.Bde

open Bits RegProg

/-- The write that triggers the operation. -/
def IsStart (off : ℕ) (v : BitVec 32) : Prop := off = CMICE_SCHAN_CTRL ∧ v = CMICE_SET_START

instance (off : ℕ) (v : BitVec 32) : Decidable (IsStart off v) :=
  inferInstanceAs (Decidable (_ ∧ _))

/-- A program that never triggers an operation. -/
abbrev NoStart {α : Type} (p : Pio α) : Prop := EachWrite (fun off v => ¬ IsStart off v) p

/-- What holds of the state whenever the operation is triggered. -/
abbrev AtStart {α : Type} (T : Bar0 → Prop) (p : Pio α) (s : Bar0) : Prop :=
  AtWrite bar0 (fun off v s => IsStart off v → T s) p s

theorem NoStart.atStart {α : Type} {p : Pio α} (hp : NoStart p) (T : Bar0 → Prop) (s : Bar0) :
    AtStart T p s :=
  atWrite_of_eachWrite hp (fun _ _ _ hn hs => absurd hs hn) s

/-! ### No other write triggers the operation -/

theorem cmiceSchanAbort_noStart : NoStart cmiceSchanAbort :=
  ⟨by decide, by decide, by decide, by decide, by decide, by decide, by decide, trivial⟩

theorem iowrite32_noStart (v : BitVec 32) {off : ℕ} (h : off ≠ CMICE_SCHAN_CTRL) :
    NoStart (iowrite32 v off) :=
  ⟨fun hs => h hs.1, trivial⟩

theorem writeCmd_noStart (cmd : Words) (i n : ℕ) (h : i + n ≤ 20) :
    NoStart (writeCmd cmd i n) := by
  induction n generalizing i with
  | zero => trivial
  | succ n ih =>
    refine eachWrite_bind (iowrite32_noStart _ ?_) fun _ => ih (i + 1) (by omega)
    simp only [CMICE_SCHAN_D, CMICE_SCHAN_CTRL]
    omega

theorem readData_noStart (data : Words) (i n : ℕ) : NoStart (readData data i n) := by
  induction n generalizing data i with
  | zero => trivial
  | succ n ih => exact fun v => ih _ _

theorem readResponse_noStart (n : ℕ) (data : Option Words) : NoStart (readResponse n data) := by
  cases data with
  | none => trivial
  | some d => exact eachWrite_bind (readData_noStart d 0 n) fun _ => trivial

/-- Abort and restore, the way every poll ends. -/
theorem abort_restore_noStart {α : Type} (misc : BitVec 32) (a : α) :
    NoStart (do cmiceSchanAbort; iowrite32 misc CMIC_MISC_CONTROL; return a) :=
  eachWrite_bind cmiceSchanAbort_noStart fun _ =>
    eachWrite_bind (iowrite32_noStart _ (by decide)) fun _ => trivial

theorem schanPoll_noStart (misc : BitVec 32) (data : Option Words) (dataWords : ℤ) (polls : ℕ) :
    NoStart (schanPoll misc data dataWords polls) := by
  induction polls with
  | zero => exact abort_restore_noStart misc _
  | succ polls ih =>
    refine eachWrite_bind (by simp [ioread32]) fun ctrl => ?_
    split_ifs
    · exact abort_restore_noStart misc _
    · exact eachWrite_bind (readResponse_noStart _ _) fun _ => abort_restore_noStart misc _
    · exact eachWrite_bind (by simp) fun _ => ih

/-! ### The registers when the operation is triggered -/

theorem exec_writeCmd_reg (cmd : Words) (i n : ℕ) (h : i + n ≤ 20) (s : Bar0) (j : ℕ) :
    (exec bar0 (writeCmd cmd i n) s).2.reg (CMICE_SCHAN_D j) =
      if i ≤ j ∧ j < i + n then cmd j else s.reg (CMICE_SCHAN_D j) := by
  induction n generalizing i s with
  | zero => rw [if_neg (by omega)]; rfl
  | succ n ih =>
    have hctrl : CMICE_SCHAN_D i ≠ CMICE_SCHAN_CTRL := by
      simp only [CMICE_SCHAN_D, CMICE_SCHAN_CTRL]; omega
    have hinj : CMICE_SCHAN_D j = CMICE_SCHAN_D i ↔ j = i := by
      simp only [CMICE_SCHAN_D]; omega
    rw [writeCmd, exec_bind, ih (i + 1) (by omega)]
    simp only [iowrite32, exec_writeReg, bar0_write_reg, written_of_ne hctrl, hinj]
    by_cases hji : j = i
    · subst hji; simp
    · have : i + 1 ≤ j ∧ j < i + 1 + n ↔ i ≤ j ∧ j < i + (n + 1) := by omega
      simp only [if_neg hji, this]

/-- Up to the trigger only the final state of each part matters. -/
theorem atStart_bind {α β : Type} {T : Bar0 → Prop} {p : Pio α} (hp : NoStart p)
    (f : α → Pio β) (s : Bar0) :
    AtStart T (p >>= f) s ↔ AtStart T (f (exec bar0 p s).1) (exec bar0 p s).2 :=
  (atWrite_bind bar0 _ p f s).trans (and_iff_right (hp.atStart T s))

/-- What follows the operation without triggering another does not matter. -/
theorem atStart_bind_left {α β : Type} {T : Bar0 → Prop} (p : Pio α) {f : α → Pio β}
    (hf : ∀ a, NoStart (f a)) (s : Bar0) : AtStart T (p >>= f) s ↔ AtStart T p s :=
  (atWrite_bind bar0 _ p f s).trans (and_iff_left ((hf _).atStart T _))

theorem atStart_trigger {β : Type} {T : Bar0 → Prop} {f : Unit → Pio β} (hf : ∀ a, NoStart (f a))
    (s : Bar0) : AtStart T (iowrite32 CMICE_SET_START CMICE_SCHAN_CTRL >>= f) s ↔ T s := by
  rw [atStart_bind_left _ hf]
  exact (atWrite_writeReg bar0 _ _ _ s).trans ⟨fun h => h ⟨rfl, rfl⟩, fun h _ => h⟩

/-- The state when an operation on `n` words is triggered. -/
def startState (cmd : Words) (n : ℕ) (s : Bar0) : Bar0 :=
  let s₀ : Bar0 := { s with schanMutex := true }
  let s₁ := (exec bar0 (onlyIf (s₀.reg CMICE_SCHAN_CTRL ≠ 0) cmiceSchanAbort) s₀).2
  let s₂ := (exec bar0 (writeCmd cmd 0 n) s₁).2
  (exec bar0 (onlyIf ((n : ℤ) > 7) (iowrite32 (s.reg CMIC_MISC_CONTROL) CMIC_MISC_CONTROL)) s₂).2

/-- The window holds the command, word 7 excepted when there are more than seven. -/
theorem startState_reg (cmd : Words) {n j : ℕ} (hn : n ≤ 20) (hj : j < n) (s : Bar0) :
    (startState cmd n s).reg (CMICE_SCHAN_D j) =
      if j = 7 then s.reg CMIC_MISC_CONTROL else cmd j := by
  have hmisc : CMICE_SCHAN_D j = CMIC_MISC_CONTROL ↔ j = 7 := by
    simp only [CMICE_SCHAN_D, CMIC_MISC_CONTROL]; omega
  have hcmd (s₁ : Bar0) :
      (exec bar0 (writeCmd cmd 0 n) s₁).2.reg (CMICE_SCHAN_D j) = cmd j := by
    rw [exec_writeCmd_reg cmd 0 n (by omega) s₁ j, if_pos (by omega)]
  simp only [startState]
  generalize (exec bar0 (onlyIf (s.reg CMICE_SCHAN_CTRL ≠ 0) cmiceSchanAbort)
    { s with schanMutex := true }).2 = s₁
  rw [onlyIf]
  split_ifs with h7 hj7 hj7
  · simp [iowrite32, hmisc.mpr hj7, show CMIC_MISC_CONTROL ≠ CMICE_SCHAN_CTRL by decide]
  · simp [iowrite32, hmisc, hj7, hcmd]
  · omega
  · exact hcmd s₁

/-- The operation is triggered exactly once, in the start state. -/
theorem nosBdeSchanOp_atStart {env : SchanEnv} (hp : env.probed) (hi : env.interrupted = false)
    (T : Bar0 → Prop) (cmd : Words) {n : ℕ} (hn : 1 ≤ n) (hn' : n ≤ 20) (data : Option Words)
    (s : Bar0) :
    AtStart T (nosBdeSchanOp env cmd n data 16) s ↔ T (startState cmd n s) := by
  have hguard : ¬ ((!env.probed) = true ∨ (n : ℤ) ≤ 0 ∨ (n : ℤ) > SCHAN_MAX_MSG_WORDS ∨
      (16 : ℤ) < 0 ∨ (16 : ℤ) > SCHAN_MAX_MSG_WORDS) := by
    simp only [SCHAN_MAX_MSG_WORDS]
    rintro (h | h | h | h | h)
    · simp [hp] at h
    all_goals omega
  have hmisc (c : Prop) [Decidable c] (v : BitVec 32) :
      NoStart (onlyIf c (iowrite32 v CMIC_MISC_CONTROL)) :=
    eachWrite_onlyIf (iowrite32_noStart v (by decide))
  rw [nosBdeSchanOp, if_neg hguard, if_neg (by simp [hi]), atStart_bind (by simp),
    atStart_bind (by simp [ioread32]), atStart_bind (by simp [ioread32]),
    atStart_bind (eachWrite_onlyIf cmiceSchanAbort_noStart),
    atStart_bind (writeCmd_noStart _ _ _ (by omega)), atStart_bind (hmisc _ _), atStart_trigger]
  · rfl
  · exact fun _ => eachWrite_bind (schanPoll_noStart _ _ _ _) fun _ => trivial

/-! ### Through the ioctl and `sbus.c` -/

theorem ioctlSchanOp_atStart {env : BdeEnv} (ready : env.Ready) (T : Bar0 → Prop)
    (schan : NosBdeSchan) {n : ℕ} (hlen : schan.len = n) (hn : 1 ≤ n) (hn' : n ≤ 20) (s : Bar0) :
    AtStart T (ioctlSchanOp env schan) s ↔ T (startState schan.cmdPtr n s) := by
  rw [ioctlSchanOp, if_neg (by simp [ready.probed]), if_neg (by simp [ready.copyFromUser]), hlen,
    ← nosBdeSchanOp_atStart ready.probed ready.interrupted T schan.cmdPtr hn hn' (some schan.data)]
  refine atStart_bind_left _ (fun _ => ?_) s
  split
  · trivial
  · split_ifs <;> trivial

/-- Only the words of the command matter to the start state. -/
theorem bdeSchanOp_atStart {env : BdeEnv} (ready : env.Ready) (T : Bar0 → Prop) (cmd : Words)
    {n : ℕ} (hn : 1 ≤ n) (hn' : n ≤ 16) (data : Option Words) (dataLen : ℕ) (s : Bar0) :
    AtStart T (bdeSchanOp env cmd n data dataLen) s ↔
      T (startState (schanRequest cmd n data dataLen).cmdPtr n s) := by
  rw [bdeSchanOp, if_neg (by simp [ready.fdOpen]; omega),
    ← ioctlSchanOp_atStart ready T (schanRequest cmd n data dataLen) rfl hn (by omega)]
  refine atStart_bind_left _ (fun _ => ?_) s
  split <;> trivial

theorem schanRequest_cmdPtr (cmd : Words) {n j : ℕ} (hn : n ≤ 16) (hj : j < n)
    (data : Option Words) (dataLen : ℕ) : (schanRequest cmd n data dataLen).cmdPtr j = cmd j := by
  simp [NosBdeSchan.cmdPtr, schanRequest, splice, hj, show j < 16 by omega]

/-- The window holds the message that writes `nwords` words of `data` to entry
`index` of the table at `addr`. -/
structure WriteMemMessage (addr index : BitVec 32) (data : Words) (nwords : ℕ) (s : Bar0) :
    Prop where
  opcode : headerOpcode (s.reg (CMICE_SCHAN_D 0)) = 0x09
  dstblk : headerDstblk (s.reg (CMICE_SCHAN_D 0)) = (cdkAddrToBlock addr).setWidth 6
  datalen : (headerDatalen (s.reg (CMICE_SCHAN_D 0))).toNat = 4 * nwords
  address : s.reg (CMICE_SCHAN_D 1) = addr + index
  payload : ∀ i < nwords, s.reg (CMICE_SCHAN_D (2 + i)) = data i

theorem schanHeader_writeMem (addr : BitVec 32) {nwords : ℕ} (h : nwords ≤ 14) :
    let header := schanHeader SCHAN_WRITE_MEM_CMD (cdkAddrToBlock addr) nwords
    headerOpcode header = 0x09 ∧ headerDstblk header = (cdkAddrToBlock addr).setWidth 6 ∧
      (headerDatalen header).toNat = 4 * nwords := by
  have hd : ((nwords : BitVec 32) * 4).toNat = 4 * nwords := by
    simp only [BitVec.natCast_eq_ofNat, BitVec.toNat_mul, BitVec.toNat_ofNat,
      show (4 : BitVec 32).toNat = 4 from rfl]
    omega
  refine ⟨?_, schanHeader_dstblk (by omega), ?_⟩
  · rw [schanHeader_opcode (cdkAddrToBlock_lt addr) (by omega)]; rfl
  · rw [schanHeader_datalen, BitVec.toNat_setWidth, hd]; omega

/-- In the start state the message is whole exactly when word 7 was not lost. -/
theorem writeMemMessage_startState (addr index : BitVec 32) (data : Words) {nwords : ℕ}
    (hn' : nwords ≤ 14) (cmd : Words) (hcmd : ∀ j < 2 + nwords, cmd j =
      message (schanHeader SCHAN_WRITE_MEM_CMD (cdkAddrToBlock addr) nwords) (addr + index) data j)
    (s : Bar0) :
    WriteMemMessage addr index data nwords (startState cmd (2 + nwords) s) ↔
      nwords ≤ 5 ∨ data 5 = s.reg CMIC_MISC_CONTROL := by
  have hreg (j : ℕ) (hj : j < 2 + nwords) := startState_reg cmd (by omega) hj s
  have hpay (i : ℕ) (hi : i < nwords) :
      (startState cmd (2 + nwords) s).reg (CMICE_SCHAN_D (2 + i)) =
        if i = 5 then s.reg CMIC_MISC_CONTROL else data i := by
    rw [hreg (2 + i) (by omega), hcmd (2 + i) (by omega), Nat.add_comm 2 i]
    simp [message]
  constructor
  · intro hm
    by_cases h5 : nwords ≤ 5
    · exact Or.inl h5
    · have := hm.payload 5 (by omega)
      rw [hpay 5 (by omega), if_pos rfl] at this
      exact Or.inr this.symm
  · intro h
    have h0 := hreg 0 (by omega)
    have h1 := hreg 1 (by omega)
    rw [if_neg (by norm_num), hcmd _ (by omega)] at h0 h1
    obtain ⟨ho, hb, hl⟩ := schanHeader_writeMem addr hn'
    refine ⟨h0 ▸ ho, h0 ▸ hb, h0 ▸ hl, h1, fun i hi => ?_⟩
    rw [hpay i hi]
    split_ifs with h5
    · subst h5
      exact (h.resolve_left (by omega)).symm
    · rfl

/-- A table write triggers one operation, on its own command. -/
theorem memWriteTo_atStart {env : BdeEnv} (ready : env.Ready) (T : Bar0 → Prop)
    (block addr index : BitVec 32) (data : Words) {nwords : ℕ} (hn' : nwords ≤ 14) (s : Bar0) :
    AtStart T (memWriteTo env block addr index data nwords) s ↔
      T (startState (schanRequest (message (schanHeader SCHAN_WRITE_MEM_CMD block nwords)
        (addr + index) data) ((2 + nwords : ℕ) : ℤ) (some fun _ => 0) 1).cmdPtr
        (2 + nwords) s) := by
  rw [← bdeSchanOp_atStart ready T _ (by omega) (by omega) (some fun _ => 0) 1]
  have hmin : min nwords 14 = nwords := by omega
  simp only [memWriteTo, hmin]
  refine atStart_bind_left _ (fun _ => ?_) s
  split
  · trivial
  · split_ifs <;> trivial

/-- The message of a table write is whole when it is started if and only if the
entry has at most five words or its word 5 happens to be the value MISC_CONTROL
had before the call. -/
theorem sbusMemWrite_message_iff (env : BdeEnv) (ready : env.Ready) (addr index : BitVec 32)
    (data : Words) (nwords : ℕ) (hn' : nwords ≤ 14) (s : Bar0) :
    AtStart (WriteMemMessage addr index data nwords) (sbusMemWrite env addr index data nwords) s ↔
      nwords ≤ 5 ∨ data 5 = s.reg CMIC_MISC_CONTROL := by
  rw [sbusMemWrite, memWriteTo_atStart ready _ _ _ _ _ hn']
  exact writeMemMessage_startState addr index data hn' _
    (fun j hj => schanRequest_cmdPtr _ (by omega) hj _ _) s

/-- A device that is idle, with only the S-Channel enabled. -/
def idleBar0 : Bar0 where
  reg := fun off => if off = CMIC_MISC_CONTROL then 1 else 0
  schanMutex := false

def readyEnv : BdeEnv where
  probed := true
  interrupted := false
  polls := 1
  fdOpen := true
  copyFromUser := true
  copyToUser := true

theorem readyEnv_ready : readyEnv.Ready := ⟨rfl, rfl, rfl, rfl⟩

/-- A four-word entry goes out whole. -/
theorem sbusMemWrite_message_l2Entry :
    readyEnv.Ready ∧ 4 ≤ 14 ∧
      (AtStart (WriteMemMessage 0x07120000 3 (fun _ => 7) 4)
          (sbusMemWrite readyEnv 0x07120000 3 (fun _ => 7) 4) idleBar0 ↔
        4 ≤ 5 ∨ (7 : BitVec 32) = idleBar0.reg CMIC_MISC_CONTROL) :=
  ⟨readyEnv_ready, by decide,
    sbusMemWrite_message_iff readyEnv readyEnv_ready _ _ _ _ (by decide) _⟩

/-- Clearing an eight-word entry sends MISC_CONTROL in place of data word 5. -/
theorem sbusMemWrite_message_clobbered :
    ¬ AtStart (WriteMemMessage 0x0a170000 0 (fun _ => 0) 8)
      (sbusMemWrite readyEnv 0x0a170000 0 (fun _ => 0) 8) idleBar0 := by
  rw [sbusMemWrite, memWriteTo_atStart readyEnv_ready _ _ _ _ _ (by decide),
    writeMemMessage_startState _ _ _ (by decide) _
      (fun j hj => schanRequest_cmdPtr _ (by decide) hj _ _)]
  decide

end OpenNos.Bde
