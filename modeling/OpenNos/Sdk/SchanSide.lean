import OpenNos.Sdk.SharedCtrl

/-! The S-Channel driver next to a MIIM driver. It writes only its own bits and
message words, finds no stale DONE when it starts its operation, and reports status 0
only for the DONE of that operation, whatever the other driver and the engines do in
between. -/

namespace OpenNos.Sdk

open Bits RegProg Bde

/-- What the other driver and the engines may do to the S-Channel. -/
def SchanRely (s s' : Cmic) : Prop := LeavesSchan s s' ∨ SchanMoves s s'

abbrev SchanWp {α : Type} (Q : α → Cmic → Prop) (p : Pio α) (s : Cmic) : Prop :=
  Wp cmic SchanRely LeavesMiim Q p s

/-- No operation since the one that made it `n`. -/
structure AtRest (n : ℕ) (s : Cmic) : Prop where
  idle : s.schanBusy = false
  started : s.schanStarted = n

/-- And no stale DONE. -/
structure Fresh (n : ℕ) (s : Cmic) : Prop extends AtRest n s where
  clear : (s.reg CMICE_SCHAN_CTRL).getLsbD 1 = false

/-- The operation has ended, with this in the control register. -/
structure Ended (n : ℕ) (ctrl : BitVec 32) (s : Cmic) : Prop extends AtRest (n + 1) s where
  ended : s.schanEnd = some ctrl

/-- The operation runs without DONE, or has ended and its bits show how. -/
def Running (n : ℕ) (s : Cmic) : Prop :=
  (s.schanBusy = true ∧ s.schanStarted = n + 1 ∧ (s.reg CMICE_SCHAN_CTRL).getLsbD 1 = false) ∨
    ∃ ctrl, Ended n ctrl s ∧
      ∀ b ∈ schanBits, (s.reg CMICE_SCHAN_CTRL).getLsbD b = ctrl.getLsbD b

theorem stable_atRest (n : ℕ) : Stable SchanRely (AtRest n) := by
  rintro s s' h (hl | hm)
  · exact ⟨hl.busy.trans h.idle, hl.started.trans h.started⟩
  · exact absurd hm.wasBusy (by simp [h.idle])

theorem stable_fresh (n : ℕ) : Stable SchanRely (Fresh n) := by
  intro s s' h hR
  refine ⟨stable_atRest n s s' h.toAtRest hR, ?_⟩
  obtain hl | hm := hR
  · rw [hl.bits 1 (by decide), h.clear]
  · exact absurd hm.wasBusy (by simp [h.idle])

theorem stable_ended (n : ℕ) (ctrl : BitVec 32) : Stable SchanRely (Ended n ctrl) := by
  intro s s' h hR
  refine ⟨stable_atRest (n + 1) s s' h.toAtRest hR, ?_⟩
  obtain hl | hm := hR
  · rw [hl.ended, h.ended]
  · exact absurd hm.wasBusy (by simp [h.idle])

theorem stable_running (n : ℕ) : Stable SchanRely (Running n) := by
  intro s s' h hR
  rcases h with ⟨hbusy, hstarted, hclear⟩ | ⟨ctrl, hended, hbits⟩
  · rcases hR with hl | hm
    · exact .inl ⟨hl.busy.trans hbusy, hl.started.trans hstarted,
        (hl.bits 1 (by decide)).trans hclear⟩
    · rcases hm.ends with ⟨hbusy', -, hsame⟩ | ⟨hidle, hend, hdone⟩
      · exact .inl ⟨hbusy', hm.started.trans hstarted, (hsame 1 (by decide)).trans hclear⟩
      · exact .inr ⟨_, ⟨⟨hidle, hm.started.trans hstarted⟩, hend⟩, fun _ _ => rfl⟩
  · refine .inr ⟨ctrl, stable_ended n ctrl s s' hended hR, fun b hb => ?_⟩
    rcases hR with hl | hm
    · exact (hl.bits b hb).trans (hbits b hb)
    · exact absurd hm.wasBusy (by simp [hended.idle])

/-! ### Its accesses -/

/-- A write of the driver that starts nothing. -/
def SchanWrite (off : ℕ) (v : BitVec 32) : Prop :=
  (∃ i < 16, off = CMICE_SCHAN_D i) ∨
    off = CMICE_SCHAN_CTRL ∧ v ∈ [CMICE_SET_ABORT, CMICE_CLR_START, CMICE_CLR_DONE,
      CMICE_CLR_ABORT, CMICE_CLR_SER, CMICE_CLR_NAK, CMICE_CLR_TIMEOUT]

/-- A byte write that names none of the MIIM bits. -/
theorem leavesMiim_ctrl {v : BitVec 32} (hv : (v &&& 0x7f).toNat ∉ miimBits) (s : Cmic) :
    LeavesMiim s (cmic.write s CMICE_SCHAN_CTRL v) := by
  have hreg {off : ℕ} (hoff : off ≠ CMICE_SCHAN_CTRL) :
      (cmic.write s CMICE_SCHAN_CTRL v).reg off = s.reg off := by
    rw [cmic_write_reg, Function.update_of_ne hoff]
  have hset (b : ℕ) (hb : b ∈ miimBits) : ¬ SetsBit v b := fun h => hv (h.2 ▸ hb)
  have hclr (b : ℕ) (hb : b ∈ miimBits) : ¬ ClearsBit v b := fun h => hv (h.2 ▸ hb)
  have hmiim : (cmic.write s CMICE_SCHAN_CTRL v).miimBusy = s.miimBusy ∧
      (cmic.write s CMICE_SCHAN_CTRL v).miimStarted = s.miimStarted ∧
      (cmic.write s CMICE_SCHAN_CTRL v).miimEnd = s.miimEnd := by
    rw [cmic_write_ctrl, Cmic.ctrlWritten]
    split_ifs with h₀ h₂ htrigger hreset
    · exact ⟨rfl, rfl, rfl⟩
    · exact ⟨rfl, rfl, rfl⟩
    · exact absurd htrigger (not_or.mpr ⟨hset 16 (by decide), hset 17 (by decide)⟩)
    · exact absurd hreset (not_or.mpr ⟨hclr 16 (by decide), hclr 17 (by decide)⟩)
    · exact ⟨rfl, rfl, rfl⟩
  refine ⟨fun b hb => ?_, hreg (by decide), hreg (by decide), hreg (by decide), hmiim.1, hmiim.2.1,
    hmiim.2.2⟩
  have hb32 : b < 32 := by
    simp only [miimBits, List.mem_cons, List.not_mem_nil, or_false] at hb
    omega
  have hne : b ≠ (v &&& 0x7f).toNat := by
    rintro rfl
    exact hv hb
  rw [getLsbD_write_ctrl s v hb32, if_neg hne]

theorem leavesMiim_word {i : ℕ} (hi : i < 16) (v : BitVec 32) (s : Cmic) :
    LeavesMiim s (cmic.write s (CMICE_SCHAN_D i) v) := by
  have hne {off : ℕ} (hoff : 64 ≤ off) : off ≠ CMICE_SCHAN_D i := by
    simp only [CMICE_SCHAN_D]
    omega
  rw [cmic_write_of_ne (hne (by decide)).symm]
  constructor
  · intro b _
    simp only [Function.update_of_ne (hne (show 64 ≤ CMICE_SCHAN_CTRL by decide))]
  · exact Function.update_of_ne (hne (by decide)) _ _
  · exact Function.update_of_ne (hne (by decide)) _ _
  · exact Function.update_of_ne (hne (by decide)) _ _
  all_goals rfl

/-- What a write that starts nothing leaves to the driver itself. -/
structure Continues (s s' : Cmic) : Prop where
  idle : s.schanBusy = false → s'.schanBusy = false
  started : s'.schanStarted = s.schanStarted
  ended : s'.schanEnd = s.schanEnd
  clear : (s.reg CMICE_SCHAN_CTRL).getLsbD 1 = false →
    (s'.reg CMICE_SCHAN_CTRL).getLsbD 1 = false

theorem SchanWrite.leaves {off : ℕ} {v : BitVec 32} (h : SchanWrite off v) (s : Cmic) :
    LeavesMiim s (cmic.write s off v) ∧ Continues s (cmic.write s off v) := by
  rcases h with ⟨i, hi, rfl⟩ | ⟨rfl, hv⟩
  · have hne : CMICE_SCHAN_D i ≠ CMICE_SCHAN_CTRL := by
      simp only [CMICE_SCHAN_D, CMICE_SCHAN_CTRL]
      omega
    refine ⟨leavesMiim_word hi v s, ?_⟩
    rw [cmic_write_of_ne hne]
    refine ⟨id, rfl, rfl, fun h => ?_⟩
    simpa only [Function.update_of_ne hne.symm] using h
  · have hnames : (v &&& 0x7f).toNat ∉ miimBits ∧ ¬ SetsBit v 0 ∧ ¬ SetsBit v 1 := by
      simp only [List.mem_cons, List.not_mem_nil, or_false] at hv
      rcases hv with rfl | rfl | rfl | rfl | rfl | rfl | rfl
      all_goals decide
    have hclear : (s.reg CMICE_SCHAN_CTRL).getLsbD 1 = false →
        ((cmic.write s CMICE_SCHAN_CTRL v).reg CMICE_SCHAN_CTRL).getLsbD 1 = false := by
      intro h
      rw [getLsbD_write_ctrl s v (by omega)]
      split_ifs with hone
      · exact eq_false_of_ne_true fun hset => hnames.2.2 ⟨hset, hone.symm⟩
      · exact h
    refine ⟨leavesMiim_ctrl hnames.1 s, ?_, ?_, ?_, hclear⟩
    all_goals
      rw [cmic_write_ctrl, Cmic.ctrlWritten, if_neg hnames.2.1]
      split_ifs
    · exact fun _ => rfl
    · exact id
    · exact id
    · exact id
    all_goals rfl

theorem leavesMiim_refl (s : Cmic) : LeavesMiim s s :=
  ⟨fun _ _ => rfl, rfl, rfl, rfl, rfl, rfl, rfl⟩

theorem leavesMiim_event (s : Cmic) (e : KernelEvent) :
    LeavesMiim s (cmic.event s e) ∧ Continues s (cmic.event s e) := by
  cases e
  all_goals exact ⟨⟨fun _ _ => rfl, rfl, rfl, rfl, rfl, rfl, rfl⟩, id, rfl, rfl, id⟩

/-- A part of the driver that starts nothing keeps what such writes keep. -/
theorem wp_continues {α : Type} {P : Cmic → Prop} (hP : Stable SchanRely P)
    (hkeep : ∀ s s', P s → Continues s s' → P s') {p : Pio α} (hp : EachWrite SchanWrite p)
    {s : Cmic} (hs : P s) : SchanWp (fun _ => P) p s := by
  refine wp_of_eachWrite hP (fun s off v hs hw => ?_) (fun s _ hs => ⟨leavesMiim_refl s, hs⟩)
    (fun s e hs => ?_) hp hs
  · obtain ⟨hleaves, hcont⟩ := hw.leaves s
    exact ⟨hleaves, hkeep _ _ hs hcont⟩
  · obtain ⟨hleaves, hcont⟩ := leavesMiim_event s e
    exact ⟨hleaves, hkeep _ _ hs hcont⟩

theorem AtRest.continues {n : ℕ} {s s' : Cmic} (h : AtRest n s) (hc : Continues s s') :
    AtRest n s' := ⟨hc.idle h.idle, hc.started.trans h.started⟩

theorem Ended.continues {n : ℕ} {ctrl : BitVec 32} {s s' : Cmic} (h : Ended n ctrl s)
    (hc : Continues s s') : Ended n ctrl s' :=
  ⟨h.toAtRest.continues hc, hc.ended.trans h.ended⟩

theorem SchanWrite.writes {off : ℕ} {v : BitVec 32} (h : SchanWrite off v) :
    EachWrite SchanWrite (iowrite32 v off) := ⟨h, trivial⟩

theorem cmiceSchanAbort_writes : EachWrite SchanWrite cmiceSchanAbort := by
  simp [cmiceSchanAbort, iowrite32, writeReg, mark, EachWrite, SchanWrite, Bind.bind, RegProg.bind]

theorem Fresh.continues {n : ℕ} {s s' : Cmic} (h : Fresh n s) (hc : Continues s s') :
    Fresh n s' := ⟨h.toAtRest.continues hc, hc.clear h.clear⟩

theorem writeCmd_writes (cmd : Words) (i n : ℕ) (h : i + n ≤ 16) :
    EachWrite SchanWrite (writeCmd cmd i n) := by
  induction n generalizing i with
  | zero => trivial
  | succ n ih => exact ⟨.inl ⟨i, by omega, rfl⟩, ih (i + 1) (by omega)⟩

theorem misc_write (v : BitVec 32) : SchanWrite CMIC_MISC_CONTROL v := .inl ⟨7, by omega, rfl⟩

theorem readData_writes (data : Words) (i n : ℕ) :
    EachWrite SchanWrite (readData data i n) := by
  induction n generalizing data i with
  | zero => trivial
  | succ n ih => exact fun v => ih _ (i + 1)

theorem readResponse_writes (n : ℕ) (data : Option Words) :
    EachWrite SchanWrite (readResponse n data) := by
  cases data with
  | none => trivial
  | some d => exact eachWrite_bind (readData_writes d 0 n) fun _ => trivial

/-! ### The operation -/

/-- After an abort the engine rests, whatever it was doing. -/
theorem wp_abort_idle (s : Cmic) :
    SchanWp (fun _ s => s.schanBusy = false) cmiceSchanAbort s := by
  have hstable : Stable SchanRely fun s => s.schanBusy = false :=
    fun s s' h hR => (stable_atRest s.schanStarted s s' ⟨h, rfl⟩ hR).idle
  have hset : SchanWp (fun _ s => s.schanBusy = false) (iowrite32 CMICE_SET_ABORT CMICE_SCHAN_CTRL)
      s :=
    wp_write (P := fun _ => True) (fun _ _ _ _ => trivial)
      (fun s _ => ⟨leavesMiim_ctrl (by decide) s, rfl⟩) hstable trivial
  refine wp_seq hset fun _ s hs => ?_
  refine wp_continues hstable (fun s s' h hc => hc.idle h) ?_ hs
  exact cmiceSchanAbort_writes.2

/-- An abort of an engine at rest also clears a stale DONE. -/
theorem wp_abort_fresh {n : ℕ} {s : Cmic} (hs : AtRest n s) :
    SchanWp (fun _ => Fresh n) cmiceSchanAbort s := by
  obtain ⟨hset, hclrAbort, hclrStart, hclrDone, hrest⟩ := cmiceSchanAbort_writes
  have hkeep {p : Pio Unit} (hp : EachWrite SchanWrite p) {s : Cmic} (hs : AtRest n s) :
      SchanWp (fun _ => AtRest n) p s :=
    wp_continues (stable_atRest n) (fun s s' h hc => h.continues hc) hp hs
  have hdone {s : Cmic} (hs : AtRest n s) :
      SchanWp (fun _ => Fresh n) (iowrite32 CMICE_CLR_DONE CMICE_SCHAN_CTRL) s := by
    refine wp_write (stable_atRest n) (fun s hs => ?_) (stable_fresh n) hs
    obtain ⟨hleaves, hcont⟩ := hclrDone.leaves s
    refine ⟨hleaves, hs.continues hcont, ?_⟩
    rw [getLsbD_write_ctrl s _ (by omega)]
    rfl
  refine wp_seq (hkeep hset.writes hs) fun _ s hs => ?_
  refine wp_seq (hkeep (p := mark (.udelay 100)) trivial hs) fun _ s hs => ?_
  refine wp_seq (hkeep hclrAbort.writes hs) fun _ s hs => ?_
  refine wp_seq (hkeep hclrStart.writes hs) fun _ s hs => wp_seq (hdone hs) fun _ s hs => ?_
  exact wp_continues (stable_fresh n) (fun s s' h hc => h.continues hc) hrest hs

/-- The start of an operation that finds no stale DONE. -/
theorem wp_start {n : ℕ} {s : Cmic} (hs : Fresh n s) :
    SchanWp (fun _ => Running n) (iowrite32 CMICE_SET_START CMICE_SCHAN_CTRL) s := by
  refine wp_write (stable_fresh n) (fun s hs => ?_) (stable_running n) hs
  refine ⟨leavesMiim_ctrl (by decide) s, .inl ?_⟩
  have hclear : ((cmic.write s CMICE_SCHAN_CTRL CMICE_SET_START).reg CMICE_SCHAN_CTRL).getLsbD 1 =
      false := by
    rw [getLsbD_write_ctrl s _ (by omega), if_neg (by decide), hs.clear]
  rw [cmic_write_ctrl, Cmic.ctrlWritten, if_pos (by decide)] at hclear ⊢
  exact ⟨rfl, congrArg (· + 1) hs.started, hclear⟩

/-- How an operation ends: at rest, and with status 0 only after a success. -/
structure SchanReturns (n : ℕ) (status : ℤ) (s : Cmic) : Prop where
  idle : s.schanBusy = false
  succeeded : status = 0 → SchanSucceeded n s

theorem stable_schanReturns (n : ℕ) (status : ℤ) : Stable SchanRely (SchanReturns n status) := by
  intro s s' h hR
  refine ⟨(stable_atRest s.schanStarted s s' ⟨h.idle, rfl⟩ hR).idle, fun hzero => ?_⟩
  obtain ⟨hstarted, ctrl, hend, hok⟩ := h.succeeded hzero
  have hended := stable_ended n ctrl s s' ⟨⟨h.idle, hstarted⟩, hend⟩ hR
  exact ⟨hended.started, ctrl, hended.ended, hok⟩

theorem wp_fail {n : ℕ} (misc : BitVec 32) (data : Option Words) {status : ℤ} (hne : status ≠ 0)
    (s : Cmic) : SchanWp (fun r => SchanReturns n r.1)
      (do cmiceSchanAbort; iowrite32 misc CMIC_MISC_CONTROL; return (status, data)) s := by
  have hfail {s : Cmic} (hidle : s.schanBusy = false) : SchanReturns n status s :=
    ⟨hidle, fun h => absurd h hne⟩
  have hmisc {s : Cmic} (hs : SchanReturns n status s) :
      SchanWp (fun _ => SchanReturns n status) (iowrite32 misc CMIC_MISC_CONTROL) s :=
    wp_continues (stable_schanReturns n status) (fun s s' h hc => hfail (hc.idle h.idle))
      (misc_write misc).writes hs
  refine wp_seq (wp_abort_idle s) fun _ s hidle => wp_seq (hmisc (hfail hidle)) fun _ s hs => ?_
  exact wp_pure (Q := fun r : ℤ × Option Words => SchanReturns n r.1)
    (stable_schanReturns n status) hs

/-- DONE as the poll reads it comes from the operation that was started, and so do the
error bits next to it. -/
theorem wp_poll_read {n : ℕ} {s : Cmic} (hs : Running n s) :
    SchanWp (fun ctrl s => Running n s ∧ (ctrl.getLsbD 1 = true → ∃ last, Ended n last s ∧
      ∀ b ∈ schanBits, ctrl.getLsbD b = last.getLsbD b)) (ioread32 CMICE_SCHAN_CTRL) s := by
  refine wp_read (stable_running n) (fun s hs => ?_) (fun ctrl s s' h hR => ?_) hs
  · refine ⟨leavesMiim_refl s, hs, fun hdone => ?_⟩
    rcases hs with ⟨-, -, hclear⟩ | hended
    · exact absurd hdone (ne_true_of_eq_false hclear)
    · exact hended
  · refine ⟨stable_running n s s' h.1 hR, fun hdone => ?_⟩
    obtain ⟨last, hended, hbits⟩ := h.2 hdone
    exact ⟨last, stable_ended n last s s' hended hR, hbits⟩

theorem wp_schanPoll_status {n : ℕ} (misc : BitVec 32) (data : Option Words) (dataWords : ℤ)
    (polls : ℕ) {s : Cmic} (hs : Running n s) :
    SchanWp (fun r => SchanReturns n r.1) (schanPoll misc data dataWords polls) s := by
  induction polls generalizing s with
  | zero => exact wp_fail misc data (by decide) s
  | succ polls ih =>
    refine wp_seq (wp_poll_read hs) fun ctrl s ⟨hs, hend⟩ => ?_
    split_ifs with hdone herr
    · exact wp_fail misc data (by decide) s
    · have hbit : ctrl.getLsbD 1 = true := by
        by_contra hclear
        exact hdone ((and_bit_eq_zero_iff ctrl (by omega)).mpr (eq_false_of_ne_true hclear))
      obtain ⟨last, hended, hbits⟩ := hend hbit
      have hok : last &&& (SCHAN_CTRL_TIMEOUT ||| SCHAN_CTRL_NAK) = 0 := by
        refine (and_eq_zero_iff _ _).mpr fun b hb hm => ?_
        have hmem : b ∈ schanBits := by
          revert hm
          revert b
          decide
        rw [← hbits b hmem]
        exact (and_eq_zero_iff _ _).mp (not_not.mp herr) b hb hm
      have hkeep {α : Type} {p : Pio α} (hp : EachWrite SchanWrite p) {s : Cmic}
          (hs : Ended n last s) : SchanWp (fun _ => Ended n last) p s :=
        wp_continues (stable_ended n last) (fun s s' h hc => h.continues hc) hp hs
      refine wp_seq (hkeep (readResponse_writes _ data) hended) fun data s hs => ?_
      refine wp_seq (hkeep cmiceSchanAbort_writes hs) fun _ s hs => ?_
      refine wp_seq (hkeep (misc_write misc).writes hs) fun _ s hs => ?_
      refine wp_pure (Q := fun r : ℤ × Option Words => SchanReturns n r.1)
        (stable_schanReturns n 0) ?_
      exact ⟨hs.idle, fun _ => ⟨hs.started, last, hs.ended, hok⟩⟩
    · have hsleep : SchanWp (fun _ => Running n) (mark (.usleepRange 10 50)) s :=
        wp_mark (stable_running n) (fun s h => ⟨leavesMiim_refl s, h⟩) (stable_running n) hs
      exact wp_seq hsleep fun _ s hs => ih hs

/-- An engine at rest whose control register reads 0 has no stale DONE. -/
theorem wp_first_read {n : ℕ} {s : Cmic} (hs : AtRest n s) :
    SchanWp (fun ctrl s => AtRest n s ∧ (ctrl = 0 → Fresh n s)) (ioread32 CMICE_SCHAN_CTRL) s := by
  refine wp_read (stable_atRest n) (fun s hs => ?_) (fun ctrl s s' h hR => ?_) hs
  · refine ⟨leavesMiim_refl s, hs, fun hzero => ⟨hs, ?_⟩⟩
    exact congrArg (fun ctrl : BitVec 32 => ctrl.getLsbD 1) hzero
  · exact ⟨stable_atRest n s s' h.1 hR, fun hzero => stable_fresh n s s' (h.2 hzero) hR⟩

/-- What the caller of the operation gets. -/
structure SchanOpReturns (n : ℕ) (rc : Rc (ℤ × Option Words)) (s : Cmic) : Prop where
  idle : s.schanBusy = false
  succeeded : ∀ data, rc = .ok (0, data) → SchanSucceeded n s

theorem SchanReturns.op {n : ℕ} {r : ℤ × Option Words} {s : Cmic} (h : SchanReturns n r.1 s) :
    SchanOpReturns n (.ok r) s := by
  refine ⟨h.idle, fun data hr => h.succeeded ?_⟩
  cases hr
  rfl

theorem wp_op_refused {n : ℕ} {e : Errno} {s : Cmic} (hs : AtRest n s) :
    SchanWp (SchanOpReturns n) (pure (.error e)) s :=
  wp_mono (fun rc s h => ⟨h.1.idle, fun data hr => by simp [h.2] at hr⟩)
    (wp_pure (Q := fun rc s => AtRest n s ∧ rc = Except.error e)
      (fun s s' h hR => ⟨stable_atRest n s s' h.1 hR, h.2⟩) ⟨hs, rfl⟩)

/-- From an engine at rest the operation keeps off the MIIM and reports its own outcome. -/
theorem wp_nosBdeSchanOp_status (env : SchanEnv) (cmd : Words) {cmdWords : ℤ}
    (hlen : cmdWords ≤ 16) (data : Option Words) (dataWords : ℤ) {n : ℕ} {s : Cmic}
    (hs : AtRest n s) :
    SchanWp (SchanOpReturns n) (nosBdeSchanOp env cmd cmdWords data dataWords) s := by
  have hrest := stable_atRest n
  have hkeep {α : Type} {p : Pio α} (hp : EachWrite SchanWrite p) {s : Cmic} (hs : Fresh n s) :
      SchanWp (fun _ => Fresh n) p s :=
    wp_continues (stable_fresh n) (fun s s' h hc => h.continues hc) hp hs
  have hlock {s : Cmic} (hs : AtRest n s) :
      SchanWp (fun _ => AtRest n) (mark .lockSchanMutex) s :=
    wp_continues hrest (fun s s' h hc => h.continues hc) (p := mark .lockSchanMutex) trivial hs
  have hmisc {s : Cmic} (hs : AtRest n s) :
      SchanWp (fun _ => AtRest n) (ioread32 CMIC_MISC_CONTROL) s :=
    wp_read hrest (fun s h => ⟨leavesMiim_refl s, h⟩) (fun _ => hrest) hs
  have habort {ctrl : BitVec 32} {s : Cmic} (hs : AtRest n s ∧ (ctrl = 0 → Fresh n s)) :
      SchanWp (fun _ => Fresh n) (onlyIf (ctrl ≠ 0) cmiceSchanAbort) s := by
    unfold onlyIf
    split_ifs with hne
    · exact wp_abort_fresh hs.1
    · exact wp_pure (Q := fun _ => Fresh n) (stable_fresh n) (hs.2 (not_not.mp hne))
  unfold nosBdeSchanOp
  split_ifs
  · exact wp_op_refused hs
  · exact wp_op_refused hs
  · refine wp_seq (hlock hs) fun _ s hs => wp_seq (hmisc hs) fun savedMisc s hs => ?_
    refine wp_seq (wp_first_read hs) fun ctrl s hs => wp_seq (habort hs) fun _ s hs => ?_
    refine wp_seq (hkeep (writeCmd_writes cmd 0 _ (by omega)) hs) fun _ s hs => ?_
    refine wp_seq (hkeep (eachWrite_onlyIf (misc_write savedMisc).writes) hs) fun _ s hs => ?_
    refine wp_seq (wp_start hs) fun _ s hs => ?_
    refine wp_seq (wp_schanPoll_status savedMisc data dataWords env.polls hs) fun r s hs => ?_
    have hunlock : SchanWp (fun _ => SchanReturns n r.1) (mark .unlockSchanMutex) s :=
      wp_mark (stable_schanReturns n r.1)
        (fun s h => ⟨(leavesMiim_event s _).1, h.idle, h.succeeded⟩) (stable_schanReturns n r.1) hs
    refine wp_seq hunlock fun _ s hs => ?_
    exact wp_mono (fun rc s h => h.2 ▸ h.1.op)
      (wp_pure (Q := fun rc s => SchanReturns n r.1 s ∧ rc = Except.ok r)
        (fun s s' h hR => ⟨stable_schanReturns n r.1 s s' h.1 hR, h.2⟩) ⟨hs, rfl⟩)

end OpenNos.Sdk
