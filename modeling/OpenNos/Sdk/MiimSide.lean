import OpenNos.Sdk.SharedCtrl

/-! The MIIM driver next to an S-Channel driver. It writes only the MIIM bits and
registers, clears DONE before the trigger, and returns 0 only for the DONE of its own
transaction; a timeout ends the transaction, so the engine rests whenever it returns. -/

namespace OpenNos.Sdk

open Bits RegProg Bde

/-- What the other driver and the engines may do to the MIIM. -/
def MiimRely (s s' : Cmic) : Prop := LeavesMiim s s' ∨ MiimMoves s s'

abbrev MiimWp {α : Type} (Q : α → Cmic → Prop) (p : Reg KernelEvent α) (s : Cmic) : Prop :=
  Wp cmic MiimRely LeavesSchan Q p s

structure MiimAtRest (n : ℕ) (s : Cmic) : Prop where
  idle : s.miimBusy = false
  started : s.miimStarted = n

structure MiimFresh (n : ℕ) (s : Cmic) : Prop extends MiimAtRest n s where
  clear : (s.reg CMIC_MIIM_CTRL).getLsbD 18 = false

structure MiimEnded (n : ℕ) (s : Cmic) : Prop extends MiimAtRest (n + 1) s where
  ended : s.miimEnd = true

/-- The transaction runs without DONE, or has ended. -/
def MiimRunning (n : ℕ) (s : Cmic) : Prop :=
  (s.miimBusy = true ∧ s.miimStarted = n + 1 ∧ (s.reg CMIC_MIIM_CTRL).getLsbD 18 = false) ∨
    MiimEnded n s

theorem stable_miimAtRest (n : ℕ) : Stable MiimRely (MiimAtRest n) := by
  rintro s s' h (hl | hm)
  · exact ⟨hl.busy.trans h.idle, hl.started.trans h.started⟩
  · exact absurd hm.wasBusy (by simp [h.idle])

theorem stable_miimFresh (n : ℕ) : Stable MiimRely (MiimFresh n) := by
  intro s s' h hR
  refine ⟨stable_miimAtRest n s s' h.toMiimAtRest hR, ?_⟩
  obtain hl | hm := hR
  · exact (hl.bits 18 (by decide)).trans h.clear
  · exact absurd hm.wasBusy (by simp [h.idle])

theorem stable_miimEnded (n : ℕ) : Stable MiimRely (MiimEnded n) := by
  intro s s' h hR
  refine ⟨stable_miimAtRest (n + 1) s s' h.toMiimAtRest hR, ?_⟩
  obtain hl | hm := hR
  · exact hl.ended.trans h.ended
  · exact absurd hm.wasBusy (by simp [h.idle])

theorem stable_miimRunning (n : ℕ) : Stable MiimRely (MiimRunning n) := by
  intro s s' h hR
  rcases h with ⟨hbusy, hstarted, hclear⟩ | hended
  · rcases hR with hl | hm
    · exact .inl ⟨hl.busy.trans hbusy, hl.started.trans hstarted,
        (hl.bits 18 (by decide)).trans hclear⟩
    · exact .inr ⟨⟨hm.ends, hm.started.trans hstarted⟩, hm.ended⟩
  · exact .inr (stable_miimEnded n s s' hended hR)

/-- The two engines share the register. -/
theorem miimCtrl_eq : CMIC_MIIM_CTRL = CMICE_SCHAN_CTRL := rfl

/-- A byte write that names none of the S-Channel bits. -/
theorem leavesSchan_ctrl {v : BitVec 32} (hv : (v &&& 0x7f).toNat ∉ schanBits) (s : Cmic) :
    LeavesSchan s (cmic.write s CMIC_MIIM_CTRL v) := by
  have hset (b : ℕ) (hb : b ∈ schanBits) : ¬ SetsBit v b := fun h => hv (h.2 ▸ hb)
  have hwords (i : ℕ) (hi : i < 16) :
      (cmic.write s CMIC_MIIM_CTRL v).reg (CMICE_SCHAN_D i) = s.reg (CMICE_SCHAN_D i) := by
    have hne : CMICE_SCHAN_D i ≠ CMIC_MIIM_CTRL := by
      simp only [CMICE_SCHAN_D, CMIC_MIIM_CTRL]
      omega
    rw [cmic_write_reg, Function.update_of_ne hne]
  refine ⟨fun b hb => ?_, hwords, ?_, ?_, ?_, ?_⟩
  · have hne : b ≠ (v &&& 0x7f).toNat := by
      rintro rfl
      exact hv hb
    exact (getLsbD_write_ctrl s v (lt_of_mem_schanBits hb)).trans (if_neg hne)
  all_goals
    rw [miimCtrl_eq, cmic_write_miim (hset 0 (by decide)) (hset 2 (by decide))]
    dsimp only
    split_ifs <;> rfl

/-- A write of the driver that triggers nothing. -/
def MiimWrite (off : ℕ) (v : BitVec 32) : Prop :=
  off = CMIC_MIIM_ADDRESS ∨ off = CMIC_MIIM_PARAM ∨
    off = CMIC_MIIM_CTRL ∧ v ∈ [MIIM_CLR_READ, MIIM_CLR_WRITE, MIIM_CLR_DONE]

theorem leavesSchan_reg {off : ℕ} (hoff : 64 ≤ off) (hne : off ≠ CMICE_SCHAN_CTRL) (v : BitVec 32)
    (s : Cmic) : LeavesSchan s (cmic.write s off v) := by
  rw [cmic_write_of_ne hne]
  constructor
  · intro b _
    simp only [Function.update_of_ne hne.symm]
  · intro i hi
    have hword : CMICE_SCHAN_D i ≠ off := by
      simp only [CMICE_SCHAN_D]
      omega
    exact Function.update_of_ne hword _ _
  all_goals rfl

/-- What a write that triggers nothing leaves to the driver itself. -/
structure MiimContinues (s s' : Cmic) : Prop where
  idle : s.miimBusy = false → s'.miimBusy = false
  started : s'.miimStarted = s.miimStarted
  ended : s'.miimEnd = s.miimEnd
  clear : (s.reg CMIC_MIIM_CTRL).getLsbD 18 = false →
    (s'.reg CMIC_MIIM_CTRL).getLsbD 18 = false

theorem miimContinues_reg {off : ℕ} (hne : off ≠ CMICE_SCHAN_CTRL) (v : BitVec 32) (s : Cmic) :
    MiimContinues s (cmic.write s off v) := by
  rw [cmic_write_of_ne hne]
  refine ⟨id, rfl, rfl, fun h => ?_⟩
  rw [miimCtrl_eq] at h ⊢
  simpa only [Function.update_of_ne hne.symm] using h

theorem MiimWrite.leaves {off : ℕ} {v : BitVec 32} (h : MiimWrite off v) (s : Cmic) :
    LeavesSchan s (cmic.write s off v) ∧ MiimContinues s (cmic.write s off v) := by
  rcases h with rfl | rfl | ⟨rfl, hv⟩
  · exact ⟨leavesSchan_reg (by decide) (by decide) v s, miimContinues_reg (by decide) v s⟩
  · exact ⟨leavesSchan_reg (by decide) (by decide) v s, miimContinues_reg (by decide) v s⟩
  · have hclr : (v &&& 0x7f).toNat ∉ schanBits ∧ v.getLsbD 7 = false := by
      simp only [List.mem_cons, List.not_mem_nil, or_false] at hv
      rcases hv with rfl | rfl | rfl
      all_goals decide
    refine ⟨leavesSchan_ctrl hclr.1 s, ?_, ?_, ?_, fun h => ?_⟩
    on_goal 4 =>
      refine (getLsbD_write_ctrl s v (by omega)).trans ?_
      split_ifs
      · exact hclr.2
      · exact h
    all_goals
      rw [miimCtrl_eq, cmic_write_clears hclr.2]
      split_ifs
    · exact fun _ => rfl
    · exact id
    all_goals rfl

theorem leavesSchan_refl (s : Cmic) : LeavesSchan s s :=
  ⟨fun _ _ => rfl, fun _ _ => rfl, rfl, rfl, rfl, rfl⟩

theorem wp_miimWrite {P : Cmic → Prop} (hP : Stable MiimRely P)
    (hkeep : ∀ s s', P s → MiimContinues s s' → P s') {off : ℕ} {v : BitVec 32}
    (hw : MiimWrite off v) {s : Cmic} (hs : P s) : MiimWp (fun _ => P) (bdeWrite off v) s := by
  refine wp_write hP (fun s hs => ?_) hP hs
  obtain ⟨hleaves, hcont⟩ := hw.leaves s
  exact ⟨hleaves, hkeep s _ hs hcont⟩

theorem MiimAtRest.continues {n : ℕ} {s s' : Cmic} (h : MiimAtRest n s)
    (hc : MiimContinues s s') : MiimAtRest n s' :=
  ⟨hc.idle h.idle, hc.started.trans h.started⟩

theorem MiimFresh.continues {n : ℕ} {s s' : Cmic} (h : MiimFresh n s)
    (hc : MiimContinues s s') : MiimFresh n s' :=
  ⟨h.toMiimAtRest.continues hc, hc.clear h.clear⟩

theorem MiimEnded.continues {n : ℕ} {s s' : Cmic} (h : MiimEnded n s)
    (hc : MiimContinues s s') : MiimEnded n s' :=
  ⟨h.toMiimAtRest.continues hc, hc.ended.trans h.ended⟩

/-- The accesses up to the trigger, for either direction. -/
theorem wp_miimTrigger {n : ℕ} {clr set address param : BitVec 32}
    (hclr : clr ∈ [MIIM_CLR_READ, MIIM_CLR_WRITE, MIIM_CLR_DONE])
    (hset : set ∈ [MIIM_SET_READ, MIIM_SET_WRITE]) {α : Type} {Q : α → Cmic → Prop}
    {f : Unit → Reg KernelEvent α} (hf : ∀ u s, MiimRunning n s → MiimWp Q (f u) s) {s : Cmic}
    (hs : MiimAtRest n s) : MiimWp Q (do
      bdeWrite CMIC_MIIM_CTRL clr
      bdeWrite CMIC_MIIM_CTRL MIIM_CLR_DONE
      bdeWrite CMIC_MIIM_ADDRESS address
      bdeWrite CMIC_MIIM_PARAM param
      let u ← bdeWrite CMIC_MIIM_CTRL set
      f u) s := by
  have hrest := stable_miimAtRest n
  have hreset : MiimWp (fun _ => MiimAtRest n) (bdeWrite CMIC_MIIM_CTRL clr) s :=
    wp_miimWrite hrest (fun s s' h hc => h.continues hc) (.inr (.inr ⟨rfl, hclr⟩)) hs
  have hdone {s : Cmic} (hs : MiimAtRest n s) :
      MiimWp (fun _ => MiimFresh n) (bdeWrite CMIC_MIIM_CTRL MIIM_CLR_DONE) s := by
    have hw : MiimWrite CMIC_MIIM_CTRL MIIM_CLR_DONE := .inr (.inr ⟨rfl, by decide⟩)
    refine wp_write hrest (fun s hs => ?_) (stable_miimFresh n) hs
    obtain ⟨hleaves, hcont⟩ := hw.leaves s
    exact ⟨hleaves, hs.continues hcont, (getLsbD_write_ctrl s _ (by omega)).trans (if_pos rfl)⟩
  have hkeep {off : ℕ} {v : BitVec 32} (hw : MiimWrite off v) {s : Cmic} (hs : MiimFresh n s) :
      MiimWp (fun _ => MiimFresh n) (bdeWrite off v) s :=
    wp_miimWrite (stable_miimFresh n) (fun s s' h hc => h.continues hc) hw hs
  have htrigger {s : Cmic} (hs : MiimFresh n s) :
      MiimWp (fun _ => MiimRunning n) (bdeWrite CMIC_MIIM_CTRL set) s := by
    refine wp_write (stable_miimFresh n) (fun s hs => ?_) (stable_miimRunning n) hs
    have hbits : (set &&& 0x7f).toNat ∉ schanBits ∧ (set &&& 0x7f).toNat ≠ 18 ∧
        ¬ SetsBit set 0 ∧ ¬ SetsBit set 2 ∧ (SetsBit set 16 ∨ SetsBit set 17) := by
      simp only [List.mem_cons, List.not_mem_nil, or_false] at hset
      rcases hset with rfl | rfl
      all_goals decide
    obtain ⟨hschan, hdone, h₀, h₂, hmiim⟩ := hbits
    refine ⟨leavesSchan_ctrl hschan s, .inl ?_⟩
    have hclear : ((cmic.write s CMIC_MIIM_CTRL set).reg CMIC_MIIM_CTRL).getLsbD 18 = false :=
      ((getLsbD_write_ctrl s set (by omega)).trans (if_neg hdone.symm)).trans hs.clear
    rw [miimCtrl_eq, cmic_write_trigger h₀ h₂ hmiim] at hclear ⊢
    exact ⟨rfl, congrArg (· + 1) hs.started, hclear⟩
  refine wp_seq hreset fun _ s hs => wp_seq (hdone hs) fun _ s hs => ?_
  refine wp_seq (hkeep (.inl rfl) hs) fun _ s hs => ?_
  refine wp_seq (hkeep (.inr (.inl rfl)) hs) fun _ s hs => ?_
  exact wp_seq (htrigger hs) hf

/-- How an operation ends: at rest, and with 0 only after its transaction. -/
structure MiimReturns {α : Type} (n : ℕ) (rc : Rc α) (s : Cmic) : Prop where
  idle : s.miimBusy = false
  completed : ∀ a, rc = .ok a → MiimCompleted n s

theorem stable_miimReturns {α : Type} (n : ℕ) (rc : Rc α) :
    Stable MiimRely (MiimReturns n rc) := by
  intro s s' h hR
  refine ⟨(stable_miimAtRest s.miimStarted s s' ⟨h.idle, rfl⟩ hR).idle, fun a ha => ?_⟩
  obtain ⟨hstarted, hend⟩ := h.completed a ha
  have hended := stable_miimEnded n s s' ⟨⟨h.idle, hstarted⟩, hend⟩ hR
  exact ⟨hended.started, hended.ended⟩

/-- The last poll resets the state, which ends the transaction. -/
theorem wp_miim_timeout {α : Type} {n : ℕ} {clr : BitVec 32}
    (hclr : clr ∈ [MIIM_CLR_READ, MIIM_CLR_WRITE]) (s : Cmic) :
    MiimWp (MiimReturns n) (do bdeWrite CMIC_MIIM_CTRL clr; return (.error .eio : Rc α)) s := by
  have hw : MiimWrite CMIC_MIIM_CTRL clr := .inr (.inr ⟨rfl, List.mem_append_left _ hclr⟩)
  have hreset : ClearsBit clr 16 ∨ ClearsBit clr 17 := by
    simp only [List.mem_cons, List.not_mem_nil, or_false] at hclr
    rcases hclr with rfl | rfl
    all_goals decide
  have hret (s : Cmic) (hidle : s.miimBusy = false) : MiimReturns n (.error .eio : Rc α) s :=
    ⟨hidle, fun a ha => by cases ha⟩
  have hidle : MiimWp (fun _ => MiimReturns n (.error .eio : Rc α)) (bdeWrite CMIC_MIIM_CTRL clr)
      s := by
    refine wp_write (P := fun _ => True) (fun _ _ _ _ => trivial) (fun s _ => ?_)
      (stable_miimReturns n _) trivial
    refine ⟨(hw.leaves s).1, hret _ ?_⟩
    have hclears : clr.getLsbD 7 = false := hreset.elim And.left And.left
    rw [miimCtrl_eq, cmic_write_clears hclears, if_pos hreset]
  exact wp_seq hidle fun _ s hs => wp_pure (stable_miimReturns n _) hs

/-- DONE as the poll reads it comes from the transaction that was triggered. -/
theorem wp_miim_poll_read {n : ℕ} {s : Cmic} (hs : MiimRunning n s) :
    MiimWp (fun ctrl s => MiimRunning n s ∧ (ctrl &&& CMIC_MIIM_CTRL_DONE ≠ 0 → MiimEnded n s))
      (bdeRead CMIC_MIIM_CTRL) s := by
  refine wp_read (stable_miimRunning n) (fun s hs => ?_) (fun ctrl s s' h hR => ?_) hs
  · refine ⟨leavesSchan_refl s, hs, fun hdone => ?_⟩
    rcases hs with ⟨-, -, hclear⟩ | hended
    · exact absurd ((and_bit_eq_zero_iff _ (by omega)).mpr hclear) hdone
    · exact hended
  · exact ⟨stable_miimRunning n s s' h.1 hR, fun hdone => stable_miimEnded n s s' (h.2 hdone) hR⟩

theorem MiimEnded.returns {α : Type} {n : ℕ} {s : Cmic} (h : MiimEnded n s) (a : α) :
    MiimReturns n (.ok a) s := ⟨h.idle, fun _ _ => ⟨h.started, h.ended⟩⟩

theorem wp_clr_done {α : Type} {n : ℕ} {s : Cmic} (hs : MiimEnded n s) (a : α) :
    MiimWp (MiimReturns n) (do bdeWrite CMIC_MIIM_CTRL MIIM_CLR_DONE; return (.ok a : Rc α)) s :=
  wp_seq (wp_miimWrite (stable_miimEnded n) (fun s s' h hc => h.continues hc)
    (.inr (.inr ⟨rfl, by decide⟩)) hs)
    fun _ s hs => wp_pure (stable_miimReturns n _) (hs.returns a)

theorem wp_miimWritePoll {n : ℕ} (polls : ℕ) {s : Cmic} (hs : MiimRunning n s) :
    MiimWp (MiimReturns n) (miimWritePoll polls) s := by
  induction polls generalizing s with
  | zero => exact wp_miim_timeout (by decide) s
  | succ polls ih =>
    refine wp_seq (wp_miim_poll_read hs) fun ctrl s ⟨hs, hend⟩ => ?_
    split_ifs with hdone
    · exact wp_clr_done (hend hdone) ()
    · exact ih hs

theorem wp_miimReadPoll {n : ℕ} (polls : ℕ) {s : Cmic} (hs : MiimRunning n s) :
    MiimWp (MiimReturns n) (miimReadPoll polls) s := by
  induction polls generalizing s with
  | zero => exact wp_miim_timeout (by decide) s
  | succ polls ih =>
    refine wp_seq (wp_miim_poll_read hs) fun ctrl s ⟨hs, hend⟩ => ?_
    split_ifs with hdone
    · have hval : MiimWp (fun _ => MiimEnded n) (bdeRead CMIC_MIIM_READ_DATA) s :=
        wp_read (stable_miimEnded n) (fun s h => ⟨leavesSchan_refl s, h⟩)
          (fun _ => stable_miimEnded n) (hend hdone)
      exact wp_seq hval fun val s hs => wp_clr_done hs _
    · exact ih hs

theorem MiimReturns.map {α β : Type} {n : ℕ} {rc : Rc α} {s : Cmic} (h : MiimReturns n rc s)
    (f : α → β) : MiimReturns n (rc.map f) s := by
  refine ⟨h.idle, fun b hb => ?_⟩
  cases rc with
  | error e => cases hb
  | ok a => exact h.completed a rfl

/-- From an engine at rest a transaction keeps off the S-Channel and returns 0 only once
it has completed. -/
theorem wp_miimOp (op : MiimOp) {n : ℕ} {s : Cmic} (hs : MiimAtRest n s) :
    MiimWp (MiimReturns n) op.run s := by
  cases op with
  | write phyAddr busId reg data =>
    refine wp_seq (wp_miimTrigger (by decide) (by decide)
      (fun _ s hs => wp_miimWritePoll MIIM_POLL_MAX hs) hs) fun rc s hs => ?_
    exact wp_pure (stable_miimReturns n _) (hs.map _)
  | read phyAddr busId reg =>
    refine wp_seq (wp_miimTrigger (by decide) (by decide)
      (fun _ s hs => wp_miimReadPoll MIIM_POLL_MAX hs) hs) fun rc s hs => ?_
    exact wp_pure (stable_miimReturns n _) (hs.map _)

end OpenNos.Sdk
