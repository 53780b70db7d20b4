import OpenNos.Bde.Cmic

/-! What an S-Channel operation leaves behind. The device may overwrite any register
while an operation is in flight, MISC_CONTROL among them, and is quiet once it has
been aborted. Every way out of the operation aborts, clears the control bits one by
one and restores MISC_CONTROL as it was found, so the registers are clean whatever the
device did; only a caller interrupted before it has the mutex leaves them as they were. -/

namespace OpenNos.Bde

open Bits RegProg

/-- What the device may do: anything while an operation is in flight, and then
nothing to MISC_CONTROL and the bits of the S-Channel. -/
structure DeviceMoves (s s' : Cmic) : Prop where
  mutex : s'.schanMutex = s.schanMutex
  quiet : s.schanBusy = false → s'.schanBusy = false ∧
    s'.reg CMIC_MISC_CONTROL = s.reg CMIC_MISC_CONTROL ∧
    ∀ b ∈ schanBits, (s'.reg CMICE_SCHAN_CTRL).getLsbD b = (s.reg CMICE_SCHAN_CTRL).getLsbD b

/-- The engine is at rest and MISC_CONTROL has this value. -/
structure Rests (misc : BitVec 32) (s : Cmic) : Prop where
  idle : s.schanBusy = false
  misc : s.reg CMIC_MISC_CONTROL = misc

/-- The engine is at rest and these bits of the control register are clear. -/
structure Cleared (bs : List ℕ) (s : Cmic) : Prop where
  idle : s.schanBusy = false
  clear : ∀ b ∈ bs, (s.reg CMICE_SCHAN_CTRL).getLsbD b = false

/-- The bits of the S-Channel clear, the mutex released. -/
structure Clean (s : Cmic) : Prop where
  clear : ∀ b ∈ schanBits, (s.reg CMICE_SCHAN_CTRL).getLsbD b = false
  released : s.schanMutex = false

/-- The driver's preconditions under such a device; nobody relies on the driver. -/
abbrev DriverWp {α : Type} (Q : α → Cmic → Prop) (p : Pio α) (s : Cmic) : Prop :=
  Wp cmic DeviceMoves (fun _ _ => True) Q p s

theorem stable_rests (misc : BitVec 32) : Stable DeviceMoves (Rests misc) := by
  intro s s' h hR
  obtain ⟨hidle, hmisc, -⟩ := hR.quiet h.idle
  exact ⟨hidle, hmisc.trans h.misc⟩

theorem stable_cleared {bs : List ℕ} (hbs : bs ⊆ schanBits) : Stable DeviceMoves (Cleared bs) := by
  intro s s' h hR
  obtain ⟨hidle, -, hbits⟩ := hR.quiet h.idle
  exact ⟨hidle, fun b hb => (hbits b (hbs hb)).trans (h.clear b hb)⟩

/-- A program nobody asks anything of. -/
theorem driverWp_true {α : Type} (p : Pio α) (s : Cmic) : DriverWp (fun _ _ => True) p s := by
  induction p generalizing s with
  | ret a => exact fun _ _ => trivial
  | read r k ih => exact fun _ _ => ⟨trivial, ih _ _⟩
  | write r v k ih => exact fun _ _ => ⟨trivial, ih _⟩
  | event e k ih => exact fun _ _ => ⟨trivial, ih _⟩

/-! ### The abort -/

/-- Clearing one more bit. -/
theorem Cleared.clr {bs : List ℕ} {s : Cmic} (h : Cleared bs s) (hbs : bs ⊆ schanBits)
    {v : BitVec 32} {b : ℕ} (hv : v.getLsbD 7 = false) (hb : (v &&& 0x7f).toNat = b)
    (hmem : b ∈ schanBits) : Cleared (b :: bs) (cmic.write s CMICE_SCHAN_CTRL v) := by
  have hlt := lt_of_mem_schanBits hmem
  have hmiim : b ≠ 16 ∧ b ≠ 17 := by
    simp only [schanBits, List.mem_cons, List.not_mem_nil, or_false] at hmem
    omega
  rw [cmic_write_clr hv (by rwa [hb])]
  refine ⟨h.idle, List.forall_mem_cons.mpr ⟨?_, fun c hc => ?_⟩⟩
  · rw [getLsbD_setCtrl s v hlt, if_pos hb.symm, hv]
  · rw [getLsbD_setCtrl s v (lt_of_mem_schanBits (hbs hc)), hv]
    split_ifs
    · rfl
    · exact h.clear c hc

theorem wp_clr {bs : List ℕ} {v : BitVec 32} {b : ℕ} (hbs : b :: bs ⊆ schanBits)
    (hv : v.getLsbD 7 = false) (hb : (v &&& 0x7f).toNat = b) {s : Cmic} (hs : Cleared bs s) :
    DriverWp (fun _ => Cleared (b :: bs)) (iowrite32 v CMICE_SCHAN_CTRL) s := by
  obtain ⟨hmem, hbs'⟩ := List.cons_subset.mp hbs
  exact wp_write (stable_cleared hbs') (fun s h => ⟨trivial, h.clr hbs' hv hb hmem⟩)
    (stable_cleared hbs) hs

/-- After an abort the engine rests with its bits clear, whatever it was doing. -/
theorem wp_abort (s : Cmic) : DriverWp (fun _ => Cleared schanBits) cmiceSchanAbort s := by
  have hset : DriverWp (fun _ => Cleared []) (iowrite32 CMICE_SET_ABORT CMICE_SCHAN_CTRL) s :=
    wp_write (P := fun _ => True) (fun _ _ _ _ => trivial)
      (fun s _ => ⟨trivial, rfl, fun _ hb => absurd hb List.not_mem_nil⟩)
      (stable_cleared (List.nil_subset _)) trivial
  have hdelay {s : Cmic} (h : Cleared [] s) :
      DriverWp (fun _ => Cleared []) (mark (.udelay 100)) s :=
    wp_mark (stable_cleared (List.nil_subset _)) (fun s h => ⟨trivial, h⟩)
      (stable_cleared (List.nil_subset _)) h
  refine wp_seq hset fun _ s hs => wp_seq (hdelay hs) fun _ s hs => ?_
  refine wp_seq (wp_clr (b := 2) (by decide) (by decide) (by decide) hs) fun _ s hs => ?_
  refine wp_seq (wp_clr (b := 0) (by decide) (by decide) (by decide) hs) fun _ s hs => ?_
  refine wp_seq (wp_clr (b := 1) (by decide) (by decide) (by decide) hs) fun _ s hs => ?_
  refine wp_seq (wp_clr (b := 20) (by decide) (by decide) (by decide) hs) fun _ s hs => ?_
  refine wp_seq (wp_clr (b := 21) (by decide) (by decide) (by decide) hs) fun _ s hs => ?_
  refine wp_mono ?_ (wp_clr (b := 22) (by decide) (by decide) (by decide) hs)
  exact fun _ s h => ⟨h.idle, fun b hb => h.clear b (by revert b; decide)⟩

/-- MISC_CONTROL is restored and the bits are clear. -/
structure Restored (misc : BitVec 32) (s : Cmic) : Prop extends Rests misc s, Cleared schanBits s

theorem stable_restored (misc : BitVec 32) : Stable DeviceMoves (Restored misc) := by
  intro s s' h hR
  exact ⟨stable_rests misc s s' h.toRests hR,
    (stable_cleared (List.Subset.refl _) s s' h.toCleared hR).clear⟩

theorem wp_abort_restore {α : Type} (misc : BitVec 32) (a : α) (s : Cmic) :
    DriverWp (fun _ => Restored misc)
      (do cmiceSchanAbort; iowrite32 misc CMIC_MISC_CONTROL; return a) s := by
  refine wp_seq (wp_abort s) fun _ s hs => ?_
  have hmisc : DriverWp (fun _ => Restored misc) (iowrite32 misc CMIC_MISC_CONTROL) s := by
    refine wp_write (stable_cleared (List.Subset.refl _)) (fun s hs => ⟨trivial, ?_⟩)
      (stable_restored misc) hs
    have hne : CMICE_SCHAN_CTRL ≠ CMIC_MISC_CONTROL := by decide
    rw [cmic_write_of_ne (by decide)]
    refine ⟨⟨hs.idle, by simp⟩, fun b hb => ?_⟩
    simp only [Function.update_of_ne hne]
    exact hs.clear b hb
  refine wp_seq hmisc fun _ s hs => ?_
  exact wp_pure (Q := fun _ => Restored misc) (stable_restored misc) hs

theorem wp_schanPoll (misc : BitVec 32) (data : Option Words) (dataWords : ℤ) (polls : ℕ)
    (s : Cmic) : DriverWp (fun _ => Restored misc) (schanPoll misc data dataWords polls) s := by
  induction polls generalizing s with
  | zero => exact wp_abort_restore misc _ s
  | succ polls ih =>
    refine wp_seq (driverWp_true _ s) fun ctrl s _ => ?_
    split_ifs
    · exact wp_abort_restore misc _ s
    · exact wp_seq (driverWp_true _ s) fun _ s _ => wp_abort_restore misc _ s
    · exact wp_seq (driverWp_true _ s) fun _ s _ => ih s

/-! ### The operation -/

/-- What is left when the mutex has been released: the registers restored and clean. -/
structure LeftClean (misc : BitVec 32) (s : Cmic) : Prop extends Rests misc s, Clean s

theorem stable_leftClean (misc : BitVec 32) : Stable DeviceMoves (LeftClean misc) := by
  intro s s' h hR
  obtain ⟨-, -, hbits⟩ := hR.quiet h.idle
  exact ⟨stable_rests misc s s' h.toRests hR, fun b hb => (hbits b hb).trans (h.clear b hb),
    hR.mutex.trans h.released⟩

/-- The lengths the driver accepts. -/
structure SchanLens (cmdWords dataWords : ℤ) : Prop where
  cmd_pos : 0 < cmdWords
  cmd_le : cmdWords ≤ SCHAN_MAX_MSG_WORDS
  data_nonneg : 0 ≤ dataWords
  data_le : dataWords ≤ SCHAN_MAX_MSG_WORDS

section Operation
variable {env : SchanEnv} (hprobed : env.probed = true) {cmdWords dataWords : ℤ}
  (hlens : SchanLens cmdWords dataWords)
include hprobed hlens

theorem nosBdeSchanOp_of_lens (cmd : Words) (data : Option Words) :
    nosBdeSchanOp env cmd cmdWords data dataWords =
      if env.interrupted then return .error .eintr
      else do
        mark .lockSchanMutex
        let savedMisc ← ioread32 CMIC_MISC_CONTROL
        let ctrl ← ioread32 CMICE_SCHAN_CTRL
        onlyIf (ctrl ≠ 0) cmiceSchanAbort
        writeCmd cmd 0 cmdWords.toNat
        onlyIf (cmdWords > 7) (iowrite32 savedMisc CMIC_MISC_CONTROL)
        iowrite32 CMICE_SET_START CMICE_SCHAN_CTRL
        let result ← schanPoll savedMisc data dataWords env.polls
        mark .unlockSchanMutex
        return .ok result := by
  obtain ⟨h₁, h₂, h₃, h₄⟩ := hlens
  rw [nosBdeSchanOp, if_neg]
  rintro (h | h | h | h | h)
  · simp [hprobed] at h
  all_goals omega

/-- Whatever the device does, an operation that gets the mutex leaves the registers clean and
puts back the MISC_CONTROL that it read, of which what holds on entry tells something. -/
theorem wp_nosBdeSchanOp (hint : env.interrupted = false) (cmd : Words) (data : Option Words)
    {P : Cmic → Prop} {Q : BitVec 32 → Prop} (hP : Stable DeviceMoves P)
    (hlock : ∀ s, P s → P (cmic.event s .lockSchanMutex))
    (hmisc : ∀ s, P s → Q (s.reg CMIC_MISC_CONTROL)) {s : Cmic} (hs : P s) :
    DriverWp (fun rc s => (∃ r, rc = .ok r) ∧ Clean s ∧ Q (s.reg CMIC_MISC_CONTROL))
      (nosBdeSchanOp env cmd cmdWords data dataWords) s := by
  have hmutex : DriverWp (fun _ => P) (mark .lockSchanMutex) s :=
    wp_mark hP (fun s h => ⟨trivial, hlock s h⟩) hP hs
  have hread {s : Cmic} (h : P s) : DriverWp (fun v _ => Q v) (ioread32 CMIC_MISC_CONTROL) s :=
    wp_read hP (fun s h => ⟨trivial, hmisc s h⟩) (fun _ _ _ h _ => h) h
  rw [nosBdeSchanOp_of_lens hprobed hlens, hint]
  refine wp_seq hmutex fun _ s hs => wp_seq (hread hs) fun savedMisc s hsaved => ?_
  -- from here on the device may do anything until the last abort
  refine wp_seq (driverWp_true _ s) fun ctrl s _ => ?_
  refine wp_seq (driverWp_true _ s) fun _ s _ => ?_
  refine wp_seq (driverWp_true _ s) fun _ s _ => ?_
  refine wp_seq (driverWp_true _ s) fun _ s _ => ?_
  refine wp_seq (driverWp_true _ s) fun _ s _ => ?_
  refine wp_seq (wp_schanPoll savedMisc data dataWords env.polls s) fun r s hs => ?_
  have hunlock : DriverWp (fun _ => LeftClean savedMisc) (mark .unlockSchanMutex) s :=
    wp_mark (stable_restored savedMisc) (fun s h => ⟨trivial, ⟨h.idle, h.misc⟩, h.clear, rfl⟩)
      (stable_leftClean savedMisc) hs
  refine wp_seq hunlock fun _ s hs => ?_
  have hret : DriverWp (fun (rc : Rc (ℤ × Option Words)) s => (∃ r, rc = .ok r) ∧
      LeftClean savedMisc s) (pure (.ok r)) s :=
    wp_pure (fun s s' h hR => ⟨h.1, stable_leftClean savedMisc s s' h.2 hR⟩) ⟨⟨r, rfl⟩, hs⟩
  exact wp_mono (fun rc s h => ⟨h.1, h.2.toClean, by rwa [h.2.misc]⟩) hret

/-- An operation that gets the mutex leaves the control bits and the mutex clean, and, if the
engine was at rest, MISC_CONTROL as it was; an interrupted one touches nothing. -/
theorem nosBdeSchanOp_leavesClean (cmd : Words) (data : Option Words) (s : Cmic) :
    if env.interrupted then nosBdeSchanOp env cmd cmdWords data dataWords = pure (.error .eintr)
    else Returns cmic DeviceMoves (nosBdeSchanOp env cmd cmdWords data dataWords) s
      fun rc s' => (∃ r, rc = .ok r) ∧ Clean s' ∧
        (s.schanBusy = false → s'.reg CMIC_MISC_CONTROL = s.reg CMIC_MISC_CONTROL) := by
  split_ifs with hint
  · rw [nosBdeSchanOp_of_lens hprobed hlens, if_pos hint]
  · have hint' : env.interrupted = false := by simpa using hint
    by_cases hidle : s.schanBusy = false
    · have hwp := wp_nosBdeSchanOp hprobed hlens hint' cmd data (Q := (· = s.reg CMIC_MISC_CONTROL))
        (stable_rests (s.reg CMIC_MISC_CONTROL)) (fun _ h => ⟨h.idle, h.misc⟩) (fun _ h => h.misc)
        ⟨hidle, rfl⟩
      exact (wp_mono (fun _ _ h => ⟨h.1, h.2.1, fun _ => h.2.2⟩) hwp).returns
    · have hwp := wp_nosBdeSchanOp hprobed hlens hint' cmd data (P := fun _ => True)
        (Q := fun _ => True) (fun _ _ _ _ => trivial) (fun _ _ => trivial) (fun _ _ => trivial)
        (s := s) trivial
      exact (wp_mono (fun _ _ h => ⟨h.1, h.2.1, fun hrest => absurd hrest hidle⟩) hwp).returns

end Operation

theorem nosBdeSchanOp_leavesClean_oneWord :
    readyEnv.probed = true ∧ SchanLens 1 16 ∧ readyEnv.interrupted = false ∧
      Returns cmic DeviceMoves
        (nosBdeSchanOp readyEnv.toSchanEnv (fun _ => 0x2C800200) 1 (some fun _ => 0) 16)
        (restingCmic 0) fun rc s' => (∃ r, rc = .ok r) ∧ Clean s' ∧
          ((restingCmic 0).schanBusy = false → s'.reg CMIC_MISC_CONTROL = 1) := by
  have hlens : SchanLens 1 16 := ⟨by decide, by decide, by decide, by decide⟩
  have hprobed : readyEnv.probed = true := rfl
  exact ⟨hprobed, hlens, rfl, nosBdeSchanOp_leavesClean hprobed hlens (fun _ => 0x2C800200)
    (some fun _ => 0) (restingCmic 0)⟩

/-- An operation of which nobody waits for the end: MISC_CONTROL may change any time. -/
def straySchan : Cmic := { restingCmic 0 with schanBusy := true }

/-- A signal while the caller waits for the mutex: a stale DONE stays. A stray operation
overwrites MISC_CONTROL before the driver reads it: the new value stays. -/
theorem nosBdeSchanOp_leavesClean_fails :
    (¬ ∀ (env : SchanEnv) (cmdWords dataWords : ℤ) (cmd : Words) (data : Option Words) (s : Cmic),
      env.probed = true → SchanLens cmdWords dataWords → s.schanBusy = false →
      Returns cmic DeviceMoves (nosBdeSchanOp env cmd cmdWords data dataWords) s
        fun _ s' => Clean s' ∧ s'.reg CMIC_MISC_CONTROL = s.reg CMIC_MISC_CONTROL) ∧
    ¬ ∀ (env : SchanEnv) (cmdWords dataWords : ℤ) (cmd : Words) (data : Option Words) (s : Cmic),
      env.probed = true → SchanLens cmdWords dataWords → env.interrupted = false →
      Returns cmic DeviceMoves (nosBdeSchanOp env cmd cmdWords data dataWords) s
        fun _ s' => Clean s' ∧ s'.reg CMIC_MISC_CONTROL = s.reg CMIC_MISC_CONTROL := by
  have hlens : SchanLens 1 16 := ⟨by decide, by decide, by decide, by decide⟩
  constructor
  · intro h
    obtain ⟨hclean, -⟩ := h ⟨true, true, 1⟩ 1 16 (fun _ => 0) none (restingCmic SCHAN_CTRL_DONE) rfl
      hlens rfl (.error .eintr) (restingCmic SCHAN_CTRL_DONE) .refl
    exact absurd (hclean.clear 1 (by decide)) (by decide)
  · intro h
    let found : Cmic :=
      { restingCmic 0 with reg := Function.update (fun _ => 0) CMIC_MISC_CONTROL 5 }
    have hmoves : DeviceMoves straySchan found := ⟨rfl, nofun⟩
    let p := nosBdeSchanOp readyEnv.toSchanEnv (fun _ => 0) 1 none 16
    obtain ⟨rc, s', hrun⟩ := exists_run cmic DeviceMoves p found
    have hprobed : readyEnv.toSchanEnv.probed = true := rfl
    have hkept := wp_nosBdeSchanOp hprobed hlens rfl (fun _ => 0) none (Q := (· = 5))
      (stable_rests 5) (fun _ h => ⟨h.idle, h.misc⟩) (fun _ h => h.misc) (s := found) ⟨rfl, rfl⟩
    obtain ⟨-, -, hfive⟩ := hkept.returns rc s' hrun
    obtain ⟨-, hone⟩ := h readyEnv.toSchanEnv 1 16 (fun _ => 0) none straySchan rfl hlens rfl rc s'
      (.head (.others hmoves) hrun)
    exact absurd (hfive.symm.trans hone) (by decide)

end OpenNos.Bde
