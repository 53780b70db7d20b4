import OpenNos.Sdk.MiimSide
import OpenNos.Sdk.SchanSide

/-! The S-Channel operation and the MIIM operation in every interleaving of their
accesses: what each side was shown to rely on, the other side guarantees. -/

namespace OpenNos.Sdk

open Bits RegProg Bde

/-- What holds of two drivers at any point of an interleaving that began in `s₀`. -/
structure Undisturbed (s₀ : Cmic)
    (c : Pair Cmic ℕ (BitVec 32) KernelEvent KernelEvent (Rc (ℤ × Option Words))
      (Rc (Option (BitVec 16)))) : Prop where
  schan : ∀ data, c.1 = .ret (.ok (0, data)) → SchanSucceeded s₀.schanStarted c.2.2
  miim : ∀ data, c.2.1 = .ret (.ok data) → MiimCompleted s₀.miimStarted c.2.2
  schanRests : ∀ rc, c.1 = .ret rc → c.2.2.schanBusy = false
  miimRests : ∀ rc, c.2.1 = .ret rc → c.2.2.miimBusy = false
  leavesMiim : ∀ p s, next cmic c.1 c.2.2 = some (p, s) → LeavesMiim c.2.2 s
  leavesSchan : ∀ q s, next cmic c.2.1 c.2.2 = some (q, s) → LeavesSchan c.2.2 s

/-- Every pair that comes up in an interleaving of the two drivers is undisturbed. -/
def Coexist (schan : Pio (Rc (ℤ × Option Words)))
    (miim : Reg KernelEvent (Rc (Option (BitVec 16)))) (s : Cmic) : Prop :=
  ∀ c, Reaches cmic cmic Engines (fun _ _ => True) (fun _ _ => True) (schan, miim, s) c →
    Undisturbed s c

/-- The two engines share the control register without disturbing each other. -/
theorem schan_miim_coexist (env : SchanEnv) (cmd : Words) {cmdWords : ℤ} (hlen : cmdWords ≤ 16)
    (data : Option Words) (dataWords : ℤ) (op : MiimOp) {s : Cmic} (hschan : s.schanBusy = false)
    (hmiim : s.miimBusy = false) :
    Coexist (nosBdeSchanOp env cmd cmdWords data dataWords) op.run s := by
  rintro ⟨p, q, s'⟩ hrun
  have hdevice (s s' : Cmic) (h : Engines s s') : SchanRely s s' ∧ MiimRely s s' := by
    rcases h with h | h
    · exact ⟨.inr h, .inl h.miim⟩
    · exact ⟨.inl h.schan, .inr h⟩
  obtain ⟨hp, hq⟩ := Wp.par (wp_nosBdeSchanOp_status env cmd hlen data dataWords ⟨hschan, rfl⟩)
    (wp_miimOp op ⟨hmiim, rfl⟩) hdevice (fun _ _ h _ => .inl h) (fun _ _ h _ => .inl h) hrun
  constructor
  · rintro data rfl
    exact hp.ret.succeeded data rfl
  · rintro data rfl
    exact hq.ret.completed data rfl
  · rintro rc rfl
    exact hp.ret.idle
  · rintro rc rfl
    exact hq.ret.idle
  · exact fun p' s hn => (hp.next hn).1
  · exact fun q' s hn => (hq.next hn).1

theorem schan_miim_coexist_oneWord :
    (1 : ℤ) ≤ 16 ∧ (restingCmic 0).schanBusy = false ∧ (restingCmic 0).miimBusy = false ∧
      Coexist (nosBdeSchanOp readyEnv.toSchanEnv (fun _ => 0x2C800200) 1 (some fun _ => 0) 16)
        (MiimOp.run (.read 1 2 0x1f)) (restingCmic 0) :=
  ⟨by decide, rfl, rfl, schan_miim_coexist readyEnv.toSchanEnv (fun _ => 0x2C800200) (by decide)
    (some fun _ => 0) 16 (.read 1 2 0x1f) rfl rfl⟩

end OpenNos.Sdk
