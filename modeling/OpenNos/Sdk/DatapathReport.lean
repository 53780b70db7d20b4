import OpenNos.Sdk.InitDatapath

/-! What the datapath initialisation says about itself. Every phase but the XLPORT reset
ends in `return 0`, whatever its accesses returned, and the result of that reset is only
printed. The result is 0 for every sequence of replies, so it is right only when no
write fails. -/

namespace OpenNos.Sdk

open Bits OpProg Bde

/-- Success is reported exactly when every write issued succeeded. -/
def ReportsWrites (replies : ℕ → Option Words) : Prop :=
  let run := datapathInit.exec replies
  run.1 = 0 ↔ ∀ (n : ℕ) (o : SbusOp), run.2[n]? = some o → o.isWrite = true → (replies n).isSome

/-- An operation of the run that fails is a read. -/
def OnlyReadsFail (replies : ℕ → Option Words) : Prop :=
  ∀ (n : ℕ) (o : SbusOp), (datapathInit.exec replies).2[n]? = some o → replies n = none →
    o.isWrite = false

/-! ### The phases -/

theorem initIngressBuffers_returns : initIngressBuffers.Returns (· = 0) := by
  unfold initIngressBuffers
  repeat refine returns_discard fun _ => ?_
  exact returns_pure rfl

theorem initPriorityMapping_returns : initPriorityMapping.Returns (· = 0) := by
  unfold initPriorityMapping
  repeat refine returns_discard fun _ => ?_
  exact returns_pure rfl

theorem initForwarding_returns : initForwarding.Returns (· = 0) := by
  unfold initForwarding
  repeat refine returns_discard fun _ => ?_
  exact returns_pure rfl

theorem initEgressConfig_returns : initEgressConfig.Returns (· = 0) := by
  unfold initEgressConfig
  repeat refine returns_discard fun _ => ?_
  exact returns_pure rfl

theorem initThdoTables_returns : initThdoTables.Returns (· = 0) := by
  unfold initThdoTables
  repeat refine returns_discard fun _ => ?_
  exact returns_pure rfl

theorem initScheduling_returns : initScheduling.Returns (· = 0) := by
  unfold initScheduling
  repeat refine returns_discard fun _ => ?_
  exact returns_pure rfl

theorem initPortPipeline_returns : initPortPipeline.Returns (· = 0) := by
  unfold initPortPipeline
  repeat refine returns_discard fun _ => ?_
  exact returns_pure rfl

theorem initVlanPhase_returns : initVlanPhase.Returns (· = 0) := by
  unfold initVlanPhase
  repeat refine returns_discard fun _ => ?_
  exact returns_pure rfl

/-! ### The dispatcher -/

theorem phase_returns {init rest : Sbus ℤ} (hinit : init.Returns (· = 0))
    (hrest : rest.Returns (· = 0)) : (phase init rest).Returns (· = 0) := by
  refine returns_bind hinit fun rc hrc => ?_
  rw [if_neg (by omega)]
  exact hrest

theorem datapathInit_returns : datapathInit.Returns (· = 0) := by
  refine phase_returns initIngressBuffers_returns <|
    phase_returns initPriorityMapping_returns <| phase_returns initForwarding_returns <|
    phase_returns initEgressConfig_returns <| phase_returns initThdoTables_returns <|
    phase_returns initScheduling_returns <| returns_discard fun _ => ?_
  exact phase_returns initPortPipeline_returns <| phase_returns initVlanPhase_returns <|
    returns_pure rfl

/-- The initialisation reports its writes faithfully exactly when none of them fails. -/
theorem reportsWrites_iff (replies : ℕ → Option Words) :
    ReportsWrites replies ↔ OnlyReadsFail replies := by
  have hzero : (datapathInit.exec replies).1 = 0 := datapathInit_returns.exec replies
  constructor
  · intro hreports n o hissued hfail
    by_contra hwrite
    have hok := hreports.1 hzero n o hissued (by simpa using hwrite)
    rw [hfail] at hok
    exact absurd hok (by simp)
  · intro honly
    refine ⟨fun _ n o hissued hwrite => ?_, fun _ => hzero⟩
    by_contra hfail
    have hread := honly n o hissued (by simpa using hfail)
    rw [hwrite] at hread
    exact absurd hread (by simp)

/-- When nothing succeeds the first write, of `COLOR_AWARE`, is lost unreported. -/
theorem reportsWrites_fails : ¬ ∀ replies, ReportsWrites replies := by
  intro hreports
  have hzero : (datapathInit.exec fun _ => none).1 = 0 := datapathInit_returns.exec _
  have hfirst : (datapathInit.exec fun _ => none).2[0]? = some (.regWrite COLOR_AWAREr 0) :=
    exec_starts rfl _
  have hok := (hreports fun _ => none).1 hzero 0 _ hfirst rfl
  exact absurd hok (by simp)

end OpenNos.Sdk
