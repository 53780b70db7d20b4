import Mathlib.Data.List.GetD
import OpenNos.Lib.History
import OpenNos.Sdk.Port

/-! Whether enabling a port touches only that port. The four lanes of a block share
one enable register, which `portEnableSet` never reads: it writes the register from
a shadow of its own, and the initialisation that turned every lane on left that
shadow at zero. -/

namespace OpenNos.Sdk

open History

structure EnableCall where
  port : ℤ
  enable : Bool

namespace EnableCall

/-- The port is one of the front panel's. -/
def Accepted (c : EnableCall) : Prop := 1 ≤ c.port ∧ c.port ≤ 52

def perform (s : SdkState) (c : EnableCall) : SdkState × Rc Unit := portEnableSet s c.port c.enable

def step (s : SdkState) (c : EnableCall) : SdkState := (c.perform s).1

end EnableCall

/-- Where a front-panel port sits. -/
def blockLane (port : ℤ) : BlockLane := (xeToBlockLane (port - 1)).getD ⟨0, 0, 0⟩

def BlockLane.enableAddr (b : BlockLane) : BitVec 32 := b.base + XLPORT_PORT_ENABLE_OFF

/-- The enable bit of the port in the hardware. -/
def Asic.portEnabled (a : Asic) (port : ℤ) : Bool :=
  (a.reg (blockLane port).enableAddr).getLsbD (blockLane port).lane

/-- What initialisation leaves in the enable registers: every lane of every block on. -/
def Asic.AllLanesEnabled (a : Asic) : Prop :=
  ∀ idx < 16, a.reg (xlportBlocks.getD idx 0 + XLPORT_PORT_ENABLE_OFF) = if idx < 12 then 0xf else 1

/-- What the call leaves in the register when its write goes through. -/
def SdkState.valueWritten (s : SdkState) (c : EnableCall) : BitVec 32 :=
  (c.step { s with asic := { s.asic with fault := fun _ => false } }).asic.reg
    (blockLane c.port).enableAddr

/-- The hardware keeps the enable bit of every other port. -/
def LeavesOtherPorts (s : SdkState) (c : EnableCall) : Prop :=
  ∀ port, 1 ≤ port → port ≤ 52 → port ≠ c.port →
    (c.step s).asic.portEnabled port = s.asic.portEnabled port

/-- If the write fails, then whatever is called in between, a later call on another
lane of the block writes what it would have written without this call. -/
def FailsWithoutTrace (s : SdkState) (c : EnableCall) : Prop :=
  (c.perform s).2 = .error .eio → ∀ (between : List EnableCall) (d : EnableCall), d.Accepted →
    d.port ≠ c.port → (blockLane d.port).blockIdx = (blockLane c.port).blockIdx →
      (run EnableCall.step (c.step s) between).valueWritten d =
        (run EnableCall.step { s with asic := s.asic.tick } between).valueWritten d

def OwnPortOnly (s : SdkState) (c : EnableCall) : Prop :=
  c.Accepted → LeavesOtherPorts s c ∧ FailsWithoutTrace s c

/-- The port has a block to itself, or the call is a disable whose write fails. -/
def TouchesNoLane (s : SdkState) (c : EnableCall) : Prop :=
  c.Accepted → 49 ≤ c.port ∨ (c.enable = false ∧ s.asic.fault 0 = true)

/-! ### Where the ports sit -/

section BlockLane

variable {port port' : ℤ}

theorem xeToBlockLane_of_front (h1 : 1 ≤ port) (h2 : port ≤ 52) :
    xeToBlockLane (port - 1) = some (blockLane port) := by
  have hrange : ¬ (port - 1 < 0 ∨ 51 < port - 1) := by omega
  simp only [blockLane, xeToBlockLane, if_neg hrange, Option.getD_some]

theorem blockLane_base (h1 : 1 ≤ port) (h2 : port ≤ 52) :
    (blockLane port).base = xlportBlocks.getD (blockLane port).blockIdx 0 := by
  have hrange : ¬ (port - 1 < 0 ∨ 51 < port - 1) := by omega
  simp only [blockLane, xeToBlockLane, if_neg hrange, Option.getD_some]

/-- The block of a port: four ports each, then one each. -/
theorem blockIdx_eq (h1 : 1 ≤ port) (h2 : port ≤ 52) : (blockLane port).blockIdx =
    if (port - 1).toNat ≤ 47 then (port - 1).toNat / 4 else (port - 1).toNat - 36 := by
  have hrange : ¬ (port - 1 < 0 ∨ 51 < port - 1) := by omega
  simp only [blockLane, xeToBlockLane, if_neg hrange, Option.getD_some]

theorem lane_eq (h1 : 1 ≤ port) (h48 : port ≤ 48) : (blockLane port).lane =
    if 20 ≤ (port - 1).toNat ∧ (port - 1).toNat ≤ 27 then
      permute20to23.getD ((port - 1).toNat % 4) 0
    else (port - 1).toNat % 4 := by
  have hrange : ¬ (port - 1 < 0 ∨ 51 < port - 1) := by omega
  have hlow : (port - 1).toNat ≤ 47 := by omega
  simp only [blockLane, xeToBlockLane, if_neg hrange, if_pos hlow, Option.getD_some]

theorem blockIdx_lt (h1 : 1 ≤ port) (h2 : port ≤ 52) : (blockLane port).blockIdx < 16 := by
  rw [blockIdx_eq h1 h2]
  split_ifs <;> omega

/-- The last four ports have a block each. -/
theorem blockIdx_lt_iff (h1 : 1 ≤ port) (h2 : port ≤ 52) :
    (blockLane port).blockIdx < 12 ↔ port ≤ 48 := by
  rw [blockIdx_eq h1 h2]
  split_ifs <;> omega

theorem lane_lt (h1 : 1 ≤ port) (h48 : port ≤ 48) : (blockLane port).lane < 4 := by
  have hperm : ∀ i < 4, permute20to23.getD i 0 < 4 := by decide
  rw [lane_eq h1 h48]
  split_ifs
  · exact hperm _ (Nat.mod_lt _ (by omega))
  · exact Nat.mod_lt _ (by omega)

/-- Two ports of a block have different lanes. -/
theorem lane_ne (h1 : 1 ≤ port) (h48 : port ≤ 48) (h1' : 1 ≤ port') (h48' : port' ≤ 48)
    (hne : port' ≠ port) (hblock : (blockLane port').blockIdx = (blockLane port).blockIdx) :
    (blockLane port').lane ≠ (blockLane port).lane := by
  have hperm : ∀ i < 4, ∀ j < 4, permute20to23.getD i 0 = permute20to23.getD j 0 → i = j := by
    decide
  rw [blockIdx_eq h1 (by omega), blockIdx_eq h1' (by omega), if_pos (by omega),
    if_pos (by omega)] at hblock
  rw [lane_eq h1 h48, lane_eq h1' h48']
  intro hlane
  by_cases hswap : 20 ≤ (port - 1).toNat ∧ (port - 1).toNat ≤ 27
  · rw [if_pos hswap, if_pos (by omega)] at hlane
    have hmod := hperm _ (Nat.mod_lt _ (by omega)) _ (Nat.mod_lt _ (by omega)) hlane
    omega
  · rw [if_neg hswap, if_neg (by omega)] at hlane
    omega

/-- A port with a block of its own. -/
theorem blockIdx_ne (h49 : 49 ≤ port) (h2 : port ≤ 52) (h1' : 1 ≤ port') (h2' : port' ≤ 52)
    (hne : port' ≠ port) : (blockLane port').blockIdx ≠ (blockLane port).blockIdx := by
  have hhigh : ¬ (port - 1).toNat ≤ 47 := by omega
  rw [blockIdx_eq (by omega) h2, blockIdx_eq h1' h2', if_neg hhigh]
  split_ifs <;> omega

/-- The other ports share a block. -/
theorem exists_same_block (h1 : 1 ≤ port) (h48 : port ≤ 48) :
    ∃ port' : ℤ, 1 ≤ port' ∧ port' ≤ 48 ∧ port' ≠ port ∧
      (blockLane port').blockIdx = (blockLane port).blockIdx := by
  have hblock {q : ℤ} (hq1 : 1 ≤ q) (hq48 : q ≤ 48) :
      (blockLane q).blockIdx = (q - 1).toNat / 4 := by
    rw [blockIdx_eq hq1 (by omega), if_pos (by omega)]
  by_cases hfirst : (port - 1).toNat % 4 = 0
  · refine ⟨port + 1, by omega, by omega, by omega, ?_⟩
    rw [hblock (by omega) (by omega), hblock h1 h48]
    omega
  · refine ⟨port - 1, by omega, by omega, by omega, ?_⟩
    rw [hblock (by omega) (by omega), hblock h1 h48]
    omega

theorem enableAddr_injective {idx idx' : ℕ} (h : idx < 16) (h' : idx' < 16)
    (haddr : xlportBlocks.getD idx' 0 + XLPORT_PORT_ENABLE_OFF =
      xlportBlocks.getD idx 0 + XLPORT_PORT_ENABLE_OFF) : idx' = idx := by
  have hnodup : xlportBlocks.Nodup := by decide
  have hbase := (BitVec.add_left_inj XLPORT_PORT_ENABLE_OFF).mp haddr
  rw [List.getD_eq_getElem _ _ (show idx < xlportBlocks.length from h),
    List.getD_eq_getElem _ _ (show idx' < xlportBlocks.length from h')] at hbase
  exact hnodup.getElem_inj_iff.mp hbase

theorem enableAddr_ne (h1 : 1 ≤ port) (h2 : port ≤ 52) {idx : ℕ} (hidx : idx < 16)
    (hne : idx ≠ (blockLane port).blockIdx) :
    xlportBlocks.getD idx 0 + XLPORT_PORT_ENABLE_OFF ≠ (blockLane port).enableAddr := by
  rw [BlockLane.enableAddr, blockLane_base h1 h2]
  exact fun h => hne (enableAddr_injective (blockIdx_lt h1 h2) hidx h)

end BlockLane

/-! ### One call -/

/-- The shadow with the bit of the lane set or cleared. -/
def laneValue (old : BitVec 32) (lane : ℕ) (enable : Bool) : BitVec 32 :=
  if enable then old ||| 1#32 <<< lane else old &&& ~~~(1#32 <<< lane)

theorem getLsbD_laneValue_self (old : BitVec 32) {lane : ℕ} (hlane : lane < 32) (enable : Bool) :
    (laneValue old lane enable).getLsbD lane = enable := by
  cases enable with
  | false => simp [laneValue, hlane]
  | true => simp [laneValue, hlane]

/-- The other lanes keep their bits. -/
theorem getLsbD_laneValue_of_ne (old : BitVec 32) {lane lane' : ℕ} (hne : lane' ≠ lane)
    (hlane : lane' < 32) (enable : Bool) :
    (laneValue old lane enable).getLsbD lane' = old.getLsbD lane' := by
  have hbit : (1#32 <<< lane).getLsbD lane' = false := by
    rcases Nat.lt_or_gt_of_ne hne with hlt | hgt
    · simp [hlt]
    · have hsub : lane' - lane ≠ 0 := by omega
      simp [BitVec.getLsbD_one, hsub]
  cases enable with
  | false =>
    simp only [laneValue, Bool.false_eq_true, if_false, BitVec.getLsbD_and, BitVec.getLsbD_not,
      hbit]
    simp [hlane]
  | true =>
    simp only [laneValue, if_true, BitVec.getLsbD_or, hbit, Bool.or_false]

variable {s : SdkState} {c d : EnableCall}

/-- The state after the shadow of the block has its new value. -/
def SdkState.withShadow (s : SdkState) (a : Asic) (c : EnableCall) : SdkState :=
  let b := blockLane c.port
  let val := laneValue (s.xlportEnableShadow b.blockIdx) b.lane c.enable
  { s with asic := a, xlportEnableShadow := Function.update s.xlportEnableShadow b.blockIdx val }

theorem EnableCall.perform_of_fault (hc : c.Accepted) (hfault : s.asic.fault 0 = true) :
    c.perform s = (s.withShadow s.asic.tick c, .error .eio) := by
  obtain ⟨h1, h2⟩ := hc
  have hrange : ¬ (c.port ≤ 0 ∨ 52 < c.port) := by omega
  rw [EnableCall.perform, portEnableSet, if_neg hrange, xeToBlockLane_of_front h1 h2]
  simp only [Asic.regWrite, if_pos hfault, SdkState.withShadow, laneValue, Bool.false_eq_true,
    if_false]

theorem EnableCall.perform_of_not_fault (hc : c.Accepted) (hfault : s.asic.fault 0 = false) :
    c.perform s = (s.withShadow { s.asic.tick with
      reg := Function.update s.asic.reg (blockLane c.port).enableAddr (laneValue
        (s.xlportEnableShadow (blockLane c.port).blockIdx) (blockLane c.port).lane c.enable) } c,
      .ok ()) := by
  obtain ⟨h1, h2⟩ := hc
  have hrange : ¬ (c.port ≤ 0 ∨ 52 < c.port) := by omega
  have hno : ¬ s.asic.fault 0 = true := by simp [hfault]
  rw [EnableCall.perform, portEnableSet, if_neg hrange, xeToBlockLane_of_front h1 h2]
  simp only [Asic.regWrite, if_neg hno, SdkState.withShadow, laneValue, BlockLane.enableAddr,
    if_true]

theorem EnableCall.perform_of_not_accepted (hc : ¬ c.Accepted) :
    c.perform s = (s, .error .einval) := by
  have hrange : c.port ≤ 0 ∨ 52 < c.port := by
    unfold EnableCall.Accepted at hc
    omega
  rw [EnableCall.perform, portEnableSet, if_pos hrange]

/-- A call that goes through writes the new shadow. -/
theorem EnableCall.step_reg_self (hc : c.Accepted) (hfault : s.asic.fault 0 = false) :
    (c.step s).asic.reg (blockLane c.port).enableAddr = laneValue
      (s.xlportEnableShadow (blockLane c.port).blockIdx) (blockLane c.port).lane c.enable := by
  rw [EnableCall.step, EnableCall.perform_of_not_fault hc hfault]
  simp only [SdkState.withShadow, Function.update_self]

/-- What a successful call writes is a matter of the shadow. -/
theorem valueWritten_eq (hd : d.Accepted) : s.valueWritten d = laneValue
    (s.xlportEnableShadow (blockLane d.port).blockIdx) (blockLane d.port).lane d.enable := by
  unfold SdkState.valueWritten
  rw [EnableCall.step_reg_self hd]
  rfl

theorem EnableCall.step_reg_of_ne (hc : c.Accepted) {addr : BitVec 32}
    (hne : addr ≠ (blockLane c.port).enableAddr) : (c.step s).asic.reg addr = s.asic.reg addr := by
  unfold EnableCall.step
  cases hfault : s.asic.fault 0 with
  | false =>
    rw [EnableCall.perform_of_not_fault hc hfault]
    simp only [SdkState.withShadow, Function.update_of_ne hne]
  | true =>
    rw [EnableCall.perform_of_fault hc hfault]
    rfl

theorem EnableCall.step_shadow (hc : c.Accepted) : (c.step s).xlportEnableShadow =
    Function.update s.xlportEnableShadow (blockLane c.port).blockIdx (laneValue
      (s.xlportEnableShadow (blockLane c.port).blockIdx) (blockLane c.port).lane c.enable) := by
  unfold EnableCall.step
  cases hfault : s.asic.fault 0 with
  | false =>
    rw [EnableCall.perform_of_not_fault hc hfault]
    rfl
  | true =>
    rw [EnableCall.perform_of_fault hc hfault]
    rfl

/-! ### The shadow of a block of four lanes never catches up with its register -/

/-- The lanes of the four-lane blocks are on in hardware and off in the shadow. -/
def ShadowBehind (s : SdkState) : Prop :=
  ∀ idx < 12, s.xlportEnableShadow idx = 0 ∧
    s.asic.reg (xlportBlocks.getD idx 0 + XLPORT_PORT_ENABLE_OFF) = 0xf

theorem shadowBehind_init {a : Asic} (h : a.AllLanesEnabled) : ShadowBehind (SdkState.init a) := by
  intro idx hidx
  refine ⟨rfl, ?_⟩
  have hreg := h idx (by omega)
  rwa [if_pos hidx] at hreg

theorem ShadowBehind.of_block (h : ShadowBehind s) (hc : c.Accepted) (h48 : c.port ≤ 48) :
    s.xlportEnableShadow (blockLane c.port).blockIdx = 0 ∧
      s.asic.reg (blockLane c.port).enableAddr = 0xf := by
  rw [BlockLane.enableAddr, blockLane_base hc.1 hc.2]
  exact h _ ((blockIdx_lt_iff hc.1 hc.2).mpr h48)

/-- Every lane of a block of four is on. -/
theorem ShadowBehind.portEnabled (h : ShadowBehind s) (hd : d.Accepted) (h48 : d.port ≤ 48) :
    s.asic.portEnabled d.port = true := by
  have hlane := lane_lt hd.1 h48
  rw [Asic.portEnabled, (h.of_block hd h48).2]
  interval_cases (blockLane d.port).lane <;> rfl

/-- A failing disable only uses up the fault. -/
theorem ShadowBehind.step_of_failing_disable (h : ShadowBehind s) (hc : c.Accepted)
    (h48 : c.port ≤ 48) (hoff : c.enable = false) (hfault : s.asic.fault 0 = true) :
    c.step s = { s with asic := s.asic.tick } := by
  have hzero := (h.of_block hc h48).1
  have hval : laneValue 0 (blockLane c.port).lane false =
      s.xlportEnableShadow (blockLane c.port).blockIdx := by
    simp [laneValue, hzero]
  rw [EnableCall.step, EnableCall.perform_of_fault hc hfault]
  simp only [SdkState.withShadow, hoff]
  rw [hzero, hval, Function.update_eq_self]

/-- A call that meets its condition keeps the four-lane blocks as they are. -/
theorem ShadowBehind.step (h : ShadowBehind s) (hc : TouchesNoLane s c) :
    ShadowBehind (c.step s) := by
  by_cases hacc : c.Accepted
  · by_cases h48 : c.port ≤ 48
    · obtain ⟨hoff, hfault⟩ := (hc hacc).resolve_left (by omega)
      rw [h.step_of_failing_disable hacc h48 hoff hfault]
      exact h
    · intro idx hidx
      have hblock : idx ≠ (blockLane c.port).blockIdx := by
        intro heq
        exact h48 ((blockIdx_lt_iff hacc.1 hacc.2).mp (heq ▸ hidx))
      rw [EnableCall.step_shadow hacc, Function.update_of_ne hblock,
        EnableCall.step_reg_of_ne hacc (enableAddr_ne hacc.1 hacc.2 (by omega) hblock)]
      exact h idx hidx
  · rw [EnableCall.step, EnableCall.perform_of_not_accepted hacc]
    exact h

/-- A port with a block of its own. -/
theorem ownPortOnly_of_single (hacc : c.Accepted) (h49 : 49 ≤ c.port) :
    LeavesOtherPorts s c ∧ FailsWithoutTrace s c := by
  constructor
  · intro port h1 h2 hne
    have hblock := blockIdx_ne h49 hacc.2 h1 h2 hne
    have haddr : (blockLane port).enableAddr ≠ (blockLane c.port).enableAddr := by
      rw [BlockLane.enableAddr, blockLane_base h1 h2]
      exact enableAddr_ne hacc.1 hacc.2 (blockIdx_lt h1 h2) hblock
    rw [Asic.portEnabled, Asic.portEnabled, EnableCall.step_reg_of_ne hacc haddr]
  · intro _ between d hd hne hblock
    exact absurd hblock (blockIdx_ne h49 hacc.2 hd.1 hd.2 hne)

theorem ShadowBehind.ownPortOnly (h : ShadowBehind s) (hc : TouchesNoLane s c) :
    OwnPortOnly s c := by
  intro hacc
  by_cases h48 : c.port ≤ 48
  · obtain ⟨hoff, hfault⟩ := (hc hacc).resolve_left (by omega)
    have hstep := h.step_of_failing_disable hacc h48 hoff hfault
    constructor
    · intro port _ _ _
      rw [hstep]
      rfl
    · intro _ between d _ _ _
      rw [hstep]
  · exact ownPortOnly_of_single hacc (by omega)

/-- Some other lane of the block. -/
theorem exists_neighbour (hc : c.Accepted) (h48 : c.port ≤ 48) (enable : Bool) :
    ∃ d : EnableCall, d.Accepted ∧ d.port ≤ 48 ∧ d.enable = enable ∧ d.port ≠ c.port ∧
      (blockLane d.port).blockIdx = (blockLane c.port).blockIdx ∧
      (blockLane d.port).lane ≠ (blockLane c.port).lane ∧ (blockLane d.port).lane < 32 := by
  obtain ⟨port, h1, h2, hne, hblock⟩ := exists_same_block hc.1 h48
  have h52 : port ≤ 52 := by omega
  have hlt := lane_lt h1 h2
  exact ⟨⟨port, enable⟩, ⟨h1, h52⟩, h2, rfl, hne, hblock, lane_ne hc.1 h48 h1 h2 hne hblock,
    by simp only; omega⟩

/-- A call that goes through turns the other lanes of the block off. -/
theorem ShadowBehind.not_leavesOtherPorts (h : ShadowBehind s) (hacc : c.Accepted)
    (h48 : c.port ≤ 48) (hfault : s.asic.fault 0 = false) : ¬ LeavesOtherPorts s c := by
  intro hleave
  obtain ⟨d, hd, hd48, -, hne, hblock, hlane, hlt⟩ := exists_neighbour hacc h48 false
  have haddr : (blockLane d.port).enableAddr = (blockLane c.port).enableAddr := by
    rw [BlockLane.enableAddr, BlockLane.enableAddr, blockLane_base hd.1 hd.2,
      blockLane_base hacc.1 hacc.2, hblock]
  have hkept := hleave d.port hd.1 hd.2 hne
  rw [h.portEnabled hd hd48, Asic.portEnabled, haddr, EnableCall.step_reg_self hacc hfault,
    getLsbD_laneValue_of_ne _ hlane hlt, (h.of_block hacc h48).1] at hkept
  simp at hkept

/-- An enable that fails leaves its bit in the shadow. -/
theorem ShadowBehind.not_failsWithoutTrace (h : ShadowBehind s) (hacc : c.Accepted)
    (h48 : c.port ≤ 48) (hon : c.enable = true) (hfault : s.asic.fault 0 = true) :
    ¬ FailsWithoutTrace s c := by
  intro hfails
  obtain ⟨d, hd, -, -, hne, hblock, hlane, -⟩ := exists_neighbour hacc h48 true
  have hlt : (blockLane c.port).lane < 32 := by
    have := lane_lt hacc.1 h48
    omega
  have heio : (c.perform s).2 = .error .eio := by
    rw [EnableCall.perform_of_fault hacc hfault]
  have hsame := hfails heio [] d hd hne hblock
  rw [run_nil, run_nil, valueWritten_eq hd, valueWritten_eq hd, hblock, EnableCall.step_shadow hacc,
    Function.update_self] at hsame
  have hbit := congrArg (fun v => v.getLsbD (blockLane c.port).lane) hsame
  simp only [getLsbD_laneValue_of_ne _ hlane.symm hlt, getLsbD_laneValue_self _ hlt, hon,
    (h.of_block hacc h48).1] at hbit
  simp at hbit

theorem ShadowBehind.ownPortOnly_iff (h : ShadowBehind s) (c : EnableCall) :
    OwnPortOnly s c ↔ TouchesNoLane s c := by
  constructor
  · intro hown hacc
    obtain ⟨hleave, hfails⟩ := hown hacc
    by_cases h49 : 49 ≤ c.port
    · exact .inl h49
    · have h48 : c.port ≤ 48 := by omega
      right
      cases hfault : s.asic.fault 0 with
      | false => exact absurd hleave (h.not_leavesOtherPorts hacc h48 hfault)
      | true =>
        cases hon : c.enable with
        | false => exact ⟨rfl, rfl⟩
        | true => exact absurd hfails (h.not_failsWithoutTrace hacc h48 hon hfault)
  · exact h.ownPortOnly

/-- From the registers as initialisation leaves them, the calls that touch only their
own port, whatever faults come. -/
theorem ownPortOnly_iff_touchesNoLane (a : Asic) (ha : a.AllLanesEnabled)
    (calls : List EnableCall) :
    EachStep EnableCall.step OwnPortOnly (SdkState.init a) calls ↔
      EachStep EnableCall.step TouchesNoLane (SdkState.init a) calls := by
  have same (s : SdkState) (c : EnableCall) (h : ShadowBehind s) :
      OwnPortOnly s c ↔ TouchesNoLane s c := h.ownPortOnly_iff c
  have keep (s : SdkState) (c : EnableCall) (h : ShadowBehind s) (hc : TouchesNoLane s c) :
      ShadowBehind (c.step s) := h.step hc
  exact eachStep_congr same keep (shadowBehind_init ha) calls

/-- A chip with every lane on. -/
def Asic.lanesOn (fault : ℕ → Bool) : Asic where
  mem := fun _ _ _ => 0
  reg := fun addr =>
    if addr ∈ (xlportBlocks.take 12).map (· + XLPORT_PORT_ENABLE_OFF) then 0xf else 1
  fault := fault

theorem lanesOn_allLanesEnabled (fault : ℕ → Bool) : (Asic.lanesOn fault).AllLanesEnabled := by
  have hreg : ∀ idx < 16, (Asic.lanesOn fun _ => false).reg
      (xlportBlocks.getD idx 0 + XLPORT_PORT_ENABLE_OFF) = if idx < 12 then 0xf else 1 := by
    decide +kernel
  exact hreg

/-- Two ports of single-lane blocks, then a disable of port 5 whose write fails. -/
theorem ownPortOnly_single_lanes :
    EachStep EnableCall.step OwnPortOnly (SdkState.init (Asic.lanesOn (· == 2)))
      [⟨49, true⟩, ⟨52, false⟩, ⟨5, false⟩] := by
  have h49 (s : SdkState) : TouchesNoLane s ⟨49, true⟩ := fun _ => .inl (by decide)
  have h52 (s : SdkState) : TouchesNoLane s ⟨52, false⟩ := fun _ => .inl (by decide)
  apply (ownPortOnly_iff_touchesNoLane _ (lanesOn_allLanesEnabled _) _).mpr
  exact ⟨h49 _, h52 _, fun _ => .inr ⟨rfl, by decide +kernel⟩, trivial⟩

/-- Turning port 1 on turns port 2 off. -/
theorem ownPortOnly_fails :
    (Asic.lanesOn fun _ => false).AllLanesEnabled ∧
      ¬ EachStep EnableCall.step OwnPortOnly (SdkState.init (Asic.lanesOn fun _ => false))
        [⟨1, true⟩] := by
  refine ⟨lanesOn_allLanesEnabled _, ?_⟩
  rintro ⟨hown, -⟩
  have hkept := (hown ⟨by decide, by decide⟩).1 2 (by decide) (by decide) (by decide)
  exact absurd hkept (by decide +kernel)

end OpenNos.Sdk
