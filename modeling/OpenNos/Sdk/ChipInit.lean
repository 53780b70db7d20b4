import OpenNos.Bde.ChipReset
import OpenNos.Sdk.InitOnStack

/-! `bcm56846_chip_init` (`init.c`), which every start of the daemon runs on a chip that
the kernel driver has reset: registers of BAR0 by ioctl, probes of the port blocks over the
S-Channel, and the datapath initialisation. -/

namespace OpenNos.Sdk

open Bits OpProg Bde

def socBdeRead (offset : BitVec 32) : SocProg (Option (BitVec 32)) := do
  let reply ← perform (.bdeRead offset)
  return reply.map fun w => w 0

/-- Whether the ioctl returns 0. -/
def socBdeWrite (offset value : BitVec 32) : SocProg Bool := do
  let reply ← perform (.bdeWrite offset value)
  return reply.isSome

/-- A read whose value only goes to the log. -/
def socBdeLook (offset : BitVec 32) : SocProg Unit := discard (socBdeRead offset)

def sbusLook (addr : BitVec 32) : SocProg Unit := discard (perform (.sbus (.regRead addr)))

/-- The address of an XLPORT register by its physical block. -/
def xlportBlockProbeAddr (block regOffset : BitVec 32) : BitVec 32 :=
  let b := if block &&& 0x10 ≠ 0 then (block &&& 0xf) ||| 0x400 else block
  b <<< 20 ||| regOffset

def CMIC_SOFT_RESET_ALL_OUT : BitVec 32 := 0x0000FFFF

def CMIC_MISC_CONTROL_LINK40G_ENABLE : BitVec 32 := 1 <<< 0

def XLPORT_MODE_REG_OFF : BitVec 32 := 0x80229

/-- Let all blocks out of reset, if they are not. -/
def fixSoftReset : SocProg Unit := do
  let softReset := (← socBdeRead 0x0580).getD 0
  onlyIf (softReset ≠ CMIC_SOFT_RESET_ALL_OUT) do
    discard <| socBdeWrite 0x0580 CMIC_SOFT_RESET_ALL_OUT
    socBdeLook 0x0580

/-- Set LINK40G, if it is not; a register that cannot be read is taken for zero. -/
def fixLink40g : SocProg Unit := do
  let miscCtrl := (← socBdeRead 0x001c).getD 0
  onlyIf (miscCtrl &&& CMIC_MISC_CONTROL_LINK40G_ENABLE = 0) <|
    discard <| socBdeWrite 0x001c (miscCtrl ||| CMIC_MISC_CONTROL_LINK40G_ENABLE)

/-- Read a register of IPIPE, and one of each block from 10 to 27. -/
def probeBlocks : SocProg Unit := do
  sbusLook 0x02380002
  (List.range' 10 18).forM fun blk =>
    sbusLook (xlportBlockProbeAddr (BitVec.ofNat 32 blk) XLPORT_MODE_REG_OFF)

def bcm56846VerifyResetAndProbe : SocProg Unit := do
  fixSoftReset
  fixLink40g
  probeBlocks

/-- The S-bus timeout and the ring maps, with their values. -/
def ringMaps : List (BitVec 32 × BitVec 32) :=
  [(0x0200, 0x7D0), (0x0204, 0x43052100), (0x0208, 0x33333343), (0x020c, 0x44444333),
    (0x0210, 0x00034444), (0x0214, 0), (0x0218, 0), (0x021c, 0), (0x0220, 0)]

/-- The writes that abort a stale operation. -/
def schanAbort : List (BitVec 32) :=
  [CMICE_SET_ABORT, CMICE_CLR_ABORT, CMICE_CLR_START, CMICE_CLR_DONE, CMICE_CLR_SER,
    CMICE_CLR_NAK, CMICE_CLR_TIMEOUT]

/-- Step 1. -/
def clearRingCfg : SocProg Unit := do
  socBdeLook 0x0158
  socBdeLook 0x0148
  let ringCfg := (← socBdeRead 0x010c).getD 0
  socBdeLook 0x0400
  onlyIf (ringCfg ≠ 0) <| discard <| socBdeWrite 0x010c 0

/-- Step 2. -/
def programRingMaps : SocProg Unit := do
  ringMaps.forM fun a => discard <| socBdeWrite a.1 a.2
  [0x0204, 0x0208, 0x020c, 0x0210].forM socBdeLook

/-- Step 2b; a register that cannot be read is left alone. -/
def enableLink40g : SocProg Unit := do
  match ← socBdeRead 0x001c with
  | none => return ()
  | some miscCtrl =>
    discard <| socBdeWrite 0x001c (miscCtrl ||| CMIC_MISC_CONTROL_LINK40G_ENABLE)

/-- Step 3. -/
def clearSchan : SocProg Unit := do
  let ctrl := (← socBdeRead 0x0050).getD 0
  onlyIf (ctrl ≠ 0) <| schanAbort.forM fun value => discard <| socBdeWrite 0x0050 value
  socBdeLook 0x0050

/-- `bcm56846_chip_init`; a failure of the datapath initialisation only brings a warning. -/
def bcm56846ChipInit : SocProg ℤ := do
  clearRingCfg
  programRingMaps
  enableLink40g
  clearSchan
  bcm56846VerifyResetAndProbe
  discard <| datapathInit.mapOp SocOp.sbus
  return 0

/-! ### On the stack -/

/-- What a call finds; an operation that a register write starts would end like this. -/
structure SocCall extends SbusCall where
  started : Ending

/-- Calls one after the other, through the stack. -/
def socStackStep (calls : ℕ → SocCall) (s : ℕ × SbusChip) :
    SocOp → (ℕ × SbusChip) × Option Words
  | .bdeRead offset =>
    let c := calls s.1
    let run := RegProg.exec (sbusChip c.started) (bdeReadReg c.env offset) s.2
    ((s.1 + 1, run.2), run.1.map word)
  | .bdeWrite offset value =>
    let c := calls s.1
    let run := RegProg.exec (sbusChip c.started) (bdeWriteReg c.env offset value) s.2
    ((s.1 + 1, run.2), if run.1 then some fun _ => 0 else none)
  | .sbus o => stackStep (fun k => (calls k).toSbusCall) s o

/-- A call that keeps what the reset has set up. -/
def KeepsBringUp : SocOp → Prop
  | .bdeRead _ => True
  | .bdeWrite offset value => ¬ (offset.toNat = CMICE_SCHAN_CTRL ∧ value = CMICE_SET_START) ∧
      ∀ e ∈ sbusSetup, offset.toNat = e.1 → value = e.2
  | .sbus o => o.width ≤ 14

instance (o : SocOp) : Decidable (KeepsBringUp o) :=
  match o with
  | .bdeRead _ => .isTrue trivial
  | .bdeWrite .. => inferInstanceAs (Decidable (_ ∧ _))
  | .sbus _ => inferInstanceAs (Decidable (_ ≤ _))

/-- The chip between two calls. -/
structure BroughtUp (s : SbusChip) : Prop where
  idle : s.running = none
  programmed : Programmed s.reg

variable {calls : ℕ → SocCall} {s : SbusChip} {c : SocCall}

theorem bdeReadReg_exec (env : BdeEnv) (e : Ending) (offset : BitVec 32) (s : SbusChip) :
    (RegProg.exec (sbusChip e) (bdeReadReg env offset) s).2 = s := by
  rw [bdeReadReg]
  split_ifs
  · rfl
  rw [RegProg.exec_bind, ioctlReadReg]
  split_ifs <;> rfl

/-- A register write reaches the chip, or does not. -/
theorem bdeWriteReg_exec (env : BdeEnv) (e : Ending) (offset value : BitVec 32) (s : SbusChip) :
    RegProg.exec (sbusChip e) (bdeWriteReg env offset value) s = (false, s) ∨
    RegProg.exec (sbusChip e) (bdeWriteReg env offset value) s =
      (true, (sbusChip e).write s offset.toNat value) := by
  rw [bdeWriteReg]
  split_ifs
  · exact .inl rfl
  rw [RegProg.exec_bind, ioctlWriteReg]
  split_ifs
  · exact .inl rfl
  · exact .inl rfl
  · exact .inl rfl
  · exact .inr rfl

/-- An access of `sbus.c` leaves what its message makes of the chip. -/
theorem stack_leftBy (c : SbusCall) {o : SbusOp} (ho : o.width ≤ 14) (hidle : s.running = none) :
    ∃ m, LeftBy c.env (c.ending o) m s
      (RegProg.exec (sbusChip (c.ending o)) (o.stack c.env) s).2 := by
  cases o with
  | regRead addr =>
    obtain ⟨r, s', hexec, hleft, -⟩ := chip_regReadFrom c.env (c.ending (.regRead addr)) addr
      (cdkAddrToBlock_lt addr) (n := 1) (by omega) hidle
    rw [SbusOp.stack, RegProg.exec_bind, Bde.sbusRegRead, RegProg.exec_bind, hexec]
    exact ⟨_, hleft⟩
  | regWrite addr value =>
    obtain ⟨ok, s', hexec, hleft, -⟩ := chip_regWriteTo c.env (c.ending (.regWrite addr value)) addr
      (cdkAddrToBlock_lt addr) (n := 1) (by omega) hidle fun _ => value
    rw [SbusOp.stack, RegProg.exec_bind, Bde.sbusRegWrite, hexec]
    exact ⟨_, hleft⟩
  | regRead64 addr =>
    obtain ⟨r, s', hexec, hleft, -⟩ := chip_regReadFrom c.env (c.ending (.regRead64 addr)) addr
      (cdkAddrToBlock_lt addr) (n := 2) (by omega) hidle
    rw [SbusOp.stack, Bde.sbusRegRead64, hexec]
    exact ⟨_, hleft⟩
  | regWrite64 addr data =>
    obtain ⟨ok, s', hexec, hleft, -⟩ :=
      chip_regWriteTo c.env (c.ending (.regWrite64 addr data)) addr
      (cdkAddrToBlock_lt addr) (n := 2) (by omega) hidle data
    rw [SbusOp.stack, RegProg.exec_bind, Bde.sbusRegWrite64, hexec]
    exact ⟨_, hleft⟩
  | memRead addr index nwords =>
    have hn : nwords ≤ 14 := ho
    obtain ⟨r, s', hexec, hleft, -⟩ :=
      chip_memReadFrom c.env (c.ending (.memRead addr index nwords))
      addr (cdkAddrToBlock_lt addr) hn hidle (BitVec.ofNat 32 index)
    rw [SbusOp.stack, Bde.sbusMemRead, hexec]
    exact ⟨_, hleft⟩
  | memWrite addr index data nwords =>
    have hn : nwords ≤ 14 := ho
    obtain ⟨ok, s', hexec, hleft, -⟩ := chip_memWriteTo c.env
      (c.ending (.memWrite addr index data nwords)) addr (cdkAddrToBlock_lt addr) hn hidle
      (BitVec.ofNat 32 index) data
    rw [SbusOp.stack, RegProg.exec_bind, Bde.sbusMemWrite, hexec]
    exact ⟨_, hleft⟩

theorem BroughtUp.leftBy (h : BroughtUp s) {s' : SbusChip} {env : BdeEnv} {e : Ending}
    {m : Option SbusMessage} (hleft : LeftBy env e m s s') : BroughtUp s' := by
  rw [LeftBy] at hleft
  split_ifs at hleft
  · exact ⟨hleft.idle, h.programmed.congr hleft.above⟩
  · rwa [hleft]

/-- A register write of these keeps the setup. -/
theorem BroughtUp.write (h : BroughtUp s) (e : Ending) {offset value : BitVec 32}
    (hkeeps : KeepsBringUp (.bdeWrite offset value)) :
    BroughtUp ((sbusChip e).write s offset.toNat value) := by
  obtain ⟨hstart, hsetup⟩ := hkeeps
  constructor
  · dsimp only [sbusChip]
    rw [if_neg hstart]
    split_ifs
    · rfl
    · exact h.idle
  · intro a ha
    rw [sbusChip_write_reg e hstart]
    by_cases hoff : offset.toNat = a.1
    · rw [hoff, Function.update_self, written_of_ne (sbusSetup_ne a ha), hsetup a ha hoff]
    · rw [Function.update_of_ne (Ne.symm hoff), h.programmed a ha]

theorem BroughtUp.step {t : ℕ × SbusChip} (h : BroughtUp t.2) {o : SocOp}
    (ho : KeepsBringUp o) : BroughtUp (socStackStep calls t o).1.2 := by
  cases o with
  | bdeRead offset =>
    dsimp only [socStackStep]
    rwa [bdeReadReg_exec]
  | bdeWrite offset value =>
    dsimp only [socStackStep]
    rcases bdeWriteReg_exec (calls t.1).env (calls t.1).started offset value t.2 with hexec | hexec
    · rwa [hexec]
    · rw [hexec]
      exact h.write _ ho
  | sbus o =>
    obtain ⟨m, hleft⟩ := stack_leftBy (calls t.1).toSbusCall ho h.idle
    exact h.leftBy hleft

/-- The reset brings the chip up. -/
theorem chipReset_broughtUp (e : Ending) (s : SbusChip) :
    BroughtUp (RegProg.exec (sbusChip e) bcm56846ChipReset s).2 :=
  ⟨(chipReset_fresh e s).idle, (chipReset_ordered e s).2⟩

/-- From the write that holds the blocks, MMU, IP and EP are never out of reset on an S-bus
that is not set up: not during the reset, and not in any run of calls that follows. -/
theorem order_kept (e : Ending) (s : SbusChip) {α : Type} {p : SocProg α}
    (hp : p.EachOp KeepsBringUp) :
    RegProg.AtWrite (sbusChip e) (fun off v s => OrderKept ((sbusChip e).write s off v).reg) (do
      holdBlocks
      programSbus
      releaseBlocks
      enableSchan) (RegProg.exec (sbusChip e) resetCps s).2 ∧
    p.Always (socStackStep calls) (fun t => OrderKept t.2.reg)
      (0, (RegProg.exec (sbusChip e) bcm56846ChipReset s).2) := by
  refine ⟨(chipReset_ordered e _).1, ?_⟩
  let Up (t : ℕ × SbusChip) : Prop := BroughtUp t.2
  let reset := (0, (RegProg.exec (sbusChip e) bcm56846ChipReset s).2)
  have hup : Up reset := chipReset_broughtUp e s
  have hrun : p.Always (socStackStep calls) Up reset :=
    always_of_invariant (fun t o ho h => BroughtUp.step h ho) hp hup
  exact hrun.mono fun t h => orderKept_of_programmed h.programmed

/-! ### The initialisation is such a run -/

theorem socBdeRead_keeps (offset : BitVec 32) : (socBdeRead offset).EachOp KeepsBringUp :=
  eachOp_bind (eachOp_perform trivial) fun _ => eachOp_pure _

theorem socBdeWrite_keeps {offset value : BitVec 32} (h : KeepsBringUp (.bdeWrite offset value)) :
    (discard (socBdeWrite offset value) : SocProg Unit).EachOp KeepsBringUp :=
  closed_eachOp.discard (eachOp_bind (eachOp_perform h) fun _ => eachOp_pure _)

theorem socBdeLook_keeps (offset : BitVec 32) : (socBdeLook offset).EachOp KeepsBringUp :=
  closed_eachOp.discard (socBdeRead_keeps offset)

theorem sbusLook_keeps (addr : BitVec 32) : (sbusLook addr).EachOp KeepsBringUp :=
  closed_eachOp.discard (eachOp_perform (show 1 ≤ 14 by omega))

/-- A write to MISC_CONTROL. -/
theorem miscWrite_keeps (value : BitVec 32) :
    (discard (socBdeWrite 0x001c value) : SocProg Unit).EachOp KeepsBringUp :=
  socBdeWrite_keeps ⟨fun h => absurd h.1 (by decide), fun a ha h =>
    absurd h ((by decide : ∀ a ∈ sbusSetup, (0x001c#32).toNat ≠ a.1) a ha)⟩

theorem InitOp.width {o : SbusOp} (h : InitOp o) : o.width ≤ 14 := by
  cases o with
  | regRead addr => exact (by omega : 1 ≤ 14)
  | regWrite addr value => exact (by omega : 1 ≤ 14)
  | regRead64 addr => exact (by omega : 2 ≤ 14)
  | regWrite64 addr data => exact (by omega : 2 ≤ 14)
  | memRead addr index nwords => exact h.2
  | memWrite addr index data nwords => exact h.2

theorem verifyResetAndProbe_keeps : bcm56846VerifyResetAndProbe.EachOp KeepsBringUp := by
  refine eachOp_bind (eachOp_bind (socBdeRead_keeps _) fun _ => eachOp_onlyIf ?_) fun _ =>
    eachOp_bind (eachOp_bind (socBdeRead_keeps _) fun _ =>
      eachOp_onlyIf (miscWrite_keeps _)) fun _ =>
    eachOp_bind (sbusLook_keeps _) fun _ => closed_eachOp.forM fun _ _ => sbusLook_keeps _
  exact eachOp_bind (socBdeWrite_keeps (by decide)) fun _ => socBdeLook_keeps _

theorem clearRingCfg_keeps : clearRingCfg.EachOp KeepsBringUp :=
  eachOp_bind (socBdeLook_keeps _) fun _ => eachOp_bind (socBdeLook_keeps _) fun _ =>
    eachOp_bind (socBdeRead_keeps _) fun _ => eachOp_bind (socBdeLook_keeps _) fun _ =>
    eachOp_onlyIf (socBdeWrite_keeps (by decide))

theorem programRingMaps_keeps : programRingMaps.EachOp KeepsBringUp := by
  have hmaps : ∀ a ∈ ringMaps, KeepsBringUp (.bdeWrite a.1 a.2) := by
    rw [← List.forall_iff_forall_mem]
    decide
  exact eachOp_bind (closed_eachOp.forM fun a ha => socBdeWrite_keeps (hmaps a ha)) fun _ =>
    closed_eachOp.forM fun _ _ => socBdeLook_keeps _

theorem enableLink40g_keeps : enableLink40g.EachOp KeepsBringUp :=
  eachOp_bind (socBdeRead_keeps _) fun reply => by
    cases reply with
    | none => exact eachOp_pure _
    | some miscCtrl => exact miscWrite_keeps _

theorem clearSchan_keeps : clearSchan.EachOp KeepsBringUp := by
  have hstart : CMICE_SET_START ∉ schanAbort := by decide
  have hctrl : ∀ a ∈ sbusSetup, (0x0050#32).toNat ≠ a.1 := by decide
  have habort : ∀ value ∈ schanAbort, KeepsBringUp (.bdeWrite 0x0050 value) := fun value hv =>
    ⟨fun h => hstart (h.2 ▸ hv), fun a ha h => absurd h (hctrl a ha)⟩
  exact eachOp_bind (socBdeRead_keeps _) fun _ => eachOp_bind (eachOp_onlyIf
    (closed_eachOp.forM fun value hv => socBdeWrite_keeps (habort value hv))) fun _ =>
    socBdeLook_keeps _

/-- The whole initialisation keeps what the reset has set up. -/
theorem chipInit_keeps : bcm56846ChipInit.EachOp KeepsBringUp := by
  have hdatapath : (discard (datapathInit.mapOp SocOp.sbus) : SocProg Unit).EachOp KeepsBringUp :=
    closed_eachOp.discard (datapathInit_initOp.mapOp fun o ho => ho.width)
  exact eachOp_bind clearRingCfg_keeps fun _ => eachOp_bind programRingMaps_keeps fun _ =>
    eachOp_bind enableLink40g_keeps fun _ => eachOp_bind clearSchan_keeps fun _ =>
    eachOp_bind verifyResetAndProbe_keeps fun _ => eachOp_bind hdatapath fun _ => eachOp_pure _

/-- Calls with accesses that are refused and ioctls that work. -/
def patchySocCalls (k : ℕ) : SocCall := { patchyCalls k with started := default }

/-- The order is kept from the first reset to the end of the initialisation. -/
theorem order_kept_chipInit :
    RegProg.AtWrite (sbusChip default)
      (fun off v s => OrderKept ((sbusChip default).write s off v).reg) (do
        holdBlocks
        programSbus
        releaseBlocks
        enableSchan) (RegProg.exec (sbusChip default) resetCps blankChip).2 ∧
    bcm56846ChipInit.Always (socStackStep patchySocCalls) (fun t => OrderKept t.2.reg)
      (0, (RegProg.exec (sbusChip default) bcm56846ChipReset blankChip).2) :=
  order_kept default blankChip chipInit_keeps

/-! ### What the initialisation leaves -/

/-- Every ioctl works; what the device answers is open. -/
def IoctlsWork (calls : ℕ → SocCall) : Prop :=
  ∀ k, (calls k).env.Ready ∧ (calls k).env.copyToUser = true

/-- A chip at rest with MISC_CONTROL and the registers above the message window as given,
and once it is `cleared` with no S-Channel bit set. -/
structure Known (cleared : Prop) (misc : BitVec 32) (f : ℕ → BitVec 32) (s : SbusChip) : Prop where
  idle : s.running = none
  misc : s.reg CMIC_MISC_CONTROL = misc
  above : ∀ off, 0x80 ≤ off → s.reg off = f off
  clear : cleared → ∀ b ∈ schanBits, (s.reg CMICE_SCHAN_CTRL).getLsbD b = false

variable {cleared : Prop} {misc : BitVec 32} {f : ℕ → BitVec 32} {t : ℕ × SbusChip}
  (work : IoctlsWork calls)

theorem Known.sbus (h : Known cleared misc f t.2) {o : SbusOp} (ho : o.width ≤ 14) :
    Known cleared misc f (socStackStep calls t (.sbus o)).1.2 := by
  obtain ⟨m, hleft⟩ := stack_leftBy (calls t.1).toSbusCall ho h.idle
  rw [LeftBy] at hleft
  have hstep : (socStackStep calls t (.sbus o)).1.2 =
      (RegProg.exec (sbusChip ((calls t.1).ending o)) (o.stack (calls t.1).env) t.2).2 := rfl
  rw [hstep]
  split_ifs at hleft
  · exact ⟨hleft.idle, hleft.misc.trans h.misc, fun off hoff =>
      (hleft.above off hoff).trans (h.above off hoff), fun _ => hleft.clear⟩
  · rwa [hleft]

theorem Known.sbusLook (h : Known cleared misc f t.2) (addr : BitVec 32) :
    Known cleared misc f ((sbusLook addr).runOn (socStackStep calls) t).2.2 := by
  rw [Sdk.sbusLook, runOn_discard]
  exact h.sbus (show 1 ≤ 14 by omega)

variable (calls) in
theorem Known.datapath (h : Known cleared misc f t.2) :
    Known cleared misc f ((datapathInit.mapOp SocOp.sbus).runOn (socStackStep calls) t).2.2 := by
  let K (t : ℕ × SbusChip) : Prop := Known cleared misc f t.2
  have hstep : ∀ t o, SbusOp.width o ≤ 14 → K t → K (socStackStep calls t (.sbus o)).1 :=
    fun t o ho ht => ht.sbus ho
  rw [runOn_mapOp]
  exact runOn_invariant hstep (datapathInit_initOp.mono fun o ho => ho.width) h

section Work
include work

theorem socBdeRead_runOn {offset : BitVec 32} (hoff : offset.toNat < BAR0_LIMIT)
    (t : ℕ × SbusChip) :
    (socBdeRead offset).runOn (socStackStep calls) t =
      (some (t.2.reg offset.toNat), (t.1 + 1, t.2)) := by
  obtain ⟨⟨hfd, hp, hc, -⟩, hu⟩ := work t.1
  have hexec : RegProg.exec (sbusChip (calls t.1).started) (bdeReadReg (calls t.1).env offset) t.2 =
      (some (t.2.reg offset.toNat), t.2) := by
    rw [bdeReadReg, if_neg (by simp [hfd]), RegProg.exec_bind, ioctlReadReg, if_neg (by simp [hp]),
      if_neg (by simp [hc]), if_neg (by omega)]
    simp only [RegProg.exec_bind, hu]
    rfl
  rw [socBdeRead, runOn_bind, runOn_perform, runOn_pure, socStackStep, hexec]
  rfl

theorem socBdeLook_runOn {offset : BitVec 32} (hoff : offset.toNat < BAR0_LIMIT)
    (t : ℕ × SbusChip) :
    ((socBdeLook offset).runOn (socStackStep calls) t).2 = (t.1 + 1, t.2) := by
  rw [socBdeLook, runOn_discard, socBdeRead_runOn work hoff]

theorem socBdeWrite_runOn {offset : BitVec 32} (hoff : offset.toNat < BAR0_LIMIT)
    (value : BitVec 32) (t : ℕ × SbusChip) :
    ((discard (socBdeWrite offset value) : SocProg Unit).runOn (socStackStep calls) t).2.2 =
      (sbusChip (calls t.1).started).write t.2 offset.toNat value := by
  obtain ⟨⟨hfd, hp, hc, -⟩, -⟩ := work t.1
  have hexec : RegProg.exec (sbusChip (calls t.1).started)
      (bdeWriteReg (calls t.1).env offset value) t.2 =
        (true, (sbusChip (calls t.1).started).write t.2 offset.toNat value) := by
    rw [bdeWriteReg, if_neg (by simp [hfd]), RegProg.exec_bind, ioctlWriteReg,
      if_neg (by simp [hp]), if_neg (by simp [hc]), if_neg (by omega)]
    rfl
  rw [runOn_discard, socBdeWrite, runOn_bind, runOn_perform, runOn_pure, socStackStep, hexec]

/-- A register above the message window is written. -/
theorem Known.write (h : Known cleared misc f t.2) {offset : BitVec 32}
    (hlow : 0x80 ≤ offset.toNat) (hoff : offset.toNat < BAR0_LIMIT) (value : BitVec 32) :
    Known cleared misc (Function.update f offset.toNat value)
      ((discard (socBdeWrite offset value) : SocProg Unit).runOn (socStackStep calls) t).2.2 := by
  have hctrl : offset.toNat ≠ CMICE_SCHAN_CTRL := by simp only [CMICE_SCHAN_CTRL]; omega
  have hmisc : CMIC_MISC_CONTROL ≠ offset.toNat := by simp only [CMIC_MISC_CONTROL]; omega
  have hstart : ¬ (offset.toNat = CMICE_SCHAN_CTRL ∧ value = CMICE_SET_START) :=
    fun h => hctrl h.1
  have hreg := sbusChip_write_reg (calls t.1).started hstart t.2
  rw [written_of_ne hctrl] at hreg
  rw [socBdeWrite_runOn work hoff]
  refine ⟨?_, ?_, fun off hoff => ?_, fun hc b hb => ?_⟩
  · simp only [sbusChip, hctrl, false_and, if_false]
    exact h.idle
  · rw [hreg, Function.update_of_ne hmisc, h.misc]
  · rw [hreg]
    by_cases heq : off = offset.toNat
    · rw [heq, Function.update_self, Function.update_self]
    · rw [Function.update_of_ne heq, Function.update_of_ne heq, h.above off hoff]
  · rw [hreg, Function.update_of_ne (Ne.symm hctrl)]
    exact h.clear hc b hb

/-- MISC_CONTROL is written. -/
theorem Known.writeMisc (h : Known cleared misc f t.2) (value : BitVec 32) :
    Known cleared value f
      ((discard (socBdeWrite 0x001c value) : SocProg Unit).runOn (socStackStep calls) t).2.2 := by
  have hctrl : CMIC_MISC_CONTROL ≠ CMICE_SCHAN_CTRL := by decide
  have hstart : ¬ (CMIC_MISC_CONTROL = CMICE_SCHAN_CTRL ∧ value = CMICE_SET_START) :=
    fun h => hctrl h.1
  have hreg := sbusChip_write_reg (calls t.1).started hstart t.2
  rw [written_of_ne hctrl] at hreg
  rw [socBdeWrite_runOn work (by decide)]
  change Known cleared value f ((sbusChip _).write t.2 CMIC_MISC_CONTROL value)
  refine ⟨?_, ?_, fun off hoff => ?_, fun hc b hb => ?_⟩
  · simp only [sbusChip, hctrl, false_and, if_false]
    exact h.idle
  · rw [hreg, Function.update_self]
  · have hne : off ≠ CMIC_MISC_CONTROL := by simp only [CMIC_MISC_CONTROL]; omega
    rw [hreg, Function.update_of_ne hne, h.above off hoff]
  · rw [hreg, Function.update_of_ne (Ne.symm hctrl)]
    exact h.clear hc b hb

/-- Bits of the control register are set and cleared, one a write. -/
theorem Known.abort (h : Known cleared misc f t.2) {values : List (BitVec 32)}
    (hstart : CMICE_SET_START ∉ values) :
    let run := (values.forM fun value =>
      (discard (socBdeWrite 0x0050 value) : SocProg Unit)).runOn (socStackStep calls) t
    Known False misc f run.2.2 ∧
      run.2.2.reg CMICE_SCHAN_CTRL = values.foldl byteWrite (t.2.reg CMICE_SCHAN_CTRL) := by
  induction values generalizing t cleared with
  | nil => exact ⟨⟨h.idle, h.misc, h.above, fun hc => hc.elim⟩, rfl⟩
  | cons value values ih =>
    obtain ⟨hne, hrest⟩ := not_or.mp (mt List.mem_cons.mpr hstart)
    let next := ((discard (socBdeWrite 0x0050 value) : SocProg Unit).runOn (socStackStep calls) t).2
    have hnext : next.2 = (sbusChip (calls t.1).started).write t.2 CMICE_SCHAN_CTRL value :=
      socBdeWrite_runOn work (by decide) value t
    have hreg := sbusChip_write_reg (calls t.1).started (fun h => hne h.2.symm :
      ¬ (CMICE_SCHAN_CTRL = CMICE_SCHAN_CTRL ∧ value = CMICE_SET_START)) t.2
    have hknown : Known False misc f next.2 := by
      rw [hnext]
      refine ⟨?_, ?_, fun off hoff => ?_, fun hc => hc.elim⟩
      · simp only [sbusChip, true_and, if_neg (Ne.symm hne)]
        split_ifs
        · rfl
        · exact h.idle
      · rw [hreg, Function.update_of_ne (by decide), h.misc]
      · have hctrl : off ≠ CMICE_SCHAN_CTRL := by simp only [CMICE_SCHAN_CTRL]; omega
        rw [hreg, Function.update_of_ne hctrl, h.above off hoff]
    have hstep := ih hknown hrest
    intro run
    have hrun : run = (values.forM fun value =>
        (discard (socBdeWrite 0x0050 value) : SocProg Unit)).runOn (socStackStep calls) next :=
      runOn_forM_cons _ _ _ _ _
    rw [hrun]
    refine ⟨hstep.1, hstep.2.trans ?_⟩
    rw [hnext, hreg, Function.update_self]
    rfl

/-- Registers above the message window are written one after the other. -/
theorem Known.writes (h : Known cleared misc f t.2) {writes : List (BitVec 32 × BitVec 32)}
    (hoff : ∀ a ∈ writes, 0x80 ≤ a.1.toNat ∧ a.1.toNat < BAR0_LIMIT) :
    Known cleared misc (poked (writes.map fun a => (a.1.toNat, a.2)) f)
      ((writes.forM fun a => (discard (socBdeWrite a.1 a.2) : SocProg Unit)).runOn
        (socStackStep calls) t).2.2 := by
  induction writes generalizing t f with
  | nil => exact h
  | cons a writes ih =>
    have ha := hoff a List.mem_cons_self
    have hrest := ih (h.write work ha.1 ha.2 a.2) fun b hb => hoff b (List.mem_cons_of_mem a hb)
    rw [runOn_forM_cons]
    exact hrest

/-- The registers above the message window that the initialisation sets. -/
def initRegs (reg : ℕ → BitVec 32) : ℕ → BitVec 32 :=
  Function.update (poked (ringMaps.map fun a => (a.1.toNat, a.2)) (Function.update reg 0x010c 0))
    0x0580 CMIC_SOFT_RESET_ALL_OUT

omit work in
/-- A word with bit 0 set. -/
theorem or_one_of_set {x : BitVec 32} (h : ¬ x &&& 1 = 0) : x ||| 1 = x := by
  have hbit : x.getLsbD 0 = true := by
    by_contra hclear
    refine h (BitVec.eq_of_getLsbD_eq fun i hi => ?_)
    rcases Nat.eq_zero_or_pos i with rfl | hpos
    · simpa using hclear
    · simp [Nat.pos_iff_ne_zero.mp hpos]
  refine BitVec.eq_of_getLsbD_eq fun i hi => ?_
  rcases Nat.eq_zero_or_pos i with rfl | hpos
  · simp [hbit]
  · simp [Nat.pos_iff_ne_zero.mp hpos]

omit work in
/-- A register that already has the value need not be written. -/
theorem Known.of_eq (h : Known cleared misc f t.2) {off : ℕ} {value : BitVec 32}
    (hvalue : f off = value) : Known cleared misc (Function.update f off value) t.2 := by
  rw [← hvalue, Function.update_eq_self]
  exact h

omit work in
theorem Known.sbusLooks {ι : Type} (h : Known cleared misc f t.2) (l : List ι)
    (addr : ι → BitVec 32) :
    Known cleared misc f ((l.forM fun i => Sdk.sbusLook (addr i)).runOn
      (socStackStep calls) t).2.2 := by
  induction l generalizing t with
  | nil => exact h
  | cons i l ih =>
    rw [runOn_forM_cons]
    exact ih (h.sbusLook (addr i))

theorem Known.bdeLooks (h : Known cleared misc f t.2) {offsets : List (BitVec 32)}
    (hoff : ∀ off ∈ offsets, off.toNat < BAR0_LIMIT) :
    Known cleared misc f ((offsets.forM socBdeLook).runOn (socStackStep calls) t).2.2 := by
  induction offsets generalizing t with
  | nil => exact h
  | cons off offsets ih =>
    rw [runOn_forM_cons, socBdeLook_runOn work (hoff off List.mem_cons_self)]
    exact ih (t := (t.1 + 1, t.2)) h fun off' h' => hoff off' (List.mem_cons_of_mem off h')

theorem Known.fixSoftReset (h : Known cleared misc f t.2) :
    Known cleared misc (Function.update f 0x0580 CMIC_SOFT_RESET_ALL_OUT)
      (fixSoftReset.runOn (socStackStep calls) t).2.2 := by
  let t₁ : ℕ × SbusChip := (t.1 + 1, t.2)
  let value := t.2.reg 0x0580
  let fix : SocProg Unit := do
    discard <| socBdeWrite 0x0580 CMIC_SOFT_RESET_ALL_OUT
    socBdeLook 0x0580
  rw [Sdk.fixSoftReset, runOn_bind, socBdeRead_runOn work (by decide)]
  change Known _ _ _ ((onlyIf (value ≠ CMIC_SOFT_RESET_ALL_OUT) fix).runOn
    (socStackStep calls) t₁).2.2
  by_cases hreset : value = CMIC_SOFT_RESET_ALL_OUT
  · rw [onlyIf, if_neg (not_not.mpr hreset)]
    exact h.of_eq ((h.above _ (by decide)).symm.trans hreset)
  · have hwritten := Known.write work (t := t₁) h (by decide : 0x80 ≤ (0x0580#32).toNat) (by decide)
      CMIC_SOFT_RESET_ALL_OUT
    rw [onlyIf, if_pos hreset, runOn_bind, socBdeLook_runOn work (by decide)]
    exact hwritten

theorem Known.fixLink40g (h : Known cleared misc f t.2) :
    Known cleared (misc ||| 1) f (fixLink40g.runOn (socStackStep calls) t).2.2 := by
  let t₁ : ℕ × SbusChip := (t.1 + 1, t.2)
  let value := t.2.reg CMIC_MISC_CONTROL
  rw [Sdk.fixLink40g, runOn_bind, socBdeRead_runOn work (by decide)]
  change Known _ _ _ ((onlyIf (value &&& 1 = 0) (discard (socBdeWrite 0x001c (value ||| 1)))).runOn
    (socStackStep calls) t₁).2.2
  rw [← h.misc]
  by_cases hlink : value &&& 1 = 0
  · rw [onlyIf, if_pos hlink]
    exact Known.writeMisc work (t := t₁) h _
  · rw [onlyIf, if_neg hlink, or_one_of_set hlink]
    exact ⟨h.idle, rfl, h.above, h.clear⟩

omit work in
variable (calls) in
theorem Known.probeBlocks (h : Known cleared misc f t.2) :
    Known cleared misc f (probeBlocks.runOn (socStackStep calls) t).2.2 := by
  rw [Sdk.probeBlocks, runOn_bind]
  exact (h.sbusLook _).sbusLooks _ _

theorem Known.clearRingCfg (h : Known cleared misc f t.2) :
    Known cleared misc (Function.update f 0x010c 0)
      (clearRingCfg.runOn (socStackStep calls) t).2.2 := by
  let t₁ : ℕ × SbusChip := (t.1 + 1 + 1 + 1 + 1, t.2)
  let value := t.2.reg 0x010c
  rw [Sdk.clearRingCfg, runOn_bind, socBdeLook_runOn work (by decide), runOn_bind,
    socBdeLook_runOn work (by decide), runOn_bind, socBdeRead_runOn work (by decide), runOn_bind,
    socBdeLook_runOn work (by decide)]
  change Known _ _ _ ((onlyIf (value ≠ 0) (discard (socBdeWrite 0x010c 0))).runOn
    (socStackStep calls) t₁).2.2
  by_cases hcfg : value = 0
  · rw [onlyIf, if_neg (not_not.mpr hcfg)]
    exact h.of_eq ((h.above _ (by decide)).symm.trans hcfg)
  · rw [onlyIf, if_pos hcfg]
    exact Known.write work (t := t₁) h (by decide : 0x80 ≤ (0x010c#32).toNat) (by decide) 0

theorem Known.programRingMaps (h : Known cleared misc f t.2) :
    Known cleared misc (poked (ringMaps.map fun a => (a.1.toNat, a.2)) f)
      (programRingMaps.runOn (socStackStep calls) t).2.2 := by
  have hoff : ∀ a ∈ ringMaps, 0x80 ≤ a.1.toNat ∧ a.1.toNat < BAR0_LIMIT := by
    rw [← List.forall_iff_forall_mem]
    decide
  rw [Sdk.programRingMaps, runOn_bind]
  exact (h.writes work hoff).bdeLooks work (by simp [BAR0_LIMIT])

theorem Known.enableLink40g (h : Known cleared misc f t.2) :
    Known cleared (misc ||| 1) f (enableLink40g.runOn (socStackStep calls) t).2.2 := by
  rw [Sdk.enableLink40g, runOn_bind, socBdeRead_runOn work (by decide)]
  change Known _ _ _ ((discard (socBdeWrite 0x001c (t.2.reg CMIC_MISC_CONTROL ||| 1)) :
    SocProg Unit).runOn _ (t.1 + 1, t.2)).2.2
  rw [h.misc]
  exact Known.writeMisc work (t := (t.1 + 1, t.2)) h _

theorem Known.clearSchan (h : Known cleared misc f t.2) :
    Known True misc f (clearSchan.runOn (socStackStep calls) t).2.2 := by
  rw [Sdk.clearSchan, runOn_bind, socBdeRead_runOn work (by decide), runOn_bind,
    socBdeLook_runOn work (by decide)]
  change Known _ _ _ ((onlyIf (t.2.reg CMICE_SCHAN_CTRL ≠ 0) _).runOn _ (t.1 + 1, t.2)).2.2
  by_cases hctrl : t.2.reg CMICE_SCHAN_CTRL = 0
  · rw [onlyIf, if_neg (not_not.mpr hctrl)]
    refine ⟨h.idle, h.misc, h.above, fun _ b _ => ?_⟩
    change (t.2.reg CMICE_SCHAN_CTRL).getLsbD b = false
    rw [hctrl]
    exact BitVec.getLsbD_zero
  · rw [onlyIf, if_pos hctrl]
    have habort := Known.abort work (t := (t.1 + 1, t.2)) h
      (by decide : CMICE_SET_START ∉ schanAbort)
    refine ⟨habort.1.idle, habort.1.misc, habort.1.above, fun _ b hb => ?_⟩
    rw [habort.2]
    exact getLsbD_abortCtrl _ hb

/-- What every start of the daemon leaves of the chip, its datapath apart. -/
theorem chipInit_known (h : Known cleared misc f t.2) :
    Known True (misc ||| 1) (initRegs f) (bcm56846ChipInit.runOn (socStackStep calls) t).2.2 := by
  have hset : misc ||| 1 ||| 1 = misc ||| 1 := by rw [BitVec.or_assoc, BitVec.or_self]
  have hrings := (h.clearRingCfg work).programRingMaps work
  have hcleared := (hrings.enableLink40g work).clearSchan work
  have hverified := ((hcleared.fixSoftReset work).fixLink40g work).probeBlocks calls
  rw [hset] at hverified
  rw [bcm56846ChipInit, runOn_bind, runOn_bind, runOn_bind, runOn_bind,
    runOn_bind, runOn_bind, runOn_discard, runOn_pure, bcm56846VerifyResetAndProbe, runOn_bind,
    runOn_bind]
  dsimp only [initRegs]
  exact hverified.datapath calls

end Work

/-- With the ioctls working, every start of the daemon on a chip at rest sets LINK40G, the
ring maps, the S-bus timeout and SOFT_RESET, clears the ring configuration and the
S-Channel bits, and leaves every other register above the message window as it was,
whatever the S-bus accesses do. -/
theorem chipInit_registers (work : IoctlsWork calls) (hidle : s.running = none) (k : ℕ) :
    let after := (bcm56846ChipInit.runOn (socStackStep calls) (k, s)).2.2
    after.running = none ∧ after.reg CMIC_MISC_CONTROL = s.reg CMIC_MISC_CONTROL ||| 1 ∧
      (∀ b ∈ schanBits, (after.reg CMICE_SCHAN_CTRL).getLsbD b = false) ∧
      ∀ off, 0x80 ≤ off → after.reg off = initRegs s.reg off := by
  have h := chipInit_known work (t := (k, s))
    (⟨hidle, rfl, fun _ _ => rfl, fun hc => hc.elim⟩ : Known False _ s.reg s)
  exact ⟨h.idle, h.misc, h.clear trivial, h.above⟩

/-- A chip found with a stale ring configuration and blocks in reset. -/
def staleChip : SbusChip :=
  { blankChip with reg := fun off => if off = 0x010c then 0x32000043 else 0 }

theorem chipInit_registers_stale :
    let after := (bcm56846ChipInit.runOn (socStackStep patchySocCalls) (0, staleChip)).2.2
    after.running = none ∧
      after.reg CMIC_MISC_CONTROL = staleChip.reg CMIC_MISC_CONTROL ||| 1 ∧
      (∀ b ∈ schanBits, (after.reg CMICE_SCHAN_CTRL).getLsbD b = false) ∧
      ∀ off, 0x80 ≤ off → after.reg off = initRegs staleChip.reg off := by
  have hwork : IoctlsWork patchySocCalls := by
    intro k
    have henv : (patchySocCalls k).env = promptCall.env := by
      dsimp only [patchySocCalls, patchyCalls]
      split_ifs <;> rfl
    rw [henv]
    exact ⟨⟨rfl, rfl, rfl, rfl⟩, rfl⟩
  exact chipInit_registers hwork rfl 0

end OpenNos.Sdk
