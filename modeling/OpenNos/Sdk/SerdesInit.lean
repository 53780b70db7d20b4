import OpenNos.Lib.History
import OpenNos.Sdk.SerdesFirmware

/-! Which WARPcores are marked as initialised. The mark is set after the first call for a
WARPcore, whatever became of its firmware. To say what the mark should mean, the calls are
run with a record of what they find out beside their results. -/

namespace OpenNos.Sdk

open RegProg History

/-! ### The calls with a record -/

/-- `wc_phy_init` up to the check of the version. -/
def phyInitStart (env : SerdesEnv) (phy : PhyAddr) : Serdes (BitVec 16) := do
  let val ← wcReadInto env.junk phy 0 WC_SERDESID0
  let val ← wcReadInto val phy 0 WC_XGXSCONTROL
  onlyIf (val &&& 1#16 <<< 13 ≠ 0) do
    wcPut phy 0 WC_XGXSCONTROL (val &&& ~~~(1#16 <<< 13))
    mark (.usleep 1000)
  wcPut phy 0 WC_LANEPRBS 0x0000
  let val ← wcReadInto val phy 0 WC_MISC1
  let val := val &&& ~~~0x1f00#16 ||| (2#16 <<< 8 ||| 1#16 <<< 12)
  wcPut phy 0 WC_MISC1 val
  return val

/-- The check of the version and the download, with whether the version was read as 0x0101
or the download returned 0. -/
def phyInitFirmware (env : SerdesEnv) (phy : PhyAddr) (val : BitVec 16) :
    Serdes (BitVec 16 × Bool) := do
  let version ← wcRead phy 0 WC_FW_VERSION
  let val := version.toOption.getD val
  if val ≠ 0x0101 then
    let rc ← wcFirmwareDownload phy env.ucode
    return (val, rc.isOk)
  else return (val, version.isOk)

/-- The rest, with the value the last poll of the version ends with; the poll starts from 0,
so any other value is one it has read. -/
def phyInitFinish (phy : PhyAddr) (val : BitVec 16) : Serdes (BitVec 16) := do
  let val ← wcReadInto val phy 0 WC_XGXSCONTROL
  wcPut phy 0 WC_XGXSCONTROL (val ||| 1#16 <<< 13)
  let val ← wcPoll phy WC_XGXSSTATUS (fun val => val &&& 1#16 <<< 11 ≠ 0) 200 val
  let val ← wcReadInto val phy 0 WC_UC_COMMAND2
  wcPut phy 0 WC_UC_COMMAND2 (val ||| 0x0020)
  wcPut phy 0 WC_UC_COMMAND 0x8010
  let version ← wcPoll phy WC_FW_VERSION (fun val => val ≠ 0) 500 0
  let _ ← wcReadInto version phy 0 WC_UC_COMMAND
  aerReset phy
  return version

/-- `wc_phy_init`, with whether it read version 0x0101 or had its download return 0. -/
def wcPhyInitRecorded (env : SerdesEnv) (phy : PhyAddr) : Serdes Bool := do
  let val ← phyInitStart env phy
  let (val, loaded) ← phyInitFirmware env phy val
  let version ← phyInitFinish phy val
  return loaded || version == 0x0101

def initOnceRecorded (env : SerdesEnv) (inited : PhyInited) (phy : PhyAddr) :
    Serdes (PhyInited × Bool) :=
  if phy.bus < 3 ∧ (inited phy.bus).getLsbD phy.phy.toNat = false then do
    let proven ← wcPhyInitRecorded env phy
    return (Function.update inited phy.bus (inited phy.bus ||| 1#32 <<< phy.phy.toNat), proven)
  else pure (inited, false)

/-- `bcm56846_serdes_init_10g`, with the WARPcore for which it did so. -/
def serdesInit10gRecorded (env : SerdesEnv) (inited : PhyInited) (port : ℤ) :
    Serdes ((Rc Unit × PhyInited) × Option PhyAddr) :=
  match portToPhyBus port with
  | .error _ => pure ((.error .einval, inited), none)
  | .ok ⟨phy, lane⟩ => do
    miimDividerInit
    let (inited, proven) ← initOnceRecorded env inited phy
    configureLane env.junk phy lane
    onlyIf (49 ≤ port ∧ port ≤ 52) do
      retimerUnmute env port
      diagnosePcs env phy lane
    aerReset phy
    return ((.ok (), inited), if proven then some phy else none)

section Recording

attribute [local instance] RegProg.lawfulMonad

variable (env : SerdesEnv)

/-- The record changes nothing. -/
theorem wcPhyInit_recorded (phy : PhyAddr) :
    wcPhyInit env phy = wcPhyInitRecorded env phy >>= fun _ => pure () := by
  simp only [wcPhyInit, wcPhyInitRecorded, phyInitStart, phyInitFirmware, phyInitFinish,
    wcReadInto, bind_assoc, pure_bind, bind_pure_unit]
  -- down to the check of the version
  refine bind_congr fun rc => bind_congr fun rc => bind_congr fun _ => bind_congr fun _ =>
    bind_congr fun rc => bind_congr fun _ => bind_congr fun version => ?_
  unfold onlyIf
  split_ifs
  · simp only [bind_assoc, pure_bind]
  · simp only [pure_bind]

theorem initOnce_recorded (inited : PhyInited) (phy : PhyAddr) :
    initOnce env inited phy = Prod.fst <$> initOnceRecorded env inited phy := by
  unfold initOnce initOnceRecorded
  split_ifs
  · simp only [wcPhyInit_recorded, map_bind, bind_assoc, pure_bind, map_pure]
  · rfl

theorem serdesInit10g_recorded (inited : PhyInited) (port : ℤ) :
    serdesInit10g env inited port = Prod.fst <$> serdesInit10gRecorded env inited port := by
  unfold serdesInit10g serdesInit10gRecorded
  cases portToPhyBus port with
  | error e => rfl
  | ok a => simp only [initOnce_recorded, map_bind, bind_map_left, map_pure]

end Recording

/-! ### What the calls find out -/

section Views

variable (value : ℕ → BitVec 16) (delay : ℕ → ℕ)

/-- What the variable holds when the version is checked, and the first transaction of the
check. -/
def checkStart (junk : BitVec 16) (n : ℕ) : BitVec 16 × ℕ :=
  let val := reply value delay (reply value delay junk n) (afterAccess delay n)
  let k := if val &&& 1#16 <<< 13 ≠ 0 then 3 else 2
  (reply value delay val (accessStart delay n (k + 1)) &&& ~~~0x1f00#16 |||
    (2#16 <<< 8 ||| 1#16 <<< 12), accessStart delay n (k + 3))

/-- The check of the version and the download. -/
def firmwareUc (ucode : List (BitVec 8)) (val : BitVec 16) (v : UcView) :
    (BitVec 16 × Bool) × UcView :=
  let val := reply value delay val v.2
  if val ≠ 0x0101 then
    let r := downloadUc value delay ucode (v.1, afterAccess delay v.2)
    ((val, r.1.isOk), r.2)
  else ((val, AccessOk delay v.2), (v.1, afterAccess delay v.2))

/-- The first transaction of the last poll of the version, when the download ends at the
`n`th. -/
def lateStart (val : BitVec 16) (n : ℕ) : ℕ :=
  accessStart delay (pollReply value delay (fun val => val &&& 1#16 <<< 11 ≠ 0) 200
    (reply value delay val n) (accessStart delay n 2)).2 3

/-- What that poll leaves. -/
def latePoll (val : BitVec 16) (n : ℕ) : BitVec 16 × ℕ :=
  pollReply value delay (fun val => val ≠ 0) 500 0 (lateStart value delay val n)

/-- The poll of a download has an answer, and the status shows no error then. -/
def DownloadAccepted (words n : ℕ) : Prop :=
  ∃ p < 500, FirstAnswer value delay initDone (accessStart delay n 4) p ∧
    statusReply value delay words (value (accessStart delay (accessStart delay n 4) p + 3))
      (accessStart delay n (5 + p)) &&& 0x0003 = 0

/-- The first transaction after a download from the `n`th that fails. -/
def afterFailure (words n : ℕ) : ℕ :=
  let poll := initPoll value delay n
  if poll.1 &&& 0x8000 = 0 then poll.2 else accessStart delay poll.2 (7 + words)

/-- The first answer of the poll from the `n`th transaction on that is not 0 is 0x0101. -/
def VersionPolled (n : ℕ) : Prop :=
  ∃ p < 500, FirstAnswer value delay (fun val => val ≠ 0) n p ∧
    value (accessStart delay n p + 3) = 0x0101

/-- The same from the check of the version on, with `val` in the variable. -/
def ConfirmsFrom (words : ℕ) (val : BitVec 16) (m : ℕ) : Prop :=
  (AccessOk delay m ∧ value (m + 3) = 0x0101) ∨
    DownloadAccepted value delay words (afterAccess delay m) ∨
    VersionPolled value delay (lateStart value delay (reply value delay val m)
      (afterFailure value delay words (afterAccess delay m)))

/-- The device lets an initialisation from the `n`th transaction on see version 0x0101, before
the download or after it, or lets the download return 0. -/
def Confirms (env : SerdesEnv) (n : ℕ) : Prop :=
  ConfirmsFrom value delay (fwSizeAligned env.ucode / 2) (checkStart value delay env.junk n).1
    (checkStart value delay env.junk n).2

end Views

section Stages

variable {value : ℕ → BitVec 16} {delay : ℕ → ℕ} {env : SerdesEnv} {phy : PhyAddr}

theorem onUc_phyInitStart : OnUc value delay phy (phyInitStart env phy) (fun v =>
    ((checkStart value delay env.junk v.2).1, (v.1, (checkStart value delay env.junk v.2).2))) := by
  have hstop (val : BitVec 16) : OnUc value delay phy
      (onlyIf (val &&& 1#16 <<< 13 ≠ 0) do
        wcPut phy 0 WC_XGXSCONTROL (val &&& ~~~(1#16 <<< 13))
        mark (.usleep 1000))
      (fun v => ((), (v.1, if val &&& 1#16 <<< 13 ≠ 0 then afterAccess delay v.2 else v.2))) := by
    unfold onlyIf
    split_ifs
    · exact (onUc_wcPut_inert (by decide) _).bind fun _ =>
        onUc_mark _
    · exact actsAs_pure ()
  have hrun : OnUc value delay phy (phyInitStart env phy) _ :=
    (onUc_wcReadInto env.junk (by decide)).bind fun val =>
    (onUc_wcReadInto val (by decide)).bind fun val => (hstop val).bind fun _ =>
    (onUc_wcPut_inert (by decide) _).bind fun _ =>
    (onUc_wcReadInto val (by decide)).bind fun val =>
    (onUc_wcPut_inert (by decide) _).bind fun _ =>
    actsAs_pure _
  intro s
  refine Eq.trans ?_ (hrun s)
  simp only [checkStart]
  split_ifs
  · rfl
  · rfl

theorem onUc_phyInitFirmware (val : BitVec 16) : OnUc value delay phy
    (phyInitFirmware env phy val) (firmwareUc value delay env.ucode val) := by
  have hload (version : Rc (BitVec 16)) : OnUc value delay phy
      (if version.toOption.getD val ≠ 0x0101 then do
          let rc ← wcFirmwareDownload phy env.ucode
          return (version.toOption.getD val, rc.isOk)
        else return (version.toOption.getD val, version.isOk))
      (fun v => if version.toOption.getD val ≠ 0x0101 then
          ((version.toOption.getD val, (downloadUc value delay env.ucode v).1.isOk),
            (downloadUc value delay env.ucode v).2)
        else ((version.toOption.getD val, version.isOk), v)) := by
    split_ifs
    · exact (onUc_wcFirmwareDownload env.ucode).bind fun rc => actsAs_pure _
    · exact actsAs_pure _
  have hread : OnUc value delay phy (wcRead phy 0 WC_FW_VERSION) _ := onUc_wcRead (by decide)
  intro s
  refine Eq.trans ?_ (hread.bind hload s)
  simp only [firmwareUc, reply]
  by_cases hok : AccessOk delay (MiimDev.uc phy s).2
  · simp only [if_pos hok, decide_eq_true hok]
    rfl
  · simp only [if_neg hok, decide_eq_false hok]
    rfl

theorem onUc_phyInitFinish (val : BitVec 16) : OnUc value delay phy (phyInitFinish phy val)
    (fun v => ((latePoll value delay val v.2).1,
      (v.1, afterAccess delay (latePoll value delay val v.2).2 + 1))) := by
  have hreset : OnUc value delay phy (aerReset phy) (fun v => ((), (v.1, v.2 + 1))) :=
    (onCore_aerReset phy).coarsen (PhyView.uc phy) fun _ => rfl
  have hlast : OnUc value delay phy (do
        let version ← wcPoll phy WC_FW_VERSION (fun val => val ≠ 0) 500 0
        let _ ← wcReadInto version phy 0 WC_UC_COMMAND
        aerReset phy
        return version)
      (fun v => ((pollReply value delay (fun val => val ≠ 0) 500 0 v.2).1, (v.1, afterAccess delay
        (pollReply value delay (fun val => val ≠ 0) 500 0 v.2).2 + 1))) :=
    (onUc_wcPoll (by decide) _ 500 0).bind fun version =>
    (onUc_wcReadInto version (by decide)).bind fun _ => hreset.bind fun _ => actsAs_pure version
  have hrun : OnUc value delay phy (phyInitFinish phy val) _ :=
    (onUc_wcReadInto val (by decide)).bind fun val =>
    (onUc_wcPut_inert (by decide) _).bind fun _ =>
    (onUc_wcPoll (by decide) _ 200 val).bind fun val =>
    (onUc_wcReadInto val (by decide)).bind fun val =>
    (onUc_wcPut_inert (by decide) _).bind fun _ =>
    (onUc_wcPut_inert (by decide) _).bind fun _ => hlast
  intro s
  refine Eq.trans ?_ (hrun s)
  simp only [latePoll, lateStart, accessStart, Function.iterate_succ, Function.iterate_zero,
    Function.comp_apply, id_eq]

/-- The variable that the version is read into does not look like a version before. -/
theorem checkStart_ne (junk : BitVec 16) (n : ℕ) : (checkStart value delay junk n).1 ≠ 0x0101 := by
  intro h
  have hbit := congrArg (fun b => b.getLsbD 8) h
  simp [checkStart] at hbit

theorem downloadUc_ok_iff {ucode : List (BitVec 8)} {v : UcView} :
    (downloadUc value delay ucode v).1 = .ok () ↔
      DownloadAccepted value delay (fwSizeAligned ucode / 2) v.2 := by
  obtain ⟨u, n⟩ := v
  constructor
  · intro hresult
    rcases downloadUc_cases ucode u with ⟨p, hp, hfirst⟩ | ⟨-, htimeout⟩
    · rw [downloadUc_of_first ucode u hp hfirst, polledUc_ok_iff hfirst.ready] at hresult
      exact ⟨p, hp, hfirst, hresult⟩
    · rw [htimeout] at hresult
      cases hresult
  · rintro ⟨p, hp, hfirst, hstatus⟩
    rw [downloadUc_of_first ucode u hp hfirst]
    exact (polledUc_ok_iff hfirst.ready).mpr hstatus

theorem downloadUc_failed {ucode : List (BitVec 8)} {v : UcView}
    (h : ¬ (downloadUc value delay ucode v).1 = .ok ()) :
    (downloadUc value delay ucode v).2.2 =
      afterFailure value delay (fwSizeAligned ucode / 2) v.2 := by
  simp only [downloadUc, polledUc, afterFailure] at h ⊢
  split_ifs at h ⊢
  · rfl
  · change accessStart delay (transferUc delay ucode (v.1, (initPoll value delay v.2).2)).2 2 = _
    rw [transferUc_count, ← accessStart_add,
      show 5 + fwSizeAligned ucode / 2 + 2 = 7 + fwSizeAligned ucode / 2 by omega]
  · exact absurd rfl h

theorem isOk_iff (rc : Rc Unit) : rc.isOk = true ↔ rc = .ok () := by
  cases rc with
  | error e => exact iff_of_false (fun h => by cases h) (fun h => by cases h)
  | ok a => exact iff_of_true rfl rfl

theorem latePoll_iff {val : BitVec 16} {n : ℕ} : (latePoll value delay val n).1 = 0x0101 ↔
    VersionPolled value delay (lateStart value delay val n) :=
  pollReply_eq_iff (by decide) (by decide)

theorem firmwareUc_iff {ucode : List (BitVec 8)} {val : BitVec 16} (hval : val ≠ 0x0101)
    (u : Uc) (m : ℕ) :
    ((firmwareUc value delay ucode val (u, m)).1.2 = true ∨
      (latePoll value delay (firmwareUc value delay ucode val (u, m)).1.1
        (firmwareUc value delay ucode val (u, m)).2.2).1 = 0x0101) ↔
      ConfirmsFrom value delay (fwSizeAligned ucode / 2) val m := by
  have hread : reply value delay val m = 0x0101 ↔ AccessOk delay m ∧ value (m + 3) = 0x0101 := by
    unfold reply
    split_ifs with hok
    · exact (and_iff_right hok).symm
    · exact iff_of_false hval fun h => hok h.1
  unfold firmwareUc ConfirmsFrom
  rw [← hread, latePoll_iff]
  by_cases hversion : reply value delay val m = 0x0101
  · have hok := (hread.mp hversion).1
    simp [hversion, hok]
  · simp only [hversion, if_true, ne_eq, not_false_iff, false_or]
    rw [isOk_iff, downloadUc_ok_iff]
    refine or_congr_right' fun hfail => ?_
    rw [downloadUc_failed (mt downloadUc_ok_iff.mp hfail)]

/-- An initialisation sees the firmware running, or has loaded it, exactly on a device that
lets it. -/
theorem wcPhyInitRecorded_iff (s : MiimDev (PhyAddr → Uc)) :
    (runAlone (miimDev (ucCore value) delay) (wcPhyInitRecorded env phy) s).1 = true ↔
      Confirms value delay env s.bus.count := by
  have hrun : OnUc value delay phy (wcPhyInitRecorded env phy) _ :=
    onUc_phyInitStart.bind fun val => (onUc_phyInitFirmware val).bind fun r =>
    (onUc_phyInitFinish r.1).bind fun version => actsAs_pure (r.2 || version == 0x0101)
  rw [hrun.result s, Bool.or_eq_true, beq_iff_eq]
  exact firmwareUc_iff (checkStart_ne env.junk s.bus.count) (s.bus.core phy) _

end Stages

/-! ### Histories -/

/-- The marks and the device; and the WARPcores for which some call has read version 0x0101 or
had its download return 0. -/
structure InitState where
  inited : PhyInited
  dev : MiimDev (PhyAddr → Uc)
  proven : List PhyAddr

/-- Nothing is marked when the program starts. -/
def InitState.fresh (dev : MiimDev (PhyAddr → Uc)) : InitState := ⟨fun _ => 0, dev, []⟩

def InitState.marked (s : InitState) (phy : PhyAddr) : Bool :=
  (s.inited phy.bus).getLsbD phy.phy.toNat

/-- A call for a port, with what it finds. -/
structure InitCall where
  env : SerdesEnv
  port : ℤ

section Histories

variable (value : ℕ → BitVec 16) (delay : ℕ → ℕ)

def initStep (s : InitState) (c : InitCall) : InitState :=
  let r := runAlone (miimDev (ucCore value) delay) (serdesInit10gRecorded c.env s.inited c.port)
    s.dev
  ⟨r.1.1.2, r.2, r.1.2.toList ++ s.proven⟩

/-- The marks and the device after a call are those `bcm56846_serdes_init_10g` leaves. -/
theorem initStep_run (s : InitState) (c : InitCall) :
    let r := runAlone (miimDev (ucCore value) delay) (serdesInit10g c.env s.inited c.port) s.dev
    (initStep value delay s c).inited = r.1.2 ∧ (initStep value delay s c).dev = r.2 := by
  simp only [serdesInit10g_recorded, runAlone_map]
  exact ⟨rfl, rfl⟩

/-- A WARPcore marked initialised really is. -/
def MarkedProven (s : InitState) : Prop :=
  ∀ phy : PhyAddr, phy.bus < 3 → s.marked phy → phy ∈ s.proven

/-- A call that initialises a WARPcore finds a device that confirms it. -/
def ConfirmsNew (s : InitState) (c : InitCall) : Prop :=
  ∀ a, portToPhyBus c.port = .ok a → s.marked a.phy = false →
    Confirms value delay c.env s.dev.bus.count

variable {value delay} {s : InitState} {c : InitCall} {a : PortPhy}

theorem portToPhyBus_bus {port : ℤ} (h : portToPhyBus port = .ok a) : a.phy.bus < 3 := by
  unfold portToPhyBus at h
  dsimp only at h
  split_ifs at h <;> cases h <;> dsimp only <;> decide

/-- A call for no WARPcore, or one that is marked already. -/
theorem initStep_idle (h : ∀ a, portToPhyBus c.port = .ok a → s.marked a.phy = true) :
    (initStep value delay s c).inited = s.inited ∧
      (initStep value delay s c).proven = s.proven := by
  simp only [initStep, serdesInit10gRecorded]
  cases hport : portToPhyBus c.port with
  | error e => exact ⟨rfl, rfl⟩
  | ok a =>
    have hmarked : ¬ (a.phy.bus < 3 ∧ (s.inited a.phy.bus).getLsbD a.phy.phy.toNat = false) :=
      fun hclear => absurd (h a hport) (Bool.eq_false_iff.mp hclear.2)
    simp only [runAlone_bind, initOnceRecorded, if_neg hmarked, runAlone_pure]
    exact ⟨trivial, rfl⟩

/-- A call for a WARPcore that is not: it is marked whatever the call finds out. -/
theorem initStep_marks (hport : portToPhyBus c.port = .ok a) (hclear : s.marked a.phy = false) :
    (initStep value delay s c).inited = Function.update s.inited a.phy.bus
        (s.inited a.phy.bus ||| 1#32 <<< a.phy.phy.toNat) ∧
      ((Confirms value delay c.env s.dev.bus.count ∧
          (initStep value delay s c).proven = a.phy :: s.proven) ∨
        (¬ Confirms value delay c.env s.dev.bus.count ∧
          (initStep value delay s c).proven = s.proven)) := by
  have hnew : a.phy.bus < 3 ∧ (s.inited a.phy.bus).getLsbD a.phy.phy.toNat = false :=
    ⟨portToPhyBus_bus hport, hclear⟩
  have hcount : (runAlone (miimDev (ucCore value) delay) miimDividerInit s.dev).2.bus.count =
      s.dev.bus.count := congrArg Prod.snd (ActsAs.state onCore_miimDividerInit s.dev)
  have hproven : (runAlone (miimDev (ucCore value) delay) (wcPhyInitRecorded c.env a.phy)
      (runAlone (miimDev (ucCore value) delay) miimDividerInit s.dev).2).1 = true ↔
      Confirms value delay c.env s.dev.bus.count := hcount ▸ wcPhyInitRecorded_iff _
  simp only [initStep, serdesInit10gRecorded, hport, runAlone_bind, initOnceRecorded, if_pos hnew,
    runAlone_pure]
  refine ⟨trivial, ?_⟩
  by_cases hconfirms : Confirms value delay c.env s.dev.bus.count
  · rw [if_pos (hproven.mpr hconfirms)]
    exact .inl ⟨hconfirms, rfl⟩
  · rw [if_neg (mt hproven.mp hconfirms)]
    exact .inr ⟨hconfirms, rfl⟩

/-- The bit set for a WARPcore is its own. -/
theorem getLsbD_mark (inited : PhyInited) (p q : PhyAddr) :
    (Function.update inited p.bus (inited p.bus ||| 1#32 <<< p.phy.toNat) q.bus).getLsbD
      q.phy.toNat = ((inited q.bus).getLsbD q.phy.toNat || decide (q = p)) := by
  by_cases hbus : q.bus = p.bus
  · rw [hbus, Function.update_self, BitVec.getLsbD_or,
      Bde.getLsbD_one_shiftLeft q.phy.isLt]
    congr 1
    rw [decide_eq_decide, BitVec.toNat_inj]
    obtain ⟨b, x⟩ := p
    obtain ⟨b', x'⟩ := q
    simp only [PhyAddr.mk.injEq]
    exact ⟨fun hphy => ⟨hbus, hphy⟩, fun h => h.2⟩
  · have hne : q ≠ p := fun h => hbus (h ▸ rfl)
    rw [Function.update_of_ne hbus, decide_eq_false hne, Bool.or_false]

/-- The marks are exactly those of the WARPcores that are proven. -/
def MarksExact (s : InitState) : Prop := ∀ phy, s.marked phy = true ↔ phy ∈ s.proven

theorem marksExact_fresh (dev : MiimDev (PhyAddr → Uc)) : MarksExact (.fresh dev) := by
  intro phy
  simp [InitState.marked, InitState.fresh]

theorem initStep_marked (hport : portToPhyBus c.port = .ok a) (hclear : s.marked a.phy = false)
    (phy : PhyAddr) : (initStep value delay s c).marked phy =
      (s.marked phy || decide (phy = a.phy)) := by
  rw [InitState.marked, (initStep_marks hport hclear).1]
  exact getLsbD_mark s.inited a.phy phy

theorem marksExact_initStep (hs : MarksExact s) (h : ConfirmsNew value delay s c) :
    MarksExact (initStep value delay s c) := by
  by_cases hidle : ∀ a, portToPhyBus c.port = .ok a → s.marked a.phy = true
  · intro phy
    rw [InitState.marked, (initStep_idle hidle).1, (initStep_idle hidle).2]
    exact hs phy
  · push Not at hidle
    obtain ⟨a, hport, hclear⟩ := hidle
    rw [ne_eq, Bool.not_eq_true] at hclear
    intro phy
    rcases (initStep_marks hport hclear).2 with ⟨-, hproven⟩ | ⟨hfail, -⟩
    · rw [hproven, initStep_marked hport hclear, List.mem_cons, ← hs phy, Bool.or_eq_true,
        decide_eq_true_iff, or_comm]
    · exact absurd (h a hport hclear) hfail

/-- The mark of a WARPcore that is not confirmed. -/
theorem not_markedProven_initStep (hs : MarksExact s) (h : ¬ ConfirmsNew value delay s c) :
    ¬ MarkedProven (initStep value delay s c) := by
  unfold ConfirmsNew at h
  push Not at h
  obtain ⟨a, hport, hclear, hfail⟩ := h
  intro hproven
  have hmem := hproven a.phy (portToPhyBus_bus hport) (by
    rw [initStep_marked hport hclear, decide_eq_true rfl, Bool.or_true])
  have hsame : (initStep value delay s c).proven = s.proven := by
    rcases (initStep_marks hport hclear).2 with ⟨hconfirms, -⟩ | ⟨-, hsame⟩
    · exact absurd hconfirms hfail
    · exact hsame
  rw [hsame, ← hs a.phy, hclear] at hmem
  exact Bool.false_ne_true hmem

/-- Exactly the histories in which every WARPcore is confirmed by the first call for one of its
ports keep to the meaning of the marks. -/
theorem markedProven_iff (value : ℕ → BitVec 16) (delay : ℕ → ℕ) (dev : MiimDev (PhyAddr → Uc))
    (calls : List InitCall) :
    Throughout (initStep value delay) MarkedProven (.fresh dev) calls ↔
      EachStep (initStep value delay) (ConfirmsNew value delay) (.fresh dev) calls :=
  throughout_iff_eachStep_of_any (fun _ hs phy _ hmarked => (hs phy).mp hmarked)
    (fun _ _ hs hC => marksExact_initStep hs hC)
    (fun _ _ hs hC => not_markedProven_initStep hs hC) (marksExact_fresh dev) calls

end Histories

/-- On a device whose registers all read 0 nothing is confirmed. -/
theorem not_confirms_silent (delay : ℕ → ℕ) (env : SerdesEnv) (n : ℕ) :
    ¬ Confirms (fun _ => 0) delay env n := by
  have hzero : (0 : BitVec 16) ≠ 0x0101 := by decide
  rintro (⟨-, hversion⟩ | ⟨p, -, hfirst, -⟩ | ⟨p, -, -, hversion⟩)
  · exact hzero hversion
  · exact absurd hfirst.ends (by decide)
  · exact hzero hversion

/-- The download of port 52 times out, no transaction fails, and the WARPcore is marked. -/
theorem not_markedProven_silent : ¬ Throughout (initStep (fun _ => 0) (fun _ => 0)) MarkedProven
    (.fresh (idleDev (fun _ => wornUc [0x02]) 0)) [⟨⟨[0x02], fun _ => true, 0⟩, 52⟩] := by
  intro h
  refine not_markedProven_initStep (marksExact_fresh _) (fun hconfirms => ?_) h.2
  exact not_confirms_silent _ _ _ (hconfirms ⟨⟨1, 31⟩, 1⟩ rfl rfl)

end OpenNos.Sdk
