import OpenNos.Bde.Message
import OpenNos.Lib.History

/-! The register accesses an ioctl makes for its caller. The offset of a register
request is checked against the end of BAR0, not against the last word of it, and
the length of an S-Channel request against the 21 words of the window, not
against the 16 of `cmd[]`. A request is contained when both limits hold, whatever
the device does, and the lengths and offsets between the two limits escape. -/

namespace OpenNos.Bde

open Bits RegProg History

/-- The requests of `nos_bde_ioctl` that touch BAR0. -/
inductive BdeReq
  | readReg (offset : BitVec 32)
  | writeReg (offset value : BitVec 32)
  | schanOp (schan : NosBdeSchan)

/-- What the caller gets back. -/
inductive BdeReply
  | reg (value : BitVec 32)
  | done
  | schan (schan : NosBdeSchan)

def nosBdeIoctl (env : BdeEnv) : BdeReq → Pio (Rc BdeReply)
  | .readReg offset => do
    let rc ← ioctlReadReg env offset
    return rc.map .reg
  | .writeReg offset value => do
    let rc ← ioctlWriteReg env offset value
    return rc.map fun _ => .done
  | .schanOp schan => do
    let rc ← ioctlSchanOp env schan
    return rc.map .schan

/-- A request, with what the kernel finds when it is made. -/
structure BdeCall where
  env : BdeEnv
  req : BdeReq

def BdeCall.prog (c : BdeCall) : Pio (Rc BdeReply) := nosBdeIoctl c.env c.req

abbrev BarAccess := Access ℕ (BitVec 32)

/-- A whole word of BAR0. -/
def Inside (a : BarAccess) : Prop := a.reg + 4 ≤ BAR0_LIMIT

/-- What the driver accesses on its own account during an S-Channel operation. -/
def DriverAccess : BarAccess → Prop
  | .read off => off = CMIC_MISC_CONTROL ∨ off = CMICE_SCHAN_CTRL ∨ ∃ i < 16, off = CMICE_SCHAN_D i
  | .write off v => off = CMIC_MISC_CONTROL ∨ off = CMICE_SCHAN_CTRL ∧
      v ∈ [CMICE_SET_START, CMICE_SET_ABORT, CMICE_CLR_START, CMICE_CLR_DONE, CMICE_CLR_ABORT,
        CMICE_CLR_SER, CMICE_CLR_NAK, CMICE_CLR_TIMEOUT]

/-- A word of the caller's `cmd[]`, written to its place in the window. -/
def MessageAccess (schan : NosBdeSchan) (a : BarAccess) : Prop :=
  ∃ i : ℕ, i < 16 ∧ i < schan.len ∧ a = .write (CMICE_SCHAN_D i) (schan.cmd i)

/-- The message words are the caller's, and none goes to the control register. -/
def MessageWords (schan : NosBdeSchan) (t : List BarAccess) : Prop :=
  ∃ before msg after, t = before ++ msg ++ after ∧
    (∀ a ∈ before, DriverAccess a) ∧ (∀ a ∈ after, DriverAccess a) ∧
    (∀ a ∈ msg, MessageAccess schan a ∧ a.reg ≠ CMICE_SCHAN_CTRL)

def IsWrite : BarAccess → Prop
  | .read _ => False
  | .write _ _ => True

/-- A request with this result and these accesses was rejected before it wrote, or
stayed within BAR0 and within its message. -/
def Contained (req : BdeReq) (rc : Rc BdeReply) (t : List BarAccess) : Prop :=
  ((∃ e, rc = .error e) ∧ ∀ a ∈ t, ¬ IsWrite a) ∨
    (∀ a ∈ t, Inside a) ∧
      match req with
      | .schanOp schan => MessageWords schan t
      | .readReg _ | .writeReg _ _ => True

/-- The driver reaches the device for the request. -/
def BdeCall.Reaches (c : BdeCall) : Prop := c.env.probed ∧ c.env.copyFromUser

/-- Offsets up to the last word or past BAR0, lengths up to `cmd[]` or past the
window, unless the request is stopped for another reason. -/
def BdeCall.WithinLimits (c : BdeCall) : Prop :=
  match c.req with
  | .readReg offset => c.Reaches → c.env.copyToUser →
      offset.toNat + 4 ≤ BAR0_LIMIT ∨ BAR0_LIMIT ≤ offset.toNat
  | .writeReg offset _ => c.Reaches →
      offset.toNat + 4 ≤ BAR0_LIMIT ∨ BAR0_LIMIT ≤ offset.toNat
  | .schanOp schan => c.Reaches → c.env.interrupted = false →
      schan.len ≤ 16 ∨ SCHAN_MAX_MSG_WORDS < schan.len

/-! ### The accesses of an S-Channel operation -/

theorem cmiceSchanAbort_driver : EachAccess DriverAccess cmiceSchanAbort := by
  simp [cmiceSchanAbort, iowrite32, writeReg, mark, EachAccess, DriverAccess, Bind.bind,
    RegProg.bind]

theorem readData_driver (data : Words) (i n : ℕ) (h : i + n ≤ 16) :
    EachAccess DriverAccess (readData data i n) := by
  induction n generalizing data i with
  | zero => trivial
  | succ n ih =>
    exact ⟨.inr (.inr ⟨i, by omega, rfl⟩), fun v => ih _ (i + 1) (by omega)⟩

theorem readResponse_driver (n : ℕ) (hn : n ≤ 16) (data : Option Words) :
    EachAccess DriverAccess (readResponse n data) := by
  cases data with
  | none => trivial
  | some d => exact eachAccess_bind (readData_driver d 0 n (by omega)) fun _ => trivial

theorem abort_restore_driver {α : Type} (misc : BitVec 32) (a : α) :
    EachAccess DriverAccess (do cmiceSchanAbort; iowrite32 misc CMIC_MISC_CONTROL; return a) :=
  eachAccess_bind cmiceSchanAbort_driver fun _ => ⟨.inl rfl, trivial⟩

theorem schanPoll_driver (misc : BitVec 32) (data : Option Words) (polls : ℕ) :
    EachAccess DriverAccess (schanPoll misc data 16 polls) := by
  induction polls with
  | zero => exact abort_restore_driver misc _
  | succ polls ih =>
    refine eachAccess_bind (by simp [ioread32, DriverAccess]) fun ctrl => ?_
    split_ifs
    · exact abort_restore_driver misc _
    · exact eachAccess_bind (readResponse_driver _ (le_refl 16) _) fun _ =>
        abort_restore_driver misc _
    · exact eachAccess_bind (by simp) fun _ => ih

theorem trace_writeCmd {σ : Type} (M : Machine σ ℕ (BitVec 32) KernelEvent) (cmd : Words)
    (i n : ℕ) (s : σ) : trace M (writeCmd cmd i n) s =
      (List.range' i n).map fun j => .write (CMICE_SCHAN_D j) (cmd j) := by
  induction n generalizing i s with
  | zero => rfl
  | succ n ih =>
    rw [writeCmd, trace_bind, ih, List.range'_succ, List.map_cons]
    rfl

/-- The request that reaches the device. -/
theorem nosBdeSchanOp_of_len {env : SchanEnv} (hp : env.probed) (hi : env.interrupted = false)
    {len : ℤ} (hpos : 0 < len) (hmax : len ≤ SCHAN_MAX_MSG_WORDS) (cmd : Words)
    (data : Option Words) :
    nosBdeSchanOp env cmd len data 16 = (do
      mark .lockSchanMutex
      let savedMisc ← ioread32 CMIC_MISC_CONTROL
      let ctrl ← ioread32 CMICE_SCHAN_CTRL
      onlyIf (ctrl ≠ 0) cmiceSchanAbort
      writeCmd cmd 0 len.toNat
      onlyIf (len > 7) (iowrite32 savedMisc CMIC_MISC_CONTROL)
      iowrite32 CMICE_SET_START CMICE_SCHAN_CTRL
      let result ← schanPoll savedMisc data 16 env.polls
      mark .unlockSchanMutex
      return .ok result) := by
  rw [nosBdeSchanOp, if_neg, if_neg (by simp [hi])]
  simp only [SCHAN_MAX_MSG_WORDS] at hmax ⊢
  rintro (h | h | h | h | h)
  · simp [hp] at h
  all_goals omega

theorem nosBdeSchanOp_of_not_len (env : SchanEnv) {len : ℤ}
    (h : env.probed = false ∨ env.interrupted = true ∨ len ≤ 0 ∨ SCHAN_MAX_MSG_WORDS < len)
    (cmd : Words) (data : Option Words) :
    ∃ e, nosBdeSchanOp env cmd len data 16 = pure (.error e) := by
  rw [nosBdeSchanOp]
  split_ifs with hguard hint
  · exact ⟨_, rfl⟩
  · exact ⟨_, rfl⟩
  · simp only [not_or] at hguard
    rcases h with h | h | h | h
    · simp [h] at hguard
    · exact absurd h hint
    · omega
    · omega

variable {σ : Type} (M : Machine σ ℕ (BitVec 32) KernelEvent)

/-- The message is written between accesses of the driver's own. -/
theorem trace_nosBdeSchanOp {env : SchanEnv} (hp : env.probed) (hi : env.interrupted = false)
    {len : ℤ} (hpos : 0 < len) (hmax : len ≤ SCHAN_MAX_MSG_WORDS) (cmd : Words)
    (data : Option Words) (s : σ) :
    ∃ before after, trace M (nosBdeSchanOp env cmd len data 16) s =
        before ++ (List.range len.toNat).map (fun j => .write (CMICE_SCHAN_D j) (cmd j)) ++ after ∧
      (∀ a ∈ before, DriverAccess a) ∧ ∀ a ∈ after, DriverAccess a := by
  rw [nosBdeSchanOp_of_len hp hi hpos hmax, trace_bind, trace_bind, trace_bind, trace_bind,
    trace_bind, trace_writeCmd, ← List.range_eq_range']
  simp only [trace_mark, ioread32, trace_readReg, List.nil_append, ← List.append_assoc]
  refine ⟨_, _, rfl, ?_, ?_⟩
  · intro a ha
    simp only [List.mem_append, List.mem_singleton] at ha
    rcases ha with (rfl | rfl) | ha
    · exact .inl rfl
    · exact .inr (.inl rfl)
    · exact mem_trace_of_eachAccess (eachAccess_onlyIf cmiceSchanAbort_driver) _ a ha
  · refine mem_trace_of_eachAccess ?_ _
    refine eachAccess_bind (eachAccess_onlyIf ⟨.inl rfl, trivial⟩) fun _ => ?_
    refine eachAccess_bind ⟨.inr ⟨rfl, by simp⟩, trivial⟩ fun _ => ?_
    exact eachAccess_bind (schanPoll_driver _ _ _) fun _ =>
      eachAccess_bind (by simp) fun _ => trivial

theorem DriverAccess.inside {a : BarAccess} (h : DriverAccess a) : Inside a := by
  have hmisc : CMIC_MISC_CONTROL + 4 ≤ BAR0_LIMIT := by decide
  have hctrl : CMICE_SCHAN_CTRL + 4 ≤ BAR0_LIMIT := by decide
  cases a with
  | read off =>
    rcases h with rfl | rfl | ⟨i, hi, rfl⟩
    · exact hmisc
    · exact hctrl
    · simp only [Inside, Access.reg, CMICE_SCHAN_D, BAR0_LIMIT]
      omega
  | write off v =>
    rcases h with rfl | ⟨rfl, -⟩
    · exact hmisc
    · exact hctrl

/-- Word 16 of the window is no register of the driver's and no word of `cmd[]`. -/
theorem not_driverAccess_word16 (v : BitVec 32) : ¬ DriverAccess (.write (CMICE_SCHAN_D 16) v) := by
  simp [DriverAccess, CMICE_SCHAN_D, CMIC_MISC_CONTROL, CMICE_SCHAN_CTRL]

theorem not_messageAccess_word16 (schan : NosBdeSchan) (v : BitVec 32) :
    ¬ MessageAccess schan (.write (CMICE_SCHAN_D 16) v) := by
  rintro ⟨i, hi, -, heq⟩
  have hoff : CMICE_SCHAN_D 16 = CMICE_SCHAN_D i := (Access.write.inj heq).1
  simp only [CMICE_SCHAN_D] at hoff
  omega

theorem MessageAccess.inside {schan : NosBdeSchan} {a : BarAccess} (h : MessageAccess schan a) :
    Inside a := by
  obtain ⟨i, hi, -, rfl⟩ := h
  simp only [Inside, Access.reg, CMICE_SCHAN_D, BAR0_LIMIT]
  omega

theorem MessageAccess.ne_ctrl {schan : NosBdeSchan} {a : BarAccess} (h : MessageAccess schan a) :
    a.reg ≠ CMICE_SCHAN_CTRL := by
  obtain ⟨i, hi, -, rfl⟩ := h
  simp only [Access.reg, CMICE_SCHAN_D, CMICE_SCHAN_CTRL]
  omega

/-- What a request writes into the window, whether or not it is in `cmd[]`. -/
def NosBdeSchan.windowWrites (schan : NosBdeSchan) : List BarAccess :=
  (List.range schan.len.toNat).map fun j => .write (CMICE_SCHAN_D j) (schan.cmdPtr j)

section Window
variable {schan : NosBdeSchan} {rc : Rc BdeReply} {before after : List BarAccess}

/-- Beyond 16 words the one behind `cmd[]` is neither the caller's nor the driver's. -/
theorem not_contained_of_long (hlen : 16 < schan.len) :
    ¬ Contained (.schanOp schan) rc (before ++ schan.windowWrites ++ after) := by
  have hmem : Access.write (CMICE_SCHAN_D 16) (schan.cmdPtr 16) ∈
      before ++ schan.windowWrites ++ after := by
    rw [List.mem_append, List.mem_append, NosBdeSchan.windowWrites, List.mem_map]
    exact .inl (.inr ⟨16, List.mem_range.mpr (by omega), rfl⟩)
  rintro (⟨-, hnone⟩ | ⟨-, b, msg, a, heq, hb, ha, hmsg⟩)
  · exact hnone _ hmem trivial
  · rw [heq, List.mem_append, List.mem_append] at hmem
    rcases hmem with (h | h) | h
    · exact not_driverAccess_word16 _ (hb _ h)
    · exact not_messageAccess_word16 _ _ (hmsg _ h).1
    · exact not_driverAccess_word16 _ (ha _ h)

theorem messageAccess_of_mem (hlen : schan.len ≤ 16) {a : BarAccess}
    (ha : a ∈ schan.windowWrites) : MessageAccess schan a := by
  obtain ⟨i, hi, rfl⟩ := List.mem_map.mp ha
  rw [List.mem_range] at hi
  exact ⟨i, by omega, by omega, by rw [NosBdeSchan.cmdPtr, if_pos (by omega)]⟩

theorem contained_of_short (hlen : schan.len ≤ 16) (hbefore : ∀ a ∈ before, DriverAccess a)
    (hafter : ∀ a ∈ after, DriverAccess a) :
    Contained (.schanOp schan) rc (before ++ schan.windowWrites ++ after) := by
  refine .inr ⟨fun a ha => ?_, before, _, after, rfl, hbefore, hafter, fun a ha =>
    ⟨messageAccess_of_mem hlen ha, (messageAccess_of_mem hlen ha).ne_ctrl⟩⟩
  rw [List.mem_append, List.mem_append] at ha
  rcases ha with (h | h) | h
  · exact (hbefore a h).inside
  · exact (messageAccess_of_mem hlen h).inside
  · exact (hafter a h).inside

end Window

/-! ### The requests -/

/-- The request's result and accesses on a machine. -/
def BdeCall.Contained (c : BdeCall) (s : σ) : Prop :=
  Bde.Contained c.req (exec M c.prog s).1 (trace M c.prog s)

variable {M} in
theorem contained_of_rejected {c : BdeCall} {e : Errno} (h : c.prog = pure (.error e)) (s : σ) :
    c.Contained M s := by
  rw [BdeCall.Contained, h]
  exact .inl ⟨⟨e, rfl⟩, fun _ ha => absurd ha List.not_mem_nil⟩

/-- A request the driver stops at once. -/
theorem prog_of_not_reaches {c : BdeCall} (h : ¬ c.Reaches) :
    ∃ e, c.prog = pure (.error e) := by
  obtain ⟨env, req⟩ := c
  have hstop : (!env.probed) = true ∨ (!env.probed) = false ∧ (!env.copyFromUser) = true := by
    rw [BdeCall.Reaches] at h
    cases hp : env.probed <;> simp_all
  rw [BdeCall.prog]
  rcases hstop with hp | ⟨hp, hc⟩ <;> cases req
  case inl.readReg => exact ⟨_, by rw [nosBdeIoctl, ioctlReadReg, if_pos hp]; rfl⟩
  case inl.writeReg => exact ⟨_, by rw [nosBdeIoctl, ioctlWriteReg, if_pos hp]; rfl⟩
  case inl.schanOp => exact ⟨_, by rw [nosBdeIoctl, ioctlSchanOp, if_pos hp]; rfl⟩
  case inr.readReg =>
    exact ⟨_, by rw [nosBdeIoctl, ioctlReadReg, if_neg (by simp [hp]), if_pos hc]; rfl⟩
  case inr.writeReg =>
    exact ⟨_, by rw [nosBdeIoctl, ioctlWriteReg, if_neg (by simp [hp]), if_pos hc]; rfl⟩
  case inr.schanOp =>
    exact ⟨_, by rw [nosBdeIoctl, ioctlSchanOp, if_neg (by simp [hp]), if_pos hc]; rfl⟩

section Reaches
variable {env : BdeEnv} (hp : env.probed = true) (hc : env.copyFromUser = true)
include hp hc

theorem ioctlReadReg_of_reaches (offset : BitVec 32) : ioctlReadReg env offset =
    if offset.toNat ≥ BAR0_LIMIT then pure (.error .einval)
    else do
      let v ← ioread32 offset.toNat
      if !env.copyToUser then return .error .efault
      return .ok v := by
  simp [ioctlReadReg, hp, hc]

theorem ioctlWriteReg_of_reaches (offset value : BitVec 32) : ioctlWriteReg env offset value =
    if offset.toNat ≥ BAR0_LIMIT then pure (.error .einval)
    else do
      iowrite32 value offset.toNat
      return .ok () := by
  simp [ioctlWriteReg, hp, hc]

theorem contained_readReg_iff (offset : BitVec 32) (s : σ) :
    BdeCall.Contained M ⟨env, .readReg offset⟩ s ↔
      BdeCall.WithinLimits ⟨env, .readReg offset⟩ := by
  simp only [BdeCall.Contained, BdeCall.WithinLimits, BdeCall.Reaches, BdeCall.prog, nosBdeIoctl,
    ioctlReadReg_of_reaches hp hc, hp, hc]
  by_cases ho : offset.toNat ≥ BAR0_LIMIT
  · simp [ho, Contained, trace_bind, exec_bind, Except.map]
  · cases ht : env.copyToUser
    · simp [ho, Contained, trace_bind, exec_bind, ioread32, Except.map, IsWrite]
    · simp [ho, Contained, trace_bind, exec_bind, ioread32, Except.map, IsWrite, Inside, Access.reg]

theorem contained_writeReg_iff (offset value : BitVec 32) (s : σ) :
    BdeCall.Contained M ⟨env, .writeReg offset value⟩ s ↔
      BdeCall.WithinLimits ⟨env, .writeReg offset value⟩ := by
  simp only [BdeCall.Contained, BdeCall.WithinLimits, BdeCall.Reaches, BdeCall.prog, nosBdeIoctl,
    ioctlWriteReg_of_reaches hp hc, hp, hc]
  by_cases ho : offset.toNat ≥ BAR0_LIMIT
  · simp [ho, Contained, trace_bind, exec_bind, Except.map]
  · simp [ho, Contained, trace_bind, exec_bind, iowrite32, Except.map, Inside, Access.reg]

/-- What follows the operation makes no access. -/
theorem trace_schanOp (schan : NosBdeSchan) (s : σ) :
    trace M (nosBdeIoctl env (.schanOp schan)) s =
      trace M (nosBdeSchanOp env.toSchanEnv schan.cmdPtr schan.len (some schan.data) 16) s := by
  rw [nosBdeIoctl, ioctlSchanOp, if_neg (by simp [hp]), if_neg (by simp [hc]), trace_bind,
    trace_bind]
  generalize exec M (nosBdeSchanOp _ _ _ _ _) s = r
  obtain ⟨rc, s'⟩ := r
  cases rc with
  | error e => simp
  | ok v =>
    obtain ⟨status, data⟩ := v
    cases env.copyToUser <;> simp

theorem prog_schanOp_of_rejected {schan : NosBdeSchan}
    (h : env.interrupted = true ∨ schan.len ≤ 0 ∨ SCHAN_MAX_MSG_WORDS < schan.len) :
    BdeCall.prog ⟨env, .schanOp schan⟩ = pure (.error .eio) := by
  obtain ⟨e, he⟩ := nosBdeSchanOp_of_not_len env.toSchanEnv (.inr h) schan.cmdPtr
    (some schan.data)
  rw [BdeCall.prog, nosBdeIoctl, ioctlSchanOp, if_neg (by simp [hp]), if_neg (by simp [hc]), he]
  rfl

theorem contained_schanOp_iff (schan : NosBdeSchan) (s : σ) :
    BdeCall.Contained M ⟨env, .schanOp schan⟩ s ↔
      BdeCall.WithinLimits ⟨env, .schanOp schan⟩ := by
  by_cases hrej : env.interrupted = true ∨ schan.len ≤ 0 ∨ SCHAN_MAX_MSG_WORDS < schan.len
  · refine iff_of_true (contained_of_rejected (prog_schanOp_of_rejected hp hc hrej) s) ?_
    rintro - hi
    dsimp only at hi
    rw [SCHAN_MAX_MSG_WORDS] at hrej ⊢
    rcases hrej with h | h | h
    · rw [hi] at h
      cases h
    · exact .inl (by omega)
    · exact .inr h
  · simp only [not_or, not_lt, not_le, Bool.not_eq_true] at hrej
    obtain ⟨hi, hpos, hmax⟩ := hrej
    obtain ⟨before, after, htrace, hbefore, hafter⟩ :=
      trace_nosBdeSchanOp M hp hi hpos hmax schan.cmdPtr (some schan.data) s
    rw [BdeCall.Contained, BdeCall.prog, trace_schanOp M hp hc, htrace]
    constructor
    · intro h _ _
      refine .inl ?_
      by_contra hlen
      exact not_contained_of_long (not_le.mp hlen) h
    · intro h
      have hlen : schan.len ≤ 16 := by
        rcases h ⟨hp, hc⟩ hi with h | h
        · exact h
        · omega
      exact contained_of_short hlen hbefore hafter

end Reaches

theorem contained_iff (c : BdeCall) (s : σ) : c.Contained M s ↔ c.WithinLimits := by
  by_cases hr : c.Reaches
  · obtain ⟨env, req⟩ := c
    cases req with
    | readReg offset => exact contained_readReg_iff M hr.1 hr.2 offset s
    | writeReg offset value => exact contained_writeReg_iff M hr.1 hr.2 offset value s
    | schanOp schan => exact contained_schanOp_iff M hr.1 hr.2 schan s
  · obtain ⟨e, he⟩ := prog_of_not_reaches hr
    refine iff_of_true (contained_of_rejected he s) ?_
    obtain ⟨env, req⟩ := c
    cases req with
    | readReg offset => exact fun h => absurd h hr
    | writeReg offset value => exact fun h => absurd h hr
    | schanOp schan => exact fun h => absurd h hr

/-- The state of the device after a request. -/
def afterCall (s : σ) (c : BdeCall) : σ := (exec M c.prog s).2

/-- Whatever the device does, the sequences of requests that all stay contained are
those whose offsets and lengths are within the limits. -/
theorem ioctl_contained_iff (s : σ) (calls : List BdeCall) :
    EachStep (afterCall M) (fun s c => c.Contained M s) s calls ↔
      ∀ c ∈ calls, c.WithinLimits := by
  have hlimits : EachStep (afterCall M) (fun _ c => c.WithinLimits) s calls ↔
      ∀ c ∈ calls, c.WithinLimits := eachStep_iff_forall
  rw [← hlimits]
  have same (s : σ) (c : BdeCall) (_ : True) : c.Contained M s ↔ c.WithinLimits :=
    contained_iff M c s
  exact eachStep_congr same (fun _ _ _ _ => trivial) trivial calls

/-- A write at the last byte of BAR0. -/
theorem ioctl_contained_fails :
    ¬ ∀ (s : Bar0) (calls : List BdeCall),
      EachStep (afterCall bar0) (fun s c => c.Contained bar0 s) s calls := by
  intro h
  obtain ⟨hc, -⟩ := h ⟨fun _ => 0, false⟩ [⟨readyEnv, .writeReg 0x3ffff 0⟩]
  rcases hc with ⟨⟨e, he⟩, -⟩ | ⟨hin, -⟩
  · cases he
  · exact absurd (hin (.write 0x3ffff 0) (List.mem_singleton_self _))
      (by simp [Inside, Access.reg, BAR0_LIMIT])

end OpenNos.Bde
