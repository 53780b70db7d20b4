import OpenNos.Bde.Containment

/-! The S-Channel device as the driver's polls see it. A script says what every
register reads at each look at each operation, so that any completion the device
can produce, at any time and with any flags and any response, is some script. The
module computes the result of an operation from the script. -/

namespace OpenNos.Bde

open Bits RegProg

/-- What each register reads at one look at the device. -/
abbrev Look := ℕ → BitVec 32

/-- What the device shows: operation, number of the look, register. -/
abbrev SchanScript := ℕ → ℕ → Look

/-- The registers while no operation runs, and the one that runs with the number
of looks already past. -/
structure SchanDev where
  reg : Look
  started : ℕ
  running : Option (ℕ × ℕ)

/-- START begins an operation, ABORT ends it, and time passes between two polls. -/
def schanDev (script : SchanScript) : Machine SchanDev ℕ (BitVec 32) KernelEvent where
  read s off :=
    match s.running with
    | some (op, k) => script op k off
    | none => s.reg off
  write s off v :=
    if off = CMICE_SCHAN_CTRL ∧ v = CMICE_SET_START then
      { s with started := s.started + 1, running := some (s.started, 0) }
    else if off = CMICE_SCHAN_CTRL ∧ v = CMICE_SET_ABORT then { s with running := none }
    else { s with reg := Function.update s.reg off (written off (s.reg off) v) }
  event s
    | .usleepRange _ _ => { s with running := s.running.map fun r => (r.1, r.2 + 1) }
    | .lockSchanMutex | .unlockSchanMutex | .udelay _ => s

/-- The operation is over. -/
def Look.done (v : Look) : Bool := v CMICE_SCHAN_CTRL &&& SCHAN_CTRL_DONE != 0

/-- It ended without TIMEOUT and NAK. -/
def Look.Delivered (v : Look) : Prop :=
  v CMICE_SCHAN_CTRL &&& (SCHAN_CTRL_TIMEOUT ||| SCHAN_CTRL_NAK) = 0

instance (v : Look) : Decidable v.Delivered := inferInstanceAs (Decidable (_ = _))

/-- The words of the response. -/
def Look.response (v : Look) : Words := fun i => v (CMICE_SCHAN_D i)

/-- What the device shows when the operation is over, if that is before the
deadline. -/
def completion (polls : ℕ) (looks : ℕ → Look) : Option Look :=
  ((List.range polls).map looks).find? Look.done

/-- `*status` and the data buffer after the operation. -/
def reply (data : Option Words) : Option Look → ℤ × Option Words
  | none => (-Errno.etimedout.code, data)
  | some v =>
    if v.Delivered then (0, data.map fun d => splice 16 v.response d)
    else (-Errno.eio.code, data)

variable (script : SchanScript)

theorem completion_succ (polls : ℕ) (looks : ℕ → Look) :
    completion (polls + 1) looks =
      if (looks 0).done then some (looks 0) else completion polls fun k => looks (k + 1) := by
  rw [completion, List.range_succ_eq_map, List.map_cons, List.find?_cons, completion, List.map_map]
  cases (looks 0).done <;> rfl

theorem exec_iowrite32_other {off : ℕ} {v : BitVec 32} {s : SchanDev}
    (h : off ≠ CMICE_SCHAN_CTRL) : exec (schanDev script) (iowrite32 v off) s =
      ((), { s with reg := Function.update s.reg off v }) := by
  simp [iowrite32, schanDev, h]

/-- The device is idle after an abort, whatever it was doing. -/
theorem exec_cmiceSchanAbort (s : SchanDev) :
    ∃ reg, exec (schanDev script) cmiceSchanAbort s =
      ((), { s with reg := reg, running := none }) :=
  ⟨_, rfl⟩

theorem exec_onlyIf_abort (c : Prop) [Decidable c] (s : SchanDev) :
    ∃ reg running, exec (schanDev script) (onlyIf c cmiceSchanAbort) s =
      ((), { s with reg := reg, running := running }) := by
  rw [onlyIf]
  split_ifs
  · obtain ⟨reg, hreg⟩ := exec_cmiceSchanAbort script s
    exact ⟨reg, _, hreg⟩
  · exact ⟨_, _, rfl⟩

theorem exec_onlyIf_misc (c : Prop) [Decidable c] (v : BitVec 32) (s : SchanDev) :
    ∃ reg, exec (schanDev script) (onlyIf c (iowrite32 v CMIC_MISC_CONTROL)) s =
      ((), { s with reg := reg }) := by
  rw [onlyIf]
  split_ifs
  · exact ⟨_, exec_iowrite32_other script (by decide)⟩
  · exact ⟨_, rfl⟩

theorem exec_abort_restore {α : Type} (misc : BitVec 32) (a : α) (s : SchanDev) :
    ∃ reg, exec (schanDev script)
        (do cmiceSchanAbort; iowrite32 misc CMIC_MISC_CONTROL; return a) s =
      (a, { s with reg := reg, running := none }) := by
  obtain ⟨reg, hreg⟩ := exec_cmiceSchanAbort script s
  rw [exec_bind, hreg, exec_bind, exec_iowrite32_other script (by decide)]
  exact ⟨_, rfl⟩

theorem exec_ioread32 (off : ℕ) (s : SchanDev) :
    exec (schanDev script) (ioread32 off) s = ((schanDev script).read s off, s) := rfl

theorem exec_ioread32_running {s : SchanDev} {op k : ℕ} (hs : s.running = some (op, k)) (off : ℕ) :
    exec (schanDev script) (ioread32 off) s = (script op k off, s) := by
  simp [ioread32, schanDev, hs]

/-- While the operation runs, the response is read from one look. -/
theorem exec_readData {s : SchanDev} {op k : ℕ} (hs : s.running = some (op, k)) (data : Words)
    (i n : ℕ) : exec (schanDev script) (readData data i n) s =
      ((fun j => if i ≤ j ∧ j < i + n then (script op k).response j else data j), s) := by
  induction n generalizing data i with
  | zero =>
    simp only [readData, exec_pure, Prod.mk.injEq, and_true]
    funext j
    rw [if_neg (by omega)]
  | succ n ih =>
    rw [readData, exec_bind, exec_ioread32_running script hs, ih, Prod.mk.injEq]
    refine ⟨?_, rfl⟩
    funext j
    by_cases hji : j = i
    · subst hji
      simp [Look.response]
    · rw [Function.update_of_ne hji]
      have : i + 1 ≤ j ∧ j < i + 1 + n ↔ i ≤ j ∧ j < i + (n + 1) := by omega
      simp only [this]

theorem exec_readResponse {s : SchanDev} {op k : ℕ} (hs : s.running = some (op, k)) (n : ℕ)
    (data : Option Words) : exec (schanDev script) (readResponse n data) s =
      (data.map fun d => splice n (script op k).response d, s) := by
  cases data with
  | none => rfl
  | some d =>
    rw [readResponse, exec_bind, exec_readData script hs]
    simp only [Nat.zero_le, true_and, Nat.zero_add, exec_pure, Option.map_some]
    rfl

/-- The polls find the completion, or time out. -/
theorem exec_schanPoll {s : SchanDev} {op k : ℕ} (hs : s.running = some (op, k))
    (misc : BitVec 32) (data : Option Words) (polls : ℕ) :
    ∃ reg, exec (schanDev script) (schanPoll misc data 16 polls) s =
      (reply data (completion polls fun j => script op (k + j)),
        { s with reg := reg, running := none }) := by
  induction polls generalizing s k with
  | zero => exact exec_abort_restore script misc _ s
  | succ polls ih =>
    rw [schanPoll, exec_bind, exec_ioread32_running script hs, completion_succ]
    cases hd : (script op k).done with
    | true =>
      have hdone : script op k CMICE_SCHAN_CTRL &&& SCHAN_CTRL_DONE ≠ 0 := by
        simpa [Look.done] using hd
      simp only [hdone, ne_eq, not_false_eq_true, if_true, Nat.add_zero, reply]
      by_cases hdel : (script op k).Delivered
      · have hctrl : script op k CMICE_SCHAN_CTRL &&& (SCHAN_CTRL_TIMEOUT ||| SCHAN_CTRL_NAK) = 0 :=
          hdel
        rw [if_neg (not_not_intro hctrl), if_pos hdel, exec_bind, exec_readResponse script hs]
        exact exec_abort_restore script misc _ s
      · have hctrl :
            ¬ script op k CMICE_SCHAN_CTRL &&& (SCHAN_CTRL_TIMEOUT ||| SCHAN_CTRL_NAK) = 0 := hdel
        rw [if_pos hctrl, if_neg hdel]
        exact exec_abort_restore script misc _ s
    | false =>
      have hdone : script op k CMICE_SCHAN_CTRL &&& SCHAN_CTRL_DONE = 0 := by
        simpa [Look.done] using hd
      have hs' : ((schanDev script).event s (.usleepRange 10 50)).running = some (op, k + 1) := by
        simp [schanDev, hs]
      obtain ⟨reg, hreg⟩ := ih hs'
      simp only [hdone, ne_eq, not_true_eq_false, if_false, Nat.add_zero]
      rw [exec_bind, exec_mark, hreg]
      refine ⟨reg, ?_⟩
      simp only [Nat.add_assoc, Nat.add_comm 1, Bool.false_eq_true, if_false]
      rfl

theorem exec_writeCmd (cmd : Words) (i n : ℕ) (h : i + n ≤ 20) (s : SchanDev) :
    ∃ reg, exec (schanDev script) (writeCmd cmd i n) s = ((), { s with reg := reg }) := by
  induction n generalizing i s with
  | zero => exact ⟨s.reg, rfl⟩
  | succ n ih =>
    have hne : CMICE_SCHAN_D i ≠ CMICE_SCHAN_CTRL := by
      simp only [CMICE_SCHAN_D, CMICE_SCHAN_CTRL]
      omega
    rw [writeCmd, exec_bind, exec_iowrite32_other script hne]
    exact ih (i + 1) (by omega) _

/-- The result of an operation is the reply to its completion. -/
theorem exec_nosBdeSchanOp {env : SchanEnv} (hp : env.probed) (hi : env.interrupted = false)
    {len : ℤ} (hpos : 0 < len) (hmax : len ≤ 16) (cmd : Words) (data : Option Words)
    (s : SchanDev) :
    ∃ reg, exec (schanDev script) (nosBdeSchanOp env cmd len data 16) s =
      (.ok (reply data (completion env.polls (script s.started))),
        { reg := reg, started := s.started + 1, running := none }) := by
  obtain ⟨r₁, run₁, h₁⟩ := exec_onlyIf_abort script
    ((schanDev script).read s CMICE_SCHAN_CTRL ≠ 0) s
  obtain ⟨r₂, h₂⟩ := exec_writeCmd script cmd 0 len.toNat (by omega)
    { s with reg := r₁, running := run₁ }
  obtain ⟨r₃, h₃⟩ := exec_onlyIf_misc script (len > 7)
    ((schanDev script).read s CMIC_MISC_CONTROL) { s with reg := r₂, running := run₁ }
  -- the state right after START
  have hrun : ({ reg := r₃, started := s.started + 1, running := some (s.started, 0) } :
      SchanDev).running = some (s.started, 0) := rfl
  have hstart : exec (schanDev script) (iowrite32 CMICE_SET_START CMICE_SCHAN_CTRL)
      { s with reg := r₃, running := run₁ } =
      ((), { reg := r₃, started := s.started + 1, running := some (s.started, 0) }) := rfl
  obtain ⟨r₄, h₄⟩ := exec_schanPoll script hrun ((schanDev script).read s CMIC_MISC_CONTROL) data
    env.polls
  refine ⟨r₄, ?_⟩
  have hlock : (schanDev script).event s .lockSchanMutex = s := rfl
  simp only [Nat.zero_add] at h₄
  rw [nosBdeSchanOp_of_len hp hi hpos (hmax.trans (by decide)), exec_bind, exec_mark, hlock,
    exec_bind, exec_ioread32, exec_bind, exec_ioread32, exec_bind, h₁, exec_bind, h₂, exec_bind,
    h₃, exec_bind, hstart, exec_bind, h₄]
  rfl

/-! ### Through the ioctl -/

/-- Nothing but the device decides the result of an S-Channel request. -/
structure BdeEnv.Answers (env : BdeEnv) : Prop where
  fdOpen : env.fdOpen = true
  probed : env.probed = true
  copyFromUser : env.copyFromUser = true
  interrupted : env.interrupted = false
  copyToUser : env.copyToUser = true

instance (env : BdeEnv) : Decidable env.Answers :=
  decidable_of_iff (env.fdOpen = true ∧ env.probed = true ∧ env.copyFromUser = true ∧
      env.interrupted = false ∧ env.copyToUser = true)
    ⟨fun ⟨h₁, h₂, h₃, h₄, h₅⟩ => ⟨h₁, h₂, h₃, h₄, h₅⟩,
      fun h => ⟨h.fdOpen, h.probed, h.copyFromUser, h.interrupted, h.copyToUser⟩⟩

/-- The look at a completion without TIMEOUT and NAK. -/
def delivered (polls : ℕ) (looks : ℕ → Look) : Option Look :=
  (completion polls looks).filter fun v => v.Delivered

theorem mem_delivered {polls : ℕ} {looks : ℕ → Look} {v : Look} :
    delivered polls looks = some v ↔ completion polls looks = some v ∧ v.Delivered := by
  rw [delivered, Option.filter_eq_some_iff, decide_eq_true_iff]

/-- The reply to a delivered operation. -/
theorem reply_of_delivered {polls : ℕ} {looks : ℕ → Look} {v : Look}
    (h : delivered polls looks = some v) (data : Words) :
    reply (some data) (completion polls looks) = (0, some (splice 16 v.response data)) := by
  obtain ⟨hc, hv⟩ := mem_delivered.mp h
  rw [hc, reply, if_pos hv]
  rfl

theorem reply_of_not_delivered {polls : ℕ} {looks : ℕ → Look}
    (h : delivered polls looks = none) (data : Words) :
    ∃ status, status ≠ 0 ∧ reply (some data) (completion polls looks) = (status, some data) := by
  cases hc : completion polls looks with
  | none => exact ⟨-Errno.etimedout.code, by decide, rfl⟩
  | some v =>
    have hv : ¬ v.Delivered := by
      intro hv
      rw [mem_delivered.mpr ⟨hc, hv⟩] at h
      cases h
    exact ⟨-Errno.eio.code, by decide, if_neg hv⟩

section Through
variable {env : BdeEnv} {schan : NosBdeSchan} (hpos : 0 < schan.len)
  (hmax : schan.len ≤ 16)
include hpos hmax

theorem exec_ioctlSchanOp (hp : env.probed = true) (hc : env.copyFromUser = true)
    (hi : env.interrupted = false) (s : SchanDev) :
    ∃ reg, exec (schanDev script) (ioctlSchanOp env schan) s =
      (let r := reply (some schan.data) (completion env.polls (script s.started))
        if env.copyToUser then .ok { schan with status := r.1, data := r.2.getD schan.data }
        else .error .efault,
        { reg := reg, started := s.started + 1, running := none }) := by
  obtain ⟨reg, hreg⟩ :=
    exec_nosBdeSchanOp script hp hi hpos hmax schan.cmdPtr (some schan.data) s
  refine ⟨reg, ?_⟩
  rw [ioctlSchanOp, if_neg (by simp [hp]), if_neg (by simp [hc]), exec_bind, hreg]
  cases env.copyToUser <;> rfl

end Through

section Userspace
variable {env : BdeEnv} {len : ℤ} (hpos : 0 < len) (hmax : len ≤ 16)
include hpos hmax

/-- The caller sees status 0 and the response exactly when the operation was
delivered. -/
theorem exec_bdeSchanOp (h : env.Answers) (cmd : Words) (data : Option Words) (dataLen : ℕ)
    (s : SchanDev) :
    ∃ reg r, exec (schanDev script) (bdeSchanOp env cmd len data dataLen) s =
        (some r, { reg := reg, started := s.started + 1, running := none }) ∧
      match delivered env.polls (script s.started) with
      | some v => r = (0, data.map fun d => splice (min dataLen 16) v.response d)
      | none => r.1 ≠ 0 := by
  have hpos' : 0 < (schanRequest cmd len data dataLen).len := hpos
  have hmax' : (schanRequest cmd len data dataLen).len ≤ 16 := hmax
  obtain ⟨reg, hreg⟩ := exec_ioctlSchanOp script hpos' hmax' h.probed h.copyFromUser
    h.interrupted s
  rw [bdeSchanOp, if_neg (by simp [h.fdOpen]; omega), exec_bind, hreg]
  cases hd : delivered env.polls (script s.started) with
  | none =>
    obtain ⟨status, hne, hreply⟩ :=
      reply_of_not_delivered hd (schanRequest cmd len data dataLen).data
    rw [hreply, if_pos h.copyToUser]
    exact ⟨reg, _, rfl, hne⟩
  | some v =>
    rw [reply_of_delivered hd, if_pos h.copyToUser]
    refine ⟨reg, _, rfl, ?_⟩
    cases data with
    | none => rfl
    | some d =>
      simp only [Option.map_some, Option.getD_some, Prod.mk.injEq, true_and, Option.some.injEq]
      funext k
      simp only [splice]
      split_ifs with h₁ h₂
      · rfl
      · omega
      · rfl

/-- A request that something else stops reports failure. -/
theorem exec_bdeSchanOp_of_not_answers (h : ¬ env.Answers) (cmd : Words) (data : Option Words)
    (dataLen : ℕ) (s : SchanDev) :
    ∃ s', exec (schanDev script) (bdeSchanOp env cmd len data dataLen) s = (none, s') ∧
      s'.started ≤ s.started + 1 := by
  have hpos' : 0 < (schanRequest cmd len data dataLen).len := hpos
  have hmax' : (schanRequest cmd len data dataLen).len ≤ 16 := hmax
  rw [bdeSchanOp]
  by_cases hfd : env.fdOpen = true
  case neg =>
    rw [if_pos (.inl (by simp [hfd]))]
    exact ⟨s, rfl, by omega⟩
  rw [if_neg (by simp [hfd]; omega), exec_bind]
  by_cases hp : env.probed = true
  case neg =>
    rw [ioctlSchanOp, if_pos (by simp [hp])]
    exact ⟨s, rfl, by omega⟩
  by_cases hc : env.copyFromUser = true
  case neg =>
    rw [ioctlSchanOp, if_neg (by simp [hp]), if_pos (by simp [hc])]
    exact ⟨s, rfl, by omega⟩
  by_cases hi : env.interrupted = false
  case neg =>
    obtain ⟨e, he⟩ := nosBdeSchanOp_of_not_len env.toSchanEnv (.inr (.inl (by simpa using hi)))
      (schanRequest cmd len data dataLen).cmdPtr (some (schanRequest cmd len data dataLen).data)
    rw [ioctlSchanOp, if_neg (by simp [hp]), if_neg (by simp [hc]), he]
    exact ⟨s, rfl, by omega⟩
  have hto : ¬ env.copyToUser = true := fun hto => h ⟨hfd, hp, hc, hi, hto⟩
  obtain ⟨reg, hreg⟩ := exec_ioctlSchanOp script hpos' hmax' hp hc hi s
  rw [hreg, if_neg hto]
  exact ⟨_, rfl, le_refl _⟩

end Userspace

end OpenNos.Bde
