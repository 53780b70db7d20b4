import OpenNos.Bde.Device
import OpenNos.Bde.Sbus

/-! Operations the target refuses. A refusal shows in the flags of the control
register, which the kernel checks, or in the header of the response, which only
the two table writes of `sbus.c` look at. Every other accessor reports a response
with ERR or NACK as success, and `sbus_reg_modify` writes its data back. -/

namespace OpenNos.Bde

open Bits RegProg

/-- ERR and NACK of a response header. -/
def SCHAN_RESP_ERR : BitVec 32 := 1 <<< 6

def SCHAN_RESP_NACK : BitVec 32 := 1 <<< 0

/-- The target has done what it was asked. -/
def Look.Accepted (v : Look) : Prop := v.response 0 &&& (SCHAN_RESP_ERR ||| SCHAN_RESP_NACK) = 0

instance (v : Look) : Decidable v.Accepted := inferInstanceAs (Decidable (_ = _))

/-- The accessors of `sbus.c`, with their arguments. -/
inductive Accessor
  | regWrite (addr value : BitVec 32)
  | regWriteBlk (block addr value : BitVec 32)
  | regRead (addr : BitVec 32)
  | regWrite64 (addr : BitVec 32) (data : Words)
  | regRead64 (addr : BitVec 32)
  | memWrite (addr index : BitVec 32) (data : Words) (nwords : ℕ)
  | memWriteBlk (block addr index : BitVec 32) (data : Words) (nwords : ℕ)
  | memRead (addr index : BitVec 32) (nwords : ℕ)
  | memReadBlk (block addr index : BitVec 32) (nwords : ℕ)

/-- Whether the call returns 0. -/
def Accessor.call (env : BdeEnv) : Accessor → Pio Bool
  | .regWrite addr value => sbusRegWrite env addr value
  | .regWriteBlk block addr value => sbusRegWriteBlk env block addr value
  | .regRead addr => do
    let value ← sbusRegRead env addr
    return value.isSome
  | .regWrite64 addr data => sbusRegWrite64 env addr data
  | .regRead64 addr => do
    let data ← sbusRegRead64 env addr
    return data.isSome
  | .memWrite addr index data nwords => sbusMemWrite env addr index data nwords
  | .memWriteBlk block addr index data nwords => sbusMemWriteBlk env block addr index data nwords
  | .memRead addr index nwords => do
    let data ← sbusMemRead env addr index nwords
    return data.isSome
  | .memReadBlk block addr index nwords => do
    let data ← sbusMemReadBlk env block addr index nwords
    return data.isSome

def Accessor.checksHeader : Accessor → Bool
  | .memWrite .. | .memWriteBlk .. => true
  | _ => false

/-- The operation started next is completed before the deadline without TIMEOUT and
NAK, and its response carries neither ERR nor NACK. -/
def Succeeds (script : SchanScript) (env : BdeEnv) (s : SchanDev) : Prop :=
  ∃ v, completion env.polls (script s.started) = some v ∧ v.Delivered ∧ v.Accepted

/-- Where the request reaches the device, a refusal in the header of the response
comes with TIMEOUT or NAK, or after the deadline. -/
def RefusalFlagged (script : SchanScript) (env : BdeEnv) (s : SchanDev) : Prop :=
  env.Answers → ∀ v, completion env.polls (script s.started) = some v → v.Delivered → v.Accepted

/-- The response an accessor gets. -/
def answer (script : SchanScript) (env : BdeEnv) (s : SchanDev) : Option Look :=
  if env.Answers then delivered env.polls (script s.started) else none

variable (script : SchanScript) (env : BdeEnv) (s : SchanDev)

theorem refusalFlagged_iff : RefusalFlagged script env s ↔
    ((answer script env s).isSome = true → Succeeds script env s) := by
  rw [RefusalFlagged, answer]
  split_ifs with h
  · constructor
    · intro hflag hsome
      obtain ⟨v, hv⟩ := Option.isSome_iff_exists.mp hsome
      obtain ⟨hc, hd⟩ := mem_delivered.mp hv
      exact ⟨v, hc, hd, hflag h v hc hd⟩
    · intro himp _ v hc hd
      obtain ⟨u, hu, -, hacc⟩ := himp (by rw [mem_delivered.mpr ⟨hc, hd⟩]; rfl)
      rw [hc] at hu
      cases hu
      exact hacc
  · exact iff_of_true (fun ha => absurd ha h) (fun hsome => by cases hsome)

/-- A response that has been looked at in the header is a success. -/
theorem succeeds_of_answer {v : Look} (hv : answer script env s = some v) (ha : v.Accepted) :
    Succeeds script env s := by
  rw [answer] at hv
  split_ifs at hv
  obtain ⟨hc, hd⟩ := mem_delivered.mp hv
  exact ⟨v, hc, hd, ha⟩

/-! ### What the accessors return -/

/-- A request and what its caller makes of the response. -/
theorem exec_request {β : Type} {len : ℤ} (hpos : 0 < len) (hmax : len ≤ 16) (cmd : Words)
    (data : Option Words) (dataLen : ℕ) {k : Option (ℤ × Option Words) → Pio β} {bad : β}
    {good : Look → β} (hnone : k none = pure bad)
    (hbad : ∀ status resp, status ≠ 0 → k (some (status, resp)) = pure bad)
    (hgood : ∀ v : Look,
      k (some (0, data.map fun d => splice (min dataLen 16) v.response d)) = pure (good v)) :
    ∃ s', exec (schanDev script) (bdeSchanOp env cmd len data dataLen >>= k) s =
        ((answer script env s).elim bad good, s') ∧
      s'.started ≤ s.started + 1 ∧ (env.Answers → s'.started = s.started + 1) := by
  rw [exec_bind, answer]
  split_ifs with h
  · obtain ⟨reg, ⟨status, resp⟩, hexec, hr⟩ :=
      exec_bdeSchanOp script hpos hmax h cmd data dataLen s
    rw [hexec]
    refine ⟨{ reg := reg, started := s.started + 1, running := none }, ?_, le_refl _,
      fun _ => rfl⟩
    cases hd : delivered env.polls (script s.started) with
    | none =>
      rw [hd] at hr
      rw [hbad status resp hr]
      rfl
    | some v =>
      rw [hd] at hr
      cases hr
      rw [hgood v]
      rfl
  · obtain ⟨s', hexec, hle⟩ :=
      exec_bdeSchanOp_of_not_answers script hpos hmax h cmd data dataLen s
    rw [hexec, hnone]
    exact ⟨s', rfl, hle, fun ha => absurd ha h⟩

theorem exec_regWriteTo (block addr : BitVec 32) (data : Words) {nwords : ℕ} (hn : nwords ≤ 14) :
    ∃ s', exec (schanDev script) (regWriteTo env block addr data nwords) s =
        ((answer script env s).elim false fun _ => true, s') ∧
      s'.started ≤ s.started + 1 ∧ (env.Answers → s'.started = s.started + 1) := by
  refine exec_request script env s (by omega) (by omega) _ none 0 rfl ?_ fun v => rfl
  intro status resp hs
  simp [hs]

theorem exec_regReadFrom (block addr : BitVec 32) (nwords : ℕ) :
    ∃ s', exec (schanDev script) (regReadFrom env block addr nwords) s =
        ((answer script env s).elim none fun v =>
          some fun i => splice (min (1 + nwords) 16) v.response (fun _ => 0) (1 + i), s') ∧
      s'.started ≤ s.started + 1 ∧ (env.Answers → s'.started = s.started + 1) := by
  refine exec_request script env s (by omega) (by omega) _ (some fun _ => 0) (1 + nwords) rfl ?_
    fun v => rfl
  intro status resp hs
  simp [hs]

theorem exec_memReadFrom (block addr index : BitVec 32) (nwords : ℕ) :
    ∃ s', exec (schanDev script) (memReadFrom env block addr index nwords) s =
        ((answer script env s).elim none fun v =>
          some fun i => splice (min (1 + min nwords 14) 16) v.response (fun _ => 0) (1 + i), s') ∧
      s'.started ≤ s.started + 1 ∧ (env.Answers → s'.started = s.started + 1) := by
  refine exec_request script env s (by omega) (by omega) _ (some fun _ => 0) (1 + min nwords 14)
    rfl ?_ fun v => rfl
  intro status resp hs
  simp [hs]

/-- A table write also needs a clean header. -/
theorem exec_memWriteTo (block addr index : BitVec 32) (data : Words) (nwords : ℕ) :
    ∃ s', exec (schanDev script) (memWriteTo env block addr index data nwords) s =
        ((answer script env s).elim false fun v => v.Accepted, s') ∧
      s'.started ≤ s.started + 1 ∧ (env.Answers → s'.started = s.started + 1) := by
  refine exec_request script env s (by omega) (by omega) _ (some fun _ => 0) 1 rfl ?_ fun v => rfl
  intro status resp hs
  simp [hs]

/-- Whether a read has given a value. -/
theorem exec_isSome {β : Type} {p : Pio (Option β)} {s' : SchanDev} {good : Look → β}
    (h : exec (schanDev script) p s =
      ((answer script env s).elim none fun v => some (good v), s')) :
    (exec (schanDev script) (p >>= fun r => pure r.isSome) s).1 =
      (answer script env s).any fun _ => true := by
  rw [exec_bind, h]
  cases answer script env s <;> rfl

/-- An accessor succeeds on every response, or on those with a clean header. -/
theorem exec_call (a : Accessor) : (exec (schanDev script) (a.call env) s).1 =
    (answer script env s).any fun v => !a.checksHeader || v.Accepted := by
  cases a with
  | regWrite addr value =>
    obtain ⟨s', hexec, -⟩ := exec_regWriteTo script env s (cdkAddrToBlock addr) addr
      (fun _ => value) (show 1 ≤ 14 by omega)
    rw [Accessor.call, sbusRegWrite, hexec]
    cases answer script env s <;> rfl
  | regWriteBlk block addr value =>
    obtain ⟨s', hexec, -⟩ := exec_regWriteTo script env s block addr (fun _ => value)
      (show 1 ≤ 14 by omega)
    rw [Accessor.call, sbusRegWriteBlk, hexec]
    cases answer script env s <;> rfl
  | regRead addr =>
    obtain ⟨s', hexec, -⟩ := exec_regReadFrom script env s (cdkAddrToBlock addr) addr 1
    rw [Accessor.call, sbusRegRead, exec_bind, exec_bind, hexec]
    cases answer script env s <;> rfl
  | regWrite64 addr data =>
    obtain ⟨s', hexec, -⟩ := exec_regWriteTo script env s (cdkAddrToBlock addr) addr data
      (show 2 ≤ 14 by omega)
    rw [Accessor.call, sbusRegWrite64, hexec]
    cases answer script env s <;> rfl
  | regRead64 addr =>
    obtain ⟨s', hexec, -⟩ := exec_regReadFrom script env s (cdkAddrToBlock addr) addr 2
    exact exec_isSome script env s hexec
  | memWrite addr index data nwords =>
    obtain ⟨s', hexec, -⟩ :=
      exec_memWriteTo script env s (cdkAddrToBlock addr) addr index data nwords
    rw [Accessor.call, sbusMemWrite, hexec]
    cases answer script env s <;> rfl
  | memWriteBlk block addr index data nwords =>
    obtain ⟨s', hexec, -⟩ := exec_memWriteTo script env s block addr index data nwords
    rw [Accessor.call, sbusMemWriteBlk, hexec]
    cases answer script env s <;> rfl
  | memRead addr index nwords =>
    obtain ⟨s', hexec, -⟩ := exec_memReadFrom script env s (cdkAddrToBlock addr) addr index nwords
    exact exec_isSome script env s hexec
  | memReadBlk block addr index nwords =>
    obtain ⟨s', hexec, -⟩ := exec_memReadFrom script env s block addr index nwords
    exact exec_isSome script env s hexec

/-- Success means that the target has accepted the operation. -/
def Accessor.Honest (a : Accessor) : Prop :=
  (exec (schanDev script) (a.call env) s).1 = true → Succeeds script env s

/-- `sbus_reg_modify` starts its write only after a read that the target has
accepted. -/
def ModifyHonest (addr mask value : BitVec 32) : Prop :=
  (exec (schanDev script) (sbusRegModify env addr mask value) s).2.started = s.started + 2 →
    Succeeds script env s

theorem accessor_honest_iff (a : Accessor) :
    a.Honest script env s ↔ a.checksHeader = true ∨ RefusalFlagged script env s := by
  rw [Accessor.Honest, exec_call, refusalFlagged_iff]
  cases hc : a.checksHeader with
  | true =>
    refine iff_of_true (fun h => ?_) (.inl rfl)
    cases hv : answer script env s with
    | none =>
      rw [hv] at h
      cases h
    | some v =>
      rw [hv] at h
      exact succeeds_of_answer script env s hv (by simpa using h)
  | false =>
    cases answer script env s <;> simp

theorem modify_honest_iff (addr mask value : BitVec 32) :
    ModifyHonest script env s addr mask value ↔ RefusalFlagged script env s := by
  obtain ⟨s₁, hread, hle, hstarted⟩ := exec_regReadFrom script env s (cdkAddrToBlock addr) addr 1
  have hwrite (value : BitVec 32) := exec_regWriteTo script env s₁ (cdkAddrToBlock addr) addr
    (fun _ => value) (show 1 ≤ 14 by omega)
  rw [ModifyHonest, refusalFlagged_iff, sbusRegModify, exec_bind, sbusRegRead, exec_bind, hread]
  cases hv : answer script env s with
  | none =>
    -- no response: the write is not started
    refine iff_of_true (fun h => ?_) (fun h => by cases h)
    have hlt : s₁.started = s.started + 2 := h
    omega
  | some v =>
    have ha : env.Answers := by
      by_contra ha
      rw [answer, if_neg ha] at hv
      cases hv
    obtain ⟨s₂, hexec, -, hstarted₂⟩ := hwrite
      ((splice (min (1 + 1) 16) v.response (fun _ => 0) (1 + 0) &&& ~~~mask) ||| (value &&& mask))
    have hfinal : s₂.started = s.started + 2 := by rw [hstarted₂ ha, hstarted ha]
    exact imp_congr_left (iff_of_true ((congrArg (fun r => r.2.started) hexec).trans hfinal) rfl)

/-- The accessors that report no refused operation as success: the table writes, and
the others as long as a refusal does not show in the response header alone. Then
`sbus_reg_modify` writes nothing back either. -/
theorem sbus_honest_iff :
    (∀ a : Accessor, a.Honest script env s ↔
      a.checksHeader = true ∨ RefusalFlagged script env s) ∧
    ∀ addr mask value, ModifyHonest script env s addr mask value ↔
      RefusalFlagged script env s :=
  ⟨accessor_honest_iff script env s, modify_honest_iff script env s⟩

/-- The operation is done at the first look, and its response carries ERR. -/
def errScript : SchanScript := fun _ _ off =>
  if off = CMICE_SCHAN_CTRL then SCHAN_CTRL_DONE
  else if off = CMICE_SCHAN_D 0 then SCHAN_RESP_ERR else 0

theorem sbus_honest_fails :
    ¬ ∀ (script : SchanScript) (env : BdeEnv) (s : SchanDev) (a : Accessor),
      a.Honest script env s := by
  intro h
  obtain ⟨v, hv, -, hacc⟩ := h errScript readyEnv ⟨fun _ => 0, 0, none⟩ (.regRead 0x0238010a) (by
    decide +kernel)
  obtain rfl : errScript 0 0 = v := Option.some.inj hv
  exact absurd hacc (by decide)

end OpenNos.Bde
