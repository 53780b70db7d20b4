import OpenNos.Bde.SbusChip

/-! The accesses of `sbus.c` against the device at the far end. Each makes one message;
the message is carried out as it was meant, but for word 5 of a longer write, in whose
place MISC_CONTROL was sent. The caller sees success when the request reached the device,
the answer came in time and without a flag, and for a table write without an error in its
header. -/

namespace OpenNos.Bde

open Bits RegProg

instance (env : BdeEnv) : Decidable env.Ready :=
  decidable_of_iff (env.fdOpen = true ∧ env.probed = true ∧ env.copyFromUser = true ∧
      env.interrupted = false)
    ⟨fun ⟨h₁, h₂, h₃, h₄⟩ => ⟨h₁, h₂, h₃, h₄⟩,
      fun h => ⟨h.fdOpen, h.probed, h.copyFromUser, h.interrupted⟩⟩

/-- The answer came back to the caller. -/
structure Ending.Delivers (env : BdeEnv) (e : Ending) : Prop where
  ready : env.Ready
  copyToUser : env.copyToUser = true
  inTime : e.InTime env.polls
  noFlag : e.flags &&& (SCHAN_CTRL_TIMEOUT ||| SCHAN_CTRL_NAK) = 0

/-- What a request with this message leaves behind, if it reaches the device. -/
def LeftBy (env : BdeEnv) (e : Ending) (m : Option SbusMessage) (s s' : SbusChip) : Prop :=
  if env.Ready then Settled e m s s' else s' = s

/-- The window shows the response. -/
def Answers (e : Ending) (sp : SbusSpace) (m : Option SbusMessage) (window : Words) : Prop :=
  ∀ i < 20, ∀ w, e.response sp m i = some w → window i = w

variable {env : BdeEnv} (e : Ending)

theorem bdeSchanOp_of_not_ready (h : ¬ env.Ready) (cmd : Words) {n : ℕ} (hn : 1 ≤ n)
    (hn' : n ≤ 16) (data : Option Words) (dataLen : ℕ) :
    bdeSchanOp env cmd n data dataLen = pure none := by
  rw [bdeSchanOp]
  by_cases hfd : env.fdOpen = true
  case neg => rw [if_pos (.inl (by simp [hfd]))]
  rw [if_neg (by simp [hfd]; omega)]
  by_cases hp : env.probed = true
  case neg =>
    rw [ioctlSchanOp, if_pos (by simp [hp])]
    rfl
  by_cases hc : env.copyFromUser = true
  case neg =>
    rw [ioctlSchanOp, if_neg (by simp [hp]), if_pos (by simp [hc])]
    rfl
  by_cases hi : env.interrupted = false
  case neg =>
    obtain ⟨err, herr⟩ := nosBdeSchanOp_of_not_len env.toSchanEnv (.inr (.inl (by simpa using hi)))
      (schanRequest cmd n data dataLen).cmdPtr (some (schanRequest cmd n data dataLen).data)
    rw [ioctlSchanOp, if_neg (by simp [hp]), if_neg (by simp [hc]), herr]
    rfl
  exact absurd ⟨hfd, hp, hc, hi⟩ h

variable (env)

/-- The result of a request and what it leaves behind. -/
theorem exec_bdeSchanOp_chip (cmd : Words) {n : ℕ} (hn : 1 ≤ n) (hn' : n ≤ 16)
    (data : Option Words) (dataLen : ℕ) {s : SbusChip} (hs : s.running = none)
    {m : Option SbusMessage}
    (hm : ∀ w : Words, (∀ j < n, w j = if j = 7 then s.reg CMIC_MISC_CONTROL else cmd j) →
      decode w = m) :
    ∃ r s', exec (sbusChip e) (bdeSchanOp env cmd n data dataLen) s = (r, s') ∧
      LeftBy env e m s s' ∧
      (e.Delivers env → ∃ window, Answers e s.space m window ∧
        r = some (0, data.map fun d => splice (min dataLen 16) window d)) ∧
      (¬ e.Delivers env → ∀ status resp, r = some (status, resp) → status ≠ 0) := by
  by_cases hready : env.Ready
  case neg =>
    rw [bdeSchanOp_of_not_ready hready cmd hn hn']
    exact ⟨none, s, rfl, by rw [LeftBy, if_neg hready], fun h => absurd h.ready hready, by simp⟩
  have hcmd : ∀ w : Words, (∀ j < n, w j = if j = 7 then s.reg CMIC_MISC_CONTROL
      else (schanRequest cmd n data dataLen).cmdPtr j) → decode w = m := by
    refine fun w hw => hm w fun j hj => (hw j hj).trans ?_
    rw [schanRequest_cmdPtr cmd hn' hj]
  obtain ⟨look, s', hexec, hsettled, hlook, hshows⟩ :=
    exec_nosBdeSchanOp_chip e hready.probed hready.interrupted hn hn'
      (schanRequest cmd n data dataLen).cmdPtr (some (schanRequest cmd n data dataLen).data) hs hcmd
  have hrun : exec (sbusChip e) (bdeSchanOp env cmd n data dataLen) s =
      (if env.copyToUser then some ((reply (some (schanRequest cmd n data dataLen).data) look).1,
        data.map fun d => splice (min dataLen 16)
          ((reply (some (schanRequest cmd n data dataLen).data) look).2.getD
            (schanRequest cmd n data dataLen).data) d) else none, s') := by
    have hlen : (schanRequest cmd n data dataLen).len = n := rfl
    rw [bdeSchanOp, if_neg (by simp [hready.fdOpen]; omega), exec_bind, ioctlSchanOp,
      if_neg (by simp [hready.probed]), if_neg (by simp [hready.copyFromUser]), hlen, exec_bind,
      hexec]
    cases env.copyToUser <;> rfl
  rw [hrun]
  have hleft : LeftBy env e m s s' := by
    rw [LeftBy, if_pos hready]
    exact hsettled
  refine ⟨_, s', rfl, hleft, fun hdel => ?_, fun hdel status resp hr => ?_⟩
  · obtain ⟨v, rfl⟩ := Option.isSome_iff_exists.mp (hlook.mpr hdel.inTime)
    have hv := hshows v rfl
    rw [if_pos hdel.copyToUser, reply, if_pos (hv.delivered.mpr hdel.noFlag)]
    refine ⟨v.response, hv.response, ?_⟩
    cases data with
    | none => rfl
    | some d =>
      simp only [Option.map_some, Option.getD_some, Option.some.injEq, Prod.mk.injEq, true_and]
      funext k
      simp only [splice]
      split_ifs <;> first | rfl | omega
  · obtain ⟨hcopy, hr⟩ := Option.ite_none_right_eq_some.mp hr
    obtain ⟨rfl, -⟩ := Prod.mk.inj (Option.some.inj hr)
    cases look with
    | none =>
      rw [reply]
      exact (by decide : -Errno.etimedout.code ≠ 0)
    | some v =>
      have hflag : ¬ v.Delivered := fun hv =>
        hdel ⟨hready, hcopy, hlook.mp rfl, (hshows v rfl).delivered.mp hv⟩
      rw [reply, if_neg hflag]
      exact (by decide : -Errno.eio.code ≠ 0)

/-! ### The messages -/

/-- What arrives of the data of a write. -/
def arrived (misc : BitVec 32) (data : Words) : Words := Function.update data 5 misc

section Messages
variable {block addr : BitVec 32} (hb : block.toNat < 2 ^ 6) {n : ℕ} (hn : n ≤ 14)
include hb hn

theorem header_fields (opcode : BitVec 32) :
    headerOpcode (schanHeader opcode block n) = opcode.setWidth 6 ∧
      headerDstblk (schanHeader opcode block n) = block.setWidth 6 ∧
      (headerDatalen (schanHeader opcode block n)).toNat / 4 = n := by
  have hd : ((n : BitVec 32) * 4).toNat = 4 * n := by
    simp only [BitVec.natCast_eq_ofNat, BitVec.toNat_mul, BitVec.toNat_ofNat,
      show (4 : BitVec 32).toNat = 4 from rfl]
    omega
  refine ⟨schanHeader_opcode hb (by omega), schanHeader_dstblk (by omega), ?_⟩
  rw [schanHeader_datalen, BitVec.toNat_setWidth, hd]
  omega

/-- The message of a read is two words long. -/
theorem decode_read {misc : BitVec 32} {w : Words} (hw : ∀ j < 2, w j = if j = 7 then misc else
      message (schanHeader SCHAN_READ_REG_CMD block n) addr (fun _ => 0) j) :
    decode w = some (.readReg (block.setWidth 6, addr) n) := by
  have h0 : w 0 = schanHeader SCHAN_READ_REG_CMD block n := hw 0 (by omega)
  have h1 : w 1 = addr := hw 1 (by omega)
  obtain ⟨hop, hblk, hlen⟩ := header_fields hb hn SCHAN_READ_REG_CMD
  rw [decode, h0, h1, hop, hblk, hlen, if_pos (by decide)]

theorem decode_readMem {misc : BitVec 32} {w : Words} (hw : ∀ j < 2, w j = if j = 7 then misc else
      message (schanHeader SCHAN_READ_MEM_CMD block n) addr (fun _ => 0) j) :
    decode w = some (.readMem (block.setWidth 6, addr) n) := by
  have h0 : w 0 = schanHeader SCHAN_READ_MEM_CMD block n := hw 0 (by omega)
  have h1 : w 1 = addr := hw 1 (by omega)
  obtain ⟨hop, hblk, hlen⟩ := header_fields hb hn SCHAN_READ_MEM_CMD
  rw [decode, h0, h1, hop, hblk, hlen, if_neg (by decide), if_neg (by decide), if_pos (by decide)]

omit hb hn in
/-- The data words of a write, word 7 of the message being MISC_CONTROL. -/
theorem window_data {misc header : BitVec 32} {data w : Words}
    (hw : ∀ j < 2 + n, w j = if j = 7 then misc else message header addr data j) :
    splice n (fun i => w (2 + i)) (fun _ => 0) = splice n (arrived misc data) fun _ => 0 := by
  funext i
  rw [splice, splice]
  split_ifs with hi
  · rw [hw (2 + i) (by omega), arrived]
    by_cases h5 : i = 5
    · rw [h5, if_pos rfl, Function.update_self]
    · rw [if_neg (by omega), Function.update_of_ne h5, Nat.add_comm]
      rfl
  · rfl

theorem decode_write {misc : BitVec 32} {data w : Words} (hw : ∀ j < 2 + n, w j =
      if j = 7 then misc else message (schanHeader SCHAN_WRITE_REG_CMD block n) addr data j) :
    decode w = some (.writeReg (block.setWidth 6, addr)
      (splice n (arrived misc data) fun _ => 0) n) := by
  have h0 : w 0 = schanHeader SCHAN_WRITE_REG_CMD block n := hw 0 (by omega)
  have h1 : w 1 = addr := hw 1 (by omega)
  obtain ⟨hop, hblk, hlen⟩ := header_fields hb hn SCHAN_WRITE_REG_CMD
  rw [decode, h0, h1, hop, hblk, hlen, window_data hw, if_neg (by decide), if_pos (by decide)]

theorem decode_writeMem {misc : BitVec 32} {data w : Words} (hw : ∀ j < 2 + n, w j =
      if j = 7 then misc else message (schanHeader SCHAN_WRITE_MEM_CMD block n) addr data j) :
    decode w = some (.writeMem (block.setWidth 6, addr)
      (splice n (arrived misc data) fun _ => 0) n) := by
  have h0 : w 0 = schanHeader SCHAN_WRITE_MEM_CMD block n := hw 0 (by omega)
  have h1 : w 1 = addr := hw 1 (by omega)
  obtain ⟨hop, hblk, hlen⟩ := header_fields hb hn SCHAN_WRITE_MEM_CMD
  rw [decode, h0, h1, hop, hblk, hlen, window_data hw, if_neg (by decide), if_neg (by decide),
    if_neg (by decide), if_pos (by decide)]

end Messages

/-! ### The accesses -/

section Accesses
variable {block : BitVec 32} (addr : BitVec 32) (hb : block.toNat < 2 ^ 6) {n : ℕ} (hn : n ≤ 14)
  {s : SbusChip} (hs : s.running = none)
include hb hn hs

theorem chip_regWriteTo (data : Words) :
    ∃ ok s', exec (sbusChip e) (regWriteTo env block addr data n) s = (ok, s') ∧
      LeftBy env e (some (.writeReg (block.setWidth 6, addr)
        (splice n (arrived (s.reg CMIC_MISC_CONTROL) data) fun _ => 0) n)) s s' ∧
      (ok = true ↔ e.Delivers env) := by
  obtain ⟨r, s', hexec, hleft, hsome, hnone⟩ := exec_bdeSchanOp_chip env e
    (message (schanHeader SCHAN_WRITE_REG_CMD block n) addr data) (n := 2 + n) (by omega)
    (by omega) none 0 hs fun w hw => decode_write hb hn hw
  have hlen : ((2 + n : ℕ) : ℤ) = 2 + (n : ℤ) := by push_cast; rfl
  rw [hlen] at hexec
  rw [regWriteTo, exec_bind, hexec]
  by_cases hdel : e.Delivers env
  · obtain ⟨window, -, rfl⟩ := hsome hdel
    exact ⟨true, s', rfl, hleft, iff_of_true rfl hdel⟩
  · refine ⟨false, s', ?_, hleft, iff_of_false Bool.false_ne_true hdel⟩
    cases r with
    | none => rfl
    | some reply =>
      obtain ⟨status, resp⟩ := reply
      dsimp only
      rw [decide_eq_false (hnone hdel status resp rfl), exec_pure]

theorem chip_memWriteTo (index : BitVec 32) (data : Words) :
    ∃ ok s', exec (sbusChip e) (memWriteTo env block addr index data n) s = (ok, s') ∧
      LeftBy env e (some (.writeMem (block.setWidth 6, addr + index)
        (splice n (arrived (s.reg CMIC_MISC_CONTROL) data) fun _ => 0) n)) s s' ∧
      (ok = true ↔ e.Delivers env ∧ e.header &&& 0x0041 = 0) := by
  obtain ⟨r, s', hexec, hleft, hsome, hnone⟩ := exec_bdeSchanOp_chip env e
    (message (schanHeader SCHAN_WRITE_MEM_CMD block n) (addr + index) data) (n := 2 + n)
    (by omega) (by omega) (some fun _ => 0) 1 hs fun w hw => decode_writeMem hb hn hw
  have hlen : ((2 + n : ℕ) : ℤ) = 2 + (n : ℤ) := by push_cast; rfl
  have hmin : min n 14 = n := by omega
  rw [hlen] at hexec
  simp only [memWriteTo, hmin]
  rw [exec_bind, hexec]
  by_cases hdel : e.Delivers env
  · obtain ⟨window, hwindow, rfl⟩ := hsome hdel
    have hheader : window 0 = e.header := hwindow 0 (by omega) e.header rfl
    refine ⟨decide (e.header &&& 0x0041 = 0), s', ?_, hleft, ?_⟩
    · simp only [Option.map_some, ne_eq, not_true_eq_false, if_false, Option.getD_some, splice,
        exec_pure, ← hheader]
      rfl
    · simp [hdel]
  · refine ⟨false, s', ?_, hleft, iff_of_false Bool.false_ne_true fun h => hdel h.1⟩
    cases r with
    | none => rfl
    | some reply =>
      obtain ⟨status, resp⟩ := reply
      dsimp only
      rw [if_pos (hnone hdel status resp rfl), exec_pure]

omit hb hs in
/-- The data words of an answer follow its header. -/
theorem splice_answer {m : SbusMessage} {window : Words}
    (hwindow : Answers e s.space (some m) window) (hexec : e.executed = true) {content : Words}
    (hasked : ∀ i < n, s.space.asked m i = some (content i)) :
    (fun i => splice (min (1 + n) 16) window (fun _ => 0) (1 + i)) =
      splice n content fun _ => 0 := by
  funext i
  have hmin : min (1 + n) 16 = 1 + n := by omega
  rw [hmin, splice, splice]
  by_cases hi : i < n
  · rw [if_pos (by omega), if_pos hi]
    refine hwindow (1 + i) (by omega) _ ?_
    rw [Nat.add_comm, Ending.response, if_pos hexec]
    exact hasked i hi
  · rw [if_neg (by omega), if_neg hi]

theorem chip_regReadFrom :
    ∃ r s', exec (sbusChip e) (regReadFrom env block addr n) s = (r, s') ∧
      LeftBy env e (some (.readReg (block.setWidth 6, addr) n)) s s' ∧
      (e.Delivers env → e.executed = true →
        r = some (splice n (s.space.reg (block.setWidth 6, addr)) fun _ => 0)) ∧
      (¬ e.Delivers env → r = none) := by
  obtain ⟨r, s', hexec, hleft, hsome, hnone⟩ := exec_bdeSchanOp_chip env e
    (message (schanHeader SCHAN_READ_REG_CMD block n) addr fun _ => 0) (n := 2) (by omega)
    (by omega) (some fun _ => 0) (1 + n) hs fun w hw => decode_read hb hn hw
  have hlen : ((2 : ℕ) : ℤ) = 2 := rfl
  rw [hlen] at hexec
  rw [regReadFrom, exec_bind, hexec]
  by_cases hdel : e.Delivers env
  · obtain ⟨window, hwindow, rfl⟩ := hsome hdel
    refine ⟨_, s', rfl, hleft, fun _ hdone => ?_, fun h => absurd hdel h⟩
    rw [← splice_answer e hn hwindow hdone fun i hi => if_pos hi]
    rfl
  · refine ⟨none, s', ?_, hleft, fun h => absurd h hdel, fun _ => rfl⟩
    cases r with
    | none => rfl
    | some reply =>
      obtain ⟨status, resp⟩ := reply
      dsimp only
      rw [if_pos (hnone hdel status resp rfl), exec_pure]

theorem chip_memReadFrom (index : BitVec 32) :
    ∃ r s', exec (sbusChip e) (memReadFrom env block addr index n) s = (r, s') ∧
      LeftBy env e (some (.readMem (block.setWidth 6, addr + index) n)) s s' ∧
      (e.Delivers env → e.executed = true →
        r = some (splice n (s.space.mem (block.setWidth 6, addr + index)) fun _ => 0)) ∧
      (¬ e.Delivers env → r = none) := by
  obtain ⟨r, s', hexec, hleft, hsome, hnone⟩ := exec_bdeSchanOp_chip env e
    (message (schanHeader SCHAN_READ_MEM_CMD block n) (addr + index) fun _ => 0) (n := 2)
    (by omega) (by omega) (some fun _ => 0) (1 + n) hs fun w hw => decode_readMem hb hn hw
  have hlen : ((2 : ℕ) : ℤ) = 2 := rfl
  have hmin : min n 14 = n := by omega
  rw [hlen] at hexec
  simp only [memReadFrom, hmin]
  rw [exec_bind, hexec]
  by_cases hdel : e.Delivers env
  · obtain ⟨window, hwindow, rfl⟩ := hsome hdel
    refine ⟨_, s', rfl, hleft, fun _ hdone => ?_, fun h => absurd hdel h⟩
    rw [← splice_answer e hn hwindow hdone fun i hi => if_pos hi]
    rfl
  · refine ⟨none, s', ?_, hleft, fun h => absurd h hdel, fun _ => rfl⟩
    cases r with
    | none => rfl
    | some reply =>
      obtain ⟨status, resp⟩ := reply
      dsimp only
      rw [if_pos (hnone hdel status resp rfl), exec_pure]

end Accesses

end OpenNos.Bde
