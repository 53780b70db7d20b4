import OpenNos.Lib.Bits
import OpenNos.Lib.Errno
import OpenNos.Lib.History

/-! The transmit side of `pktio.c`. One descriptor and one buffer serve every call
of `bcm56846_tx`. The device reads them between the write to `CMICM_DMA_CTRL` and
its completion, which it reports by CHAIN_DONE. The call polls bit 0 of
`CMICM_DMA_STAT` instead, and returns 0 all the same when the polls run out, so
the buffer is the device's own only as long as the device finishes before either
happens. -/

namespace OpenNos.Sdk

open Bits History

def DCB_WORDS : ℕ := 16

def TX_BUF_MAX : ℤ := 2048

def TX_POLLS : ℕ := 5000

/-- CHAIN_DONE of channel 0. -/
def DMA_STAT_CHAIN_DONE : ℕ := 4

/-- The arguments of `bcm56846_tx`; `none` is a null packet pointer. -/
structure TxReq where
  port : ℤ
  pkt : Option (ℕ → BitVec 8)
  len : ℤ

/-- A frame as the device sends it. -/
structure TxFrame where
  port : ℕ
  bytes : List (BitVec 8)
  deriving DecidableEq

/-- The packet of a request that passes the checks of `bcm56846_tx`. -/
structure TxPacket where
  port : ℕ
  len : ℕ
  pkt : ℕ → BitVec 8
  len_pos : 0 < len
  len_le : len ≤ 2048
  port_le : port ≤ 255

def TxPacket.frame (p : TxPacket) : TxFrame := ⟨p.port, (List.range p.len).map p.pkt⟩

/-- The argument checks. -/
def txCheck (req : TxReq) : Rc TxPacket :=
  match req.pkt with
  | none => .error .einval
  | some pkt =>
    if hlen : req.len ≤ 0 ∨ req.len > TX_BUF_MAX then .error .einval
    else if hport : req.port ≤ 0 ∨ req.port > 255 then .error .einval
    else .ok
      { port := req.port.toNat
        len := req.len.toNat
        pkt := pkt
        len_pos := by omega
        len_le := by rw [TX_BUF_MAX] at hlen; omega
        port_le := by omega }

/-- The words written into the descriptor, in order. -/
def txDcbWrites (bufPhys : BitVec 32) (p : TxPacket) : List (ℕ × BitVec 32) :=
  (List.range DCB_WORDS).map (fun k => (k, 0)) ++
    [(0, bufPhys), (1, 0x00180000 ||| BitVec.ofNat 32 p.len), (2, 0xff000000), (3, 0x00000100),
      (4, 0x03030300 ||| (BitVec.ofNat 32 p.port &&& 0xff)),
      (15, 0x80000000 ||| BitVec.ofNat 32 p.len)]

/-- The words after a list of writes. -/
def putWords (w : Words) (ws : List (ℕ × BitVec 32)) : Words :=
  ws.foldl (fun w x => Function.update w x.1 x.2) w

/-- What `bcm56846_tx` does next. -/
inductive TxPc
  | idle
  | copy (p : TxPacket) (i : ℕ)
  | build (p : TxPacket) (ws : List (ℕ × BitVec 32))
  | desc (p : TxPacket)
  | kick (p : TxPacket)
  | poll (p : TxPacket) (tries : ℕ)
  | crashed

/-- What the device has read of the frame it is sending. -/
structure TxFetch where
  words : ℕ → Option (BitVec 32)
  bytes : ℕ → Option (BitVec 8)

def TxFetch.start : TxFetch := ⟨fun _ => none, fun _ => none⟩

/-- The frame, once every part of it has been read. -/
def TxFetch.frame? (f : TxFetch) : Option TxFrame := do
  let len ← f.words 1
  let port ← f.words 4
  let bytes ← (List.range (len &&& 0x7fff).toNat).mapM f.bytes
  return ⟨(port &&& 0xff).toNat, bytes⟩

structure TxState where
  /-- the physical addresses of `tx_dcb` and `tx_buf` -/
  txDcb : Option (BitVec 32)
  txBuf : Option (BitVec 32)
  dcb : Words
  buf : ℕ → BitVec 8
  desc0 : BitVec 32
  pc : TxPc
  /-- the result of the last call -/
  ret : Option (Rc Unit)
  /-- the transfer the device is busy with -/
  dev : Option TxFetch
  chainDone : Bool
  sent : List TxFrame
  /-- the frames of the calls that have returned 0 -/
  returned : List TxFrame

inductive TxAct
  /-- a call, with what `dma_alloc` gives for the descriptor and the buffer -/
  | call (req : TxReq) (dcb buf : Option (BitVec 32))
  /-- the next step of the call: whether its register access succeeds, and what a
  read of the status register gives outside CHAIN_DONE -/
  | cpu (ok : Bool) (stat : BitVec 32)
  | fetchWord (k : ℕ)
  | fetchByte (i : ℕ)
  | complete

/-- A call begins: the checks and, the first time, the allocation. -/
def TxState.call (s : TxState) (req : TxReq) (dcb buf : Option (BitVec 32)) : TxState :=
  match txCheck req with
  | .error e => { s with ret := some (.error e) }
  | .ok p =>
    if s.txDcb = none then
      let s := { s with txDcb := dcb, txBuf := buf }
      if dcb = none ∨ buf = none then { s with ret := some (.error .enomem) }
      else { s with pc := .copy p 0 }
    -- a failed allocation of the buffer alone leaves `tx_dcb` set and `tx_buf` null
    else if s.txBuf = none then { s with pc := .crashed }
    else { s with pc := .copy p 0 }

/-- The call returns 0. -/
def TxState.success (s : TxState) (p : TxPacket) : TxState :=
  { s with pc := .idle, ret := some (.ok ()), returned := s.returned ++ [p.frame] }

/-- The value a read of `CMICM_DMA_STAT` gives. -/
def TxState.status (s : TxState) (stat : BitVec 32) : BitVec 32 :=
  if s.chainDone then stat ||| BitVec.twoPow 32 DMA_STAT_CHAIN_DONE
  else stat &&& ~~~BitVec.twoPow 32 DMA_STAT_CHAIN_DONE

/-- One step of the call that runs. -/
def TxState.cpu (s : TxState) (ok : Bool) (stat : BitVec 32) : TxState :=
  match s.pc with
  | .idle | .crashed => s
  | .copy p i =>
    if i < p.len then
      { s with buf := Function.update s.buf i (p.pkt i), pc := .copy p (i + 1) }
    else { s with pc := .build p (txDcbWrites (s.txBuf.getD 0) p) }
  | .build p [] => { s with pc := .desc p }
  | .build p (w :: ws) => { s with dcb := Function.update s.dcb w.1 w.2, pc := .build p ws }
  | .desc p =>
    if ok then { s with desc0 := s.txDcb.getD 0, pc := .kick p }
    else { s with pc := .idle, ret := some (.error .eio) }
  | .kick p =>
    if ok then { s with dev := some .start, chainDone := false, pc := .poll p 0 }
    else { s with pc := .idle, ret := some (.error .eio) }
  | .poll p tries =>
    if ok ∧ s.status stat &&& 1 ≠ 0 then s.success p
    else if tries + 1 < TX_POLLS then { s with pc := .poll p (tries + 1) }
    else s.success p

/-- The device reads the descriptor at DESC0 and the buffer that points to, and
completes once it has the frame. -/
def TxState.step (s : TxState) : TxAct → TxState
  | .call req dcb buf =>
    match s.pc with
    | .idle => s.call req dcb buf
    | _ => s
  | .cpu ok stat => s.cpu ok stat
  | .fetchWord k =>
    match s.dev with
    | some f =>
      if some s.desc0 = s.txDcb then
        { s with dev := some { f with words := Function.update f.words k (some (s.dcb k)) } }
      else s
    | none => s
  | .fetchByte i =>
    match s.dev with
    | some f =>
      if (f.words 0).isSome ∧ f.words 0 = s.txBuf then
        { s with dev := some { f with bytes := Function.update f.bytes i (some (s.buf i)) } }
      else s
    | none => s
  | .complete =>
    match s.dev.bind TxFetch.frame? with
    | some fr => { s with dev := none, chainDone := true, sent := s.sent ++ [fr] }
    | none => s

/-- Before the first call. -/
def TxState.start (dcb : Words) (buf : ℕ → BitVec 8) (desc0 : BitVec 32) : TxState where
  txDcb := none
  txBuf := none
  dcb := dcb
  buf := buf
  desc0 := desc0
  pc := .idle
  ret := none
  dev := none
  chainDone := false
  sent := []
  returned := []

/-- The device is busy only while the call that started it polls, so that no call
has returned and none writes the descriptor or the buffer; and the frames of the
calls that returned 0 have been sent, as they were given and in their order. -/
structure TxState.Owned (s : TxState) : Prop where
  finished : s.dev ≠ none → ∃ p tries, s.pc = .poll p tries
  sent : s.returned <+: s.sent
  all : s.pc = .idle → s.sent = s.returned

/-- The device has finished when a status read shows bit 0 set, and when the last
poll is made. -/
def TxState.InTime (s : TxState) : TxAct → Prop
  | .cpu ok stat => ∀ p tries, s.pc = .poll p tries →
      (ok ∧ s.status stat &&& 1 ≠ 0 ∨ TX_POLLS ≤ tries + 1) → s.dev = none
  | _ => True

/-! ### The packet in the descriptor and the buffer -/

/-- The descriptor and the buffer carry the packet. -/
structure TxPacket.In (p : TxPacket) (dcb : Words) (buf : ℕ → BitVec 8) : Prop where
  len : (dcb 1 &&& 0x7fff).toNat = p.len
  port : (dcb 4 &&& 0xff).toNat = p.port
  bytes : ∀ i < p.len, buf i = p.pkt i

/-- What has been read is what the descriptor and the buffer hold. -/
structure TxFetch.Of (f : TxFetch) (dcb : Words) (buf : ℕ → BitVec 8) : Prop where
  words : ∀ k, ∀ v ∈ f.words k, v = dcb k
  bytes : ∀ i, ∀ v ∈ f.bytes i, v = buf i

@[simp] theorem putWords_nil (w : Words) : putWords w [] = w := rfl

@[simp] theorem putWords_cons (w : Words) (x : ℕ × BitVec 32) (ws : List (ℕ × BitVec 32)) :
    putWords w (x :: ws) = putWords (Function.update w x.1 x.2) ws := rfl

theorem putWords_append (w : Words) (ws ws' : List (ℕ × BitVec 32)) :
    putWords w (ws ++ ws') = putWords (putWords w ws) ws' := List.foldl_append

theorem ofNat_and_mask {n k : ℕ} (hk : k < 32) (hn : n < 2 ^ k) :
    (BitVec.ofNat 32 n &&& BitVec.ofNat 32 (2 ^ k - 1)).toNat = n := by
  have hpow : 2 ^ k < 2 ^ 32 := Nat.pow_lt_pow_right (by norm_num) hk
  rw [BitVec.toNat_and, BitVec.toNat_ofNat, BitVec.toNat_ofNat, Nat.mod_eq_of_lt (by omega),
    Nat.mod_eq_of_lt (by omega), Nat.and_two_pow_sub_one_eq_mod, Nat.mod_eq_of_lt hn]

/-- A mask that misses the flags. -/
theorem or_and_mask {hi x m : BitVec 32} (h : hi &&& m = 0#32) : (hi ||| x) &&& m = x &&& m := by
  rw [BitVec.and_or_distrib_right, h, BitVec.zero_or]

theorem TxPacket.in_txDcbWrites (p : TxPacket) (b : BitVec 32) (dcb : Words)
    {buf : ℕ → BitVec 8} (hbuf : ∀ i < p.len, buf i = p.pkt i) :
    p.In (putWords dcb (txDcbWrites b p)) buf where
  len := by
    have hlen := p.len_le
    have hword : putWords dcb (txDcbWrites b p) 1 = 0x00180000 ||| BitVec.ofNat 32 p.len := by
      simp [txDcbWrites, putWords_append]
    rw [hword, or_and_mask (by decide)]
    exact ofNat_and_mask (k := 15) (by norm_num) (by omega)
  port := by
    have hport := p.port_le
    have hword : putWords dcb (txDcbWrites b p) 4 =
        0x03030300 ||| (BitVec.ofNat 32 p.port &&& 0xff) := by
      simp [txDcbWrites, putWords_append]
    rw [hword, or_and_mask (by decide), BitVec.and_assoc, BitVec.and_self]
    exact ofNat_and_mask (k := 8) (by norm_num) (by omega)
  bytes := hbuf

/-- Reading every byte of a list. -/
theorem mapM_eq_map {α β : Type*} {g : α → Option β} {h : α → β} {l : List α} {bs : List β}
    (hg : ∀ a ∈ l, ∀ v ∈ g a, v = h a) (hl : l.mapM g = some bs) : bs = l.map h := by
  induction l generalizing bs with
  | nil => exact (Option.some.inj hl).symm
  | cons a l ih =>
    rw [List.mapM_cons] at hl
    obtain ⟨v, hv, hrest⟩ := Option.bind_eq_some_iff.mp hl
    obtain ⟨vs, hvs, hbs⟩ := Option.bind_eq_some_iff.mp hrest
    obtain rfl := Option.some.inj hbs
    rw [List.map_cons, hg a (List.mem_cons_self ..) v hv,
      ih (fun a ha => hg a (List.mem_cons_of_mem _ ha)) hvs]

theorem TxFetch.of_start (dcb : Words) (buf : ℕ → BitVec 8) : TxFetch.start.Of dcb buf where
  words _ v hv := by cases hv
  bytes _ v hv := by cases hv

theorem TxFetch.Of.word {f : TxFetch} {dcb : Words} {buf : ℕ → BitVec 8} (h : f.Of dcb buf)
    (k : ℕ) :
    ({ f with words := Function.update f.words k (some (dcb k)) } : TxFetch).Of dcb buf where
  words j v hv := by
    by_cases hj : j = k
    · subst hj
      simpa using hv.symm
    · exact h.words j v (by simpa [hj] using hv)
  bytes := h.bytes

theorem TxFetch.Of.byte {f : TxFetch} {dcb : Words} {buf : ℕ → BitVec 8} (h : f.Of dcb buf)
    (i : ℕ) :
    ({ f with bytes := Function.update f.bytes i (some (buf i)) } : TxFetch).Of dcb buf where
  words := h.words
  bytes j v hv := by
    by_cases hj : j = i
    · subst hj
      simpa using hv.symm
    · exact h.bytes j v (by simpa [hj] using hv)

/-- A frame read from the descriptor and the buffer is the packet's. -/
theorem TxFetch.Of.frame {f : TxFetch} {p : TxPacket} {dcb : Words} {buf : ℕ → BitVec 8}
    (h : f.Of dcb buf) (hp : p.In dcb buf) {fr : TxFrame} (hfr : f.frame? = some fr) :
    fr = p.frame := by
  simp only [TxFetch.frame?, Option.bind_eq_bind, Option.bind_eq_some_iff, Option.pure_def,
    Option.some.injEq] at hfr
  obtain ⟨len, hlen, port, hport, bytes, hbytes, rfl⟩ := hfr
  rw [h.words 1 len hlen, hp.len] at hbytes
  have hall : bytes = (List.range p.len).map p.pkt := mapM_eq_map (by
    intro i hi v hv
    rw [h.bytes i v hv, hp.bytes i (List.mem_range.mp hi)]) hbytes
  rw [h.words 4 port hport, hp.port, hall]
  rfl

/-! ### The run -/

/-- Nothing is being sent, and what has been sent has been reported. -/
def TxState.Quiet (s : TxState) : Prop := s.dev = none ∧ s.sent = s.returned

/-- The packet is being sent, unaltered, or has been. -/
def TxState.Sending (s : TxState) (p : TxPacket) : Prop :=
  match s.dev with
  | some f => f.Of s.dcb s.buf ∧ s.sent = s.returned
  | none => s.sent = s.returned ++ [p.frame]

def TxState.Inv (s : TxState) : Prop :=
  match s.pc with
  | .idle | .crashed => s.Quiet
  | .copy p i => s.Quiet ∧ ∀ j < i, s.buf j = p.pkt j
  | .build p ws => s.Quiet ∧ p.In (putWords s.dcb ws) s.buf
  | .desc p | .kick p => s.Quiet ∧ p.In s.dcb s.buf
  | .poll p _ => s.Sending p ∧ p.In s.dcb s.buf

variable {s : TxState}

theorem TxState.Quiet.owned (h : s.Quiet) : s.Owned where
  finished hdev := absurd h.1 hdev
  sent := by rw [h.2]
  all _ := h.2

theorem TxState.Sending.owned {p : TxPacket} {tries : ℕ} (h : s.Sending p)
    (hpc : s.pc = .poll p tries) : s.Owned where
  finished _ := ⟨p, tries, hpc⟩
  sent := by
    rw [TxState.Sending] at h
    cases hdev : s.dev with
    | none =>
      rw [hdev] at h
      exact ⟨_, h.symm⟩
    | some f =>
      rw [hdev] at h
      rw [h.2]
  all hidle := by
    rw [hpc] at hidle
    cases hidle

theorem TxState.Inv.owned (h : s.Inv) : s.Owned := by
  rw [TxState.Inv] at h
  cases hpc : s.pc <;> rw [hpc] at h
  case idle => exact h.owned
  case crashed => exact h.owned
  case copy => exact h.1.owned
  case build => exact h.1.owned
  case desc => exact h.1.owned
  case kick => exact h.1.owned
  case poll => exact h.1.owned hpc

/-- A call that has sent its frame returns. -/
theorem TxState.Sending.success {p : TxPacket} (h : s.Sending p) (hdev : s.dev = none) :
    (s.success p).Inv := by
  rw [TxState.Sending, hdev] at h
  exact ⟨hdev, h⟩

namespace TxState.Inv

theorem call (h : s.Inv) (req : TxReq) (dcb buf : Option (BitVec 32)) :
    (s.step (.call req dcb buf)).Inv := by
  rw [TxState.step]
  cases hpc : s.pc with
  | idle =>
    have hquiet : s.Quiet := by rwa [TxState.Inv, hpc] at h
    simp only [TxState.call]
    cases txCheck req with
    | error e =>
      simp only [TxState.Inv, hpc]
      exact hquiet
    | ok p =>
      dsimp only
      split_ifs
      · simp only [TxState.Inv, hpc]
        exact hquiet
      · exact ⟨hquiet, fun j hj => absurd hj (Nat.not_lt_zero j)⟩
      · exact hquiet
      · exact ⟨hquiet, fun j hj => absurd hj (Nat.not_lt_zero j)⟩
  | _ => exact h

theorem cpu (h : s.Inv) (ok : Bool) (stat : BitVec 32) (hc : s.InTime (.cpu ok stat)) :
    (s.step (.cpu ok stat)).Inv := by
  have hs := h
  rw [TxState.Inv] at hs
  rw [TxState.step, TxState.cpu]
  cases hpc : s.pc <;> rw [hpc] at hs <;> dsimp only at hs ⊢
  case idle => exact h
  case crashed => exact h
  case copy p i =>
    obtain ⟨hquiet, hbytes⟩ := hs
    split_ifs with hi
    · refine ⟨hquiet, fun j hj => ?_⟩
      dsimp only
      by_cases hji : j = i
      · rw [hji, Function.update_self]
      · rw [Function.update_of_ne hji]
        exact hbytes j (by omega)
    · exact ⟨hquiet, p.in_txDcbWrites _ _ fun j hj => hbytes j (by omega)⟩
  case build p ws =>
    obtain ⟨hquiet, hin⟩ := hs
    cases ws with
    | nil => exact ⟨hquiet, hin⟩
    | cons w ws => exact ⟨hquiet, hin⟩
  case desc p =>
    obtain ⟨hquiet, hin⟩ := hs
    split_ifs
    · exact ⟨hquiet, hin⟩
    · exact hquiet
  case kick p =>
    obtain ⟨hquiet, hin⟩ := hs
    split_ifs
    · exact ⟨⟨TxFetch.of_start _ _, hquiet.2⟩, hin⟩
    · exact hquiet
  case poll p tries =>
    obtain ⟨hsend, hin⟩ := hs
    split_ifs with hstat htries
    · exact hsend.success (hc p tries hpc (.inl hstat))
    · exact ⟨hsend, hin⟩
    · exact hsend.success (hc p tries hpc (.inr (by omega)))

/-- While the device is busy the call that started it polls. -/
theorem sending (h : s.Inv) {f : TxFetch} (hdev : s.dev = some f) :
    ∃ p tries, s.pc = .poll p tries ∧ p.In s.dcb s.buf ∧ f.Of s.dcb s.buf ∧
      s.sent = s.returned := by
  obtain ⟨p, tries, hpc⟩ := h.owned.finished (by simp [hdev])
  rw [TxState.Inv, hpc] at h
  obtain ⟨hsend, hin⟩ := h
  rw [TxState.Sending, hdev] at hsend
  exact ⟨p, tries, hpc, hin, hsend⟩

theorem fetchWord (h : s.Inv) (k : ℕ) : (s.step (.fetchWord k)).Inv := by
  rw [TxState.step]
  cases hdev : s.dev with
  | none => exact h
  | some f =>
    obtain ⟨p, tries, hpc, hin, hof, hsent⟩ := h.sending hdev
    dsimp only
    split_ifs
    · simp only [TxState.Inv, hpc]
      exact ⟨⟨hof.word k, hsent⟩, hin⟩
    · exact h

theorem fetchByte (h : s.Inv) (i : ℕ) : (s.step (.fetchByte i)).Inv := by
  rw [TxState.step]
  cases hdev : s.dev with
  | none => exact h
  | some f =>
    obtain ⟨p, tries, hpc, hin, hof, hsent⟩ := h.sending hdev
    dsimp only
    split_ifs
    · simp only [TxState.Inv, hpc]
      exact ⟨⟨hof.byte i, hsent⟩, hin⟩
    · exact h

/-- The frame completed is that of the call that polls. -/
theorem complete (h : s.Inv) : (s.step .complete).Inv := by
  rw [TxState.step]
  cases hfr : s.dev.bind TxFetch.frame? with
  | none => exact h
  | some fr =>
    obtain ⟨f, hdev, hf⟩ := Option.bind_eq_some_iff.mp hfr
    obtain ⟨p, tries, hpc, hin, hof, hsent⟩ := h.sending hdev
    simp only [TxState.Inv, hpc]
    refine ⟨?_, hin⟩
    rw [TxState.Sending]
    dsimp only
    rw [hsent, hof.frame hin hf]

theorem step (h : s.Inv) (act : TxAct) (hc : s.InTime act) : (s.step act).Inv := by
  cases act with
  | call req dcb buf => exact h.call req dcb buf
  | cpu ok stat => exact h.cpu ok stat hc
  | fetchWord k => exact h.fetchWord k
  | fetchByte i => exact h.fetchByte i
  | complete => exact h.complete

end TxState.Inv

/-- A call that returns too early leaves a busy device behind. -/
theorem not_owned_of_not_inTime {act : TxAct} (hc : ¬ s.InTime act) : ¬ (s.step act).Owned := by
  intro howned
  cases act with
  | cpu ok stat =>
    simp only [TxState.InTime, not_forall] at hc
    obtain ⟨p, tries, hpc, hends, hdev⟩ := hc
    have hstep : s.step (.cpu ok stat) = s.success p := by
      simp only [TxState.step, TxState.cpu, hpc]
      split_ifs with hstat htries
      · rfl
      · exact absurd hends (by rintro (h | h); exacts [hstat h, by omega])
      · rfl
    rw [hstep] at howned
    obtain ⟨q, n, hq⟩ := howned.finished hdev
    cases hq
  | _ => exact hc trivial

/-- The runs in which the device owns the descriptor and the buffer from the kick
to its completion: those in which it completes in time. -/
theorem tx_owned_iff_inTime (dcb : Words) (buf : ℕ → BitVec 8) (desc0 : BitVec 32)
    (acts : List TxAct) :
    Throughout TxState.step TxState.Owned (.start dcb buf desc0) acts ↔
      EachStep TxState.step TxState.InTime (.start dcb buf desc0) acts := by
  have hstart : (TxState.start dcb buf desc0).Inv := ⟨rfl, rfl⟩
  have holds (s : TxState) (h : s.Inv) : s.Owned := h.owned
  have keep (s : TxState) (act : TxAct) (h : s.Inv) (hc : s.InTime act) : (s.step act).Inv :=
    h.step act hc
  have breaks (s : TxState) (act : TxAct) (_ : s.Inv) (hc : ¬ s.InTime act) :
      ¬ (s.step act).Owned := not_owned_of_not_inTime hc
  exact throughout_iff_eachStep_of_any holds keep breaks hstart acts

def txOne (b : BitVec 8) : TxAct := .call ⟨1, some fun _ => b, 1⟩ (some 0x1000) (some 0x2000)

/-- A status that shows DMA_EN makes the first call return at once; the second call
writes its byte into the buffer before the device reads it. -/
theorem tx_altered :
    ¬ ∀ (dcb : Words) (buf : ℕ → BitVec 8) (desc0 : BitVec 32) (acts : List TxAct),
      Throughout TxState.step TxState.Owned (.start dcb buf desc0) acts := by
  intro h
  have hfinal := (h (fun _ => 0) (fun _ => 0) 0 ([txOne 1] ++
    List.replicate 28 (.cpu true 1) ++ [txOne 2, .cpu true 1] ++
    [.fetchWord 0, .fetchWord 1, .fetchWord 4, .fetchByte 0, .complete])).final.sent
  exact absurd hfinal (by decide +kernel)

end OpenNos.Sdk
