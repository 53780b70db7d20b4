import OpenNos.Lib.Bump
import OpenNos.Sdk.PktioRx
import OpenNos.Sdk.PktioTx

/-! How `pktio.c` takes its descriptors and buffers from the DMA pool. Transmit
and receive each allocate on their first call and test one pointer on every later
one: `tx_dcb`, which is allocated before `tx_buf`, and `rx_ring`, which is
allocated before the 64 buffers. A call that runs out of the pool in between
returns -ENOMEM and leaves that pointer set, so the next call goes on without the
rest. Addresses are numbers that do not wrap, as in any mapping. -/

namespace OpenNos.Sdk

open Bits Bump History

/-- What the BDE maps and reports. -/
structure DmaPool where
  vbase : ℕ
  pbase : BitVec 64
  size : BitVec 32

structure DmaState where
  /-- `dma_vbase` is set -/
  mapped : Bool
  /-- `dma_size`, 0 until it has been asked for -/
  size : ℕ
  off : ℕ
  /-- the blocks handed out so far -/
  blocks : List Block
  /-- which of the calls of `bde_mmap_dma` still to come fail -/
  mapFault : ℕ → Bool
  /-- whether `bde_get_dma_info` fails after the mapping -/
  infoFault : Bool

/-- The mapping `dma_alloc` makes when there is none yet. -/
def DmaState.map (pool : DmaPool) (d : DmaState) : DmaState × Bool :=
  if d.mapped then (d, true)
  else if d.mapFault 0 ∨ pool.size = 0 then
    ({ d with mapFault := fun n => d.mapFault (n + 1) }, false)
  else if d.infoFault then ({ d with mapped := true }, false)
  else ({ d with mapped := true, size := pool.size.toNat, off := max d.off 4096 }, true)

/-- `dma_alloc`, for an alignment that is a power of two. -/
def dmaAlloc (pool : DmaPool) (d : DmaState) (size align : ℕ) : DmaState × Option ℕ :=
  match d.map pool with
  | (d, false) => (d, none)
  | (d, true) =>
    match fit (pool.vbase + d.off) (pool.vbase + d.size) size align with
    | none => (d, none)
    | some a =>
      ({ d with off := a - pool.vbase + size, blocks := ⟨a, size⟩ :: d.blocks }, some a)

def dmaVirtToPhys32 (pool : DmaPool) (p : ℕ) : BitVec 32 :=
  (pool.pbase + BitVec.ofNat 64 (p - pool.vbase)).setWidth 32

/-- The static variables of `pktio.c`, and what the last call did. -/
structure PktioState where
  dma : DmaState
  txDcb : Option ℕ
  txBuf : Option ℕ
  rxRing : Option ℕ
  rxBufs : ℕ → Option ℕ
  /-- the descriptors of the ring -/
  ring : ℕ → Words
  running : Bool
  /-- what the call returned -/
  ret : Option (Rc Unit)
  /-- the pointers it copied to or put before the device -/
  uses : List (Option ℕ)
  /-- the process has copied to a null pointer -/
  crashed : Bool

inductive PktioCall
  /-- whether the writes of DESC0 and CTRL succeed -/
  | tx (req : TxReq) (desc0 ctrl : Bool)
  /-- the same, and whether the thread can be created -/
  | rxStart (desc0 ctrl thread : Bool)
  | rxStop

namespace PktioState

/-- `cmic_dma_start`: the device has the descriptors once DESC0 is written. -/
def cmicDmaStart (s : PktioState) (desc0 ctrl : Bool) (chain : List (Option ℕ)) :
    PktioState × Bool :=
  if desc0 then ({ s with uses := s.uses ++ chain }, ctrl) else (s, false)

/-- The first call allocates the descriptor and the buffer. -/
def txAlloc (pool : DmaPool) (s : PktioState) : PktioState × Bool :=
  if s.txDcb = none then
    let (d, dcb) := dmaAlloc pool s.dma (DCB_WORDS * 4) 64
    let (d, buf) := dmaAlloc pool d TX_BUF_MAX.toNat 16
    ({ s with dma := d, txDcb := dcb, txBuf := buf }, dcb.isSome && buf.isSome)
  else (s, true)

/-- Every outcome of the polls is a return of 0. -/
def tx (pool : DmaPool) (s : PktioState) (req : TxReq) (desc0 ctrl : Bool) : PktioState :=
  match txCheck req with
  | .error e => { s with ret := some (.error e) }
  | .ok _ =>
    match s.txAlloc pool with
    | (s, false) => { s with ret := some (.error .enomem) }
    | (s, true) =>
      if s.txBuf = none then { s with uses := [s.txBuf], crashed := true }
      else
        match cmicDmaStart { s with uses := [s.txBuf, s.txDcb] } desc0 ctrl [s.txDcb, s.txBuf] with
        | (s, false) => { s with ret := some (.error .eio) }
        | (s, true) => { s with ret := some (.ok ()) }

/-- A descriptor of the ring once its buffer is there. -/
def rxDcb (phys : BitVec 32) : Words := fun k =>
  if k = 0 then phys else if k = 1 then 0x00180000 ||| BitVec.ofNat 32 RX_BUF_SIZE else 0

/-- The loop over the descriptors still without a buffer. -/
def rxFill (pool : DmaPool) (s : PktioState) : List ℕ → PktioState × Bool
  | [] => (s, true)
  | i :: rest =>
    match dmaAlloc pool s.dma RX_BUF_SIZE 16 with
    | (d, none) => ({ s with dma := d, rxBufs := Function.update s.rxBufs i none }, false)
    | (d, some a) =>
      rxFill pool
        { s with
          dma := d
          rxBufs := Function.update s.rxBufs i (some a)
          ring := Function.update s.ring i (rxDcb (dmaVirtToPhys32 pool a))
          uses := s.uses ++ [some a] } rest

def rxAlloc (pool : DmaPool) (s : PktioState) : PktioState × Bool :=
  if s.rxRing = none then
    match dmaAlloc pool s.dma ((RX_DCBS + 1) * DCB_WORDS * 4) 64 with
    | (d, none) => ({ s with dma := d }, false)
    | (d, some a) =>
      rxFill pool
        { s with dma := d, rxRing := some a, ring := fun _ _ => 0, uses := [some a] }
        (List.range RX_DCBS)
  else (s, true)

def rxStart (pool : DmaPool) (s : PktioState) (desc0 ctrl thread : Bool) : PktioState :=
  if s.running then { s with ret := some (.ok ()) }
  else
    match s.rxAlloc pool with
    | (s, false) => { s with ret := some (.error .enomem) }
    | (s, true) =>
      match s.cmicDmaStart desc0 ctrl (s.rxRing :: (List.range RX_DCBS).map s.rxBufs) with
      | (s, false) => { s with ret := some (.error .eio) }
      | (s, true) =>
        if thread then { s with running := true, ret := some (.ok ()) }
        else { s with running := false, ret := some (.error .eio) }

/-- A process that has crashed makes no more calls. -/
def step (pool : DmaPool) (s : PktioState) (c : PktioCall) : PktioState :=
  let s := { s with ret := none, uses := [] }
  if s.crashed then s
  else
    match c with
    | .tx req desc0 ctrl => s.tx pool req desc0 ctrl
    | .rxStart desc0 ctrl thread => s.rxStart pool desc0 ctrl thread
    | .rxStop => { s with running := false, ret := some (.ok ()) }

/-- Before the first call. -/
def start (ring : ℕ → Words) (mapFault : ℕ → Bool) (infoFault : Bool) : PktioState where
  dma :=
    { mapped := false, size := 0, off := 0, blocks := [], mapFault := mapFault
      infoFault := infoFault }
  txDcb := none
  txBuf := none
  rxRing := none
  rxBufs := fun _ => none
  ring := ring
  running := false
  ret := none
  uses := []
  crashed := false

/-- Every descriptor of the ring holds the bus address of a buffer of its own. -/
structure Armed (pool : DmaPool) (s : PktioState) : Prop where
  buffer : ∀ i < RX_DCBS, ∃ a, s.rxBufs i = some a ∧ ⟨a, RX_BUF_SIZE⟩ ∈ s.dma.blocks ∧
    (pool.vbase ≤ a ∧ a + RX_BUF_SIZE ≤ pool.vbase + pool.size.toNat) ∧
    s.ring i 0 = dmaVirtToPhys32 pool a
  apart : ∀ i < RX_DCBS, ∀ j < RX_DCBS, i ≠ j → ∀ a b, s.rxBufs i = some a → s.rxBufs j = some b →
    Block.Apart ⟨a, RX_BUF_SIZE⟩ ⟨b, RX_BUF_SIZE⟩ ∧ s.ring i 0 ≠ s.ring j 0

/-- The call uses no null pointer, and a start that returns 0 finds the ring armed. -/
def Survives (pool : DmaPool) (s : PktioState) (c : PktioCall) : Prop :=
  (∀ p ∈ (s.step pool c).uses, p ≠ none) ∧
    ∀ desc0 ctrl thread, c = .rxStart desc0 ctrl thread →
      (s.step pool c).ret = some (.ok ()) → (s.step pool c).Armed pool

/-- No earlier call has left half of an allocation behind for this one: a packet
that passes the checks does not find a descriptor without its buffer, and a start
whose DESC0 is written does not find a ring without all of its buffers. -/
def FindsWhole (s : PktioState) : PktioCall → Prop
  | .tx req _ _ => (txCheck req).isOk → s.txDcb ≠ none → s.txBuf ≠ none
  | .rxStart desc0 _ _ => s.running = false → desc0 → s.rxRing ≠ none →
      ∀ i < RX_DCBS, s.rxBufs i ≠ none
  | .rxStop => True

end PktioState

/-! ### The allocator -/

/-- The blocks lie apart below `dma_off` and inside the pool. -/
structure DmaState.Inv (pool : DmaPool) (d : DmaState) : Prop where
  laid : Laid pool.vbase (pool.vbase + d.off) d.blocks
  size_le : d.size ≤ pool.size.toNat
  inside : ∀ b ∈ d.blocks, b.addr + b.size ≤ pool.vbase + pool.size.toNat

/-- The allocator has moved on from one state to another. -/
structure DmaState.Grows (d d' : DmaState) : Prop where
  kept : ∀ b ∈ d.blocks, b ∈ d'.blocks
  off_le : d.off ≤ d'.off

variable {pool : DmaPool} {d : DmaState}

theorem DmaState.Grows.trans {d' d'' : DmaState} (h : d.Grows d') (h' : d'.Grows d'') :
    d.Grows d'' := ⟨fun b hb => h'.kept b (h.kept b hb), h.off_le.trans h'.off_le⟩

theorem DmaState.Inv.map (h : d.Inv pool) :
    (d.map pool).1.Inv pool ∧ d.Grows (d.map pool).1 := by
  unfold DmaState.map
  split_ifs
  · exact ⟨h, fun _ hb => hb, le_rfl⟩
  · exact ⟨⟨h.laid, h.size_le, h.inside⟩, fun _ hb => hb, le_rfl⟩
  · exact ⟨⟨h.laid, h.size_le, h.inside⟩, fun _ hb => hb, le_rfl⟩
  · exact ⟨⟨h.laid.mono (Nat.add_le_add_left (Nat.le_max_left _ _) _), le_rfl, h.inside⟩,
      fun _ hb => hb, Nat.le_max_left _ _⟩

/-- A block is new: it lies above everything handed out before. -/
theorem DmaState.Inv.alloc (h : d.Inv pool) {align : ℕ} (ha : 0 < align) (size : ℕ) :
    (dmaAlloc pool d size align).1.Inv pool ∧ d.Grows (dmaAlloc pool d size align).1 ∧
      ∀ a, (dmaAlloc pool d size align).2 = some a →
        ⟨a, size⟩ ∈ (dmaAlloc pool d size align).1.blocks ∧ pool.vbase + d.off ≤ a ∧
          a + size = pool.vbase + (dmaAlloc pool d size align).1.off := by
  obtain ⟨hinv, hgrows⟩ := h.map
  unfold dmaAlloc
  generalize d.map pool = r at hinv hgrows
  obtain ⟨d', mapped⟩ := r
  cases mapped with
  | false => exact ⟨hinv, hgrows, fun a ha => by cases ha⟩
  | true =>
    dsimp only at hinv hgrows ⊢
    cases hfit : fit (pool.vbase + d'.off) (pool.vbase + d'.size) size align with
    | none => exact ⟨hinv, hgrows, fun a ha => by cases ha⟩
    | some a =>
      obtain ⟨hlo, hhi⟩ := fit_eq_some ha hfit
      have hoff : pool.vbase + (a - pool.vbase + size) = a + size := by omega
      have hsize := hinv.size_le
      have hmoved := hgrows.off_le
      refine ⟨⟨?_, hinv.size_le, ?_⟩, ⟨?_, ?_⟩, ?_⟩
      · dsimp only
        rw [hoff]
        exact hinv.laid.cons (by omega) hlo
      · intro b hb
        rcases List.mem_cons.mp hb with rfl | hb
        · dsimp only
          omega
        · exact hinv.inside b hb
      · exact fun b hb => List.mem_cons_of_mem _ (hgrows.kept b hb)
      · dsimp only
        omega
      · intro b hb
        obtain rfl := Option.some.inj hb
        refine ⟨List.mem_cons_self .., by omega, ?_⟩
        dsimp only
        omega

/-! ### The receive buffers -/

namespace PktioState

variable {s : PktioState}

/-- The first `k` descriptors have their buffers, one above the other, and no other
has one. -/
structure RxFilled (pool : DmaPool) (s : PktioState) (k : ℕ) : Prop where
  dma : s.dma.Inv pool
  buffer : ∀ i < k, ∃ a, s.rxBufs i = some a ∧ ⟨a, RX_BUF_SIZE⟩ ∈ s.dma.blocks ∧
    a + RX_BUF_SIZE ≤ pool.vbase + s.dma.off ∧ s.ring i 0 = dmaVirtToPhys32 pool a
  above : ∀ i j a b, i < j → s.rxBufs i = some a → s.rxBufs j = some b → a + RX_BUF_SIZE ≤ b
  rest : ∀ i, k ≤ i → s.rxBufs i = none

/-- Moving the allocator on does no harm to the buffers. -/
theorem RxFilled.grow {k : ℕ} (h : s.RxFilled pool k) {s' : PktioState}
    (hbufs : s'.rxBufs = s.rxBufs) (hring : s'.ring = s.ring) (hinv : s'.dma.Inv pool)
    (hgrows : s.dma.Grows s'.dma) : s'.RxFilled pool k where
  dma := hinv
  buffer i hi := by
    obtain ⟨a, ha, hmem, htop, hphys⟩ := h.buffer i hi
    have := hgrows.off_le
    exact ⟨a, by rw [hbufs, ha], hgrows.kept _ hmem, by omega, by rw [hring, hphys]⟩
  above := by
    rw [hbufs]
    exact h.above
  rest := by
    rw [hbufs]
    exact h.rest

theorem RxFilled.buf_ne_none_iff {k : ℕ} (h : s.RxFilled pool k) (hk : k ≤ RX_DCBS) :
    (∀ i < RX_DCBS, s.rxBufs i ≠ none) ↔ k = RX_DCBS := by
  constructor
  · intro hall
    by_contra hne
    exact hall k (by omega) (h.rest k le_rfl)
  · rintro rfl i hi
    obtain ⟨a, ha, -⟩ := h.buffer i hi
    simp [ha]

/-- Bus addresses tell two places of the pool apart. -/
theorem dmaVirtToPhys32_inj {a b : ℕ}
    (ha : pool.vbase ≤ a ∧ a < pool.vbase + pool.size.toNat)
    (hb : pool.vbase ≤ b ∧ b < pool.vbase + pool.size.toNat)
    (h : dmaVirtToPhys32 pool a = dmaVirtToPhys32 pool b) : a = b := by
  have hsize := pool.size.isLt
  have hn := congrArg BitVec.toNat h
  simp only [dmaVirtToPhys32, BitVec.toNat_setWidth, BitVec.toNat_add, BitVec.toNat_ofNat] at hn
  omega

theorem RxFilled.armed (h : s.RxFilled pool RX_DCBS) : s.Armed pool := by
  have hbuf (i : ℕ) (hi : i < RX_DCBS) : ∃ a, s.rxBufs i = some a ∧
      ⟨a, RX_BUF_SIZE⟩ ∈ s.dma.blocks ∧
      (pool.vbase ≤ a ∧ a + RX_BUF_SIZE ≤ pool.vbase + pool.size.toNat) ∧
      s.ring i 0 = dmaVirtToPhys32 pool a := by
    obtain ⟨a, ha, hmem, -, hphys⟩ := h.buffer i hi
    exact ⟨a, ha, hmem, ⟨(h.dma.laid.within _ hmem).1, h.dma.inside _ hmem⟩, hphys⟩
  refine ⟨hbuf, fun i hi j hj hne a b ha hb => ?_⟩
  obtain ⟨a', ha', -, hain, haphys⟩ := hbuf i hi
  obtain ⟨b', hb', -, hbin, hbphys⟩ := hbuf j hj
  obtain rfl : a = a' := Option.some.inj (ha.symm.trans ha')
  obtain rfl : b = b' := Option.some.inj (hb.symm.trans hb')
  have happart : Block.Apart ⟨a, RX_BUF_SIZE⟩ ⟨b, RX_BUF_SIZE⟩ := by
    rcases Nat.lt_or_gt_of_ne hne with hlt | hgt
    · exact .inl (h.above i j a b hlt ha hb)
    · exact .inr (h.above j i b a hgt hb ha)
  refine ⟨happart, fun hphys => ?_⟩
  rw [haphys, hbphys] at hphys
  have hsize : 0 < RX_BUF_SIZE := by decide
  have hab := dmaVirtToPhys32_inj ⟨hain.1, by omega⟩ ⟨hbin.1, by omega⟩ hphys
  subst hab
  rcases happart with h' | h' <;> dsimp only at h' <;> omega

/-- What the loop over the descriptors leaves alone. -/
structure RxFrame (s s' : PktioState) : Prop where
  txDcb : s'.txDcb = s.txDcb
  txBuf : s'.txBuf = s.txBuf
  rxRing : s'.rxRing = s.rxRing
  running : s'.running = s.running
  crashed : s'.crashed = s.crashed
  uses : (∀ p ∈ s.uses, p ≠ none) → ∀ p ∈ s'.uses, p ≠ none

/-- The next descriptor gets its buffer. -/
theorem RxFilled.push {lo a : ℕ} (h : s.RxFilled pool lo) {d : DmaState}
    (hd : dmaAlloc pool s.dma RX_BUF_SIZE 16 = (d, some a)) (uses : List (Option ℕ)) :
    RxFilled pool { s with
      dma := d
      rxBufs := Function.update s.rxBufs lo (some a)
      ring := Function.update s.ring lo (rxDcb (dmaVirtToPhys32 pool a))
      uses := uses } (lo + 1) := by
  obtain ⟨hinv, hgrows, hfresh⟩ := h.dma.alloc (show 0 < 16 by decide) RX_BUF_SIZE
  rw [hd] at hinv hgrows hfresh
  obtain ⟨hmem, hlow, htop⟩ := hfresh a rfl
  have hbelow (i b : ℕ) (hb : s.rxBufs i = some b) : b + RX_BUF_SIZE ≤ pool.vbase + s.dma.off := by
    have hi : i < lo := by
      by_contra hge
      rw [h.rest i (by omega)] at hb
      cases hb
    obtain ⟨b', hb', -, hle, -⟩ := h.buffer i hi
    obtain rfl := Option.some.inj (hb.symm.trans hb')
    exact hle
  refine ⟨hinv, fun i hi => ?_, fun i j b c hij hb hc => ?_, fun i hi => ?_⟩
  · by_cases hlo : i = lo
    · subst hlo
      refine ⟨a, Function.update_self .., hmem, htop.le, ?_⟩
      dsimp only
      rw [Function.update_self]
      rfl
    · obtain ⟨b, hb, hbmem, hbtop, hphys⟩ := h.buffer i (by omega)
      have := hgrows.off_le
      dsimp only at this ⊢
      rw [Function.update_of_ne hlo, Function.update_of_ne hlo]
      exact ⟨b, hb, hgrows.kept _ hbmem, by omega, hphys⟩
  · dsimp only at hb hc
    by_cases hi : i = lo
    · subst hi
      rw [Function.update_of_ne (by omega), h.rest j (by omega)] at hc
      cases hc
    · rw [Function.update_of_ne hi] at hb
      by_cases hj : j = lo
      · subst hj
        rw [Function.update_self] at hc
        obtain rfl := Option.some.inj hc
        exact (hbelow i b hb).trans hlow
      · rw [Function.update_of_ne hj] at hc
        exact h.above i j b c hij hb hc
  · dsimp only
    rw [Function.update_of_ne (by omega)]
    exact h.rest i (by omega)

theorem rxFill_frame (pool : DmaPool) (s : PktioState) (l : List ℕ) :
    s.RxFrame (rxFill pool s l).1 := by
  induction l generalizing s with
  | nil => exact ⟨rfl, rfl, rfl, rfl, rfl, fun hu => hu⟩
  | cons i l ih =>
    rw [rxFill]
    generalize dmaAlloc pool s.dma RX_BUF_SIZE 16 = r
    obtain ⟨d, p⟩ := r
    cases p with
    | none => exact ⟨rfl, rfl, rfl, rfl, rfl, fun hu => hu⟩
    | some a =>
      have hframe := ih { s with
        dma := d
        rxBufs := Function.update s.rxBufs i (some a)
        ring := Function.update s.ring i (rxDcb (dmaVirtToPhys32 pool a))
        uses := s.uses ++ [some a] }
      refine ⟨hframe.txDcb, hframe.txBuf, hframe.rxRing, hframe.running, hframe.crashed,
        fun hu => hframe.uses fun p hp => ?_⟩
      rcases List.mem_append.mp hp with hp | hp
      · exact hu p hp
      · rw [List.mem_singleton.mp hp]
        exact Option.some_ne_none a

/-- The loop ends with all of the buffers or with the first few. -/
theorem RxFilled.fill {lo : ℕ} (n : ℕ) (h : s.RxFilled pool lo) :
    ∃ k ≤ lo + n, (rxFill pool s (List.range' lo n)).1.RxFilled pool k ∧
      ((rxFill pool s (List.range' lo n)).2 = true → k = lo + n) := by
  induction n generalizing s lo with
  | zero => exact ⟨lo, le_rfl, h, fun _ => rfl⟩
  | succ n ih =>
    rw [List.range'_succ, rxFill]
    have hpush {a : ℕ} {d : DmaState} := h.push (d := d) (a := a)
    obtain ⟨hinv, hgrows, -⟩ := h.dma.alloc (show 0 < 16 by decide) RX_BUF_SIZE
    generalize dmaAlloc pool s.dma RX_BUF_SIZE 16 = r at hpush hinv hgrows
    obtain ⟨d, p⟩ := r
    cases p with
    | none =>
      have hsame : Function.update s.rxBufs lo none = s.rxBufs := by
        rw [← h.rest lo le_rfl, Function.update_eq_self]
      exact ⟨lo, by omega, h.grow hsame rfl hinv hgrows, fun he => by cases he⟩
    | some a =>
      obtain ⟨k, hk, hfilled, hall⟩ := ih (hpush rfl (s.uses ++ [some a]))
      exact ⟨k, by omega, hfilled, fun he => by rw [hall he]; omega⟩

/-! ### The calls -/

/-- Some of the descriptors have their buffers, all of them while the thread runs. -/
structure Inv (pool : DmaPool) (s : PktioState) : Prop where
  filled : ∃ k ≤ RX_DCBS, s.RxFilled pool k ∧ (s.rxRing = none → k = 0) ∧
    (s.running = true → k = RX_DCBS)
  alive : s.crashed = false

/-- What the call returns and uses plays no part. -/
theorem Inv.congr (h : s.Inv pool) {s' : PktioState} (hdma : s'.dma = s.dma)
    (hring : s'.rxRing = s.rxRing) (hbufs : s'.rxBufs = s.rxBufs) (hdcbs : s'.ring = s.ring)
    (hrun : s'.running = true → s.running = true) (halive : s'.crashed = s.crashed) :
    s'.Inv pool := by
  obtain ⟨⟨k, hk, hfilled, hnone, hall⟩, hcrashed⟩ := h
  refine ⟨⟨k, hk, ?_, by rwa [hring], fun hr => hall (hrun hr)⟩, halive.trans hcrashed⟩
  refine hfilled.grow hbufs hdcbs ?_ ?_
  · rw [hdma]
    exact hfilled.dma
  · rw [hdma]
    exact ⟨fun _ hb => hb, le_rfl⟩

theorem Inv.armed (h : s.Inv pool) (hall : ∀ i < RX_DCBS, s.rxBufs i ≠ none) :
    s.Armed pool := by
  obtain ⟨k, hk, hfilled, -⟩ := h.filled
  obtain rfl := (hfilled.buf_ne_none_iff hk).mp hall
  exact hfilled.armed

theorem Inv.bufs_of_running (h : s.Inv pool) (hr : s.running = true) :
    ∀ i < RX_DCBS, s.rxBufs i ≠ none := by
  obtain ⟨k, hk, hfilled, -, hall⟩ := h.filled
  exact (hfilled.buf_ne_none_iff hk).mpr (hall hr)

/-- The thread may run once every buffer is there. -/
theorem Inv.running (h : s.Inv pool) (hall : ∀ i < RX_DCBS, s.rxBufs i ≠ none)
    {ret : Option (Rc Unit)} {uses : List (Option ℕ)} :
    Inv pool { s with uses := uses, running := true, ret := ret } := by
  obtain ⟨⟨k, hk, hfilled, hnone, -⟩, halive⟩ := h
  refine ⟨⟨k, hk, ?_, hnone, fun _ => (hfilled.buf_ne_none_iff hk).mp hall⟩, halive⟩
  exact hfilled.grow rfl rfl hfilled.dma ⟨fun _ hb => hb, le_rfl⟩

theorem Inv.txAlloc (h : s.Inv pool) : (s.txAlloc pool).1.Inv pool ∧
    (s.txAlloc pool).1.uses = s.uses ∧ ((s.txAlloc pool).2 = false → s.txDcb = none) ∧
    ((s.txAlloc pool).2 = true → (s.txAlloc pool).1.txDcb ≠ none ∧
      ((s.txAlloc pool).1.txBuf ≠ none ↔ (s.txDcb ≠ none → s.txBuf ≠ none))) := by
  rw [PktioState.txAlloc]
  by_cases hd : s.txDcb = none
  · rw [if_pos hd]
    obtain ⟨k, hk, hfilled, hnone, hall⟩ := h.filled
    obtain ⟨hinv, hgrows, -⟩ := hfilled.dma.alloc (show 0 < 64 by decide) (DCB_WORDS * 4)
    obtain ⟨hinv', hgrows', -⟩ := hinv.alloc (show 0 < 16 by decide) TX_BUF_MAX.toNat
    dsimp only
    refine ⟨⟨⟨k, hk, hfilled.grow rfl rfl hinv' (hgrows.trans hgrows'), hnone, hall⟩, h.alive⟩,
      rfl, fun _ => hd, fun hboth => ?_⟩
    rw [Bool.and_eq_true, Option.isSome_iff_ne_none, Option.isSome_iff_ne_none] at hboth
    exact ⟨hboth.1, fun _ hne => absurd hd hne, fun _ => hboth.2⟩
  · rw [if_neg hd]
    refine ⟨h, rfl, fun he => ?_, fun _ => ⟨hd, fun hb _ => hb, fun hb => hb hd⟩⟩
    cases he

theorem uses_of_nil (hu : s.uses = []) : ∀ p ∈ s.uses, p ≠ none := by
  rw [hu]
  exact List.forall_mem_nil _

/-- A transmit that finds a whole allocation or none uses no null pointer, and only
such a one. -/
theorem Inv.tx (h : s.Inv pool) (hu : s.uses = []) (req : TxReq) (desc0 ctrl : Bool) :
    ((∀ p ∈ (s.tx pool req desc0 ctrl).uses, p ≠ none) ↔ s.FindsWhole (.tx req desc0 ctrl)) ∧
      (s.FindsWhole (.tx req desc0 ctrl) → (s.tx pool req desc0 ctrl).Inv pool) := by
  have hnil := uses_of_nil hu
  rw [PktioState.tx, FindsWhole]
  cases hcheck : txCheck req with
  | error e =>
    refine ⟨iff_of_true hnil fun hok => ?_, fun _ => ?_⟩
    · cases hok
    · exact h.congr rfl rfl rfl rfl (fun hr => hr) rfl
  | ok p =>
    obtain ⟨hinv, huses, hfailed, hboth⟩ := h.txAlloc
    generalize s.txAlloc pool = r at hinv huses hfailed hboth
    obtain ⟨s₁, ok⟩ := r
    dsimp only at hinv huses hfailed hboth ⊢
    have hone : (Except.ok p : Rc TxPacket).isOk = true := rfl
    cases ok with
    | false =>
      refine ⟨iff_of_true ?_ fun _ hne => absurd (hfailed rfl) hne, fun _ => ?_⟩
      · dsimp only
        rw [huses]
        exact hnil
      · exact hinv.congr rfl rfl rfl rfl (fun hr => hr) rfl
    | true =>
      obtain ⟨hdcb, hbuf⟩ := hboth rfl
      simp only [hone, true_imp_iff, ← hbuf]
      by_cases hb : s₁.txBuf = none
      · simp [hb]
      · rw [if_neg hb]
        have hused : ∀ p ∈ [s₁.txBuf, s₁.txDcb], p ≠ none := by
          simp [hb, hdcb]
        cases desc0 with
        | false =>
          simp only [cmicDmaStart, Bool.false_eq_true, if_false]
          exact ⟨iff_of_true hused hb,
            fun _ => hinv.congr rfl rfl rfl rfl (fun hr => hr) rfl⟩
        | true =>
          have hall : ∀ p ∈ [s₁.txBuf, s₁.txDcb] ++ [s₁.txDcb, s₁.txBuf], p ≠ none := by
            simp [hb, hdcb]
          simp only [cmicDmaStart, if_true]
          cases ctrl with
          | false => exact ⟨iff_of_true hall hb,
              fun _ => hinv.congr rfl rfl rfl rfl (fun hr => hr) rfl⟩
          | true => exact ⟨iff_of_true hall hb,
              fun _ => hinv.congr rfl rfl rfl rfl (fun hr => hr) rfl⟩

/-- The ring after its allocation. -/
theorem Inv.rxAlloc (h : s.Inv pool) (hu : s.uses = []) (hrun : s.running = false) :
    (s.rxAlloc pool).1.Inv pool ∧ (s.rxAlloc pool).1.running = false ∧
      (∀ p ∈ (s.rxAlloc pool).1.uses, p ≠ none) ∧
      ((s.rxAlloc pool).2 = false → s.rxRing = none) ∧
      ((s.rxAlloc pool).2 = true → (s.rxAlloc pool).1.rxRing ≠ none ∧
        ((∀ i < RX_DCBS, (s.rxAlloc pool).1.rxBufs i ≠ none) ↔
          (s.rxRing ≠ none → ∀ i < RX_DCBS, s.rxBufs i ≠ none))) := by
  rw [PktioState.rxAlloc]
  by_cases hr : s.rxRing = none
  · rw [if_pos hr]
    obtain ⟨k, hk, hfilled, hnone, -⟩ := h.filled
    obtain rfl := hnone hr
    obtain ⟨hinv, hgrows, -⟩ := hfilled.dma.alloc (show 0 < 64 by decide)
      ((RX_DCBS + 1) * DCB_WORDS * 4)
    generalize dmaAlloc pool s.dma ((RX_DCBS + 1) * DCB_WORDS * 4) 64 = r at hinv hgrows
    obtain ⟨d, p⟩ := r
    cases p with
    | none =>
      refine ⟨⟨⟨0, hk, hfilled.grow rfl rfl hinv hgrows, fun _ => rfl, fun he => ?_⟩, h.alive⟩,
        hrun, uses_of_nil hu, fun _ => hr, fun he => by cases he⟩
      rw [show s.running = true from he] at hrun
      cases hrun
    | some a =>
      dsimp only
      generalize hs₁ : ({ s with
        dma := d, rxRing := some a, ring := fun _ _ => 0, uses := [some a] } : PktioState) = s₁
      have hfilled₁ : s₁.RxFilled pool 0 := by
        subst hs₁
        exact ⟨hinv, fun i hi => absurd hi (Nat.not_lt_zero i), hfilled.above, hfilled.rest⟩
      obtain ⟨k, hk', hend, hall⟩ := hfilled₁.fill RX_DCBS
      have hframe := rxFill_frame pool s₁ (List.range RX_DCBS)
      rw [← List.range_eq_range'] at hend hall
      have hrun₁ : (s₁.rxFill pool (List.range RX_DCBS)).1.running = false := by
        rw [hframe.running, ← hs₁]
        exact hrun
      have hring₁ : (s₁.rxFill pool (List.range RX_DCBS)).1.rxRing = some a := by
        rw [hframe.rxRing, ← hs₁]
      refine ⟨⟨⟨k, by omega, hend, fun he => ?_, fun he => ?_⟩, ?_⟩, hrun₁,
        hframe.uses ?_, fun _ => hr, fun he => ⟨?_, ?_⟩⟩
      · rw [hring₁] at he
        cases he
      · rw [hrun₁] at he
        cases he
      · rw [hframe.crashed, ← hs₁]
        exact h.alive
      · rw [← hs₁]
        simp
      · simp [hring₁]
      · rw [hend.buf_ne_none_iff (by omega), hall he, Nat.zero_add]
        exact iff_of_true rfl fun hne => absurd hr hne
  · rw [if_neg hr]
    refine ⟨h, hrun, uses_of_nil hu, fun he => ?_, fun _ => ⟨hr, fun hb _ => hb, fun hb => hb hr⟩⟩
    cases he

/-- A start that finds a whole ring or none uses no null pointer and, if it returns
0, leaves the ring armed; a start that puts half a ring before the device does not. -/
theorem Inv.rxStart (h : s.Inv pool) (hu : s.uses = []) (desc0 ctrl thread : Bool) :
    (((∀ p ∈ (s.rxStart pool desc0 ctrl thread).uses, p ≠ none) ∧
        ((s.rxStart pool desc0 ctrl thread).ret = some (.ok ()) →
          (s.rxStart pool desc0 ctrl thread).Armed pool)) ↔
      s.FindsWhole (.rxStart desc0 ctrl thread)) ∧
    (s.FindsWhole (.rxStart desc0 ctrl thread) →
      (s.rxStart pool desc0 ctrl thread).Inv pool) := by
  rw [PktioState.rxStart, FindsWhole]
  by_cases hrun : s.running = true
  · rw [if_pos hrun]
    have hinv : Inv pool { s with ret := some (.ok ()) } :=
      h.congr rfl rfl rfl rfl (fun hr => hr) rfl
    refine ⟨iff_of_true ⟨uses_of_nil hu, fun _ => ?_⟩ fun hr => ?_, fun _ => hinv⟩
    · exact hinv.armed (h.bufs_of_running hrun)
    · rw [hrun] at hr
      cases hr
  · rw [if_neg hrun]
    have hidle : s.running = false := by simpa using hrun
    obtain ⟨hinv, hidle', huses, hfailed, hok⟩ := h.rxAlloc hu hidle
    generalize s.rxAlloc pool = r at hinv hidle' huses hfailed hok
    obtain ⟨s₁, ok⟩ := r
    dsimp only at hinv hidle' huses hfailed hok ⊢
    cases ok with
    | false =>
      refine ⟨iff_of_true ⟨huses, fun he => ?_⟩ fun _ _ hne => absurd (hfailed rfl) hne,
        fun _ => hinv.congr rfl rfl rfl rfl (fun hr => hr) rfl⟩
      cases he
    | true =>
      obtain ⟨hring, hbufs⟩ := hok rfl
      simp only [hidle, true_imp_iff, ← hbufs]
      cases desc0 with
      | false =>
        simp only [cmicDmaStart, Bool.false_eq_true, if_false, false_imp_iff, iff_true]
        refine ⟨⟨huses, fun he => ?_⟩, fun _ => hinv.congr rfl rfl rfl rfl (fun hr => hr) rfl⟩
        cases he
      | true =>
        have hchain : (∀ p ∈ s₁.uses ++ s₁.rxRing :: (List.range RX_DCBS).map s₁.rxBufs,
            p ≠ none) ↔ ∀ i < RX_DCBS, s₁.rxBufs i ≠ none := by
          simp only [List.forall_mem_append, List.forall_mem_cons, List.forall_mem_map,
            List.mem_range]
          exact ⟨fun hall => hall.2.2, fun hall => ⟨huses, hring, hall⟩⟩
        simp only [cmicDmaStart, if_true, true_imp_iff]
        cases ctrl with
        | false =>
          refine ⟨?_, fun _ => hinv.congr rfl rfl rfl rfl (fun hr => hr) rfl⟩
          exact (and_iff_left fun he => by cases he).trans hchain
        | true =>
          cases thread with
          | false =>
            refine ⟨?_, fun _ => hinv.congr rfl rfl rfl rfl (fun hr => by cases hr) rfl⟩
            exact (and_iff_left fun he => by cases he).trans hchain
          | true =>
            refine ⟨⟨fun hboth => hchain.mp hboth.1, fun hall => ?_⟩, fun hall => ?_⟩
            · exact ⟨hchain.mpr hall, fun _ => (hinv.running hall).armed hall⟩
            · exact hinv.running hall

/-- One call, from any state an earlier call leaves. -/
theorem Inv.step (h : s.Inv pool) (c : PktioCall) :
    (s.Survives pool c ↔ s.FindsWhole c) ∧ (s.FindsWhole c → (s.step pool c).Inv pool) := by
  have hfresh : Inv pool { s with ret := none, uses := [] } :=
    h.congr rfl rfl rfl rfl (fun hr => hr) rfl
  have hstep : s.step pool c = match c with
      | .tx req desc0 ctrl => PktioState.tx pool { s with ret := none, uses := [] } req desc0 ctrl
      | .rxStart desc0 ctrl thread =>
        PktioState.rxStart pool { s with ret := none, uses := [] } desc0 ctrl thread
      | .rxStop => { s with ret := some (.ok ()), uses := [], running := false } := by
    exact if_neg (show ¬ s.crashed = true by simp [h.alive])
  rw [Survives, hstep]
  cases c with
  | tx req desc0 ctrl =>
    obtain ⟨hiff, hinv⟩ := hfresh.tx rfl req desc0 ctrl
    refine ⟨?_, hinv⟩
    dsimp only
    rw [hiff]
    exact and_iff_left fun _ _ _ he => by cases he
  | rxStart desc0 ctrl thread =>
    obtain ⟨hiff, hinv⟩ := hfresh.rxStart rfl desc0 ctrl thread
    refine ⟨Iff.trans (and_congr_right fun _ => ?_) hiff, hinv⟩
    exact ⟨fun hall => hall desc0 ctrl thread rfl, fun hret _ _ _ _ => hret⟩
  | rxStop =>
    refine ⟨iff_of_true ⟨List.forall_mem_nil _, fun _ _ _ he => by cases he⟩ trivial, fun _ => ?_⟩
    exact hfresh.congr rfl rfl rfl rfl (fun hr => by cases hr) rfl

theorem inv_start (pool : DmaPool) (ring : ℕ → Words) (mapFault : ℕ → Bool) (infoFault : Bool) :
    (start ring mapFault infoFault).Inv pool := by
  refine ⟨⟨0, Nat.zero_le _, ⟨⟨laid_nil _ _, Nat.zero_le _, fun b hb => by cases hb⟩, ?_, ?_, ?_⟩,
    fun _ => rfl, fun hr => by cases hr⟩, rfl⟩
  · exact fun i hi => absurd hi (Nat.not_lt_zero i)
  · exact fun i j a b _ ha => by cases ha
  · exact fun i _ => rfl

end PktioState

/-- The runs that survive every failed allocation are those in which no call finds
half of one. -/
theorem survives_iff_findsWhole (pool : DmaPool) (ring : ℕ → Words) (mapFault : ℕ → Bool)
    (infoFault : Bool) (calls : List PktioCall) :
    EachStep (PktioState.step pool) (PktioState.Survives pool)
        (.start ring mapFault infoFault) calls ↔
      EachStep (PktioState.step pool) PktioState.FindsWhole
        (.start ring mapFault infoFault) calls :=
  eachStep_congr (fun _ c h => (h.step c).1) (fun _ c h hc => (h.step c).2 hc)
    (PktioState.inv_start pool ring mapFault infoFault) calls

end OpenNos.Sdk
