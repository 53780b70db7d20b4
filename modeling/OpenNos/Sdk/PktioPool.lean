import OpenNos.Sdk.PktioAlloc

/-! Which pools are large enough for packet I/O, or small enough to fail whole. With
the mapping in place the blocks follow one another from offset 4096 on: 64 and 2048
bytes for transmit, 4160 bytes and 64 times 2048 for receive, in the order of the
first calls. A size that ends inside one of the two groups leaves half of it. -/

namespace OpenNos.Sdk

open Bits Bump History

variable {pool : DmaPool} {d : DmaState}

/-- The sizes that leave no allocation half done: too small for the first block of
either, large enough for transmit but not for the ring, or large enough for all. -/
def DmaPool.NeverHalf (pool : DmaPool) : Prop :=
  pool.size.toNat < 4160 ∨ (6208 ≤ pool.size.toNat ∧ pool.size.toNat < 8256) ∨
    141440 ≤ pool.size.toNat

/-- Where the next block is looked for. -/
def DmaState.next (d : DmaState) : ℕ := if d.mapped then d.off else max d.off 4096

/-- Nothing fails but for want of room. -/
structure DmaState.Fresh (pool : DmaPool) (d : DmaState) : Prop where
  mapFault : ∀ n, d.mapFault n = false
  infoFault : d.infoFault = false
  size : d.mapped = true → d.size = pool.size.toNat

/-- The mapping is there unless the pool is empty. -/
theorem DmaState.Fresh.map (h : d.Fresh pool) :
    (d.map pool).1.Fresh pool ∧ (d.map pool).1.next = d.next ∧
      ((d.map pool).2 = true → (d.map pool).1.off = d.next ∧
        (d.map pool).1.size = pool.size.toNat ∧ (d.map pool).1.mapped = true) ∧
      ((d.map pool).2 = false → pool.size.toNat = 0) := by
  unfold DmaState.map
  by_cases hm : d.mapped = true
  · rw [if_pos hm]
    exact ⟨h, rfl, fun _ => ⟨by simp [DmaState.next, hm], h.size hm, hm⟩, fun he => by cases he⟩
  · rw [if_neg hm, h.mapFault, h.infoFault]
    have hnext : d.next = max d.off 4096 := by simp [DmaState.next, hm]
    by_cases hz : pool.size = 0
    · rw [if_pos (.inr hz)]
      refine ⟨⟨fun n => h.mapFault (n + 1), rfl, h.size⟩, rfl, fun he => ?_, fun _ => ?_⟩
      · cases he
      · rw [hz]
        rfl
    · rw [if_neg (fun he => he.elim (fun hf => by cases hf) hz), if_neg (by decide)]
      refine ⟨⟨h.mapFault, rfl, fun _ => rfl⟩, ?_, fun _ => ⟨hnext.symm, rfl, rfl⟩, fun he => ?_⟩
      · rw [hnext]
        rfl
      · cases he

/-- A block is there exactly if it ends inside the pool. -/
theorem DmaState.Fresh.alloc (h : d.Fresh pool) {size align : ℕ} (ha : 0 < align)
    (hsize : 0 < size) (hdvd : align ∣ pool.vbase + d.next) :
    (dmaAlloc pool d size align).1.Fresh pool ∧
      if d.next + size ≤ pool.size.toNat then
        (dmaAlloc pool d size align).2 = some (pool.vbase + d.next) ∧
          (dmaAlloc pool d size align).1.next = d.next + size
      else
        (dmaAlloc pool d size align).2 = none ∧ (dmaAlloc pool d size align).1.next = d.next := by
  obtain ⟨hfresh, hnext, hok, hfailed⟩ := h.map
  unfold dmaAlloc
  generalize d.map pool = r at hfresh hnext hok hfailed
  obtain ⟨d', mapped⟩ := r
  dsimp only at hfresh hnext hok hfailed ⊢
  cases mapped with
  | false =>
    have hzero := hfailed rfl
    rw [if_neg (by omega)]
    exact ⟨hfresh, rfl, hnext⟩
  | true =>
    obtain ⟨hoff, hdsize, hmapped⟩ := hok rfl
    dsimp only
    rw [hoff, hdsize, fit_of_dvd ha hdvd]
    by_cases hfit : d.next + size ≤ pool.size.toNat
    · rw [if_pos (show pool.vbase + d.next + size ≤ pool.vbase + pool.size.toNat by omega),
        if_pos hfit]
      refine ⟨⟨hfresh.mapFault, hfresh.infoFault, fun _ => rfl⟩, rfl, ?_⟩
      simp only [DmaState.next, hmapped, if_true]
      omega
    · rw [if_neg (show ¬ pool.vbase + d.next + size ≤ pool.vbase + pool.size.toNat by omega),
        if_neg hfit]
      exact ⟨hfresh, rfl, hnext⟩

namespace PktioState

variable {s : PktioState}

/-- The first transmit takes 64 and 2048 bytes. -/
theorem txAlloc_next (h : s.dma.Fresh pool) (ha : 64 ∣ pool.vbase + s.dma.next)
    (hd : s.txDcb = none) :
    (s.txAlloc pool).1.dma.Fresh pool ∧
      ((s.txAlloc pool).1.txDcb = none ↔ pool.size.toNat < s.dma.next + 64) ∧
      ((s.txAlloc pool).1.txBuf = none ↔ pool.size.toNat < s.dma.next + 2112) ∧
      (s.dma.next + 2112 ≤ pool.size.toNat → (s.txAlloc pool).1.dma.next = s.dma.next + 2112) ∧
      (pool.size.toNat < s.dma.next + 64 → (s.txAlloc pool).1.dma.next = s.dma.next) := by
  rw [PktioState.txAlloc, if_pos hd]
  have hdcb := h.alloc (show 0 < 64 by decide) (show 0 < DCB_WORDS * 4 by decide) ha
  rw [show DCB_WORDS * 4 = 64 from rfl] at hdcb ⊢
  dsimp only
  generalize dmaAlloc pool s.dma 64 64 = r at hdcb
  obtain ⟨d, dcb⟩ := r
  obtain ⟨hfresh, hdcb⟩ := hdcb
  dsimp only at hfresh hdcb ⊢
  have hnext : d.next = s.dma.next ∨ d.next = s.dma.next + 64 := by
    split_ifs at hdcb
    exacts [.inr hdcb.2, .inl hdcb.2]
  have hbuf := hfresh.alloc (show 0 < 16 by decide) (show 0 < TX_BUF_MAX.toNat by decide)
    (show 16 ∣ pool.vbase + d.next by omega)
  rw [show TX_BUF_MAX.toNat = 2048 from rfl] at hbuf ⊢
  generalize dmaAlloc pool d 2048 16 = r at hbuf
  obtain ⟨d', buf⟩ := r
  obtain ⟨hfresh', hbuf⟩ := hbuf
  dsimp only at hfresh' hbuf ⊢
  refine ⟨hfresh', ?_⟩
  split_ifs at hdcb hbuf with h1 h2 h2
  · rw [hdcb.1, hbuf.1, hbuf.2]
    simp
    omega
  · rw [hdcb.1, hbuf.1, hbuf.2]
    simp
    omega
  · omega
  · rw [hdcb.1, hbuf.1, hbuf.2]
    simp
    omega

/-- The buffers of the ring take 2048 bytes each. -/
theorem rxFill_next (h : s.dma.Fresh pool) (ha : 16 ∣ pool.vbase + s.dma.next)
    (hn : s.dma.next ≤ pool.size.toNat) (l : List ℕ) :
    (rxFill pool s l).1.dma.Fresh pool ∧
      (s.dma.next + 2048 * l.length ≤ pool.size.toNat →
        (rxFill pool s l).1.dma.next = s.dma.next + 2048 * l.length ∧
          (rxFill pool s l).2 = true) ∧
      (pool.size.toNat < s.dma.next + 2048 * l.length → (rxFill pool s l).2 = false ∧
        ∃ i ∈ l, (rxFill pool s l).1.rxBufs i = none) := by
  induction l generalizing s with
  | nil =>
    exact ⟨h, fun _ => ⟨rfl, rfl⟩, fun hlt => absurd hlt (by rw [List.length_nil]; omega)⟩
  | cons i l ih =>
    rw [rxFill, List.length_cons]
    have hbuf := h.alloc (show 0 < 16 by decide) (show 0 < RX_BUF_SIZE by decide) ha
    rw [show RX_BUF_SIZE = 2048 from rfl] at hbuf ⊢
    generalize dmaAlloc pool s.dma 2048 16 = r at hbuf
    obtain ⟨d, p⟩ := r
    obtain ⟨hfresh, hbuf⟩ := hbuf
    dsimp only at hfresh hbuf
    split_ifs at hbuf with hfit
    · obtain ⟨rfl, hnext⟩ := hbuf
      have hdvd : 16 ∣ pool.vbase + d.next := by omega
      have hle : d.next ≤ pool.size.toNat := by omega
      obtain ⟨hf, hroom, hfull⟩ := ih (s := { s with
        dma := d
        rxBufs := Function.update s.rxBufs i (some (pool.vbase + s.dma.next))
        ring := Function.update s.ring i
          (rxDcb (dmaVirtToPhys32 pool (pool.vbase + s.dma.next)))
        uses := s.uses ++ [some (pool.vbase + s.dma.next)] }) hfresh hdvd hle
      dsimp only at hf hroom hfull ⊢
      rw [hnext] at hroom hfull
      refine ⟨hf, fun hle => ?_, fun hlt => ?_⟩
      · obtain ⟨hn, hok⟩ := hroom (by omega)
        exact ⟨by omega, hok⟩
      · obtain ⟨hfailed, j, hj, hnone⟩ := hfull (by omega)
        exact ⟨hfailed, j, List.mem_cons_of_mem _ hj, hnone⟩
    · obtain ⟨rfl, hnext⟩ := hbuf
      dsimp only
      refine ⟨hfresh, fun hle => ?_, fun _ => ⟨rfl, i, List.mem_cons_self .., ?_⟩⟩
      · omega
      · rw [Function.update_self]

/-- The first start takes 4160 bytes for the ring and 64 times 2048. -/
theorem rxAlloc_next (h : s.dma.Fresh pool) (ha : 64 ∣ pool.vbase + s.dma.next)
    (hr : s.rxRing = none) :
    (s.rxAlloc pool).1.dma.Fresh pool ∧
      ((s.rxAlloc pool).1.txDcb = s.txDcb ∧ (s.rxAlloc pool).1.txBuf = s.txBuf ∧
        (s.rxAlloc pool).1.running = s.running) ∧
      ((s.rxAlloc pool).1.rxRing = none ↔ pool.size.toNat < s.dma.next + 4160) ∧
      (pool.size.toNat < s.dma.next + 4160 → (s.rxAlloc pool).1.dma.next = s.dma.next) ∧
      (s.dma.next + 135232 ≤ pool.size.toNat →
        (s.rxAlloc pool).1.dma.next = s.dma.next + 135232 ∧ (s.rxAlloc pool).2 = true) ∧
      (s.dma.next + 4160 ≤ pool.size.toNat → pool.size.toNat < s.dma.next + 135232 →
        (s.rxAlloc pool).2 = false ∧ ∃ i < RX_DCBS, (s.rxAlloc pool).1.rxBufs i = none) := by
  rw [PktioState.rxAlloc, if_pos hr]
  have hpos : 0 < (RX_DCBS + 1) * DCB_WORDS * 4 := by decide
  have hring := h.alloc (show 0 < 64 by decide) hpos ha
  rw [show (RX_DCBS + 1) * DCB_WORDS * 4 = 4160 from rfl] at hring ⊢
  generalize dmaAlloc pool s.dma 4160 64 = r at hring
  obtain ⟨d, p⟩ := r
  obtain ⟨hfresh, hring⟩ := hring
  dsimp only at hfresh hring
  split_ifs at hring with hfit
  · obtain ⟨rfl, hnext⟩ := hring
    dsimp only
    generalize hs₁ : ({ s with
      dma := d, rxRing := some (pool.vbase + s.dma.next), ring := fun _ _ => 0,
      uses := [some (pool.vbase + s.dma.next)] } : PktioState) = s₁
    have hdma : s₁.dma = d := by rw [← hs₁]
    obtain ⟨hf, hroom, hfull⟩ := rxFill_next (s := s₁) (by rw [hdma]; exact hfresh)
      (by rw [hdma]; omega) (by rw [hdma]; omega) (List.range RX_DCBS)
    have hframe := rxFill_frame pool s₁ (List.range RX_DCBS)
    rw [hdma, List.length_range, show RX_DCBS = 64 from rfl] at hroom hfull
    rw [show RX_DCBS = 64 from rfl] at hf hframe ⊢
    refine ⟨hf, ⟨?_, ?_, ?_⟩, ?_, fun hlt => by omega, fun hle => ?_, fun _ hlt => ?_⟩
    · rw [hframe.txDcb, ← hs₁]
    · rw [hframe.txBuf, ← hs₁]
    · rw [hframe.running, ← hs₁]
    · rw [hframe.rxRing, ← hs₁]
      simp
      omega
    · obtain ⟨hn, hok⟩ := hroom (by omega)
      exact ⟨by omega, hok⟩
    · obtain ⟨hfailed, i, hi, hnone⟩ := hfull (by omega)
      exact ⟨hfailed, i, List.mem_range.mp hi, hnone⟩
  · obtain ⟨rfl, hnext⟩ := hring
    refine ⟨hfresh, ⟨rfl, rfl, rfl⟩, iff_of_true hr (by omega), fun _ => hnext, fun hle => ?_,
      fun hle => ?_⟩
    · omega
    · omega

/-- No allocation is left half done, and the blocks follow one another. -/
structure Whole (pool : DmaPool) (s : PktioState) : Prop where
  fresh : s.dma.Fresh pool
  tx : s.txDcb ≠ none → s.txBuf ≠ none
  rx : s.rxRing ≠ none → ∀ i < RX_DCBS, s.rxBufs i ≠ none
  next : s.dma.next = 4096 + (if s.txDcb = none then 0 else 2112) +
    (if s.rxRing = none then 0 else 135232)

theorem Whole.congr (h : s.Whole pool) {s' : PktioState} (hdma : s'.dma = s.dma)
    (hdcb : s'.txDcb = s.txDcb) (hbuf : s'.txBuf = s.txBuf) (hring : s'.rxRing = s.rxRing)
    (hbufs : s'.rxBufs = s.rxBufs) : s'.Whole pool := by
  obtain ⟨hfresh, htx, hrx, hnext⟩ := h
  refine ⟨by rwa [hdma], by rwa [hdcb, hbuf], by rwa [hring, hbufs], ?_⟩
  rw [hdma, hdcb, hring, hnext]

theorem Whole.dvd (h : s.Whole pool) (ha : 64 ∣ pool.vbase) :
    64 ∣ pool.vbase + s.dma.next := by
  have hnext := h.next
  split_ifs at hnext <;> omega

theorem Whole.txAlloc (h : s.Whole pool) (ha : 64 ∣ pool.vbase) (hsize : pool.NeverHalf) :
    (s.txAlloc pool).1.Whole pool := by
  by_cases hd : s.txDcb = none
  · obtain ⟨hfresh, hdcb, hbuf, hroom, hfull⟩ := txAlloc_next h.fresh (h.dvd ha) hd
    have hnext := h.next
    rw [if_pos hd] at hnext
    have hrx : (s.txAlloc pool).1.rxRing = s.rxRing ∧ (s.txAlloc pool).1.rxBufs = s.rxBufs := by
      rw [PktioState.txAlloc, if_pos hd]
      exact ⟨rfl, rfl⟩
    have hwhole : s.dma.next + 64 ≤ pool.size.toNat → s.dma.next + 2112 ≤ pool.size.toNat := by
      rw [DmaPool.NeverHalf] at hsize
      split_ifs at hnext <;> omega
    refine ⟨hfresh, fun hne => ?_, ?_, ?_⟩
    · rw [ne_eq, hbuf]
      rw [ne_eq, hdcb] at hne
      omega
    · rw [hrx.1, hrx.2]
      exact h.rx
    · rw [hrx.1]
      by_cases hlt : pool.size.toNat < s.dma.next + 64
      · rw [if_pos (hdcb.mpr hlt), hfull hlt, hnext]
      · rw [if_neg fun hn => hlt (hdcb.mp hn), hroom (hwhole (by omega)), hnext]
        omega
  · rwa [PktioState.txAlloc, if_neg hd]

theorem Whole.rxAlloc (h : s.Whole pool) (hinv : s.Inv pool) (hu : s.uses = [])
    (hrun : s.running = false) (ha : 64 ∣ pool.vbase) (hsize : pool.NeverHalf) :
    (s.rxAlloc pool).1.Whole pool := by
  by_cases hr : s.rxRing = none
  · obtain ⟨hfresh, ⟨hdcb, hbuf, -⟩, hring, hfull, hroom, -⟩ := rxAlloc_next h.fresh (h.dvd ha) hr
    obtain ⟨-, -, -, -, hok⟩ := hinv.rxAlloc hu hrun
    have hnext := h.next
    rw [if_pos hr] at hnext
    have hwhole : s.dma.next + 4160 ≤ pool.size.toNat →
        s.dma.next + 135232 ≤ pool.size.toNat := by
      rw [DmaPool.NeverHalf] at hsize
      split_ifs at hnext <;> omega
    refine ⟨hfresh, ?_, fun hne => ?_, ?_⟩
    · rw [hdcb, hbuf]
      exact h.tx
    · rw [ne_eq, hring] at hne
      exact (hok (hroom (hwhole (by omega))).2).2.mpr fun hne' => absurd hr hne'
    · rw [hdcb]
      by_cases hlt : pool.size.toNat < s.dma.next + 4160
      · rw [if_pos (hring.mpr hlt), hfull hlt, hnext]
      · rw [if_neg fun hn => hlt (hring.mp hn), (hroom (hwhole (by omega))).1, hnext]
  · rwa [PktioState.rxAlloc, if_neg hr]

theorem Whole.tx_call (h : s.Whole pool) (ha : 64 ∣ pool.vbase) (hsize : pool.NeverHalf)
    (req : TxReq) (desc0 ctrl : Bool) : (s.tx pool req desc0 ctrl).Whole pool := by
  have halloc := h.txAlloc ha hsize
  rw [PktioState.tx]
  cases txCheck req with
  | error e => exact h.congr rfl rfl rfl rfl rfl
  | ok p =>
    generalize s.txAlloc pool = r at halloc
    obtain ⟨s₁, ok⟩ := r
    cases ok with
    | false => exact halloc.congr rfl rfl rfl rfl rfl
    | true =>
      dsimp only
      split_ifs
      · exact halloc.congr rfl rfl rfl rfl rfl
      · cases desc0 <;> cases ctrl <;> exact halloc.congr rfl rfl rfl rfl rfl

theorem Whole.rxStart_call (h : s.Whole pool) (hinv : s.Inv pool) (hu : s.uses = [])
    (ha : 64 ∣ pool.vbase) (hsize : pool.NeverHalf) (desc0 ctrl thread : Bool) :
    (s.rxStart pool desc0 ctrl thread).Whole pool := by
  rw [PktioState.rxStart]
  by_cases hrun : s.running = true
  · rw [if_pos hrun]
    exact h.congr rfl rfl rfl rfl rfl
  · rw [if_neg hrun]
    have halloc := h.rxAlloc hinv hu (by simpa using hrun) ha hsize
    generalize s.rxAlloc pool = r at halloc
    obtain ⟨s₁, ok⟩ := r
    cases ok with
    | false => exact halloc.congr rfl rfl rfl rfl rfl
    | true =>
      cases desc0 <;> cases ctrl <;> cases thread <;> exact halloc.congr rfl rfl rfl rfl rfl

/-- Nothing that is whole breaks in a pool of such a size. -/
theorem Whole.step (h : s.Whole pool) (hinv : s.Inv pool) (ha : 64 ∣ pool.vbase)
    (hsize : pool.NeverHalf) (c : PktioCall) : (s.step pool c).Whole pool := by
  have hfresh : Inv pool { s with ret := none, uses := [] } :=
    hinv.congr rfl rfl rfl rfl (fun hr => hr) rfl
  have hwhole : Whole pool { s with ret := none, uses := [] } := h.congr rfl rfl rfl rfl rfl
  unfold PktioState.step
  dsimp only
  split_ifs
  · exact hwhole
  · cases c with
    | tx req desc0 ctrl => exact hwhole.tx_call ha hsize req desc0 ctrl
    | rxStart desc0 ctrl thread => exact hwhole.rxStart_call hfresh rfl ha hsize desc0 ctrl thread
    | rxStop => exact h.congr rfl rfl rfl rfl rfl

theorem Whole.findsWhole (h : s.Whole pool) (c : PktioCall) : s.FindsWhole c := by
  cases c with
  | tx req desc0 ctrl => exact fun _ => h.tx
  | rxStart desc0 ctrl thread => exact fun _ _ => h.rx
  | rxStop => trivial

theorem whole_start (pool : DmaPool) (ring : ℕ → Words) :
    (start ring (fun _ => false) false).Whole pool where
  fresh := ⟨fun _ => rfl, rfl, fun he => by cases he⟩
  tx hne := absurd rfl hne
  rx hne := absurd rfl hne
  next := rfl

/-! ### The sizes in between -/

def txOnce : PktioCall := .tx ⟨1, some fun _ => 0, 64⟩ true true

def rxOnce : PktioCall := .rxStart true true true

/-- What a first transmit leaves is what its allocation leaves. -/
theorem step_txOnce (pool : DmaPool) (halive : s.crashed = false) (hd : s.txDcb = none) :
    (s.step pool txOnce).dma = (s.txAlloc pool).1.dma ∧
      (s.step pool txOnce).txDcb = (s.txAlloc pool).1.txDcb ∧
      (s.step pool txOnce).txBuf = (s.txAlloc pool).1.txBuf ∧
      (s.step pool txOnce).rxRing = s.rxRing ∧ (s.step pool txOnce).running = s.running ∧
      (s.step pool txOnce).crashed = false := by
  obtain ⟨p, hp⟩ : ∃ p, txCheck ⟨1, some fun _ => 0, 64⟩ = .ok p := ⟨_, rfl⟩
  unfold PktioState.step
  simp only [halive, Bool.false_eq_true, if_false, txOnce, PktioState.tx, hp, PktioState.txAlloc,
    hd, if_true]
  generalize dmaAlloc pool s.dma (DCB_WORDS * 4) 64 = r
  obtain ⟨d, dcb⟩ := r
  dsimp only
  generalize dmaAlloc pool d TX_BUF_MAX.toNat 16 = r
  obtain ⟨d', buf⟩ := r
  cases dcb <;> cases buf <;> simp [cmicDmaStart]

/-- A start that finds room for the ring alone leaves it to the next one. -/
theorem rxOnce_half (h : s.dma.Fresh pool) (ha : 64 ∣ pool.vbase + s.dma.next)
    (hr : s.rxRing = none) (halive : s.crashed = false) (hidle : s.running = false)
    (hlo : s.dma.next + 4160 ≤ pool.size.toNat) (hhi : pool.size.toNat < s.dma.next + 135232) :
    ¬ (s.step pool rxOnce).FindsWhole rxOnce := by
  obtain ⟨s₀, hs₀⟩ : ∃ s₀ : PktioState, s₀ = { s with ret := none, uses := [] } := ⟨_, rfl⟩
  have hnext : s₀.dma.next = s.dma.next := by rw [hs₀]
  have hidle₀ : s₀.running = false := by rw [hs₀, hidle]
  obtain ⟨-, ⟨-, -, hrun⟩, hring, -, -, hhalf⟩ := rxAlloc_next (s := s₀) (by rwa [hs₀])
    (by rwa [hnext]) (by rw [hs₀, hr])
  rw [hnext] at hring hhalf
  obtain ⟨hfailed, i, hi, hnone⟩ := hhalf hlo hhi
  have hstep : s.step pool rxOnce = { (s₀.rxAlloc pool).1 with ret := some (.error .enomem) } := by
    have hcall : s.step pool rxOnce = s₀.rxStart pool true true true := by
      rw [hs₀]
      exact if_neg (by simp [halive])
    rw [hcall, PktioState.rxStart, if_neg (by simp [hidle₀])]
    generalize s₀.rxAlloc pool = r at hfailed
    obtain ⟨s₁, ok⟩ := r
    obtain rfl : ok = false := hfailed
    rfl
  rw [hstep]
  intro hwhole
  refine hwhole (hrun.trans hidle₀) rfl (fun he => ?_) i hi hnone
  have := hring.mp he
  omega

theorem fresh_start (pool : DmaPool) (ring : ℕ → Words) :
    (start ring (fun _ => false) false).dma.Fresh pool := (whole_start pool ring).fresh

/-- Some calls find half of an allocation in a pool of any other size: two
transmits, two starts, or two starts after a transmit. -/
theorem exists_half (pool : DmaPool) (ring : ℕ → Words) (ha : 64 ∣ pool.vbase)
    (hsize : ¬ pool.NeverHalf) : ∃ calls, ¬ EachStep (PktioState.step pool)
      PktioState.FindsWhole (start ring (fun _ => false) false) calls := by
  generalize hs : start ring (fun _ => false) false = s
  have hnext : s.dma.next = 4096 := by rw [← hs]; rfl
  have hdvd : 64 ∣ pool.vbase + s.dma.next := by omega
  have hfresh : s.dma.Fresh pool := by rw [← hs]; exact fresh_start pool ring
  have hdcb : s.txDcb = none := by rw [← hs]; rfl
  have hring : s.rxRing = none := by rw [← hs]; rfl
  have halive : s.crashed = false := by rw [← hs]; rfl
  have hidle : s.running = false := by rw [← hs]; rfl
  obtain ⟨hfresh₁, hdcb₁, hbuf₁, hroom₁, -⟩ := txAlloc_next hfresh hdvd hdcb
  obtain ⟨hdma, hdcb', hbuf', hring', hrun', halive'⟩ := step_txOnce pool halive hdcb
  rw [DmaPool.NeverHalf] at hsize
  by_cases h6208 : pool.size.toNat < 6208
  · refine ⟨[txOnce, txOnce], fun h => h.2.1 rfl ?_ ?_⟩
    · rw [hdcb', ne_eq, hdcb₁]
      omega
    · rw [hbuf', hbuf₁]
      omega
  · by_cases h139328 : pool.size.toNat < 139328
    · refine ⟨[rxOnce, rxOnce], fun h => ?_⟩
      exact rxOnce_half hfresh hdvd hring halive hidle (by omega) (by omega) h.2.1
    · refine ⟨[txOnce, rxOnce, rxOnce], fun h => ?_⟩
      have hnext₁ : (s.step pool txOnce).dma.next = 6208 := by
        rw [hdma, hroom₁ (by omega), hnext]
      refine rxOnce_half ?_ ?_ (hring'.trans hring) halive' (hrun'.trans hidle) ?_ ?_ h.2.2.1
      · rw [hdma]
        exact hfresh₁
      all_goals omega

end PktioState

/-- The runs that survive every failed allocation are those in which no call finds
half of one; and when nothing fails but for want of room, all runs do exactly in
the pools of a size that never leaves half. -/
theorem pktio_survives_iff (pool : DmaPool) (ring : ℕ → Words) :
    (∀ (mapFault : ℕ → Bool) (infoFault : Bool) (calls : List PktioCall),
      EachStep (PktioState.step pool) (PktioState.Survives pool)
          (.start ring mapFault infoFault) calls ↔
        EachStep (PktioState.step pool) PktioState.FindsWhole
          (.start ring mapFault infoFault) calls) ∧
    (64 ∣ pool.vbase →
      ((∀ calls, EachStep (PktioState.step pool) (PktioState.Survives pool)
          (.start ring (fun _ => false) false) calls) ↔ pool.NeverHalf)) := by
  refine ⟨survives_iff_findsWhole pool ring, fun ha => ⟨fun h => ?_, fun hsize calls => ?_⟩⟩
  · by_contra hsize
    obtain ⟨calls, hcalls⟩ := PktioState.exists_half pool ring ha hsize
    exact hcalls ((survives_iff_findsWhole pool ring _ _ calls).mp (h calls))
  · rw [survives_iff_findsWhole]
    have hkeep (s : PktioState) (c : PktioCall) (h : s.Inv pool ∧ s.Whole pool) :
        (s.step pool c).Inv pool ∧ (s.step pool c).Whole pool :=
      ⟨(h.1.step c).2 (h.2.findsWhole c), h.2.step h.1 ha hsize c⟩
    have hgives (s : PktioState) (c : PktioCall) (h : s.Inv pool ∧ s.Whole pool) :
        s.FindsWhole c := h.2.findsWhole c
    exact eachStep_of_step hkeep hgives
      ⟨PktioState.inv_start pool ring _ _, PktioState.whole_start pool ring⟩ calls

/-- A pool with room for the descriptor alone: the second transmit copies its
packet to the null pointer. -/
theorem not_pktio_survives_small_pool :
    ¬ ∀ (pool : DmaPool) (ring : ℕ → Words) (mapFault : ℕ → Bool) (infoFault : Bool)
      (calls : List PktioCall), EachStep (PktioState.step pool) (PktioState.Survives pool)
        (.start ring mapFault infoFault) calls := by
  intro h
  have hcalls := h ⟨0x10000, 0, 5000⟩ (fun _ _ => 0) (fun _ => false) false
    [.tx ⟨1, some fun _ => 0, 64⟩ true true, .tx ⟨1, some fun _ => 0, 64⟩ true true]
  exact hcalls.2.1.1 none (by decide) rfl

end OpenNos.Sdk
