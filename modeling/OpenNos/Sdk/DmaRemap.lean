import OpenNos.Sdk.PktioAlloc

/-! The DMA mapping across attach and detach. `bde_ioctl.c` owns the mapping: it maps
the pool when asked and forgets it when it unmaps it. `pktio.c` keeps the base it was
first given, and the descriptors and buffers it has carved out of it, for good. So a
call after a detach goes on with addresses of a mapping that is gone, unless the pool
has been mapped at the same place again. -/

namespace OpenNos.Sdk

open Bits Bump History

/-- What the driver reports of its pool. -/
structure DmaInfo where
  pbase : BitVec 64
  size : BitVec 32

/-- What the kernel answers to one call. -/
structure BdeAnswers where
  /-- whether the device can be opened -/
  opens : Bool
  /-- where a mapping would go -/
  addr : ℕ
  addr_pos : 0 < addr
  /-- which of the tries to map the pool fail -/
  mapFault : ℕ → Bool
  /-- whether the ioctl for the size fails once the pool is mapped -/
  infoFault : Bool

/-- The static variables of `bde_ioctl.c`. -/
structure BdeState where
  fdOpen : Bool
  /-- the mapping that is live -/
  dmaBase : Option ℕ
  deriving DecidableEq

def bdeOpen (b : BdeState) (e : BdeAnswers) : BdeState × Bool :=
  if b.fdOpen then (b, true) else ({ b with fdOpen := e.opens }, e.opens)

def bdeClose (_ : BdeState) : BdeState where
  fdOpen := false
  dmaBase := none

/-- The `n`-th try of a call. -/
def bdeMmapDma (info : DmaInfo) (b : BdeState) (e : BdeAnswers) (n : ℕ) : BdeState × Option ℕ :=
  match b.dmaBase with
  | some a => (b, some a)
  | none =>
    if b.fdOpen = false ∨ e.mapFault n ∨ info.size = 0 then (b, none)
    else ({ b with dmaBase := some e.addr }, some e.addr)

/-- The static variables of `attach.c`, `bde_ioctl.c` and `pktio.c`. -/
structure AttachState where
  bde : BdeState
  attached : Bool
  /-- `dma_vbase`, once it is set -/
  vbase : ℕ
  pktio : PktioState

inductive AttachCall
  | attach (e : BdeAnswers)
  | detach
  /-- a call of `pktio.c` -/
  | io (e : BdeAnswers) (c : PktioCall)

namespace AttachState

/-- `bcm56846_attach`, and whether it returns 0. -/
def attach (info : DmaInfo) (y : AttachState) (e : BdeAnswers) : AttachState × Bool :=
  if y.attached then (y, true)
  else
    match bdeOpen y.bde e with
    | (b, false) => ({ y with bde := b }, false)
    | (b, true) =>
      match bdeMmapDma info b e 0 with
      | (b, none) => ({ y with bde := bdeClose b }, false)
      | (b, some _) => ({ y with bde := b, attached := true }, true)

def detach (y : AttachState) : AttachState := { y with bde := bdeClose y.bde, attached := false }

/-- The pool as `pktio.c` sees it: at the base it has kept, or else at the one
`bde_mmap_dma` gives it in this call. -/
def pool (info : DmaInfo) (y : AttachState) (e : BdeAnswers) : DmaPool where
  vbase := if y.pktio.dma.mapped then y.vbase else y.bde.dmaBase.getD e.addr
  pbase := info.pbase
  size := info.size

/-- `pktio.c` as it enters a call, with the answers of `bde_ioctl.c` in it. -/
def entered (info : DmaInfo) (y : AttachState) (e : BdeAnswers) : PktioState :=
  { y.pktio with
    dma :=
      { y.pktio.dma with
        mapFault := fun n => (bdeMmapDma info y.bde e n).2.isNone
        infoFault := !y.bde.fdOpen || e.infoFault }
    ret := none
    uses := [] }

/-- No register is written once the device is closed. -/
def gated (y : AttachState) : PktioCall → PktioCall
  | .tx req desc0 ctrl => .tx req (y.bde.fdOpen && desc0) (y.bde.fdOpen && ctrl)
  | .rxStart desc0 ctrl thread => .rxStart (y.bde.fdOpen && desc0) (y.bde.fdOpen && ctrl) thread
  | .rxStop => .rxStop

def io (info : DmaInfo) (y : AttachState) (e : BdeAnswers) (c : PktioCall) : AttachState :=
  let s := (y.entered info e).step (y.pool info e) (y.gated c)
  { y with
    -- only a first allocation maps, and it sets both variables
    bde := if y.pktio.dma.mapped = false ∧ s.dma.mapped then
        { y.bde with dmaBase := some (y.pool info e).vbase }
      else y.bde
    vbase := (y.pool info e).vbase
    pktio := s }

def step (info : DmaInfo) (y : AttachState) : AttachCall → AttachState
  | .attach e => (y.attach info e).1
  | .detach => y.detach
  | .io e c => y.io info e c

/-- Before the first call. -/
def start (ring : ℕ → Words) : AttachState where
  bde := { fdOpen := false, dmaBase := none }
  attached := false
  vbase := 0
  pktio := .start ring (fun _ => false) false

end AttachState

/-! ### What a call touches -/

namespace PktioState

/-- The memory a start has cleared, the ring first. -/
def cleared : List (Option ℕ) → List (Option ℕ × ℕ)
  | [] => []
  | ring :: bufs => (ring, (RX_DCBS + 1) * DCB_WORDS * 4) :: bufs.map (·, RX_BUF_SIZE)

/-- The bytes a call of `tx` or `rx_start` reads and writes: a first address and a
number. Only a start that allocates writes to the ring and its buffers. -/
def accesses (pool : DmaPool) (s : PktioState) : PktioCall → List (Option ℕ × ℕ)
  | .tx req _ _ =>
    match txCheck req, s.txAlloc pool with
    | .ok p, (s, true) =>
      if s.txBuf = none then [(s.txBuf, p.len)]
      else [(s.txBuf, p.len), (s.txDcb, DCB_WORDS * 4)]
    | _, _ => []
  | .rxStart _ _ _ =>
    if s.running then [] else cleared (s.rxAlloc pool).1.uses
  | .rxStop => []

/-- What the device is given: DESC0 and the first words of the descriptors, each with
the virtual address it stands for. -/
def given (pool : DmaPool) (s : PktioState) : PktioCall → List (Option ℕ × BitVec 32)
  | .tx req desc0 _ =>
    match txCheck req, s.txAlloc pool with
    | .ok _, (s, true) =>
      if desc0 ∧ s.txBuf ≠ none then
        [s.txDcb, s.txBuf].map fun p => (p, dmaVirtToPhys32 pool (p.getD 0))
      else []
    | _, _ => []
  | .rxStart desc0 _ _ =>
    if s.running then []
    else
      match s.rxAlloc pool with
      | (s, true) =>
        if desc0 then
          (s.rxRing, dmaVirtToPhys32 pool (s.rxRing.getD 0)) ::
            (List.range RX_DCBS).map fun i => (s.rxBufs i, s.ring i 0)
        else []
      | (_, false) => []
  | .rxStop => []

/-- The call gets as far as the memory or the device. -/
def Touches (pool : DmaPool) (s : PktioState) : PktioCall → Prop
  | .tx req _ _ => (txCheck req).isOk ∧ (s.txAlloc pool).2 = true
  | .rxStart desc0 _ _ => s.running = false ∧
      if s.rxRing = none then (dmaAlloc pool s.dma ((RX_DCBS + 1) * DCB_WORDS * 4) 64).2 ≠ none
      else desc0 = true
  | .rxStop => False

end PktioState

/-- The bytes lie in the mapping that is live. -/
def BdeState.Maps (info : DmaInfo) (b : BdeState) (r : Option ℕ × ℕ) : Prop :=
  ∃ base a, b.dmaBase = some base ∧ r.1 = some a ∧
    base ≤ a ∧ a + r.2 ≤ base + info.size.toNat

/-- The word is the address of the pool plus the offset in the mapping that is live. -/
def BdeState.Translates (info : DmaInfo) (b : BdeState) (g : Option ℕ × BitVec 32) : Prop :=
  ∃ base a, b.dmaBase = some base ∧ g.1 = some a ∧
    base ≤ a ∧ a < base + info.size.toNat ∧
    g.2 = (info.pbase + BitVec.ofNat 64 (a - base)).setWidth 32

/-- Everything a call touches and gives away belongs to the mapping that is live, and so does
every pointer it uses. A call may map the pool before it touches anything, but it never unmaps
it. -/
def Contained (info : DmaInfo) (y : AttachState) : AttachCall → Prop
  | .io e c =>
    (∀ r ∈ (y.entered info e).accesses (y.pool info e) (y.gated c),
        (y.io info e c).bde.Maps info r) ∧
      (∀ g ∈ (y.entered info e).given (y.pool info e) (y.gated c),
        (y.io info e c).bde.Translates info g) ∧
      ∀ p ∈ (y.io info e c).pktio.uses, (y.io info e c).bde.Maps info (p, 0)
  | _ => True

/-- No call finds half an allocation, and none gets as far as the memory or the device
while the base `pktio.c` has kept is not that of the mapping. -/
def FindsMapping (info : DmaInfo) (y : AttachState) : AttachCall → Prop
  | .io e c =>
    (y.entered info e).FindsWhole (y.gated c) ∧
      ((y.entered info e).Touches (y.pool info e) (y.gated c) → y.pktio.dma.mapped = true →
        y.bde.dmaBase = some y.vbase)
  | _ => True

/-! ### The blocks -/

variable {pool : DmaPool} {d d' : DmaState} {s s' : PktioState}

/-- The allocator has moved on, and maps before it hands out. -/
structure DmaState.Takes (d d' : DmaState) : Prop where
  kept : ∀ b ∈ d.blocks, b ∈ d'.blocks
  unmapped : (d.mapped = false → d.blocks = []) → d'.mapped = false → d'.blocks = []

theorem DmaState.Takes.refl (d : DmaState) : d.Takes d := ⟨fun _ hb => hb, fun h => h⟩

theorem DmaState.Takes.trans {d'' : DmaState} (h : d.Takes d') (h' : d'.Takes d'') :
    d.Takes d'' := ⟨fun b hb => h'.kept b (h.kept b hb), fun hd => h'.unmapped (h.unmapped hd)⟩

theorem DmaState.map_blocks (pool : DmaPool) (d : DmaState) :
    (d.map pool).1.blocks = d.blocks ∧ ((d.map pool).1.mapped = false → d.mapped = false) ∧
      ((d.map pool).2 = true → (d.map pool).1.mapped = true) := by
  unfold DmaState.map
  split_ifs with hm
  · exact ⟨rfl, fun h => h, fun _ => hm⟩
  · exact ⟨rfl, fun h => h, fun h => by cases h⟩
  · exact ⟨rfl, (fun h => by cases h), fun h => by cases h⟩
  · exact ⟨rfl, (fun h => by cases h), fun _ => rfl⟩

theorem dmaAlloc_takes (pool : DmaPool) (d : DmaState) (size align : ℕ) :
    d.Takes (dmaAlloc pool d size align).1 ∧
      ∀ a, (dmaAlloc pool d size align).2 = some a →
        ⟨a, size⟩ ∈ (dmaAlloc pool d size align).1.blocks := by
  obtain ⟨hblocks, hmapped, hdone⟩ := d.map_blocks pool
  unfold dmaAlloc
  generalize d.map pool = r at hblocks hmapped hdone
  obtain ⟨d', done⟩ := r
  dsimp only at hblocks hmapped hdone ⊢
  have hsame : d.Takes d' := by
    refine ⟨fun b hb => hblocks ▸ hb, fun hd h => ?_⟩
    rw [hblocks]
    exact hd (hmapped h)
  cases done with
  | false => exact ⟨hsame, fun a ha => by cases ha⟩
  | true =>
    dsimp only
    cases fit (pool.vbase + d'.off) (pool.vbase + d'.size) size align with
    | none => exact ⟨hsame, fun a ha => by cases ha⟩
    | some a =>
      refine ⟨⟨fun b hb => List.mem_cons_of_mem _ (hsame.kept b hb), fun _ h => ?_⟩, fun b hb => ?_⟩
      · rw [show d'.mapped = false from h] at hdone
        cases hdone rfl
      · obtain rfl := Option.some.inj hb
        exact List.mem_cons_self ..

namespace PktioState

/-- The pointers of `pktio.c` are blocks it has taken, and it has taken none before it
has the mapping. -/
structure Placed (s : PktioState) : Prop where
  txDcb : ∀ a, s.txDcb = some a → ⟨a, DCB_WORDS * 4⟩ ∈ s.dma.blocks
  txBuf : ∀ a, s.txBuf = some a → ⟨a, TX_BUF_MAX.toNat⟩ ∈ s.dma.blocks
  rxRing : ∀ a, s.rxRing = some a → ⟨a, (RX_DCBS + 1) * DCB_WORDS * 4⟩ ∈ s.dma.blocks
  unmapped : s.dma.mapped = false → s.dma.blocks = []

/-- The two states have the same blocks and the same pointers to them. -/
structure SamePlaces (s s' : PktioState) : Prop where
  dma : s'.dma = s.dma
  txDcb : s'.txDcb = s.txDcb
  txBuf : s'.txBuf = s.txBuf
  rxRing : s'.rxRing = s.rxRing

theorem Placed.congr (h : s.Placed) (hsame : s.SamePlaces s') : s'.Placed := by
  obtain ⟨hdma, hdcb, hbuf, hring⟩ := hsame
  exact ⟨by rw [hdcb, hdma]; exact h.txDcb, by rw [hbuf, hdma]; exact h.txBuf,
    by rw [hring, hdma]; exact h.rxRing, by rw [hdma]; exact h.unmapped⟩

theorem Placed.txAlloc (h : s.Placed) (pool : DmaPool) : (s.txAlloc pool).1.Placed := by
  rw [PktioState.txAlloc]
  split_ifs with hd
  · obtain ⟨htakes, hblock⟩ := dmaAlloc_takes pool s.dma (DCB_WORDS * 4) 64
    obtain ⟨htakes', hblock'⟩ :=
      dmaAlloc_takes pool (dmaAlloc pool s.dma (DCB_WORDS * 4) 64).1 TX_BUF_MAX.toNat 16
    refine ⟨fun a ha => htakes'.kept _ (hblock a ha), hblock', fun a ha => ?_, ?_⟩
    · exact htakes'.kept _ (htakes.kept _ (h.rxRing a ha))
    · exact htakes'.unmapped (htakes.unmapped h.unmapped)
  · exact h

/-- The loop over the descriptors takes blocks and clears them. -/
theorem rxFill_takes (pool : DmaPool) (s : PktioState) (l : List ℕ) :
    s.dma.Takes (rxFill pool s l).1.dma ∧ ∃ bufs, (rxFill pool s l).1.uses = s.uses ++ bufs ∧
      ∀ p ∈ bufs, ∃ a, p = some a ∧ ⟨a, RX_BUF_SIZE⟩ ∈ (rxFill pool s l).1.dma.blocks := by
  induction l generalizing s with
  | nil => exact ⟨.refl _, [], (List.append_nil _).symm, List.forall_mem_nil _⟩
  | cons i l ih =>
    rw [rxFill]
    obtain ⟨htakes, hblock⟩ := dmaAlloc_takes pool s.dma RX_BUF_SIZE 16
    generalize dmaAlloc pool s.dma RX_BUF_SIZE 16 = r at htakes hblock
    obtain ⟨d, p⟩ := r
    cases p with
    | none => exact ⟨htakes, [], (List.append_nil _).symm, List.forall_mem_nil _⟩
    | some a =>
      obtain ⟨htakes', bufs, huses, hbufs⟩ := ih { s with
        dma := d
        rxBufs := Function.update s.rxBufs i (some a)
        ring := Function.update s.ring i (rxDcb (dmaVirtToPhys32 pool a))
        uses := s.uses ++ [some a] }
      refine ⟨htakes.trans htakes', some a :: bufs, ?_, List.forall_mem_cons.mpr ⟨?_, hbufs⟩⟩
      · rw [huses, List.append_assoc, List.singleton_append]
      · exact ⟨a, rfl, htakes'.kept _ (hblock a rfl)⟩

/-- The blocks after a start has allocated what it lacked, and what it cleared then. -/
theorem Placed.rxAlloc (h : s.Placed) (hu : s.uses = []) (pool : DmaPool) :
    (s.rxAlloc pool).1.Placed ∧
      ((s.rxAlloc pool).1.uses = [] ∨ ∃ a bufs, (s.rxAlloc pool).1.uses = some a :: bufs ∧
        (s.rxAlloc pool).1.rxRing = some a ∧
        ∀ p ∈ bufs, ∃ b, p = some b ∧ ⟨b, RX_BUF_SIZE⟩ ∈ (s.rxAlloc pool).1.dma.blocks) := by
  rw [PktioState.rxAlloc]
  split_ifs with hr
  · obtain ⟨htakes, hblock⟩ := dmaAlloc_takes pool s.dma ((RX_DCBS + 1) * DCB_WORDS * 4) 64
    generalize dmaAlloc pool s.dma ((RX_DCBS + 1) * DCB_WORDS * 4) 64 = r at htakes hblock
    obtain ⟨d, p⟩ := r
    cases p with
    | none =>
      refine ⟨⟨fun a ha => htakes.kept _ (h.txDcb a ha), fun a ha => htakes.kept _ (h.txBuf a ha),
        fun a ha => htakes.kept _ (h.rxRing a ha), htakes.unmapped h.unmapped⟩, .inl hu⟩
    | some a =>
      dsimp only
      generalize hs₁ : ({ s with
        dma := d, rxRing := some a, ring := fun _ _ => 0, uses := [some a] } : PktioState) = s₁
      have hframe := rxFill_frame pool s₁ (List.range RX_DCBS)
      obtain ⟨htakes', bufs, huses, hbufs⟩ := rxFill_takes pool s₁ (List.range RX_DCBS)
      have hring : (s₁.rxFill pool (List.range RX_DCBS)).1.rxRing = some a := by
        rw [hframe.rxRing, ← hs₁]
      have hall := htakes.trans (hs₁ ▸ htakes')
      refine ⟨⟨fun b hb => ?_, fun b hb => ?_, fun b hb => ?_, hs₁ ▸ hall.unmapped h.unmapped⟩,
        .inr ⟨a, bufs, ?_, hring, hbufs⟩⟩
      · rw [hframe.txDcb, ← hs₁] at hb
        exact hs₁ ▸ hall.kept _ (h.txDcb b hb)
      · rw [hframe.txBuf, ← hs₁] at hb
        exact hs₁ ▸ hall.kept _ (h.txBuf b hb)
      · obtain rfl := Option.some.inj (hring.symm.trans hb)
        exact htakes'.kept _ (hs₁ ▸ hblock a rfl)
      · rw [huses, ← hs₁]
        rfl
  · exact ⟨h, .inl hu⟩

/-! ### The calls -/

theorem tx_same {req : TxReq} {p : TxPacket} (hcheck : txCheck req = .ok p) (desc0 ctrl : Bool) :
    (s.txAlloc pool).1.SamePlaces (s.tx pool req desc0 ctrl) := by
  rw [PktioState.tx, hcheck]
  generalize s.txAlloc pool = r
  obtain ⟨s₁, ok⟩ := r
  cases ok with
  | false => exact ⟨rfl, rfl, rfl, rfl⟩
  | true =>
    dsimp only
    split_ifs
    · exact ⟨rfl, rfl, rfl, rfl⟩
    · cases desc0 <;> cases ctrl <;> exact ⟨rfl, rfl, rfl, rfl⟩

theorem rxStart_same (hrun : s.running = false) (desc0 ctrl thread : Bool) :
    (s.rxAlloc pool).1.SamePlaces (s.rxStart pool desc0 ctrl thread) := by
  rw [PktioState.rxStart, if_neg (by simp [hrun])]
  generalize s.rxAlloc pool = r
  obtain ⟨s₁, ok⟩ := r
  cases ok with
  | false => exact ⟨rfl, rfl, rfl, rfl⟩
  | true => cases desc0 <;> cases ctrl <;> cases thread <;> exact ⟨rfl, rfl, rfl, rfl⟩

/-- What a call touches are blocks, and what it gives away are their addresses. -/
structure Serves (pool : DmaPool) (s : PktioState) (c : PktioCall) (s' : PktioState) : Prop where
  placed : s'.Placed
  accesses : ∀ r ∈ s.accesses pool c, ∃ b ∈ s'.dma.blocks, r.1 = some b.addr ∧ r.2 ≤ b.size
  given : ∀ g ∈ s.given pool c, ∃ b ∈ s'.dma.blocks, 0 < b.size ∧ g.1 = some b.addr ∧
    g.2 = dmaVirtToPhys32 pool b.addr

/-- A transmit that goes on has a descriptor and a buffer. -/
theorem Placed.txPointers (h : s.Placed) (hinv : s.Inv pool) (hok : (s.txAlloc pool).2 = true)
    (hw : s.txDcb ≠ none → s.txBuf ≠ none) :
    ∃ dcb buf, (s.txAlloc pool).1.txDcb = some dcb ∧ (s.txAlloc pool).1.txBuf = some buf ∧
      ⟨dcb, DCB_WORDS * 4⟩ ∈ (s.txAlloc pool).1.dma.blocks ∧
      ⟨buf, TX_BUF_MAX.toNat⟩ ∈ (s.txAlloc pool).1.dma.blocks := by
  obtain ⟨-, -, -, hboth⟩ := hinv.txAlloc
  obtain ⟨hdcb, hbuf⟩ := hboth hok
  obtain ⟨dcb, hdcb⟩ := Option.ne_none_iff_exists'.mp hdcb
  obtain ⟨buf, hbuf⟩ := Option.ne_none_iff_exists'.mp (hbuf.mpr hw)
  have hplaced := h.txAlloc pool
  exact ⟨dcb, buf, hdcb, hbuf, hplaced.txDcb dcb hdcb, hplaced.txBuf buf hbuf⟩

theorem Placed.tx (h : s.Placed) (hinv : s.Inv pool) {req : TxReq} {desc0 ctrl : Bool}
    (hw : s.FindsWhole (.tx req desc0 ctrl)) :
    s.Serves pool (.tx req desc0 ctrl) (s.tx pool req desc0 ctrl) := by
  cases hcheck : txCheck req with
  | error e =>
    have hplaced : (s.tx pool req desc0 ctrl).Placed := by
      rw [PktioState.tx, hcheck]
      exact h.congr ⟨rfl, rfl, rfl, rfl⟩
    refine ⟨hplaced, ?_, ?_⟩
    · simp [PktioState.accesses, hcheck]
    · simp [PktioState.given, hcheck]
  | ok p =>
    have hsame : (s.txAlloc pool).1.SamePlaces (s.tx pool req desc0 ctrl) :=
      tx_same hcheck desc0 ctrl
    have hplaced := (h.txAlloc pool).congr hsame
    have hpointers := fun hok => h.txPointers hinv hok (hw (by rw [hcheck]; rfl))
    generalize halloc : s.txAlloc pool = r at hpointers hsame
    obtain ⟨s₁, ok⟩ := r
    dsimp only at hpointers hsame
    cases ok with
    | false =>
      refine ⟨hplaced, ?_, ?_⟩
      · simp [PktioState.accesses, hcheck, halloc]
      · simp [PktioState.given, hcheck, halloc]
    | true =>
      obtain ⟨dcb, buf, hdcb, hbuf, hdcbMem, hbufMem⟩ := hpointers rfl
      have haccesses : s.accesses pool (.tx req desc0 ctrl) =
          [(some buf, p.len), (some dcb, DCB_WORDS * 4)] := by
        simp [PktioState.accesses, hcheck, halloc, hbuf, hdcb]
      have hgiven : ∀ g ∈ s.given pool (.tx req desc0 ctrl),
          g = (some dcb, dmaVirtToPhys32 pool dcb) ∨ g = (some buf, dmaVirtToPhys32 pool buf) := by
        simp [PktioState.given, hcheck, halloc, hbuf, hdcb]
      rw [← hsame.dma] at hdcbMem hbufMem
      refine ⟨hplaced, fun x hx => ?_, fun g hg => ?_⟩
      · rw [haccesses, List.mem_pair] at hx
        rcases hx with rfl | rfl
        · exact ⟨_, hbufMem, rfl, p.len_le⟩
        · exact ⟨_, hdcbMem, rfl, le_rfl⟩
      · rcases hgiven g hg with rfl | rfl
        · exact ⟨_, hdcbMem, show 0 < DCB_WORDS * 4 by decide, rfl, rfl⟩
        · exact ⟨_, hbufMem, show 0 < TX_BUF_MAX.toNat by decide, rfl, rfl⟩

theorem Placed.rxStart (h : s.Placed) (hinv : s.Inv pool) (hu : s.uses = [])
    {desc0 ctrl thread : Bool} (hw : s.FindsWhole (.rxStart desc0 ctrl thread)) :
    s.Serves pool (.rxStart desc0 ctrl thread) (s.rxStart pool desc0 ctrl thread) := by
  by_cases hrun : s.running = true
  · have hplaced : (s.rxStart pool desc0 ctrl thread).Placed := by
      rw [PktioState.rxStart, if_pos hrun]
      exact h.congr ⟨rfl, rfl, rfl, rfl⟩
    refine ⟨hplaced, ?_, ?_⟩
    · simp [PktioState.accesses, hrun]
    · simp [PktioState.given, hrun]
  · have hidle : s.running = false := by simpa using hrun
    have hsame : (s.rxAlloc pool).1.SamePlaces (s.rxStart pool desc0 ctrl thread) :=
      rxStart_same hidle desc0 ctrl thread
    obtain ⟨hinv₁, -, -, -, hdone⟩ := hinv.rxAlloc hu hidle
    obtain ⟨hplaced, huses⟩ := h.rxAlloc hu pool
    generalize halloc : s.rxAlloc pool = r at hinv₁ hdone hplaced huses hsame
    obtain ⟨s₁, ok⟩ := r
    dsimp only at hinv₁ hdone hplaced huses hsame
    refine ⟨hplaced.congr hsame, fun x hx => ?_, fun g hg => ?_⟩
    · rw [hsame.dma]
      rw [PktioState.accesses, if_neg hrun, halloc] at hx
      rcases huses with hnil | ⟨a, bufs, huses, hring, hbufs⟩
      · simp [hnil, cleared] at hx
      · simp only [huses, cleared, List.mem_cons, List.mem_map] at hx
        rcases hx with rfl | ⟨p, hp, rfl⟩
        · exact ⟨_, hplaced.rxRing a hring, rfl, le_rfl⟩
        · obtain ⟨b, rfl, hb⟩ := hbufs p hp
          exact ⟨_, hb, rfl, le_rfl⟩
    · rw [hsame.dma]
      rw [PktioState.given, if_neg hrun, halloc] at hg
      cases ok with
      | false => cases hg
      | true =>
        cases desc0 with
        | false => cases hg
        | true =>
          obtain ⟨hring, hbufs⟩ := hdone rfl
          obtain ⟨a, hring⟩ := Option.ne_none_iff_exists'.mp hring
          have harmed := hinv₁.armed (hbufs.mpr (hw hidle rfl))
          simp only [if_true, List.mem_cons, List.mem_map, List.mem_range] at hg
          rcases hg with rfl | ⟨i, hi, rfl⟩
          · exact ⟨_, hplaced.rxRing a hring, show 0 < (RX_DCBS + 1) * DCB_WORDS * 4 by decide,
              hring, by simp [hring]⟩
          · obtain ⟨b, hb, hmem, -, hphys⟩ := harmed.buffer i hi
            exact ⟨_, hmem, show 0 < RX_BUF_SIZE by decide, hb, hphys⟩

theorem step_of_alive (pool : DmaPool) (hu : s.uses = []) (hret : s.ret = none)
    (halive : s.crashed = false) :
    (∀ req desc0 ctrl, s.step pool (.tx req desc0 ctrl) = s.tx pool req desc0 ctrl) ∧
      (∀ desc0 ctrl thread,
        s.step pool (.rxStart desc0 ctrl thread) = s.rxStart pool desc0 ctrl thread) ∧
      s.step pool .rxStop = { s with running := false, ret := some (.ok ()) } := by
  have hsame : { s with ret := none, uses := [] } = s := by rw [← hu, ← hret]
  have hcrash : ¬ s.crashed = true := by simp [halive]
  unfold PktioState.step
  rw [hsame]
  exact ⟨fun _ _ _ => if_neg hcrash, fun _ _ _ => if_neg hcrash, if_neg hcrash⟩

theorem cleared_map_fst (l : List (Option ℕ)) : (cleared l).map Prod.fst = l := by
  cases l <;> simp [cleared, Function.comp_def]

/-- The pointers a call uses are those of what it touches and of what it gives away. -/
theorem step_uses (hu : s.uses = []) (hret : s.ret = none) (halive : s.crashed = false)
    (c : PktioCall) : (s.step pool c).uses =
      (s.accesses pool c).map Prod.fst ++ (s.given pool c).map Prod.fst := by
  obtain ⟨htx, hrxStart, hrxStop⟩ := step_of_alive pool hu hret halive
  cases c with
  | tx req desc0 ctrl =>
    simp only [htx, PktioState.tx, PktioState.accesses, PktioState.given]
    cases txCheck req with
    | error e => exact hu
    | ok p =>
      have huses : (s.txAlloc pool).1.uses = [] := by
        rw [PktioState.txAlloc]
        split_ifs <;> exact hu
      generalize s.txAlloc pool = r at huses
      obtain ⟨s₁, ok⟩ := r
      cases ok with
      | false => exact huses
      | true =>
        dsimp only
        by_cases hb : s₁.txBuf = none
        · simp [hb]
        · cases desc0 <;> cases ctrl <;> simp [hb, cmicDmaStart]
  | rxStart desc0 ctrl thread =>
    simp only [hrxStart, PktioState.rxStart, PktioState.accesses, PktioState.given]
    by_cases hrun : s.running = true
    · simp [hrun, hu]
    · simp only [if_neg hrun]
      generalize s.rxAlloc pool = r
      obtain ⟨s₁, ok⟩ := r
      cases ok with
      | false => simp [cleared_map_fst]
      | true =>
        cases desc0 <;> cases ctrl <;> cases thread <;>
          simp [cmicDmaStart, Function.comp_def, cleared_map_fst]
  | rxStop =>
    rw [hrxStop]
    exact hu

/-- One call, from a state that records no uses yet. -/
theorem Placed.step (h : s.Placed) (hinv : s.Inv pool) (hu : s.uses = []) (hret : s.ret = none)
    {c : PktioCall} (hw : s.FindsWhole c) : s.Serves pool c (s.step pool c) := by
  obtain ⟨htx, hrxStart, hrxStop⟩ := step_of_alive pool hu hret hinv.alive
  cases c with
  | tx req desc0 ctrl =>
    rw [htx]
    exact h.tx hinv hw
  | rxStart desc0 ctrl thread =>
    rw [hrxStart]
    exact h.rxStart hinv hu hw
  | rxStop =>
    rw [hrxStop]
    exact ⟨h.congr ⟨rfl, rfl, rfl, rfl⟩, List.forall_mem_nil _, List.forall_mem_nil _⟩

/-- A call touches nothing unless it gets that far. -/
theorem touches_of_mem (hu : s.uses = []) {c : PktioCall}
    (hmem : (∃ r, r ∈ s.accesses pool c) ∨ ∃ g, g ∈ s.given pool c) : s.Touches pool c := by
  cases c with
  | tx req desc0 ctrl =>
    rw [Touches]
    simp only [PktioState.accesses, PktioState.given] at hmem
    cases hcheck : txCheck req with
    | error e => simp [hcheck] at hmem
    | ok p =>
      refine ⟨rfl, ?_⟩
      generalize s.txAlloc pool = r at hmem
      obtain ⟨s₁, ok⟩ := r
      cases ok with
      | false => simp [hcheck] at hmem
      | true => rfl
  | rxStart desc0 ctrl thread =>
    by_cases hrun : s.running = true
    · simp [PktioState.accesses, PktioState.given, hrun] at hmem
    · refine ⟨by simpa using hrun, ?_⟩
      simp only [PktioState.accesses, PktioState.given, if_neg hrun, PktioState.rxAlloc] at hmem
      split_ifs with hring
      · intro hnone
        rw [if_pos hring] at hmem
        generalize dmaAlloc pool s.dma ((RX_DCBS + 1) * DCB_WORDS * 4) 64 = r at hmem hnone
        obtain ⟨d, p⟩ := r
        obtain rfl : p = none := hnone
        simp [hu, cleared] at hmem
      · rw [if_neg hring] at hmem
        by_contra hd
        simp [hu, hd, cleared] at hmem
  | rxStop => simp [PktioState.accesses, PktioState.given] at hmem

end PktioState

/-! ### Attaching and detaching -/

variable {info : DmaInfo} {y : AttachState}

/-- The state of `pktio.c` is one of those its own calls lead to, at the base it has
kept. -/
structure AttachState.Sound (info : DmaInfo) (y : AttachState) : Prop where
  inv : y.pktio.Inv ⟨y.vbase, info.pbase, info.size⟩
  placed : y.pktio.Placed

/-- Before anything is taken the base plays no part. -/
theorem PktioState.Inv.rebase {pool' : DmaPool} (h : s.Inv pool) (hsize : pool'.size = pool.size)
    (hempty : s.dma.blocks = []) : s.Inv pool' := by
  obtain ⟨⟨k, hk, hfilled, hnone, hall⟩, halive⟩ := h
  have hzero : k = 0 := by
    by_contra hne
    obtain ⟨a, -, hmem, -⟩ := hfilled.buffer 0 (Nat.pos_of_ne_zero hne)
    rw [hempty] at hmem
    cases hmem
  subst hzero
  refine ⟨⟨0, hk, ⟨⟨?_, hsize ▸ hfilled.dma.size_le, ?_⟩, ?_, hfilled.above, hfilled.rest⟩, hnone,
    hall⟩, halive⟩
  · rw [hempty]
    exact laid_nil _ _
  · rw [hempty]
    exact List.forall_mem_nil _
  · exact fun i hi => absurd hi (Nat.not_lt_zero i)

namespace AttachState

/-- `pktio.c` enters a call at a base that fits what it has taken. -/
theorem Sound.entered (h : y.Sound info) (e : BdeAnswers) :
    (y.entered info e).Inv (y.pool info e) ∧ (y.entered info e).Placed := by
  have hinv : y.pktio.Inv (y.pool info e) := by
    by_cases hm : y.pktio.dma.mapped = true
    · have hpool : y.pool info e = ⟨y.vbase, info.pbase, info.size⟩ := by
        rw [AttachState.pool, if_pos hm]
      rw [hpool]
      exact h.inv
    · exact h.inv.rebase rfl (h.placed.unmapped (by simpa using hm))
  refine ⟨?_, h.placed.txDcb, h.placed.txBuf, h.placed.rxRing, h.placed.unmapped⟩
  obtain ⟨⟨k, hk, hfilled, hnone, hall⟩, halive⟩ := hinv
  refine ⟨⟨k, hk, hfilled.grow rfl rfl ?_ ⟨fun _ hb => hb, le_rfl⟩, hnone, hall⟩, halive⟩
  exact ⟨hfilled.dma.laid, hfilled.dma.size_le, hfilled.dma.inside⟩

/-- After a call that takes or has taken a block, the mapping that is live is at the
base `pktio.c` has kept, if it was so before. -/
theorem dmaBase_io {e : BdeAnswers} {c : PktioCall} {b : Block}
    (hplaced : (y.io info e c).pktio.Placed) (hb : b ∈ (y.io info e c).pktio.dma.blocks)
    (hkept : y.pktio.dma.mapped = true → y.bde.dmaBase = some y.vbase) :
    (y.io info e c).bde.dmaBase = some (y.pool info e).vbase := by
  have hmapped : (y.io info e c).pktio.dma.mapped = true := by
    by_contra hne
    rw [hplaced.unmapped (by simpa using hne)] at hb
    cases hb
  by_cases hm : y.pktio.dma.mapped = true
  · have hvbase : (y.pool info e).vbase = y.vbase := if_pos hm
    rw [AttachState.io, if_neg (by simp [hm]), hvbase]
    exact hkept hm
  · rw [AttachState.io, if_pos ⟨by simpa using hm, hmapped⟩]

/-- A call that finds the mapping belongs to it. -/
theorem Sound.io (h : y.Sound info) {e : BdeAnswers} {c : PktioCall}
    (hf : FindsMapping info y (.io e c)) :
    (y.io info e c).Sound info ∧ Contained info y (.io e c) := by
  obtain ⟨hinv, hplaced⟩ := h.entered e
  obtain ⟨hwhole, hkept⟩ := hf
  have hserves := hplaced.step hinv rfl rfl hwhole
  have hinv' := (hinv.step (y.gated c)).2 hwhole
  obtain ⟨k, -, hfilled, -⟩ := hinv'.filled
  have hlive {b : Block} (hb : b ∈ (y.io info e c).pktio.dma.blocks)
      (ht : (y.entered info e).Touches (y.pool info e) (y.gated c)) :
      (y.io info e c).bde.dmaBase = some (y.pool info e).vbase ∧
        (y.pool info e).vbase ≤ b.addr ∧
        b.addr + b.size ≤ (y.pool info e).vbase + info.size.toNat :=
    ⟨dmaBase_io hserves.placed hb (hkept ht), (hfilled.dma.laid.within b hb).1,
      hfilled.dma.inside b hb⟩
  have haccesses : ∀ r ∈ (y.entered info e).accesses (y.pool info e) (y.gated c),
      (y.io info e c).bde.Maps info r := by
    intro r hr
    obtain ⟨b, hb, haddr, hsize⟩ := hserves.accesses r hr
    obtain ⟨hbase, hlo, hhi⟩ := hlive hb (PktioState.touches_of_mem rfl (.inl ⟨r, hr⟩))
    exact ⟨_, _, hbase, haddr, hlo, by omega⟩
  have hgiven : ∀ g ∈ (y.entered info e).given (y.pool info e) (y.gated c),
      (y.io info e c).bde.Translates info g := by
    intro g hg
    obtain ⟨b, hb, hpos, haddr, hphys⟩ := hserves.given g hg
    obtain ⟨hbase, hlo, hhi⟩ := hlive hb (PktioState.touches_of_mem rfl (.inr ⟨g, hg⟩))
    exact ⟨_, _, hbase, haddr, hlo, by omega, hphys⟩
  refine ⟨⟨hinv', hserves.placed⟩, haccesses, hgiven, fun p hp => ?_⟩
  have huses : (y.io info e c).pktio.uses = _ :=
    PktioState.step_uses rfl rfl hinv.alive (y.gated c)
  rw [huses] at hp
  rcases List.mem_append.mp hp with hp | hp
  · obtain ⟨r, hr, rfl⟩ := List.mem_map.mp hp
    obtain ⟨base, a, hbase, haddr, hlo, hhi⟩ := haccesses r hr
    exact ⟨base, a, hbase, haddr, hlo, by omega⟩
  · obtain ⟨g, hg, rfl⟩ := List.mem_map.mp hp
    obtain ⟨base, a, hbase, haddr, hlo, hhi, -⟩ := hgiven g hg
    exact ⟨base, a, hbase, haddr, hlo, by omega⟩

theorem attach_frame (info : DmaInfo) (y : AttachState) (e : BdeAnswers) :
    (y.attach info e).1.pktio = y.pktio ∧ (y.attach info e).1.vbase = y.vbase := by
  unfold AttachState.attach
  split_ifs
  · exact ⟨rfl, rfl⟩
  · generalize bdeOpen y.bde e = r
    obtain ⟨b, opened⟩ := r
    cases opened with
    | false => exact ⟨rfl, rfl⟩
    | true =>
      dsimp only
      generalize bdeMmapDma info b e 0 = r
      obtain ⟨b', base⟩ := r
      cases base <;> exact ⟨rfl, rfl⟩

theorem Sound.step (h : y.Sound info) {c : AttachCall} (hf : FindsMapping info y c) :
    (y.step info c).Sound info ∧ Contained info y c := by
  cases c with
  | attach e =>
    obtain ⟨hpktio, hvbase⟩ := attach_frame info y e
    refine ⟨⟨?_, ?_⟩, trivial⟩
    · rw [AttachState.step, hpktio, hvbase]
      exact h.inv
    · rw [AttachState.step, hpktio]
      exact h.placed
  | detach => exact ⟨⟨h.inv, h.placed⟩, trivial⟩
  | io e c => exact h.io hf

theorem sound_start (info : DmaInfo) (ring : ℕ → Words) : (start ring).Sound info := by
  refine ⟨PktioState.inv_start _ ring _ _, ?_, ?_, ?_, fun _ => rfl⟩ <;>
    exact fun a ha => by cases ha

end AttachState

/-- In a run in which every call finds the mapping its pointers belong to, whatever the
calls touch and give to the device belongs to the mapping that is live. -/
theorem contained_of_findsMapping (info : DmaInfo) (ring : ℕ → Words) (calls : List AttachCall)
    (h : EachStep (AttachState.step info) (FindsMapping info) (.start ring) calls) :
    EachStep (AttachState.step info) (Contained info) (.start ring) calls :=
  EachStep.of_keep (fun _ _ hs hf => (hs.step hf).1) (fun _ _ hs hf => (hs.step hf).2)
    (AttachState.sound_start info ring) h

/-! ### A pool mapped twice -/

/-- Nothing fails, and a mapping goes to the given place. -/
def mapsAt (addr : ℕ) (h : 0 < addr) : BdeAnswers where
  opens := true
  addr := addr
  addr_pos := h
  mapFault _ := false
  infoFault := false

/-- Attach and detach between two transmits, with the pool mapped at `0x10000` first. -/
def remapCalls (e : BdeAnswers) : List AttachCall :=
  [.attach (mapsAt 0x10000 (by decide)),
    .io (mapsAt 0x10000 (by decide)) (.tx ⟨1, some fun _ => 0, 64⟩ true true),
    .detach, .attach e, .io e (.tx ⟨1, some fun _ => 0, 64⟩ true true)]

/-- The same place again. -/
theorem contained_remapCalls : EachStep (AttachState.step ⟨0x3000000, 0x10000⟩)
    (Contained ⟨0x3000000, 0x10000⟩) (.start fun _ _ => 0)
    (remapCalls (mapsAt 0x10000 (by decide))) :=
  contained_of_findsMapping _ _ _
    ⟨trivial, ⟨fun _ h => absurd rfl h, fun _ h => by cases h⟩, trivial, trivial,
      ⟨fun _ _ => by decide, fun _ _ => by decide⟩, trivial⟩

/-- Mapped at `0x80000` after the detach, the pool is still addressed at `0x10000`. -/
theorem not_contained : ¬ ∀ (info : DmaInfo) (ring : ℕ → Words) (calls : List AttachCall),
    EachStep (AttachState.step info) (Contained info) (.start ring) calls := by
  intro h
  have hcalls := h ⟨0x3000000, 0x10000⟩ (fun _ _ => 0) (remapCalls (mapsAt 0x80000 (by decide)))
  obtain ⟨base, a, hbase, ha, hlo, -⟩ := hcalls.2.2.2.2.1.1 (some 0x11040, 64) (by decide)
  obtain rfl : 0x80000 = base := Option.some.inj hbase
  obtain rfl : 0x11040 = a := Option.some.inj ha
  exact absurd hlo (by decide)

end OpenNos.Sdk
