import OpenNos.Lib.Bits
import OpenNos.Lib.History
import OpenNos.Lib.RingScan

/-! The receive side of `pktio.c`. The device completes the descriptors of a ring
in cyclic order and `rx_thread_main` goes over the whole ring again and again,
handing every descriptor it finds done to the registered callback. The thread
keeps no place in the order of completions, so the frames come in order only as
long as the device does not catch up with the scan from behind. -/

namespace OpenNos.Sdk

open Bits History RingScan

def RX_DCBS : ℕ := 64

def RX_BUF_SIZE : ℕ := 2048

/-- A descriptor and the buffer it points to. -/
structure RxSlot where
  dcb : Words
  buf : ℕ → BitVec 8

def RxSlot.done (r : RxSlot) : Bool := r.dcb 15 &&& 0x80000000 != 0

def RxSlot.len (r : RxSlot) : ℕ := (r.dcb 15 &&& 0x7fff).toNat

def RxSlot.port (r : RxSlot) : ℕ := (r.dcb 4 &&& 0xff).toNat

/-- A call of the registered callback. -/
structure RxCall where
  port : ℕ
  pkt : List (BitVec 8)
  deriving DecidableEq

/-- The frame the device has put into a slot. -/
def RxSlot.frame (r : RxSlot) : RxCall := ⟨r.port, (List.range r.len).map r.buf⟩

/-- What the device writes to complete a descriptor. -/
structure RxCompletion where
  slot : RxSlot
  done : slot.done = true
  len : 0 < slot.len ∧ slot.len ≤ RX_BUF_SIZE

/-- What `rx_thread_main` does next. -/
inductive RxPc
  | check
  | look (i : ℕ)
  | port (i : ℕ) (st : BitVec 32)
  | call (i len port : ℕ)
  | rearm (i : ℕ)
  | stopped
  deriving DecidableEq

/-- The ring, the thread and the device, with the frames completed and the calls
made so far. -/
structure RxState where
  ring : ℕ → RxSlot
  pc : RxPc
  /-- the descriptor the device completes next -/
  head : ℕ
  completed : List RxCall
  called : List RxCall

inductive RxAct
  /-- one step of the thread, with the value of `rx_running` -/
  | thread (running : Bool)
  /-- the device writes into a slot -/
  | fill (i : ℕ) (slot : RxSlot)
  | complete (c : RxCompletion)

def rxNext (i : ℕ) : RxPc := if i + 1 < RX_DCBS then .look (i + 1) else .check

def RxState.thread (s : RxState) (running : Bool) : RxState :=
  match s.pc with
  | .check => { s with pc := if running then .look 0 else .stopped }
  | .look i =>
    let st := (s.ring i).dcb 15
    if st &&& 0x80000000 != 0 then { s with pc := .port i st } else { s with pc := rxNext i }
  | .port i st =>
    let len := (st &&& 0x7fff).toNat
    { s with pc := .call i len ((s.ring i).dcb 4 &&& 0xff).toNat }
  | .call i len port =>
    let pkt := (List.range len).map (s.ring i).buf
    let called := if 0 < len ∧ len ≤ RX_BUF_SIZE then s.called ++ [⟨port, pkt⟩] else s.called
    { s with called := called, pc := .rearm i }
  | .rearm i =>
    let slot := { s.ring i with dcb := Function.update (s.ring i).dcb 15 0 }
    { s with ring := Function.update s.ring i slot, pc := rxNext i }
  | .stopped => s

/-- The device touches a slot only while its done bit is clear. -/
def RxState.step (s : RxState) : RxAct → RxState
  | .thread running => s.thread running
  | .fill i slot =>
    if (s.ring i).done || slot.done then s
    else { s with ring := Function.update s.ring i slot }
  | .complete c =>
    if (s.ring s.head).done then s
    else
      { s with
        ring := Function.update s.ring s.head c.slot
        head := (s.head + 1) % RX_DCBS
        completed := s.completed ++ [c.slot.frame] }

/-- The ring as `bcm56846_rx_start` sets it up, the buffers at these addresses. -/
def RxState.start (phys : ℕ → BitVec 32) : RxState where
  ring i :=
    { dcb := fun k => if k = 0 then phys i else if k = 1 then 0x00180000 ||| 2048 else 0
      buf := fun _ => 0 }
  pc := .check
  head := 0
  completed := []
  called := []

/-- The slot the scan comes to next. -/
def RxPc.pos : RxPc → ℕ
  | .look i | .port i _ | .call i _ _ => i
  | .rearm i => (i + 1) % RX_DCBS
  | .check | .stopped => 0

/-- The frames that wait for their call, around the ring. -/
def RxState.view (s : RxState) : SlotRing RxCall where
  slot i := if (s.ring i).done ∧ s.pc ≠ .rearm i then some (s.ring i).frame else none
  head := s.head
  pos := s.pc.pos
  put := s.completed
  taken := s.called

/-- Every completed frame has had its one call or waits for it, and the calls came
in the order of the completions. -/
def RxState.InOrder (s : RxState) : Prop := s.view.InOrder RX_DCBS

/-- The device does not complete the slot the scan comes to next while an earlier
frame waits in another. -/
def RxState.StaysBehind (s : RxState) : RxAct → Prop
  | .complete _ => s.pc ≠ .stopped → ¬ s.view.CatchesUp RX_DCBS
  | _ => True

variable {s : RxState}

/-- What the thread has read of the slot in hand is still there. -/
def RxPc.InHand (ring : ℕ → RxSlot) : RxPc → Prop
  | .look i => i < RX_DCBS
  | .port i st => i < RX_DCBS ∧ (ring i).done ∧ st = (ring i).dcb 15
  | .call i len p => i < RX_DCBS ∧ (ring i).done ∧ len = (ring i).len ∧ p = (ring i).port
  | .rearm i => i < RX_DCBS ∧ (ring i).done
  | .check | .stopped => True

structure RxState.Inv (s : RxState) : Prop where
  inHand : s.pc.InHand s.ring
  len : ∀ i, (s.ring i).done → 0 < (s.ring i).len ∧ (s.ring i).len ≤ RX_BUF_SIZE
  window : s.view.Window RX_DCBS
  ahead : s.pc ≠ .stopped → s.view.Ahead RX_DCBS

theorem rx_dcbs_pos : 0 < RX_DCBS := by decide

theorem view_slot_of_done {i : ℕ} (hd : (s.ring i).done = true) (hp : s.pc ≠ .rearm i) :
    s.view.slot i = some (s.ring i).frame := if_pos ⟨hd, hp⟩

theorem view_slot_of_not_done {i : ℕ} (hd : (s.ring i).done = false) : s.view.slot i = none :=
  if_neg fun h => by simp [hd] at h

theorem rxNext_pos {i : ℕ} (hi : i < RX_DCBS) : (rxNext i).pos = (i + 1) % RX_DCBS := by
  unfold rxNext
  split_ifs with h
  · exact (Nat.mod_eq_of_lt h).symm
  · rw [show i + 1 = RX_DCBS by omega, Nat.mod_self]
    rfl

theorem rxNext_ne_rearm (i j : ℕ) : rxNext i ≠ .rearm j := by
  unfold rxNext
  split_ifs <;> exact RxPc.noConfusion

/-- After a slot the scan is at the next one or has come round. -/
theorem inHand_rxNext (ring : ℕ → RxSlot) (i : ℕ) : (rxNext i).InHand ring := by
  unfold rxNext
  split_ifs with h
  · exact h
  · trivial

/-! ### The steps of the thread -/

theorem thread_check (hpc : s.pc = .check) (running : Bool) :
    s.thread running = { s with pc := if running then .look 0 else .stopped } := by
  rw [RxState.thread, hpc]

theorem thread_look_of_done {i : ℕ} (hpc : s.pc = .look i) (hd : (s.ring i).done = true)
    (running : Bool) : s.thread running = { s with pc := .port i ((s.ring i).dcb 15) } := by
  rw [RxState.thread, hpc]
  exact if_pos hd

theorem thread_look_of_not_done {i : ℕ} (hpc : s.pc = .look i) (hd : (s.ring i).done = false)
    (running : Bool) : s.thread running = { s with pc := rxNext i } := by
  rw [RxState.thread, hpc]
  exact if_neg (ne_true_of_eq_false hd)

theorem thread_port {i : ℕ} (hpc : s.pc = .port i ((s.ring i).dcb 15)) (running : Bool) :
    s.thread running = { s with pc := .call i (s.ring i).len (s.ring i).port } := by
  rw [RxState.thread, hpc]
  rfl

/-- The callback gets the frame in hand. -/
theorem thread_call {i : ℕ} (hpc : s.pc = .call i (s.ring i).len (s.ring i).port)
    (hlen : 0 < (s.ring i).len ∧ (s.ring i).len ≤ RX_BUF_SIZE) (running : Bool) :
    s.thread running =
      { s with called := s.called ++ [(s.ring i).frame], pc := .rearm i } := by
  simp only [RxState.thread, hpc, if_pos hlen]
  rfl

/-- The slot with its done word cleared. -/
def RxSlot.rearmed (r : RxSlot) : RxSlot := { r with dcb := Function.update r.dcb 15 0 }

theorem thread_rearm {i : ℕ} (hpc : s.pc = .rearm i) (running : Bool) :
    s.thread running =
      { s with ring := Function.update s.ring i (s.ring i).rearmed, pc := rxNext i } := by
  rw [RxState.thread, hpc]
  rfl

theorem rearmed_done (r : RxSlot) : r.rearmed.done = false := by
  simp [RxSlot.rearmed, RxSlot.done]

/-! ### The steps, as the ring sees them -/

/-- The view does not change when the thread moves on within a slot. -/
theorem view_of_pc {pc : RxPc} (hpos : pc.pos = s.pc.pos)
    (hre : ∀ i, pc ≠ .rearm i) (hre' : ∀ i, s.pc ≠ .rearm i) :
    ({ s with pc := pc } : RxState).view = s.view := by
  simp only [RxState.view, hpos, hre, hre', ne_eq, not_false_eq_true, and_true]

/-- A look at a slot that is not done passes over it. -/
theorem view_of_skip {i : ℕ} (hpc : s.pc = .look i) (hi : i < RX_DCBS)
    (hd : (s.ring i).done = false) :
    ({ s with pc := rxNext i } : RxState).view = s.view.scan RX_DCBS := by
  have hpos : s.view.pos = i := by rw [RxState.view, hpc]; rfl
  have hslot : s.view.slot s.view.pos = none := by
    rw [hpos]
    exact view_slot_of_not_done hd
  rw [SlotRing.scan_of_none hslot]
  ext1
  · funext j
    simp only [RxState.view, hpc, ne_eq, rxNext_ne_rearm, not_false_eq_true, and_true,
      reduceCtorEq]
  · rfl
  · rw [hpos]
    exact rxNext_pos hi
  · rfl
  · rfl

/-- The call: the frame in hand is taken. -/
theorem view_of_call {i len port : ℕ} (hpc : s.pc = .call i len port)
    (hd : (s.ring i).done = true) :
    ({ s with called := s.called ++ [(s.ring i).frame], pc := .rearm i } : RxState).view =
      s.view.scan RX_DCBS := by
  have hpos : s.view.pos = i := by rw [RxState.view, hpc]; rfl
  have hslot : s.view.slot s.view.pos = some (s.ring i).frame := by
    rw [hpos]
    exact view_slot_of_done hd (by rw [hpc]; exact RxPc.noConfusion)
  rw [SlotRing.scan_of_some hslot, hpos]
  ext1
  · funext j
    dsimp only
    by_cases hj : j = i
    · rw [hj, Function.update_self]
      exact if_neg fun hc => hc.2 rfl
    · rw [Function.update_of_ne hj]
      simp [hpc, RxState.view, Ne.symm hj]
  all_goals rfl

/-- The slot given back is no longer done, and was taken before. -/
theorem view_of_rearm {i : ℕ} (hpc : s.pc = .rearm i) (hi : i < RX_DCBS) :
    ({ s with ring := Function.update s.ring i (s.ring i).rearmed, pc := rxNext i } :
      RxState).view = s.view := by
  ext1
  · funext j
    by_cases hj : j = i
    · have hold : s.view.slot j = none := if_neg fun hc => hc.2 (by rw [hpc, hj])
      rw [hold]
      refine view_slot_of_not_done ?_
      dsimp only
      rw [hj, Function.update_self, rearmed_done]
    · simp [RxState.view, hpc, Function.update_of_ne hj, rxNext_ne_rearm, Ne.symm hj]
  · rfl
  · rw [RxState.view, RxState.view, hpc]
    exact rxNext_pos hi
  · rfl
  · rfl

/-- The device writes into a slot that is not done. -/
theorem view_of_fill {i : ℕ} {slot : RxSlot} (hd : (s.ring i).done = false)
    (hd' : slot.done = false) :
    ({ s with ring := Function.update s.ring i slot } : RxState).view = s.view := by
  ext1
  · funext j
    by_cases hj : j = i
    · rw [hj, view_slot_of_not_done hd]
      refine view_slot_of_not_done ?_
      dsimp only
      rw [Function.update_self, hd']
    · simp [RxState.view, Function.update_of_ne hj]
  all_goals rfl

/-- The device completes the slot at its head. -/
theorem view_of_complete (c : RxCompletion) (hd : (s.ring s.head).done = false)
    (hre : s.pc ≠ .rearm s.head) :
    ({ s with
        ring := Function.update s.ring s.head c.slot
        head := (s.head + 1) % RX_DCBS
        completed := s.completed ++ [c.slot.frame] } : RxState).view =
      s.view.fill RX_DCBS c.slot.frame := by
  have hhead : s.view.head = s.head := rfl
  have hslot : s.view.slot s.view.head = none := view_slot_of_not_done hd
  rw [SlotRing.fill_of_none hslot, hhead]
  ext1
  · funext j
    dsimp only
    by_cases hj : j = s.head
    · rw [hj, Function.update_self]
      simp [RxState.view, c.done, hre]
    · rw [Function.update_of_ne hj]
      simp [RxState.view, Function.update_of_ne hj]
  all_goals rfl

/-- The slot in hand is done, so a write of the device misses it. -/
theorem RxPc.InHand.update {pc : RxPc} {ring : ℕ → RxSlot} (h : pc.InHand ring) {i : ℕ}
    (hd : (ring i).done = false) (slot : RxSlot) :
    pc.InHand (Function.update ring i slot) := by
  have hne {j : ℕ} (hj : (ring j).done) : Function.update ring i slot j = ring j := by
    refine Function.update_of_ne ?_ _ _
    rintro rfl
    rw [hd] at hj
    cases hj
  cases pc with
  | check => trivial
  | look j => exact h
  | port j st =>
    obtain ⟨hj, hdone, hst⟩ := h
    exact ⟨hj, by rw [hne hdone]; exact hdone, by rw [hne hdone]; exact hst⟩
  | call j len p =>
    obtain ⟨hj, hdone, hrest⟩ := h
    exact ⟨hj, by rw [hne hdone]; exact hdone, by rw [hne hdone]; exact hrest⟩
  | rearm j =>
    obtain ⟨hj, hdone⟩ := h
    exact ⟨hj, by rw [hne hdone]; exact hdone⟩
  | stopped => trivial

namespace RxState.Inv

theorem hand (h : s.Inv) {pc : RxPc} (hpc : s.pc = pc) : pc.InHand s.ring := by
  rw [← hpc]
  exact h.inHand

/-- A step that the ring does not see. -/
theorem of_view {s' : RxState} (h : s.Inv) (hv : s'.view = s.view)
    (hhand : s'.pc.InHand s'.ring) (hring : ∀ i, (s'.ring i).done → s'.ring i = s.ring i)
    (hrun : s.pc = .stopped → s'.pc = .stopped) : s'.Inv where
  inHand := hhand
  len i hd := by
    have hd' := hd
    rw [hring i hd] at hd' ⊢
    exact h.len i hd'
  window := by
    rw [hv]
    exact h.window
  ahead hp := by
    rw [hv]
    exact h.ahead fun hs => hp (hrun hs)

/-- A step that scans the slot in hand. -/
theorem of_scan {s' : RxState} (h : s.Inv) (hv : s'.view = s.view.scan RX_DCBS)
    (hhand : s'.pc.InHand s'.ring) (hring : s'.ring = s.ring) (hrun : s.pc ≠ .stopped) :
    s'.Inv where
  inHand := hhand
  len i hd := by
    rw [hring] at hd ⊢
    exact h.len i hd
  window := by
    rw [hv]
    exact h.window.scan rx_dcbs_pos (h.ahead hrun)
  ahead _ := by
    rw [hv]
    exact (h.ahead hrun).scan h.window rx_dcbs_pos

/-- The thread gives the ring a scan, or does nothing the ring sees. -/
theorem thread (h : s.Inv) (running : Bool) : (s.thread running).Inv := by
  have hhand := h.inHand
  cases hpc : s.pc with
  | check =>
    rw [thread_check hpc]
    refine h.of_view (view_of_pc ?_ ?_ ?_) ?_ (fun _ _ => rfl) ?_
    all_goals cases running <;> simp [hpc, RxPc.pos, RxPc.InHand, RX_DCBS]
  | look i =>
    have hi : i < RX_DCBS := h.hand hpc
    cases hd : (s.ring i).done with
    | true =>
      rw [thread_look_of_done hpc hd]
      exact h.of_view (view_of_pc (by rw [hpc]; rfl) (by simp) (by simp [hpc]))
        ⟨hi, hd, rfl⟩ (fun _ _ => rfl) (by simp [hpc])
    | false =>
      rw [thread_look_of_not_done hpc hd]
      exact h.of_scan (view_of_skip hpc hi hd) (inHand_rxNext s.ring i) rfl (by simp [hpc])
  | port i st =>
    obtain ⟨hi, hd, rfl⟩ := h.hand hpc
    rw [thread_port hpc]
    exact h.of_view (view_of_pc (by rw [hpc]; rfl) (by simp) (by simp [hpc]))
      ⟨hi, hd, rfl, rfl⟩ (fun _ _ => rfl) (by simp [hpc])
  | call i len port =>
    obtain ⟨hi, hd, rfl, rfl⟩ := h.hand hpc
    rw [thread_call hpc (h.len i hd)]
    exact h.of_scan (view_of_call hpc hd) ⟨hi, hd⟩ rfl (by simp [hpc])
  | rearm i =>
    obtain ⟨hi, hd⟩ := h.hand hpc
    rw [thread_rearm hpc]
    refine h.of_view (view_of_rearm hpc hi) (inHand_rxNext _ i) ?_ (by simp [hpc])
    intro j hj
    dsimp only at hj
    by_cases hji : j = i
    · rw [hji, Function.update_self, rearmed_done] at hj
      cases hj
    · exact Function.update_of_ne hji _ _
  | stopped =>
    rw [RxState.thread, hpc]
    exact h

theorem fill (h : s.Inv) (i : ℕ) (slot : RxSlot) : (s.step (.fill i slot)).Inv := by
  rw [RxState.step]
  split_ifs with hfree
  · exact h
  · obtain ⟨hd, hd'⟩ : (s.ring i).done = false ∧ slot.done = false := by simpa using hfree
    refine h.of_view (view_of_fill hd hd') (h.inHand.update hd slot) ?_ id
    intro j hj
    dsimp only at hj ⊢
    by_cases hji : j = i
    · rw [hji, Function.update_self, hd'] at hj
      cases hj
    · exact Function.update_of_ne hji _ _

theorem complete (h : s.Inv) (c : RxCompletion) (hc : s.StaysBehind (.complete c)) :
    (s.step (.complete c)).Inv := by
  rw [RxState.step]
  split_ifs with hfree
  · exact h
  · have hd : (s.ring s.head).done = false := by simpa using hfree
    have hre : s.pc ≠ .rearm s.head := by
      intro hpc
      have hdone := (h.hand hpc).2
      rw [hd] at hdone
      cases hdone
    have hv := view_of_complete c hd hre
    refine ⟨h.inHand.update hd c.slot, ?_, ?_, ?_⟩
    · intro j hj
      dsimp only at hj ⊢
      by_cases hjh : j = s.head
      · rw [hjh, Function.update_self]
        exact c.len
      · rw [Function.update_of_ne hjh] at hj ⊢
        exact h.len j hj
    · rw [hv]
      exact h.window.fill rx_dcbs_pos _
    · intro hrun
      rw [hv]
      exact (h.ahead hrun).fill h.window rx_dcbs_pos (hc hrun) _

/-- A device that stays behind the scan keeps the invariant. -/
theorem step (h : s.Inv) (act : RxAct) (hc : s.StaysBehind act) : (s.step act).Inv := by
  cases act with
  | thread running => exact h.thread running
  | fill i slot => exact h.fill i slot
  | complete c => exact h.complete c hc

theorem start (phys : ℕ → BitVec 32) : (RxState.start phys).Inv where
  inHand := trivial
  len i hd := by simp [RxState.start, RxSlot.done] at hd
  window := by
    constructor <;> simp [RxState.view, RxState.start, RxSlot.done]
  ahead _ := ⟨0, rfl, le_refl 0, Nat.zero_le _⟩

end RxState.Inv

/-- Receive delivers every completed frame once and in the order of completion in
every run in which the device stays behind the scan. -/
theorem rx_inOrder_of_staysBehind (phys : ℕ → BitVec 32) (acts : List RxAct)
    (h : EachStep RxState.step RxState.StaysBehind (.start phys) acts) :
    Throughout RxState.step RxState.InOrder (.start phys) acts := by
  have hinv : Throughout RxState.step RxState.Inv (.start phys) acts :=
    throughout_of_eachStep (fun _ act hs hc => hs.step act hc) (RxState.Inv.start phys) h
  exact hinv.mono fun s hs => hs.window.inOrder rx_dcbs_pos

/-- A completed slot that holds a frame of one byte. -/
def oneByte (b : BitVec 8) : RxCompletion where
  slot :=
    { dcb := fun k => if k = 15 then 0x80000001 else 0
      buf := fun _ => b }
  done := by simp [RxSlot.done]
  len := by simp [RxSlot.len, RX_BUF_SIZE]

/-- Two frames received, the second completed while the thread reads the first. -/
theorem rx_inOrder_twoFrames : Throughout RxState.step RxState.InOrder (.start fun _ => 0)
    [.complete (oneByte 7), .thread true, .thread true, .complete (oneByte 8), .thread true,
      .thread true, .thread true, .thread true, .thread true, .thread true] := by
  refine rx_inOrder_of_staysBehind (fun _ => 0) _ ⟨fun _ => ?_, trivial, trivial, fun _ => ?_,
    trivial, trivial, trivial, trivial, trivial, trivial, trivial⟩
  · rintro ⟨-, -, i, hi⟩
    simp [SlotRing.waiting, RxState.view, RxState.start, RxSlot.done] at hi
  · -- the device is at slot 1, the scan at slot 0
    rintro ⟨hpos, -, -⟩
    exact absurd hpos (by decide)

/-- The thread has found slot 0 empty when the device completes slots 0 and 1: the
second frame is handed over first. -/
theorem rx_outOfOrder :
    ¬ ∀ (phys : ℕ → BitVec 32) (acts : List RxAct),
      Throughout RxState.step RxState.InOrder (.start phys) acts := by
  intro h
  have hfinal := (h (fun _ => 0) [.thread true, .thread true, .complete (oneByte 1),
    .complete (oneByte 2), .thread true, .thread true, .thread true]).final.ordered
  exact absurd hfinal (by decide +kernel)

end OpenNos.Sdk
