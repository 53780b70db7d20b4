import OpenNos.Lib.Threads
import OpenNos.Sdk.ChipCells
import OpenNos.Switchd.NetlinkOnStack
import OpenNos.Switchd.PortMap

/-! The two threads of switchd that use the S-bus. The link thread reads the status of the
ports while the netlink thread writes tables and enable registers; the driver does one
access at a time, in any order. The link thread reads registers that the netlink thread does
not write, so neither notices the other. -/

namespace OpenNos.Switchd

open Bits OpProg Component Sdk History Bde

variable {calls : ℕ → SbusCall} {s : SbusChip}

/-! ### The link thread -/

def MAC_MODE_OFF : BitVec 32 := 0x511

def MAC_MODE_LINK_STATUS_BIT : ℕ := 5

def macModeAddr (b : BlockLane) : BitVec 32 :=
  b.base + BitVec.ofNat 32 b.lane * 0x1000 + MAC_MODE_OFF

/-- What a poll finds apart from the S-bus. -/
structure PollEnv where
  /-- `xlport_enable_shadow`, which the netlink thread may have changed -/
  shadow : ℕ → BitVec 32
  /-- `bcm56846_serdes_link_get`, which goes over MIIM -/
  serdesLink : ℤ → Rc Bool

/-- Where the register cannot be read the administrative state is taken. -/
def portLinkStatusGetProg (env : PollEnv) (port : ℤ) : Sbus (Rc Bool) :=
  if port ≤ 0 ∨ 52 < port then return .error .einval
  else if 49 ≤ port then return env.serdesLink port
  else
    match xeToBlockLane (port - 1) with
    | none => return .error .einval
    | some b => do
      match ← perform (.regRead (macModeAddr b)) with
      | none => return .ok ((env.shadow b.blockIdx).getLsbD b.lane)
      | some words => return .ok ((words 0).getLsbD MAC_MODE_LINK_STATUS_BIT)

/-- The first turns of a round. -/
def linkStateRoundProg (names : List (List Cstring.Byte)) (env : PollEnv)
    (lastUp : ℕ → Option Bool) :
    ℕ → Sbus ((ℕ → Option Bool) × List (List Cstring.Byte × Bool))
  | 0 => return (lastUp, [])
  | i + 1 => do
    let before ← linkStateRoundProg names env lastUp i
    let rc ← portLinkStatusGetProg env ((i : ℤ) + 1)
    let turn := linkStateTurn names i rc.toOption before.1
    return (turn.1, before.2 ++ turn.2)

def linkStateRoundsProg (names : List (List Cstring.Byte)) :
    (ℕ → Option Bool) → List PollEnv → Sbus (List (List Cstring.Byte × Bool))
  | _, [] => return []
  | lastUp, env :: rest => do
    let round ← linkStateRoundProg names env lastUp names.length
    let later ← linkStateRoundsProg names round.1 rest
    return round.2 ++ later

/-- The calls of `tun_set_up` over some rounds. -/
def linkStateThreadProg (names : List (List Cstring.Byte)) (polls : List PollEnv) :
    Sbus (List (List Cstring.Byte × Bool)) :=
  if names.length = 0 ∨ MAX_PORTS < names.length then return []
  else linkStateRoundsProg names (fun _ => none) polls

/-- What the thread finds of a port whose register can be read. -/
def linkStatus (reg : BitVec 32 → BitVec 32) (env : PollEnv) (port : ℤ) : Option Bool :=
  if port ≤ 0 ∨ 52 < port then none
  else if 49 ≤ port then (env.serdesLink port).toOption
  else (xeToBlockLane (port - 1)).map fun b =>
    (reg (macModeAddr b)).getLsbD MAC_MODE_LINK_STATUS_BIT

/-! ### On the cells -/

variable {misc : BitVec 32} {m : ChipCell → Words}

/-- Reads leave the cells. -/
def GivesStatus {α : Type} (misc : BitVec 32) (m : ChipCell → Words) (p : Sbus α) (a : α) : Prop :=
  p.runOn (chipDevice misc).step m = (a, m)

def macRegs (m : ChipCell → Words) (addr : BitVec 32) : BitVec 32 := m (.reg addr) 0

theorem portLinkStatusGetProg_gives (env : PollEnv) (port : ℤ) :
    ∃ rc, GivesStatus misc m (portLinkStatusGetProg env port) rc ∧
      rc.toOption = linkStatus (macRegs m) env port := by
  rw [portLinkStatusGetProg, linkStatus]
  split_ifs
  · exact ⟨_, rfl, rfl⟩
  · exact ⟨_, rfl, rfl⟩
  · cases xeToBlockLane (port - 1) with
    | none => exact ⟨_, rfl, rfl⟩
    | some b => exact ⟨_, rfl, rfl⟩

theorem linkStateRoundProg_gives (names : List (List Cstring.Byte)) (env : PollEnv)
    (lastUp : ℕ → Option Bool) (i : ℕ) :
    GivesStatus misc m (linkStateRoundProg names env lastUp i)
      (linkStateRound names (linkStatus (macRegs m) env) lastUp i) := by
  induction i with
  | zero => rfl
  | succ i ih =>
    have hpoll : ∃ rc, GivesStatus misc m (portLinkStatusGetProg env ((i : ℤ) + 1)) rc ∧
        rc.toOption = linkStatus (macRegs m) env ((i : ℤ) + 1) := portLinkStatusGetProg_gives env _
    obtain ⟨rc, hrun, hrc⟩ := hpoll
    rw [GivesStatus, linkStateRoundProg, linkStateRound, runOn_bind, ih, runOn_bind, hrun, ← hrc]
    rfl

theorem linkStateRoundsProg_gives (names : List (List Cstring.Byte))
    (lastUp : ℕ → Option Bool) (polls : List PollEnv) :
    GivesStatus misc m (linkStateRoundsProg names lastUp polls)
      (linkStateRounds names lastUp (polls.map (linkStatus (macRegs m)))) := by
  induction polls generalizing lastUp with
  | nil => rfl
  | cons env rest ih =>
    have hround : GivesStatus misc m (linkStateRoundProg names env lastUp names.length)
        (linkStateRound names (linkStatus (macRegs m) env) lastUp names.length) :=
      linkStateRoundProg_gives names env lastUp names.length
    rw [GivesStatus, linkStateRoundsProg, runOn_bind, hround]
    dsimp only
    rw [runOn_bind, ih]
    rfl

theorem linkStateThreadProg_gives (names : List (List Cstring.Byte)) (polls : List PollEnv) :
    GivesStatus misc m (linkStateThreadProg names polls)
      (linkStateThread names (polls.map (linkStatus (macRegs m)))) := by
  rw [linkStateThreadProg, linkStateThread]
  by_cases hnone : names.length = 0 ∨ MAX_PORTS < names.length
  · rw [if_pos hnone, if_pos hnone]
    rfl
  · rw [if_neg hnone, if_neg hnone]
    exact linkStateRoundsProg_gives names _ polls

/-! ### The registers and tables of each thread -/

/-- The accesses of the link thread. -/
def MacRead : SbusOp → Prop
  | .regRead addr => ∃ b : BlockLane, b.base ∈ xlportBlocks ∧ addr = macModeAddr b
  | _ => False

theorem portLinkStatusGetProg_access (env : PollEnv) (port : ℤ) :
    (portLinkStatusGetProg env port).EachOp MacRead := by
  rw [portLinkStatusGetProg]
  split_ifs
  · exact eachOp_pure _
  · exact eachOp_pure _
  · cases hblock : xeToBlockLane (port - 1) with
    | none => exact eachOp_pure _
    | some b =>
      have hread : MacRead (.regRead (macModeAddr b)) := ⟨b, xeToBlockLane_base hblock, rfl⟩
      refine eachOp_bind (eachOp_perform hread) fun reply => ?_
      cases reply <;> exact eachOp_pure _

theorem linkStateRoundProg_access (names : List (List Cstring.Byte)) (env : PollEnv)
    (lastUp : ℕ → Option Bool) (i : ℕ) :
    (linkStateRoundProg names env lastUp i).EachOp MacRead := by
  induction i with
  | zero => exact eachOp_pure _
  | succ i ih =>
    exact eachOp_bind ih fun _ => eachOp_bind (portLinkStatusGetProg_access env _) fun _ =>
      eachOp_pure _

theorem linkStateRoundsProg_access (names : List (List Cstring.Byte)) (lastUp : ℕ → Option Bool)
    (polls : List PollEnv) : (linkStateRoundsProg names lastUp polls).EachOp MacRead := by
  induction polls generalizing lastUp with
  | nil => exact eachOp_pure _
  | cons env rest ih =>
    exact eachOp_bind (linkStateRoundProg_access names env lastUp _) fun round =>
      eachOp_bind (ih round.1) fun _ => eachOp_pure _

theorem linkStateThreadProg_access (names : List (List Cstring.Byte)) (polls : List PollEnv) :
    (linkStateThreadProg names polls).EachOp MacRead := by
  rw [linkStateThreadProg]
  split_ifs
  · exact eachOp_pure _
  · exact linkStateRoundsProg_access names _ polls

/-- What the netlink thread writes: its tables and the enable registers of the blocks. -/
def netCells : Set ChipCell :=
  tableCells netTables ∪ {c | ∃ base ∈ xlportBlocks, c = .reg (base + XLPORT_PORT_ENABLE_OFF)}

theorem NetAccess.touches {o : SbusOp} (h : NetAccess o) (misc : BitVec 32) :
    (chipDevice misc).Within netCells o := by
  rintro c rfl
  cases o with
  | regWrite addr value =>
    obtain ⟨base, hbase, haddr⟩ := h
    exact .inr ⟨base, hbase, congrArg ChipCell.reg haddr⟩
  | memRead addr index nwords => exact .inl ⟨addr, h.1, index, rfl⟩
  | memWrite addr index data nwords => exact .inl ⟨addr, h.1, index, rfl⟩
  | _ => exact h.elim

/-- The blocks start at multiples of 4096, and the two registers have different offsets. -/
theorem macModeAddr_ne {b : BlockLane} (hb : b.base ∈ xlportBlocks) {base : BitVec 32}
    (hbase : base ∈ xlportBlocks) : macModeAddr b ≠ base + XLPORT_PORT_ENABLE_OFF := by
  intro heq
  have haligned : ∀ base ∈ xlportBlocks, base.toNat % 4096 = 0 := by simp [xlportBlocks]
  have hstart := haligned _ hb
  have hstart' := haligned _ hbase
  have hlane : (BitVec.ofNat 32 b.lane * 0x1000).toNat % 4096 = 0 := by
    rw [BitVec.toNat_mul]
    change (_ * 4096) % 2 ^ 32 % 4096 = 0
    omega
  have hmode : MAC_MODE_OFF.toNat = 0x511 := rfl
  have henable : XLPORT_PORT_ENABLE_OFF.toNat = 0x8022a := rfl
  have hsums : ((b.base.toNat + (BitVec.ofNat 32 b.lane * 0x1000).toNat) % 2 ^ 32 +
      MAC_MODE_OFF.toNat) % 2 ^ 32 = (base.toNat + XLPORT_PORT_ENABLE_OFF.toNat) % 2 ^ 32 := by
    rw [← BitVec.toNat_add, ← BitVec.toNat_add, ← BitVec.toNat_add]
    exact congrArg BitVec.toNat heq
  omega

theorem MacRead.touches {o : SbusOp} (h : MacRead o) (misc : BitVec 32) :
    (chipDevice misc).Within (netCellsᶜ) o := by
  cases o with
  | regRead addr =>
    obtain ⟨b, hb, haddr⟩ := h
    rintro c rfl
    rintro (⟨table, -, index, hcell⟩ | ⟨base, hbase, hcell⟩)
    · cases hcell
    · exact macModeAddr_ne hb hbase (haddr.symm.trans (ChipCell.reg.inj hcell))
  | _ => exact h.elim

theorem MacRead.within {o : SbusOp} (h : MacRead o) : sdkTables.Within o := by
  cases o with
  | regRead addr => exact trivial
  | _ => exact h.elim

/-! ### Both threads -/

/-- While every access succeeds, whatever the order of the accesses, the netlink thread does
what it does alone, and the link thread sets the interfaces by the link bits found at the
start. -/
theorem threads_on_stack (honest : ∀ k, (calls k).Honest)
    (hreports : ∀ k o, (calls k).Reports o) (hidle : s.running = none) (k : ℕ)
    (schedule : List Bool) (messages : List Nlmsghdr) (names : List (List Cstring.Byte))
    (polls : List PollEnv) :
    let both := (par schedule (netlinkThread.history .init messages)
      (linkStateThreadProg names polls)).runOn (stackStep calls) (k, s)
    let alone := (netlinkThread.history .init messages).runOn (stackStep calls) (k, s)
    let found (addr : BitVec 32) : BitVec 32 := s.space.reg (regAddr addr) 0
    both.1 = (alone.1, linkStateThread names (polls.map (linkStatus found))) ∧
      (∀ addr, both.2.2.space.reg (regAddr addr) = alone.2.2.space.reg (regAddr addr)) ∧
      ∀ table, ∀ index < sdkTables.size table,
        both.2.2.space.mem (cellAddr table index) = alone.2.2.space.mem (cellAddr table index) := by
  have hnet := history_each (A := netlinkThread) (t := .init) trivial messages
  have hlink := linkStateThreadProg_access names polls
  have hnetTables := hnet.mono fun _ ho => (NetAccess.chip ho).within
  have hlinkTables := hlink.mono fun _ => MacRead.within
  obtain ⟨hreply, hreg, hmem⟩ :=
    runOn_cells honest hreports hidle k (eachOp_par schedule hnetTables hlinkTables)
  obtain ⟨hreply', hreg', hmem'⟩ := runOn_cells honest hreports hidle k hnetTables
  let misc := s.reg CMIC_MISC_CONTROL
  have hnetCells := hnet.mono fun _ ho => NetAccess.touches ho misc
  have hlinkCells := hlink.mono fun _ ho => MacRead.touches ho misc
  obtain ⟨hresult, hown, hother⟩ :=
    par_runOn schedule hnetCells hlinkCells (fun hc hno => hno hc) (cellsOf s)
  have hgives : GivesStatus misc (cellsOf s) (linkStateThreadProg names polls) _ :=
    linkStateThreadProg_gives names polls
  -- the link thread writes nothing, so the cells are those the netlink thread leaves alone
  have hcells : ((par schedule (netlinkThread.history .init messages)
      (linkStateThreadProg names polls)).runOn (chipDevice misc).step (cellsOf s)).2 =
        ((netlinkThread.history .init messages).runOn (chipDevice misc).step (cellsOf s)).2 := by
    funext c
    by_cases hc : c ∈ netCells
    · exact hown hc
    · rw [hother hc, hgives]
      exact (CellDevice.runOn_frame hnetCells _ hc).symm
  rw [hgives, ← hreply'] at hresult
  refine ⟨hreply.trans hresult, fun addr => ?_, fun table index hindex => ?_⟩
  · rw [hreg, hreg', hcells]
  · rw [hmem table index hindex, hmem' table index hindex, hcells]

/-- A port goes up and gets a route while its link is polled. -/
theorem threads_on_stack_swp1 :
    let schedule := [true, false, true, true, false]
    let messages : List Nlmsghdr := [newlinkSwp1, addrSwp1 false, routeTen false [oifSwp1]]
    let env : PollEnv := ⟨fun _ => 0, fun _ => .error .einval⟩
    let both := (par schedule (netlinkThread.history .init messages)
      (linkStateThreadProg [swpName 1] [env, env])).runOn (stackStep fun _ => promptCall)
      (0, blankChip)
    let alone := (netlinkThread.history .init messages).runOn (stackStep fun _ => promptCall)
      (0, blankChip)
    let found (addr : BitVec 32) : BitVec 32 := blankChip.space.reg (regAddr addr) 0
    both.1 = (alone.1, linkStateThread [swpName 1] ([env, env].map (linkStatus found))) ∧
      (∀ addr, both.2.2.space.reg (regAddr addr) = alone.2.2.space.reg (regAddr addr)) ∧
      ∀ table, ∀ index < sdkTables.size table,
        both.2.2.space.mem (cellAddr table index) = alone.2.2.space.mem (cellAddr table index) :=
  threads_on_stack (fun _ => promptCall_honest) (fun _ => promptCall_reports) rfl 0 _ _ _ _

end OpenNos.Switchd
