import Mathlib.Data.List.GetD
import OpenNos.Sdk.L2OnStack
import OpenNos.Sdk.L3OnStack
import OpenNos.Switchd.KernelFib

/-! The netlink thread on the whole stack. Its handlers are programs of accesses, with the
variables of the thread and of the SDK beside the chip. Messages through the SDK, `sbus.c`,
the ioctl and the driver leave the variables and the chip as they do on the chip of tables
and faults, so that what is wanted of the kernel's routes arrives at the chip. -/

namespace OpenNos.Switchd

open Bits OpProg Component Sdk History Bde

variable {calls : ℕ → SbusCall} {a : Asic} {bar : ℕ → BitVec 32} {s : SbusChip} {d : SocDev}
  {k : ℕ}

/-- The variables of the thread, and the static ones of the SDK that its calls change. -/
structure NetVars where
  arrays : L3Arrays
  xlportEnableShadow : ℕ → BitVec 32
  ifindexToPort : ℕ → ℤ
  portToIntfId : ℕ → ℕ
  neighCache : List NeighEntry

def NetState.vars (s : NetState) : NetVars where
  arrays := s.sdk.arrays
  xlportEnableShadow := s.sdk.xlportEnableShadow
  ifindexToPort := s.ifindexToPort
  portToIntfId := s.portToIntfId
  neighCache := s.neighCache

/-- The variables before the first message. -/
def NetVars.init : NetVars := (NetState.init (.init .blank)).vars

/-- The variables beside a chip. -/
def NetVars.on (v : NetVars) (a : Asic) : NetState where
  sdk :=
    { asic := a
      intfUsed := v.arrays.intfUsed
      nhopUsed := v.arrays.nhopUsed
      defipUsed := v.arrays.defipUsed
      defipPrefix := v.arrays.defipPrefix
      defipPlen := v.arrays.defipPlen
      xlportEnableShadow := v.xlportEnableShadow }
  ifindexToPort := v.ifindexToPort
  portToIntfId := v.portToIntfId
  neighCache := v.neighCache

/-! ### The handlers as programs of accesses

A handler gives the variables that it leaves. What is made of a message, up to the calls of
the SDK, depends on the variables alone. -/

def portEnableSetProg (shadow : ℕ → BitVec 32) (port : ℤ) (enable : Bool) :
    Sbus ((ℕ → BitVec 32) × Rc Unit) :=
  if port ≤ 0 ∨ 52 < port then return (shadow, .error .einval)
  else
    match xeToBlockLane (port - 1) with
    | none => return (shadow, .error .einval)
    | some b => do
      let old := shadow b.blockIdx
      let val := if enable then old ||| 1#32 <<< b.lane else old &&& ~~~(1#32 <<< b.lane)
      let shadow := Function.update shadow b.blockIdx val
      if ← sbusRegWrite (b.base + XLPORT_PORT_ENABLE_OFF) val then return (shadow, .ok ())
      else return (shadow, .error .eio)

/-- A call whose result is ignored, with the shadow that it leaves. -/
def sdkCallProg (shadow : ℕ → BitVec 32) : SdkCall → Sbus (ℕ → BitVec 32)
  | .portEnableSet port enable => return (← portEnableSetProg shadow port enable).1
  | .l2AddrAdd addr => do
    discard <| l2AddrAddProg addr
    return shadow
  | .l2AddrDelete mac vid => do
    discard <| l2AddrDeleteProg mac vid
    return shadow

/-- The calls of a handler in order. -/
def performProg (v : NetVars) : List SdkCall → Sbus NetVars
  | [] => return v
  | c :: rest => do
    let shadow ← sdkCallProg v.xlportEnableShadow c
    performProg { v with xlportEnableShadow := shadow } rest

def handleLinkProg (v : NetVars) (del : Bool) (m : Nlmsg Ifinfomsg) : Sbus NetVars :=
  let r := handleLink (v.on .blank) del m
  performProg r.1.vars r.2

def handleNeighProg (v : NetVars) (del : Bool) (m : Nlmsg Ndmsg) : Sbus NetVars :=
  let r := handleNeigh (v.on .blank) del m
  performProg r.1.vars r.2

def handleAddrProg (v : NetVars) (del : Bool) (m : Nlmsg Ifaddrmsg) : Sbus NetVars :=
  if m.nlmsgLen < NLMSG_LENGTH 8 then return v
  else if (m.tb IFA_ADDRESS).isNone then return v
  else if MAX_IFINDEX ≤ m.hdr.ifaIndex.toNat then return v
  else
    let port := v.ifindexToPort m.hdr.ifaIndex.toNat
    if port ≤ 0 ∨ (MAX_PORTS : ℤ) ≤ port then return v
    else if ¬ del then do
      match ← l3IntfCreateProg v.arrays (portMac port) 0 with
      | (arrays, .ok intfId) =>
        let ids := Function.update v.portToIntfId port.toNat intfId
        return { v with arrays := arrays, portToIntfId := ids }
      | (arrays, .error _) => return { v with arrays := arrays }
    else if v.portToIntfId port.toNat ≠ 0 then do
      let r ← l3IntfDestroyProg v.arrays (v.portToIntfId port.toNat)
      return { v with arrays := r.1, portToIntfId := Function.update v.portToIntfId port.toNat 0 }
    else return v

def handleRouteProg (v : NetVars) (del : Bool) (m : Nlmsg Rtmsg) : Sbus NetVars :=
  if m.nlmsgLen < NLMSG_LENGTH 12 then return v
  else if m.hdr.rtmFamily ≠ AF_INET ∨ m.hdr.rtmType ≠ RTN_UNICAST then return v
  else if del then do
    let r ← l3RouteDeleteProg v.arrays (routeOf m 0)
    return { v with arrays := r.1 }
  else
    match routeEgress (v.on .blank) m with
    | none => return v
    | some egr => do
      match ← l3EgressCreateProg v.arrays egr with
      | (arrays, .error _) => return { v with arrays := arrays }
      | (arrays, .ok egressId) =>
        let r ← l3RouteAddProg arrays (routeOf m egressId)
        return { v with arrays := r.1 }

def dispatchProg (v : NetVars) : Nlmsghdr → Sbus NetVars
  | .link del m => handleLinkProg v del m
  | .addr del m => handleAddrProg v del m
  | .route del m => handleRouteProg v del m
  | .neigh del m => handleNeighProg v del m
  | .other => return v

/-! ### The same on the chip of tables and faults -/

/-- A program gives the state that a handler gives. -/
def GivesNet (p : Sbus NetVars) (a : Asic) (s : NetState) : Prop :=
  p.runOn (Asic.sbusStep id) a = (s.vars, s.sdk.asic)

theorem portEnableSetProg_runOn (s : SdkState) (port : ℤ) (enable : Bool) :
    (portEnableSetProg s.xlportEnableShadow port enable).runOn (Asic.sbusStep id) s.asic =
      (((portEnableSet s port enable).1.xlportEnableShadow, (portEnableSet s port enable).2),
        (portEnableSet s port enable).1.asic) := by
  rw [portEnableSetProg, portEnableSet]
  by_cases hport : port ≤ 0 ∨ 52 < port
  · rw [if_pos hport, if_pos hport]
    rfl
  · rw [if_neg hport, if_neg hport]
    cases xeToBlockLane (port - 1) with
    | none => rfl
    | some b =>
      dsimp only
      generalize (if enable = true then _ else _ : BitVec 32) = val
      rw [runOn_bind, sbusRegWrite_runOn]
      obtain ⟨a', ok⟩ := s.asic.regWrite (b.base + XLPORT_PORT_ENABLE_OFF) val
      cases ok <;> rfl

/-- The other calls keep the shadow, and all of them keep the arrays. -/
theorem sdkCallProg_runOn (s : SdkState) (c : SdkCall) :
    (sdkCallProg s.xlportEnableShadow c).runOn (Asic.sbusStep id) s.asic =
        ((c.perform s).xlportEnableShadow, (c.perform s).asic) ∧
      (c.perform s).arrays = s.arrays := by
  cases c with
  | portEnableSet port enable =>
    constructor
    · rw [sdkCallProg, runOn_bind, portEnableSetProg_runOn]
      rfl
    · obtain ⟨a', shadow, heq, -⟩ := portEnableSet_eq s port enable
      rw [SdkCall.perform, heq]
      rfl
  | l2AddrAdd addr =>
    refine ⟨?_, rfl⟩
    rw [sdkCallProg, runOn_bind, runOn_discard, l2AddrAddProg_gives]
    rfl
  | l2AddrDelete mac vid =>
    refine ⟨?_, rfl⟩
    rw [sdkCallProg, runOn_bind, runOn_discard, l2AddrDeleteProg_gives]
    rfl

theorem performProg_gives (s : NetState) (cs : List SdkCall) :
    GivesNet (performProg s.vars cs) s.sdk.asic (NetState.perform (s, cs)) := by
  induction cs generalizing s with
  | nil => rfl
  | cons c rest ih =>
    obtain ⟨hrun, harrays⟩ := sdkCallProg_runOn s.sdk c
    have hshadow : s.vars.xlportEnableShadow = s.sdk.xlportEnableShadow := rfl
    have hvars : { s.vars with xlportEnableShadow := (c.perform s.sdk).xlportEnableShadow } =
        NetState.vars { s with sdk := c.perform s.sdk } := by
      rw [NetState.vars, NetState.vars, harrays]
    rw [GivesNet, performProg, hshadow, runOn_bind, hrun]
    dsimp only
    rw [hvars]
    exact ih { s with sdk := c.perform s.sdk }

/-- What a handler decides does not depend on the chip. -/
theorem handleLink_on (s : NetState) (a : Asic) (del : Bool) (m : Nlmsg Ifinfomsg) :
    let r := handleLink (s.vars.on a) del m
    handleLink s del m = (r.1.vars.on s.sdk.asic, r.2) := by
  unfold handleLink
  dsimp only
  split_ifs
  · rfl
  · rfl
  · rfl
  · cases m.tb IFLA_IFNAME with
    | none => rfl
    | some name =>
      dsimp only
      cases ifnameToPort (Cstring.cstr name.data) <;> rfl
  · cases m.tb IFLA_IFNAME with
    | none => rfl
    | some name =>
      dsimp only
      cases ifnameToPort (Cstring.cstr name.data) <;> rfl

theorem handleNeigh_on (s : NetState) (a : Asic) (del : Bool) (m : Nlmsg Ndmsg) :
    let r := handleNeigh (s.vars.on a) del m
    handleNeigh s del m = (r.1.vars.on s.sdk.asic, r.2) := by
  unfold handleNeigh
  dsimp only
  have hport : (s.vars.on a).ifindexToPort = s.ifindexToPort := rfl
  rw [hport]
  split_ifs
  · rfl
  · rfl
  · rfl
  · rfl
  · cases neighLladdr m <;> rfl
  · cases neighLladdr m <;> rfl
  · cases neighLladdr m <;> rfl

theorem handleLinkProg_gives (s : NetState) (del : Bool) (m : Nlmsg Ifinfomsg) :
    GivesNet (handleLinkProg s.vars del m) s.sdk.asic (dispatch s (.link del m)) := by
  rw [dispatch, handleLink_on s .blank]
  exact performProg_gives ((handleLink (s.vars.on .blank) del m).1.vars.on s.sdk.asic) _

theorem handleNeighProg_gives (s : NetState) (del : Bool) (m : Nlmsg Ndmsg) :
    GivesNet (handleNeighProg s.vars del m) s.sdk.asic (dispatch s (.neigh del m)) := by
  rw [dispatch, handleNeigh_on s .blank]
  exact performProg_gives ((handleNeigh (s.vars.on .blank) del m).1.vars.on s.sdk.asic) _

/-! The calls of `l3.c` keep the shadow of the enable bits. -/

section Shadow

variable (s : SdkState)

theorem l3IntfCreate_shadow (mac : Mac) (vid : BitVec 16) :
    (l3IntfCreate s mac vid).1.xlportEnableShadow = s.xlportEnableShadow := by
  unfold l3IntfCreate
  split
  · rfl
  · split <;> rfl

theorem l3IntfDestroy_shadow (intfId : ℤ) :
    (l3IntfDestroy s intfId).1.xlportEnableShadow = s.xlportEnableShadow := by
  unfold l3IntfDestroy
  split_ifs <;> rfl

theorem l3EgressCreate_shadow (egress : L3Egress) :
    (l3EgressCreate s egress).1.xlportEnableShadow = s.xlportEnableShadow := by
  unfold l3EgressCreate
  split_ifs
  · rfl
  · rfl
  · split
    · rfl
    · dsimp only
      split
      · rfl
      · split <;> rfl

theorem defipSlot_shadow {s s' : SdkState} {pfx : BitVec 32} {plen : ℤ} {idx : ℕ}
    (h : defipSlot s pfx plen = some (s', idx)) :
    s'.xlportEnableShadow = s.xlportEnableShadow := by
  unfold defipSlot at h
  split at h
  · cases h
    rfl
  · split at h
    · cases h
    · cases h
      rfl

theorem l3RouteAdd_shadow (route : L3Route) :
    (l3RouteAdd s route).1.xlportEnableShadow = s.xlportEnableShadow := by
  unfold l3RouteAdd
  split_ifs
  · rfl
  · rfl
  · rfl
  · dsimp only
    cases hslot : defipSlot s (ntohl route.pfx) route.prefixLen with
    | none => rfl
    | some found =>
      obtain ⟨s', idx⟩ := found
      rw [← defipSlot_shadow hslot]
      dsimp only [l3DefipWrite]
      split
      · next heq => rw [← (Prod.mk.inj heq).1]
      · next heq => rw [← (Prod.mk.inj heq).1]

theorem l3RouteDelete_shadow (route : L3Route) :
    (l3RouteDelete s route).1.xlportEnableShadow = s.xlportEnableShadow := by
  unfold l3RouteDelete
  split_ifs
  · rfl
  · rfl
  · split <;> rfl

end Shadow

theorem handleAddrProg_gives (s : NetState) (del : Bool) (m : Nlmsg Ifaddrmsg) :
    GivesNet (handleAddrProg s.vars del m) s.sdk.asic (dispatch s (.addr del m)) := by
  have harrays : s.vars.arrays = s.sdk.arrays := rfl
  have hport : s.vars.ifindexToPort = s.ifindexToPort := rfl
  have hid : s.vars.portToIntfId = s.portToIntfId := rfl
  rw [handleAddrProg, dispatch, handleAddr, harrays, hport, hid]
  dsimp only
  split_ifs
  · rfl
  · rfl
  · rfl
  · rfl
  · have hshadow := l3IntfDestroy_shadow s.sdk
      (s.portToIntfId (s.ifindexToPort m.hdr.ifaIndex.toNat).toNat)
    rw [GivesNet, runOn_bind, l3IntfDestroyProg_gives, NetState.vars, ← hshadow]
    rfl
  · rfl
  · have hshadow := l3IntfCreate_shadow s.sdk (portMac (s.ifindexToPort m.hdr.ifaIndex.toNat)) 0
    rw [GivesNet, runOn_bind, l3IntfCreateProg_gives, NetState.vars, ← hshadow]
    obtain ⟨sdk, rc⟩ := l3IntfCreate s.sdk (portMac (s.ifindexToPort m.hdr.ifaIndex.toNat)) 0
    cases rc <;> rfl

theorem handleRouteProg_gives (s : NetState) (del : Bool) (m : Nlmsg Rtmsg) :
    GivesNet (handleRouteProg s.vars del m) s.sdk.asic (dispatch s (.route del m)) := by
  have harrays : s.vars.arrays = s.sdk.arrays := rfl
  have hegress : routeEgress (s.vars.on .blank) m = routeEgress s m := rfl
  rw [handleRouteProg, dispatch, handleRoute, harrays, hegress]
  split_ifs
  · rfl
  · rfl
  · rw [GivesNet, runOn_bind, l3RouteDeleteProg_gives, NetState.vars, NetState.vars,
      l3RouteDelete_shadow]
    rfl
  · cases routeEgress s m with
    | none => rfl
    | some egr =>
      dsimp only
      rw [GivesNet, runOn_bind, l3EgressCreateProg_gives, NetState.vars,
        ← l3EgressCreate_shadow s.sdk egr]
      obtain ⟨sdk, rc⟩ := l3EgressCreate s.sdk egr
      cases rc with
      | error rc => rfl
      | ok egressId =>
        dsimp only
        rw [runOn_bind, l3RouteAddProg_gives, NetState.vars, ← l3RouteAdd_shadow]
        rfl

theorem dispatchProg_gives (s : NetState) (m : Nlmsghdr) :
    GivesNet (dispatchProg s.vars m) s.sdk.asic (dispatch s m) := by
  cases m with
  | link del m => exact handleLinkProg_gives s del m
  | addr del m => exact handleAddrProg_gives s del m
  | route del m => exact handleRouteProg_gives s del m
  | neigh del m => exact handleNeighProg_gives s del m
  | other => rfl

/-! ### Their accesses -/

/-- The tables of `l2.c` and `l3.c`. -/
def netTables : Set (BitVec 32) := l2Tables ∪ l3Tables

/-- An access to one of them, or a write of the enable register of a block. -/
def NetAccess : SbusOp → Prop
  | .regWrite addr _ => ∃ base ∈ xlportBlocks, addr = base + XLPORT_PORT_ENABLE_OFF
  | o => TableAccess sdkTables netTables {L3_DEFIP_BASE} o

theorem NetAccess.of_table {o : SbusOp} (h : TableAccess sdkTables netTables {L3_DEFIP_BASE} o) :
    NetAccess o := by
  cases o with
  | regWrite addr value => exact h.elim
  | _ => exact h

theorem NetAccess.chip {o : SbusOp} (h : NetAccess o) :
    ChipAccess sdkTables netTables {L3_DEFIP_BASE} o := by
  cases o with
  | regWrite addr value => exact trivial
  | _ => exact h

theorem L2Access.net {o : SbusOp} (h : L2Access o) : NetAccess o :=
  .of_table (h.mono Set.subset_union_left (Set.empty_subset _))

theorem L3Access.net {o : SbusOp} (h : L3Access o) : NetAccess o :=
  .of_table (h.mono Set.subset_union_right (Set.Subset.refl _))

theorem xeToBlockLane_base {xe : ℤ} {b : BlockLane} (h : xeToBlockLane xe = some b) :
    b.base ∈ xlportBlocks := by
  unfold xeToBlockLane at h
  split at h
  · cases h
  · have hx : xe.toNat ≤ 51 := by omega
    obtain rfl := Option.some.inj h
    dsimp only
    have hlt : (if xe.toNat ≤ 47 then xe.toNat / 4 else xe.toNat - 36) < xlportBlocks.length := by
      change _ < 16
      split <;> omega
    rw [List.getD_eq_getElem _ _ hlt]
    exact List.getElem_mem hlt

theorem portEnableSetProg_access (shadow : ℕ → BitVec 32) (port : ℤ) (enable : Bool) :
    (portEnableSetProg shadow port enable).EachOp NetAccess := by
  rw [portEnableSetProg]
  by_cases hport : port ≤ 0 ∨ 52 < port
  · rw [if_pos hport]
    exact eachOp_pure _
  · rw [if_neg hport]
    cases hblock : xeToBlockLane (port - 1) with
    | none => exact eachOp_pure _
    | some b =>
      have haccess (val : BitVec 32) :
          NetAccess (.regWrite (b.base + XLPORT_PORT_ENABLE_OFF) val) :=
        ⟨b.base, xeToBlockLane_base hblock, rfl⟩
      refine eachOp_bind (eachOp_bind (eachOp_perform (haccess _)) fun _ => eachOp_pure _)
        fun ok => ?_
      split_ifs <;> exact eachOp_pure _

theorem sdkCallProg_access (shadow : ℕ → BitVec 32) (c : SdkCall) :
    (sdkCallProg shadow c).EachOp NetAccess := by
  cases c with
  | portEnableSet port enable =>
    exact eachOp_bind (portEnableSetProg_access shadow port enable) fun _ => eachOp_pure _
  | l2AddrAdd addr =>
    have hadd := (l2AddrAddProg_access addr).mono fun _ => L2Access.net
    exact eachOp_bind (closed_eachOp.discard hadd) fun _ => eachOp_pure _
  | l2AddrDelete mac vid =>
    have hdelete := (l2AddrDeleteProg_access mac vid).mono fun _ => L2Access.net
    exact eachOp_bind (closed_eachOp.discard hdelete) fun _ => eachOp_pure _

theorem performProg_access (v : NetVars) (cs : List SdkCall) :
    (performProg v cs).EachOp NetAccess := by
  induction cs generalizing v with
  | nil => exact eachOp_pure _
  | cons c rest ih => exact eachOp_bind (sdkCallProg_access _ c) fun _ => ih _

theorem handleAddrProg_access (v : NetVars) (del : Bool) (m : Nlmsg Ifaddrmsg) :
    (handleAddrProg v del m).EachOp NetAccess := by
  rw [handleAddrProg]
  dsimp only
  split_ifs
  · exact eachOp_pure _
  · exact eachOp_pure _
  · exact eachOp_pure _
  · exact eachOp_pure _
  · exact eachOp_bind ((l3IntfDestroyProg_access _ _).mono fun _ => L3Access.net) fun _ =>
      eachOp_pure _
  · exact eachOp_pure _
  · refine eachOp_bind ((l3IntfCreateProg_access _ _ _).mono fun _ => L3Access.net) fun r => ?_
    obtain ⟨arrays, rc⟩ := r
    cases rc <;> exact eachOp_pure _

theorem handleRouteProg_access (v : NetVars) (del : Bool) (m : Nlmsg Rtmsg) :
    (handleRouteProg v del m).EachOp NetAccess := by
  rw [handleRouteProg]
  split_ifs
  · exact eachOp_pure _
  · exact eachOp_pure _
  · exact eachOp_bind ((l3RouteDeleteProg_access _ _).mono fun _ => L3Access.net) fun _ =>
      eachOp_pure _
  · cases routeEgress (v.on .blank) m with
    | none => exact eachOp_pure _
    | some egr =>
      refine eachOp_bind ((l3EgressCreateProg_access _ _).mono fun _ => L3Access.net) fun r => ?_
      obtain ⟨arrays, rc⟩ := r
      cases rc with
      | error rc => exact eachOp_pure _
      | ok egressId =>
        exact eachOp_bind ((l3RouteAddProg_access _ _).mono fun _ => L3Access.net) fun _ =>
          eachOp_pure _

theorem dispatchProg_access (v : NetVars) (m : Nlmsghdr) :
    (dispatchProg v m).EachOp NetAccess := by
  cases m with
  | link del m => exact performProg_access _ _
  | addr del m => exact handleAddrProg_access v del m
  | route del m => exact handleRouteProg_access v del m
  | neigh del m => exact performProg_access _ _
  | other => exact eachOp_pure _

/-- The thread with its variables. -/
abbrev netlinkThread : Component SbusOp (Option Words) where
  State := NetVars
  Call := Nlmsghdr
  Reply := Unit
  prog v m := do return (← dispatchProg v m, ())
  Inv _ := True
  Ok := NetAccess
  each m _ := eachOp_bind (dispatchProg_access _ m) fun _ => eachOp_pure _
  keeps _ _ := returns_true _

/-! ### On the stack -/

theorem netlinkThread_runOn (s : NetState) (messages : List Nlmsghdr) :
    ((netlinkThread.history s.vars messages).runOn (Asic.sbusStep id) s.sdk.asic).1.1 =
        (run dispatch s messages).vars ∧
      ((netlinkThread.history s.vars messages).runOn (Asic.sbusStep id) s.sdk.asic).2 =
        (run dispatch s messages).sdk.asic := by
  let perform (s : NetState) (m : Nlmsghdr) : NetState × Unit := (dispatch s m, ())
  have hgives (s : NetState) (m : Nlmsghdr) : (netlinkThread.prog s.vars m).runOn
      (Asic.sbusStep id) s.sdk.asic = (((dispatch s m).vars, ()), (dispatch s m).sdk.asic) := by
    have hprog : netlinkThread.prog s.vars m = do return (← dispatchProg s.vars m, ()) := rfl
    rw [hprog, runOn_bind, dispatchProg_gives]
    rfl
  have hruns := history_runOn (A := netlinkThread) (f := perform) hgives s messages
  rw [hruns, callAll_fst]
  exact ⟨rfl, rfl⟩

theorem netlinkThread_stack (honest : ∀ k, (calls k).Honest) (hprov : Provides sdkTables bar s d)
    (hm : Sdk.Mirrors calls a (k, d)) (messages : List Nlmsghdr) :
    let after := (netlinkThread.history .init messages).runOn (stackStep calls) (k, s)
    let net := run dispatch (NetState.init (.init a)) messages
    ∃ b, SameButFive {L3_DEFIP_BASE} b net.sdk.asic ∧ after.1.1 = net.vars ∧
      (∀ addr, after.2.2.space.reg (regAddr addr) 0 = b.reg addr) ∧
      ∀ addr, ∀ index < sdkTables.size addr,
        after.2.2.space.mem (cellAddr addr index) = b.mem addr index := by
  have haccess := (history_each (A := netlinkThread) (t := .init) trivial messages).mono
    fun _ => NetAccess.chip
  obtain ⟨hvars, hasic⟩ := netlinkThread_runOn (NetState.init (.init a)) messages
  obtain ⟨hreply, hmem, hreg⟩ := runOn_chip honest haccess hprov hm
  obtain ⟨hreply', hsame⟩ := runOn_chip_arrived (bar CMIC_MISC_CONTROL) haccess (.refl _ a)
  have hend : ((netlinkThread.history .init messages).runOn (Asic.sbusStep id) a).2 =
    (run dispatch (NetState.init (.init a)) messages).sdk.asic := hasic
  rw [hend] at hsame
  exact ⟨_, hsame, (congrArg Prod.fst (hreply.trans hreply')).trans hvars, hreg, hmem⟩

/-- Messages to the thread on the stack leave its variables, the registers and the tables of
the chip as they do on the chip of tables and faults, whatever accesses are lost; of the
slots of L3_DEFIP the entries that the chip reads. -/
theorem netlink_on_stack (honest : ∀ k, (calls k).Honest) (hprov : Provides sdkTables bar s d)
    (hm : Sdk.Mirrors calls a (k, d)) (messages : List Nlmsghdr) :
    let after := (netlinkThread.history .init messages).runOn (stackStep calls) (k, s)
    let net := run dispatch (NetState.init (.init a)) messages
    let chip (addr : BitVec 32) (index : ℕ) := after.2.2.space.mem (cellAddr addr index)
    after.1.1 = net.vars ∧
      (∀ addr, after.2.2.space.reg (regAddr addr) 0 = net.sdk.asic.reg addr) ∧
      (∀ addr ≠ L3_DEFIP_BASE, ∀ index < sdkTables.size addr,
        chip addr index = net.sdk.asic.mem addr index) ∧
      ∀ index < MAX_L3_DEFIP, defipEntry (chip L3_DEFIP_BASE index) = net.sdk.asic.slot index := by
  obtain ⟨b, hsame, hvars, hreg, hmem⟩ := netlinkThread_stack honest hprov hm messages
  refine ⟨hvars, fun addr => ?_, fun addr hne index hindex => ?_, fun index hindex => ?_⟩
  · rw [hreg, hsame.reg]
  · dsimp only
    rw [hmem addr index hindex]
    funext i
    exact hsame.mem addr index i (.inr hne)
  · dsimp only
    rw [hmem _ index (hindex.trans_eq size_l3.2.2.2.symm)]
    exact hsame.defipEntry index

/-- The routes of swp1 come and go on a device that loses every third access. -/
theorem netlink_on_stack_droppy :
    let messages : List Nlmsghdr := [newlinkSwp1, addrSwp1 false, neighSwp1 false 2 7,
      routeTen false [oifSwp1], routeTen true [oifSwp1], addrSwp1 true]
    let after := (netlinkThread.history .init messages).runOn (stackStep droppyCalls) (0, blankChip)
    let net := run dispatch (NetState.init (.init droppyAsic)) messages
    let chip (addr : BitVec 32) (index : ℕ) := after.2.2.space.mem (cellAddr addr index)
    after.1.1 = net.vars ∧
      (∀ addr, after.2.2.space.reg (regAddr addr) 0 = net.sdk.asic.reg addr) ∧
      (∀ addr ≠ L3_DEFIP_BASE, ∀ index < sdkTables.size addr,
        chip addr index = net.sdk.asic.mem addr index) ∧
      ∀ index < MAX_L3_DEFIP, defipEntry (chip L3_DEFIP_BASE index) = net.sdk.asic.slot index :=
  netlink_on_stack droppyCalls_honest droppy_provides droppy_mirrors _

/-! ### The routes of the kernel -/

/-- Agreement is about the slots and the next hops. -/
theorem Agrees.congr {a b : Asic} (hslot : ∀ i < MAX_L3_DEFIP, a.slot i = b.slot i)
    (hhop : ∀ n < MAX_L3_NHOP, a.chain.hopPort n = b.chain.hopPort n) {pfx : BitVec 32} {len : ℕ}
    {w : Wanted} (h : Agrees b pfx len w) : Agrees a pfx len w := by
  have hnames (i : ℕ) (hi : i < MAX_L3_DEFIP) : a.Names i pfx len ↔ b.Names i pfx len := by
    rw [Asic.Names, Asic.Names, hslot i hi]
  cases w with
  | offloaded p =>
    obtain ⟨i, hi, ⟨nhop, hs, hp⟩, honly⟩ := h
    have hn : nhop.toNat < MAX_L3_NHOP := nhop.isLt
    refine ⟨i, hi, ⟨nhop, (hslot i hi).trans hs, by rw [hhop _ hn, hp]⟩, fun j hj hnames' => ?_⟩
    exact honly j hj ((hnames j hj).mp hnames')
  | withdrawn => exact fun i hi hn => h i hi ((hnames i hi).mp hn)
  | kernelOnly => exact fun i hi hn => h i hi ((hnames i hi).mp hn)

theorem fibState_net (f : FibState) (messages : List Nlmsghdr) :
    (run FibState.step f messages).net = run dispatch f.net messages := by
  induction messages generalizing f with
  | nil => rfl
  | cons m rest ih => exact ih (f.step m)

/-- Every access succeeding, the chip holds for each prefix what the latest route message
asks, after any messages in whose course no table is full and no route that cannot be
offloaded replaces one that was. -/
theorem fib_on_stack (honest : ∀ k, (calls k).Honest) (hreports : ∀ k o, (calls k).Reports o)
    (hidle : s.running = none) (k : ℕ) (hempty : ∀ i < MAX_L3_DEFIP, (asicOf s).slot i = none)
    {messages : List Nlmsghdr}
    (hroom : EachStep FibState.step Room (FibState.start (asicOf s)) messages)
    (hreplaces : EachStep FibState.step ReplacesNone (FibState.start (asicOf s)) messages) :
    let after := (netlinkThread.history .init messages).runOn (stackStep calls) (k, s)
    ∀ pfx len w, (run FibState.step (FibState.start (asicOf s)) messages).latest (pfx, len) =
      some w → Agrees (asicOf after.2.2) pfx len w := by
  intro after pfx len w hw
  obtain ⟨b, hsame, -, -, hmem⟩ := netlinkThread_stack honest (provides_ideal hidle)
    (mirrors_reporting hreports s k) messages
  have hinv : (run FibState.step (FibState.start (asicOf s)) messages).Inv :=
    (throughout_of_eachStep (fun f m (h : f.Inv) (hc : Room f m ∧ ReplacesNone f m) =>
      h.step hc.1 hc.2) (FibState.Inv.start (fun _ => rfl) hempty) (hroom.and hreplaces)).final
  have hagrees := hinv.follows pfx len w hw
  rw [fibState_net] at hagrees
  have hchip (addr : BitVec 32) (index : ℕ) (hindex : index < sdkTables.size addr) :
      (asicOf after.2.2).mem addr index = b.mem addr index := hmem addr index hindex
  refine Agrees.congr (fun i hi => ?_) (fun n hn => ?_) hagrees
  · rw [Asic.slot, hchip _ i (hi.trans_eq size_l3.2.2.2.symm)]
    exact hsame.defipEntry i
  · have hsize : n < sdkTables.size ING_L3_NEXT_HOP_BASE := hn.trans_eq size_l3.2.1.symm
    have hport : b.chain.hopPort n =
        (run dispatch (NetState.init (.init (asicOf s))) messages).sdk.asic.chain.hopPort n :=
      hsame.field ING_L3_NEXT_HOP_BASE n (by decide)
    exact (congrArg nhopPort (hchip _ n hsize)).trans hport

/-- A route by way of swp1 is there. -/
theorem fib_on_stack_swp1 :
    let messages : List Nlmsghdr := [newlinkSwp1, addrSwp1 false, routeTen false [oifSwp1]]
    let after := (netlinkThread.history .init messages).runOn (stackStep fun _ => promptCall)
      (0, blankChip)
    ∀ pfx len w,
      (run FibState.step (FibState.start (asicOf blankChip)) messages).latest (pfx, len) = some w →
        Agrees (asicOf after.2.2) pfx len w := by
  have hblank : asicOf blankChip = Asic.blank := rfl
  refine fib_on_stack (fun _ => promptCall_honest) (fun _ => promptCall_reports) rfl 0
    (fun i _ => by rw [hblank, slot_blank]) ?_ ?_
  · rw [hblank]
    refine ⟨trivial, trivial, room_routeTen _ _ ?_ (slot_onSwp1 1), trivial⟩
    decide +kernel
  · rw [hblank]
    exact ⟨trivial, trivial, fun _ hno => absurd hno (by decide +kernel), trivial⟩

end OpenNos.Switchd
