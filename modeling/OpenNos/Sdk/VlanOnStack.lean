import OpenNos.Sdk.AsicOnStack
import OpenNos.Sdk.InitOnStack
import OpenNos.Sdk.VlanTables

/-! The calls of `vlan.c` on the whole stack. Both entries of a VLAN are longer than five
words, so that MISC_CONTROL arrives as their word 5. Of the entry of VLAN that word means
nothing; of the one of EGR_VLAN it is where the members 0 to 29 are. -/

namespace OpenNos.Sdk

open Bits OpProg Component History Bde

variable {calls : ℕ → SbusCall} {a b : Asic} {bar : ℕ → BitVec 32} {s : SbusChip} {d : SocDev}
  {k vid : ℕ} {misc : BitVec 32}

/-! ### The calls as programs of accesses -/

def vlanWriteIngProg (vlans : ℕ → VlanShadow) (vid : ℕ) : Sbus Bool :=
  sbusMemWrite VLAN_BASE vid (vlans vid).vlanIng VLAN_WORDS

def vlanWriteEgrProg (vlans : ℕ → VlanShadow) (vid : ℕ) : Sbus Bool :=
  sbusMemWrite EGR_VLAN_BASE vid (vlans vid).vlanEgr EGR_VLAN_WORDS

def vlanWriteProg (vlans : ℕ → VlanShadow) (vid : ℕ) : Sbus (Rc Unit) := do
  if ← vlanWriteIngProg vlans vid then
    if ← vlanWriteEgrProg vlans vid then return .ok () else return .error .eio
  else return .error .eio

/-- A call gives the arrays that it leaves and what it returns. -/
abbrev VlanProg := Sbus ((ℕ → VlanShadow) × Rc Unit)

def vlanCreateProg (vlans : ℕ → VlanShadow) (vid : BitVec 16) : VlanProg :=
  if 4095 < vid.toNat then return (vlans, .error .einval)
  else do
    let vlans := Function.update vlans vid.toNat .created
    return (vlans, ← vlanWriteProg vlans vid.toNat)

def vlanAddMemberProg (vlans : ℕ → VlanShadow) (vid port : ℕ) (tagged : Bool) : VlanProg := do
  let vlans := Function.update vlans vid ((vlans vid).add port tagged)
  return (vlans, ← vlanWriteProg vlans vid)

def vlanPortAddProg (vlans : ℕ → VlanShadow) (vid : BitVec 16) (port : ℤ) (tagged : Bool) :
    VlanProg :=
  if 4095 < vid.toNat ∨ port ≤ 0 ∨ 52 < port then return (vlans, .error .einval)
  else if (vlans vid.toNat).vlanValid then vlanAddMemberProg vlans vid.toNat port.toNat tagged
  else do
    match ← vlanCreateProg vlans vid with
    | (vlans, .error e) => return (vlans, .error e)
    | (vlans, .ok ()) => vlanAddMemberProg vlans vid.toNat port.toNat tagged

def vlanDestroyProg (vlans : ℕ → VlanShadow) (vid : BitVec 16) : VlanProg :=
  if 4095 < vid.toNat then return (vlans, .error .einval)
  else do
    let vlans := Function.update vlans vid.toNat .cleared
    discard <| vlanWriteIngProg vlans vid.toNat
    discard <| vlanWriteEgrProg vlans vid.toNat
    return (vlans, .ok ())

def VlanCall.prog (vlans : ℕ → VlanShadow) : VlanCall → VlanProg
  | .create vid => vlanCreateProg vlans vid
  | .portAdd vid port tagged => vlanPortAddProg vlans vid port tagged
  | .destroy vid => vlanDestroyProg vlans vid

/-! ### Both agree -/

theorem vlanWriteProg_runOn (s : VlanState) (vid : ℕ) :
    (vlanWriteProg s.vlans vid).runOn (Asic.sbusStep id) s.asic =
      ((vlanWrite s vid).2, (vlanWrite s vid).1.asic) ∧ (vlanWrite s vid).1.vlans = s.vlans := by
  rw [vlanWriteProg, vlanWrite, vlanWriteIng, runOn_bind, vlanWriteIngProg, sbusMemWrite_runOn, id]
  obtain ⟨a, ok⟩ := s.asic.memWrite VLAN_BASE vid (s.vlans vid).vlanIng VLAN_WORDS
  cases ok with
  | false => exact ⟨rfl, rfl⟩
  | true =>
    dsimp only
    rw [if_pos rfl, vlanWriteEgr, runOn_bind, vlanWriteEgrProg, sbusMemWrite_runOn, id]
    obtain ⟨a', ok'⟩ := a.memWrite EGR_VLAN_BASE vid (s.vlans vid).vlanEgr EGR_VLAN_WORDS
    cases ok' <;> exact ⟨rfl, rfl⟩

/-- A program gives what the call on the chip of tables and faults gives. -/
def Performs (p : VlanProg) (a : Asic) (r : VlanState × Rc Unit) : Prop :=
  p.runOn (Asic.sbusStep id) a = ((r.1.vlans, r.2), r.1.asic)

theorem performs_put (s : VlanState) (vid : ℕ) (e : VlanShadow) :
    Performs (do
      let vlans := Function.update s.vlans vid e
      return (vlans, ← vlanWriteProg vlans vid)) s.asic (vlanWrite (s.put vid e) vid) := by
  obtain ⟨hrun, hvlans⟩ := vlanWriteProg_runOn (s.put vid e) vid
  have hrun' : (vlanWriteProg (Function.update s.vlans vid e) vid).runOn (Asic.sbusStep id) s.asic =
    ((vlanWrite (s.put vid e) vid).2, (vlanWrite (s.put vid e) vid).1.asic) := hrun
  rw [Performs, runOn_bind, hrun', hvlans]
  rfl

theorem vlanCreateProg_performs (s : VlanState) (vid : BitVec 16) :
    Performs (vlanCreateProg s.vlans vid) s.asic (vlanCreate s vid) := by
  rw [vlanCreateProg, vlanCreate]
  split_ifs
  · rfl
  · exact performs_put s vid.toNat .created

theorem vlanAddMemberProg_performs (s : VlanState) (vid port : ℕ) (tagged : Bool) :
    Performs (vlanAddMemberProg s.vlans vid port tagged) s.asic (vlanAddMember s vid port tagged) :=
  performs_put s vid _

theorem vlanPortAddProg_performs (s : VlanState) (vid : BitVec 16) (port : ℤ) (tagged : Bool) :
    Performs (vlanPortAddProg s.vlans vid port tagged) s.asic (vlanPortAdd s vid port tagged) := by
  have hcreate := vlanCreateProg_performs s vid
  rw [vlanPortAddProg, vlanPortAdd]
  split_ifs
  · rfl
  · exact vlanAddMemberProg_performs s _ _ _
  · rw [Performs, runOn_bind, hcreate]
    obtain ⟨s', rc⟩ := vlanCreate s vid
    cases rc with
    | error e => rfl
    | ok u => exact vlanAddMemberProg_performs s' _ _ _

theorem vlanDestroyProg_performs (s : VlanState) (vid : BitVec 16) :
    Performs (vlanDestroyProg s.vlans vid) s.asic (vlanDestroy s vid) := by
  rw [vlanDestroyProg, vlanDestroy]
  split_ifs
  · rfl
  · rw [Performs, runOn_bind, runOn_discard, vlanWriteIngProg, sbusMemWrite_runOn, runOn_bind,
      runOn_discard, vlanWriteEgrProg, sbusMemWrite_runOn]
    rfl

theorem VlanCall.prog_performs (s : VlanState) (c : VlanCall) :
    Performs (c.prog s.vlans) s.asic (c.perform s) := by
  cases c with
  | create vid => exact vlanCreateProg_performs s vid
  | portAdd vid port tagged => exact vlanPortAddProg_performs s vid port tagged
  | destroy vid => exact vlanDestroyProg_performs s vid

/-! ### Their accesses -/

/-- A write of an entry of VLAN or EGR_VLAN, word 5 included. -/
def VlanAccess : SbusOp → Prop
  | .memWrite addr index _ nwords =>
    (addr = VLAN_BASE ∨ addr = EGR_VLAN_BASE) ∧ index < 4096 ∧ 5 < nwords ∧ nwords ≤ 14
  | _ => False

theorem size_vlan : sdkTables.size VLAN_BASE = 4096 := by decide +kernel

theorem size_egrVlan : sdkTables.size EGR_VLAN_BASE = 4096 := by decide +kernel

/-- The tables of `vlan.c`, of both of which word 5 is written. -/
def vlanTables : Set (BitVec 32) := {VLAN_BASE, EGR_VLAN_BASE}

theorem VlanAccess.table {o : SbusOp} (h : VlanAccess o) :
    TableAccess sdkTables vlanTables vlanTables o := by
  cases o with
  | memWrite addr index data nwords =>
    obtain ⟨haddr, hindex, -, hwords⟩ := h
    refine ⟨haddr, ?_, hwords, .inr haddr⟩
    rcases haddr with rfl | rfl
    · rwa [size_vlan]
    · rwa [size_egrVlan]
  | _ => exact h.elim

theorem sbusMemWrite_vlanAccess {addr : BitVec 32} {index : ℕ} {data : Words} {n : ℕ}
    (h : VlanAccess (.memWrite addr index data n)) :
    (sbusMemWrite addr index data n).EachOp VlanAccess :=
  eachOp_bind (eachOp_perform h) fun _ => eachOp_pure _

section Access

variable (vlans : ℕ → VlanShadow) (hvid : vid < 4096)
include hvid

theorem vlanWriteIngProg_access : (vlanWriteIngProg vlans vid).EachOp VlanAccess :=
  sbusMemWrite_vlanAccess ⟨.inl rfl, hvid, by decide, by decide⟩

theorem vlanWriteEgrProg_access : (vlanWriteEgrProg vlans vid).EachOp VlanAccess :=
  sbusMemWrite_vlanAccess ⟨.inr rfl, hvid, by decide, by decide⟩

theorem vlanWriteProg_access : (vlanWriteProg vlans vid).EachOp VlanAccess := by
  refine eachOp_bind (vlanWriteIngProg_access vlans hvid) fun ok => ?_
  split_ifs
  · refine eachOp_bind (vlanWriteEgrProg_access vlans hvid) fun ok => ?_
    split_ifs <;> exact eachOp_pure _
  · exact eachOp_pure _

theorem vlanAddMemberProg_access (port : ℕ) (tagged : Bool) :
    (vlanAddMemberProg vlans vid port tagged).EachOp VlanAccess :=
  eachOp_bind (vlanWriteProg_access _ hvid) fun _ => eachOp_pure _

end Access

theorem vlanCreateProg_access (vlans : ℕ → VlanShadow) (vid : BitVec 16) :
    (vlanCreateProg vlans vid).EachOp VlanAccess := by
  rw [vlanCreateProg]
  split_ifs with hvid
  · exact eachOp_pure _
  · exact eachOp_bind (vlanWriteProg_access _ (by omega)) fun _ => eachOp_pure _

theorem VlanCall.prog_access (vlans : ℕ → VlanShadow) (c : VlanCall) :
    (c.prog vlans).EachOp VlanAccess := by
  cases c with
  | create vid => exact vlanCreateProg_access vlans vid
  | portAdd vid port tagged =>
    rw [VlanCall.prog, vlanPortAddProg]
    split_ifs with hrej
    · exact eachOp_pure _
    · exact vlanAddMemberProg_access vlans (by omega) _ _
    · refine eachOp_bind (vlanCreateProg_access vlans vid) fun r => ?_
      obtain ⟨vlans', rc⟩ := r
      cases rc with
      | error e => exact eachOp_pure _
      | ok u => exact vlanAddMemberProg_access vlans' (by omega) _ _
  | destroy vid =>
    rw [VlanCall.prog, vlanDestroyProg]
    split_ifs with hvid
    · exact eachOp_pure _
    · exact eachOp_bind (closed_eachOp.discard (vlanWriteIngProg_access _ (by omega))) fun _ =>
        eachOp_bind (closed_eachOp.discard (vlanWriteEgrProg_access _ (by omega))) fun _ =>
          eachOp_pure _

/-- `vlan.c` with its arrays. -/
abbrev vlanFile : Component SbusOp (Option Words) where
  State := ℕ → VlanShadow
  Call := VlanCall
  Reply := Rc Unit
  prog := VlanCall.prog
  Inv _ := True
  Ok := VlanAccess
  each c _ := c.prog_access _
  keeps _ _ := returns_true _

/-- The arrays before any call. -/
def vlansInit : ℕ → VlanShadow := fun _ => .cleared

/-! ### Word 5 -/

/-- Word 5 of both entries of a VID. -/
def FiveIs (misc : BitVec 32) (a : Asic) (vid : ℕ) : Prop :=
  a.mem VLAN_BASE vid 5 = misc ∧ a.mem EGR_VLAN_BASE vid 5 = misc

theorem fiveIs_step (misc : BitVec 32) (vid : ℕ) (a : Asic) (o : SbusOp) (ho : VlanAccess o)
    (h : FiveIs misc a vid) : FiveIs misc (a.sbusStep (arrived misc) o).1 vid := by
  cases o with
  | memWrite addr index data nwords =>
    exact ⟨five_kept (.inl ho.2.2.1) h.1, five_kept (.inl ho.2.2.1) h.2⟩
  | _ => exact ho.elim

/-- Whoever writes both entries puts MISC_CONTROL into both. -/
theorem vlanWriteProg_five (vlans : ℕ → VlanShadow) (vid : ℕ) (b : Asic)
    (hok : ((vlanWriteProg vlans vid).runOn (Asic.sbusStep (arrived misc)) b).1 = .ok ()) :
    FiveIs misc ((vlanWriteProg vlans vid).runOn (Asic.sbusStep (arrived misc)) b).2 vid := by
  rw [vlanWriteProg, runOn_bind, vlanWriteIngProg, sbusMemWrite_runOn] at hok ⊢
  have hing {data : Words}
      (hw : (b.memWrite VLAN_BASE vid (arrived misc data) VLAN_WORDS).2 = true) :
      (b.memWrite VLAN_BASE vid (arrived misc data) VLAN_WORDS).1.mem VLAN_BASE vid 5 = misc :=
    five_of_written (by decide) hw
  dsimp only at hok ⊢
  split_ifs at hok ⊢ with hw
  · rw [runOn_bind, vlanWriteEgrProg, sbusMemWrite_runOn] at hok ⊢
    dsimp only at hok ⊢
    split_ifs at hok ⊢ with hw'
    · exact ⟨five_kept (.inl (by decide)) (hing hw), five_of_written (by decide) hw'⟩
    · cases hok
  · cases hok

theorem put_five (vlans : ℕ → VlanShadow) (vid : ℕ) (b : Asic)
    (hok : ((do return (vlans, ← vlanWriteProg vlans vid) : VlanProg).runOn
      (Asic.sbusStep (arrived misc)) b).1.2 = .ok ()) :
    FiveIs misc ((do return (vlans, ← vlanWriteProg vlans vid) : VlanProg).runOn
      (Asic.sbusStep (arrived misc)) b).2 vid := by
  rw [runOn_bind] at hok ⊢
  exact vlanWriteProg_five vlans vid b hok

/-- The call makes its VID live. -/
def VlanCall.Enlivens : VlanCall → Prop
  | .destroy _ => False
  | _ => True

theorem VlanCall.prog_five (vlans : ℕ → VlanShadow) (c : VlanCall) (hc : c.Enlivens) (b : Asic)
    (hok : ((c.prog vlans).runOn (Asic.sbusStep (arrived misc)) b).1.2 = .ok ()) :
    FiveIs misc ((c.prog vlans).runOn (Asic.sbusStep (arrived misc)) b).2 c.vid.toNat := by
  cases c with
  | create vid =>
    rw [VlanCall.prog, vlanCreateProg] at hok ⊢
    split_ifs at hok ⊢
    · cases hok
    · exact put_five _ _ b hok
  | portAdd vid port tagged =>
    rw [VlanCall.prog, vlanPortAddProg] at hok ⊢
    split_ifs at hok ⊢
    · cases hok
    · exact put_five _ _ b hok
    · rw [runOn_bind] at hok ⊢
      cases hcreate : (vlanCreateProg vlans vid).runOn (Asic.sbusStep (arrived misc)) b with
      | mk r b' =>
        rw [hcreate] at hok
        obtain ⟨vlans', rc⟩ := r
        cases rc with
        | error e => cases hok
        | ok u => exact put_five _ _ b' hok
  | destroy vid => exact hc.elim

theorem VlanLog.step_sdk (t : VlanLog) (c : VlanCall) : (t.step c).sdk = (c.perform t.sdk).1 := by
  rw [VlanLog.step]
  obtain ⟨s, rc⟩ := c.perform t.sdk
  cases rc <;> rfl

/-- A VID is live by a call that returned 0, or was before. -/
theorem VlanLog.live_of_step (t : VlanLog) (c : VlanCall) {vid : ℕ} {ports untagged : Finset ℕ}
    (h : (t.step c).vids vid = .live ports untagged) :
    (∃ ports untagged, t.vids vid = .live ports untagged) ∨
      vid = c.vid.toNat ∧ c.Enlivens ∧ (c.perform t.sdk).2 = .ok () := by
  rw [VlanLog.step] at h
  cases hp : c.perform t.sdk with
  | mk s rc =>
    rw [hp] at h
    cases rc with
    | error e => exact .inl ⟨ports, untagged, h⟩
    | ok u =>
      dsimp only at h
      by_cases hvid : vid = c.vid.toNat
      · refine .inr ⟨hvid, ?_, rfl⟩
        rw [hvid, Function.update_self] at h
        cases c with
        | destroy v => cases h
        | _ => trivial
      · rw [Function.update_of_ne hvid] at h
        exact .inl ⟨ports, untagged, h⟩

/-- Word 5 of the live VIDs. -/
def LiveFive (misc : BitVec 32) (b : Asic) (t : VlanLog) : Prop :=
  ∀ vid ports untagged, t.vids vid = .live ports untagged → FiveIs misc b vid

/-- One call, with MISC_CONTROL arriving and without. -/
theorem VlanCall.prog_arrived (t : VlanLog) (c : VlanCall)
    (hsame : SameButFive vlanTables b t.sdk.asic) (hlive : LiveFive misc b t) :
    let run := (c.prog t.sdk.vlans).runOn (Asic.sbusStep (arrived misc)) b
    run.1 = ((t.step c).sdk.vlans, (c.perform t.sdk).2) ∧
      SameButFive vlanTables run.2 (t.step c).sdk.asic ∧ LiveFive misc run.2 (t.step c) := by
  have haccess := c.prog_access t.sdk.vlans
  obtain ⟨hreply, hsame'⟩ := runOn_arrived misc
    (haccess.mono fun o ho => ho.table) hsame
  rw [c.prog_performs t.sdk, ← t.step_sdk c] at hreply hsame'
  refine ⟨hreply, hsame', fun vid ports untagged h => ?_⟩
  rcases t.live_of_step c h with ⟨ports', untagged', hold⟩ | ⟨rfl, hc, hok⟩
  · exact runOn_invariant (fiveIs_step misc vid) haccess (hlive vid ports' untagged' hold)
  · exact c.prog_five t.sdk.vlans hc b ((congrArg Prod.snd hreply).trans hok)

/-- A history of calls, with MISC_CONTROL arriving and without. -/
theorem vlanFile_arrived (t : VlanLog) (hsame : SameButFive vlanTables b t.sdk.asic)
    (hlive : LiveFive misc b t) (history : List VlanCall) :
    let run := (vlanFile.history t.sdk.vlans history).runOn (Asic.sbusStep (arrived misc)) b
    SameButFive vlanTables run.2 (History.run VlanLog.step t history).sdk.asic ∧
      LiveFive misc run.2 (History.run VlanLog.step t history) := by
  induction history generalizing t b with
  | nil => exact ⟨hsame, hlive⟩
  | cons c rest ih =>
    obtain ⟨hreply, hsame', hlive'⟩ := c.prog_arrived t hsame hlive
    have hprog : vlanFile.prog t.sdk.vlans c = c.prog t.sdk.vlans := rfl
    rw [Component.history, runOn_bind, hprog, hreply]
    dsimp only
    rw [runOn_bind]
    exact ih (t.step c) hsame' hlive'

theorem callAll_vlan (t : VlanLog) (history : List VlanCall) :
    (callAll VlanCall.perform t.sdk history).1 = (History.run VlanLog.step t history).sdk := by
  induction history generalizing t with
  | nil => rfl
  | cons c rest ih =>
    rw [callAll, ← t.step_sdk c]
    exact ih (t.step c)

theorem liveFive_init (misc : BitVec 32) (b a : Asic) : LiveFive misc b (VlanLog.init a) := by
  intro vid ports untagged h
  cases h

/-! ### On the stack -/

/-- A history on the stack, with the tables that the words leave as they arrive. -/
theorem vlanFile_stack (honest : ∀ k, (calls k).Honest) (hprov : Provides sdkTables bar s d)
    (hm : Mirrors calls a (k, d)) (history : List VlanCall) :
    ∃ b, SameButFive vlanTables b (History.run VlanLog.step (VlanLog.init a) history).sdk.asic ∧
      LiveFive (bar CMIC_MISC_CONTROL) b (History.run VlanLog.step (VlanLog.init a) history) ∧
      let run := (vlanFile.history vlansInit history).runOn (stackStep calls) (k, s)
      let sdk := callAll VlanCall.perform (.init a) history
      run.1 = (sdk.1.vlans, sdk.2) ∧ ∀ addr, ∀ index < sdkTables.size addr,
        run.2.2.space.mem (cellAddr addr index) = b.mem addr index := by
  have haccess := (history_each (A := vlanFile) (t := vlansInit) trivial history).mono
    fun o ho => VlanAccess.table ho
  obtain ⟨hreply, hmem⟩ := runOn_asic honest haccess hprov hm
  obtain ⟨hreply', -⟩ := runOn_arrived (bar CMIC_MISC_CONTROL) haccess (.refl _ a)
  have hruns := history_runOn (A := vlanFile) (fun s c => c.prog_performs s) (.init a) history
  obtain ⟨hsame, hlive⟩ := vlanFile_arrived (VlanLog.init a) (.refl _ a)
    (liveFive_init (bar CMIC_MISC_CONTROL) a a) history
  exact ⟨_, hsame, hlive, (hreply.trans hreply').trans (congrArg Prod.fst hruns), hmem⟩

/-- A history of calls of `vlan.c` on the stack returns what it returns on the chip of tables
and faults, and leaves the tables as there but for word 5 in VLAN and EGR_VLAN, whatever
accesses are lost. Word 5 of both entries of a live VID is MISC_CONTROL. -/
theorem vlan_on_stack (honest : ∀ k, (calls k).Honest) (hprov : Provides sdkTables bar s d)
    (hm : Mirrors calls a (k, d)) (history : List VlanCall) :
    let run := (vlanFile.history vlansInit history).runOn (stackStep calls) (k, s)
    let log := History.run VlanLog.step (VlanLog.init a) history
    let chip (addr : BitVec 32) (index : ℕ) := run.2.2.space.mem (cellAddr addr index)
    run.1 = (log.sdk.vlans, (callAll VlanCall.perform (.init a) history).2) ∧
      (∀ addr, ∀ index < sdkTables.size addr, ∀ i, i ≠ 5 ∨ addr ∉ vlanTables →
        chip addr index i = log.sdk.asic.mem addr index i) ∧
      ∀ vid < 4096, ∀ ports untagged, log.vids vid = .live ports untagged →
        chip VLAN_BASE vid 5 = bar CMIC_MISC_CONTROL ∧
          chip EGR_VLAN_BASE vid 5 = bar CMIC_MISC_CONTROL := by
  obtain ⟨b, hsame, hlive, hreply, hmem⟩ := vlanFile_stack honest hprov hm history
  have hsdk := callAll_vlan (VlanLog.init a) history
  refine ⟨hreply.trans ?_, fun addr index hindex i hi => ?_, fun vid hvid ports untagged h => ?_⟩
  · rw [← hsdk]
    rfl
  · dsimp only
    rw [hmem addr index hindex]
    exact hsame.mem addr index i hi
  · dsimp only
    rw [hmem _ vid (by rwa [size_vlan]), hmem _ vid (by rwa [size_egrVlan])]
    exact hlive vid ports untagged h

theorem vlan_on_stack_droppy :
    let history : List VlanCall := [.create 20, .portAdd 10 1 true, .portAdd 10 52 false,
      .destroy 20]
    let run := (vlanFile.history vlansInit history).runOn (stackStep droppyCalls)
      (0, blankChip)
    let log := History.run VlanLog.step (VlanLog.init droppyAsic) history
    let chip (addr : BitVec 32) (index : ℕ) := run.2.2.space.mem (cellAddr addr index)
    run.1 = (log.sdk.vlans, (callAll VlanCall.perform (.init droppyAsic) history).2) ∧
      (∀ addr, ∀ index < sdkTables.size addr, ∀ i, i ≠ 5 ∨ addr ∉ vlanTables →
        chip addr index i = log.sdk.asic.mem addr index i) ∧
      ∀ vid < 4096, ∀ ports untagged, log.vids vid = .live ports untagged →
        chip VLAN_BASE vid 5 = blankChip.reg CMIC_MISC_CONTROL ∧
          chip EGR_VLAN_BASE vid 5 = blankChip.reg CMIC_MISC_CONTROL :=
  vlan_on_stack droppyCalls_honest droppy_provides droppy_mirrors _

/-! ### What the chip reads in a live VLAN -/

/-- The two entries of a live VLAN, of which word 5 is MISC_CONTROL. -/
structure VlanArrives (misc : BitVec 32) (ing egr : Words) (ports untagged : Finset ℕ) : Prop where
  valid : vlanEntryValid ing = true
  stg : vlanEntryStg ing = 2
  portBitmap : ∀ p, (vlanPortBitmap ing).getLsbD p = decide (p ∈ ports)
  ingPortBitmap : ∀ p, (vlanIngPortBitmap ing).getLsbD p = decide (p ∈ ports)
  egrValid : egrVlanValid egr = true
  egrStg : egrVlanStg egr = 2
  egrPortBitmap : ∀ p, (egrVlanPortBitmap egr).getLsbD p =
    if p < 30 then misc.getLsbD (p + 2) else decide (p ∈ ports)
  utPortBitmap : ∀ p, (egrVlanUtPortBitmap egr).getLsbD p =
    if p = 64 ∨ p = 65 then misc.getLsbD (p - 64) else decide (p ∈ untagged)

theorem VlanDecodes.arrives {ports untagged : Finset ℕ} (h : VlanDecodes a vid ports untagged)
    (hsame : SameButFive vlanTables b a) (hfive : FiveIs misc b vid) :
    VlanArrives misc (b.mem VLAN_BASE vid) (b.mem EGR_VLAN_BASE vid) ports untagged where
  valid := (hsame.bit _ _ (by decide)).trans h.valid
  stg := (hsame.field _ _ (by decide)).trans h.stg
  portBitmap p := by
    rw [vlanPortBitmap, hsame.field _ _ (by decide)]
    exact h.portBitmap p
  ingPortBitmap p := by
    rw [vlanIngPortBitmap, hsame.field _ _ (by decide)]
    exact h.ingPortBitmap p
  egrValid := (hsame.bit _ _ (by decide)).trans h.egrValid
  egrStg := (hsame.field _ _ (by decide)).trans h.egrStg
  egrPortBitmap p := by
    have hp := h.egrPortBitmap p
    rw [egrVlanPortBitmap, getLsbD_field] at hp ⊢
    split_ifs with hlow
    · rw [bit_five hfive.2 (by omega), decide_eq_true (by omega), Bool.true_and]
      exact congrArg misc.getLsbD (by omega)
    · rw [← hp]
      by_cases hwide : p < 66
      · rw [hsame.bit _ _ (by omega)]
      · rw [decide_eq_false hwide, Bool.false_and, Bool.false_and]
  utPortBitmap p := by
    have hp := h.utPortBitmap p
    rw [egrVlanUtPortBitmap, getLsbD_field] at hp ⊢
    split_ifs with hhigh
    · rw [bit_five hfive.2 (by omega), decide_eq_true (by omega), Bool.true_and]
      exact congrArg misc.getLsbD (by omega)
    · rw [← hp]
      by_cases hwide : p < 66
      · rw [hsame.bit _ _ (by omega)]
      · rw [decide_eq_false hwide, Bool.false_and, Bool.false_and]

/-- A call returns 0 if and only if it is valid. -/
theorem callAll_answers {t : VlanLog} (h : VlanSound t) (history : List VlanCall) :
    List.Forall₂ (fun c rc => c.Valid ↔ rc = .ok ()) history
      (callAll VlanCall.perform t.sdk history).2 := by
  induction history generalizing t with
  | nil => exact .nil
  | cons c rest ih =>
    have hanswers := h.callAnswers c
    refine .cons ⟨hanswers.done, fun hok => by_contra fun hc => ?_⟩ ?_
    · rw [hanswers.rejected hc] at hok
      cases hok
    · rw [← t.step_sdk c]
      exact ih (h.step c)

/-- While every access succeeds, the calls with valid arguments and no others return 0, and
the chip reads a live VLAN as recorded but for the members 0 to 29 on egress, in whose place it
reads MISC_CONTROL. -/
theorem liveVlan_on_stack (honest : ∀ k, (calls k).Honest) (hreports : ∀ k o, (calls k).Reports o)
    (hidle : s.running = none) (k : ℕ) (history : List VlanCall) :
    let run := (vlanFile.history vlansInit history).runOn (stackStep calls) (k, s)
    let log := History.run VlanLog.step (VlanLog.init (asicOf s)) history
    List.Forall₂ (fun c rc => c.Valid ↔ rc = .ok ()) history run.1.2 ∧
      ∀ vid < 4096, ∀ ports untagged, log.vids vid = .live ports untagged →
        VlanArrives (s.reg CMIC_MISC_CONTROL) (run.2.2.space.mem (cellAddr VLAN_BASE vid))
          (run.2.2.space.mem (cellAddr EGR_VLAN_BASE vid)) ports untagged := by
  obtain ⟨b, hsame, hfive, hreply, hmem⟩ := vlanFile_stack honest (provides_ideal hidle)
    (mirrors_reporting hreports s k) history
  have hinit : VlanSound (VlanLog.init (asicOf s)) := VlanSound.init fun _ => rfl
  have hsound := (throughout_of_step (fun t c (h : VlanSound t) => h.step c) hinit history).final
  refine ⟨?_, fun vid hvid ports untagged hlive => ?_⟩
  · dsimp only
    rw [hreply]
    exact callAll_answers hinit history
  · have hdecodes := (hsound.vids vid).decodes
    rw [hlive] at hdecodes
    dsimp only
    rw [hmem _ vid (by rwa [size_vlan]), hmem _ vid (by rwa [size_egrVlan])]
    exact VlanDecodes.arrives hdecodes hsame (hfive vid ports untagged hlive)

/-- A VLAN with the ports 1 and 52, and a call for a port 53, on a chip whose MISC_CONTROL is
0: on egress only port 52 is a member. -/
theorem liveVlan_on_stack_two :
    let history : List VlanCall := [.portAdd 10 1 true, .portAdd 10 53 true, .portAdd 10 52 false]
    let run := (vlanFile.history vlansInit history).runOn (stackStep fun _ => promptCall)
      (0, blankChip)
    List.Forall₂ (fun c rc => c.Valid ↔ rc = .ok ()) history run.1.2 ∧
      VlanArrives 0 (run.2.2.space.mem (cellAddr VLAN_BASE 10))
        (run.2.2.space.mem (cellAddr EGR_VLAN_BASE 10)) {52, 1} {52} := by
  obtain ⟨hanswers, harrives⟩ := liveVlan_on_stack (s := blankChip) (fun _ => promptCall_honest)
    (fun _ => promptCall_reports) rfl 0
    [.portAdd 10 1 true, .portAdd 10 53 true, .portAdd 10 52 false]
  exact ⟨hanswers, harrives 10 (by decide) {52, 1} {52} rfl⟩

end OpenNos.Sdk
