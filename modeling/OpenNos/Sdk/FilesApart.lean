import OpenNos.Sdk.ChipCells
import OpenNos.Sdk.EcmpOnStack
import OpenNos.Sdk.L2OnStack
import OpenNos.Sdk.L3OnStack
import OpenNos.Sdk.VlanOnStack

/-! The table code of the SDK as a whole. `l2.c`, `vlan.c`, `l3.c` and `ecmp.c` share the
stack and nothing else; their calls come in any order. Each file is a component, and no two
of them touch the same table, so that what is settled of the calls of one file holds of them
among the calls of the others. -/

namespace OpenNos.Sdk

open Bits OpProg Component Bde

inductive SdkFile
  | l2
  | vlan
  | l3
  | ecmp
  deriving DecidableEq

namespace SdkFile

abbrev component : SdkFile → Component SbusOp (Option Words)
  | l2 => l2File
  | vlan => vlanFile
  | l3 => l3File
  | ecmp => ecmpFile

/-- The static variables before any call. -/
def init : ∀ f : SdkFile, f.component.State
  | l2 => ()
  | vlan => vlansInit
  | l3 => L3Arrays.init
  | ecmp => EcmpArrays.init

def tables : SdkFile → Set (BitVec 32)
  | l2 => l2Tables
  | vlan => vlanTables
  | l3 => l3Tables
  | ecmp => ecmpTables

/-- The tables of which word 5 is written. -/
def long : SdkFile → Set (BitVec 32)
  | l2 => ∅
  | vlan => vlanTables
  | l3 => {L3_DEFIP_BASE}
  | ecmp => {L3_ECMP_GROUP_BASE}

theorem access (f : SdkFile) (o : SbusOp) (h : f.component.Ok o) :
    TableAccess sdkTables f.tables f.long o := by
  cases f with
  | l2 => exact h
  | vlan => exact VlanAccess.table h
  | l3 => exact h
  | ecmp => exact EcmpAccess.table h

theorem inv_init (f : SdkFile) : f.component.Inv f.init := by
  cases f with
  | ecmp => exact init_inRange
  | _ => trivial

/-- The file a table belongs to. -/
def owner (addr : BitVec 32) : SdkFile :=
  if addr = L2_ENTRY_BASE ∨ addr = L2_USER_ENTRY_BASE then l2
  else if addr = VLAN_BASE ∨ addr = EGR_VLAN_BASE then vlan
  else if addr = L3_ECMP_BASE ∨ addr = L3_ECMP_GROUP_BASE then ecmp
  else l3

theorem owner_of_mem {f : SdkFile} {addr : BitVec 32} (h : addr ∈ f.tables) : owner addr = f := by
  cases f with
  | l2 => rcases h with rfl | rfl <;> decide
  | vlan => rcases h with rfl | rfl <;> decide
  | l3 => rcases h with rfl | rfl | rfl | rfl <;> decide
  | ecmp => rcases h with rfl | rfl <;> decide

/-- No table belongs to two files. -/
theorem cells_apart {f g : SdkFile} {c : ChipCell} (hf : c ∈ tableCells f.tables)
    (hg : c ∈ tableCells g.tables) : f = g := by
  obtain ⟨addr, haddr, index, rfl⟩ := hf
  obtain ⟨addr', haddr', index', heq⟩ := hg
  obtain ⟨rfl, -⟩ := ChipCell.entry.inj heq
  exact (owner_of_mem haddr).symm.trans (owner_of_mem haddr')

end SdkFile

/-! ### Calls in any order -/

variable {calls : ℕ → SbusCall} {s : SbusChip}

/-- While every access succeeds, the calls of one file among those of the others return what
they return when made alone, and leave the arrays and the tables of the file as then. -/
theorem files_apart (honest : ∀ k, (calls k).Honest) (hreports : ∀ k o, (calls k).Reports o)
    (hidle : s.running = none) (k : ℕ) (f : SdkFile)
    (history : List (Σ f, (SdkFile.component f).Call)) :
    let run := (session SdkFile.component SdkFile.init history).runOn (stackStep calls) (k, s)
    let ownCalls := Component.own (F := fun f => (SdkFile.component f).Call) f history
    let alone := (f.component.history f.init ownCalls).runOn (stackStep calls) (k, s)
    run.1.1 f = alone.1.1 ∧ Component.own f run.1.2 = alone.1.2 ∧
      ∀ table ∈ f.tables, ∀ index < sdkTables.size table,
        run.2.2.space.mem (cellAddr table index) = alone.2.2.space.mem (cellAddr table index) := by
  have hsession := (session_each (A := SdkFile.component) SdkFile.inv_init history).mono
    fun o ⟨g, ho⟩ => (g.access o ho).within
  have halone := (history_each (A := f.component) f.inv_init
    (Component.own (F := fun f => (SdkFile.component f).Call) f history)).mono
    fun o ho => (f.access o ho).within
  obtain ⟨hreply, -, hmem⟩ := runOn_cells honest hreports hidle k hsession
  obtain ⟨hreply', -, hmem'⟩ := runOn_cells honest hreports hidle k halone
  have hwithin (g : SdkFile) (o : SbusOp) (ho : g.component.Ok o) :
      (chipDevice (s.reg CMIC_MISC_CONTROL)).Within (tableCells g.tables) o :=
    (g.access o ho).touches _
  obtain ⟨hstate, hreplies, hcells⟩ := session_own hwithin SdkFile.cells_apart SdkFile.inv_init f
    (Set.eqOn_refl (cellsOf s) (tableCells f.tables)) history
  dsimp only
  rw [hreply, hreply']
  refine ⟨hstate, hreplies, fun table htable index hindex => ?_⟩
  rw [hmem table index hindex, hmem' table index hindex, hcells ⟨table, htable, index, rfl⟩]

/-- A VLAN made between calls of other files. -/
theorem files_apart_vlan :
    let history : List (Σ f, (SdkFile.component f).Call) := [⟨.l2, .host (.add stationA)⟩,
      ⟨.vlan, .portAdd 10 1 true⟩, ⟨.ecmp, .create (fun _ => 7) 2⟩,
      ⟨.l3, .route (.routeAdd tenSlash8)⟩, ⟨.vlan, .portAdd 10 2 false⟩]
    let run := (session SdkFile.component SdkFile.init history).runOn
      (stackStep fun _ => promptCall) (0, blankChip)
    let alone := (vlanFile.history vlansInit [.portAdd 10 1 true, .portAdd 10 2 false]).runOn
      (stackStep fun _ => promptCall) (0, blankChip)
    run.1.1 .vlan = alone.1.1 ∧ Component.own SdkFile.vlan run.1.2 = alone.1.2 ∧
      ∀ table ∈ vlanTables, ∀ index < sdkTables.size table,
        run.2.2.space.mem (cellAddr table index) = alone.2.2.space.mem (cellAddr table index) :=
  files_apart (fun _ => promptCall_honest) (fun _ => promptCall_reports) rfl 0 .vlan _

end OpenNos.Sdk
