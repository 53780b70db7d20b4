import OpenNos.Sdk.DatapathReport
import OpenNos.Sdk.SbusTables

/-! The datapath initialisation, traversed once. A property that sequences of accesses have
if their parts do, and that the accesses to registers and to the tables of
`init_datapath.c` have, holds of the whole initialisation. -/

namespace OpenNos.Sdk

open Bits OpProg Bde

/-- An access within a table of the initialisation. -/
def InInitTable (addr : BitVec 32) (index nwords : ℕ) : Prop :=
  index < sizeIn initTables addr ∧ nwords ≤ 14

instance (addr : BitVec 32) (index nwords : ℕ) : Decidable (InInitTable addr index nwords) :=
  inferInstanceAs (Decidable (_ ∧ _))

/-- What `portTabEntry` clears and sets, word by word. -/
def portTabClear : ℕ → BitVec 32
  | 0 => (0x7 <<< 10 ||| 1 <<< 2) ||| 0xfc000000
  | 1 => 0x3f
  | 3 => 1 <<< 8
  | 4 => 0xfffffe00
  | 5 => 0x1
  | _ => 0

def portTabSet : ℕ → BitVec 32
  | 0 => 1 <<< 26
  | _ => 0

def egrPortClear : ℕ → BitVec 32
  | 0 => 0x7
  | _ => 0

/-- A property of programs that all the initialisation is made of has. -/
structure InitClosed (P : ∀ α : Type, Sbus α → Prop) : Prop extends Closed P where
  regWrite : ∀ addr value, P Bool (sbusRegWrite addr value)
  regWrite64 : ∀ addr data, P Bool (sbusRegWrite64 addr data)
  regModify : ∀ addr mask value, P Bool (sbusRegModify addr mask value)
  look : ∀ {α β : Type} {p : Sbus α} (addr : BitVec 32) (g : α → β), P α p → P β (do
    let a ← p
    let _ ← perform (.regRead64 addr)
    return g a)
  /-- go on unless the write fails -/
  guarded : ∀ {α : Type} {q : Sbus α} (addr value : BitVec 32) (a : α), P α q → P α (do
    let ok ← sbusRegWrite addr value
    if ok then q else return a)
  /-- go on unless the result is negative, which it is not -/
  phase : ∀ {init rest : Sbus ℤ}, init.Returns (· = 0) → P ℤ init → P ℤ rest →
    P ℤ (phase init rest)
  memWrite : ∀ {addr index nwords} data, InInitTable addr index nwords →
    P Bool (sbusMemWrite addr index data nwords)
  update : ∀ {addr index nwords} {f : Words → Words} (clear set : ℕ → BitVec 32),
    InInitTable addr index nwords → (∀ w j, f w j = w j &&& ~~~clear j ||| set j) →
    P Unit (sbusMemRead addr index nwords >>= fun entry =>
      discard (sbusMemWrite addr index (f (entry.getD fun _ => 0)) nwords))

theorem and_allOnes32 (x : BitVec 32) : x &&& 4294967295#32 = x := BitVec.and_allOnes

theorem portTabEntry_word (w : Words) (j : ℕ) :
    portTabEntry w j = w j &&& ~~~portTabClear j ||| portTabSet j := by
  rcases j with _ | _ | _ | _ | _ | _ | j <;>
    simp [portTabEntry, portTabClear, portTabSet, BitVec.and_assoc, and_allOnes32]

theorem egrPortEntry_word (w : Words) (j : ℕ) :
    egrPortEntry w j = w j &&& ~~~egrPortClear j ||| 0 := by
  rcases j with _ | j <;> simp [egrPortEntry, egrPortClear, and_allOnes32]

namespace InitClosed

variable {P : ∀ α : Type, Sbus α → Prop} (c : InitClosed P)
include c

/-! ### Loops -/

theorem allPorts {access : BitVec 32 → Sbus Bool} (h : ∀ p, P Bool (access p)) :
    P Bool (allPortsRc access) :=
  c.fold _ (fun _ => h _) _ true

theorem ports {lo hi : ℕ} {body : BitVec 32 → Sbus Unit} (h : ∀ p, P Unit (body p)) :
    P Unit (forPorts lo hi body) := c.forM fun _ _ => h _

theorem writeAllports (base value : BitVec 32) : P Unit (discard (regWriteAllports base value)) :=
  c.discard (c.allPorts fun _ => c.regWrite _ _)

theorem modifyAllports (base mask value : BitVec 32) :
    P Unit (discard (regModifyAllports base mask value)) :=
  c.discard (c.allPorts fun _ => c.regModify _ _ _)

theorem write64Allports (base : BitVec 32) (data : Words) :
    P Unit (discard (regWrite64Allports base data)) :=
  c.discard (c.allPorts fun _ => c.regWrite64 _ _)

theorem write (addr value : BitVec 32) : P Unit (discard (sbusRegWrite addr value)) :=
  c.discard (c.regWrite _ _)

theorem write64 (addr : BitVec 32) (data : Words) : P Unit (discard (sbusRegWrite64 addr data)) :=
  c.discard (c.regWrite64 _ _)

theorem modify (addr mask value : BitVec 32) :
    P Unit (discard (sbusRegModify addr mask value)) := c.discard (c.regModify _ _ _)

theorem put {addr : BitVec 32} {index nwords : ℕ} (h : InInitTable addr index nwords)
    (data : Words) : P Unit (discard (sbusMemWrite addr index data nwords)) :=
  c.discard (c.memWrite _ h)

/-- The first entries of a table are given one content. -/
theorem fill {addr : BitVec 32} {count nwords : ℕ} (hcount : count ≤ sizeIn initTables addr)
    (hn : nwords ≤ 14) (data : Words) :
    P Unit ((List.range count).forM fun i => discard (sbusMemWrite addr i data nwords)) :=
  c.forM fun _ hi => c.put ⟨(List.mem_range.mp hi).trans_le hcount, hn⟩ data

theorem updateEntries {addr : BitVec 32} {count nwords : ℕ} {f : Words → Words}
    (hcount : count ≤ sizeIn initTables addr) (hn : nwords ≤ 14) (clear set : ℕ → BitVec 32)
    (hf : ∀ w j, f w j = w j &&& ~~~clear j ||| set j) :
    P Unit (updateEntries addr count nwords f) :=
  c.forM fun _ hi => c.update clear set ⟨(List.mem_range.mp hi).trans_le hcount, hn⟩ hf

/-! ### Phases -/

theorem pgMinCells (addr cpu xe qsfp : BitVec 32) : P Unit (pgMinCells addr cpu xe qsfp) :=
  c.seq (c.write _ _) <| c.seq (c.ports fun _ => c.write _ _) <|
    c.ports fun _ => c.write _ _

theorem initIngressBuffers : P ℤ initIngressBuffers := by
  unfold Sdk.initIngressBuffers
  repeat' with_reducible first
    | refine c.seq ?_ ?_
    | exact c.write _ _
    | exact c.writeAllports _ _
    | exact c.pgMinCells _ _ _ _
  · exact c.ports fun _ => c.forM fun _ _ => c.seq (c.write _ _) <| c.write _ _
  · exact c.pure _

theorem initPriorityMapping : P ℤ initPriorityMapping := by
  unfold Sdk.initPriorityMapping
  have hsize : sizeIn initTables ING_PRI_CNG_MAPm = 1024 := by decide
  refine c.seq (c.modify _ _ _) <| c.seq (c.fill (by decide) (by decide) _) <|
    c.seq (c.fill hsize.ge (by decide) _) <| c.seq (c.forM fun ⟨idx, count, pri⟩ he => ?_) <|
    c.seq (c.writeAllports _ _) <| c.seq (c.writeAllports _ _) <|
    c.seq (c.writeAllports _ _) <| c.seq (c.write _ _) <|
    c.seq (c.modifyAllports _ _ _) <| c.seq (c.modify _ _ _) <| c.pure _
  have hlast : idx + count ≤ 1024 := (by decide : ∀ e ∈ priMap, e.1 + e.2.1 ≤ 1024) _ he
  refine c.forM fun j hj => c.put ⟨?_, by decide⟩ _
  have := List.mem_range.mp hj
  omega

theorem initForwarding : P ℤ initForwarding := by
  unfold Sdk.initForwarding
  repeat' with_reducible first
    | refine c.seq ?_ ?_
    | exact c.write _ _
    | exact c.modify _ _ _
  · exact c.updateEntries (by decide) (by decide) _ _ portTabEntry_word
  · exact c.pure _

theorem initCpuQueue (q : CpuQueue) : P Unit (initCpuQueue q) := by
  unfold Sdk.initCpuQueue
  refine c.seq (c.modify _ _ _) <| ?_
  split_ifs
  · exact c.modify _ _ _
  · exact c.pure _

theorem initEgressConfig : P ℤ initEgressConfig := by
  unfold Sdk.initEgressConfig
  repeat' with_reducible first
    | refine c.seq ?_ ?_
    | exact c.write _ _
    | exact c.modify _ _ _
    | exact c.writeAllports _ _
  · exact c.fill (by decide) (by decide) _
  · exact c.fill (by decide) (by decide) _
  · have hsize : ∀ e ∈ cosEntries, e.1 < sizeIn initTables PORT_COS_MAPm := by decide
    exact c.forM fun e he => c.put ⟨hsize e he, by decide⟩ _
  · have hsize : ∀ e ∈ cpuCos, e.1 < sizeIn initTables CPU_COS_MAPm := by decide
    exact c.forM fun e he => c.put ⟨hsize e he, by decide⟩ _
  · exact c.ports fun _ => c.seq (c.modify _ _ _) <| c.modify _ _ _
  · exact c.ports fun _ => c.seq (c.modify _ _ _) <| c.modify _ _ _
  · exact c.forM fun q _ => c.initCpuQueue q
  · exact c.pure _

theorem thdoZeroTable {addr : BitVec 32} {count nwords : ℕ}
    (hcount : count ≤ sizeIn initTables addr) : P Unit (thdoZeroTable addr count nwords) :=
  c.fill hcount (by omega) _

/-- The queues of a COS below ten. -/
theorem thdoStride {cos count : ℕ} {body : ℕ → Sbus Unit} (hcos : cos < 10)
    (h : ∀ i < 10 * count, P Unit (body i)) : P Unit (thdoStride cos count body) :=
  c.forM fun i hi => h _ (by have := List.mem_range.mp hi; omega)

theorem thdoWriteConfig {addr : BitVec 32} {index : ℕ} (h : index < sizeIn initTables addr)
    (qMin qShared enable dynamic color : BitVec 32) :
    P Unit (thdoWriteConfig addr index qMin qShared enable dynamic color) :=
  c.put ⟨h, by decide⟩ _

theorem thdoWriteQdrprst {addr : BitVec 32} {index : ℕ} (h : index < sizeIn initTables addr)
    (resetVal : BitVec 32) : P Unit (thdoWriteQdrprst addr index resetVal) :=
  c.put ⟨h, by decide⟩ _

theorem thdoUcCos {cos : ℕ} (hcos : cos < 10) : P Unit (thdoUcCos cos) := by
  refine c.seq (c.thdoStride hcos fun i hi => ?_) <|
    c.seq (c.thdoStride hcos fun i hi => ?_) <|
    c.seq (c.thdoStride hcos fun i hi => ?_) <| c.thdoStride hcos fun i hi => ?_
  · exact c.seq (c.thdoWriteConfig (hi.trans_le (by decide)) _ _ _ _ _) <|
      c.thdoWriteConfig (hi.trans_le (by decide)) _ _ _ _ _
  · exact c.seq (c.thdoWriteConfig (hi.trans_le (by decide)) _ _ _ _ _) <|
      c.thdoWriteConfig (hi.trans_le (by decide)) _ _ _ _ _
  · exact c.seq (c.thdoWriteQdrprst (hi.trans_le (by decide)) _) <|
      c.thdoWriteQdrprst (hi.trans_le (by decide)) _
  · exact c.seq (c.thdoWriteQdrprst (hi.trans_le (by decide)) _) <|
      c.thdoWriteQdrprst (hi.trans_le (by decide)) _

theorem initThdoTables : P ℤ initThdoTables := by
  unfold Sdk.initThdoTables
  have hlimit : ∀ pool limit resume, P Unit (sharedLimit pool limit resume) :=
    fun _ _ _ => c.seq (c.write _ _) <| c.write _ _
  have hcos : ∀ cos ∈ [0, 1, 3, 4, 5, 6], cos < 10 := by decide
  repeat' with_reducible first
    | refine c.seq ?_ ?_
    | exact hlimit _ _ _
    | exact c.forM fun cos h => c.thdoUcCos (hcos cos h)
    | exact c.pure _
  all_goals exact c.thdoZeroTable (by decide)

theorem initScheduling : P ℤ initScheduling := by
  unfold Sdk.initScheduling
  repeat' with_reducible first
    | refine c.seq ?_ ?_
    | exact c.write _ _
    | exact c.modify _ _ _
    | exact c.writeAllports _ _
    | exact c.write64Allports _ _
    | exact c.forM fun _ _ => c.write64Allports _ _
    | exact c.forM fun _ _ => c.writeAllports _ _
    | exact c.ports fun _ => c.write _ _
    | exact c.ports fun _ => c.modify _ _ _
  exact c.pure _

theorem xportResetBlock (blk : ℕ) : P Bool (xportResetBlock blk) := by
  unfold Sdk.xportResetBlock
  refine c.guarded _ _ _ ?_
  repeat' with_reducible first
    | refine c.seq ?_ ?_
    | exact c.write _ _
  exact c.pure _

theorem initXportReset : P ℤ initXportReset := c.look _ _ (c.fold _ c.xportResetBlock _ 0)

theorem initPortPipeline : P ℤ initPortPipeline := by
  unfold Sdk.initPortPipeline
  refine c.seq (c.put (by decide) _) <| c.seq (c.put (by decide) _) <|
    c.seq (c.forM fun _ _ => c.write64 _ _) <|
    c.seq (c.forM fun _ _ => c.write64 _ _) <|
    c.seq (c.updateEntries (by decide) (by decide) _ _ egrPortEntry_word) <|
    c.seq (c.write _ _) <| c.pure _

theorem initVlanPhase : P ℤ initVlanPhase := by
  unfold Sdk.initVlanPhase
  have hcount : ∀ i ∈ List.range 67, i < 67 := fun i hi => List.mem_range.mp hi
  refine c.seq (c.put (by decide) _) <| c.seq (c.put (by decide) _) <|
    c.seq (c.put (by decide) _) <| c.seq (c.forM fun i hi => ?_) <| c.pure _
  exact c.seq (c.put ⟨(hcount i hi).trans_le (by decide), by decide⟩ _) <|
    c.put ⟨(hcount i hi).trans_le (by decide), by decide⟩ _

/-- The whole initialisation. -/
theorem datapathInit : P ℤ datapathInit :=
  c.phase initIngressBuffers_returns c.initIngressBuffers <|
  c.phase initPriorityMapping_returns c.initPriorityMapping <|
  c.phase initForwarding_returns c.initForwarding <|
  c.phase initEgressConfig_returns c.initEgressConfig <|
  c.phase initThdoTables_returns c.initThdoTables <|
  c.phase initScheduling_returns c.initScheduling <| c.seq c.initXportReset <|
  c.phase initPortPipeline_returns c.initPortPipeline <|
  c.phase initVlanPhase_returns c.initVlanPhase <| c.pure _

end InitClosed

end OpenNos.Sdk
