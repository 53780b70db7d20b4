import OpenNos.Bde.Sbus
import OpenNos.Lib.OpProg
import OpenNos.Sdk.Port
import OpenNos.Sdk.VlanForwarding

/-! The datapath initialisation (`init_datapath.c`), phase by phase, as a program over
S-Channel operations. The reply to an operation is its data, or nothing where the
accessor of `sbus.c` returns an error. Where the code drops a return value the program
discards it. -/

namespace OpenNos.Sdk

open Bits OpProg Bde

/-- One S-Channel operation. -/
inductive SbusOp
  | regRead (addr : BitVec 32)
  | regWrite (addr value : BitVec 32)
  | regRead64 (addr : BitVec 32)
  | regWrite64 (addr : BitVec 32) (data : Words)
  | memRead (addr : BitVec 32) (index nwords : ℕ)
  | memWrite (addr : BitVec 32) (index : ℕ) (data : Words) (nwords : ℕ)

def SbusOp.isWrite : SbusOp → Bool
  | .regWrite .. | .regWrite64 .. | .memWrite .. => true
  | .regRead .. | .regRead64 .. | .memRead .. => false

/-- Programs over the S-Channel; an operation that fails has no reply. -/
abbrev Sbus := OpProg SbusOp (Option Words)

/-! ### Accessors -/

/-- Whether the accessor returns 0. -/
def sbusRegWrite (addr value : BitVec 32) : Sbus Bool := do
  let reply ← perform (.regWrite addr value)
  return reply.isSome

def sbusRegWrite64 (addr : BitVec 32) (data : Words) : Sbus Bool := do
  let reply ← perform (.regWrite64 addr data)
  return reply.isSome

def sbusMemWrite (addr : BitVec 32) (index : ℕ) (data : Words) (nwords : ℕ) : Sbus Bool := do
  let reply ← perform (.memWrite addr index data nwords)
  return reply.isSome

def sbusMemRead (addr : BitVec 32) (index nwords : ℕ) : Sbus (Option Words) :=
  perform (.memRead addr index nwords)

def sbusRegModify (addr mask value : BitVec 32) : Sbus Bool := do
  match ← perform (.regRead addr) with
  | none => return false
  | some cur => sbusRegWrite addr ((cur 0 &&& ~~~mask) ||| (value &&& mask))

def PORT_MAX : ℕ := 52

/-- An access at every port, the CPU first; whether all of them return 0. -/
def allPortsRc (access : BitVec 32 → Sbus Bool) : Sbus Bool :=
  (List.range (PORT_MAX + 1)).foldlM (fun rc p => do
    let ok ← access (BitVec.ofNat 32 p)
    return rc && ok) true

def regWriteAllports (base value : BitVec 32) : Sbus Bool :=
  allPortsRc fun p => sbusRegWrite (cdkPortAddr base p) value

def regModifyAllports (base mask value : BitVec 32) : Sbus Bool :=
  allPortsRc fun p => sbusRegModify (cdkPortAddr base p) mask value

def regWrite64Allports (base : BitVec 32) (data : Words) : Sbus Bool :=
  allPortsRc fun p => sbusRegWrite64 (cdkPortAddr base p) data

/-- A loop over the ports `lo` to `hi`. -/
def forPorts (lo hi : ℕ) (body : BitVec 32 → Sbus Unit) : Sbus Unit :=
  (List.range' lo (hi + 1 - lo)).forM fun p => body (BitVec.ofNat 32 p)

/-- The first words of an entry, the rest zero. -/
def word (v : BitVec 32) : Words := wordsOf [v]

/-! ### Registers and tables -/

def BUFFER_CELL_LIMIT_SPr : BitVec 32 := 0x0238010a

def BUFFER_CELL_LIMIT_SP_SHAREDr : BitVec 32 := 0x0238010e

def CELL_RESET_LIMIT_OFFSET_SPr : BitVec 32 := 0x02380114

def PG_MIN_CELLr : BitVec 32 := 0x02300050

def PG_HDRM_LIMIT_CELLr : BitVec 32 := 0x02300060

def PG_SHARED_LIMIT_CELLr : BitVec 32 := 0x02300023

def GLOBAL_HDRM_LIMITr : BitVec 32 := 0x02380002

def USE_SP_SHAREDr : BitVec 32 := 0x02380132

def COLOR_AWAREr : BitVec 32 := 0x02380131

def PORT_PG_SPIDr : BitVec 32 := 0x02300073

def PORT_PRI_GRP0r : BitVec 32 := 0x02300070

def PORT_PRI_GRP1r : BitVec 32 := 0x02300071

def PORT_PRI_XON_ENABLEr : BitVec 32 := 0x02300072

def PORT_MAX_PKT_SIZEr : BitVec 32 := 0x02300022

def PORT_MAX_SHARED_CELLr : BitVec 32 := 0x02300021

def PORT_MIN_CELLr : BitVec 32 := 0x02300020

def PORT_MIN_PG_ENABLEr : BitVec 32 := 0x02300137

def PORT_SHARED_MAX_PG_ENABLEr : BitVec 32 := 0x02300136

def EGR_VLAN_CONTROL_1r : BitVec 32 := 0x01200606

def ING_UNTAGGED_PHBm : BitVec 32 := 0x0c172000

def ING_PRI_CNG_MAPm : BitVec 32 := 0x0c170000

def PRIO2COS_LLFC0r : BitVec 32 := 0x15380000

def XMAC_PFC_CTRLr : BitVec 32 := 0x0050060e

def XLPORT_CONFIGr : BitVec 32 := 0x00500200

def HASH_CONTROLr : BitVec 32 := 0x05180640

def RTAG7_HASH_SEED_Ar : BitVec 32 := 0x05180615

def RTAG7_HASH_ECMPr : BitVec 32 := 0x0b180600

def RTAG7_HASH_CONTROL_3r : BitVec 32 := 0x0518061a

def RTAG7_HASH_FIELD_BMAP_1r : BitVec 32 := 0x0518060c

def RTAG7_HASH_FIELD_BMAP_2r : BitVec 32 := 0x0518060d

def RTAG7_IPV4_TCP_UDP_HASH_FIELD_BMAP_1r : BitVec 32 := 0x0518061b

def RTAG7_IPV4_TCP_UDP_HASH_FIELD_BMAP_2r : BitVec 32 := 0x0518061c

def RTAG7_IPV6_TCP_UDP_HASH_FIELD_BMAP_1r : BitVec 32 := 0x0518061d

def RTAG7_IPV6_TCP_UDP_HASH_FIELD_BMAP_2r : BitVec 32 := 0x0518061e

def CPU_CONTROL_1r : BitVec 32 := 0x0c180603

def AUX_ARB_CONTROLr : BitVec 32 := 0x00180700

def PORT_TABm : BitVec 32 := 0x01160000

def ING_COS_MODEr : BitVec 32 := 0x0f100677

def COS_MODE_Xr : BitVec 32 := 0x1f380032

def COS_MODE_Yr : BitVec 32 := 0x1f380034

def COS_MAP_SELm : BitVec 32 := 0x0f17b000

def PORT_COS_MAPm : BitVec 32 := 0x0f173800

def CPU_COS_MAPm : BitVec 32 := 0x0f174000

def ES_QUEUE_TO_PRIOr : BitVec 32 := 0x06380080

def COSMASKr : BitVec 32 := 0x06300020

def ES_TDM_CONFIGr : BitVec 32 := 0x06380022

def OP_QUEUE_CONFIG_CELLr : BitVec 32 := 0x03300100

def OP_QUEUE_CONFIG1_CELLr : BitVec 32 := 0x03300140

def OP_QUEUE_RESET_OFFSET_CELLr : BitVec 32 := 0x03300200

def OP_PORT_CONFIG_CELLr : BitVec 32 := 0x03300020

def OP_PORT_CONFIG1_CELLr : BitVec 32 := 0x03300028

def OP_UC_PORT_CONFIG_CELLr : BitVec 32 := 0x03300024

def OP_UC_PORT_CONFIG1_CELLr : BitVec 32 := 0x03300029

def OP_BUFFER_SHARED_LIMIT_CELLr : BitVec 32 := 0x03380004

def OP_BUFFER_SHARED_LIMIT_RESUME_CELLr : BitVec 32 := 0x03380080

def OP_VOQ_PORT_CONFIGr : BitVec 32 := 0x03380014

def OVQ_FLOWCONTROL_THRESHOLDr : BitVec 32 := 0x1f380008

def THDO_CONFIG_0Am : BitVec 32 := 0x03300800

def THDO_CONFIG_0Bm : BitVec 32 := 0x03301000

def MMU_THDO_CONFIG_SP_0m : BitVec 32 := 0x0330c000

def MMU_THDO_CONFIG_SP_1m : BitVec 32 := 0x0330c800

def MMU_THDO_QDRPRST_0m : BitVec 32 := 0x03319000

def MMU_THDO_QDRPRST_1m : BitVec 32 := 0x03319800

def MMU_THDO_QDRPRST_SP_0m : BitVec 32 := 0x0331b000

def MMU_THDO_QDRPRST_SP_1m : BitVec 32 := 0x0331b800

def EPC_LINK_BMAPm : BitVec 32 := 0x0f178800

def ING_EN_EFILTER_BITMAPm : BitVec 32 := 0x0f178000

def EGR_PORTm : BitVec 32 := 0x0126e000

def IFP_METER_PARITY_CONTROLr : BitVec 32 := 0x0a400000

def S3_CONFIGr : BitVec 32 := 0x19300000

def S3_CONFIG_MCr : BitVec 32 := 0x19300001

def S3_COSWEIGHTSr : BitVec 32 := 0x19300010

def S3_MINSPCONFIGr : BitVec 32 := 0x193000c0

def S2_CONFIGr : BitVec 32 := 0x1a300000

def S2_COSWEIGHTSr : BitVec 32 := 0x1a300010

def S2_MINSPCONFIGr : BitVec 32 := 0x1a3000c0

def S2_S3_ROUTINGr : BitVec 32 := 0x1a3000e0

def ESCONFIGr : BitVec 32 := 0x06300000

def COSWEIGHTSr : BitVec 32 := 0x06300100

def MINSPCONFIGr : BitVec 32 := 0x06300050

/-! ### Phase 1: ingress buffers -/

/-- A minimum for the CPU, the 10G ports and the 40G ports. -/
def pgMinCells (addr cpu xe qsfp : BitVec 32) : Sbus Unit := do
  discard <| sbusRegWrite (cdkPortAddr addr 0) cpu
  forPorts 1 48 fun p => discard <| sbusRegWrite (cdkPortAddr addr p) xe
  forPorts 49 52 fun p => discard <| sbusRegWrite (cdkPortAddr addr p) qsfp

def initIngressBuffers : Sbus ℤ := do
  discard <| sbusRegWrite COLOR_AWAREr 0
  discard <| regWriteAllports PORT_PG_SPIDr (2 <<< 4 ||| 1 <<< 14)
  discard <| sbusRegWrite (BUFFER_CELL_LIMIT_SPr + 0) 0
  discard <| sbusRegWrite (BUFFER_CELL_LIMIT_SPr + 1) 1382
  discard <| sbusRegWrite (BUFFER_CELL_LIMIT_SPr + 2) 921
  discard <| sbusRegWrite (BUFFER_CELL_LIMIT_SPr + 3) 0
  discard <| sbusRegWrite (CELL_RESET_LIMIT_OFFSET_SPr + 0) 0
  discard <| sbusRegWrite (CELL_RESET_LIMIT_OFFSET_SPr + 1) 100
  discard <| sbusRegWrite (CELL_RESET_LIMIT_OFFSET_SPr + 2) 100
  discard <| sbusRegWrite (CELL_RESET_LIMIT_OFFSET_SPr + 3) 0
  discard <| sbusRegWrite BUFFER_CELL_LIMIT_SP_SHAREDr 22742
  discard <| regWriteAllports PORT_SHARED_MAX_PG_ENABLEr 0
  discard <| regWriteAllports PORT_MAX_SHARED_CELLr 0
  discard <| regWriteAllports PORT_MIN_PG_ENABLEr 0
  discard <| regWriteAllports PORT_MIN_CELLr 0
  forPorts 0 PORT_MAX fun p => (List.range 8).forM fun pg => do
    discard <| sbusRegWrite (cdkPortAddr (PG_MIN_CELLr + BitVec.ofNat 32 pg) p) 0
    discard <| sbusRegWrite (cdkPortAddr (PG_HDRM_LIMIT_CELLr + BitVec.ofNat 32 pg) p) 0
  pgMinCells PG_MIN_CELLr 45 288 1152
  discard <| regWriteAllports PG_SHARED_LIMIT_CELLr 4548
  pgMinCells (PG_MIN_CELLr + 2) 45 1 4
  discard <| regWriteAllports (PG_SHARED_LIMIT_CELLr + 2) 909
  pgMinCells (PG_MIN_CELLr + 7) 45 1 4
  discard <| regWriteAllports (PG_SHARED_LIMIT_CELLr + 7) 10006
  discard <| sbusRegWrite USE_SP_SHAREDr 0x7
  discard <| sbusRegWrite GLOBAL_HDRM_LIMITr 2340
  discard <| regWriteAllports PORT_MAX_PKT_SIZEr 45
  return 0

/-! ### Phase 2: priority mapping and flow control -/

/-- First index, number of entries and priority. -/
def priMap : List (ℕ × ℕ × BitVec 32) :=
  [(0, 2, 0), (2, 2, 1), (4, 2, 2), (6, 2, 4), (8, 2, 4), (10, 2, 5), (12, 2, 6), (14, 2, 7)]

def initPriorityMapping : Sbus ℤ := do
  discard <| sbusRegModify EGR_VLAN_CONTROL_1r (1 <<< 11) 0
  (List.range 64).forM fun i => discard <| sbusMemWrite ING_UNTAGGED_PHBm i (word 0) 1
  (List.range 1024).forM fun i => discard <| sbusMemWrite ING_PRI_CNG_MAPm i (word 0) 1
  priMap.forM fun (idx, count, pri) => (List.range count).forM fun j =>
    discard <| sbusMemWrite ING_PRI_CNG_MAPm (idx + j) (word (pri <<< 2)) 1
  discard <| regWriteAllports PORT_PRI_GRP0r (7 <<< 21 ||| 2 <<< 6)
  discard <| regWriteAllports PORT_PRI_GRP1r 0
  discard <| regWriteAllports PORT_PRI_XON_ENABLEr 0
  discard <| sbusRegWrite PRIO2COS_LLFC0r 0
  discard <| regModifyAllports XMAC_PFC_CTRLr 0x7 0
  discard <| sbusRegModify XLPORT_CONFIGr (1 <<< 14 ||| 1 <<< 16 ||| 1 <<< 17 ||| 1 <<< 18)
    (1 <<< 16)
  return 0

/-! ### Phase 3: hashing and CPU control -/

/-- An entry of the port table with VLAN 1 as its default. -/
def portTabEntry (entry : Words) : Words
  | 0 => ((entry 0 &&& ~~~(0x7#32 <<< 10 ||| 1#32 <<< 2)) &&& ~~~0xfc000000#32) ||| 1#32 <<< 26
  | 1 => entry 1 &&& ~~~0x3f#32
  | 3 => entry 3 &&& ~~~(1#32 <<< 8)
  | 4 => entry 4 &&& ~~~0xfffffe00#32
  | 5 => entry 5 &&& ~~~0x1#32
  | i => entry i

/-- Read an entry, or take zeros if that fails, and write it back changed. -/
def updateEntries (addr : BitVec 32) (count nwords : ℕ) (f : Words → Words) : Sbus Unit :=
  (List.range count).forM fun i => do
    let entry ← sbusMemRead addr i nwords
    discard <| sbusMemWrite addr i (f (entry.getD fun _ => 0)) nwords

def initForwarding : Sbus ℤ := do
  discard <| sbusRegModify RTAG7_IPV4_TCP_UDP_HASH_FIELD_BMAP_2r 0x1fff 0x0f7c
  discard <| sbusRegModify RTAG7_IPV6_TCP_UDP_HASH_FIELD_BMAP_2r 0x1fff 0x0f7c
  discard <| sbusRegModify RTAG7_IPV4_TCP_UDP_HASH_FIELD_BMAP_1r 0x1fff 0x0f3c
  discard <| sbusRegModify RTAG7_IPV6_TCP_UDP_HASH_FIELD_BMAP_1r 0x1fff 0x0f3c
  discard <| sbusRegModify RTAG7_HASH_FIELD_BMAP_1r 0x1fff 0x0f1c
  discard <| sbusRegModify RTAG7_HASH_FIELD_BMAP_2r 0x1fff 0x0f1c
  discard <| sbusRegModify RTAG7_HASH_CONTROL_3r 0xf 9
  discard <| sbusRegWrite RTAG7_HASH_SEED_Ar 42
  discard <| sbusRegWrite (RTAG7_HASH_ECMPr + 0) 0
  discard <| sbusRegWrite (RTAG7_HASH_ECMPr + 1) 0
  discard <| sbusRegModify HASH_CONTROLr (1 <<< 23 ||| 1 <<< 22 ||| 0x7 <<< 18 ||| 1 <<< 24)
    (1 <<< 23 ||| 1 <<< 22 ||| 4 <<< 18 ||| 1 <<< 24)
  let mask : BitVec 32 := 1 <<< 22 ||| 1 <<< 20 ||| 1 <<< 10 ||| 1 <<< 9
  discard <| sbusRegModify CPU_CONTROL_1r mask mask
  discard <| sbusRegModify AUX_ARB_CONTROLr (1 <<< 6) 0
  updateEntries PORT_TABm 67 6 portTabEntry
  return 0

/-! ### Phase 4: egress COS and buffers -/

/-- Index and the three fields of a COS map entry. -/
def cosEntries : List (ℕ × BitVec 32 × BitVec 32 × BitVec 32) :=
  [(0, 0, 0, 0), (1, 1, 1, 0), (2, 2, 2, 2), (4, 4, 4, 0), (5, 5, 5, 0), (6, 6, 6, 0), (7, 7, 7, 1)]

/-- Index, priority and COS. -/
def cpuCos : List (ℕ × BitVec 32 × BitVec 32) :=
  [(127, 0, 0), (126, 1, 1), (125, 2, 2), (124, 4, 4), (123, 4, 4), (122, 5, 5), (121, 6, 6),
    (120, 7, 7)]

structure CpuQueue where
  qi : BitVec 32
  spid : BitVec 32
  enable : BitVec 32
  min : BitVec 32
  shared : BitVec 32

def cpuQueues : List CpuQueue :=
  [⟨0, 0, 1, 307, 2073⟩, ⟨1, 0, 1, 307, 2073⟩, ⟨2, 2, 0, 0, 0⟩, ⟨3, 0, 1, 307, 2073⟩,
    ⟨4, 0, 1, 307, 2073⟩, ⟨5, 0, 1, 307, 2073⟩, ⟨6, 0, 1, 307, 2073⟩, ⟨7, 1, 0, 0, 0⟩,
    ⟨32, 0, 1, 100, 0⟩, ⟨33, 0, 1, 1, 0⟩, ⟨34, 0, 1, 500, 0⟩]

/-- `q_spid` and `q_limit_enable`, `q_shared` and `q_min` of a queue. -/
def queueConfig1Mask : BitVec 32 := 0x3 <<< 5 ||| 1 <<< 3

def queueConfigMask : BitVec 32 := 0xffff ||| 0xffff0000

def initCpuQueue (q : CpuQueue) : Sbus Unit := do
  discard <| sbusRegModify (cdkPortAddr (OP_QUEUE_CONFIG1_CELLr + q.qi) 0) queueConfig1Mask
    (q.spid <<< 5 ||| q.enable <<< 3)
  if q.min ≠ 0 ∨ q.shared ≠ 0 then
    discard <| sbusRegModify (cdkPortAddr (OP_QUEUE_CONFIG_CELLr + q.qi) 0) queueConfigMask
      (q.shared ||| q.min <<< 16)

/-- Priority `i` in the three bits at `3 * i`, for the first seven. -/
def esQueueToPrio : BitVec 32 :=
  (List.range 7).foldl (fun val i => val ||| BitVec.ofNat 32 i <<< (i * 3)) 0

def initEgressConfig : Sbus ℤ := do
  discard <| sbusRegWrite ING_COS_MODEr 0
  discard <| sbusRegWrite COS_MODE_Xr 0
  discard <| sbusRegWrite COS_MODE_Yr 0
  (List.range 67).forM fun i => discard <| sbusMemWrite COS_MAP_SELm i (word 0) 1
  (List.range 64).forM fun i => discard <| sbusMemWrite PORT_COS_MAPm i (word 0) 1
  cosEntries.forM fun (idx, uc, hg, mc) =>
    discard <| sbusMemWrite PORT_COS_MAPm idx (word (uc ||| hg <<< 4 ||| mc <<< 11)) 1
  cpuCos.forM fun (idx, priKey, cos) =>
    discard <| sbusMemWrite CPU_COS_MAPm idx
      (word (1 ||| priKey <<< 1 ||| 0xf <<< 5 ||| cos <<< 9)) 1
  discard <| regWriteAllports ES_QUEUE_TO_PRIOr esQueueToPrio
  discard <| sbusRegWrite OP_VOQ_PORT_CONFIGr 0
  discard <| sbusRegModify OVQ_FLOWCONTROL_THRESHOLDr (1 <<< 28) 0
  discard <| regWriteAllports OP_QUEUE_CONFIG_CELLr 0
  discard <| regWriteAllports OP_QUEUE_CONFIG1_CELLr 0
  discard <| regWriteAllports OP_QUEUE_RESET_OFFSET_CELLr 3
  discard <| regWriteAllports OP_PORT_CONFIG_CELLr 0
  discard <| regWriteAllports OP_PORT_CONFIG1_CELLr 0
  forPorts 0 PORT_MAX fun p => do
    discard <| sbusRegModify (cdkPortAddr (OP_QUEUE_CONFIG1_CELLr + 0) p) queueConfig1Mask (1 <<< 3)
    discard <| sbusRegModify (cdkPortAddr (OP_QUEUE_CONFIG_CELLr + 0) p) queueConfigMask
      (2073 ||| 921 <<< 16)
  forPorts 0 PORT_MAX fun p => do
    discard <| sbusRegModify (cdkPortAddr (OP_QUEUE_CONFIG1_CELLr + 1) p) (0x3 <<< 5) (1 <<< 5)
    discard <| sbusRegModify (cdkPortAddr (OP_QUEUE_CONFIG1_CELLr + 2) p) (0x3 <<< 5) (2 <<< 5)
  cpuQueues.forM initCpuQueue
  discard <| regWriteAllports OP_UC_PORT_CONFIG_CELLr 0
  discard <| regWriteAllports OP_UC_PORT_CONFIG1_CELLr (2 <<< 5 ||| 1 <<< 15)
  return 0

/-! ### Phase 5: THDO thresholds -/

def thdoZeroTable (addr : BitVec 32) (count nwords : ℕ) : Sbus Unit :=
  (List.range count).forM fun i => discard <| sbusMemWrite addr i (word 0) (min nwords 6)

def thdoWriteConfig (addr : BitVec 32) (index : ℕ) (qMin qShared enable dynamic color : BitVec 32) :
    Sbus Unit :=
  discard <| sbusMemWrite addr index (wordsOf [qMin <<< 16 ||| (qShared &&& 0xffff),
    enable ||| dynamic <<< 1 ||| color <<< 3]) 2

def thdoWriteQdrprst (addr : BitVec 32) (index : ℕ) (resetVal : BitVec 32) : Sbus Unit :=
  discard <| sbusMemWrite addr index (word (resetVal &&& 0x1fff)) 1

/-- The queues of a COS, ten to a port. -/
def thdoStride (cos count : ℕ) (body : ℕ → Sbus Unit) : Sbus Unit :=
  (List.range count).forM fun i => body (cos + 10 * i)

def thdoUcCos (cos : ℕ) : Sbus Unit := do
  thdoStride cos 28 fun idx => do
    thdoWriteConfig THDO_CONFIG_0Am idx 384 3110 1 0 0
    thdoWriteConfig THDO_CONFIG_0Bm idx 384 3110 1 0 0
  thdoStride cos 4 fun idx => do
    thdoWriteConfig MMU_THDO_CONFIG_SP_0m idx 384 3110 1 0 0
    thdoWriteConfig MMU_THDO_CONFIG_SP_1m idx 384 3110 1 0 0
  thdoStride cos 28 fun idx => do
    thdoWriteQdrprst MMU_THDO_QDRPRST_0m idx 3449
    thdoWriteQdrprst MMU_THDO_QDRPRST_1m idx 3449
  thdoStride cos 4 fun idx => do
    thdoWriteQdrprst MMU_THDO_QDRPRST_SP_0m idx 3449
    thdoWriteQdrprst MMU_THDO_QDRPRST_SP_1m idx 3449

/-- The limit of a service pool and where it resumes. -/
def sharedLimit (pool limit resume : BitVec 32) : Sbus Unit := do
  discard <| sbusRegWrite (OP_BUFFER_SHARED_LIMIT_CELLr + pool) limit
  discard <| sbusRegWrite (OP_BUFFER_SHARED_LIMIT_RESUME_CELLr + pool) resume

def initThdoTables : Sbus ℤ := do
  thdoZeroTable THDO_CONFIG_0Am 296 2
  thdoZeroTable THDO_CONFIG_0Bm 296 2
  thdoZeroTable MMU_THDO_CONFIG_SP_0m 40 2
  thdoZeroTable MMU_THDO_CONFIG_SP_1m 40 2
  thdoZeroTable MMU_THDO_QDRPRST_0m 296 1
  thdoZeroTable MMU_THDO_QDRPRST_1m 296 1
  thdoZeroTable MMU_THDO_QDRPRST_SP_0m 40 1
  thdoZeroTable MMU_THDO_QDRPRST_SP_1m 40 1
  [0, 1, 3, 4, 5, 6].forM thdoUcCos
  sharedLimit 0 20736 20636
  sharedLimit 1 41472 41372
  sharedLimit 2 41472 41372
  sharedLimit 3 135 35
  return 0

/-! ### Phase 6: scheduling -/

/-- The nine groups of an instance, five bits each, across the two words. -/
def routingWords (g0 g1 g2 g3 g4 g5 g6 : BitVec 32) : Words :=
  wordsOf [g0 ||| g1 <<< 5 ||| g2 <<< 10 ||| g3 <<< 15 ||| g4 <<< 20 ||| g5 <<< 25 |||
    (g6 &&& 3) <<< 30, ((g6 >>> 2) &&& 7) ||| 0x1f <<< 3 ||| 0x1f <<< 8]

/-- COS and weight. -/
def s2Weights : List (BitVec 32 × BitVec 32) :=
  [(0, 16), (1, 0), (2, 32), (4, 16), (5, 16), (6, 32), (7, 16), (8, 16), (9, 16), (10, 16),
    (11, 0)]

def initScheduling : Sbus ℤ := do
  discard <| regWriteAllports S3_CONFIGr (1 <<< 8 ||| 0xff)
  discard <| sbusRegWrite S3_MINSPCONFIGr 0
  discard <| regWriteAllports S3_COSWEIGHTSr 16
  discard <| regWriteAllports S3_CONFIG_MCr 0
  discard <| regWriteAllports S2_CONFIGr 0x3f
  discard <| regWriteAllports S2_COSWEIGHTSr 0
  discard <| sbusRegWrite S2_MINSPCONFIGr 0
  [0, 1, 2].forM fun inst =>
    discard <| regWrite64Allports (S2_S3_ROUTINGr + inst) (wordsOf [0xffffffff, 0x1fff])
  discard <| regWrite64Allports (S2_S3_ROUTINGr + 0) (routingWords 4 5 7 8 9 10 0)
  discard <| regWrite64Allports (S2_S3_ROUTINGr + 1) (routingWords 6 2 0x1f 0x1f 0x1f 0x1f 0x1f)
  discard <| regWrite64Allports (S2_S3_ROUTINGr + 2) (routingWords 11 1 0x1f 0x1f 0x1f 0x1f 0x1f)
  s2Weights.forM fun (cos, weight) => discard <| regWriteAllports (S2_COSWEIGHTSr + cos) weight
  discard <| regWriteAllports ESCONFIGr 0x3
  discard <| regWriteAllports (COSWEIGHTSr + 0) 2
  discard <| regWriteAllports (COSWEIGHTSr + 1) 16
  discard <| regWriteAllports (COSWEIGHTSr + 2) 32
  discard <| regWriteAllports (COSWEIGHTSr + 3) 0
  forPorts 0 PORT_MAX fun p => discard <| sbusRegWrite (cdkPortAddr MINSPCONFIGr p) 0
  forPorts 0 PORT_MAX fun p =>
    discard <| sbusRegModify (cdkPortAddr COSMASKr p) (1 <<< 7) (1 <<< 7)
  discard <| sbusRegModify ES_TDM_CONFIGr (1 <<< 24) 0
  return 0

/-! ### Phase 6.5: reset of the XLPORT blocks -/

/-- The address of an XLPORT register by its port. -/
def xlportRegAddr (xe : ℕ) (off : BitVec 32) : BitVec 32 :=
  if 51 < xe then 0
  else
    let blk := if xe < 48 then xe / 4 else xe - 36
    let lane := if xe < 48 then
      if blk = 5 ∨ blk = 6 then permute20to23.getD (xe % 4) 0 else xe % 4 else 0
    xlportBlocks.getD blk 0 + BitVec.ofNat 32 lane * 0x1000 + off

def XGXS_CTRL_OFF : BitVec 32 := 0x80237

def XLPORT_MODE_OFF : BitVec 32 := 0x80229

def XLPORT_ENABLE_OFF : BitVec 32 := 0x8022a

def XLPORT_XMAC_CTRL_OFF : BitVec 32 := 0x8022b

def XMAC_TX_CTRL_OFF : BitVec 32 := 0x604

def XMAC_RX_CTRL_OFF : BitVec 32 := 0x606

def XGXS_LCREF_EN : BitVec 32 := 1 <<< 11

def XGXS_RSTB_HW : BitVec 32 := 1 <<< 12

/-- The first port of each block. -/
def firstXe : List ℕ := [0, 4, 8, 12, 16, 20, 24, 28, 32, 36, 40, 44, 48, 49, 50, 51]

/-- Whether the block is reset; it is left alone when the first write fails. -/
def xportResetBlock (blk : ℕ) : Sbus Bool := do
  let xe := firstXe.getD blk 0
  let addr := xlportRegAddr xe XGXS_CTRL_OFF
  let ok ← sbusRegWrite addr (XGXS_LCREF_EN ||| 1 <<< 9 ||| 1 <<< 1 ||| 1 <<< 0)
  if ok then
    discard <| sbusRegWrite addr XGXS_LCREF_EN
    let val := XGXS_LCREF_EN ||| XGXS_RSTB_HW
    discard <| sbusRegWrite addr val
    let val := val ||| (1 <<< 13 ||| 1 <<< 14)
    discard <| sbusRegWrite addr val
    let val := val ||| (0xf <<< 15 ||| 1 <<< 19)
    discard <| sbusRegWrite addr val
    discard <| sbusRegWrite (xlportRegAddr xe XLPORT_MODE_OFF) (if blk < 12 then 0x0a else 0x00)
    discard <| sbusRegWrite (xlportRegAddr xe XLPORT_ENABLE_OFF) (if blk < 12 then 0xf else 0x1)
    discard <| sbusRegWrite (xlportRegAddr xe XLPORT_XMAC_CTRL_OFF) 1
    discard <| sbusRegWrite (xlportRegAddr xe XLPORT_XMAC_CTRL_OFF) 0
    return true
  else return false

def initXportReset : Sbus ℤ := do
  let fail ← (List.range 16).foldlM (fun fail blk => do
    let ok ← xportResetBlock blk
    return if ok then fail else fail + 1) 0
  -- a look at whether the XMAC registers answer
  let _ ← perform (.regRead64 (xlportRegAddr 0 XMAC_TX_CTRL_OFF))
  return if 0 < fail then -1 else 0

/-! ### Phases 7 and 8: ports and VLANs -/

/-- Every port up to 52. -/
def portBitmap : Words := wordsOf [0xffffffff, 0x001fffff, 0]

/-- An entry of the egress port table for Ethernet. -/
def egrPortEntry (egr : Words) : Words := Function.update egr 0 (egr 0 &&& ~~~0x7#32)

def initPortPipeline : Sbus ℤ := do
  discard <| sbusMemWrite EPC_LINK_BMAPm 0 portBitmap 3
  discard <| sbusMemWrite ING_EN_EFILTER_BITMAPm 0 portBitmap 3
  (List.range 52).forM fun xe =>
    discard <| sbusRegWrite64 (xlportRegAddr xe XMAC_TX_CTRL_OFF) (wordsOf [0xc802, 0])
  (List.range 52).forM fun xe =>
    discard <| sbusRegWrite64 (xlportRegAddr xe XMAC_RX_CTRL_OFF)
      (wordsOf [64 <<< 4 ||| 1 <<< 2, 0])
  updateEntries EGR_PORTm 67 6 egrPortEntry
  discard <| sbusRegWrite IFP_METER_PARITY_CONTROLr 0
  return 0

/-- The first three writes are checked, for a message on the console. -/
def initVlanPhase : Sbus ℤ := do
  discard <| sbusMemWrite STG_TABm 2 stgWords 5
  discard <| sbusMemWrite VLAN_TABm 1 vlanWords 10
  discard <| sbusMemWrite EGR_VLANm 1 egrVlanWords 8
  (List.range 67).forM fun i => do
    discard <| sbusMemWrite UNKNOWN_UCAST_BLOCK_MASKm i (fun _ => 0) 3
    discard <| sbusMemWrite UNKNOWN_MCAST_BLOCK_MASKm i (fun _ => 0) 3
  return 0

/-! ### The dispatcher -/

/-- The next phases run unless this one failed. -/
def phase (init rest : Sbus ℤ) : Sbus ℤ := do
  let rc ← init
  if rc < 0 then return -1 else rest

/-- `bcm56846_datapath_init`; a failure of the XLPORT reset only brings a warning. -/
def datapathInit : Sbus ℤ :=
  phase initIngressBuffers <| phase initPriorityMapping <| phase initForwarding <|
  phase initEgressConfig <| phase initThdoTables <| phase initScheduling <| do
    let _ ← initXportReset
    phase initPortPipeline <| phase initVlanPhase <| return 0

end OpenNos.Sdk
