import OpenNos.Sdk.MiimBus

/-! SerDes setup and link status over the MIIM (`serdes.c`), and the two threads that
call them: the netlink thread enables ports, the link thread polls them. An access to
a WARPcore register selects block and lane first and takes four transactions, one to a
clause 45 register takes seven. -/

namespace OpenNos.Sdk

open RegProg

def WC_XGXSCONTROL : BitVec 16 := 0x8000

def WC_XGXSSTATUS : BitVec 16 := 0x8001

def WC_LANEPRBS : BitVec 16 := 0x8015

def WC_ANARXSTATUS : BitVec 16 := 0x80b0

def WC_FW_VERSION : BitVec 16 := 0x81f0

def WC_FW_MODE : BitVec 16 := 0x81f2

def WC_FW_CRC : BitVec 16 := 0x81fe

def WC_CONTROL1000X1 : BitVec 16 := 0x8300

def WC_CONTROL1000X3 : BitVec 16 := 0x8302

def WC_MISC1 : BitVec 16 := 0x8308

def WC_MISC2 : BitVec 16 := 0x830d

def WC_SERDESID0 : BitVec 16 := 0x8310

def WC_MISC3 : BitVec 16 := 0x833c

def WC_MISC6 : BitVec 16 := 0x8345

def WC_CL49_CTRL1 : BitVec 16 := 0x8360

def WC_RX66_CTRL : BitVec 16 := 0x83c0

def WC_RX66_SCW0 : BitVec 16 := 0x83c2

def WC_RX66_SCW1 : BitVec 16 := 0x83c3

def WC_RX66_SCW2 : BitVec 16 := 0x83c4

def WC_RX66_SCW3 : BitVec 16 := 0x83c5

def WC_RX66_SCW0_MASK : BitVec 16 := 0x83c6

def WC_RX66_SCW1_MASK : BitVec 16 := 0x83c7

def WC_RX66_SCW2_MASK : BitVec 16 := 0x83c8

def WC_RX66_SCW3_MASK : BitVec 16 := 0x83c9

def WC_UC_RAMWORD : BitVec 16 := 0xffc0

def WC_UC_ADDRESS : BitVec 16 := 0xffc1

def WC_UC_COMMAND : BitVec 16 := 0xffc2

def WC_UC_WRDATA : BitVec 16 := 0xffc3

def WC_UC_DL_STATUS : BitVec 16 := 0xffc5

def WC_UC_COMMAND2 : BitVec 16 := 0xffca

def WC_CL49_HG2_MASK : BitVec 16 := 0x077c

def CMIC_MIIM_INT_SEL_MAP : ℕ := 0x1bc

def CMIC_MIIM_EXT_SEL_MAP : ℕ := 0x1b8

abbrev Serdes := Reg MiimEvent

/-! ### Registers of a WARPcore -/

/-- Go on unless the transaction failed. -/
def ifOk {α : Type} (p : Serdes (Rc Unit)) (q : Serdes (Rc α)) : Serdes (Rc α) := do
  let rc ← p
  if rc.isOk then q else return .error .eio

/-- Select the lane and the block, then make the last transaction. -/
def wcAccess {α : Type} (phy : PhyAddr) (lane : BitVec 2) (addr : BitVec 16)
    (last : Serdes (Rc α)) : Serdes (Rc α) := do
  let rc ← ifOk (miimWriteTo phy .aerBlk [.aerBlk] WC_REG_AER_BLK WC_AER_BROADCAST) <|
    ifOk (miimWriteTo phy .aerLane [.aerLane] WC_REG_AER_LANE (lane.setWidth 16 &&& 3)) <|
    ifOk (miimWriteTo phy .aerBlk [.aerBlk, .aerLane] WC_REG_AER_BLK (addr &&& 0xfff0)) last
  mark .ended
  return rc

def wcReg (addr : BitVec 16) : BitVec 32 := 0x10 + (addr &&& 0xf).setWidth 32

def wcRead (phy : PhyAddr) (lane : BitVec 2) (addr : BitVec 16) : Serdes (Rc (BitVec 16)) :=
  wcAccess phy lane addr (miimReadFrom phy (.wc (lane.setWidth 16) addr) (wcReg addr))

def wcWrite (phy : PhyAddr) (lane : BitVec 2) (addr val : BitVec 16) : Serdes (Rc Unit) :=
  wcAccess phy lane addr (miimWriteTo phy (.wc (lane.setWidth 16) addr) [] (wcReg addr) val)

/-- Clause 45 through the registers 13 and 14; only the last transaction is checked. -/
def wcCl45Read (phy : PhyAddr) (devad : BitVec 5) (reg : BitVec 16) :
    Serdes (Rc (BitVec 16)) := do
  let _ ← miimWriteTo phy .aerBlk [.aerBlk] WC_REG_AER_BLK WC_AER_BROADCAST
  let _ ← miimWriteTo phy .aerLane [.aerLane] WC_REG_AER_LANE 0
  let _ ← miimWriteTo phy .aerBlk [.aerLane] WC_REG_AER_BLK 0
  let _ ← miimWriteTo phy .mmdCtrl [.aerLane, .mmdCtrl] 13 (devad.setWidth 16)
  let _ ← miimWriteTo phy (.mmdAddr devad) [.aerLane, .mmdAddr devad] 14 reg
  let _ ← miimWriteTo phy .mmdCtrl [.aerLane, .mmdAddr devad, .mmdCtrl] 13
    (0x4000 ||| devad.setWidth 16)
  let rc ← miimReadFrom phy (.mmd 0 devad reg) 14
  mark .ended
  return rc

/-- Reset the AER to a safe state. -/
def aerReset (phy : PhyAddr) : Serdes Unit := do
  let _ ← miimWriteTo phy .aerBlk [] WC_REG_AER_BLK 0
  mark .ended

/-- `wc_read` into a variable, which keeps its value if the read fails. -/
def wcReadInto (val : BitVec 16) (phy : PhyAddr) (lane : BitVec 2) (addr : BitVec 16) :
    Serdes (BitVec 16) := do
  let rc ← wcRead phy lane addr
  return rc.toOption.getD val

/-- `wc_write` with the result ignored. -/
def wcPut (phy : PhyAddr) (lane : BitVec 2) (addr val : BitVec 16) : Serdes Unit := do
  let _ ← wcWrite phy lane addr val

/-- A read into a variable and, if it succeeds, a write of `f` of it; the variable then
holds what the read delivered, or `f` of that where it is assigned. -/
def wcUpdate (phy : PhyAddr) (lane : BitVec 2) (addr : BitVec 16) (f : BitVec 16 → BitVec 16)
    (assigned : Bool) (val : BitVec 16) : Serdes (BitVec 16) := do
  let rc ← wcRead phy lane addr
  if rc.isOk then
    let val := rc.toOption.getD val
    wcPut phy lane addr (f val)
    return if assigned then f val else val
  else return val

/-- Poll a register of lane 0, a millisecond between two reads. -/
def wcPoll (phy : PhyAddr) (addr : BitVec 16) (done : BitVec 16 → Bool) :
    ℕ → BitVec 16 → Serdes (BitVec 16)
  | 0, val => pure val
  | cnt + 1, val => do
    let val ← wcReadInto val phy 0 addr
    if done val then return val
    else
      mark (.usleep 1000)
      wcPoll phy addr done cnt val

def wcPutAll (phy : PhyAddr) (lane : BitVec 2) : List (BitVec 16 × BitVec 16) → Serdes Unit
  | [] => pure ()
  | (addr, val) :: rest => do
    wcPut phy lane addr val
    wcPutAll phy lane rest

/-! ### Ports -/

structure PortPhy where
  phy : PhyAddr
  lane : BitVec 2
  deriving DecidableEq

/-- MDIO0 and MDIO2 hold the WARPcores of the 1G ports, four ports each. -/
def phyMap0 : List (BitVec 5) := [1, 5, 9, 13, 17, 21, 31]

def phyMap2 : List (BitVec 5) := [1, 9, 13, 17, 21, 31]

def portToPhyBus (port : ℤ) : Rc PortPhy :=
  if port = 49 then .ok ⟨⟨1, 13⟩, 0⟩
  else if port = 50 then .ok ⟨⟨1, 17⟩, 0⟩
  else if port = 51 then .ok ⟨⟨1, 31⟩, 0⟩
  else if port = 52 then .ok ⟨⟨1, 31⟩, 1⟩
  else if 1 ≤ port ∧ port ≤ 48 then
    let xe := (port - 1).toNat
    let block := xe / 4
    let lane := BitVec.ofNat 2 (xe % 4)
    if block < 7 then .ok ⟨⟨0, phyMap0.getD block 0⟩, lane⟩
    else if 6 ≤ block - 7 then .error .einval
    else .ok ⟨⟨2, phyMap2.getD (block - 7) 0⟩, lane⟩
  else .error .einval

def portToRetimerBus (port : ℤ) : ℤ :=
  if port = 49 then 10 else if port = 50 then 11 else if port = 51 then 12
  else if port = 52 then 13 else -1

def DS100_ADDR : BitVec 8 := 0x27

def DS100_CH_SEL : BitVec 8 := 0xff

def DS100_CH_BCAST : BitVec 8 := 0x0c

def DS100_OUT_MUX : BitVec 8 := 0x1e

/-- What the code finds beside the MIIM. -/
structure SerdesEnv where
  /-- the firmware image -/
  ucode : List (BitVec 8)
  /-- the retimer on this bus acknowledges a write -/
  i2cOk : ℤ → Bool
  /-- what a variable holds before it is assigned -/
  junk : BitVec 16

/-- Unmute the output of the retimer. -/
def retimerUnmute (env : SerdesEnv) (port : ℤ) : Serdes Unit :=
  let bus := portToRetimerBus port
  if bus < 0 then pure ()
  else do
    mark (.i2cWrite bus DS100_ADDR DS100_CH_SEL DS100_CH_BCAST)
    if env.i2cOk bus then
      mark (.i2cRead bus DS100_ADDR DS100_OUT_MUX)
      mark (.i2cWrite bus DS100_ADDR DS100_OUT_MUX 0)

def miimDividerInit : Serdes Unit := do
  bdeWrite CMIC_MIIM_INT_SEL_MAP (1 <<< 16 ||| 99)
  bdeWrite CMIC_MIIM_EXT_SEL_MAP (1 <<< 16 ||| 396)

/-! ### Initialisation -/

/-- The image rounded up to 16 bytes. -/
def fwSizeAligned (ucode : List (BitVec 8)) : ℕ := (ucode.length + 15) / 16 * 16

/-- The image as little-endian words, zero beyond its end. -/
def fwWords (ucode : List (BitVec 8)) : List (BitVec 16) :=
  (List.range (fwSizeAligned ucode / 2)).map fun i =>
    (ucode.getD (2 * i) 0).setWidth 16 ||| (ucode.getD (2 * i + 1) 0).setWidth 16 <<< 8

/-- Each write advances the address in the program memory. -/
def wcPutWords (phy : PhyAddr) : List (BitVec 16) → Serdes Unit
  | [] => pure ()
  | data :: rest => do
    wcPut phy 0 WC_UC_WRDATA data
    wcPutWords phy rest

def wcFirmwareDownload (phy : PhyAddr) (ucode : List (BitVec 8)) : Serdes (Rc Unit) := do
  wcPut phy 0 WC_UC_COMMAND 0x0002
  mark (.usleep 1000)
  wcPut phy 0 WC_UC_COMMAND 0x0000
  mark (.usleep 10000)
  wcPutAll phy 0 [(WC_UC_DL_STATUS, 0x0000), (WC_UC_COMMAND, 0x8000)]
  let val ← wcPoll phy WC_UC_DL_STATUS (fun val => val &&& 0x8000 ≠ 0) 500 0
  if val &&& 0x8000 = 0 then return .error .etimedout
  else
    let val ← wcReadInto val phy 0 WC_UC_COMMAND2
    wcPut phy 0 WC_UC_COMMAND2 (val ||| 0x0020)
    wcPut phy 0 WC_UC_RAMWORD (BitVec.ofNat 16 (fwSizeAligned ucode - 1))
    wcPutAll phy 0 [(WC_UC_ADDRESS, 0x0000), (WC_UC_COMMAND, 0x0009)]
    wcPutWords phy (fwWords ucode)
    wcPut phy 0 WC_UC_COMMAND 0x0002
    let val ← wcReadInto val phy 0 WC_UC_DL_STATUS
    if val &&& 0x0003 ≠ 0 then return .error .eio
    else
      wcPutAll phy 0 [(WC_FW_CRC, 0x0001), (WC_UC_COMMAND, 0x0010)]
      let _ ← wcPoll phy WC_FW_VERSION (fun val => val ≠ 0) 500 0
      return .ok ()

/-- Once for each WARPcore: firmware and PLL. -/
def wcPhyInit (env : SerdesEnv) (phy : PhyAddr) : Serdes Unit := do
  let val ← wcReadInto env.junk phy 0 WC_SERDESID0
  let val ← wcReadInto val phy 0 WC_XGXSCONTROL
  onlyIf (val &&& 1#16 <<< 13 ≠ 0) do
    wcPut phy 0 WC_XGXSCONTROL (val &&& ~~~(1#16 <<< 13))
    mark (.usleep 1000)
  wcPut phy 0 WC_LANEPRBS 0x0000
  let val ← wcReadInto val phy 0 WC_MISC1
  let val := val &&& ~~~0x1f00#16 ||| (2#16 <<< 8 ||| 1#16 <<< 12)
  wcPut phy 0 WC_MISC1 val
  let val ← wcReadInto val phy 0 WC_FW_VERSION
  onlyIf (val ≠ 0x0101) do
    let _ ← wcFirmwareDownload phy env.ucode
  let val ← wcReadInto val phy 0 WC_XGXSCONTROL
  wcPut phy 0 WC_XGXSCONTROL (val ||| 1#16 <<< 13)
  let val ← wcPoll phy WC_XGXSSTATUS (fun val => val &&& 1#16 <<< 11 ≠ 0) 200 val
  let val ← wcReadInto val phy 0 WC_UC_COMMAND2
  wcPut phy 0 WC_UC_COMMAND2 (val ||| 0x0020)
  wcPut phy 0 WC_UC_COMMAND 0x8010
  let val ← wcPoll phy WC_FW_VERSION (fun val => val ≠ 0) 500 0
  let _ ← wcReadInto val phy 0 WC_UC_COMMAND
  aerReset phy

/-- The sync words of the 64/66 coding and their masks. -/
def syncWords : List (BitVec 16 × BitVec 16) :=
  [(WC_RX66_SCW0, 0xe070), (WC_RX66_SCW1, 0xc0d0), (WC_RX66_SCW2, 0xa0b0), (WC_RX66_SCW3, 0x8090),
    (WC_RX66_SCW0_MASK, 0xf0f0), (WC_RX66_SCW1_MASK, 0xf0f0), (WC_RX66_SCW2_MASK, 0xf0f0),
    (WC_RX66_SCW3_MASK, 0xf0f0)]

/-- 10G SFI on one lane. -/
def configureLane (val : BitVec 16) (phy : PhyAddr) (lane : BitVec 2) : Serdes Unit := do
  let val ← wcReadInto val phy lane WC_MISC6
  wcPut phy lane WC_MISC6 (val ||| 0xc000)
  -- a nibble of the firmware mode for each lane, all of them in lane 0
  let val ← wcReadInto val phy 0 WC_FW_MODE
  let val := val &&& ~~~(0xf#16 <<< (4 * lane.toNat)) ||| 2#16 <<< (4 * lane.toNat)
  wcPut phy 0 WC_FW_MODE val
  let val ← wcUpdate phy lane 0x8400 (fun val => val &&& ~~~0x0005) false val
  let val ← wcUpdate phy lane 0x8402 (fun val => val ||| 1#16 <<< 7) false val
  let rc ← wcRead phy lane WC_CL49_CTRL1
  let val := rc.toOption.getD val
  onlyIf (rc.isOk ∧ val &&& WC_CL49_HG2_MASK ≠ 0) do
    wcPut phy lane WC_CL49_CTRL1 (val &&& ~~~WC_CL49_HG2_MASK)
  let val ← wcUpdate phy lane WC_MISC1 (fun val => val &&& ~~~0x001f ||| 0x09) false val
  let val ← wcUpdate phy lane WC_MISC3
    (fun val => (val ||| (1#16 <<< 7 ||| 1#16 <<< 15)) &&& ~~~(1#16 <<< 6)) true val
  let val ← wcReadInto val phy lane WC_MISC6
  wcPut phy lane WC_MISC6 (val &&& ~~~0xc000)
  let val ← wcUpdate phy lane WC_RX66_CTRL (fun val => val ||| 1#16 <<< 13 ||| 1#16 <<< 14) false
    val
  wcPutAll phy lane syncWords
  let val ← wcUpdate phy lane WC_MISC2 (fun val => (val ||| 1) &&& ~~~(1#16 <<< 5)) false val
  let val ← wcUpdate phy lane WC_CONTROL1000X1
    (fun val => (val ||| 1#16 <<< 6) &&& ~~~(1#16 <<< 4)) true val
  let _ ← wcUpdate phy lane WC_CONTROL1000X3
    (fun val => val &&& ~~~(3#16 <<< 1) ||| 2#16 <<< 1 ||| 1#16 <<< 13) true val

def wcReadAll (phy : PhyAddr) (lane : BitVec 2) : List (BitVec 16) → Serdes Unit
  | [] => pure ()
  | addr :: rest => do
    let _ ← wcRead phy lane addr
    wcReadAll phy lane rest

/-- Poll the PCS of a port until it has block lock. -/
def pollBlockLock (phy : PhyAddr) (lane : BitVec 2) : ℕ → BitVec 16 → Serdes Unit
  | 0, _ => pure ()
  | cnt + 1, cl49Status => do
    let cl49Status ← wcReadInto cl49Status phy lane 0x8367
    let _ ← wcRead phy lane 0x8368
    let _ ← wcCl45Read phy 3 1
    let _ ← wcCl45Read phy 3 1
    onlyIf (cl49Status >>> 15 &&& 1 = 0) do
      mark (.usleep 200000)
      pollBlockLock phy lane cnt cl49Status

/-- Read back the configuration and wait for block lock, for the log. -/
def diagnosePcs (env : SerdesEnv) (phy : PhyAddr) (lane : BitVec 2) : Serdes Unit := do
  mark (.usleep 500000)
  wcReadAll phy lane [WC_ANARXSTATUS, WC_MISC1, WC_MISC3, WC_RX66_CTRL, WC_CL49_CTRL1,
    WC_RX66_SCW0, WC_RX66_SCW0_MASK]
  pollBlockLock phy lane 5 env.junk

/-- Which WARPcores have been initialised, a mask of PHYs for each bus. -/
abbrev PhyInited := BitVec 3 → BitVec 32

def initOnce (env : SerdesEnv) (inited : PhyInited) (phy : PhyAddr) : Serdes PhyInited :=
  if phy.bus < 3 ∧ (inited phy.bus).getLsbD phy.phy.toNat = false then do
    wcPhyInit env phy
    return Function.update inited phy.bus (inited phy.bus ||| 1#32 <<< phy.phy.toNat)
  else pure inited

def serdesInit10g (env : SerdesEnv) (inited : PhyInited) (port : ℤ) :
    Serdes (Rc Unit × PhyInited) :=
  match portToPhyBus port with
  | .error _ => pure (.error .einval, inited)
  | .ok ⟨phy, lane⟩ => do
    miimDividerInit
    let inited ← initOnce env inited phy
    configureLane env.junk phy lane
    onlyIf (49 ≤ port ∧ port ≤ 52) do
      retimerUnmute env port
      diagnosePcs env phy lane
    aerReset phy
    return (.ok (), inited)

def serdesLinkGet (port : ℤ) : Serdes (Rc Bool) :=
  match portToPhyBus port with
  | .error _ => pure (.error .einval)
  | .ok ⟨phy, _⟩ => do
    miimDividerInit
    let rc ← wcCl45Read phy 3 1
    if rc.isOk then
      -- the first read clears the latch
      let rc ← wcCl45Read phy 3 1
      match rc with
      | .error _ => return .error .eio
      | .ok pcsStatus =>
        aerReset phy
        return .ok (pcsStatus.getLsbD 2)
    else return .error .eio

/-! ### The threads -/

/-- One `bcm56846_port_enable_set`, with what became of its register write. -/
structure EnableRequest where
  port : ℤ
  enable : Bool
  written : Bool

def portEnableSetSerdes (env : SerdesEnv) (inited : PhyInited) (r : EnableRequest) :
    Serdes (Rc Unit × PhyInited) :=
  if r.port ≤ 0 ∨ 52 < r.port then pure (.error .einval, inited)
  else if !r.written then pure (.error .eio, inited)
  else if r.enable then do
    let (_, inited) ← serdesInit10g env inited r.port
    return (.ok (), inited)
  else pure (.ok (), inited)

/-- The netlink thread, enabling and disabling ports in any order. -/
def netlinkThread (env : SerdesEnv) : PhyInited → List EnableRequest → Serdes Unit
  | _, [] => pure ()
  | inited, r :: rest => do
    let (_, inited) ← portEnableSetSerdes env inited r
    netlinkThread env inited rest

/-- `bcm56846_port_link_status_get`; below port 49 the status is an S-Channel read. -/
def portLinkStatusGet (macLink : ℤ → Rc Bool) (port : ℤ) : Serdes (Rc Bool) :=
  if port ≤ 0 ∨ 52 < port then pure (.error .einval)
  else if 49 ≤ port then serdesLinkGet port
  else pure (macLink port)

/-- One round of the link thread over the ports from `i` on. -/
def linkStateRound (macLink : ℤ → Rc Bool) : ℕ → ℕ → Serdes Unit
  | _, 0 => pure ()
  | i, n + 1 => do
    let _ ← portLinkStatusGet macLink (i + 1)
    linkStateRound macLink (i + 1) n

/-- The link thread, a round every 200 ms with the S-Channel reads of that round. -/
def linkStateThread (numPorts : ℕ) : List (ℤ → Rc Bool) → Serdes Unit
  | [] => pure ()
  | macLink :: rounds => do
    mark (.usleep 200000)
    linkStateRound macLink 0 numPorts
    linkStateThread numPorts rounds

end OpenNos.Sdk
