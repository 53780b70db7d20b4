import OpenNos.Bde.Cmic
import OpenNos.Sdk.Miim

/-! The MIIM engine as the two threads of the daemon share it. A trigger executes the
transaction that the parameter and address registers describe at that moment, and in
a WARPcore PHY the register that is reached depends on the block, the lane and the
clause 45 address selected before. The state records, for each thread, what the
caller of its transaction named, which registers it has set up and still relies on,
and every transaction next to its name. -/

namespace OpenNos.Sdk

open Bits RegProg Bde

/-! ### The PHYs -/

structure PhyAddr where
  bus : BitVec 3
  phy : BitVec 5
  deriving DecidableEq

/-- What a register access of a PHY reaches: one of the selection registers, or a
register of the selected lane. -/
inductive Target
  | aerBlk
  | aerLane
  | mmdCtrl
  | mmdAddr (devad : BitVec 5)
  | wc (lane addr : BitVec 16)
  | mmd (lane : BitVec 16) (devad : BitVec 5) (reg : BitVec 16)
  | cl22 (lane : BitVec 16) (reg : BitVec 5)
  deriving DecidableEq

def WC_REG_AER_BLK : BitVec 32 := 0x1f

def WC_REG_AER_LANE : BitVec 32 := 0x1e

def WC_AER_BROADCAST : BitVec 16 := 0xffd0

/-- The selection registers of a PHY. -/
structure Select where
  aerBlk : BitVec 16
  aerLane : BitVec 16
  mmdCtrl : BitVec 16
  mmdAddr : BitVec 5 → BitVec 16

namespace Select

variable (sel : Select)

/-- The target of one of the 32 register numbers. -/
def resolve (reg : BitVec 5) : Target :=
  if reg = 0x1f then .aerBlk
  else if 0x10 ≤ reg then
    let addr := (sel.aerBlk &&& 0xfff0) ||| (reg &&& 0xf).setWidth 16
    if addr = 0xffde then .aerLane else .wc sel.aerLane addr
  else if reg = 13 then .mmdCtrl
  else if reg = 14 then
    let devad := sel.mmdCtrl.setWidth 5
    if sel.mmdCtrl &&& 0xc000 = 0 then .mmdAddr devad
    else .mmd sel.aerLane devad (sel.mmdAddr devad)
  else .cl22 sel.aerLane reg

/-- The value of a selection register. -/
def get : Target → Option (BitVec 16)
  | .aerBlk => some sel.aerBlk
  | .aerLane => some sel.aerLane
  | .mmdCtrl => some sel.mmdCtrl
  | .mmdAddr devad => some (sel.mmdAddr devad)
  | _ => none

def write (target : Target) (data : BitVec 16) : Select :=
  match target with
  | .aerBlk => { sel with aerBlk := data }
  | .aerLane => { sel with aerLane := data }
  | .mmdCtrl => { sel with mmdCtrl := data }
  | .mmdAddr devad => { sel with mmdAddr := Function.update sel.mmdAddr devad data }
  | _ => sel

end Select

/-! ### The bus -/

inductive Thread
  | netlink
  | linkPoll
  deriving DecidableEq

/-- A transaction: whom it reaches, and the data of a write. -/
structure Call where
  phy : PhyAddr
  target : Target
  data : Option (BitVec 16)
  deriving DecidableEq

/-- What a thread has going on the bus. -/
structure Window where
  /-- the transaction its caller named -/
  call : Call
  /-- the selection registers the access relies on once this transaction is made -/
  keeps : List Target
  /-- it has written the address register for a transaction still to be triggered -/
  address : Bool
  /-- it has written the parameter register for one -/
  param : Bool
  /-- it has triggered a read and not yet fetched the data -/
  awaits : Bool
  /-- the selection registers its access relies on -/
  relies : List (PhyAddr × Target)
  /-- what the named register held when the read was triggered -/
  value : BitVec 16

/-- What the record says of a thread: a transaction it triggered, next to the one its
caller named, or a read that returned 0, next to the value of the register. -/
inductive Entry
  | made (named actual : Call)
  | returned (value data : BitVec 16)
  deriving DecidableEq

def Entry.Good : Entry → Prop
  | .made named actual => actual = named
  | .returned value data => data = value

instance : DecidablePred Entry.Good := fun e => by
  cases e <;> exact inferInstanceAs (Decidable (_ = _))

structure MiimBus where
  reg : ℕ → BitVec 32
  select : PhyAddr → Select
  value : PhyAddr → Target → BitVec 16
  window : Thread → Window
  log : Thread → List Entry

inductive MiimEvent
  /-- the next transaction, as its caller names it -/
  | call (c : Call) (keeps : List Target)
  /-- `miim_read` returns -/
  | returned (rc : Rc (BitVec 16))
  /-- the access returns to its caller -/
  | ended
  | usleep (us : ℕ)
  | i2cWrite (bus : ℤ) (addr reg val : BitVec 8)
  | i2cRead (bus : ℤ) (addr reg : BitVec 8)

namespace MiimBus

/-- The fields of the parameter register. -/
def paramPhy (s : MiimBus) : PhyAddr :=
  ⟨(s.reg CMIC_MIIM_PARAM >>> 22).setWidth 3, (s.reg CMIC_MIIM_PARAM >>> 16).setWidth 5⟩

def paramData (s : MiimBus) : BitVec 16 := (s.reg CMIC_MIIM_PARAM).setWidth 16

/-- What the registers reach. -/
def target (s : MiimBus) : Target :=
  (s.select s.paramPhy).resolve ((s.reg CMIC_MIIM_ADDRESS).setWidth 5)

/-- What a register holds. -/
def held (s : MiimBus) (phy : PhyAddr) (target : Target) : BitVec 16 :=
  ((s.select phy).get target).getD (s.value phy target)

def setReg (s : MiimBus) (off : ℕ) (v : BitVec 32) : MiimBus :=
  { s with reg := Function.update s.reg off (written off (s.reg off) v) }

def setWindow (s : MiimBus) (t : Thread) (w : Window) : MiimBus :=
  { s with window := Function.update s.window t w }

def record (s : MiimBus) (t : Thread) (e : Entry) : MiimBus :=
  { s with log := Function.update s.log t (s.log t ++ [e]) }

/-- The thread has triggered a transaction. -/
def triggered (s : MiimBus) (t : Thread) (data : Option (BitVec 16)) : MiimBus :=
  let w := s.window t
  (s.record t (.made w.call ⟨s.paramPhy, s.target, data⟩)).setWindow t { w with
    address := false, param := false, awaits := data.isNone
    value := s.held w.call.phy w.call.target
    relies := w.keeps.map fun r => (w.call.phy, r) }

def triggerRead (s : MiimBus) (t : Thread) : MiimBus :=
  let data := s.held s.paramPhy s.target
  { s.triggered t none with
    reg := Function.update s.reg CMIC_MIIM_READ_DATA (data.setWidth 32) }

def triggerWrite (s : MiimBus) (t : Thread) : MiimBus :=
  { s.triggered t (some s.paramData) with
    select := Function.update s.select s.paramPhy
      ((s.select s.paramPhy).write s.target s.paramData)
    value := Function.update s.value s.paramPhy
      (Function.update (s.value s.paramPhy) s.target s.paramData) }

/-- The thread writes a register of the MIIM. -/
def wrote (s : MiimBus) (t : Thread) (off : ℕ) (v : BitVec 32) : MiimBus :=
  if off = CMIC_MIIM_ADDRESS then s.setWindow t { s.window t with address := true }
  else if off = CMIC_MIIM_PARAM then s.setWindow t { s.window t with param := true }
  else if off = CMIC_MIIM_CTRL then
    if SetsBit v 16 then s.triggerRead t else if SetsBit v 17 then s.triggerWrite t else s
  else s

/-- The thread returns from a read. -/
def returned (s : MiimBus) (t : Thread) (rc : Rc (BitVec 16)) : MiimBus :=
  let s := match rc with
    | .ok data => s.record t (.returned (s.window t).value data)
    | .error _ => s
  s.setWindow t { s.window t with awaits := false }

end MiimBus

/-- The bus as one thread drives it. -/
def miimBus (t : Thread) : Agent MiimBus ℕ (BitVec 32) MiimEvent where
  read s off := s.reg off
  seen s off :=
    if off = CMIC_MIIM_READ_DATA then s.setWindow t { s.window t with awaits := false } else s
  write s off v := (s.setReg off v).wrote t off v
  event s
    | .call c keeps => s.setWindow t { s.window t with call := c, keeps := keeps }
    | .returned rc => s.returned t rc
    | .ended => s.setWindow t { s.window t with
        address := false, param := false, awaits := false, relies := [] }
    | _ => s

/-! ### Isolation -/

/-- Every transaction reached what its caller named, and every read that returned 0
delivered the value of that register. -/
def Isolated (s : MiimBus) : Prop := ∀ t, ∀ e ∈ s.log t, e.Good

/-- A step that leaves a thread what it has set up: the address and the parameter of a
transaction not yet triggered, the data of a read not yet fetched, and the selection
its access relies on. -/
structure Spares (t : Thread) (s s' : MiimBus) : Prop where
  address : (s.window t).address = true → s'.reg CMIC_MIIM_ADDRESS = s.reg CMIC_MIIM_ADDRESS
  phy : (s.window t).param = true → s'.paramPhy = s.paramPhy
  data : (s.window t).param = true → (s.window t).call.data.isSome = true →
    s'.paramData = s.paramData
  readData : (s.window t).awaits = true → s'.reg CMIC_MIIM_READ_DATA = s.reg CMIC_MIIM_READ_DATA
  select : ∀ p ∈ (s.window t).relies, (s'.select p.1).get p.2 = (s.select p.1).get p.2

/-- Between the requests the control register changes, as DONE does and the bits of
the S-Channel, and so do the registers of the PHYs other than their selection. -/
structure PhysMove (s s' : MiimBus) : Prop where
  reg : ∀ off, off ≠ CMIC_MIIM_CTRL → s'.reg off = s.reg off
  select : s'.select = s.select
  window : s'.window = s.window
  log : s'.log = s.log

/-- Whatever the order of the requests, as long as every step spares the other thread. -/
def IsolatedRuns {α β : Type} (C C' : MiimBus → MiimBus → Prop) (p : Reg MiimEvent α)
    (q : Reg MiimEvent β) (s : MiimBus) : Prop :=
  ∀ c, Reaches (miimBus .netlink) (miimBus .linkPoll) PhysMove C C' (p, q, s) c → Isolated c.2.2

/-! ### Named transactions -/

/-- `miim_write` where the caller means this register. -/
def miimWriteTo (phy : PhyAddr) (target : Target) (keeps : List Target) (reg : BitVec 32)
    (data : BitVec 16) : Reg MiimEvent (Rc Unit) := do
  mark (.call ⟨phy, target, some data⟩ keeps)
  miimWrite (phy.phy.setWidth 32) (phy.bus.setWidth 32) reg data

/-- `miim_read` where the caller means this register. -/
def miimReadFrom (phy : PhyAddr) (target : Target) (reg : BitVec 32) :
    Reg MiimEvent (Rc (BitVec 16)) := do
  mark (.call ⟨phy, target, none⟩ [])
  let rc ← miimRead (phy.phy.setWidth 32) (phy.bus.setWidth 32) reg
  mark (.returned rc)
  return rc

end OpenNos.Sdk
