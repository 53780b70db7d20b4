import OpenNos.Lib.RegEdit
import OpenNos.Sdk.SerdesRegs

/-! The configuration of one lane. Each step reads a register into a variable, edits the
value and writes it back; three of the steps write whether or not the read succeeded, and
then what the variable held before goes into the register. -/

namespace OpenNos.Sdk

open RegProg RegEdit

/-! ### The steps -/

/-- One step of the configuration. -/
structure Rmw where
  edit : Edit (PhyAddr × Target) 16
  /-- a failed read skips the write -/
  checked : Bool
  /-- the variable is assigned the value that is written -/
  assigned : Bool
  /-- the values that are written back -/
  wanted : BitVec 16 → Bool

def regKey (phy : PhyAddr) (lane : BitVec 2) (addr : BitVec 16) : PhyAddr × Target :=
  (phy, .wc (lane.setWidth 16) addr)

/-- A checked step that edits a register of the lane. -/
def checkedRmw (phy : PhyAddr) (lane : BitVec 2) (addr clear set : BitVec 16)
    (assigned : Bool) : Rmw :=
  ⟨⟨regKey phy lane addr, clear, set⟩, true, assigned, fun _ => true⟩

section Steps

variable (phy : PhyAddr) (lane : BitVec 2)

def holdReset : Rmw := ⟨⟨regKey phy lane WC_MISC6, 0, 0xc000⟩, false, false, fun _ => true⟩

def setFwMode : Rmw :=
  ⟨⟨regKey phy 0 WC_FW_MODE, 0xf#16 <<< (4 * lane.toNat), 2#16 <<< (4 * lane.toNat)⟩, false, true,
    fun _ => true⟩

def clearHiGig : Rmw :=
  ⟨⟨regKey phy lane WC_CL49_CTRL1, WC_CL49_HG2_MASK, 0⟩, true, false,
    fun val => val &&& WC_CL49_HG2_MASK ≠ 0⟩

def releaseReset : Rmw := ⟨⟨regKey phy lane WC_MISC6, 0xc000, 0⟩, false, false, fun _ => true⟩

/-- The steps between those that hold and release the reset. -/
def speedSteps : List Rmw :=
  [checkedRmw phy lane 0x8400 0x0005 0 false, checkedRmw phy lane 0x8402 0 (1#16 <<< 7) false,
    clearHiGig phy lane, checkedRmw phy lane WC_MISC1 0x001f 0x09 false,
    checkedRmw phy lane WC_MISC3 (1#16 <<< 6) (1#16 <<< 7 ||| 1#16 <<< 15) true]

def clockStep : Rmw := checkedRmw phy lane WC_RX66_CTRL 0 (1#16 <<< 13 ||| 1#16 <<< 14) false

def syncEdits : List (Edit (PhyAddr × Target) 16) :=
  syncWords.map fun w => ⟨regKey phy lane w.1, 0xffff, w.2⟩

def pcsSteps : List Rmw :=
  [checkedRmw phy lane WC_MISC2 (1#16 <<< 5) 1 false,
    checkedRmw phy lane WC_CONTROL1000X1 (1#16 <<< 4) (1#16 <<< 6) true,
    checkedRmw phy lane WC_CONTROL1000X3 (3#16 <<< 1) (2#16 <<< 1 ||| 1#16 <<< 13) true]

/-- All the edits that the configuration declares. -/
def laneEdits : List (Edit (PhyAddr × Target) 16) :=
  ([holdReset phy lane, setFwMode phy lane] ++ speedSteps phy lane ++
    [releaseReset phy lane, clockStep phy lane] ++ pcsSteps phy lane).map Rmw.edit ++
    syncEdits phy lane

end Steps

/-- The variable, the registers and the number of transactions. -/
abbrev LaneState := BitVec 16 × PhyView PhyRegs

section Views

variable (delay : ℕ → ℕ)

/-- A write whose result is ignored. -/
def putReg (k : PhyAddr × Target) (data : BitVec 16) (v : PhyView PhyRegs) : PhyView PhyRegs :=
  (if AccessOk delay v.2 then Function.update v.1 k data else v.1, afterAccess delay v.2)

def putEdits (es : List (Edit (PhyAddr × Target) 16)) (s : LaneState) : LaneState :=
  (s.1, es.foldl (fun v e => putReg delay e.key e.set v) s.2)

namespace Rmw

variable (r : Rmw)

/-- What the variable holds after the read. -/
def fetched (s : LaneState) : BitVec 16 :=
  if AccessOk delay s.2.2 then s.2.1 r.edit.key else s.1

/-- The step comes to its write. -/
def Writes (s : LaneState) : Prop :=
  (r.checked = true → AccessOk delay s.2.2) ∧ r.wanted (r.fetched delay s) = true

instance (s : LaneState) : Decidable (r.Writes delay s) := inferInstanceAs (Decidable (_ ∧ _))

def step (s : LaneState) : LaneState :=
  if r.Writes delay s then
    (if r.assigned then r.edit.apply (r.fetched delay s) else r.fetched delay s,
      putReg delay r.edit.key (r.edit.apply (r.fetched delay s)) (s.2.1, afterAccess delay s.2.2))
  else (r.fetched delay s, (s.2.1, afterAccess delay s.2.2))

end Rmw

def runSteps (rs : List Rmw) (s : LaneState) : LaneState := rs.foldl (fun s r => r.step delay s) s

/-- The configuration of a lane, step by step. -/
def laneView (phy : PhyAddr) (lane : BitVec 2) (s : LaneState) : LaneState :=
  let s := (setFwMode phy lane).step delay ((holdReset phy lane).step delay s)
  let s := (releaseReset phy lane).step delay (runSteps delay (speedSteps phy lane) s)
  let s := putEdits delay (syncEdits phy lane) ((clockStep phy lane).step delay s)
  runSteps delay (pcsSteps phy lane) s

end Views

variable {delay : ℕ → ℕ} {phy : PhyAddr} {lane : BitVec 2} {addr : BitVec 16}

theorem onCore_putReg (haddr : isPlain addr) (data : BitVec 16) :
    OnCore plainRegs delay (wcPut phy lane addr data)
      (fun v => ((), putReg delay (regKey phy lane addr) data v)) := by
  intro s
  rw [← onCore_wcPut lane haddr data s]
  simp only [putView, writeView, accessView, putReg]
  by_cases hok : AccessOk delay s.view.2
  · simp only [if_pos hok]
    rfl
  · simp only [if_neg hok]

theorem onCore_fetched (haddr : isPlain addr) (val : BitVec 16) :
    OnCore plainRegs delay (wcReadInto val phy lane addr) (fun v =>
      (if AccessOk delay v.2 then v.1 (regKey phy lane addr) else val,
        (v.1, afterAccess delay v.2))) := by
  intro s
  rw [← onCore_wcReadInto val lane haddr s]
  simp only [intoView, readView, accessView]
  by_cases hok : AccessOk delay s.view.2
  · simp only [if_pos hok]
    rfl
  · simp only [if_neg hok]
    rfl

/-- A step whose write does not look at the read. -/
theorem onCore_unchecked {α : Type} {r : Rmw} (haddr : isPlain addr)
    (hkey : r.edit.key = regKey phy lane addr) (hchecked : r.checked = false)
    (hwanted : ∀ val, r.wanted val = true) {f : BitVec 16 → BitVec 16}
    (hf : ∀ val, f val = r.edit.apply val) {rest : BitVec 16 → Serdes α}
    {g : BitVec 16 → PhyView PhyRegs → α × PhyView PhyRegs}
    (hrest : ∀ val, OnCore plainRegs delay (rest val) (g val)) (val : BitVec 16) :
    OnCore plainRegs delay (do
      let val ← wcReadInto val phy lane addr
      wcPut phy lane addr (f val)
      rest val)
      (fun v => g (r.fetched delay (val, v)) (r.step delay (val, v)).2) := by
  have hput (val : BitVec 16) : OnCore plainRegs delay (wcPut phy lane addr (f val)) _ :=
    onCore_putReg haddr (f val)
  have hread : OnCore plainRegs delay (wcReadInto val phy lane addr) _ := onCore_fetched haddr val
  have hrun := hread.bind fun val => (hput val).bind fun _ => hrest val
  intro s
  refine Eq.trans ?_ (hrun s)
  have hwrites : r.Writes delay (val, s.view) := ⟨fun h => by simp [hchecked] at h, hwanted _⟩
  simp only [Rmw.step, if_pos hwrites, Rmw.fetched, hkey, hf]

/-- A read whose result decides how the program goes on. -/
theorem onCore_wcRead_bind {α : Type} (haddr : isPlain addr) {q : Rc (BitVec 16) → Serdes α}
    {g : Rc (BitVec 16) → PhyView PhyRegs → α × PhyView PhyRegs}
    (hq : ∀ rc, OnCore plainRegs delay (q rc) (g rc)) :
    OnCore plainRegs delay (wcRead phy lane addr >>= q) (fun v =>
      if AccessOk delay v.2 then g (.ok (v.1 (regKey phy lane addr))) (v.1, afterAccess delay v.2)
      else g (.error .eio) (v.1, afterAccess delay v.2)) := by
  have hread : OnCore plainRegs delay (wcRead phy lane addr) _ := onCore_wcRead lane haddr
  intro s
  rw [← hread.bind hq s]
  simp only [readView, accessView]
  split_ifs <;> rfl

/-- `wcUpdate` is a checked step. -/
theorem onCore_wcUpdate (haddr : isPlain addr) {clear set : BitVec 16} {assigned : Bool}
    {f : BitVec 16 → BitVec 16}
    (hf : ∀ val, f val = (checkedRmw phy lane addr clear set assigned).edit.apply val)
    (val : BitVec 16) : OnCore plainRegs delay (wcUpdate phy lane addr f assigned val)
      (fun v => (checkedRmw phy lane addr clear set assigned).step delay (val, v)) := by
  have hgo (rc : Rc (BitVec 16)) : OnCore plainRegs delay
      (if rc.isOk then do
        wcPut phy lane addr (f (rc.toOption.getD val))
        return if assigned then f (rc.toOption.getD val) else rc.toOption.getD val
      else return val)
      (fun v => if rc.isOk then
        (if assigned then f (rc.toOption.getD val) else rc.toOption.getD val,
          putReg delay (regKey phy lane addr) (f (rc.toOption.getD val)) v)
      else (val, v)) := by
    split_ifs
    · exact (onCore_putReg haddr _).bind fun _ => actsAs_pure _
    · exact (onCore_putReg haddr _).bind fun _ => actsAs_pure _
    · exact actsAs_pure val
  intro s
  refine Eq.trans ?_ (onCore_wcRead_bind haddr hgo s)
  simp only [Rmw.step, Rmw.Writes, Rmw.fetched, checkedRmw, forall_const, and_true]
  by_cases hok : AccessOk delay s.view.2
  · simp only [hok, hf]
    rfl
  · simp only [hok]
    rfl

/-- The step that writes only where a HiGig bit is set. -/
theorem onCore_clearHiGig {α : Type} {rest : BitVec 16 → Serdes α}
    {g : BitVec 16 → PhyView PhyRegs → α × PhyView PhyRegs}
    (hrest : ∀ val, OnCore plainRegs delay (rest val) (g val)) (val : BitVec 16) :
    OnCore plainRegs delay (do
      let rc ← wcRead phy lane WC_CL49_CTRL1
      let val := rc.toOption.getD val
      onlyIf (rc.isOk ∧ val &&& WC_CL49_HG2_MASK ≠ 0) do
        wcPut phy lane WC_CL49_CTRL1 (val &&& ~~~WC_CL49_HG2_MASK)
      rest val)
      (fun v => g ((clearHiGig phy lane).step delay (val, v)).1
        ((clearHiGig phy lane).step delay (val, v)).2) := by
  have hgo (rc : Rc (BitVec 16)) : OnCore plainRegs delay (do
      onlyIf (rc.isOk ∧ rc.toOption.getD val &&& WC_CL49_HG2_MASK ≠ 0) do
        wcPut phy lane WC_CL49_CTRL1 (rc.toOption.getD val &&& ~~~WC_CL49_HG2_MASK)
      rest (rc.toOption.getD val))
      (fun v => if rc.isOk ∧ rc.toOption.getD val &&& WC_CL49_HG2_MASK ≠ 0 then
        g (rc.toOption.getD val) (putReg delay (regKey phy lane WC_CL49_CTRL1)
          (rc.toOption.getD val &&& ~~~WC_CL49_HG2_MASK) v)
      else g (rc.toOption.getD val) v) := by
    unfold onlyIf
    split_ifs
    · exact (onCore_putReg (by decide) _).bind fun _ => hrest _
    · exact (actsAs_pure ()).bind fun _ => hrest _
  have hedit (x : BitVec 16) : (clearHiGig phy lane).edit.apply x = x &&& ~~~WC_CL49_HG2_MASK := by
    simp only [clearHiGig, Edit.apply, BitVec.ofNat_eq_ofNat, BitVec.or_zero]
  intro s
  refine Eq.trans ?_ (onCore_wcRead_bind (by decide) hgo s)
  simp only [Rmw.step, Rmw.Writes, Rmw.fetched, hedit]
  by_cases hok : AccessOk delay s.view.2
  · simp only [clearHiGig, hok, Except.isOk, Except.toBool, true_and, forall_const, Except.toOption,
      Option.getD_some, if_true, Bool.false_eq_true, if_false]
    by_cases hset : s.view.1 (regKey phy lane WC_CL49_CTRL1) &&& WC_CL49_HG2_MASK ≠ 0
    · simp only [if_pos hset, decide_eq_true hset, if_true]
    · simp only [if_neg hset, decide_eq_false hset, Bool.false_eq_true, if_false]
  · simp only [clearHiGig, hok, Except.isOk, Except.toBool, Except.toOption, Bool.false_eq_true,
      false_and, forall_const, if_false]
    rfl

theorem onCore_wcPutAll {ws : List (BitVec 16 × BitVec 16)} (hws : ∀ w ∈ ws, isPlain w.1) :
    OnCore plainRegs delay (wcPutAll phy lane ws) (fun v =>
      ((), (ws.map fun w => (⟨regKey phy lane w.1, 0xffff, w.2⟩ : Edit _ 16)).foldl
        (fun v e => putReg delay e.key e.set v) v)) := by
  induction ws with
  | nil => exact actsAs_pure ()
  | cons w rest ih =>
    obtain ⟨hw, hrest⟩ := List.forall_mem_cons.mp hws
    exact (onCore_putReg hw w.2).bind fun _ => ih hrest

/-- The configuration in its parts; the variable goes through all of them. -/
def configurePcs (phy : PhyAddr) (lane : BitVec 2) (val : BitVec 16) : Serdes Unit := do
  let val ← wcUpdate phy lane WC_MISC2 (fun val => (val ||| 1) &&& ~~~(1#16 <<< 5)) false val
  let val ← wcUpdate phy lane WC_CONTROL1000X1
    (fun val => (val ||| 1#16 <<< 6) &&& ~~~(1#16 <<< 4)) true val
  let _ ← wcUpdate phy lane WC_CONTROL1000X3
    (fun val => val &&& ~~~(3#16 <<< 1) ||| 2#16 <<< 1 ||| 1#16 <<< 13) true val

def configureClock (phy : PhyAddr) (lane : BitVec 2) (val : BitVec 16) : Serdes Unit := do
  let val ← wcUpdate phy lane WC_RX66_CTRL (fun val => val ||| 1#16 <<< 13 ||| 1#16 <<< 14) false
    val
  wcPutAll phy lane syncWords
  configurePcs phy lane val

def configureSpeed (phy : PhyAddr) (lane : BitVec 2) (rest : BitVec 16 → Serdes Unit)
    (val : BitVec 16) : Serdes Unit := do
  let val ← wcUpdate phy lane 0x8400 (fun val => val &&& ~~~0x0005) false val
  let val ← wcUpdate phy lane 0x8402 (fun val => val ||| 1#16 <<< 7) false val
  let rc ← wcRead phy lane WC_CL49_CTRL1
  let val := rc.toOption.getD val
  onlyIf (rc.isOk ∧ val &&& WC_CL49_HG2_MASK ≠ 0) do
    wcPut phy lane WC_CL49_CTRL1 (val &&& ~~~WC_CL49_HG2_MASK)
  let val ← wcUpdate phy lane WC_MISC1 (fun val => val &&& ~~~0x001f ||| 0x09) false val
  let val ← wcUpdate phy lane WC_MISC3
    (fun val => (val ||| (1#16 <<< 7 ||| 1#16 <<< 15)) &&& ~~~(1#16 <<< 6)) true val
  rest val

def configureRelease (phy : PhyAddr) (lane : BitVec 2) (val : BitVec 16) : Serdes Unit := do
  let val ← wcReadInto val phy lane WC_MISC6
  wcPut phy lane WC_MISC6 (val &&& ~~~0xc000)
  configureClock phy lane val

theorem configureLane_eq (val : BitVec 16) : configureLane val phy lane = (do
    let val ← wcReadInto val phy lane WC_MISC6
    wcPut phy lane WC_MISC6 (val ||| 0xc000)
    let val ← wcReadInto val phy 0 WC_FW_MODE
    wcPut phy 0 WC_FW_MODE
      (val &&& ~~~(0xf#16 <<< (4 * lane.toNat)) ||| 2#16 <<< (4 * lane.toNat))
    configureSpeed phy lane (configureRelease phy lane)
      (val &&& ~~~(0xf#16 <<< (4 * lane.toNat)) ||| 2#16 <<< (4 * lane.toNat))) := rfl

theorem onCore_configurePcs (val : BitVec 16) : OnCore plainRegs delay (configurePcs phy lane val)
    (fun v => ((), (runSteps delay (pcsSteps phy lane) (val, v)).2)) := by
  have hmisc2 := Edit.apply_set_clear (regKey phy lane WC_MISC2)
    (show 1 &&& 1#16 <<< 5 = 0 by decide)
  have hx1 := Edit.apply_set_clear (regKey phy lane WC_CONTROL1000X1)
    (show 1#16 <<< 6 &&& 1#16 <<< 4 = 0 by decide)
  have hx3 (x : BitVec 16) : x &&& ~~~(3#16 <<< 1) ||| 2#16 <<< 1 ||| 1#16 <<< 13 =
      (⟨regKey phy lane WC_CONTROL1000X3, 3#16 <<< 1, 2#16 <<< 1 ||| 1#16 <<< 13⟩ :
        Edit _ 16).apply x := BitVec.or_assoc _ _ _
  exact (onCore_wcUpdate (show isPlain WC_MISC2 by decide) (fun x => (hmisc2 x).symm)
      val).bind fun val =>
    (onCore_wcUpdate (show isPlain WC_CONTROL1000X1 by decide) (fun x => (hx1 x).symm)
      val).bind fun val =>
    (onCore_wcUpdate (show isPlain WC_CONTROL1000X3 by decide) hx3 val).bind fun _ => actsAs_pure ()

theorem syncWords_plain : ∀ w ∈ syncWords, isPlain w.1 = true :=
  List.all_eq_true.mp (show (syncWords.all fun w => isPlain w.1) = true by decide)

theorem onCore_configureClock (val : BitVec 16) :
    OnCore plainRegs delay (configureClock phy lane val) (fun v => ((),
      (runSteps delay (pcsSteps phy lane) (putEdits delay (syncEdits phy lane)
        ((clockStep phy lane).step delay (val, v)))).2)) := by
  have hclock (x : BitVec 16) : x ||| 1#16 <<< 13 ||| 1#16 <<< 14 =
      (⟨regKey phy lane WC_RX66_CTRL, 0, 1#16 <<< 13 ||| 1#16 <<< 14⟩ : Edit _ 16).apply x := by
    rw [Edit.apply_setOnly, BitVec.or_assoc]
  exact (onCore_wcUpdate (show isPlain WC_RX66_CTRL by decide) hclock val).bind fun val =>
    (onCore_wcPutAll syncWords_plain).bind fun _ => onCore_configurePcs val

theorem onCore_configureRelease (val : BitVec 16) :
    OnCore plainRegs delay (configureRelease phy lane val) (fun v => ((),
      (runSteps delay (pcsSteps phy lane) (putEdits delay (syncEdits phy lane)
        ((clockStep phy lane).step delay ((releaseReset phy lane).step delay (val, v))))).2)) :=
  onCore_unchecked (r := releaseReset phy lane) (by decide) rfl rfl (fun _ => rfl)
    (fun x => (Edit.apply_clearOnly _ 0xc000 x).symm) onCore_configureClock val

theorem onCore_configureSpeed {rest : BitVec 16 → Serdes Unit}
    {g : BitVec 16 → PhyView PhyRegs → Unit × PhyView PhyRegs}
    (hrest : ∀ val, OnCore plainRegs delay (rest val) (g val)) (val : BitVec 16) :
    OnCore plainRegs delay (configureSpeed phy lane rest val) (fun v =>
      g (runSteps delay (speedSteps phy lane) (val, v)).1
        (runSteps delay (speedSteps phy lane) (val, v)).2) := by
  have hmisc3 := Edit.apply_set_clear (regKey phy lane WC_MISC3)
    (show (1#16 <<< 7 ||| 1#16 <<< 15) &&& 1#16 <<< 6 = 0 by decide)
  have hmisc (val : BitVec 16) : OnCore plainRegs delay (do
      let val ← wcUpdate phy lane WC_MISC1 (fun val => val &&& ~~~0x001f ||| 0x09) false val
      let val ← wcUpdate phy lane WC_MISC3
        (fun val => (val ||| (1#16 <<< 7 ||| 1#16 <<< 15)) &&& ~~~(1#16 <<< 6)) true val
      rest val) _ :=
    (onCore_wcUpdate (show isPlain WC_MISC1 by decide) (fun _ => rfl) val).bind fun val =>
    (onCore_wcUpdate (show isPlain WC_MISC3 by decide) (fun x => (hmisc3 x).symm)
      val).bind fun val => hrest val
  exact (onCore_wcUpdate (show isPlain 0x8400 by decide)
      (fun x => (Edit.apply_clearOnly _ 0x0005 x).symm) val).bind fun val =>
    (onCore_wcUpdate (show isPlain 0x8402 by decide)
      (fun x => (Edit.apply_setOnly _ (1#16 <<< 7) x).symm) val).bind fun val =>
    onCore_clearHiGig hmisc val

/-- The configuration does its steps one after the other. -/
theorem onCore_configureLane (val : BitVec 16) : OnCore plainRegs delay (configureLane val phy lane)
    (fun v => ((), (laneView delay phy lane (val, v)).2)) := by
  rw [configureLane_eq]
  have hmode (val : BitVec 16) : OnCore plainRegs delay (do
      let val ← wcReadInto val phy 0 WC_FW_MODE
      wcPut phy 0 WC_FW_MODE
        (val &&& ~~~(0xf#16 <<< (4 * lane.toNat)) ||| 2#16 <<< (4 * lane.toNat))
      configureSpeed phy lane (configureRelease phy lane)
        (val &&& ~~~(0xf#16 <<< (4 * lane.toNat)) ||| 2#16 <<< (4 * lane.toNat))) _ :=
    onCore_unchecked (r := setFwMode phy lane) (by decide) rfl rfl (fun _ => rfl)
      (fun _ => rfl) (fun val => onCore_configureSpeed onCore_configureRelease _) val
  have hrun := onCore_unchecked (r := holdReset phy lane) (by decide) rfl rfl (fun _ => rfl)
    (fun x => (Edit.apply_setOnly _ 0xc000 x).symm) hmode val
  exact hrun

/-! ### What the steps do to the registers -/

section Registers

variable (delay) in
/-- The read of an unchecked step that starts at the `n`th transaction completes, or its
write does not. -/
def FreshRead (n : ℕ) : Prop := AccessOk delay n ∨ ¬ AccessOk delay (afterAccess delay n)

instance (n : ℕ) : Decidable (FreshRead delay n) := inferInstanceAs (Decidable (_ ∨ _))

variable {r : Rmw} {rs : List Rmw} {s : LaneState} {es : List (Edit (PhyAddr × Target) 16)}

/-- A step that checks nothing always comes to its write. -/
theorem unchecked_step (hchecked : r.checked = false) (hwanted : ∀ val, r.wanted val = true) :
    r.step delay s = (if r.assigned then r.edit.apply (r.fetched delay s) else r.fetched delay s,
      putReg delay r.edit.key (r.edit.apply (r.fetched delay s))
        (s.2.1, afterAccess delay s.2.2)) := by
  have hwrites : r.Writes delay s := ⟨fun h => by simp [hchecked] at h, hwanted _⟩
  rw [Rmw.step, if_pos hwrites]

/-- A step whose read fails and whose write does not puts the old value of the variable. -/
theorem stale_step (hchecked : r.checked = false) (hwanted : ∀ val, r.wanted val = true)
    (hstale : ¬ FreshRead delay s.2.2) :
    r.fetched delay s = s.1 ∧ (r.step delay s).2.1 r.edit.key = r.edit.apply s.1 := by
  obtain ⟨hread, hput⟩ := not_or.mp hstale
  have hfetched : r.fetched delay s = s.1 := if_neg hread
  refine ⟨hfetched, ?_⟩
  rw [unchecked_step hchecked hwanted, hfetched]
  simp only [putReg, if_pos (not_not.mp hput), Function.update_self]

theorem putReg_frame {k k' : PhyAddr × Target} (hk : k' ≠ k) (data : BitVec 16)
    (v : PhyView PhyRegs) : (putReg delay k data v).1 k' = v.1 k' := by
  unfold putReg
  split_ifs
  · exact Function.update_of_ne hk _ _
  · rfl

theorem putReg_cases (k' k : PhyAddr × Target) (data : BitVec 16) (v : PhyView PhyRegs) :
    (putReg delay k data v).1 k' = v.1 k' ∨ (putReg delay k data v).1 k' = data := by
  by_cases hk : k' = k
  · unfold putReg
    split_ifs
    · exact .inr (hk ▸ Function.update_self _ _ _)
    · exact .inl rfl
  · exact .inl (putReg_frame hk data v)

theorem step_frame {k : PhyAddr × Target} (hk : k ≠ r.edit.key) :
    (r.step delay s).2.1 k = s.2.1 k := by
  unfold Rmw.step
  split_ifs
  · exact putReg_frame hk _ _
  · exact putReg_frame hk _ _
  · rfl

theorem runSteps_frame {k : PhyAddr × Target} (hk : ∀ r ∈ rs, k ≠ r.edit.key) :
    (runSteps delay rs s).2.1 k = s.2.1 k := by
  induction rs generalizing s with
  | nil => rfl
  | cons r rest ih =>
    obtain ⟨hr, hrest⟩ := List.forall_mem_cons.mp hk
    exact (ih hrest).trans (step_frame hr)

theorem putEdits_frame {k : PhyAddr × Target} (hk : ∀ e ∈ es, k ≠ e.key) :
    (putEdits delay es s).2.1 k = s.2.1 k := by
  obtain ⟨val, v⟩ := s
  induction es generalizing v with
  | nil => rfl
  | cons e rest ih =>
    obtain ⟨he, hrest⟩ := List.forall_mem_cons.mp hk
    exact (ih hrest _).trans (putReg_frame he _ _)

/-- A step that writes only what it has read edits its register in place. -/
theorem step_edited (hr : r.edit ∈ es) (hfresh : r.checked = true ∨ FreshRead delay s.2.2) :
    Edited es s.2.1 (r.step delay s).2.1 := by
  by_cases hwrites : r.Writes delay s
  · by_cases hput : AccessOk delay (afterAccess delay s.2.2)
    · have hread : AccessOk delay s.2.2 := by
        rcases hfresh with hchecked | hok | hfail
        · exact hwrites.1 hchecked
        · exact hok
        · exact absurd hput hfail
      refine .single ⟨r.edit, hr, ?_⟩
      simp only [Rmw.step, if_pos hwrites, putReg, if_pos hput, Rmw.fetched, if_pos hread]
    · simp only [Rmw.step, if_pos hwrites, putReg, if_neg hput]
      exact .refl
  · simp only [Rmw.step, if_neg hwrites]
    exact .refl

theorem runSteps_edited (rs : List Rmw) (hrs : ∀ r ∈ rs, r.edit ∈ es ∧ r.checked = true) :
    Edited es s.2.1 (runSteps delay rs s).2.1 := by
  induction rs generalizing s with
  | nil => exact .refl
  | cons r rest ih =>
    obtain ⟨hr, hrest⟩ := List.forall_mem_cons.mp hrs
    exact (step_edited hr.1 (.inl hr.2)).trans (ih hrest)

/-- A write of a whole register. -/
theorem putEdits_edited (ws : List (Edit (PhyAddr × Target) 16))
    (hws : ∀ e ∈ ws, e ∈ es ∧ e.clear = 0xffff) :
    Edited es s.2.1 (putEdits delay ws s).2.1 := by
  obtain ⟨val, v⟩ := s
  induction ws generalizing v with
  | nil => exact .refl
  | cons e rest ih =>
    obtain ⟨⟨he, hclear⟩, hrest⟩ := List.forall_mem_cons.mp hws
    have hput : Edited es v.1 (putReg delay e.key e.set v).1 := by
      have happly : e.apply (v.1 e.key) = e.set := by
        rw [Edit.apply, hclear]
        simp
      unfold putReg
      split_ifs
      · exact .single ⟨e, he, by rw [happly]⟩
      · exact .refl
    exact hput.trans (ih hrest _)

end Registers

/-! ### How many transactions the steps take -/

section Counts

variable (delay : ℕ → ℕ)

/-- The first transaction after a checked step that starts at the `n`th. -/
def afterChecked (n : ℕ) : ℕ :=
  if AccessOk delay n then accessStart delay n 2 else afterAccess delay n

/-- The start of the step that releases the reset, in a configuration that starts at the
`n`th transaction and finds a HiGig bit set or none. -/
def releaseStart (hiGig : Bool) (n : ℕ) : ℕ :=
  let m := afterChecked delay (afterChecked delay (accessStart delay n 4))
  let m := if hiGig then afterChecked delay m else afterAccess delay m
  afterChecked delay (afterChecked delay m)

variable {delay}

theorem unchecked_count {r : Rmw} {s : LaneState} (hchecked : r.checked = false)
    (hwanted : ∀ val, r.wanted val = true) :
    (r.step delay s).2.2 = accessStart delay s.2.2 2 := by
  rw [unchecked_step hchecked hwanted]
  rfl

theorem checkedRmw_count {phy : PhyAddr} {lane : BitVec 2} {addr clear set : BitVec 16}
    {assigned : Bool} {s : LaneState} :
    ((checkedRmw phy lane addr clear set assigned).step delay s).2.2 =
      afterChecked delay s.2.2 := by
  simp only [Rmw.step, Rmw.Writes, checkedRmw, forall_const, and_true, afterChecked]
  split_ifs <;> rfl

theorem clearHiGig_count {phy : PhyAddr} {lane : BitVec 2} {s : LaneState} :
    ((clearHiGig phy lane).step delay s).2.2 =
      if s.2.1 (regKey phy lane WC_CL49_CTRL1) &&& WC_CL49_HG2_MASK ≠ 0 then
        afterChecked delay s.2.2
      else afterAccess delay s.2.2 := by
  simp only [Rmw.step, Rmw.Writes, Rmw.fetched, clearHiGig, forall_const, afterChecked]
  by_cases hok : AccessOk delay s.2.2
  · simp only [hok, true_and, if_true, decide_eq_true_eq]
    split_ifs <;> rfl
  · simp only [hok, false_and, if_false, ite_self]

end Counts

/-! ### The declared bits -/

theorem regKey_ne {a b : BitVec 16} (h : a ≠ b) (phy : PhyAddr) (l m : BitVec 2) :
    regKey phy l a ≠ regKey phy m b := by
  intro he
  simp only [regKey, Prod.mk.injEq, Target.wc.injEq] at he
  exact h he.2.2

section Declared

-- the edits and their registers, to be compared one by one
attribute [local simp] declared laneEdits holdReset setFwMode speedSteps releaseReset clockStep
  pcsSteps clearHiGig checkedRmw syncEdits syncWords regKey Edit.mask WC_MISC6 WC_FW_MODE
  WC_CL49_CTRL1 WC_MISC1 WC_MISC3 WC_RX66_CTRL WC_MISC2 WC_CONTROL1000X1 WC_CONTROL1000X3
  WC_RX66_SCW0 WC_RX66_SCW1 WC_RX66_SCW2 WC_RX66_SCW3 WC_RX66_SCW0_MASK WC_RX66_SCW1_MASK
  WC_RX66_SCW2_MASK WC_RX66_SCW3_MASK

theorem declared_misc6 (phy : PhyAddr) (lane : BitVec 2) :
    declared (laneEdits phy lane) (regKey phy lane WC_MISC6) = 0xc000 := by
  simp

theorem declared_fwMode (phy : PhyAddr) (lane : BitVec 2) :
    declared (laneEdits phy lane) (regKey phy 0 WC_FW_MODE) = 0xf#16 <<< (4 * lane.toNat) := by
  have hset : ∀ l : BitVec 2, 0xf#16 <<< (4 * l.toNat) ||| 2#16 <<< (4 * l.toNat) =
      0xf#16 <<< (4 * l.toNat) := by decide
  simp
  exact hset lane

end Declared

/-- The part of the firmware mode that belongs to a lane. -/
def fwNibble (l : BitVec 2) (mode : BitVec 16) : BitVec 4 := (mode >>> (4 * l.toNat)).setWidth 4

theorem fwNibble_of_kept {lane l : BitVec 2} (hl : l ≠ lane) {x y : BitVec 16}
    (h : x &&& ~~~(0xf#16 <<< (4 * lane.toNat)) = y &&& ~~~(0xf#16 <<< (4 * lane.toNat))) :
    fwNibble l x = fwNibble l y := by
  have hother : ∀ l lane : BitVec 2, l ≠ lane →
      fwNibble l (0xf#16 <<< (4 * lane.toNat)) = 0 := by decide
  have hand (x m : BitVec 16) :
      fwNibble l (x &&& ~~~m) = fwNibble l x &&& ~~~fwNibble l m := by
    ext i hi
    have hpos : 4 * l.toNat + i < 16 := by omega
    simp [fwNibble, hpos]
  have hkeep (x : BitVec 16) : fwNibble l (x &&& ~~~(0xf#16 <<< (4 * lane.toNat))) =
      fwNibble l x := by
    rw [hand, hother l lane hl, BitVec.ofNat_eq_ofNat, BitVec.not_zero, BitVec.and_allOnes]
  rw [← hkeep x, h, hkeep]

/-! ### The frame -/

/-- What the configuration of a lane may do to the registers. -/
structure KeepsDeclared (phy : PhyAddr) (lane : BitVec 2) (regs regs' : PhyRegs) : Prop where
  /-- bits outside the declared masks stay -/
  bits : ∀ k, regs' k &&& ~~~declared (laneEdits phy lane) k =
    regs k &&& ~~~declared (laneEdits phy lane) k
  /-- so do the nibbles of the other lanes -/
  nibbles : ∀ l, l ≠ lane → fwNibble l (regs' (regKey phy 0 WC_FW_MODE)) =
    fwNibble l (regs (regKey phy 0 WC_FW_MODE))
  /-- what is written is always the register's own content, edited -/
  own : Edited (laneEdits phy lane) regs regs'

/-- With this pattern of failures the configuration keeps to its declared bits, whatever the
registers and the variable hold. -/
def LaneFramed (delay : ℕ → ℕ) (n : ℕ) (phy : PhyAddr) (lane : BitVec 2) : Prop :=
  ∀ val (s : MiimDev PhyRegs), s.bus.count = n → KeepsDeclared phy lane s.bus.core
    (runAlone (miimDev plainRegs delay) (configureLane val phy lane) s).2.bus.core

/-- None of the three steps that do not check their read has it fail and its write done. -/
def ReadsFresh (delay : ℕ → ℕ) (n : ℕ) : Prop :=
  FreshRead delay n ∧ FreshRead delay (accessStart delay n 2) ∧
    ∀ hiGig, FreshRead delay (releaseStart delay hiGig n)

section Frame

variable {n : ℕ}

theorem laneFramed_iff_view : LaneFramed delay n phy lane ↔ ∀ val regs,
    KeepsDeclared phy lane regs (laneView delay phy lane (val, (regs, n))).2.1 := by
  have hrun (val : BitVec 16) (s : MiimDev PhyRegs) :
      (runAlone (miimDev plainRegs delay) (configureLane val phy lane) s).2.bus.core =
        (laneView delay phy lane (val, s.view)).2.1 :=
    congrArg Prod.fst ((onCore_configureLane val).state s)
  constructor
  · intro h val regs
    have hkeeps := h val (idleDev regs n) rfl
    rwa [hrun] at hkeeps
  · rintro h val s rfl
    rw [hrun]
    exact h val s.bus.core

theorem keepsDeclared_of_edited {regs regs' : PhyRegs}
    (h : Edited (laneEdits phy lane) regs regs') : KeepsDeclared phy lane regs regs' where
  bits := h.kept
  nibbles l hl := by
    have hkept := h.kept (regKey phy 0 WC_FW_MODE)
    rw [declared_fwMode] at hkept
    exact fwNibble_of_kept hl hkept
  own := h

/-- The step that releases the reset starts where `releaseStart` says. -/
theorem speedSteps_count (s : LaneState) (hstart : s.2.2 = accessStart delay n 4) :
    (runSteps delay (speedSteps phy lane) s).2.2 = releaseStart delay
      (s.2.1 (regKey phy lane WC_CL49_CTRL1) &&& WC_CL49_HG2_MASK ≠ 0) n := by
  have hcl49 {a : BitVec 16} (ha : WC_CL49_CTRL1 ≠ a) :
      regKey phy lane WC_CL49_CTRL1 ≠ regKey phy lane a := regKey_ne ha phy lane lane
  rw [speedSteps, runSteps, List.foldl_cons, List.foldl_cons, List.foldl_cons, List.foldl_cons,
    List.foldl_cons, List.foldl_nil, checkedRmw_count, checkedRmw_count, clearHiGig_count,
    checkedRmw_count, checkedRmw_count, step_frame (hcl49 (by decide)),
    step_frame (hcl49 (by decide)), hstart]
  simp only [releaseStart, decide_eq_true_eq]

theorem speedSteps_checked : ∀ r ∈ speedSteps phy lane, r.checked = true := by
  simp [speedSteps, checkedRmw, clearHiGig]

theorem pcsSteps_checked : ∀ r ∈ pcsSteps phy lane, r.checked = true := by
  simp [pcsSteps, checkedRmw]

/-- A configuration whose unchecked steps are fresh edits registers in place. -/
theorem laneView_edited (h : ReadsFresh delay n) (val : BitVec 16) (regs : PhyRegs) :
    Edited (laneEdits phy lane) regs (laneView delay phy lane (val, (regs, n))).2.1 := by
  obtain ⟨hhold, hmode, hrelease⟩ := h
  have hmem {r : Rmw} (hr : r ∈ [holdReset phy lane, setFwMode phy lane] ++ speedSteps phy lane ++
      [releaseReset phy lane, clockStep phy lane] ++ pcsSteps phy lane) :
      r.edit ∈ laneEdits phy lane := List.mem_append_left _ (List.mem_map_of_mem hr)
  let s₁ := (holdReset phy lane).step delay (val, (regs, n))
  let s₂ := (setFwMode phy lane).step delay s₁
  let s₃ := runSteps delay (speedSteps phy lane) s₂
  let s₄ := (releaseReset phy lane).step delay s₃
  let s₅ := (clockStep phy lane).step delay s₄
  let s₆ := putEdits delay (syncEdits phy lane) s₅
  have hcount₁ : s₁.2.2 = accessStart delay n 2 := unchecked_count rfl fun _ => rfl
  have hcount₂ : s₂.2.2 = accessStart delay n 4 :=
    (unchecked_count rfl fun _ => rfl).trans (by rw [hcount₁, ← accessStart_add])
  have h₁ : Edited (laneEdits phy lane) regs s₁.2.1 :=
    step_edited (s := (val, (regs, n))) (hmem (r := holdReset phy lane) (by simp)) (.inr hhold)
  have h₂ : Edited (laneEdits phy lane) s₁.2.1 s₂.2.1 :=
    step_edited (hmem (r := setFwMode phy lane) (by simp)) (.inr (hcount₁ ▸ hmode))
  have h₃ : Edited (laneEdits phy lane) s₂.2.1 s₃.2.1 :=
    runSteps_edited (speedSteps phy lane) fun r hr =>
      ⟨hmem (by simp [hr]), speedSteps_checked r hr⟩
  have h₄ : Edited (laneEdits phy lane) s₃.2.1 s₄.2.1 :=
    step_edited (hmem (r := releaseReset phy lane) (by simp))
      (.inr (speedSteps_count s₂ hcount₂ ▸ hrelease _))
  have h₅ : Edited (laneEdits phy lane) s₄.2.1 s₅.2.1 :=
    step_edited (hmem (r := clockStep phy lane) (by simp)) (.inl rfl)
  have h₆ : Edited (laneEdits phy lane) s₅.2.1 s₆.2.1 := by
    refine putEdits_edited (syncEdits phy lane) fun e he => ⟨List.mem_append_right _ he, ?_⟩
    obtain ⟨w, -, rfl⟩ := List.mem_map.mp he
    rfl
  have h₇ : Edited (laneEdits phy lane) s₆.2.1 (runSteps delay (pcsSteps phy lane) s₆).2.1 :=
    runSteps_edited (pcsSteps phy lane) fun r hr =>
      ⟨hmem (by simp [hr]), pcsSteps_checked r hr⟩
  exact h₁.trans (h₂.trans (h₃.trans (h₄.trans (h₅.trans (h₆.trans h₇)))))

/-! ### Stale data -/

/-- A bit of the lane's nibble below the reset bits that no step before the release sets. -/
def freeBit (lane : BitVec 2) : ℕ := if lane = 0 then 2 else 4 * lane.toNat

/-- The bit is clear in the variable and in every register but one. -/
def ClearBut (k : PhyAddr × Target) (b : ℕ) (s : LaneState) : Prop :=
  s.1.getLsbD b = false ∧ ∀ k', k' ≠ k → (s.2.1 k').getLsbD b = false

theorem step_clear {r : Rmw} {k : PhyAddr × Target} {b : ℕ} {s : LaneState}
    (hkey : r.edit.key ≠ k) (hset : r.edit.set.getLsbD b = false) (h : ClearBut k b s) :
    ClearBut k b (r.step delay s) := by
  have hfetched : (r.fetched delay s).getLsbD b = false := by
    unfold Rmw.fetched
    split_ifs
    · exact h.2 _ hkey
    · exact h.1
  have happly := r.edit.apply_clear hfetched hset
  have hput (k' : PhyAddr × Target) (hk' : k' ≠ k) : ((putReg delay r.edit.key
      (r.edit.apply (r.fetched delay s)) (s.2.1, afterAccess delay s.2.2)).1 k').getLsbD b =
        false := by
    rcases putReg_cases k' r.edit.key (r.edit.apply (r.fetched delay s))
      (s.2.1, afterAccess delay s.2.2) with he | he
    · rw [he]
      exact h.2 k' hk'
    · rw [he]
      exact happly
  unfold Rmw.step
  split_ifs
  · exact ⟨happly, hput⟩
  · exact ⟨hfetched, hput⟩
  · exact ⟨hfetched, h.2⟩

theorem runSteps_clear {rs : List Rmw} {k : PhyAddr × Target} {b : ℕ} {s : LaneState}
    (hrs : ∀ r ∈ rs, r.edit.key ≠ k ∧ r.edit.set.getLsbD b = false) (h : ClearBut k b s) :
    ClearBut k b (runSteps delay rs s) := by
  induction rs generalizing s with
  | nil => exact h
  | cons r rest ih =>
    obtain ⟨hr, hrest⟩ := List.forall_mem_cons.mp hrs
    exact ih hrest (step_clear hr.1 hr.2 h)

theorem speedSteps_free : ∀ r ∈ speedSteps phy lane,
    r.edit.key ≠ regKey phy lane WC_MISC6 ∧ r.edit.set.getLsbD (freeBit lane) = false := by
  have hbits : ∀ l : BitVec 2, (0 : BitVec 16).getLsbD (freeBit l) = false ∧
      (1#16 <<< 7).getLsbD (freeBit l) = false ∧ (0x09 : BitVec 16).getLsbD (freeBit l) = false ∧
      (1#16 <<< 7 ||| 1#16 <<< 15).getLsbD (freeBit l) = false := by decide
  obtain ⟨hzero, hfx, hspeed, hmisc⟩ := hbits lane
  have hne {a : BitVec 16} (ha : a ≠ WC_MISC6) :
      regKey phy lane a ≠ regKey phy lane WC_MISC6 := regKey_ne ha phy lane lane
  intro r hr
  simp only [speedSteps, List.mem_cons, List.not_mem_nil, or_false] at hr
  rcases hr with rfl | rfl | rfl | rfl | rfl
  · exact ⟨hne (by decide), hzero⟩
  · exact ⟨hne (by decide), hfx⟩
  · exact ⟨hne (by decide), hzero⟩
  · exact ⟨hne (by decide), hspeed⟩
  · exact ⟨hne (by decide), hmisc⟩

/-- The reset register has the free bit set, the CL49 register a HiGig bit or none. -/
def staleRegs (phy : PhyAddr) (lane : BitVec 2) (hiGig : Bool) : PhyRegs := fun k =>
  if k = regKey phy lane WC_MISC6 then 1#16 <<< freeBit lane
  else if k = regKey phy lane WC_CL49_CTRL1 ∧ hiGig = true then 0x0020
  else 0

theorem freeBit_facts (lane : BitVec 2) : freeBit lane < 14 ∧
    (0 : BitVec 16).getLsbD (freeBit lane) = false ∧
    (0x0020 : BitVec 16).getLsbD (freeBit lane) = false ∧
    (0xc000 : BitVec 16).getLsbD (freeBit lane) = false ∧
    (1#16 <<< freeBit lane).getLsbD (freeBit lane) = true ∧
    (0xf#16 <<< (4 * lane.toNat)).getLsbD (freeBit lane) = true ∧
    (2#16 <<< (4 * lane.toNat)).getLsbD (freeBit lane) = false := by
  revert lane
  decide

theorem staleRegs_clear (hiGig : Bool) {k : PhyAddr × Target}
    (hk : k ≠ regKey phy lane WC_MISC6) :
    (staleRegs phy lane hiGig k).getLsbD (freeBit lane) = false := by
  obtain ⟨-, hzero, hbit, -⟩ := freeBit_facts lane
  rw [staleRegs, if_neg hk]
  split_ifs
  · exact hbit
  · exact hzero

/-- After the firmware mode is set the bit is clear everywhere but in the reset register. -/
theorem mode_clear (hiGig : Bool) : ClearBut (regKey phy lane WC_MISC6) (freeBit lane)
    ((setFwMode phy lane).step delay
      ((holdReset phy lane).step delay (0, (staleRegs phy lane hiGig, n)))) := by
  obtain ⟨-, -, -, -, -, hclear, hset⟩ := freeBit_facts lane
  have hmode := (setFwMode phy lane).edit.apply_cleared hclear hset
  rw [unchecked_step (r := setFwMode phy lane) rfl fun _ => rfl]
  refine ⟨hmode _, fun k hk => ?_⟩
  rcases putReg_cases k (setFwMode phy lane).edit.key _ _ with he | he
  · rw [he, step_frame hk]
    exact staleRegs_clear hiGig hk
  · rw [he]
    exact hmode _

/-- The reset register keeps the bit clear from the release on if it is clear before, or if
the release writes what the variable held. -/
theorem release_clear {s : LaneState} (h : ClearBut (regKey phy lane WC_MISC6) (freeBit lane) s)
    (hstale : (s.2.1 (regKey phy lane WC_MISC6)).getLsbD (freeBit lane) = false ∨
      ¬ FreshRead delay s.2.2) :
    (((releaseReset phy lane).step delay s).2.1 (regKey phy lane WC_MISC6)).getLsbD
      (freeBit lane) = false := by
  have hset := (freeBit_facts lane).2.1
  rcases hstale with hclear | hstale
  · rw [unchecked_step (r := releaseReset phy lane) rfl fun _ => rfl]
    rcases putReg_cases (regKey phy lane WC_MISC6) (releaseReset phy lane).edit.key _ _ with he | he
    · rw [he]
      exact hclear
    · rw [he]
      refine Edit.apply_clear _ ?_ hset
      unfold Rmw.fetched
      split_ifs
      · exact hclear
      · exact h.1
  · have hput := (stale_step (r := releaseReset phy lane) rfl (fun _ => rfl) hstale).2
    exact hput ▸ Edit.apply_clear _ h.1 hset

/-- The registers written after the release. -/
def tailAddrs : List (BitVec 16) :=
  WC_RX66_CTRL :: (syncWords.map Prod.fst ++ [WC_MISC2, WC_CONTROL1000X1, WC_CONTROL1000X3])

theorem tail_frame {s : LaneState} {l : BitVec 2} {a : BitVec 16} (ha : a ∉ tailAddrs) :
    (runSteps delay (pcsSteps phy lane) (putEdits delay (syncEdits phy lane)
      ((clockStep phy lane).step delay s))).2.1 (regKey phy l a) = s.2.1 (regKey phy l a) := by
  have hne {b : BitVec 16} (hb : b ∈ tailAddrs) : regKey phy l a ≠ regKey phy lane b :=
    regKey_ne (ne_of_mem_of_not_mem hb ha).symm phy l lane
  rw [runSteps_frame, putEdits_frame, step_frame]
  · exact hne (by simp [tailAddrs])
  · intro e he
    obtain ⟨w, hw, rfl⟩ := List.mem_map.mp he
    exact hne (by simp [tailAddrs, List.mem_map_of_mem hw])
  · intro r hr
    simp only [pcsSteps, List.mem_cons, List.not_mem_nil, or_false] at hr
    rcases hr with rfl | rfl | rfl
    · exact hne (by simp [tailAddrs])
    · exact hne (by simp [tailAddrs])
    · exact hne (by simp [tailAddrs])

/-- The registers written between the mode and the release. -/
def speedAddrs : List (BitVec 16) := [0x8400, 0x8402, WC_CL49_CTRL1, WC_MISC1, WC_MISC3]

theorem speed_frame {s : LaneState} {l : BitVec 2} {a : BitVec 16}
    (ha : a ∉ speedAddrs) :
    (runSteps delay (speedSteps phy lane) s).2.1 (regKey phy l a) = s.2.1 (regKey phy l a) := by
  have hne {b : BitVec 16} (hb : b ∈ speedAddrs) : regKey phy l a ≠ regKey phy lane b :=
    regKey_ne (ne_of_mem_of_not_mem hb ha).symm phy l lane
  refine runSteps_frame fun r hr => ?_
  simp only [speedSteps, List.mem_cons, List.not_mem_nil, or_false] at hr
  rcases hr with rfl | rfl | rfl | rfl | rfl
  · exact hne (by simp [speedAddrs])
  · exact hne (by simp [speedAddrs])
  · exact hne (by simp [speedAddrs])
  · exact hne (by simp [speedAddrs])
  · exact hne (by simp [speedAddrs])

theorem before_release_misc6 {s : LaneState} :
    (runSteps delay (speedSteps phy lane) ((setFwMode phy lane).step delay s)).2.1
      (regKey phy lane WC_MISC6) = s.2.1 (regKey phy lane WC_MISC6) := by
  have hmode : regKey phy lane WC_MISC6 ≠ (setFwMode phy lane).edit.key :=
    regKey_ne (by decide) phy lane 0
  rw [speed_frame (by decide), step_frame hmode]

/-- The release starts where the CL49 register of the beginning says. -/
theorem before_release_count (val : BitVec 16) (hiGig : Bool) :
    (runSteps delay (speedSteps phy lane) ((setFwMode phy lane).step delay
      ((holdReset phy lane).step delay (val, (staleRegs phy lane hiGig, n))))).2.2 =
      releaseStart delay hiGig n := by
  have hmode : regKey phy lane WC_CL49_CTRL1 ≠ (setFwMode phy lane).edit.key :=
    regKey_ne (by decide) phy lane 0
  have hhold : regKey phy lane WC_CL49_CTRL1 ≠ (holdReset phy lane).edit.key :=
    regKey_ne (by decide) phy lane lane
  have hcl49 : staleRegs phy lane hiGig (regKey phy lane WC_CL49_CTRL1) =
      if hiGig then 0x0020 else 0 := by
    simp [staleRegs, regKey, WC_CL49_CTRL1, WC_MISC6]
  have hstart : ((setFwMode phy lane).step delay ((holdReset phy lane).step delay
      (val, (staleRegs phy lane hiGig, n)))).2.2 = accessStart delay n 4 := by
    rw [unchecked_count rfl fun _ => rfl, unchecked_count rfl fun _ => rfl, ← accessStart_add]
  rw [speedSteps_count _ hstart, step_frame hmode, step_frame hhold]
  simp only [hcl49]
  cases hiGig <;> rfl

/-- Where the hold or the release writes a stale value, the reset register loses a bit. -/
theorem reset_lost (hiGig : Bool)
    (hstale : ¬ FreshRead delay n ∨ ¬ FreshRead delay (releaseStart delay hiGig n)) :
    ((laneView delay phy lane (0, (staleRegs phy lane hiGig, n))).2.1
      (regKey phy lane WC_MISC6)).getLsbD (freeBit lane) = false := by
  obtain ⟨-, hzero, -, htop, -⟩ := freeBit_facts lane
  let s₁ := (holdReset phy lane).step delay (0, (staleRegs phy lane hiGig, n))
  let s₃ := runSteps delay (speedSteps phy lane) ((setFwMode phy lane).step delay s₁)
  have hclear : ClearBut (regKey phy lane WC_MISC6) (freeBit lane) s₃ :=
    runSteps_clear speedSteps_free (mode_clear hiGig)
  have hreset : (s₃.2.1 (regKey phy lane WC_MISC6)).getLsbD (freeBit lane) = false ∨
      ¬ FreshRead delay s₃.2.2 := by
    rcases hstale with hhold | hrelease
    · left
      have hput := (stale_step (r := holdReset phy lane) (s := (0, (staleRegs phy lane hiGig, n)))
        rfl (fun _ => rfl) hhold).2
      have hkept : s₃.2.1 (regKey phy lane WC_MISC6) = s₁.2.1 (regKey phy lane WC_MISC6) :=
        before_release_misc6
      rw [hkept]
      exact hput ▸ Edit.apply_clear _ hzero htop
    · right
      rwa [before_release_count]
  have hfinal : (laneView delay phy lane (0, (staleRegs phy lane hiGig, n))).2.1
      (regKey phy lane WC_MISC6) =
      ((releaseReset phy lane).step delay s₃).2.1 (regKey phy lane WC_MISC6) :=
    tail_frame (by decide)
  rw [hfinal]
  exact release_clear hclear hreset

theorem not_framed_of_reset (hiGig : Bool)
    (hstale : ¬ FreshRead delay n ∨ ¬ FreshRead delay (releaseStart delay hiGig n)) :
    ¬ LaneFramed delay n phy lane := by
  intro h
  obtain ⟨hlow, -, -, htop, hone, -⟩ := freeBit_facts lane
  have hbits := (laneFramed_iff_view.mp h 0 (staleRegs phy lane hiGig)).bits
    (regKey phy lane WC_MISC6)
  have hbit := congrArg (fun x : BitVec 16 => x.getLsbD (freeBit lane)) hbits
  rw [declared_misc6] at hbit
  have hwidth : freeBit lane < 16 := by omega
  simp only [BitVec.getLsbD_and, BitVec.getLsbD_not, reset_lost hiGig hstale, staleRegs, if_pos,
    hone, htop, hwidth, decide_true, Bool.not_false, Bool.and_self, Bool.false_and] at hbit
  exact Bool.false_ne_true hbit

/-- Where the mode is written with a stale value, the other lanes lose theirs. -/
theorem not_framed_of_mode (hstale : ¬ FreshRead delay (accessStart delay n 2)) :
    ¬ LaneFramed delay n phy lane := by
  intro h
  let regs : PhyRegs := fun k => if k = regKey phy 0 WC_FW_MODE then 0xffff else 0
  let s₁ := (holdReset phy lane).step delay (0, (regs, n))
  let s₃ := runSteps delay (speedSteps phy lane) ((setFwMode phy lane).step delay s₁)
  have hbits := (laneFramed_iff_view.mp h 0 regs).bits (regKey phy 0 WC_FW_MODE)
  have hval : s₁.1 = 0 := by
    have hreset : regs (regKey phy lane WC_MISC6) = 0 :=
      if_neg (regKey_ne (by decide) phy lane 0)
    have hstep : s₁.1 = (holdReset phy lane).fetched delay (0, (regs, n)) := by
      rw [show s₁ = _ from unchecked_step (r := holdReset phy lane) rfl fun _ => rfl]
      rfl
    rw [hstep]
    unfold Rmw.fetched
    split_ifs
    · exact hreset
    · rfl
  have hcount : s₁.2.2 = accessStart delay n 2 := unchecked_count rfl fun _ => rfl
  have hmode := (stale_step (r := setFwMode phy lane) (s := s₁) rfl (fun _ => rfl)
    (hcount ▸ hstale)).2
  have hfinal : (laneView delay phy lane (0, (regs, n))).2.1 (regKey phy 0 WC_FW_MODE) =
      (setFwMode phy lane).edit.apply 0 := by
    have htail : (laneView delay phy lane (0, (regs, n))).2.1 (regKey phy 0 WC_FW_MODE) =
        ((releaseReset phy lane).step delay s₃).2.1 (regKey phy 0 WC_FW_MODE) :=
      tail_frame (by decide)
    have hrelease : regKey phy 0 WC_FW_MODE ≠ (releaseReset phy lane).edit.key :=
      regKey_ne (by decide) phy 0 lane
    rw [htail, step_frame hrelease, speed_frame (by decide), ← hval]
    exact hmode
  have hlost : ∀ l : BitVec 2, (0 &&& ~~~(0xf#16 <<< (4 * l.toNat)) ||| 2#16 <<< (4 * l.toNat)) &&&
      ~~~(0xf#16 <<< (4 * l.toNat)) ≠ 0xffff &&& ~~~(0xf#16 <<< (4 * l.toNat)) := by decide
  have hbefore : regs (regKey phy 0 WC_FW_MODE) = 0xffff := if_pos rfl
  rw [hfinal, hbefore, declared_fwMode] at hbits
  exact hlost lane hbits

theorem fresh_of_laneFramed (h : LaneFramed delay n phy lane) : ReadsFresh delay n := by
  refine ⟨?_, ?_, fun hiGig => ?_⟩
  · by_contra hstale
    exact not_framed_of_reset false (.inl hstale) h
  · by_contra hstale
    exact not_framed_of_mode hstale h
  · by_contra hstale
    exact not_framed_of_reset hiGig (.inr hstale) h

/-- The configuration of a lane changes only what it declares exactly with the patterns of
failures in which no unchecked step loses its read and makes its write. -/
theorem laneFramed_iff : LaneFramed delay n phy lane ↔ ReadsFresh delay n :=
  ⟨fresh_of_laneFramed, fun h => laneFramed_iff_view.mpr fun val regs =>
    keepsDeclared_of_edited (laneView_edited h val regs)⟩

/-- Only the read of the firmware mode fails. -/
theorem not_laneFramed_modeLost :
    ¬ LaneFramed (fun n => if n = 11 then MIIM_POLL_MAX else 0) 0 ⟨1, 31⟩ 1 :=
  not_framed_of_mode (by decide)

end Frame

end OpenNos.Sdk
