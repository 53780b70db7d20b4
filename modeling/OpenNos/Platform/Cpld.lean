import OpenNos.Lib.Decimal
import OpenNos.Lib.Errno
import OpenNos.Lib.LastWrite
import OpenNos.Lib.RegProg

/-! The CPLD driver `accton_as5610_cpld.c`. Status of supplies and fans, the fan speed and
four lamps are files of sysfs over one byte-wide register each, or a part of one: the lamps
share register 0x13 and the fan flags register 0x03. A store changes its own part of a
register, so what a file shows is what was last stored in that file. -/

namespace OpenNos.Platform

open Cstring RegProg LastWrite

def CPLD_REG_PSU2_STATUS : ℕ := 0x01

def CPLD_REG_PSU1_STATUS : ℕ := 0x02

def CPLD_REG_SYS_STATUS : ℕ := 0x03

def CPLD_REG_WATCHDOG : ℕ := 0x06

def CPLD_REG_FAN_SPEED : ℕ := 0x0D

def CPLD_REG_LED : ℕ := 0x13

def PSU_PRESENT_MASK : BitVec 8 := 0x01

def PSU_POWER_OK_MASK : BitVec 8 := 0x02

def FAN_PRESENT_MASK : BitVec 8 := 0x04

def FAN_FAILURE_MASK : BitVec 8 := 0x08

def FAN_AIR_FLOW_MASK : BitVec 8 := 0x10

def FAN_SPEED_RAW_MAX : BitVec 8 := 0x1F

def FAN_PWM_SCALE : ℕ := 8

def FAN_PWM_MAX : ℤ := 248

/-- The bits of a lamp and its two colours; dark is zero. -/
structure Lamp where
  mask : BitVec 8
  green : BitVec 8
  amber : BitVec 8
  green_in : green &&& mask = green
  amber_in : amber &&& mask = amber
  differ : green ≠ amber ∧ green ≠ 0 ∧ amber ≠ 0

def LED_PSU1 : Lamp := ⟨0x03, 0x02, 0x01, by decide, by decide, by decide⟩

def LED_PSU2 : Lamp := ⟨0x0C, 0x08, 0x04, by decide, by decide, by decide⟩

def LED_DIAG : Lamp := ⟨0x30, 0x20, 0x10, by decide, by decide, by decide⟩

def LED_FAN : Lamp := ⟨0xC0, 0x80, 0x40, by decide, by decide, by decide⟩

/-- "green", "amber" and "off". -/
def GREEN : List Byte := [0x67, 0x72, 0x65, 0x65, 0x6e]

def AMBER : List Byte := [0x61, 0x6d, 0x62, 0x65, 0x72]

def OFF : List Byte := [0x6f, 0x66, 0x66]

/-- "front-to-back" and "back-to-front". -/
def FRONT_TO_BACK : List Byte :=
  [0x66, 0x72, 0x6f, 0x6e, 0x74, 0x2d, 0x74, 0x6f, 0x2d, 0x62, 0x61, 0x63, 0x6b]

def BACK_TO_FRONT : List Byte :=
  [0x62, 0x61, 0x63, 0x6b, 0x2d, 0x74, 0x6f, 0x2d, 0x66, 0x72, 0x6f, 0x6e, 0x74]

/-- A driver function: a program over the registers of the CPLD. -/
abbrev CpldProg := RegProg ℕ (BitVec 8) Empty

def cpldRd (reg : ℕ) : CpldProg (BitVec 8) := readReg reg

def cpldWr (reg : ℕ) (val : BitVec 8) : CpldProg Unit := writeReg reg val

/-! ### The attributes -/

def pwm1Show : CpldProg (List Byte) := do
  let raw := (← cpldRd CPLD_REG_FAN_SPEED) &&& FAN_SPEED_RAW_MAX
  return line (printNat (raw.toNat * FAN_PWM_SCALE))

def clampPwm (val : ℤ) : ℕ := (max 0 (min val FAN_PWM_MAX)).toNat

def pwm1Store (buf : List Byte) : CpldProg (Rc ℕ) :=
  match kstrtol (cstr buf) with
  | none => return .error .einval
  | some val => do
    cpldWr CPLD_REG_FAN_SPEED (BitVec.ofNat 8 (clampPwm val / FAN_PWM_SCALE))
    return .ok buf.length

/-- A bit of a status register, some of them active low. -/
def flagShow (reg : ℕ) (mask : BitVec 8) (activeLow : Bool) : CpldProg (List Byte) := do
  let set := (← cpldRd reg) &&& mask != 0
  return line (printNat (set ^^ activeLow).toNat)

def psuPwr1PresentShow : CpldProg (List Byte) :=
  flagShow CPLD_REG_PSU1_STATUS PSU_PRESENT_MASK true

def psuPwr1AllOkShow : CpldProg (List Byte) :=
  flagShow CPLD_REG_PSU1_STATUS PSU_POWER_OK_MASK false

def psuPwr2PresentShow : CpldProg (List Byte) :=
  flagShow CPLD_REG_PSU2_STATUS PSU_PRESENT_MASK true

def psuPwr2AllOkShow : CpldProg (List Byte) :=
  flagShow CPLD_REG_PSU2_STATUS PSU_POWER_OK_MASK false

def systemFanOkShow : CpldProg (List Byte) :=
  flagShow CPLD_REG_SYS_STATUS FAN_FAILURE_MASK true

def systemFanPresentShow : CpldProg (List Byte) :=
  flagShow CPLD_REG_SYS_STATUS FAN_PRESENT_MASK true

def systemFanAirFlowShow : CpldProg (List Byte) := do
  let val ← cpldRd CPLD_REG_SYS_STATUS
  return line (if val &&& FAN_AIR_FLOW_MASK ≠ 0 then BACK_TO_FRONT else FRONT_TO_BACK)

/-- `led_psu_show`, and `led_diag_show` in the same words. -/
def ledShow (lamp : Lamp) : CpldProg (List Byte) := do
  let val := (← cpldRd CPLD_REG_LED) &&& lamp.mask
  return line (if val = lamp.green then GREEN else if val = lamp.amber then AMBER else OFF)

/-- `led_psu_store`, and `led_diag_store` in the same words. -/
def ledStore (lamp : Lamp) (buf : List Byte) : CpldProg (Rc ℕ) := do
  let val := (← cpldRd CPLD_REG_LED) &&& ~~~lamp.mask
  cpldWr CPLD_REG_LED <|
    if sysfsStreq (cstr buf) GREEN then val ||| lamp.green
    else if sysfsStreq (cstr buf) AMBER then val ||| lamp.amber
    else val
  return .ok buf.length

def watchDogKeepAliveStore (buf : List Byte) : CpldProg (Rc ℕ) := do
  cpldWr CPLD_REG_WATCHDOG 0x01
  return .ok buf.length

/-- `cpld_attrs`. -/
inductive CpldAttr
  | pwm1
  | psuPwr1Present
  | psuPwr1AllOk
  | psuPwr2Present
  | psuPwr2AllOk
  | systemFanOk
  | systemFanPresent
  | systemFanAirFlow
  | ledDiag
  | ledPsu1
  | ledPsu2
  | ledFan
  | watchDogKeepAlive
  deriving DecidableEq

instance : Fintype CpldAttr :=
  ⟨{.pwm1, .psuPwr1Present, .psuPwr1AllOk, .psuPwr2Present, .psuPwr2AllOk, .systemFanOk,
    .systemFanPresent, .systemFanAirFlow, .ledDiag, .ledPsu1, .ledPsu2, .ledFan,
    .watchDogKeepAlive}, by intro a; cases a <;> simp⟩

/-- The `show` function of an attribute that has one. -/
def CpldAttr.show? : CpldAttr → Option (CpldProg (List Byte))
  | .pwm1 => pwm1Show
  | .psuPwr1Present => psuPwr1PresentShow
  | .psuPwr1AllOk => psuPwr1AllOkShow
  | .psuPwr2Present => psuPwr2PresentShow
  | .psuPwr2AllOk => psuPwr2AllOkShow
  | .systemFanOk => systemFanOkShow
  | .systemFanPresent => systemFanPresentShow
  | .systemFanAirFlow => systemFanAirFlowShow
  | .ledDiag => ledShow LED_DIAG
  | .ledPsu1 => ledShow LED_PSU1
  | .ledPsu2 => ledShow LED_PSU2
  | .ledFan => ledShow LED_FAN
  | .watchDogKeepAlive => none

/-- The `store` function. -/
def CpldAttr.store? : CpldAttr → Option (List Byte → CpldProg (Rc ℕ))
  | .pwm1 => pwm1Store
  | .ledDiag => ledStore LED_DIAG
  | .ledPsu1 => ledStore LED_PSU1
  | .ledPsu2 => ledStore LED_PSU2
  | .ledFan => ledStore LED_FAN
  | .watchDogKeepAlive => watchDogKeepAliveStore
  | _ => none

/-- The registers keep what is written to them. -/
abbrev Cpld := ℕ → BitVec 8

def cpldRegs : Machine Cpld ℕ (BitVec 8) Empty where
  read s reg := s reg
  write s reg val := Function.update s reg val
  event _ e := e.elim

/-- Reading the file of an attribute. -/
def Cpld.show? (s : Cpld) (a : CpldAttr) : Option (List Byte) :=
  a.show?.map fun p => (p.exec cpldRegs s).1

/-- Writing it; a file without a store function refuses. -/
def Cpld.store (s : Cpld) (a : CpldAttr) (buf : List Byte) : Cpld :=
  match a.store? with
  | none => s
  | some p => ((p buf).exec cpldRegs s).2

/-! ### What a store sets -/

def colour (buf : List Byte) : List Byte :=
  if sysfsStreq (cstr buf) GREEN then GREEN
  else if sysfsStreq (cstr buf) AMBER then AMBER
  else OFF

/-- What an attribute is to show after a store, if the store sets anything. -/
def CpldAttr.setting : CpldAttr → List Byte → Option (List Byte)
  | .pwm1, buf => (kstrtol (cstr buf)).map fun val =>
      line (printNat (clampPwm val / FAN_PWM_SCALE * FAN_PWM_SCALE))
  | .ledDiag, buf | .ledPsu1, buf | .ledPsu2, buf | .ledFan, buf => some (line (colour buf))
  | _, _ => none

/-- The store `w` sets the attribute to the text. -/
def Sets (w : CpldAttr × List Byte) (a : CpldAttr) (text : Option (List Byte)) : Prop :=
  w.1 = a ∧ text ≠ none ∧ a.setting w.2 = text

/-! ### Parts of registers -/

/-- The register an attribute is about and its bits there. -/
def CpldAttr.part : CpldAttr → ℕ × BitVec 8
  | .pwm1 => (CPLD_REG_FAN_SPEED, BitVec.allOnes 8)
  | .psuPwr1Present => (CPLD_REG_PSU1_STATUS, PSU_PRESENT_MASK)
  | .psuPwr1AllOk => (CPLD_REG_PSU1_STATUS, PSU_POWER_OK_MASK)
  | .psuPwr2Present => (CPLD_REG_PSU2_STATUS, PSU_PRESENT_MASK)
  | .psuPwr2AllOk => (CPLD_REG_PSU2_STATUS, PSU_POWER_OK_MASK)
  | .systemFanOk => (CPLD_REG_SYS_STATUS, FAN_FAILURE_MASK)
  | .systemFanPresent => (CPLD_REG_SYS_STATUS, FAN_PRESENT_MASK)
  | .systemFanAirFlow => (CPLD_REG_SYS_STATUS, FAN_AIR_FLOW_MASK)
  | .ledDiag => (CPLD_REG_LED, LED_DIAG.mask)
  | .ledPsu1 => (CPLD_REG_LED, LED_PSU1.mask)
  | .ledPsu2 => (CPLD_REG_LED, LED_PSU2.mask)
  | .ledFan => (CPLD_REG_LED, LED_FAN.mask)
  | .watchDogKeepAlive => (CPLD_REG_WATCHDOG, BitVec.allOnes 8)

/-- Two attributes that have no bit in common. -/
def CpldAttr.Apart (a b : CpldAttr) : Prop := a.part.1 ≠ b.part.1 ∨ a.part.2 &&& b.part.2 = 0

instance (a b : CpldAttr) : Decidable (a.Apart b) := inferInstanceAs (Decidable (_ ∨ _))

theorem apart_of_ne : ∀ {a b : CpldAttr}, a ≠ b → a.Apart b := by decide

/-- An attribute shows its own part of the registers and nothing else. -/
theorem show_congr {s t : Cpld} {a : CpldAttr}
    (h : s a.part.1 &&& a.part.2 = t a.part.1 &&& a.part.2) : s.show? a = t.show? a := by
  cases a with
  | pwm1 =>
    rw [CpldAttr.part, BitVec.and_allOnes, BitVec.and_allOnes] at h
    exact congrArg (fun v : BitVec 8 => some (line (printNat
      ((v &&& FAN_SPEED_RAW_MAX).toNat * FAN_PWM_SCALE)))) h
  | psuPwr1Present | psuPwr2Present | systemFanOk | systemFanPresent =>
    exact congrArg (fun v : BitVec 8 => some (line (printNat ((v != 0) ^^ true).toNat))) h
  | psuPwr1AllOk | psuPwr2AllOk =>
    exact congrArg (fun v : BitVec 8 => some (line (printNat ((v != 0) ^^ false).toNat))) h
  | systemFanAirFlow =>
    exact congrArg (fun v : BitVec 8 =>
      some (line (if v ≠ 0 then BACK_TO_FRONT else FRONT_TO_BACK))) h
  | ledDiag =>
    exact congrArg (fun v : BitVec 8 => some (line (if v = LED_DIAG.green then GREEN
      else if v = LED_DIAG.amber then AMBER else OFF))) h
  | ledPsu1 =>
    exact congrArg (fun v : BitVec 8 => some (line (if v = LED_PSU1.green then GREEN
      else if v = LED_PSU1.amber then AMBER else OFF))) h
  | ledPsu2 =>
    exact congrArg (fun v : BitVec 8 => some (line (if v = LED_PSU2.green then GREEN
      else if v = LED_PSU2.amber then AMBER else OFF))) h
  | ledFan =>
    exact congrArg (fun v : BitVec 8 => some (line (if v = LED_FAN.green then GREEN
      else if v = LED_FAN.amber then AMBER else OFF))) h
  | watchDogKeepAlive => rfl

/-! ### What a store does -/

/-- The bits a store puts into the place of a lamp. -/
def Lamp.bits (lamp : Lamp) (buf : List Byte) : BitVec 8 :=
  if sysfsStreq (cstr buf) GREEN then lamp.green
  else if sysfsStreq (cstr buf) AMBER then lamp.amber
  else 0

theorem Lamp.bits_in (lamp : Lamp) (buf : List Byte) :
    lamp.bits buf &&& lamp.mask = lamp.bits buf := by
  unfold Lamp.bits
  split
  · exact lamp.green_in
  · split
    · exact lamp.amber_in
    · exact BitVec.zero_and

/-- Bits replaced under a mask: outside it nothing changes. -/
theorem replaced_outside {v x mask m : BitVec 8} (hx : x &&& mask = x) (hm : m &&& mask = 0) :
    (v &&& ~~~mask ||| x) &&& m = v &&& m := by
  ext i hi
  have hxi := congrArg (fun b : BitVec 8 => b[i]) hx
  have hmi := congrArg (fun b : BitVec 8 => b[i]) hm
  simp only [BitVec.getElem_and, BitVec.getElem_or, BitVec.getElem_not] at hxi hmi ⊢
  rw [BitVec.ofNat_eq_ofNat, BitVec.getElem_zero] at hmi
  revert hxi hmi
  cases mask[i] <;> cases x[i] <;> cases m[i] <;> simp

theorem replaced_inside {v x mask : BitVec 8} (hx : x &&& mask = x) :
    (v &&& ~~~mask ||| x) &&& mask = x := by
  ext i hi
  have hxi := congrArg (fun b : BitVec 8 => b[i]) hx
  simp only [BitVec.getElem_and, BitVec.getElem_or, BitVec.getElem_not] at hxi ⊢
  revert hxi
  cases mask[i] <;> cases x[i] <;> simp

theorem exec_ledShow (lamp : Lamp) (s : Cpld) : ((ledShow lamp).exec cpldRegs s).1 =
    line (if s CPLD_REG_LED &&& lamp.mask = lamp.green then GREEN
      else if s CPLD_REG_LED &&& lamp.mask = lamp.amber then AMBER else OFF) := rfl

theorem exec_pwm1Show (s : Cpld) : (pwm1Show.exec cpldRegs s).1 =
    line (printNat ((s CPLD_REG_FAN_SPEED &&& FAN_SPEED_RAW_MAX).toNat * FAN_PWM_SCALE)) := rfl

theorem exec_ledStore (lamp : Lamp) (buf : List Byte) (s : Cpld) :
    ((ledStore lamp buf).exec cpldRegs s).2 = Function.update s CPLD_REG_LED
      (s CPLD_REG_LED &&& ~~~lamp.mask ||| lamp.bits buf) := by
  have hbits : s CPLD_REG_LED &&& ~~~lamp.mask ||| lamp.bits buf =
      if sysfsStreq (cstr buf) GREEN then s CPLD_REG_LED &&& ~~~lamp.mask ||| lamp.green
      else if sysfsStreq (cstr buf) AMBER then s CPLD_REG_LED &&& ~~~lamp.mask ||| lamp.amber
      else s CPLD_REG_LED &&& ~~~lamp.mask := by
    unfold Lamp.bits
    split
    · rfl
    · split
      · rfl
      · exact BitVec.or_zero
  rw [hbits]
  rfl

theorem show_ledStore (lamp : Lamp) (buf : List Byte) (s : Cpld) :
    ((ledShow lamp).exec cpldRegs ((ledStore lamp buf).exec cpldRegs s).2).1 =
      line (colour buf) := by
  obtain ⟨hga, hg, ha⟩ := lamp.differ
  rw [exec_ledStore, exec_ledShow, Function.update_self, replaced_inside (lamp.bits_in buf),
    Lamp.bits, colour]
  split
  · rw [if_pos rfl]
  · split
    · rw [if_neg hga.symm, if_pos rfl]
    · rw [if_neg hg.symm, if_neg ha.symm]

theorem clampPwm_le (val : ℤ) : clampPwm val ≤ 248 := by
  unfold clampPwm FAN_PWM_MAX
  omega

theorem show_pwm1Store {buf : List Byte} {val : ℤ} (h : kstrtol (cstr buf) = some val) (s : Cpld) :
    (pwm1Show.exec cpldRegs ((pwm1Store buf).exec cpldRegs s).2).1 =
      line (printNat (clampPwm val / FAN_PWM_SCALE * FAN_PWM_SCALE)) := by
  have hle := clampPwm_le val
  have hraw : (BitVec.ofNat 8 (clampPwm val / FAN_PWM_SCALE) &&& FAN_SPEED_RAW_MAX).toNat =
      clampPwm val / FAN_PWM_SCALE := by
    rw [BitVec.toNat_and, BitVec.toNat_ofNat]
    change clampPwm val / 8 % 2 ^ 8 &&& 2 ^ 5 - 1 = clampPwm val / 8
    rw [Nat.and_two_pow_sub_one_eq_mod]
    omega
  have hstore : ((pwm1Store buf).exec cpldRegs s).2 =
      Function.update s CPLD_REG_FAN_SPEED (BitVec.ofNat 8 (clampPwm val / FAN_PWM_SCALE)) := by
    rw [pwm1Store, h]
    rfl
  rw [hstore, exec_pwm1Show, Function.update_self, hraw]

/-- A store leaves the other registers and the other bits of its own alone. -/
theorem store_outside (s : Cpld) (a : CpldAttr) (buf : List Byte) {reg : ℕ} {m : BitVec 8}
    (h : reg ≠ a.part.1 ∨ m &&& a.part.2 = 0) : s.store a buf reg &&& m = s reg &&& m := by
  have hled (lamp : Lamp) (hlamp : reg ≠ CPLD_REG_LED ∨ m &&& lamp.mask = 0) :
      ((ledStore lamp buf).exec cpldRegs s).2 reg &&& m = s reg &&& m := by
    rw [exec_ledStore]
    by_cases hreg : reg = CPLD_REG_LED
    · subst hreg
      rw [Function.update_self,
        replaced_outside (lamp.bits_in buf) (hlamp.resolve_left fun hne => hne rfl)]
    · rw [Function.update_of_ne hreg]
  have hwhole (r : ℕ) (v : BitVec 8) (hr : reg ≠ r ∨ m &&& BitVec.allOnes 8 = 0) :
      Function.update s r v reg &&& m = s reg &&& m := by
    rcases hr with hr | hr
    · rw [Function.update_of_ne hr]
    · rw [BitVec.and_allOnes] at hr
      rw [hr]
      exact BitVec.and_zero.trans BitVec.and_zero.symm
  cases a with
  | pwm1 =>
    change ((pwm1Store buf).exec cpldRegs s).2 reg &&& m = _
    rw [pwm1Store]
    cases kstrtol (cstr buf) with
    | none => rfl
    | some val => exact hwhole _ _ h
  | ledDiag => exact hled LED_DIAG h
  | ledPsu1 => exact hled LED_PSU1 h
  | ledPsu2 => exact hled LED_PSU2 h
  | ledFan => exact hled LED_FAN h
  | watchDogKeepAlive => exact hwhole _ _ h
  | psuPwr1Present | psuPwr1AllOk | psuPwr2Present | psuPwr2AllOk | systemFanOk
  | systemFanPresent | systemFanAirFlow => rfl

theorem show_store_self (s : Cpld) {a : CpldAttr} {buf text : List Byte}
    (h : a.setting buf = some text) : (s.store a buf).show? a = some text := by
  cases a with
  | pwm1 =>
    obtain ⟨val, hval, rfl⟩ := Option.map_eq_some_iff.mp h
    exact congrArg some (show_pwm1Store hval s)
  | ledDiag => exact congrArg some ((show_ledStore LED_DIAG buf s).trans (Option.some.inj h))
  | ledPsu1 => exact congrArg some ((show_ledStore LED_PSU1 buf s).trans (Option.some.inj h))
  | ledPsu2 => exact congrArg some ((show_ledStore LED_PSU2 buf s).trans (Option.some.inj h))
  | ledFan => exact congrArg some ((show_ledStore LED_FAN buf s).trans (Option.some.inj h))
  | watchDogKeepAlive | psuPwr1Present | psuPwr1AllOk | psuPwr2Present | psuPwr2AllOk
  | systemFanOk | systemFanPresent | systemFanAirFlow => cases h

/-- A store that sets nothing shows nowhere. -/
theorem show_store_none (s : Cpld) {a : CpldAttr} {buf : List Byte} (h : a.setting buf = none) :
    (s.store a buf).show? a = s.show? a := by
  cases a with
  | pwm1 =>
    have hstore : s.store .pwm1 buf = s := by
      change ((pwm1Store buf).exec cpldRegs s).2 = s
      rw [pwm1Store, Option.map_eq_none_iff.mp h]
      rfl
    rw [hstore]
  | ledDiag | ledPsu1 | ledPsu2 | ledFan => cases h
  | watchDogKeepAlive | psuPwr1Present | psuPwr1AllOk | psuPwr2Present | psuPwr2AllOk
  | systemFanOk | systemFanPresent | systemFanAirFlow => rfl

theorem show_store_of_ne (s : Cpld) {a b : CpldAttr} (buf : List Byte) (h : b ≠ a) :
    (s.store a buf).show? b = s.show? b :=
  show_congr (store_outside s a buf (apart_of_ne h))

/-- Whatever is stored by whomever in whatever order, and whatever the registers held
before: every attribute shows what the last store that set it has set, and one that nobody
has set shows what it showed at the start. -/
theorem shows_last_store (s : Cpld) (stores : List (CpldAttr × List Byte)) (a : CpldAttr) :
    Holds Sets s.show? stores a ((stores.foldl (fun s w => s.store w.1 w.2) s).show? a) := by
  refine holds_foldl (g := Cpld.show?) (fun s w a text hw => ?_) (fun s w a hnone => ?_) stores a
  · obtain ⟨rfl, hne, rfl⟩ := hw
    obtain ⟨text, htext⟩ := Option.ne_none_iff_exists'.mp hne
    rw [htext]
    exact show_store_self s htext
  · by_cases hwa : w.1 = a
    · subst hwa
      refine show_store_none s ?_
      by_contra hsome
      exact hnone _ ⟨rfl, hsome, rfl⟩
    · exact show_store_of_ne s w.2 (Ne.symm hwa)

end OpenNos.Platform
