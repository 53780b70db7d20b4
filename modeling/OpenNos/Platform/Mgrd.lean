import OpenNos.Platform.Cpld

/-! The platform daemon `platform-mgrd/main.c` over the CPLD driver. Every 30 seconds it
reads the temperatures and the status of supplies and fans and sets the fan speed and the
lamps; files that cannot be opened are passed over. After any number of turns each of these
shows what the last poll that could set it called for. -/

namespace OpenNos.Platform

open Cstring LastWrite

def POLL_INTERVAL_S : ℕ := 30

def WDT_KEEPALIVE_S : ℕ := 15

def TEMP_LOW_MC : ℤ := 35000

def TEMP_MED_MC : ℤ := 45000

def TEMP_HIGH_MC : ℤ := 55000

def PWM_LOW : ℕ := 96

def PWM_MED : ℕ := 168

def PWM_HIGH : ℕ := 248

def PWM_MAX : ℕ := 248

/-- What the platform shows in one turn of the main loop. No file is opened twice in a turn,
so that with one answer for each file the platform may change at any time: which files of
the CPLD can be opened, the status registers as the read of a file finds them, the entries
of the hwmon directory and the text of their temperatures, and what the variable `ok` of
`cpld_check_psu` holds before anything is read into it. -/
structure Moment where
  opens : CpldAttr → Bool
  status : CpldAttr → ℕ → BitVec 8
  hwmon : Option (List (List Byte))
  temp : List Byte → ℕ → Option (List Byte)
  stale : ℤ

/-- The registers with the status of the moment. -/
def Cpld.settle (s : Cpld) (status : ℕ → BitVec 8) : Cpld := fun reg =>
  if reg = CPLD_REG_PSU1_STATUS ∨ reg = CPLD_REG_PSU2_STATUS ∨ reg = CPLD_REG_SYS_STATUS then
    status reg
  else s reg

/-! ### Files -/

def sysfsReadInt (m : Moment) (s : Cpld) (a : CpldAttr) : Option ℤ :=
  if m.opens a then ((s.settle (m.status a)).show? a).bind scanSigned else none

/-- Whether the file could be opened, and the registers after the write. -/
def sysfsWriteStr (m : Moment) (s : Cpld) (a : CpldAttr) (val : List Byte) : Bool × Cpld :=
  if m.opens a then (true, s.store a val) else (false, s)

def sysfsWriteInt (m : Moment) (s : Cpld) (a : CpldAttr) (val : ℕ) : Bool × Cpld :=
  sysfsWriteStr m s a (printNat val)

/-! ### Supplies and fans -/

def cpldWatchdogKeepalive (m : Moment) (s : Cpld) : Cpld :=
  (sysfsWriteStr m s .watchDogKeepAlive [0x31]).2

/-- "/psu_pwr%d_present" -/
def psuPwrPresent (psu : ℕ) : CpldAttr := if psu = 1 then .psuPwr1Present else .psuPwr2Present

/-- "/psu_pwr%d_all_ok" -/
def psuPwrAllOk (psu : ℕ) : CpldAttr := if psu = 1 then .psuPwr1AllOk else .psuPwr2AllOk

/-- "/led_psu%d" -/
def ledPsu (psu : ℕ) : CpldAttr := if psu = 1 then .ledPsu1 else .ledPsu2

/-- The body of the loop over the supplies; `ok` keeps its value where the read fails. -/
def checkPsu (m : Moment) (st : ℤ × Cpld) (psu : ℕ) : ℤ × Cpld :=
  match sysfsReadInt m st.2 (psuPwrPresent psu) with
  | none => st
  | some present =>
    let ok := (sysfsReadInt m st.2 (psuPwrAllOk psu)).getD st.1
    let color := if present = 0 then OFF else if ok ≠ 0 then GREEN else AMBER
    (ok, (sysfsWriteStr m st.2 (ledPsu psu) color).2)

def cpldCheckPsu (m : Moment) (s : Cpld) : Cpld := ([1, 2].foldl (checkPsu m) (m.stale, s)).2

def cpldCheckFans (m : Moment) (s : Cpld) : Cpld :=
  let fanOk := sysfsReadInt m s .systemFanOk ≠ some 0
  let fanPresent := sysfsReadInt m s .systemFanPresent ≠ some 0
  let fanColor := if ¬ fanPresent ∨ ¬ fanOk then AMBER else GREEN
  (sysfsWriteStr m s .ledFan fanColor).2

/-! ### Temperature -/

/-- temp1_input to temp10_input of one entry. -/
def thermalReadEntry (m : Moment) (maxTemp : ℤ) (name : List Byte) : ℤ :=
  if name.head? = some 0x2e then maxTemp
  else (List.range' 1 10).foldl (fun maxTemp i =>
    match (m.temp name i).bind scanSigned with
    | some val => if val > maxTemp then val else maxTemp
    | none => maxTemp) maxTemp

def thermalReadMax (m : Moment) : ℤ :=
  match m.hwmon with
  | none => -1
  | some names => names.foldl (thermalReadEntry m) (-1)

def thermalManageFans (m : Moment) (s : Cpld) (maxMc : ℤ) : Cpld :=
  if maxMc < 0 then (sysfsWriteInt m s .pwm1 PWM_MAX).2
  else
    let pwm :=
      if maxMc < TEMP_LOW_MC then PWM_LOW
      else if maxMc < TEMP_MED_MC then PWM_MED
      else if maxMc < TEMP_HIGH_MC then PWM_HIGH
      else PWM_MAX
    (sysfsWriteInt m s .pwm1 pwm).2

/-! ### The main loop -/

def poll (m : Moment) (s : Cpld) : Cpld :=
  cpldCheckFans m (cpldCheckPsu m (thermalManageFans m s (thermalReadMax m)))

def turn (m : Moment) (ticks : ℕ) (s : Cpld) : Cpld :=
  let s := if ticks % WDT_KEEPALIVE_S = 0 then cpldWatchdogKeepalive m s else s
  if ticks % POLL_INTERVAL_S = 0 then poll m s else s

/-- The lamp set at the start. -/
def started (m : Moment) (s : Cpld) : Cpld := (sysfsWriteStr m s .ledDiag GREEN).2

/-- The registers after `n` turns. The source counts the turns in an `int`, here they have no
bound. -/
def mgrd (start : Moment) (hw : ℕ → Moment) (n : ℕ) (s : Cpld) : Cpld :=
  (List.range n).foldl (fun s ticks => turn (hw ticks) ticks s) (started start s)

/-! ### What a poll calls for -/

/-- A temperature the poll can read. -/
def Moment.Reads (m : Moment) (t : ℤ) : Prop :=
  ∃ names, m.hwmon = some names ∧ ∃ name ∈ names, name.head? ≠ some 0x2e ∧
    ∃ i, 1 ≤ i ∧ i ≤ 10 ∧ (m.temp name i).bind scanSigned = some t

/-- The fans run slowly while some sensor reads zero or more and all are cool, and fast when
one is hot or there is none. -/
def Moment.Duty (m : Moment) (pwm : ℕ) : Prop :=
  pwm = 96 ∧ (∃ t, m.Reads t ∧ 0 ≤ t) ∧ (∀ t, m.Reads t → t < 35000) ∨
  pwm = 168 ∧ (∃ t, m.Reads t ∧ 35000 ≤ t) ∧ (∀ t, m.Reads t → t < 45000) ∨
  pwm = 248 ∧ ((∀ t, m.Reads t → t < 0) ∨ ∃ t, m.Reads t ∧ 45000 ≤ t)

/-- The status bits of supply `psu` as the reads of its files find them. -/
def Moment.present (m : Moment) (psu : ℕ) : Bool :=
  m.status (psuPwrPresent psu) (psuPwrPresent psu).part.1 &&& PSU_PRESENT_MASK = 0

def Moment.powerOk (m : Moment) (psu : ℕ) : Bool :=
  m.status (psuPwrAllOk psu) (psuPwrAllOk psu).part.1 &&& PSU_POWER_OK_MASK ≠ 0

/-- What `ok` says when the lamp of a supply is chosen: with its file closed, what was read
for the other supply before it, or nothing at all. -/
def Moment.okSeen (m : Moment) (psu : ℕ) : Bool :=
  if m.opens (psuPwrAllOk psu) then m.powerOk psu
  else if psu ≠ 1 ∧ m.opens (psuPwrPresent 1) ∧ m.opens (psuPwrAllOk 1) then m.powerOk 1
  else m.stale ≠ 0

def supplyColour (present ok : Bool) : List Byte :=
  if !present then OFF else if ok then GREEN else AMBER

def Moment.fanFault (m : Moment) : Bool :=
  m.opens .systemFanOk ∧ m.status .systemFanOk CPLD_REG_SYS_STATUS &&& FAN_FAILURE_MASK ≠ 0 ∨
  m.opens .systemFanPresent ∧
    m.status .systemFanPresent CPLD_REG_SYS_STATUS &&& FAN_PRESENT_MASK ≠ 0

/-- The poll sets the attribute to the text. -/
inductive Moment.Calls (m : Moment) : CpldAttr → Option (List Byte) → Prop
  | fans {pwm : ℕ} (hopen : m.opens .pwm1 = true) (hduty : m.Duty pwm) :
    m.Calls .pwm1 (some (line (printNat pwm)))
  | psu {psu : ℕ} (hpsu : psu = 1 ∨ psu = 2) (hstatus : m.opens (psuPwrPresent psu) = true)
      (hopen : m.opens (ledPsu psu) = true) :
    m.Calls (ledPsu psu) (some (line (supplyColour (m.present psu) (m.okSeen psu))))
  | fanLed (hopen : m.opens .ledFan = true) :
    m.Calls .ledFan (some (line (if m.fanFault then AMBER else GREEN)))

/-! ### Reading and writing -/

variable {m : Moment}

theorem sysfsReadInt_of_show {s : Cpld} {a : CpldAttr} {n : ℕ} (hn : n < 2 ^ 31)
    (h : (s.settle (m.status a)).show? a = some (line (printNat n))) :
    sysfsReadInt m s a = if m.opens a then some (n : ℤ) else none := by
  rw [sysfsReadInt, h, Option.bind_some, scanSigned_line hn]

theorem flag_low (v : BitVec 8) : ((v != 0) ^^ true) = decide (v = 0) := by
  rw [Bool.xor_true, bne, Bool.not_not]
  rfl

theorem flag_high (v : BitVec 8) : ((v != 0) ^^ false) = decide (v ≠ 0) := by
  rw [Bool.xor_false, bne]
  exact decide_not.symm

theorem toNat_lt (b : Bool) : b.toNat < 2 ^ 31 := by cases b <;> simp

theorem sysfsReadInt_present (s : Cpld) {psu : ℕ} (hpsu : psu = 1 ∨ psu = 2) :
    sysfsReadInt m s (psuPwrPresent psu) =
      if m.opens (psuPwrPresent psu) then some ((m.present psu).toNat : ℤ) else none := by
  refine sysfsReadInt_of_show (toNat_lt _) ?_
  rcases hpsu with rfl | rfl <;>
    exact congrArg (fun b : Bool => some (line (printNat b.toNat))) (flag_low _)

theorem sysfsReadInt_allOk (s : Cpld) {psu : ℕ} (hpsu : psu = 1 ∨ psu = 2) :
    sysfsReadInt m s (psuPwrAllOk psu) =
      if m.opens (psuPwrAllOk psu) then some ((m.powerOk psu).toNat : ℤ) else none := by
  refine sysfsReadInt_of_show (toNat_lt _) ?_
  rcases hpsu with rfl | rfl <;>
    exact congrArg (fun b : Bool => some (line (printNat b.toNat))) (flag_high _)

theorem sysfsReadInt_fan (s : Cpld) {a : CpldAttr}
    (ha : a = .systemFanOk ∨ a = .systemFanPresent) : sysfsReadInt m s a = if m.opens a then
      some (((m.status a CPLD_REG_SYS_STATUS &&& a.part.2 = 0 : Bool).toNat : ℕ) : ℤ)
      else none := by
  refine sysfsReadInt_of_show (toNat_lt _) ?_
  rcases ha with rfl | rfl <;>
    exact congrArg (fun b : Bool => some (line (printNat b.toNat))) (flag_low _)

theorem write_of_closed {a : CpldAttr} (h : m.opens a = false) (s : Cpld) (val : List Byte) :
    (sysfsWriteStr m s a val).2 = s := by
  rw [sysfsWriteStr, if_neg (by simp [h])]

theorem show_write_of_ne {a b : CpldAttr} (h : b ≠ a) (s : Cpld) (val : List Byte) :
    (sysfsWriteStr m s a val).2.show? b = s.show? b := by
  rw [sysfsWriteStr]
  split
  · exact show_store_of_ne s val h
  · rfl

theorem show_write_self {a : CpldAttr} {val text : List Byte} (hopen : m.opens a = true)
    (h : a.setting val = some text) (s : Cpld) :
    (sysfsWriteStr m s a val).2.show? a = some text := by
  rw [sysfsWriteStr, if_pos hopen]
  exact show_store_self s h

/-! ### The fan speed -/

def pwmFor (maxMc : ℤ) : ℕ :=
  if maxMc < 0 then 248 else if maxMc < 35000 then 96 else if maxMc < 45000 then 168 else 248

theorem thermalManageFans_eq (s : Cpld) (maxMc : ℤ) :
    thermalManageFans m s maxMc = (sysfsWriteInt m s .pwm1 (pwmFor maxMc)).2 := by
  rw [thermalManageFans, pwmFor]
  split
  · rfl
  · have hpwm : (if maxMc < TEMP_LOW_MC then PWM_LOW else if maxMc < TEMP_MED_MC then PWM_MED
        else if maxMc < TEMP_HIGH_MC then PWM_HIGH else PWM_MAX) =
        if maxMc < 35000 then 96 else if maxMc < 45000 then 168 else 248 := by
      unfold TEMP_LOW_MC TEMP_MED_MC PWM_HIGH PWM_MAX PWM_LOW PWM_MED
      rw [ite_self]
    exact congrArg (fun pwm => (sysfsWriteInt m s .pwm1 pwm).2) hpwm

/-- The larger of the maximum so far and a reading, if there is one. -/
theorem foldl_max_lt_iff {ι : Type*} (f : ι → Option ℤ) (l : List ι) (b c : ℤ) :
    l.foldl (fun maxTemp i =>
      match f i with
      | some val => if val > maxTemp then val else maxTemp
      | none => maxTemp) b < c ↔ b < c ∧ ∀ i ∈ l, ∀ t, f i = some t → t < c := by
  induction l generalizing b with
  | nil => simp
  | cons i l ih =>
    rw [List.foldl_cons, ih, List.forall_mem_cons]
    cases hi : f i with
    | none => simp
    | some t =>
      simp only [Option.some.injEq, forall_eq']
      split
      · constructor
        · exact fun ⟨ht, hl⟩ => ⟨by omega, ht, hl⟩
        · exact fun ⟨_, ht, hl⟩ => ⟨ht, hl⟩
      · constructor
        · exact fun ⟨hb, hl⟩ => ⟨hb, by omega, hl⟩
        · exact fun ⟨hb, _, hl⟩ => ⟨hb, hl⟩

theorem thermalReadEntry_lt_iff (b c : ℤ) (name : List Byte) :
    thermalReadEntry m b name < c ↔ b < c ∧ (name.head? ≠ some 0x2e →
      ∀ i, 1 ≤ i → i ≤ 10 → ∀ t, (m.temp name i).bind scanSigned = some t → t < c) := by
  rw [thermalReadEntry]
  split
  · next h => simp [h]
  · next h =>
    rw [foldl_max_lt_iff, and_congr_right_iff]
    intro _
    simp only [List.mem_range'_1, h, not_false_eq_true, ne_eq, forall_const]
    exact ⟨fun hall i h1 h10 => hall i ⟨h1, by omega⟩,
      fun hall i hi => hall i hi.1 (by omega)⟩

/-- The maximum is that of the readings and -1. -/
theorem thermalReadMax_lt_iff {c : ℤ} (hc : -1 < c) :
    thermalReadMax m < c ↔ ∀ t, m.Reads t → t < c := by
  have hfold (names : List (List Byte)) (b : ℤ) : names.foldl (thermalReadEntry m) b < c ↔
      b < c ∧ ∀ name ∈ names, name.head? ≠ some 0x2e →
        ∀ i, 1 ≤ i → i ≤ 10 → ∀ t, (m.temp name i).bind scanSigned = some t → t < c := by
    induction names generalizing b with
    | nil => simp
    | cons name names ih =>
      rw [List.foldl_cons, ih, thermalReadEntry_lt_iff, List.forall_mem_cons, and_assoc]
  rw [thermalReadMax]
  cases hnames : m.hwmon with
  | none => simp [Moment.Reads, hnames, hc]
  | some names =>
    dsimp only
    rw [hfold]
    constructor
    · rintro ⟨-, hall⟩ t ⟨names', hnames', name, hname, hdot, i, h1, h10, ht⟩
      obtain rfl : names = names' := Option.some.inj (hnames.symm.trans hnames')
      exact hall name hname hdot i h1 h10 t ht
    · exact fun hall => ⟨hc, fun name hname hdot i h1 h10 t ht =>
        hall t ⟨names, hnames, name, hname, hdot, i, h1, h10, ht⟩⟩

theorem duty_iff {pwm : ℕ} : m.Duty pwm ↔ pwm = pwmFor (thermalReadMax m) := by
  have hlt {c : ℤ} (hc : -1 < c) := thermalReadMax_lt_iff (m := m) hc
  have hle {c : ℤ} (hc : -1 < c) : (∃ t, m.Reads t ∧ c ≤ t) ↔ c ≤ thermalReadMax m := by
    rw [← not_lt, hlt hc]
    push Not
    rfl
  rw [Moment.Duty, hle (by norm_num), hle (by norm_num), hle (by norm_num), ← hlt (by norm_num),
    ← hlt (by norm_num), ← hlt (by norm_num), pwmFor]
  split_ifs <;> omega

theorem setting_pwm1 {pwm : ℕ} (h : pwm ≤ 248) (h8 : 8 ∣ pwm) :
    CpldAttr.setting .pwm1 (printNat pwm) = some (line (printNat pwm)) := by
  have hclamp : clampPwm (pwm : ℤ) / FAN_PWM_SCALE * FAN_PWM_SCALE = pwm := by
    unfold clampPwm FAN_PWM_MAX FAN_PWM_SCALE
    omega
  rw [CpldAttr.setting, cstr_printNat, kstrtol_printNat (by omega), Option.map_some, hclamp]

theorem show_thermalManageFans (hopen : m.opens .pwm1 = true) (s : Cpld) :
    (thermalManageFans m s (thermalReadMax m)).show? .pwm1 =
      some (line (printNat (pwmFor (thermalReadMax m)))) := by
  rw [thermalManageFans_eq]
  refine show_write_self hopen (setting_pwm1 ?_ ?_) s <;>
  · unfold pwmFor
    split_ifs <;> norm_num

/-! ### The lamps -/

theorem colour_green : colour GREEN = GREEN := by decide

theorem colour_amber : colour AMBER = AMBER := by decide

theorem setting_ledPsu {psu : ℕ} (buf : List Byte) :
    (ledPsu psu).setting buf = some (line (colour buf)) := by
  unfold ledPsu
  split <;> rfl

theorem checkPsu_of_closed {psu : ℕ} (hpsu : psu = 1 ∨ psu = 2)
    (h : m.opens (psuPwrPresent psu) = false) (st : ℤ × Cpld) : checkPsu m st psu = st := by
  rw [checkPsu, sysfsReadInt_present st.2 hpsu, if_neg (by simp [h])]

/-- What is in `ok` when the lamp of a supply is chosen. -/
def okValue (m : Moment) (psu : ℕ) (ok : ℤ) : ℤ :=
  if m.opens (psuPwrAllOk psu) then ((m.powerOk psu).toNat : ℤ) else ok

theorem checkPsu_of_open {psu : ℕ} (hpsu : psu = 1 ∨ psu = 2)
    (h : m.opens (psuPwrPresent psu) = true) (st : ℤ × Cpld) :
    checkPsu m st psu = (okValue m psu st.1, (sysfsWriteStr m st.2 (ledPsu psu)
      (supplyColour (m.present psu) (okValue m psu st.1 ≠ 0))).2) := by
  have hok : (sysfsReadInt m st.2 (psuPwrAllOk psu)).getD st.1 = okValue m psu st.1 := by
    rw [sysfsReadInt_allOk st.2 hpsu, okValue]
    split <;> rfl
  rw [checkPsu, sysfsReadInt_present st.2 hpsu, if_pos h]
  dsimp only
  rw [hok, supplyColour]
  cases m.present psu <;> by_cases h0 : okValue m psu st.1 = 0 <;> simp [h0]

theorem show_checkPsu_of_ne {psu : ℕ} {a : CpldAttr} (ha : a ≠ ledPsu psu)
    (hpsu : psu = 1 ∨ psu = 2) (st : ℤ × Cpld) :
    (checkPsu m st psu).2.show? a = st.2.show? a := by
  by_cases h : m.opens (psuPwrPresent psu) = true
  · rw [checkPsu_of_open hpsu h]
    exact show_write_of_ne ha _ _
  · rw [checkPsu_of_closed hpsu (by simpa using h)]

theorem show_checkPsu_self {psu : ℕ} (hpsu : psu = 1 ∨ psu = 2)
    (h : m.opens (psuPwrPresent psu) = true) (hopen : m.opens (ledPsu psu) = true)
    (st : ℤ × Cpld) : (checkPsu m st psu).2.show? (ledPsu psu) =
      some (line (supplyColour (m.present psu) (okValue m psu st.1 ≠ 0))) := by
  have hcolour (p o : Bool) : colour (supplyColour p o) = supplyColour p o := by
    cases p <;> cases o <;> decide
  rw [checkPsu_of_open hpsu h]
  refine show_write_self hopen ?_ _
  rw [setting_ledPsu, hcolour]

theorem okValue_ne_zero (psu : ℕ) (ok : ℤ) : decide (okValue m psu ok ≠ 0) =
    if m.opens (psuPwrAllOk psu) then m.powerOk psu else decide (ok ≠ 0) := by
  rw [okValue]
  split
  · cases m.powerOk psu <;> rfl
  · rfl

/-- `ok` before the second supply is looked at. -/
theorem checkPsu_one_fst (s : Cpld) : (checkPsu m (m.stale, s) 1).1 =
    if m.opens (psuPwrPresent 1) then okValue m 1 m.stale else m.stale := by
  split
  · next h => rw [checkPsu_of_open (.inl rfl) h]
  · next h => rw [checkPsu_of_closed (.inl rfl) (by simpa using h)]

theorem okSeen_one : m.okSeen 1 = decide (okValue m 1 m.stale ≠ 0) := by
  rw [okValue_ne_zero, Moment.okSeen]
  exact if_congr Iff.rfl rfl (if_neg fun h => h.1 rfl)

theorem okSeen_two (s : Cpld) :
    m.okSeen 2 = decide (okValue m 2 (checkPsu m (m.stale, s) 1).1 ≠ 0) := by
  rw [okValue_ne_zero, checkPsu_one_fst, Moment.okSeen]
  refine if_congr Iff.rfl rfl ?_
  by_cases h1 : m.opens (psuPwrPresent 1) = true
  · rw [if_pos h1, okValue_ne_zero]
    by_cases hok : m.opens (psuPwrAllOk 1) = true
    · rw [if_pos hok, if_pos ⟨by decide, h1, hok⟩]
    · rw [if_neg hok, if_neg fun h => hok h.2.2]
  · rw [if_neg h1, if_neg fun h => h1 h.2.1]

/-- A lamp of a supply shows the status of this supply; while its `all_ok` file is closed, it
follows the `ok` that is left from before. -/
theorem show_cpldCheckPsu {psu : ℕ} (hpsu : psu = 1 ∨ psu = 2)
    (h : m.opens (psuPwrPresent psu) = true) (hopen : m.opens (ledPsu psu) = true) (s : Cpld) :
    (cpldCheckPsu m s).show? (ledPsu psu) =
      some (line (supplyColour (m.present psu) (m.okSeen psu))) := by
  change (checkPsu m (checkPsu m (m.stale, s) 1) 2).2.show? (ledPsu psu) = _
  rcases hpsu with rfl | rfl
  · rw [show_checkPsu_of_ne (by decide) (.inr rfl), show_checkPsu_self (.inl rfl) h hopen,
      okSeen_one]
  · rw [show_checkPsu_self (.inr rfl) h hopen, okSeen_two s]

theorem show_cpldCheckPsu_of_ne {a : CpldAttr} (h1 : a ≠ .ledPsu1) (h2 : a ≠ .ledPsu2)
    (s : Cpld) : (cpldCheckPsu m s).show? a = s.show? a := by
  change (checkPsu m (checkPsu m (m.stale, s) 1) 2).2.show? a = _
  rw [show_checkPsu_of_ne h2 (.inr rfl), show_checkPsu_of_ne h1 (.inl rfl)]

/-- A lamp that the poll cannot set, for want of the status or of the lamp's own file. -/
theorem show_cpldCheckPsu_of_closed {psu : ℕ} (hpsu : psu = 1 ∨ psu = 2)
    (h : ¬ (m.opens (psuPwrPresent psu) = true ∧ m.opens (ledPsu psu) = true)) (s : Cpld) :
    (cpldCheckPsu m s).show? (ledPsu psu) = s.show? (ledPsu psu) := by
  have hself (st : ℤ × Cpld) : (checkPsu m st psu).2 = st.2 := by
    by_cases hp : m.opens (psuPwrPresent psu) = true
    · rw [checkPsu_of_open hpsu hp]
      exact write_of_closed (by simpa using fun ho => h ⟨hp, ho⟩) _ _
    · rw [checkPsu_of_closed hpsu (by simpa using hp)]
  change (checkPsu m (checkPsu m (m.stale, s) 1) 2).2.show? (ledPsu psu) = _
  rcases hpsu with rfl | rfl
  · rw [show_checkPsu_of_ne (by decide) (.inr rfl), hself]
  · rw [hself, show_checkPsu_of_ne (by decide) (.inl rfl)]

theorem fanColor_eq (s : Cpld) :
    cpldCheckFans m s =
      (sysfsWriteStr m s .ledFan (if m.fanFault then AMBER else GREEN)).2 := by
  have hread {a : CpldAttr} (ha : a = .systemFanOk ∨ a = .systemFanPresent) :
      sysfsReadInt m s a = some 0 ↔
        m.opens a = true ∧ m.status a CPLD_REG_SYS_STATUS &&& a.part.2 ≠ 0 := by
    rw [sysfsReadInt_fan s ha]
    by_cases hopen : m.opens a = true
    · rw [if_pos hopen]
      by_cases h0 : m.status a CPLD_REG_SYS_STATUS &&& a.part.2 = 0 <;> simp [hopen, h0]
    · simp [hopen]
  have hfault : (¬ sysfsReadInt m s .systemFanPresent ≠ some 0 ∨
      ¬ sysfsReadInt m s .systemFanOk ≠ some 0) ↔ m.fanFault = true := by
    rw [not_not, not_not, hread (.inr rfl), hread (.inl rfl), Moment.fanFault, decide_eq_true_eq]
    exact or_comm
  rw [cpldCheckFans]
  exact congrArg (fun color => (sysfsWriteStr m s .ledFan color).2) (if_congr hfault rfl rfl)

theorem show_cpldCheckFans (hopen : m.opens .ledFan = true) (s : Cpld) :
    (cpldCheckFans m s).show? .ledFan =
      some (line (if m.fanFault then AMBER else GREEN)) := by
  rw [fanColor_eq]
  refine show_write_self hopen ?_ s
  change some (line (colour _)) = _
  split
  · rw [colour_amber]
  · rw [colour_green]

/-! ### The poll and the run -/

theorem poll_calls {a : CpldAttr} {text : Option (List Byte)} (h : m.Calls a text) (s : Cpld) :
    (poll m s).show? a = text := by
  have hfans {a : CpldAttr} (ha : a ≠ .ledFan) (s : Cpld) :
      (cpldCheckFans m s).show? a = s.show? a := show_write_of_ne ha s _
  cases h with
  | fans hopen hduty =>
    rw [poll, hfans (by decide), show_cpldCheckPsu_of_ne (by decide) (by decide),
      show_thermalManageFans hopen, duty_iff.mp hduty]
  | psu hpsu hstatus hopen =>
    have hne : ∀ psu, ledPsu psu ≠ .ledFan := fun psu => by
      unfold ledPsu
      split <;> decide
    rw [poll, hfans (hne _), show_cpldCheckPsu hpsu hstatus hopen]
  | fanLed hopen => rw [poll, show_cpldCheckFans hopen]

theorem poll_keeps {a : CpldAttr} (h : ∀ text, ¬ m.Calls a text) (s : Cpld) :
    (poll m s).show? a = s.show? a := by
  have hthermal : (thermalManageFans m s (thermalReadMax m)).show? a = s.show? a := by
    rw [thermalManageFans_eq]
    by_cases ha : a = .pwm1
    · subst ha
      have hclosed : m.opens .pwm1 = false := by
        simpa using fun hopen => h _ (.fans hopen (duty_iff.mpr rfl))
      rw [sysfsWriteInt, write_of_closed hclosed]
    · exact show_write_of_ne ha s _
  have hpsu (s : Cpld) : (cpldCheckPsu m s).show? a = s.show? a := by
    have hclosed {psu : ℕ} (hpsu : psu = 1 ∨ psu = 2) (ha : a = ledPsu psu) :
        (cpldCheckPsu m s).show? a = s.show? a := by
      subst ha
      exact show_cpldCheckPsu_of_closed hpsu (fun ho => h _ (.psu hpsu ho.1 ho.2)) s
    by_cases h1 : a = .ledPsu1
    · exact hclosed (.inl rfl) h1
    · by_cases h2 : a = .ledPsu2
      · exact hclosed (.inr rfl) h2
      · exact show_cpldCheckPsu_of_ne h1 h2 s
  have hfans (s : Cpld) : (cpldCheckFans m s).show? a = s.show? a := by
    rw [fanColor_eq]
    by_cases ha : a = .ledFan
    · subst ha
      have hclosed : m.opens .ledFan = false := by simpa using fun hopen => h _ (.fanLed hopen)
      rw [write_of_closed hclosed]
    · exact show_write_of_ne ha s _
  rw [poll, hfans, hpsu, hthermal]

theorem show_cpldWatchdogKeepalive (s : Cpld) (a : CpldAttr) :
    (cpldWatchdogKeepalive m s).show? a = s.show? a := by
  by_cases ha : a = .watchDogKeepAlive
  · rw [ha]
    rfl
  · exact show_write_of_ne ha s _

/-- A turn with a poll sets the attribute to the text. -/
def Polled (hw : ℕ → Moment) (ticks : ℕ) (a : CpldAttr) (text : Option (List Byte)) : Prop :=
  ticks % POLL_INTERVAL_S = 0 ∧ (hw ticks).Calls a text

/-- However the platform changes and whichever files cannot be opened: after any number of
turns the fan speed and the lamps show what the last poll that could set them called for. What
a poll calls for of a supply whose `all_ok` file is closed depends on the stale `ok`. -/
theorem indicators_follow (start : Moment) (hw : ℕ → Moment) (n : ℕ) (s : Cpld) (a : CpldAttr) :
    Holds (Polled hw) (started start s).show? (List.range n) a ((mgrd start hw n s).show? a) := by
  have hkeepalive (m : Moment) (ticks : ℕ) (s : Cpld) (a : CpldAttr) :
      (if ticks % WDT_KEEPALIVE_S = 0 then cpldWatchdogKeepalive m s else s).show? a =
        s.show? a := by
    split
    · exact show_cpldWatchdogKeepalive s a
    · rfl
  refine holds_foldl (g := Cpld.show?) (fun s k a text hk => ?_) (fun s k a hnone => ?_) _ a
  · rw [turn, if_pos hk.1, poll_calls hk.2]
  · rw [turn]
    by_cases hk : k % POLL_INTERVAL_S = 0
    · rw [if_pos hk, poll_keeps fun text ht => hnone text ⟨hk, ht⟩, hkeepalive]
    · rw [if_neg hk, hkeepalive]

end OpenNos.Platform
