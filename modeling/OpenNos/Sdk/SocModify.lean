import OpenNos.Sdk.SbusDevice
import OpenNos.Sdk.SetregGrammar

/-! The `m` command of a script (`soc.c`). It reads a register, replaces one field and
writes the register back, with 0 in place of what a failed read would have given. The
value has the forms of `setreg`, the prefix 0X included; of the word that holds it 63
characters are read. -/

namespace OpenNos.Sdk

open Cstring OpProg

structure FieldEntry where
  regName : List Byte
  fieldName : List Byte
  shift : ℕ
  /-- not shifted -/
  mask : BitVec 32

def FIELD_TABLE : List FieldEntry :=
  [⟨ascii "cmic_misc_control", ascii "link40g_enable", 0, 0x1⟩]

/-- The field of these names; at most 63 characters of each are compared. -/
def fieldLookup (reg name : List Byte) : Option FieldEntry :=
  FIELD_TABLE.find? fun e =>
    e.regName = (reg.take 63).map tolower ∧ e.fieldName = (name.take 63).map tolower

/-- `sscanf(s, "%63[^=]<lit><conv>", name, &val) == 2` and what it has stored. -/
def scanAssign (lit : List Byte) (conv : List Byte → Option (BitVec 32)) (s : List Byte) :
    Option (List Byte × BitVec 32) :=
  let name := (s.takeWhile fun c => c ≠ 0x3d).take 63
  let rest := s.drop name.length
  if name ≠ [] ∧ rest.take lit.length = lit then
    (conv (rest.drop lit.length)).map fun v => (name, v)
  else none

/-- With either prefix as hexadecimal, else as decimal. -/
def scanFieldValue (arg2 : List Byte) : Option (List Byte × BitVec 32) :=
  (scanAssign (ascii "=0x") scanHex arg2).or
    ((scanAssign (ascii "=0X") scanHex arg2).or (scanAssign (ascii "=") scanUnsigned arg2))

/-- The command; a register, a field or a value that is not known is passed over. -/
def mModify (arg1 arg2 : List Byte) : SocProg Unit :=
  let regAddr := regLookup arg1
  if regAddr = 0 then return ()
  else
    match scanFieldValue arg2 with
    | none => return ()
    | some (name, val) =>
      match fieldLookup arg1 name with
      | none => return ()
      | some fe => do
        let cur := (← socReadReg regAddr).getD 0
        discard <| (socWriteReg regAddr
          ((cur &&& ~~~(fe.mask <<< fe.shift)) ||| ((val &&& fe.mask) <<< fe.shift))).run

/-- What a line does by `m`. -/
def mLine (line : List Byte) : SocProg Unit :=
  match socLine line with
  | .m arg1 arg2 => mModify arg1 arg2
  | _ => return ()

/-! ### What a line means -/

/-- A field of a register, and a word for its value. -/
structure Assignment where
  reg : RegEntry
  field : FieldEntry
  value : List Byte
  number : ℕ

/-- A line `m REG FIELD=VALUE` that names a register and a field of it, ignoring case, and
a number. -/
def Assigns (line : List Byte) (a : Assignment) : Prop :=
  ∃ p reg name rest, scriptText line = some p ∧
    words p = ascii "m" :: reg :: (name ++ 0x3d :: a.value) :: rest ∧
    (REG_TABLE.find? fun e => e.name = reg.map tolower) = some a.reg ∧
    (FIELD_TABLE.find? fun e =>
      e.regName = reg.map tolower ∧ e.fieldName = name.map tolower) = some a.field ∧
    numberOf a.value = some a.number

/-- As many values as a field can hold. -/
def FieldEntry.size (fe : FieldEntry) : ℕ := fe.mask.toNat + 1

/-- The bits of the field that hold a value. -/
def FieldEntry.bits (fe : FieldEntry) (k : ℕ) : BitVec 32 := BitVec.ofNat 32 k <<< fe.shift

/-- What a register holds in the field. -/
def FieldEntry.get (fe : FieldEntry) (x : BitVec 32) : ℕ := (x >>> fe.shift &&& fe.mask).toNat

/-- The line replaces the field by its value modulo the width of the field, or leaves the
register alone. -/
def MOnlyField (line : List Byte) (d : SocDev) : Prop :=
  ∀ a, Assigns line a →
    OnlyField (socReg a.reg.addr) (a.field.mask <<< a.field.shift)
      (a.field.bits (a.number % a.field.size)) d ((mLine line).runOn SocDev.step d).2

/-- What the command makes of the value: the largest number if it does not fit, and only
of the characters behind FIELD= up to the 63rd. -/
def Assignment.scanned (a : Assignment) : Option ℕ :=
  (numberOf (a.value.take (62 - a.field.fieldName.length))).map fun n => min n (2 ^ 32 - 1)

/-- The number read is the one that is meant as far as the field goes, or the one the
field holds. -/
def Assignment.ReadWell (a : Assignment) (d : SocDev) : Prop :=
  ∀ k ∈ a.scanned, k % a.field.size = a.number % a.field.size ∨
    k % a.field.size = a.field.get (d.reg (socReg a.reg.addr) 0)

/-! ### Fields -/

/-- The names are short, and the masks are those of whole fields within the register. -/
theorem fieldTable_facts : FIELD_TABLE.all (fun e => decide (e.fieldName ≠ [] ∧
    e.fieldName.length ≤ 59 ∧ e.size = 2 ^ Nat.log2 e.size ∧ e.shift + Nat.log2 e.size ≤ 32) &&
      e.fieldName.all fun c => decide (c ≠ 0x3d)) = true := by
  decide

theorem fieldTable_entry {e : FieldEntry} (he : e ∈ FIELD_TABLE) :
    (e.fieldName ≠ [] ∧ e.fieldName.length ≤ 59 ∧ e.size = 2 ^ Nat.log2 e.size ∧
      e.shift + Nat.log2 e.size ≤ 32) ∧ ∀ c ∈ e.fieldName, c ≠ 0x3d := by
  have h := List.all_eq_true.mp fieldTable_facts e he
  rw [Bool.and_eq_true, decide_eq_true_eq, List.all_eq_true] at h
  exact ⟨h.1, fun c hc => of_decide_eq_true (h.2 c hc)⟩

section Field
variable {fe : FieldEntry} {j k : ℕ}

theorem FieldEntry.and_mask (he : fe ∈ FIELD_TABLE) (k : ℕ) :
    BitVec.ofNat 32 k &&& fe.mask = BitVec.ofNat 32 (k % fe.size) := by
  obtain ⟨⟨-, -, hsize, hfits⟩, -⟩ := fieldTable_entry he
  have hmask : fe.mask.toNat = 2 ^ Nat.log2 fe.size - 1 := by
    rw [← hsize, FieldEntry.size, Nat.add_sub_cancel]
  have hpow : fe.size ∣ 2 ^ 32 := by
    rw [hsize]
    exact Nat.pow_dvd_pow 2 (by omega)
  have hle : k % fe.size < 2 ^ 32 :=
    (Nat.mod_lt _ (Nat.succ_pos _)).trans_le (Nat.le_of_dvd (by omega) hpow)
  apply BitVec.eq_of_toNat_eq
  rw [BitVec.toNat_and, BitVec.toNat_ofNat, BitVec.toNat_ofNat, hmask,
    Nat.and_two_pow_sub_one_eq_mod, ← hsize, Nat.mod_mod_of_dvd _ hpow, Nat.mod_eq_of_lt hle]

/-- The bits of a value lie in the field. -/
theorem FieldEntry.bits_and_mask (he : fe ∈ FIELD_TABLE) (k : ℕ) :
    fe.bits (k % fe.size) &&& fe.mask <<< fe.shift = fe.bits (k % fe.size) := by
  rw [FieldEntry.bits, ← FieldEntry.and_mask he, BitVec.shiftLeft_and_distrib, BitVec.and_assoc,
    BitVec.and_self]

/-- What a register holds in the field, in place. -/
theorem FieldEntry.and_mask_eq (fe : FieldEntry) (x : BitVec 32) :
    x &&& fe.mask <<< fe.shift = fe.bits (fe.get x) := by
  rw [FieldEntry.bits, FieldEntry.get, BitVec.ofNat_toNat, BitVec.setWidth_eq]
  apply BitVec.eq_of_getLsbD_eq
  intro i hi
  simp only [BitVec.getLsbD_and, BitVec.getLsbD_shiftLeft, BitVec.getLsbD_ushiftRight, hi,
    decide_true, Bool.true_and]
  by_cases hs : i < fe.shift
  · simp [hs]
  · simp [hs, show fe.shift + (i - fe.shift) = i by omega]

theorem FieldEntry.get_lt (fe : FieldEntry) (x : BitVec 32) : fe.get x < fe.size := by
  rw [FieldEntry.get, FieldEntry.size, BitVec.toNat_and]
  exact Nat.lt_succ_of_le Nat.and_le_right

theorem FieldEntry.bits_inj (he : fe ∈ FIELD_TABLE) (hj : j < fe.size) (hk : k < fe.size) :
    fe.bits j = fe.bits k ↔ j = k := by
  obtain ⟨⟨-, -, hsize, hfits⟩, -⟩ := fieldTable_entry he
  have htoNat : ∀ i < fe.size, (fe.bits i).toNat = i * 2 ^ fe.shift := by
    intro i hi
    have hlt : i * 2 ^ fe.shift < 2 ^ 32 := by
      calc i * 2 ^ fe.shift < fe.size * 2 ^ fe.shift :=
            Nat.mul_lt_mul_of_pos_right hi (Nat.two_pow_pos _)
        _ = 2 ^ (Nat.log2 fe.size + fe.shift) := by rw [Nat.pow_add, ← hsize]
        _ ≤ 2 ^ 32 := Nat.pow_le_pow_right (by omega) (by omega)
    have hi32 : i < 2 ^ 32 :=
      (Nat.le_mul_of_pos_right i (Nat.two_pow_pos _)).trans_lt hlt
    rw [FieldEntry.bits, BitVec.toNat_shiftLeft, BitVec.toNat_ofNat, Nat.mod_eq_of_lt hi32,
      Nat.shiftLeft_eq, Nat.mod_eq_of_lt hlt]
  constructor
  · intro h
    have hnat := congrArg BitVec.toNat h
    rw [htoNat j hj, htoNat k hk] at hnat
    exact Nat.eq_of_mul_eq_mul_right (Nat.two_pow_pos _) hnat
  · rintro rfl
    rfl

/-- A register in which the field has been replaced by a number is what it was, or has
another number in the field, exactly if the numbers are the same in the field. -/
theorem FieldEntry.replaced_iff (he : fe ∈ FIELD_TABLE) (n : ℕ) {x x' : BitVec 32}
    (hx' : x' = (x &&& ~~~(fe.mask <<< fe.shift)) |||
      ((BitVec.ofNat 32 k &&& fe.mask) <<< fe.shift)) :
    x' = x ∨ Replaced (fe.mask <<< fe.shift) (fe.bits (n % fe.size)) x x' ↔
      k % fe.size = n % fe.size ∨ k % fe.size = fe.get x := by
  have hlt : ∀ i, i % fe.size < fe.size := fun i => Nat.mod_lt _ (Nat.succ_pos _)
  have hrep := replaced_masked (fe.mask <<< fe.shift) (fe.bits (k % fe.size)) x
  rw [FieldEntry.bits_and_mask he] at hrep
  rw [hx', FieldEntry.and_mask he, ← FieldEntry.bits, replaced_eq_iff hrep, replaced_congr hrep,
    FieldEntry.bits_and_mask he, FieldEntry.bits_and_mask he, FieldEntry.and_mask_eq,
    FieldEntry.bits_inj he (hlt k) (fe.get_lt x), FieldEntry.bits_inj he (hlt k) (hlt n), or_comm]

end Field

/-! ### The text of the assignment -/

section Assign
variable {name v : List Byte} {n : ℕ}

/-- A conversion of the assignment looks at the value behind its name. -/
theorem scanAssign_eq (hne : name ≠ []) (hlen : name.length ≤ 63) (heq : ∀ c ∈ name, c ≠ 0x3d)
    (l : List Byte) (conv : List Byte → Option (BitVec 32)) :
    scanAssign (0x3d :: l) conv (name ++ 0x3d :: v) =
      if v.take l.length = l then (conv (v.drop l.length)).map fun x => (name, x) else none := by
  have hrun : (name ++ 0x3d :: v).takeWhile (fun c => decide (c ≠ 0x3d)) = name :=
    takeWhile_run (by simpa using heq) (by simp)
  rw [scanAssign, hrun, List.take_of_length_le hlen, List.drop_left]
  simp [hne]

/-- A number behind a name is read as what it is, the largest if it does not fit. -/
theorem scanFieldValue_eq (hne : name ≠ []) (hlen : name.length ≤ 63)
    (heq : ∀ c ∈ name, c ≠ 0x3d) (hn : numberOf v = some n) :
    scanFieldValue (name ++ 0x3d :: v) = some (name, BitVec.ofNat 32 (min n (2 ^ 32 - 1))) := by
  have hlits : ascii "=0x" = 0x3d :: [0x30, 0x78] ∧ ascii "=0X" = 0x3d :: [0x30, 0x58] ∧
      ascii "=" = 0x3d :: [] := by decide
  rw [scanFieldValue, hlits.1, hlits.2.1, hlits.2.2, scanAssign_eq hne hlen heq,
    scanAssign_eq hne hlen heq, scanAssign_eq hne hlen heq]
  rcases numberOf_cases hn with ⟨hd, rfl⟩ | ⟨hx, rfl⟩ | ⟨hx, rfl⟩
  · have hscan := scanUnsigned_digits hd.2 hd.1 (r := []) (by simp)
    rw [List.append_nil] at hscan
    have hx : ¬ v.take ([0x30, 0x78] : List Byte).length = [0x30, 0x78] :=
      hd.not_prefixed (by decide)
    have hX : ¬ v.take ([0x30, 0x58] : List Byte).length = [0x30, 0x58] :=
      hd.not_prefixed (by decide)
    rw [if_neg hx, if_neg hX, Option.none_or, Option.none_or]
    simp [hscan]
  · have hscan := scanHex_digits hx.2.2 hx.2.1
    simp [hx.1, hscan, hexVal]
  · have hscan := scanHex_digits hx.2.2 hx.2.1
    simp [hx.1, hscan, hexVal]

end Assign

/-! ### The line -/

/-- A name that the table has, but for its case, is as short and has no "=". -/
theorem name_of_field {reg name : List Byte} {fe : FieldEntry}
    (h : (FIELD_TABLE.find? fun e =>
      e.regName = reg.map tolower ∧ e.fieldName = name.map tolower) = some fe) :
    name.length = fe.fieldName.length ∧ name.length ≤ 59 ∧ name ≠ [] ∧ ∀ c ∈ name, c ≠ 0x3d := by
  have hnames := List.find?_some h
  rw [Bool.decide_and, Bool.and_eq_true, decide_eq_true_eq, decide_eq_true_eq] at hnames
  obtain ⟨⟨hne, hlen, -⟩, heq⟩ := fieldTable_entry (List.mem_of_find?_eq_some h)
  rw [hnames.2] at hne hlen heq ⊢
  rw [List.length_map] at hlen ⊢
  refine ⟨rfl, hlen, ?_, ?_⟩
  · rintro rfl
    exact hne rfl
  · rintro c hc rfl
    exact heq 0x3d (List.mem_map.mpr ⟨_, hc, rfl⟩) rfl

/-- The conversions take the register word whole, and 63 characters of the assignment. -/
theorem mLine_of_words {line p reg word : List Byte} {rest : List (List Byte)}
    (hp : scriptText line = some p) (hw : words p = ascii "m" :: reg :: word :: rest)
    (hreg : reg.length ≤ 62) : mLine line = mModify reg (word.take 63) := by
  have hcmd : takeField 63 (ascii "m" :: reg :: word :: rest) =
      some (ascii "m", reg :: word :: rest) := rfl
  rw [mLine, socLine, hp]
  dsimp only
  rw [scriptFields_eq, hw, fieldsOf, hcmd]
  dsimp only
  rw [takeField, if_pos (by omega), List.take_of_length_le (by omega)]
  rfl

/-- The name is one the table has, and the value is read as far as the conversion took it. -/
theorem mLine_eq {line : List Byte} {a : Assignment} (h : Assigns line a) :
    ∃ k, a.scanned = some k ∧ mLine line = (do
      let cur := (← socReadReg a.reg.addr).getD 0
      discard <| (socWriteReg a.reg.addr
        ((cur &&& ~~~(a.field.mask <<< a.field.shift)) |||
          ((BitVec.ofNat 32 k &&& a.field.mask) <<< a.field.shift))).run) := by
  obtain ⟨p, reg, name, rest, hp, hw, hreg, hfield, hnum⟩ := h
  have hregister : registerOf reg = some a.reg.addr.toNat := by
    rw [registerOf, hreg]
    rfl
  obtain ⟨hlen, hshort, hne, hequals⟩ := name_of_field hfield
  obtain ⟨n, hn⟩ := numberOf_take hnum (show 3 ≤ 62 - a.field.fieldName.length by omega)
  have htake : (name ++ 0x3d :: a.value).take 63 =
      name ++ 0x3d :: a.value.take (62 - a.field.fieldName.length) := by
    rw [List.take_append, List.take_of_length_le (by omega),
      show 63 - name.length = 62 - a.field.fieldName.length + 1 by omega, List.take_succ_cons]
  have haddr : regLookup reg = a.reg.addr := by
    rw [regLookup_eq, hreg]
    rfl
  have hzero : a.reg.addr ≠ 0 := (regTable_entry (List.mem_of_find?_eq_some hreg)).1.2
  have hreglen := (registerOf_word hregister).1
  have hlookup : fieldLookup reg name = some a.field := by
    rw [fieldLookup, List.take_of_length_le (by omega), List.take_of_length_le (by omega), hfield]
  refine ⟨min n (2 ^ 32 - 1), by rw [Assignment.scanned, hn, Option.map_some], ?_⟩
  rw [mLine_of_words hp hw hreglen, htake, mModify, haddr, if_neg hzero,
    scanFieldValue_eq hne (by omega) hequals hn]
  dsimp only
  rw [hlookup]

/-! ### What the command does to the chip -/

theorem mLine_onlyField {line : List Byte} {a : Assignment} (h : Assigns line a) (d : SocDev) :
    OnlyField (socReg a.reg.addr) (a.field.mask <<< a.field.shift)
        (a.field.bits (a.number % a.field.size)) d ((mLine line).runOn SocDev.step d).2 ↔
      d.outcome 1 = .lost ∨ d.outcome 0 = .ok ∧ a.ReadWell d := by
  obtain ⟨k, hk, hline⟩ := mLine_eq h
  have hmem : a.field ∈ FIELD_TABLE := by
    obtain ⟨p, reg, name, rest, -, -, -, hfield, -⟩ := h
    exact List.mem_of_find?_eq_some hfield
  rw [hline, runOn_bind, socReadReg_runOn]
  dsimp only
  rw [runOn_discard, socWriteReg_runOn, onlyField_writeReg_iff]
  refine or_congr_right (and_congr_right fun hok => ?_)
  rw [if_pos hok, Option.getD_some, Assignment.ReadWell, hk]
  simp only [Option.mem_some_iff, forall_eq']
  exact FieldEntry.replaced_iff hmem _ rfl

/-- The command changes only its field exactly if the write has no effect, or the read
succeeds and the value is read well; `sbus_reg_modify` always does. -/
theorem mOnlyField_iff (line : List Byte) (d : SocDev) :
    (MOnlyField line d ↔
      ∀ a, Assigns line a → d.outcome 1 = .lost ∨ d.outcome 0 = .ok ∧ a.ReadWell d) ∧
    ∀ addr mask value, OnlyField (.sbus addr) mask value d
      ((sbusRegModify addr mask value).runOn SocDev.sbusStep d).2 :=
  ⟨forall₂_congr fun _ ha => mLine_onlyField ha d,
    fun addr mask value => sbusRegModify_onlyField addr mask value d⟩

/-- All registers hold ones, and the first operation fails. -/
def readFails : SocDev where
  reg := fun _ _ => 0xffffffff
  mem := fun _ _ _ => 0
  outcome := fun n => if n = 0 then .lost else .ok
  writes := 0

/-- The read fails and the write succeeds: the register is left with 1. -/
theorem not_mOnlyField_readFails : ¬ ∀ line d, MOnlyField line d := by
  intro h
  have hassigns : Assigns (ascii "m CMIC_MISC_CONTROL LINK40G_ENABLE=1\n")
      ⟨⟨ascii "cmic_misc_control", 0x1c⟩,
        ⟨ascii "cmic_misc_control", ascii "link40g_enable", 0, 0x1⟩, ascii "1", 1⟩ :=
    ⟨_, ascii "CMIC_MISC_CONTROL", ascii "LINK40G_ENABLE", [], rfl, by decide, rfl, rfl, by decide⟩
  have hfield := (h _ readFails _ hassigns).field
  have hafter : ((mLine (ascii "m CMIC_MISC_CONTROL LINK40G_ENABLE=1\n")).runOn SocDev.step
      readFails).2.reg (socReg 0x1c) 0 = 1 := rfl
  rw [hafter] at hfield
  rcases hfield with hsame | hreplaced
  · exact absurd hsame (by decide)
  · exact absurd (hreplaced 1 (by omega)) (by decide)

end OpenNos.Sdk
