import OpenNos.Lib.Scanf
import OpenNos.Lib.Words

/-! The script runner (`soc.c`): a line of a script as `fgets` hands it out, the three
words `sscanf` takes from it, the command they name, and `setreg`. Numbers are read by
one conversion after the other, the first that succeeds decides, and what stands behind
the number does not matter. -/

namespace OpenNos.Sdk

open Cstring

/-- The characters of a literal. -/
def ascii (s : String) : List Byte := s.toList.map fun c => BitVec.ofNat 8 c.toNat

/-! ### Registers -/

def CMIC_BAR0_SIZE : BitVec 32 := 0x40000

/-- A write to a register: of BAR0 directly, of a block by SCHAN. -/
inductive SocWrite where
  | bde (offset value : BitVec 32)
  | sbus (addr value : BitVec 32)

def socWriteReg (addr value : BitVec 32) : SocWrite :=
  if addr < CMIC_BAR0_SIZE then .bde addr value else .sbus addr value

structure RegEntry where
  name : List Byte
  addr : BitVec 32

def REG_TABLE : List RegEntry :=
  [⟨ascii "rdbgc0_select", 0x06500380⟩,
    ⟨ascii "rdbgc3_select", 0x065003a0⟩,
    ⟨ascii "rdbgc4_select", 0x065003a4⟩,
    ⟨ascii "rdbgc5_select", 0x065003a8⟩,
    ⟨ascii "rdbgc6_select", 0x065003ac⟩,
    ⟨ascii "tdbgc6_select", 0x04b00200⟩,
    ⟨ascii "ifp_meter_parity_control", 0x0a400000⟩,
    ⟨ascii "xmac_tx_ctrl", 0x40a0082c⟩,
    ⟨ascii "rtag7_hash_seed_a", 0x05e00180⟩,
    ⟨ascii "rtag7_hash_ecmp", 0x05e00200⟩,
    ⟨ascii "cmic_misc_control", 0x0000001c⟩]

def tolower (c : Byte) : Byte := if 0x41 ≤ c ∧ c ≤ 0x5a then c + 0x20 else c

/-- The address of a name, 0 where it is not found; at most 63 characters are compared. -/
def regLookup (name : List Byte) : BitVec 32 :=
  let lower := (name.take 63).map tolower
  match REG_TABLE.find? fun e => e.name = lower with
  | some e => e.addr
  | none => 0

/-! ### Lines -/

def skipBlanks (s : List Byte) : List Byte := s.dropWhile fun c => c = 0x20 ∨ c = 0x09

/-- A line without the blanks and the unit prefix before its command; `none` for blank
lines, comments and a prefix alone. -/
def scriptText (line : List Byte) : Option (List Byte) :=
  let p := skipBlanks (cstr line)
  match p with
  | [] => none
  | c :: rest =>
    if c = 0x23 ∨ c = 0x0a ∨ c = 0x0d then none
    else if isDigit c ∧ rest.head? = some 0x3a then
      let q := skipBlanks (rest.drop 1)
      if q = [] ∨ q.head? = some 0x0a then none else some q
    else some p

/-- `sscanf(p, "%63s %127s %63s", cmd, arg1, arg2)`: what has been stored. -/
def scriptFields (p : List Byte) : List (List Byte) :=
  match scanWord 63 p with
  | none => []
  | some (cmd, p) =>
    match scanWord 127 p with
    | none => [cmd]
    | some (arg1, p) =>
      match scanWord 63 p with
      | none => [cmd, arg1]
      | some (arg2, _) => [cmd, arg1, arg2]

/-- What `soc_run_internal` does with a line. -/
inductive SocCmd where
  /-- no command -/
  | skip
  /-- debug, attach, setenv, modreg, s -/
  | ignored
  | initAll
  | rcload (path : List Byte)
  | setreg (arg1 arg2 : List Byte)
  | getreg (arg1 : List Byte)
  | m (arg1 arg2 : List Byte)
  | unknown (cmd : List Byte)

/-- The command that the fields name. -/
def socCommand (cmd : List Byte) (args : List (List Byte)) : SocCmd :=
  if cmd ∈ [ascii "debug", ascii "attach", ascii "setenv", ascii "modreg", ascii "s"] then .ignored
  else
    match args with
    | [] => .unknown cmd
    | arg1 :: rest =>
      if cmd = ascii "init" ∧ arg1 = ascii "all" then .initAll
      else if cmd = ascii "rcload" then .rcload arg1
      else if cmd = ascii "getreg" then .getreg arg1
      else
        match rest with
        | [] => .unknown cmd
        | arg2 :: _ =>
          if cmd = ascii "setreg" then .setreg arg1 arg2
          else if cmd = ascii "m" then .m arg1 arg2
          else .unknown cmd

def socLine (line : List Byte) : SocCmd :=
  match scriptText line with
  | none => .skip
  | some p =>
    match scriptFields p with
    | [] => .skip
    | cmd :: args => socCommand cmd args

/-! ### setreg -/

/-- `sscanf(s, "0x%x", &n) == 1`, and `%lx` alike, `long` having 32 bits. -/
def scanPrefixed (s : List Byte) : Option (BitVec 32) :=
  if s.take 2 = [0x30, 0x78] then scanHex (s.drop 2) else none

/-- With the prefix as hexadecimal, else as decimal. -/
def scanNumber (s : List Byte) : Option (BitVec 32) := (scanPrefixed s).or (scanUnsigned s)

/-- The writes of the command; an unknown register is passed over. -/
def setreg (arg1 arg2 : List Byte) : List SocWrite :=
  let val := (scanNumber arg2).getD 0
  match scanNumber arg1 with
  | some addr => [socWriteReg addr val]
  | none =>
    let reg := regLookup arg1
    if reg ≠ 0 then [socWriteReg reg val] else []

/-- The register writes that a line makes by `setreg`. -/
def setregWrites (line : List Byte) : List SocWrite :=
  match socLine line with
  | .setreg arg1 arg2 => setreg arg1 arg2
  | _ => []

end OpenNos.Sdk
