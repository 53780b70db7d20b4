import Mathlib.Tactic

/-! Strings of C: the bytes up to the first NUL. `scanUnsigned` and `scanSigned`
are the `%u` and `%d` conversions of `sscanf` on a target whose `long` has 32
bits: white space, an optional sign, decimal digits. An unsigned number saturates
and a minus sign negates it modulo 2^32; a signed one saturates at both ends.
`fgetsLines` is a file as `fgets` hands it out. -/

namespace OpenNos.Cstring

abbrev Byte := BitVec 8

/-- The string at the start of a buffer. -/
def cstr (bytes : List Byte) : List Byte := bytes.takeWhile (· ≠ 0)

def isSpace (c : Byte) : Bool := c = 0x20 ∨ (0x09 ≤ c ∧ c ≤ 0x0d)

def isDigit (c : Byte) : Bool := 0x30 ≤ c ∧ c ≤ 0x39

/-- The value of a run of decimal digits. -/
def digitsVal (digits : List Byte) : ℕ := digits.foldl (fun v c => 10 * v + (c - 0x30).toNat) 0

/-- A sign, if there is one: whether it is a minus, and the rest. -/
def scanSign : List Byte → Bool × List Byte
  | [] => (false, [])
  | c :: rest =>
    if c = 0x2d then (true, rest) else if c = 0x2b then (false, rest) else (false, c :: rest)

/-- `sscanf(s, "%u", &n) == 1` and the number stored. -/
def scanUnsigned (s : List Byte) : Option (BitVec 32) :=
  let (neg, rest) := scanSign (s.dropWhile isSpace)
  match rest.takeWhile isDigit with
  | [] => none
  | digits =>
    let v := BitVec.ofNat 32 (min (digitsVal digits) (2 ^ 32 - 1))
    some (if neg ∧ digitsVal digits < 2 ^ 32 then -v else v)

/-- `sscanf(s, "%d", &n) == 1` and the number stored. -/
def scanSigned (s : List Byte) : Option ℤ :=
  let (neg, rest) := scanSign (s.dropWhile isSpace)
  match rest.takeWhile isDigit with
  | [] => none
  | digits =>
    let v := digitsVal digits
    some (if neg then -(min v (2 ^ 31) : ℕ) else (min v (2 ^ 31 - 1) : ℕ))

/-- What the calls of `fgets` with a buffer of `size` bytes give up to the end of
the file: lines with their newline, cut after `size - 1` bytes. `line` is the part
of a line read so far. -/
def fgetsLines (size : ℕ) : List Byte → List Byte → List (List Byte)
  | [], line => if line = [] then [] else [line]
  | c :: rest, line =>
    let line' := line ++ [c]
    if c = 0x0a ∨ line'.length = size - 1 then line' :: fgetsLines size rest []
    else fgetsLines size rest line'

/-- The decimal digits of a number below 100, as `%d` prints it. -/
def decimal (n : ℕ) : List Byte :=
  let digit (d : ℕ) : Byte := BitVec.ofNat 8 (0x30 + d)
  if n < 10 then [digit n] else [digit (n / 10), digit (n % 10)]

end OpenNos.Cstring
