import OpenNos.Lib.Scanf

/-! Numbers as the kernel and its users write and read them: `%d` of any number that is
not negative, `kstrtol` in base 10 on a target whose `long` has 32 bits, and the
comparison of sysfs, which lets one newline at the end pass. -/

namespace OpenNos.Cstring

/-- The digit of a number below 10. -/
def digit (d : ℕ) : Byte := BitVec.ofNat 8 (0x30 + d)

/-- `%d`. -/
def printNat (n : ℕ) : List Byte :=
  if n = 0 then [digit 0] else ((Nat.digits 10 n).map digit).reverse

/-- The text and a newline, as a sysfs attribute shows it. -/
def line (text : List Byte) : List Byte := text ++ [0x0a]

/-- One sign, digits, and nothing behind them but a newline; a number that does not fit is
refused. -/
def kstrtol (s : List Byte) : Option ℤ :=
  let (neg, rest) := scanSign s
  let digits := rest.takeWhile isDigit
  let tail := rest.dropWhile isDigit
  let value : ℤ := if neg then -(digitsVal digits : ℤ) else digitsVal digits
  if digits = [] ∨ (tail ≠ [] ∧ tail ≠ [0x0a]) ∨ value < -2 ^ 31 ∨ 2 ^ 31 ≤ value then none
  else some value

/-- `sysfs_streq`. -/
def sysfsStreq (s t : List Byte) : Bool := s = t ∨ s ++ [0x0a] = t ∨ s = t ++ [0x0a]

/-! ### The digits of a number -/

theorem digit_toNat {d : ℕ} (h : d < 10) : (digit d).toNat = 0x30 + d := by
  rw [digit, BitVec.toNat_ofNat]
  omega

theorem isDigit_digit {d : ℕ} (h : d < 10) : isDigit (digit d) = true := by
  rw [isDigit, decide_eq_true_eq, BitVec.le_def, BitVec.le_def, digit_toNat h]
  constructor
  · exact Nat.le_add_right _ _
  · change 0x30 + d ≤ 0x39
    omega

theorem digit_sub {d : ℕ} (h : d < 10) : (digit d - 0x30).toNat = d := by
  rw [BitVec.toNat_sub, digit_toNat h]
  change (2 ^ 8 - 0x30 + (0x30 + d)) % 2 ^ 8 = d
  omega

theorem digitsVal_reverse {ds : List ℕ} (hds : ∀ d ∈ ds, d < 10) :
    digitsVal (ds.map digit).reverse = Nat.ofDigits 10 ds := by
  induction ds with
  | nil => rfl
  | cons d ds ih =>
    rw [List.map_cons, List.reverse_cons, digitsVal_eq, positional_concat, ← digitsVal_eq,
      ih fun e he => hds e (List.mem_cons_of_mem d he), Nat.ofDigits_cons,
      digit_sub (hds d List.mem_cons_self), Nat.add_comm]

theorem digits_lt {n d : ℕ} (h : d ∈ Nat.digits 10 n) : d < 10 :=
  Nat.digits_lt_base (by norm_num) h

theorem digitsVal_printNat (n : ℕ) : digitsVal (printNat n) = n := by
  rw [printNat]
  split
  · subst n
    rfl
  · rw [digitsVal_reverse fun d hd => digits_lt hd, Nat.ofDigits_digits]

theorem isDigit_printNat {n : ℕ} {c : Byte} (h : c ∈ printNat n) : isDigit c = true := by
  rw [printNat] at h
  split at h
  · rw [List.mem_singleton.mp h]
    exact isDigit_digit (by norm_num)
  · obtain ⟨d, hd, rfl⟩ := List.mem_map.mp (List.mem_reverse.mp h)
    exact isDigit_digit (digits_lt hd)

theorem printNat_ne_nil (n : ℕ) : printNat n ≠ [] := by
  rw [printNat]
  split
  · simp
  · next h => simpa [Nat.digits_eq_nil_iff_eq_zero] using h

/-! ### Written and read back -/

theorem cstr_printNat (n : ℕ) : cstr (printNat n) = printNat n :=
  List.takeWhile_eq_self_iff.mpr fun c hc => by
    have h0 : isDigit 0 = false := by decide
    have hd := isDigit_printNat hc
    rw [decide_eq_true_eq]
    rintro rfl
    exact absurd (h0.symm.trans hd) (by simp)

/-- No sign stands before a digit. -/
theorem scanSign_printNat (n : ℕ) : scanSign (printNat n) = (false, printNat n) := by
  cases h : printNat n with
  | nil => exact absurd h (printNat_ne_nil n)
  | cons c rest =>
    have hc := not_sign_of_isDigit (isDigit_printNat (h ▸ List.mem_cons_self))
    rw [scanSign, if_neg hc.1, if_neg hc.2]

theorem kstrtol_printNat {n : ℕ} (h : n < 2 ^ 31) : kstrtol (printNat n) = some (n : ℤ) := by
  have hall : ∀ c ∈ printNat n, isDigit c = true := fun c => isDigit_printNat
  rw [kstrtol, scanSign_printNat]
  dsimp only
  rw [List.takeWhile_eq_self_iff.mpr hall, List.dropWhile_eq_nil_iff.mpr hall,
    digitsVal_printNat, if_neg (by decide : ¬ (false = true))]
  refine if_neg ?_
  push Not
  exact ⟨printNat_ne_nil n, fun h0 => absurd rfl h0, by omega, by omega⟩

/-- What `sprintf` writes on a line, `fscanf` reads. -/
theorem scanSigned_line {n : ℕ} (h : n < 2 ^ 31) :
    scanSigned (line (printNat n)) = some (n : ℤ) := by
  have hall : ∀ c ∈ printNat n, isDigit c = true := fun c => isDigit_printNat
  rw [line, scanSigned_newline, scanSigned_eq, ← List.append_nil (printNat n),
    scanInt_digits hall (printNat_ne_nil n) (by simp), digitsVal_printNat, Option.map_some,
    Nat.min_eq_left (by omega)]

end OpenNos.Cstring
