import Mathlib.Data.List.TakeWhile
import OpenNos.Lib.Cstring

/-! The text a number conversion of `sscanf` accepts. A `%u` takes white space, a
sign and a run of digits, and leaves the rest of the text alone; the parts are
determined by the text, and the number by the sign and the digits. So the accepted
texts are many for each number, one of which is its plain decimal form. -/

namespace OpenNos.Cstring

/-- The parts of a text that `%u` accepts. -/
structure UnsignedParts where
  space : List Byte
  sign : List Byte
  digits : List Byte
  rest : List Byte

namespace UnsignedParts

def text (p : UnsignedParts) : List Byte := p.space ++ (p.sign ++ (p.digits ++ p.rest))

/-- White space, a sign or none, and all the digits there are, at least one. -/
structure Valid (p : UnsignedParts) : Prop where
  space : ∀ c ∈ p.space, isSpace c = true
  sign : p.sign = [] ∨ p.sign = [0x2b] ∨ p.sign = [0x2d]
  digits : ∀ c ∈ p.digits, isDigit c = true
  digits_ne : p.digits ≠ []
  rest : ∀ c ∈ p.rest.head?, isDigit c = false

/-- The number `strtoul` makes of the sign and the digits, `long` having 32 bits. -/
def value (p : UnsignedParts) : ℕ :=
  if p.sign = [0x2d] ∧ digitsVal p.digits < 2 ^ 32 then (2 ^ 32 - digitsVal p.digits) % 2 ^ 32
  else min (digitsVal p.digits) (2 ^ 32 - 1)

/-- The number `strtol` makes of them. -/
def intValue (p : UnsignedParts) : ℤ :=
  if p.sign = [0x2d] then -(min (digitsVal p.digits) (2 ^ 31) : ℕ)
  else (min (digitsVal p.digits) (2 ^ 31 - 1) : ℕ)

/-- Digits alone, the first of them not 0. -/
def Plain (p : UnsignedParts) : Prop :=
  p.space = [] ∧ p.sign = [] ∧ p.rest = [] ∧ p.digits.head? ≠ some 0x30

end UnsignedParts

variable {p q : UnsignedParts} {s : List Byte}

theorem UnsignedParts.value_lt (p : UnsignedParts) : p.value < 2 ^ 32 := by
  rw [UnsignedParts.value]
  split <;> omega

/-! ### Runs of characters -/

theorem takeWhile_run {f : Byte → Bool} {l r : List Byte} (hl : ∀ c ∈ l, f c = true)
    (hr : ∀ c ∈ r.head?, f c = false) : (l ++ r).takeWhile f = l := by
  rw [List.takeWhile_append_of_pos hl]
  cases r with
  | nil => simp
  | cons c r => rw [List.takeWhile_cons_of_neg (by simp [hr c rfl]), List.append_nil]

theorem dropWhile_run {f : Byte → Bool} {l r : List Byte} (hl : ∀ c ∈ l, f c = true)
    (hr : ∀ c ∈ r.head?, f c = false) : (l ++ r).dropWhile f = r := by
  rw [List.dropWhile_append_of_pos hl]
  cases r with
  | nil => rfl
  | cons c r => rw [List.dropWhile_cons_of_neg (by simp [hr c rfl])]

theorem head?_dropWhile (f : Byte → Bool) (l : List Byte) :
    ∀ c ∈ (l.dropWhile f).head?, f c = false := by
  intro c hc
  have h := List.head?_dropWhile_not f l
  rw [Option.mem_def.mp hc] at h
  exact h

theorem not_isSpace_of_isDigit {c : Byte} (h : isDigit c = true) : isSpace c = false := by
  simp only [isDigit, isSpace, decide_eq_true_eq, decide_eq_false_iff_not] at h ⊢
  bv_omega

theorem not_sign_of_isDigit {c : Byte} (h : isDigit c = true) : c ≠ 0x2d ∧ c ≠ 0x2b := by
  simp only [isDigit, decide_eq_true_eq] at h
  bv_omega

theorem not_isSpace_of_sign {c : Byte} (h : c = 0x2b ∨ c = 0x2d) : isSpace c = false := by
  rcases h with rfl | rfl <;> decide

/-! ### The parts are those the scan finds -/

theorem UnsignedParts.Valid.digits_head (h : p.Valid) :
    ∃ c, p.digits.head? = some c ∧ isDigit c = true := by
  cases hd : p.digits with
  | nil => exact absurd hd h.digits_ne
  | cons c l => exact ⟨c, rfl, h.digits c (by rw [hd]; exact List.mem_cons_self ..)⟩

/-- The text after the white space begins with the sign or the digits. -/
theorem UnsignedParts.Valid.dropWhile_text (h : p.Valid) :
    p.text.takeWhile isSpace = p.space ∧
      p.text.dropWhile isSpace = p.sign ++ (p.digits ++ p.rest) := by
  have hhead : ∀ c ∈ (p.sign ++ (p.digits ++ p.rest)).head?, isSpace c = false := by
    intro c hc
    rcases h.sign with hs | hs | hs
    · obtain ⟨d, hd, hdig⟩ := h.digits_head
      rw [hs, List.nil_append, List.head?_append, hd] at hc
      obtain rfl := Option.some.inj hc
      exact not_isSpace_of_isDigit hdig
    · rw [hs] at hc
      exact not_isSpace_of_sign (.inl (Option.some.inj hc).symm)
    · rw [hs] at hc
      exact not_isSpace_of_sign (.inr (Option.some.inj hc).symm)
  exact ⟨takeWhile_run h.space hhead, dropWhile_run h.space hhead⟩

theorem UnsignedParts.Valid.scanSign_text (h : p.Valid) :
    scanSign (p.text.dropWhile isSpace) = (decide (p.sign = [0x2d]), p.digits ++ p.rest) := by
  rw [h.dropWhile_text.2]
  rcases h.sign with hs | hs | hs
  · obtain ⟨d, hd, hdig⟩ := h.digits_head
    obtain ⟨l, hl⟩ : ∃ l, p.digits = d :: l := by
      cases hp : p.digits with
      | nil => exact absurd hp h.digits_ne
      | cons c l =>
        rw [hp] at hd
        exact ⟨l, by rw [Option.some.inj hd]⟩
    rw [hs, hl, List.nil_append, List.cons_append, scanSign, if_neg (not_sign_of_isDigit hdig).1,
      if_neg (not_sign_of_isDigit hdig).2]
    rfl
  · rw [hs]
    rfl
  · rw [hs]
    rfl

theorem UnsignedParts.Valid.digits_text (h : p.Valid) :
    (p.digits ++ p.rest).takeWhile isDigit = p.digits := takeWhile_run h.digits h.rest

/-- A text has one set of parts. -/
theorem UnsignedParts.Valid.unique (hp : p.Valid) (hq : q.Valid) (h : p.text = q.text) :
    p = q := by
  have hspace : p.space = q.space := by
    rw [← hp.dropWhile_text.1, h, hq.dropWhile_text.1]
  have hscan : scanSign (p.text.dropWhile isSpace) = scanSign (q.text.dropWhile isSpace) := by
    rw [h]
  rw [hp.scanSign_text, hq.scanSign_text, Prod.mk.injEq] at hscan
  have hdigits : p.digits = q.digits := by
    rw [← hp.digits_text, hscan.2, hq.digits_text]
  have hrest : p.rest = q.rest := by
    have := hscan.2
    rw [hdigits] at this
    exact List.append_cancel_left this
  have hsign : p.sign = q.sign := by
    simp only [UnsignedParts.text, hspace, hdigits, hrest] at h
    exact List.append_cancel_right (List.append_cancel_left h)
  cases p
  cases q
  simp_all

/-- The conversion stores the number of the parts. -/
theorem UnsignedParts.Valid.scanUnsigned (h : p.Valid) :
    scanUnsigned p.text = some (BitVec.ofNat 32 p.value) := by
  rw [Cstring.scanUnsigned, h.scanSign_text]
  dsimp only
  rw [h.digits_text]
  cases hd : p.digits with
  | nil => exact absurd hd h.digits_ne
  | cons c l =>
    dsimp only
    rw [← hd, UnsignedParts.value]
    by_cases hneg : p.sign = [0x2d] ∧ digitsVal p.digits < 2 ^ 32
    · rw [if_pos hneg, if_pos ⟨by simp [hneg.1], hneg.2⟩, Nat.min_eq_left (by omega)]
      congr 1
      apply BitVec.eq_of_toNat_eq
      rw [BitVec.toNat_neg, BitVec.toNat_ofNat, BitVec.toNat_ofNat, Nat.mod_eq_of_lt hneg.2,
        Nat.mod_mod]
    · rw [if_neg hneg, if_neg fun hn => hneg ⟨by simpa using hn.1, hn.2⟩]

theorem scanSign_eq (l : List Byte) : ∃ sign, (sign = [] ∨ sign = [0x2b] ∨ sign = [0x2d]) ∧
    l = sign ++ (scanSign l).2 := by
  cases l with
  | nil => exact ⟨[], .inl rfl, rfl⟩
  | cons c l =>
    rw [scanSign]
    by_cases hm : c = 0x2d
    · exact ⟨[0x2d], .inr (.inr rfl), by rw [if_pos hm, hm]; rfl⟩
    · by_cases hp : c = 0x2b
      · exact ⟨[0x2b], .inr (.inl rfl), by rw [if_neg hm, if_pos hp, hp]; rfl⟩
      · exact ⟨[], .inl rfl, by rw [if_neg hm, if_neg hp]; rfl⟩

/-- A text with digits behind white space and a sign has parts. -/
theorem exists_parts (hne : (scanSign (s.dropWhile isSpace)).2.takeWhile isDigit ≠ []) :
    ∃ p : UnsignedParts, p.Valid ∧ p.text = s := by
  obtain ⟨sign, hsign, hafter⟩ := scanSign_eq (s.dropWhile isSpace)
  refine ⟨⟨s.takeWhile isSpace, sign, (scanSign (s.dropWhile isSpace)).2.takeWhile isDigit,
    (scanSign (s.dropWhile isSpace)).2.dropWhile isDigit⟩, ⟨?_, hsign, ?_, hne, ?_⟩, ?_⟩
  · exact fun c hc => List.mem_takeWhile_imp hc
  · exact fun c hc => List.mem_takeWhile_imp hc
  · exact head?_dropWhile _ _
  · rw [UnsignedParts.text, List.takeWhile_append_dropWhile, ← hafter,
      List.takeWhile_append_dropWhile]

/-- What the conversion accepts has parts. -/
theorem exists_parts_of_scanUnsigned {v : BitVec 32} (h : scanUnsigned s = some v) :
    ∃ p : UnsignedParts, p.Valid ∧ p.text = s := by
  refine exists_parts fun hnil => ?_
  rw [scanUnsigned] at h
  dsimp only at h
  rw [hnil] at h
  cases h

/-! ### Literals -/

/-- The characters of a format that stand for themselves, and the text behind them. -/
def scanLiteral (lit s : List Byte) : Option (List Byte) :=
  if s.take lit.length = lit then some (s.drop lit.length) else none

theorem scanLiteral_eq_some_iff {lit r : List Byte} :
    scanLiteral lit s = some r ↔ s = lit ++ r := by
  rw [scanLiteral, Option.ite_none_right_eq_some, Option.some.injEq]
  constructor
  · rintro ⟨htake, hdrop⟩
    rw [← List.take_append_drop lit.length s, htake, hdrop]
  · rintro rfl
    exact ⟨List.take_left, List.drop_left⟩

/-! ### Signed numbers -/

/-- A conversion `%d`: the number it stores, and the text behind it. -/
def scanInt (s : List Byte) : Option (ℤ × List Byte) :=
  let (neg, rest) := scanSign (s.dropWhile isSpace)
  match rest.takeWhile isDigit with
  | [] => none
  | digits =>
    let v := digitsVal digits
    some (if neg then -(min v (2 ^ 31) : ℕ) else (min v (2 ^ 31 - 1) : ℕ), rest.dropWhile isDigit)

theorem scanSigned_eq (s : List Byte) : scanSigned s = (scanInt s).map Prod.fst := by
  rw [scanSigned, scanInt]
  dsimp only
  cases (scanSign (s.dropWhile isSpace)).2.takeWhile isDigit <;> rfl

theorem UnsignedParts.Valid.scanInt (h : p.Valid) : scanInt p.text = some (p.intValue, p.rest) := by
  rw [Cstring.scanInt, h.scanSign_text]
  dsimp only
  rw [h.digits_text, dropWhile_run h.digits h.rest]
  cases hd : p.digits with
  | nil => exact absurd hd h.digits_ne
  | cons c l =>
    dsimp only
    rw [← hd, UnsignedParts.intValue]
    by_cases hneg : p.sign = [0x2d]
    · rw [if_pos (decide_eq_true hneg), if_pos hneg]
    · rw [if_neg (by simpa using hneg), if_neg hneg]

/-- The conversion accepts the texts that have parts. -/
theorem scanInt_eq_some_iff {v : ℤ} {r : List Byte} : scanInt s = some (v, r) ↔
    ∃ p : UnsignedParts, p.Valid ∧ p.text = s ∧ p.intValue = v ∧ p.rest = r := by
  constructor
  · intro h
    obtain ⟨p, hp, rfl⟩ : ∃ p : UnsignedParts, p.Valid ∧ p.text = s := by
      refine exists_parts fun hnil => ?_
      rw [scanInt] at h
      dsimp only at h
      rw [hnil] at h
      cases h
    rw [hp.scanInt, Option.some.injEq, Prod.mk.injEq] at h
    exact ⟨p, hp, rfl, h⟩
  · rintro ⟨p, hp, rfl, rfl, rfl⟩
    exact hp.scanInt

/-- A run of digits, with whatever stands behind it. -/
theorem scanInt_digits {digits r : List Byte} (hd : ∀ c ∈ digits, isDigit c = true)
    (hne : digits ≠ []) (hr : ∀ c ∈ r.head?, isDigit c = false) :
    scanInt (digits ++ r) = some (((min (digitsVal digits) (2 ^ 31 - 1) : ℕ) : ℤ), r) := by
  have hvalid : UnsignedParts.Valid ⟨[], [], digits, r⟩ := ⟨by simp, .inl rfl, hd, hne, hr⟩
  have hvalue : UnsignedParts.intValue ⟨[], [], digits, r⟩ =
      (min (digitsVal digits) (2 ^ 31 - 1) : ℕ) := if_neg (by simp)
  rw [← hvalue]
  exact hvalid.scanInt

/-- A newline at the end makes no difference. -/
theorem scanSigned_newline (s : List Byte) : scanSigned (s ++ [0x0a]) = scanSigned s := by
  cases hs : s.dropWhile isSpace with
  | nil =>
    have hall : ∀ c ∈ s, isSpace c = true := List.dropWhile_eq_nil_iff.mp hs
    have hall' : (s ++ [0x0a]).dropWhile isSpace = [] := by
      rw [List.dropWhile_append_of_pos hall]
      rfl
    rw [scanSigned, scanSigned, hs, hall']
  | cons c l =>
    have happend : (s ++ [0x0a]).dropWhile isSpace = c :: (l ++ [0x0a]) := by
      rw [List.dropWhile_append, hs]
      rfl
    have hrun : ∀ l : List Byte, (l ++ [0x0a]).takeWhile isDigit = l.takeWhile isDigit := by
      intro l
      rw [List.takeWhile_append]
      split
      · rename_i hlen
        rw [(List.takeWhile_prefix isDigit).eq_of_length hlen]
        exact List.append_nil l
      · rfl
    have hsign : (scanSign (c :: (l ++ [0x0a]))).1 = (scanSign (c :: l)).1 ∧
        (scanSign (c :: (l ++ [0x0a]))).2 = (scanSign (c :: l)).2 ++ [0x0a] := by
      rw [scanSign, scanSign]
      split
      · exact ⟨rfl, rfl⟩
      · split <;> exact ⟨rfl, rfl⟩
    rw [scanSigned, scanSigned, hs, happend]
    dsimp only
    rw [hsign.1, hsign.2, hrun]

/-! ### Numbers in a base -/

/-- The number that digits stand for, the first the highest. -/
def positional (base : ℕ) (digit : Byte → ℕ) (l : List Byte) : ℕ :=
  l.foldl (fun v c => base * v + digit c) 0

variable {base : ℕ} {digit : Byte → ℕ}

theorem positional_concat (l : List Byte) (c : Byte) :
    positional base digit (l ++ [c]) = base * positional base digit l + digit c := by
  rw [positional, List.foldl_append]
  rfl

theorem positional_append (l r : List Byte) : positional base digit (l ++ r) =
    positional base digit l * base ^ r.length + positional base digit r := by
  induction r using List.reverseRecOn with
  | nil => simp [positional]
  | append_singleton r c ih =>
    rw [← List.append_assoc, positional_concat, positional_concat, ih, List.length_append,
      List.length_singleton]
    ring

/-- Only zeros stand for 0. -/
theorem positional_eq_zero_iff (hb : 0 < base) (l : List Byte) :
    positional base digit l = 0 ↔ ∀ c ∈ l, digit c = 0 := by
  induction l using List.reverseRecOn with
  | nil => simp [positional]
  | append_singleton l c ih =>
    rw [positional_concat, Nat.add_eq_zero_iff, Nat.mul_eq_zero, ih]
    constructor
    · rintro ⟨hl | hl, hc⟩ d hd
      · omega
      · rcases List.mem_append.mp hd with hd | hd
        · exact hl d hd
        · rwa [List.mem_singleton.mp hd]
    · intro h
      exact ⟨.inr fun d hd => h d (List.mem_append_left _ hd), h c (by simp)⟩

/-! ### Hexadecimal numbers -/

def isHexDigit (c : Byte) : Bool :=
  isDigit c ∨ (0x41 ≤ c ∧ c ≤ 0x46) ∨ (0x61 ≤ c ∧ c ≤ 0x66)

def hexDigit (c : Byte) : ℕ :=
  if isDigit c then (c - 0x30).toNat
  else if 0x61 ≤ c then (c - 0x61).toNat + 10
  else (c - 0x41).toNat + 10

/-- The value of a run of hexadecimal digits. -/
def hexVal (digits : List Byte) : ℕ := positional 16 hexDigit digits

/-- The prefix that `%x` passes over. -/
def dropHexPrefix (s : List Byte) : List Byte :=
  if s.take 2 = [0x30, 0x78] ∨ s.take 2 = [0x30, 0x58] then s.drop 2 else s

/-- `sscanf(s, "%x", &n) == 1` and the number stored. -/
def scanHex (s : List Byte) : Option (BitVec 32) :=
  let (neg, rest) := scanSign (s.dropWhile isSpace)
  match (dropHexPrefix rest).takeWhile isHexDigit with
  | [] => none
  | digits =>
    let v := BitVec.ofNat 32 (min (hexVal digits) (2 ^ 32 - 1))
    some (if neg ∧ hexVal digits < 2 ^ 32 then -v else v)

theorem digitsVal_eq (l : List Byte) : digitsVal l = positional 10 (fun c => (c - 0x30).toNat) l :=
  rfl

theorem hexDigit_eq_zero_iff {c : Byte} : hexDigit c = 0 ↔ c = 0x30 := by
  rw [hexDigit]
  simp only [isDigit, decide_eq_true_eq]
  split
  · bv_omega
  · split <;> bv_omega

/-- A run of hexadecimal digits is read as its value, if that fits. -/
theorem scanHex_digits {digits : List Byte} (hd : ∀ c ∈ digits, isHexDigit c = true)
    (hne : digits ≠ []) :
    scanHex digits = some (BitVec.ofNat 32 (min (hexVal digits) (2 ^ 32 - 1))) := by
  obtain ⟨c, l, rfl⟩ := List.exists_cons_of_ne_nil hne
  have hc := hd c (List.mem_cons_self ..)
  have hplain : isSpace c = false ∧ c ≠ 0x2d ∧ c ≠ 0x2b := by
    simp only [isHexDigit, isDigit, isSpace, decide_eq_true_eq, decide_eq_false_iff_not] at hc ⊢
    bv_omega
  have hspace : (c :: l).dropWhile isSpace = c :: l :=
    List.dropWhile_cons_of_neg (by simp [hplain.1])
  have hsign : scanSign (c :: l) = (false, c :: l) := by
    rw [scanSign, if_neg hplain.2.1, if_neg hplain.2.2]
  have htwo : dropHexPrefix (c :: l) = c :: l := by
    rw [dropHexPrefix, if_neg]
    rintro (h | h)
    · have hx := hd 0x78 (List.mem_of_mem_take (i := 2) (by rw [h]; simp))
      exact absurd hx (by decide)
    · have hx := hd 0x58 (List.mem_of_mem_take (i := 2) (by rw [h]; simp))
      exact absurd hx (by decide)
  have hrun : (c :: l).takeWhile isHexDigit = c :: l :=
    List.takeWhile_eq_self_iff.mpr hd
  rw [scanHex, hspace, hsign]
  dsimp only
  rw [htwo, hrun]
  dsimp only
  rw [if_neg (by simp)]

/-- A run of digits, with whatever stands behind it, is read as its value. -/
theorem scanUnsigned_digits {digits r : List Byte} (hd : ∀ c ∈ digits, isDigit c = true)
    (hne : digits ≠ []) (hr : ∀ c ∈ r.head?, isDigit c = false) :
    scanUnsigned (digits ++ r) =
      some (BitVec.ofNat 32 (min (digitsVal digits) (2 ^ 32 - 1))) := by
  have hvalid : UnsignedParts.Valid ⟨[], [], digits, r⟩ := ⟨by simp, .inl rfl, hd, hne, hr⟩
  have hvalue : UnsignedParts.value ⟨[], [], digits, r⟩ =
      min (digitsVal digits) (2 ^ 32 - 1) := if_neg (by simp)
  rw [← hvalue]
  exact hvalid.scanUnsigned

end OpenNos.Cstring
