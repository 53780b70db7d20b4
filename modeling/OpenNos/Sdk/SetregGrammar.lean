import OpenNos.Sdk.SocScript

/-! The lines of a script that `setreg` carries out as they are written. An address is a
decimal number, a hexadecimal one with its prefix, or the name of a register, a value one
of the first two. `setreg` reads the prefix 0X as the number 0, stops at the first
character that does not belong to a number, takes 0 for a value it cannot read, keeps the
largest number for one that does not fit, and goes by fields of a fixed width; so it
writes something for many lines that mean nothing, and for some something else. -/

namespace OpenNos.Sdk

open Cstring

/-! ### What a line means -/

def IsDecimal (w : List Byte) : Prop := w ≠ [] ∧ ∀ c ∈ w, isDigit c = true

instance (w : List Byte) : Decidable (IsDecimal w) := inferInstanceAs (Decidable (_ ∧ _))

/-- Hexadecimal digits behind "0" and this letter. -/
def IsHex (x : Byte) (w : List Byte) : Prop :=
  w.take 2 = [0x30, x] ∧ w.drop 2 ≠ [] ∧ ∀ c ∈ w.drop 2, isHexDigit c = true

instance (x : Byte) (w : List Byte) : Decidable (IsHex x w) :=
  inferInstanceAs (Decidable (_ ∧ _ ∧ _))

/-- The number that a word is. -/
def numberOf (w : List Byte) : Option ℕ :=
  if IsDecimal w then some (digitsVal w)
  else if IsHex 0x78 w ∨ IsHex 0x58 w then some (hexVal (w.drop 2))
  else none

/-- The address of the register that a word names, ignoring case. -/
def registerOf (w : List Byte) : Option ℕ :=
  (REG_TABLE.find? fun e => e.name = w.map tolower).map fun e => e.addr.toNat

def addressOf (w : List Byte) : Option ℕ := (numberOf w).or (registerOf w)

/-- One write of the value to the address, if the words are an address and a value;
otherwise none. -/
def Meant (ws : List (List Byte)) (writes : List SocWrite) : Prop :=
  match ws[1]?.bind addressOf, ws[2]?.bind numberOf with
  | some a, some v => ∃ addr val : BitVec 32,
      (addr.toNat = a ∧ val.toNat = v % 2 ^ 32) ∧ writes = [socWriteReg addr val]
  | _, _ => writes = []

/-- A line with the command setreg is carried out as it is meant. -/
def SetregExact (line : List Byte) : Prop :=
  ∀ p, scriptText line = some p → (words p).head? = some (ascii "setreg") →
    Meant (words p) (setregWrites line)

/-! ### The lines that are read as they are meant -/

/-- What the conversions make of a number: the largest if it does not fit, and 0 behind
the prefix 0X. -/
def scanned (w : List Byte) : Option ℕ :=
  (numberOf w).map fun n => if w.take 2 = [0x30, 0x58] then 0 else min n (2 ^ 32 - 1)

/-- The word begins with a digit, or with a sign and a digit. -/
def StartsNumber (w : List Byte) : Prop := ∃ c, (scanSign w).2.head? = some c ∧ isDigit c = true

/-- An address word of at most 127 characters, and the words behind it. Of the value
word 63 characters are read. -/
def WholeAddress (w : List Byte) (rest : List (List Byte)) : Prop :=
  match rest with
  | [] => True
  | value :: _ =>
    match addressOf w, numberOf value with
    | some a, some v =>
      (registerOf w = some a ∨ scanned w = some a) ∧ scanned (value.take 63) = some (v % 2 ^ 32)
    | some _, none => False
    | none, _ => ¬ StartsNumber w

/-- A longer address word: its end is taken for the value. -/
def CutAddress (w : List Byte) (rest : List (List Byte)) : Prop :=
  match addressOf w, rest.head?.bind numberOf with
  | some a, some v => a = 0 ∧ v % 2 ^ 32 = 0
  | _, _ => ¬ StartsNumber w

/-- The condition on the words of a line. -/
def ReadAsMeant : List (List Byte) → Prop
  | _ :: w :: rest => if w.length ≤ 127 then WholeAddress w rest else CutAddress w rest
  | _ => True

variable {w : List Byte} {n k : ℕ}

/-! ### Numbers -/

theorem IsDecimal.take (h : IsDecimal w) (hn : 0 < n) : IsDecimal (w.take n) := by
  obtain ⟨hne, hd⟩ := h
  refine ⟨?_, fun c hc => hd c (List.mem_of_mem_take hc)⟩
  rw [ne_eq, List.take_eq_nil_iff, not_or]
  exact ⟨by omega, hne⟩

theorem IsHex.take {x : Byte} (h : IsHex x w) (hn : 3 ≤ n) : IsHex x (w.take n) := by
  obtain ⟨hx, hne, hd⟩ := h
  have hdrop : (w.take n).drop 2 = (w.drop 2).take (n - 2) := List.drop_take
  refine ⟨?_, ?_, fun c hc => ?_⟩
  · rw [List.take_take, Nat.min_eq_left (by omega), hx]
  · rw [hdrop, ne_eq, List.take_eq_nil_iff, not_or]
    exact ⟨by omega, hne⟩
  · rw [hdrop] at hc
    exact hd c (List.mem_of_mem_take hc)

theorem IsDecimal.not_prefixed (h : IsDecimal w) {x : Byte} (hx : isDigit x = false) :
    w.take 2 ≠ [0x30, x] := by
  intro heq
  have hmem : x ∈ w := List.mem_of_mem_take (i := 2) (by rw [heq]; simp)
  rw [h.2 x hmem] at hx
  cases hx

theorem numberOf_cases (h : numberOf w = some n) :
    (IsDecimal w ∧ n = digitsVal w) ∨
      (IsHex 0x78 w ∧ n = hexVal (w.drop 2)) ∨ (IsHex 0x58 w ∧ n = hexVal (w.drop 2)) := by
  rw [numberOf] at h
  by_cases hd : IsDecimal w
  · rw [if_pos hd] at h
    exact .inl ⟨hd, (Option.some.inj h).symm⟩
  · rw [if_neg hd] at h
    split at h
    · rename_i hx
      rcases hx with hx | hx
      · exact .inr (.inl ⟨hx, (Option.some.inj h).symm⟩)
      · exact .inr (.inr ⟨hx, (Option.some.inj h).symm⟩)
    · cases h

theorem numberOf_take (h : numberOf w = some n) (hk : 3 ≤ k) :
    ∃ m, numberOf (w.take k) = some m := by
  rw [numberOf]
  rcases numberOf_cases h with ⟨hd, -⟩ | ⟨hx, -⟩ | ⟨hx, -⟩
  · exact ⟨_, if_pos (hd.take (by omega))⟩
  · split
    · exact ⟨_, rfl⟩
    · exact ⟨_, if_pos (.inl (hx.take hk))⟩
  · split
    · exact ⟨_, rfl⟩
    · exact ⟨_, if_pos (.inr (hx.take hk))⟩

theorem scanned_lt (h : scanned w = some k) : k < 2 ^ 32 := by
  obtain ⟨m, -, rfl⟩ := Option.map_eq_some_iff.mp h
  split <;> omega

/-- A number is scanned as the conversions do. -/
theorem scanNumber_of_scanned (h : scanned w = some k) :
    scanNumber w = some (BitVec.ofNat 32 k) := by
  obtain ⟨m, hm, rfl⟩ := Option.map_eq_some_iff.mp h
  rw [scanNumber, scanPrefixed]
  rcases numberOf_cases hm with ⟨hd, rfl⟩ | ⟨hx, rfl⟩ | ⟨hx, rfl⟩
  · have hscan := scanUnsigned_digits hd.2 hd.1 (r := []) (by simp)
    rw [List.append_nil] at hscan
    rw [if_neg (hd.not_prefixed (by decide)), if_neg (hd.not_prefixed (by decide)), Option.none_or,
      hscan]
  · rw [if_pos hx.1, scanHex_digits hx.2.2 hx.2.1, if_neg (by rw [hx.1]; decide)]
    rfl
  · have hsplit : w = [0x30] ++ w.drop 1 := by
      have h1 : w.take 1 = [0x30] := by
        have := congrArg (List.take 1) hx.1
        rwa [List.take_take] at this
      rw [← h1, List.take_append_drop]
    have hrest : ∀ c ∈ (w.drop 1).head?, isDigit c = false := by
      intro c hc
      have := hx.1
      rw [hsplit] at this
      cases hw : w.drop 1 with
      | nil => simp [hw] at hc
      | cons d t =>
        rw [hw] at this hc
        simp at this hc
        rw [← hc, this]
        decide
    rw [if_neg (by rw [hx.1]; decide), if_pos hx.1, Option.none_or, hsplit,
      scanUnsigned_digits (by decide) (by decide) hrest]
    rfl

/-! ### Where a number starts -/

theorem scanPrefixed_eq_none (h : ¬ StartsNumber w) : scanPrefixed w = none := by
  refine if_neg fun hx => h ?_
  obtain ⟨r, rfl⟩ : ∃ r, w = 0x30 :: 0x78 :: r := by
    refine ⟨w.drop 2, ?_⟩
    have := List.take_append_drop 2 w
    rw [hx] at this
    exact this.symm
  exact ⟨0x30, rfl, by decide⟩

/-- A word without white space is read as a number exactly if one starts there. -/
theorem scanNumber_eq_none_iff (hw : ∀ c ∈ w, isSpace c = false) :
    scanNumber w = none ↔ ¬ StartsNumber w := by
  have hspace : w.dropWhile isSpace = w := by
    cases w with
    | nil => rfl
    | cons c w => exact List.dropWhile_cons_of_neg (by simp [hw c (List.mem_cons_self ..)])
  have hscan : scanUnsigned w = none ↔ ¬ StartsNumber w := by
    rw [scanUnsigned, hspace, StartsNumber]
    dsimp only
    cases hs : (scanSign w).2 with
    | nil => simp
    | cons c r =>
      by_cases hc : isDigit c = true
      · simp [List.takeWhile_cons_of_pos hc, hc]
      · simp [List.takeWhile_cons_of_neg hc, hc]
  constructor
  · intro h
    rw [scanNumber, Option.or_eq_none_iff] at h
    exact hscan.mp h.2
  · intro h
    rw [scanNumber, scanPrefixed_eq_none h, Option.none_or]
    exact hscan.mpr h

theorem startsNumber_cons {c : Byte} (hc : isDigit c = true) (w : List Byte) :
    StartsNumber (c :: w) := by
  refine ⟨c, ?_, hc⟩
  obtain ⟨hm, hp⟩ := not_sign_of_isDigit hc
  rw [scanSign, if_neg hm, if_neg hp]
  rfl

theorem startsNumber_of_numberOf (h : numberOf w = some n) : StartsNumber w := by
  have hhead : ∃ c, w.head? = some c ∧ isDigit c = true := by
    have hhex : ∀ x, w.take 2 = [0x30, x] → ∃ c, w.head? = some c ∧ isDigit c = true := by
      intro x hx
      refine ⟨0x30, ?_, by decide⟩
      have h1 := congrArg List.head? hx
      rwa [List.head?_take, if_neg (by decide)] at h1
    rcases numberOf_cases h with ⟨hd, -⟩ | ⟨hx, -⟩ | ⟨hx, -⟩
    · obtain ⟨c, t, rfl⟩ := List.exists_cons_of_ne_nil hd.1
      exact ⟨c, rfl, hd.2 c (List.mem_cons_self ..)⟩
    · exact hhex _ hx.1
    · exact hhex _ hx.1
  obtain ⟨c, hc, hdig⟩ := hhead
  obtain ⟨t, rfl⟩ := List.head?_eq_some_iff.mp hc
  exact startsNumber_cons hdig t

/-- Two characters tell. -/
theorem startsNumber_take (hn : 2 ≤ n) : StartsNumber (w.take n) ↔ StartsNumber w := by
  obtain ⟨n, rfl⟩ : ∃ m, n = m + 2 := ⟨n - 2, by omega⟩
  rcases w with _ | ⟨a, _ | ⟨b, w⟩⟩
  · exact Iff.rfl
  · exact Iff.rfl
  · rw [List.take_succ_cons, List.take_succ_cons, StartsNumber, StartsNumber, scanSign, scanSign]
    split
    · exact Iff.rfl
    · split <;> exact Iff.rfl

/-! ### Registers -/

/-- The names are short and begin with a letter, and no address is 0. -/
theorem regTable_facts : REG_TABLE.all (fun e => decide (e.name.length ≤ 62 ∧ e.addr ≠ 0) &&
    (e.name.take 1).all fun c => decide (0x61 ≤ c ∧ c ≤ 0x7a)) = true := by
  decide

theorem regTable_entry {e : RegEntry} (he : e ∈ REG_TABLE) :
    (e.name.length ≤ 62 ∧ e.addr ≠ 0) ∧ ∀ c ∈ e.name.take 1, 0x61 ≤ c ∧ c ≤ 0x7a := by
  have h := List.all_eq_true.mp regTable_facts e he
  rw [Bool.and_eq_true, decide_eq_true_eq, List.all_eq_true] at h
  exact ⟨h.1, fun c hc => of_decide_eq_true (h.2 c hc)⟩

/-- The comparison of 63 characters is a comparison of the word. -/
theorem regTable_name_eq {e : RegEntry} (he : e ∈ REG_TABLE) (w : List Byte) :
    e.name = (w.take 63).map tolower ↔ e.name = w.map tolower := by
  have hlen := (regTable_entry he).1.1
  by_cases hw : w.length ≤ 63
  · rw [List.take_of_length_le hw]
  · constructor
    · intro h
      rw [h, List.length_map, List.length_take_of_le (by omega)] at hlen
      omega
    · intro h
      rw [h, List.length_map] at hlen
      omega

theorem regLookup_eq (w : List Byte) :
    regLookup w = (REG_TABLE.find? fun e => e.name = w.map tolower).elim 0 RegEntry.addr := by
  have hfind : (REG_TABLE.find? fun e => e.name = (w.take 63).map tolower) =
      REG_TABLE.find? fun e => e.name = w.map tolower :=
    List.find?_congr fun e he => by simp only [regTable_name_eq he]
  rw [regLookup, hfind]
  cases REG_TABLE.find? fun e => e.name = w.map tolower <;> rfl

theorem regLookup_of_registerOf (h : registerOf w = some n) :
    (regLookup w).toNat = n ∧ regLookup w ≠ 0 := by
  obtain ⟨e, he, rfl⟩ := Option.map_eq_some_iff.mp h
  rw [regLookup_eq, he]
  exact ⟨rfl, (regTable_entry (List.mem_of_find?_eq_some he)).1.2⟩

theorem regLookup_of_none (h : registerOf w = none) : regLookup w = 0 := by
  rw [regLookup_eq, Option.map_eq_none_iff.mp h]
  rfl

/-- A name is short, and no number starts there. -/
theorem registerOf_word (h : registerOf w = some n) : w.length ≤ 62 ∧ ¬ StartsNumber w := by
  obtain ⟨e, he, rfl⟩ := Option.map_eq_some_iff.mp h
  have hname : e.name = w.map tolower := by simpa using List.find?_some he
  obtain ⟨⟨hlen, -⟩, hletter⟩ := regTable_entry (List.mem_of_find?_eq_some he)
  rw [hname, List.length_map] at hlen
  refine ⟨hlen, ?_⟩
  cases w with
  | nil =>
    rintro ⟨c, hc, -⟩
    cases hc
  | cons c w =>
    have hc := hletter (tolower c) (by rw [hname]; simp)
    have hplain : isDigit c = false ∧ c ≠ 0x2d ∧ c ≠ 0x2b := by
      simp only [isDigit, decide_eq_false_iff_not]
      rw [tolower] at hc
      split at hc <;> bv_omega
    rintro ⟨d, hd, hdig⟩
    rw [scanSign, if_neg hplain.2.1, if_neg hplain.2.2] at hd
    rw [← Option.some.inj hd, hplain.1] at hdig
    cases hdig

theorem numberOf_of_registerOf (h : registerOf w = some n) : numberOf w = none := by
  by_contra hne
  obtain ⟨m, hm⟩ := Option.ne_none_iff_exists'.mp hne
  exact (registerOf_word h).2 (startsNumber_of_numberOf hm)

/-! ### The fields -/

/-- The three conversions on the words of a text. -/
def fieldsOf (ws : List (List Byte)) : List (List Byte) :=
  match takeField 63 ws with
  | none => []
  | some (cmd, ws) =>
    match takeField 127 ws with
    | none => [cmd]
    | some (arg1, ws) =>
      match takeField 63 ws with
      | none => [cmd, arg1]
      | some (arg2, _) => [cmd, arg1, arg2]

theorem scriptFields_eq (p : List Byte) : scriptFields p = fieldsOf (words p) := by
  rw [scriptFields, fieldsOf, ← scanWord_words]
  cases scanWord 63 p with
  | none => rfl
  | some x =>
    dsimp only [Option.map_some]
    rw [← scanWord_words]
    cases scanWord 127 x.2 with
    | none => rfl
    | some y =>
      dsimp only [Option.map_some]
      rw [← scanWord_words]
      cases scanWord 63 y.2 <;> rfl

/-- The writes of the command with these words behind it. -/
def setregOf (args : List (List Byte)) : List SocWrite :=
  match takeField 127 args with
  | none => []
  | some (arg1, ws) =>
    match takeField 63 ws with
    | none => []
    | some (arg2, _) => setreg arg1 arg2

theorem setregWrites_eq {line p : List Byte} {args : List (List Byte)}
    (hp : scriptText line = some p) (hw : words p = ascii "setreg" :: args) :
    setregWrites line = setregOf args := by
  have hcmd : takeField 63 (ascii "setreg" :: args) = some (ascii "setreg", args) := rfl
  rw [setregWrites, socLine, hp]
  dsimp only
  rw [scriptFields_eq, hw, fieldsOf, hcmd, setregOf]
  dsimp only
  cases takeField 127 args with
  | none => rfl
  | some x =>
    dsimp only
    cases takeField 63 x.2 with
    | none => rfl
    | some y =>
      dsimp only
      rfl

/-! ### The writes -/

theorem socWriteReg_inj {a a' v v' : BitVec 32} :
    socWriteReg a v = socWriteReg a' v' ↔ a = a' ∧ v = v' := by
  rw [socWriteReg, socWriteReg]
  constructor
  · intro h
    split at h <;> split at h
    · exact SocWrite.bde.inj h
    · cases h
    · cases h
    · exact SocWrite.sbus.inj h
  · rintro ⟨rfl, rfl⟩
    rfl

/-- The one write is the one that is meant exactly if its numbers are. -/
theorem one_write_iff {a v : ℕ} {addr val : BitVec 32} :
    (∃ addr' val' : BitVec 32, (addr'.toNat = a ∧ val'.toNat = v % 2 ^ 32) ∧
      [socWriteReg addr val] = [socWriteReg addr' val']) ↔
        addr.toNat = a ∧ val.toNat = v % 2 ^ 32 := by
  constructor
  · rintro ⟨addr', val', hnum, h⟩
    obtain ⟨rfl, rfl⟩ := socWriteReg_inj.mp (List.singleton_inj.mp h)
    exact hnum
  · intro h
    exact ⟨addr, val, h, rfl⟩

/-- An address word that is neither a number nor a name leads to no write, unless a
number starts there. -/
theorem setreg_eq_nil_iff {arg1 arg2 : List Byte} (hspace : ∀ c ∈ arg1, isSpace c = false) :
    setreg arg1 arg2 = [] ↔ registerOf arg1 = none ∧ ¬ StartsNumber arg1 := by
  rw [← scanNumber_eq_none_iff hspace, setreg]
  dsimp only
  cases hs : scanNumber arg1 with
  | some addr => simp
  | none =>
    cases hr : registerOf arg1 with
    | none => simp [regLookup_of_none hr]
    | some n =>
      have hreg := (regLookup_of_registerOf hr).2
      rw [if_pos hreg]
      simp

theorem setreg_of_scanned {arg1 arg2 : List Byte} {a v : ℕ} (h1 : scanned arg1 = some a)
    (h2 : scanned arg2 = some v) :
    setreg arg1 arg2 = [socWriteReg (BitVec.ofNat 32 a) (BitVec.ofNat 32 v)] := by
  rw [setreg, scanNumber_of_scanned h1, scanNumber_of_scanned h2]
  rfl

theorem setreg_of_register {arg1 arg2 : List Byte} {v : ℕ} (hspace : ∀ c ∈ arg1, isSpace c = false)
    (h1 : registerOf arg1 = some n) (h2 : scanned arg2 = some v) :
    setreg arg1 arg2 = [socWriteReg (regLookup arg1) (BitVec.ofNat 32 v)] := by
  have hnone := (scanNumber_eq_none_iff hspace).mpr (registerOf_word h1).2
  rw [setreg, hnone, scanNumber_of_scanned h2]
  exact if_pos (regLookup_of_registerOf h1).2

theorem exists_scanned {w : List Byte} (h : numberOf w = some n) : ∃ k, scanned w = some k :=
  ⟨_, by rw [scanned, h, Option.map_some]⟩

/-- The address is written as it is meant exactly if it is a name or scanned as it is. -/
theorem address_exact {w arg2 : List Byte} {a v k : ℕ} (hspace : ∀ c ∈ w, isSpace c = false)
    (ha : addressOf w = some a) (hk : scanned arg2 = some k) :
    (∃ addr val : BitVec 32, (addr.toNat = a ∧ val.toNat = v % 2 ^ 32) ∧
      setreg w arg2 = [socWriteReg addr val]) ↔
        (registerOf w = some a ∨ scanned w = some a) ∧ k = v % 2 ^ 32 := by
  have hval : (BitVec.ofNat 32 k).toNat = k := by
    rw [BitVec.toNat_ofNat, Nat.mod_eq_of_lt (scanned_lt hk)]
  cases hnum : numberOf w with
  | none =>
    rw [addressOf, hnum, Option.none_or] at ha
    rw [setreg_of_register hspace ha hk, one_write_iff, hval, ha]
    simp [(regLookup_of_registerOf ha).1]
  | some m =>
    rw [addressOf, hnum, Option.some_or] at ha
    obtain ⟨j, hj⟩ := exists_scanned hnum
    have haddr : (BitVec.ofNat 32 j).toNat = j := by
      rw [BitVec.toNat_ofNat, Nat.mod_eq_of_lt (scanned_lt hj)]
    have hreg : registerOf w ≠ some a := by
      intro hr
      rw [numberOf_of_registerOf hr] at hnum
      cases hnum
    rw [setreg_of_scanned hj hk, one_write_iff, haddr, hval, hj, Option.some.injEq]
    simp [hreg]

/-- The words behind the command, the first not too long. -/
theorem meant_whole {cmd w : List Byte} {rest : List (List Byte)}
    (hspace : ∀ c ∈ w, isSpace c = false) (hle : w.length ≤ 127) :
    Meant (cmd :: w :: rest) (setregOf (w :: rest)) ↔ WholeAddress w rest := by
  rw [setregOf, takeField, if_pos hle, List.take_of_length_le hle]
  dsimp only
  cases rest with
  | nil =>
    rw [Meant, WholeAddress]
    simp [takeField]
  | cons value rest =>
    have hws : (cmd :: w :: value :: rest)[1]?.bind addressOf = addressOf w ∧
        (cmd :: w :: value :: rest)[2]?.bind numberOf = numberOf value := ⟨rfl, rfl⟩
    rw [takeField, Meant, WholeAddress, hws.1, hws.2]
    dsimp only
    cases ha : addressOf w with
    | none =>
      obtain ⟨hnum, hreg⟩ := Option.or_eq_none_iff.mp ha
      dsimp only
      rw [setreg_eq_nil_iff hspace, hreg, and_iff_right rfl]
    | some a =>
      cases hv : numberOf value with
      | none =>
        refine iff_of_false (fun h => ?_) id
        obtain ⟨hreg, hnot⟩ := (setreg_eq_nil_iff hspace).mp h
        rw [addressOf, hreg, Option.or_none] at ha
        exact hnot (startsNumber_of_numberOf ha)
      | some v =>
        obtain ⟨m, hm⟩ := numberOf_take hv (show 3 ≤ 63 by omega)
        obtain ⟨k, hk⟩ := exists_scanned hm
        dsimp only
        rw [address_exact hspace ha hk, hk, Option.some.injEq]

/-! ### An address word that is cut -/

/-- A number of which the last digits are missing is the number itself only if it is 0. -/
theorem min_positional_eq_iff {base : ℕ} (hb : 2 ≤ base) (digit : Byte → ℕ) (m : ℕ)
    {l r : List Byte} (hr : r ≠ []) :
    min (positional base digit l) m = positional base digit (l ++ r) ↔
      positional base digit (l ++ r) = 0 := by
  rw [positional_append]
  have hpow : 2 ≤ base ^ r.length := by
    have hlen : 1 ≤ r.length := List.length_pos_iff.mpr hr
    calc 2 ≤ base := hb
      _ = base ^ 1 := (pow_one base).symm
      _ ≤ base ^ r.length := Nat.pow_le_pow_right (by omega) hlen
  have hmul : 2 * positional base digit l ≤ positional base digit l * base ^ r.length := by
    rw [Nat.mul_comm 2]
    exact Nat.mul_le_mul_left _ hpow
  omega

/-- The digits behind the cut of a number that is 0. -/
theorem zeros_of_positional {base : ℕ} (hb : 0 < base) (digit : Byte → ℕ) {l r : List Byte}
    (h : positional base digit (l ++ r) = 0) : ∀ c ∈ r, digit c = 0 :=
  fun c hc => (positional_eq_zero_iff hb _).mp h c (List.mem_append_right _ hc)

theorem numberOf_of_isHex {x : Byte} (h : IsHex x w) (hx : x = 0x78 ∨ x = 0x58) :
    numberOf w = some (hexVal (w.drop 2)) := by
  have hdigit : isDigit x = false := by
    rcases hx with rfl | rfl <;> decide
  have hhex : IsHex 0x78 w ∨ IsHex 0x58 w := by
    rcases hx with rfl | rfl
    · exact .inl h
    · exact .inr h
  rw [numberOf, if_neg fun hd => hd.not_prefixed hdigit h.1, if_pos hhex]

/-- The number left of one that is cut, and the digits cut off. -/
theorem cut_number (h : numberOf w = some n) (hk : 3 ≤ k) (hlt : k < w.length) :
    ∃ j, scanned (w.take k) = some j ∧ (j = n ↔ n = 0) ∧ (n = 0 → ∀ c ∈ w.drop k, c = 0x30) := by
  have hne : w.drop k ≠ [] := by
    rw [ne_eq, List.drop_eq_nil_iff]
    omega
  have htwo : (w.take k).take 2 = w.take 2 := by
    rw [List.take_take, Nat.min_eq_left (by omega)]
  have hsplit : w.drop 2 = (w.take k).drop 2 ++ w.drop k := by
    have hkdrop : w.drop k = (w.drop 2).drop (k - 2) := by
      rw [List.drop_drop]
      congr 1
      omega
    rw [hkdrop, List.drop_take, List.take_append_drop]
  have hhex : n = hexVal (w.drop 2) → n = 0 → ∀ c ∈ w.drop k, c = 0x30 := by
    intro hn h0 c hc
    rw [hn, hsplit] at h0
    exact hexDigit_eq_zero_iff.mp (zeros_of_positional (by omega) hexDigit h0 c hc)
  rcases numberOf_cases h with ⟨hd, rfl⟩ | ⟨hx, hn⟩ | ⟨hx, hn⟩
  · have hm : numberOf (w.take k) = some (digitsVal (w.take k)) := if_pos (hd.take (by omega))
    refine ⟨_, by rw [scanned, hm, Option.map_some], ?_, fun h0 c hc => ?_⟩
    · have hcut := min_positional_eq_iff (show 2 ≤ 10 by omega) (fun c => (c - 0x30).toNat)
        (2 ^ 32 - 1) (l := w.take k) hne
      rw [List.take_append_drop] at hcut
      rw [htwo, if_neg (hd.not_prefixed (by decide))]
      exact hcut
    · rw [← List.take_append_drop k w] at h0
      have hzero := zeros_of_positional (show 0 < 10 by omega) (fun c => (c - 0x30).toNat) h0 c hc
      bv_omega
  · have hm := numberOf_of_isHex (hx.take hk) (.inl rfl)
    refine ⟨_, by rw [scanned, hm, Option.map_some], ?_, hhex hn⟩
    rw [htwo, hx.1, if_neg (by decide), hn, hsplit]
    exact min_positional_eq_iff (by omega) hexDigit _ hne
  · have hm := numberOf_of_isHex (hx.take hk) (.inr rfl)
    refine ⟨_, by rw [scanned, hm, Option.map_some], ?_, hhex hn⟩
    rw [htwo, hx.1, if_pos rfl]
    exact eq_comm

/-- A run of zeros is scanned as 0. -/
theorem scanned_zeros (hne : w ≠ []) (h : ∀ c ∈ w, c = 0x30) : scanned w = some 0 := by
  have hd : IsDecimal w := ⟨hne, fun c hc => by rw [h c hc]; decide⟩
  have hval : digitsVal w = 0 := by
    rw [digitsVal_eq, positional_eq_zero_iff (by omega)]
    intro c hc
    rw [h c hc]
    rfl
  rw [scanned, numberOf, if_pos hd, hval, Option.map_some, if_neg (hd.not_prefixed (by decide))]
  rfl

/-- The words behind the command, the first too long. -/
theorem meant_cut {cmd w : List Byte} {rest : List (List Byte)}
    (hspace : ∀ c ∈ w, isSpace c = false) (hlt : 127 < w.length) :
    Meant (cmd :: w :: rest) (setregOf (w :: rest)) ↔ CutAddress w rest := by
  have hws : (cmd :: w :: rest)[1]?.bind addressOf = addressOf w ∧
      (cmd :: w :: rest)[2]?.bind numberOf = rest.head?.bind numberOf := by
    cases rest <;> exact ⟨rfl, rfl⟩
  have hlen : (w.take 127).length = 127 := List.length_take_of_le (by omega)
  have hreg : registerOf w = none := by
    by_contra hne
    obtain ⟨m, hm⟩ := Option.ne_none_iff_exists'.mp hne
    have := (registerOf_word hm).1
    omega
  have hreg' : registerOf (w.take 127) = none := by
    by_contra hne
    obtain ⟨m, hm⟩ := Option.ne_none_iff_exists'.mp hne
    have := (registerOf_word hm).1
    omega
  have hspace' : ∀ c ∈ w.take 127, isSpace c = false :=
    fun c hc => hspace c (List.mem_of_mem_take hc)
  have hnil : ∀ arg2, setreg (w.take 127) arg2 = [] ↔ ¬ StartsNumber w := by
    intro arg2
    rw [setreg_eq_nil_iff hspace', hreg', and_iff_right rfl, startsNumber_take (by omega)]
  rw [setregOf, takeField, if_neg (by omega), Meant, CutAddress, hws.1, hws.2]
  dsimp only [takeField]
  cases ha : addressOf w with
  | none => exact hnil _
  | some a =>
    cases hv : rest.head?.bind numberOf with
    | none => exact hnil _
    | some v =>
      have hnum : numberOf w = some a := by rwa [addressOf, hreg, Option.or_none] at ha
      obtain ⟨j, hj, hja, hzero⟩ := cut_number hnum (show 3 ≤ 127 by omega) hlt
      have haddr : (BitVec.ofNat 32 j).toNat = j := by
        rw [BitVec.toNat_ofNat, Nat.mod_eq_of_lt (scanned_lt hj)]
      have hne : (w.drop 127).take 63 ≠ [] := by
        rw [ne_eq, List.take_eq_nil_iff, List.drop_eq_nil_iff]
        omega
      dsimp only
      rw [setreg, scanNumber_of_scanned hj]
      dsimp only
      rw [one_write_iff, haddr, hja]
      refine and_congr_right fun h0 => ?_
      have hval : scanned ((w.drop 127).take 63) = some 0 :=
        scanned_zeros hne fun c hc => hzero h0 c (List.mem_of_mem_take hc)
      rw [scanNumber_of_scanned hval, Option.getD_some]
      exact eq_comm

/-! ### The lines -/

/-- A line with the command setreg is carried out as it is meant exactly if its words
are read as they are meant. -/
theorem setregExact_iff (line : List Byte) : SetregExact line ↔
    ∀ p, scriptText line = some p → (words p).head? = some (ascii "setreg") →
      ReadAsMeant (words p) := by
  refine forall₃_congr fun p hp hcmd => ?_
  obtain ⟨args, hw⟩ := List.head?_eq_some_iff.mp hcmd
  rw [setregWrites_eq hp hw, hw]
  have hspace : ∀ w ∈ args, ∀ c ∈ w, isSpace c = false := fun w hmem =>
    not_isSpace_of_mem_words (hw ▸ List.mem_cons_of_mem _ hmem)
  cases args with
  | nil => exact iff_of_true rfl trivial
  | cons w rest =>
    have hsp := hspace w (List.mem_cons_self ..)
    rw [ReadAsMeant]
    by_cases hle : w.length ≤ 127
    · rw [if_pos hle]
      exact meant_whole hsp hle
    · rw [if_neg hle]
      exact meant_cut hsp (by omega)

/-- "setreg 0X10 1" writes to address 0. -/
theorem not_setregExact_upperPrefix : ¬ SetregExact (ascii "setreg 0X10 1\n") := by
  intro h
  have hwords : words (ascii "setreg 0X10 1\n") = [ascii "setreg", ascii "0X10", ascii "1"] := by
    decide
  have hmeant := h (ascii "setreg 0X10 1\n") (by decide) (by rw [hwords]; rfl)
  have hwrites : setregWrites (ascii "setreg 0X10 1\n") = [socWriteReg 0 1] := rfl
  have haddress : addressOf (ascii "0X10") = some 16 := by decide
  have hvalue : numberOf (ascii "1") = some 1 := by decide
  rw [hwords, hwrites] at hmeant
  obtain ⟨addr, val, ⟨haddr, -⟩, heq⟩ : ∃ addr val : BitVec 32,
      (addr.toNat = 16 ∧ val.toNat = 1 % 2 ^ 32) ∧ [socWriteReg 0 1] = [socWriteReg addr val] := by
    simpa [Meant, haddress, hvalue] using hmeant
  obtain ⟨rfl, -⟩ := socWriteReg_inj.mp (List.singleton_inj.mp heq)
  exact absurd haddr (by decide)

end OpenNos.Sdk
