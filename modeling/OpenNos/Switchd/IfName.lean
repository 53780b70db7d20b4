import OpenNos.Lib.Scanf
import OpenNos.Switchd.Netlink

/-! The names `ifname_to_port` takes for a switch port. It reads the number behind
"swp" with `%u`, which passes over white space, takes a sign, leading zeros and a
number that is negated to a small one, and stops at the first other character; so
besides swp1 to swp56 it accepts names of other interfaces, swp1.100 among them, and
`handle_link` takes a message about such an interface for one about the port. -/

namespace OpenNos.Switchd

open Cstring

/-- "swp" -/
def SWP : List Byte := [0x73, 0x77, 0x70]

/-- The name of a port: "swp" and its number in decimal. -/
def PortName (name : List Byte) (n : ℤ) : Prop :=
  (1 ≤ n ∧ n ≤ 56) ∧ name = SWP ++ decimal n.toNat

/-- The name in a link message. -/
def linkName (m : Nlmsg Ifinfomsg) : Option (List Byte) :=
  (m.tb IFLA_IFNAME).map fun a => cstr a.data

/-- The message sets a port up or down, or maps an interface to one. -/
def TouchesPort (s : NetState) (del : Bool) (m : Nlmsg Ifinfomsg) : Prop :=
  (handleLink s del m).2 ≠ [] ∨
    ∃ i, (handleLink s del m).1.ifindexToPort i ≠ s.ifindexToPort i ∧
      (handleLink s del m).1.ifindexToPort i ≠ -1

/-- The name is parsed exactly, and a message about another interface touches no
port. -/
structure ParsedExactly (name : List Byte) : Prop where
  exact : ∀ n, ifnameToPort name = some n ↔ PortName name n
  confined : ∀ s del m, linkName m = some name → TouchesPort s del m → ∃ n, PortName name n

/-- If "swp" is followed by parts that `%u` reads as a number of a port, those are
digits alone, without a leading 0. -/
def PlainlyNumbered (name : List Byte) : Prop :=
  ∀ p : UnsignedParts, p.Valid → name = SWP ++ p.text → 1 ≤ p.value ∧ p.value ≤ 56 → p.Plain

variable {name : List Byte} {n : ℤ}

/-! ### Decimal numbers -/

theorem digitsVal_append (l : List Byte) (c : Byte) :
    digitsVal (l ++ [c]) = 10 * digitsVal l + (c - 0x30).toNat :=
  positional_concat l c

theorem le_digitsVal_of_head {c : Byte} (hc : isDigit c = true) (h0 : c ≠ 0x30) (l : List Byte) :
    10 ^ l.length ≤ digitsVal (c :: l) := by
  induction l using List.reverseRecOn with
  | nil =>
    simp only [isDigit, decide_eq_true_eq] at hc
    simp [digitsVal]
    bv_omega
  | append_singleton l d ih =>
    rw [← List.cons_append, digitsVal_append, List.length_append, List.length_singleton, pow_succ]
    omega

/-- One decimal digit. -/
theorem digit_spec {d : ℕ} (hd : d < 10) :
    isDigit (BitVec.ofNat 8 (0x30 + d)) = true ∧
      (BitVec.ofNat 8 (0x30 + d) - 0x30).toNat = d ∧
      (BitVec.ofNat 8 (0x30 + d) = 0x30 → d = 0) := by
  simp only [isDigit, decide_eq_true_eq]
  bv_omega

theorem decimal_of_lt {d : ℕ} (h : d < 10) : decimal d = [BitVec.ofNat 8 (0x30 + d)] := if_pos h

theorem decimal_of_le {d : ℕ} (h : 10 ≤ d) :
    decimal d = [BitVec.ofNat 8 (0x30 + d / 10)] ++ [BitVec.ofNat 8 (0x30 + d % 10)] :=
  if_neg (by omega)

theorem decimal_spec {n : ℕ} (h : n < 100) :
    (∀ c ∈ decimal n, isDigit c = true) ∧ decimal n ≠ [] ∧ digitsVal (decimal n) = n ∧
      ((decimal n).head? = some 0x30 → n = 0) := by
  by_cases hn : n < 10
  · obtain ⟨hdig, hval, hzero⟩ := digit_spec hn
    rw [decimal_of_lt hn]
    refine ⟨by simpa using hdig, by simp, ?_, fun h0 => hzero (by simpa using h0)⟩
    simpa [digitsVal] using hval
  · obtain ⟨hdig, hval, hzero⟩ := digit_spec (show n / 10 < 10 by omega)
    obtain ⟨hdig', hval', -⟩ := digit_spec (show n % 10 < 10 by omega)
    rw [decimal_of_le (by omega)]
    refine ⟨by simpa using ⟨hdig, hdig'⟩, by simp, ?_, fun h0 => ?_⟩
    · rw [digitsVal_append, hval']
      simp only [digitsVal, List.foldl_cons, List.foldl_nil, hval]
      omega
    · have := hzero (by simpa using h0)
      omega

/-- The decimal form of a number is the one without leading zeros. -/
theorem eq_decimal {digits : List Byte} (hd : ∀ c ∈ digits, isDigit c = true)
    (hne : digits ≠ []) (h0 : digits.head? ≠ some 0x30) (h : digitsVal digits < 100) :
    digits = decimal (digitsVal digits) := by
  have hdigit : ∀ c : Byte, isDigit c = true → c = BitVec.ofNat 8 (0x30 + (c - 0x30).toNat) ∧
      (c - 0x30).toNat < 10 := by
    intro c hc
    simp only [isDigit, decide_eq_true_eq] at hc
    bv_omega
  obtain ⟨c, l, rfl⟩ := List.exists_cons_of_ne_nil hne
  obtain ⟨hc, hlt⟩ := hdigit c (hd c (by simp))
  have hc0 : c ≠ 0x30 := fun hc => h0 (by rw [hc]; rfl)
  rcases l with _ | ⟨d, _ | ⟨e, l⟩⟩
  · have hval : digitsVal [c] = (c - 0x30).toNat := by simp [digitsVal]
    rw [hval, decimal_of_lt hlt, ← hc]
  · obtain ⟨hd', hlt'⟩ := hdigit d (hd d (by simp))
    have hval : digitsVal [c, d] = 10 * (c - 0x30).toNat + (d - 0x30).toNat := by
      simp [digitsVal]
    have hpos : (c - 0x30).toNat ≠ 0 := fun hz => hc0 (by rw [hc, hz]; rfl)
    have htens : (10 * (c - 0x30).toNat + (d - 0x30).toNat) / 10 = (c - 0x30).toNat := by omega
    have hones : (10 * (c - 0x30).toNat + (d - 0x30).toNat) % 10 = (d - 0x30).toNat := by omega
    rw [hval, decimal_of_le (by omega), htens, hones, ← hc, ← hd']
    rfl
  · have hlarge := le_digitsVal_of_head (hd c (by simp)) hc0 (d :: e :: l)
    have hpow : 10 ^ 2 ≤ 10 ^ (d :: e :: l).length :=
      Nat.pow_le_pow_right (by omega) (by simp)
    omega

/-- The decimal form of a number, as `%u` reads it. -/
def decimalParts (n : ℕ) : UnsignedParts where
  space := []
  sign := []
  digits := decimal n
  rest := []

theorem decimalParts_text (n : ℕ) : (decimalParts n).text = decimal n := List.append_nil _

theorem decimalParts_valid {n : ℕ} (h : n < 100) : (decimalParts n).Valid where
  space := by simp [decimalParts]
  sign := .inl rfl
  digits := (decimal_spec h).1
  digits_ne := (decimal_spec h).2.1
  rest := by simp [decimalParts]

theorem decimalParts_value {n : ℕ} (h : n < 100) : (decimalParts n).value = n := by
  have hsign : ¬ ((decimalParts n).sign = [0x2d] ∧ digitsVal (decimalParts n).digits < 2 ^ 32) := by
    simp [decimalParts]
  have hval : digitsVal (decimalParts n).digits = n := (decimal_spec h).2.2.1
  rw [UnsignedParts.value, if_neg hsign, hval]
  omega

theorem decimalParts_plain {n : ℕ} (h0 : n ≠ 0) (h : n < 100) : (decimalParts n).Plain :=
  ⟨rfl, rfl, rfl, fun hz => h0 ((decimal_spec h).2.2.2 hz)⟩

/-- Plain parts are the decimal form of their number. -/
theorem eq_decimal_of_plain {p : UnsignedParts} (hp : p.Valid) (hplain : p.Plain)
    (h : p.value < 100) : p.text = decimal p.value := by
  obtain ⟨hspace, hsign, hrest, h0⟩ := hplain
  have hval : p.value = digitsVal p.digits := by
    rw [UnsignedParts.value, hsign] at h ⊢
    rw [if_neg (by simp)] at h ⊢
    omega
  rw [UnsignedParts.text, hspace, hsign, hrest, List.append_nil, List.nil_append, List.nil_append,
    hval]
  exact eq_decimal hp.digits hp.digits_ne h0 (by omega)

/-! ### The names accepted -/

/-- The function accepts the names whose text after "swp" has the parts of a number
of a port. -/
theorem ifnameToPort_eq_some_iff : ifnameToPort name = some n ↔
    ∃ p : UnsignedParts, p.Valid ∧ name = SWP ++ p.text ∧ (1 ≤ p.value ∧ p.value ≤ 56) ∧
      n = p.value := by
  have hword : ∀ v : ℕ, v < 2 ^ 32 → (BitVec.ofNat 32 v = 0 ↔ v = 0) := by
    intro v hv
    bv_omega
  constructor
  · intro h
    rw [ifnameToPort] at h
    split at h
    · cases h
    · rename_i hswp
      cases hs : scanUnsigned (name.drop 3) with
      | none =>
        rw [hs] at h
        cases h
      | some v =>
        obtain ⟨p, hp, htext⟩ := exists_parts_of_scanUnsigned hs
        have hv : v = BitVec.ofNat 32 p.value := by
          rw [← htext, hp.scanUnsigned] at hs
          exact (Option.some.inj hs).symm
        have hlt := p.value_lt
        have htn : v.toNat = p.value := by rw [hv, BitVec.toNat_ofNat, Nat.mod_eq_of_lt hlt]
        rw [hs] at h
        dsimp only at h
        split at h
        · cases h
        · rename_i hrange
          rw [htn, hv, hword _ hlt] at hrange
          refine ⟨p, hp, ?_, by omega, ?_⟩
          · rw [htext, SWP, ← not_not.mp hswp, List.take_append_drop]
          · rw [← htn]
            exact (Option.some.inj h).symm
  · rintro ⟨p, hp, rfl, hrange, rfl⟩
    have hlt := p.value_lt
    have hne : ¬ (BitVec.ofNat 32 p.value = 0 ∨ 56 < (BitVec.ofNat 32 p.value).toNat) := by
      rw [hword _ hlt, BitVec.toNat_ofNat, Nat.mod_eq_of_lt hlt]
      omega
    have htake : (SWP ++ p.text).take 3 = [0x73, 0x77, 0x70] := rfl
    have hdrop : (SWP ++ p.text).drop 3 = p.text := rfl
    rw [ifnameToPort, if_neg (not_not.mpr htake), hdrop, hp.scanUnsigned]
    dsimp only
    rw [if_neg hne, BitVec.toNat_ofNat, Nat.mod_eq_of_lt hlt]

/-- The names of ports are accepted, as their port. -/
theorem ifnameToPort_of_portName (h : PortName name n) : ifnameToPort name = some n := by
  obtain ⟨hrange, rfl⟩ := h
  have hlt : n.toNat < 100 := by omega
  refine ifnameToPort_eq_some_iff.mpr ⟨decimalParts n.toNat, decimalParts_valid hlt, ?_, ?_, ?_⟩
  · rw [decimalParts_text]
  · rw [decimalParts_value hlt]
    omega
  · rw [decimalParts_value hlt]
    omega

theorem PlainlyNumbered.portName (h : PlainlyNumbered name) (hn : ifnameToPort name = some n) :
    PortName name n := by
  obtain ⟨p, hp, hname, hrange, rfl⟩ := ifnameToPort_eq_some_iff.mp hn
  refine ⟨by omega, ?_⟩
  rw [Int.toNat_natCast, hname, eq_decimal_of_plain hp (h p hp hname hrange) (by omega)]

theorem plainlyNumbered_of_exact (h : ∀ n, ifnameToPort name = some n → PortName name n) :
    PlainlyNumbered name := by
  intro p hp hname hrange
  obtain ⟨-, hdec⟩ := h p.value (ifnameToPort_eq_some_iff.mpr ⟨p, hp, hname, hrange, rfl⟩)
  have htext : p.text = (decimalParts p.value).text := by
    rw [decimalParts_text]
    exact List.append_cancel_left (hname.symm.trans hdec)
  rw [hp.unique (decimalParts_valid (by omega)) htext]
  exact decimalParts_plain (by omega) (by omega)

/-- A message that touches a port has a name the function accepts. -/
theorem TouchesPort.accepted {s : NetState} {del : Bool} {m : Nlmsg Ifinfomsg}
    (hname : linkName m = some name) (h : TouchesPort s del m) :
    ∃ n, ifnameToPort name = some n := by
  obtain ⟨a, ha, hcstr⟩ := Option.map_eq_some_iff.mp hname
  by_contra hno
  have hnone : ifnameToPort name = none := Option.eq_none_iff_forall_ne_some.mpr (not_exists.mp hno)
  have hlink : (handleLink s del m).2 = [] ∧ ∀ i,
      (handleLink s del m).1.ifindexToPort i = s.ifindexToPort i ∨
        (handleLink s del m).1.ifindexToPort i = -1 := by
    simp only [handleLink, ha, hcstr, hnone]
    split
    · exact ⟨rfl, fun i => .inl rfl⟩
    · split
      · refine ⟨rfl, fun i => ?_⟩
        split
        · simp only [Function.update_apply]
          split <;> simp
        · exact .inl rfl
      · exact ⟨rfl, fun i => .inl rfl⟩
  rcases h with h | ⟨i, hne, hset⟩
  · exact h hlink.1
  · rcases hlink.2 i with hi | hi
    · exact hne hi
    · exact hset hi

/-- A name is parsed exactly if and only if, where it numbers a port at all, it does
so with the digits alone. -/
theorem parsedExactly_iff (name : List Byte) : ParsedExactly name ↔ PlainlyNumbered name := by
  constructor
  · intro h
    exact plainlyNumbered_of_exact fun n => (h.exact n).mp
  · intro h
    refine ⟨fun n => ⟨h.portName, ifnameToPort_of_portName⟩, fun s del m hname htouch => ?_⟩
    obtain ⟨n, hn⟩ := htouch.accepted hname
    exact ⟨n, h.portName hn⟩

/-- "swp1.100" is taken for swp1. -/
theorem not_parsedExactly_subinterface :
    ¬ ParsedExactly [0x73, 0x77, 0x70, 0x31, 0x2e, 0x31, 0x30, 0x30] := by
  intro h
  obtain ⟨-, hname⟩ := (h.exact 1).mp (by decide)
  revert hname
  decide

end OpenNos.Switchd
