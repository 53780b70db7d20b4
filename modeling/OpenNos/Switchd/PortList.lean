import OpenNos.Lib.Scanf
import OpenNos.Lib.TextLines
import OpenNos.Switchd.PortConfig

/-! Whether the port list is what ports.conf says (`port_config.c`, `tun.c`). The list is
made of the numbers at which `fgets` lets a piece of text begin: of lines that are no
assignments, and of the second piece of a long line too, and as often as they occur. -/

namespace OpenNos.Switchd

open Cstring

/-- A line `N=<mode>`. -/
def AssignsPort (line : List Byte) (n : ℕ) : Prop :=
  ∃ digits mode, line = digits ++ 0x3d :: mode ∧ mode ≠ [] ∧ digits ≠ [] ∧
    (∀ c ∈ digits, isDigit c = true) ∧ digitsVal digits = n

/-- A line of the file assigns a mode to port `n`. -/
def Listed (file : Option (List Byte)) (n : ℕ) : Prop :=
  (0 < n ∧ n ≤ 56) ∧ ∃ content, file = some content ∧ ∃ line ∈ textLines content, AssignsPort line n

/-- The list is that of the file, or the default if the file has none. -/
structure WellFormed (file : Option (List Byte)) (names : List (List Byte)) : Prop where
  distinct : names.Nodup
  listed : (∃ n, Listed file n) → ∀ name ∈ names, ∃ n, Listed file n ∧ name = swpName n
  complete : ∀ n, Listed file n → swpName n ∈ names
  default : (∀ n, ¬ Listed file n) → names = defaultNames

/-- Of the first 56 pieces of the file that start with a port number, no two start with
the same, and each with one that is assigned; or the file assigns none, and the numbers
are those of the default. -/
def StartsAsListed (file : Option (List Byte)) : Prop :=
  ∀ content, file = some content →
    ((listedPorts content).Nodup ∧ ∀ n ∈ listedPorts content, Listed file n) ∨
      ((∀ n, ¬ Listed file n) ∧ listedPorts content = List.range' 1 52)

/-! ### The numbers of a line -/

theorem AssignsPort.unique {line : List Byte} {n m : ℕ} (hn : AssignsPort line n)
    (hm : AssignsPort line m) : n = m := by
  have hrun : ∀ k, AssignsPort line k → digitsVal (line.takeWhile isDigit) = k := by
    rintro k ⟨digits, mode, rfl, -, -, hd, hk⟩
    rw [takeWhile_run hd (by simp; decide), hk]
  rw [← hrun n hn, hrun m hm]

/-- The pieces that start with a port number: whatever stands behind it. -/
theorem lineNumber_eq_some_iff {piece : List Byte} {n : ℕ} : lineNumber piece = some n ↔
    ∃ p : UnsignedParts, p.Valid ∧ p.text = cstr piece ∧ p.intValue = n ∧ 0 < n ∧ n ≤ 56 := by
  have hmax : ((MAX_PORTS : ℕ) : ℤ) = 56 := rfl
  constructor
  · intro h
    have hrange := lineNumber_inRange h
    rw [lineNumber, scanSigned_eq] at h
    cases hscan : scanInt (cstr piece) with
    | none =>
      rw [hscan] at h
      cases h
    | some x =>
      rw [hscan, Option.map_some] at h
      dsimp only at h
      obtain ⟨p, hp, htext, hvalue, -⟩ := scanInt_eq_some_iff.mp hscan
      rw [Option.ite_none_right_eq_some, Option.some.injEq] at h
      exact ⟨p, hp, htext, by omega, hrange⟩
  · rintro ⟨p, hp, htext, hvalue, hrange⟩
    rw [lineNumber, scanSigned_eq, ← htext, hp.scanInt, Option.map_some, hvalue]
    dsimp only
    rw [if_pos (by omega), Int.toNat_natCast]

theorem lineNumber_newline (p : List Byte) : lineNumber (p ++ [0x0a]) = lineNumber p := by
  rw [lineNumber, lineNumber, cstr_newline scanSigned_newline]

/-- Digits at the start of a piece are its number. -/
theorem lineNumber_digits {digits r : List Byte} (hd : ∀ c ∈ digits, isDigit c = true)
    (hne : digits ≠ []) (hr : ∀ c ∈ r.head?, isDigit c = false)
    (hrange : 0 < digitsVal digits ∧ digitsVal digits ≤ 56) :
    lineNumber (digits ++ r) = some (digitsVal digits) := by
  have hcstr : cstr (digits ++ r) = digits ++ cstr r := by
    refine List.takeWhile_append_of_pos fun c hc => ?_
    have := hd c hc
    rw [isDigit, decide_eq_true_eq] at this
    rw [decide_eq_true_eq]
    bv_omega
  have hrest : ∀ c ∈ (cstr r).head?, isDigit c = false := by
    intro c hc
    rw [cstr, List.head?_takeWhile] at hc
    exact hr c (Option.mem_filter_iff.mp hc).1
  have hscan : scanSigned (cstr (digits ++ r)) = some (digitsVal digits : ℤ) := by
    rw [hcstr, scanSigned_eq, scanInt_digits hd hne hrest, Option.map_some,
      Nat.min_eq_left (by omega)]
  have hmax : ((MAX_PORTS : ℕ) : ℤ) = 56 := rfl
  rw [lineNumber, hscan]
  dsimp only
  rw [if_pos (by omega), Int.toNat_natCast]

/-- The numbers the pieces of a line start with. -/
def numbersOf (line : List Byte) : List ℕ := (fgetsLines 128 line []).filterMap lineNumber

theorem listedPorts_eq (content : List Byte) :
    listedPorts content = ((textLines content).flatMap numbersOf).take MAX_PORTS := by
  rw [listedPorts, filterMap_fgetsLines lineNumber_newline rfl]
  rfl

/-- A piece that is digits only, in front of the rest of the line. -/
theorem mem_numbersOf_take {line : List Byte} (hl : 0x0a ∉ line) (hne : line ≠ []) {n : ℕ}
    (h : lineNumber (line.take 127) = some n ∨ n ∈ numbersOf (line.drop 127)) :
    n ∈ numbersOf line := by
  rw [numbersOf, fgetsLines_take hl [] (by decide) hne, List.nil_append]
  rcases h with h | h
  · rw [List.filterMap_cons_some h]
    exact List.mem_cons_self ..
  · cases hp : lineNumber (line.take 127) with
    | none => rwa [List.filterMap_cons_none hp]
    | some m =>
      rw [List.filterMap_cons_some hp]
      exact List.mem_cons_of_mem _ h

theorem digitsVal_take_drop (digits : List Byte) (k : ℕ) : digitsVal digits =
    digitsVal (digits.take k) * 10 ^ (digits.drop k).length + digitsVal (digits.drop k) := by
  conv_lhs => rw [← List.take_append_drop k digits]
  exact positional_append _ _

theorem digitsVal_singleton_lt {c : Byte} (h : isDigit c = true) : digitsVal [c] < 10 := by
  rw [isDigit, decide_eq_true_eq] at h
  rw [digitsVal, List.foldl_cons, List.foldl_nil]
  bv_omega

/-- A number below 100 that is cut behind a digit other than 0 is cut between its two
digits. -/
theorem digitsVal_cut {digits : List Byte} {k : ℕ} (hd : ∀ c ∈ digits, isDigit c = true)
    (hlt : digitsVal digits < 100) (hpos : 0 < digitsVal (digits.take k))
    (hne : digits.drop k ≠ []) :
    10 ≤ digitsVal digits ∧ digitsVal digits / 10 = digitsVal (digits.take k) := by
  have hsplit := digitsVal_take_drop digits k
  have hone : (digits.drop k).length = 1 := by
    have hlen := List.length_pos_of_ne_nil hne
    by_contra hne1
    have hpow : 10 ^ 2 ≤ 10 ^ (digits.drop k).length := Nat.pow_le_pow_right (by omega) (by omega)
    have := Nat.mul_le_mul hpos hpow
    omega
  obtain ⟨c, hc⟩ := List.length_eq_one_iff.mp hone
  have hval : digitsVal (digits.drop k) < 10 := by
    rw [hc]
    exact digitsVal_singleton_lt (hd c (List.mem_of_mem_drop (hc ▸ List.mem_cons_self ..)))
  rw [hone, pow_one] at hsplit
  omega

/-- A line that assigns a mode to a port is read as one of the port, or, if it is cut
between the two digits of the number, of the first of them. -/
theorem mem_numbersOf {digits mode : List Byte} (hl : 0x0a ∉ digits ++ 0x3d :: mode)
    (hne : digits ≠ []) (hd : ∀ c ∈ digits, isDigit c = true)
    (hrange : 0 < digitsVal digits ∧ digitsVal digits ≤ 56) :
    digitsVal digits ∈ numbersOf (digits ++ 0x3d :: mode) ∨
      10 ≤ digitsVal digits ∧ digitsVal digits / 10 ∈ numbersOf (digits ++ 0x3d :: mode) := by
  induction hn : digits.length using Nat.strong_induction_on generalizing digits with
  | _ n ih =>
    have hline : digits ++ 0x3d :: mode ≠ [] := by simp
    by_cases hle : digits.length ≤ 127
    · refine .inl (mem_numbersOf_take hl hline (.inl ?_))
      rw [List.take_append, List.take_of_length_le hle]
      refine lineNumber_digits hd hne (fun c hc => ?_) hrange
      rw [List.head?_take] at hc
      split at hc
      · cases hc
      · rw [← Option.some.inj hc]
        decide
    · have htake : (digits ++ 0x3d :: mode).take 127 = digits.take 127 :=
        List.take_append_of_le_length (by omega)
      have hdrop : (digits ++ 0x3d :: mode).drop 127 = digits.drop 127 ++ 0x3d :: mode :=
        List.drop_append_of_le_length (by omega)
      have htaked : ∀ c ∈ digits.take 127, isDigit c = true :=
        fun c hc => hd c (List.mem_of_mem_take hc)
      have hdropd : ∀ c ∈ digits.drop 127, isDigit c = true :=
        fun c hc => hd c (List.mem_of_mem_drop hc)
      have hdropne : digits.drop 127 ≠ [] := by
        rw [ne_eq, List.drop_eq_nil_iff]
        omega
      rcases Nat.eq_zero_or_pos (digitsVal (digits.take 127)) with hzero | hpos
      · -- zeros only: the number is that of the rest
        have hrest : digitsVal digits = digitsVal (digits.drop 127) := by
          rw [digitsVal_take_drop digits 127, hzero, Nat.zero_mul, Nat.zero_add]
        have hl' : 0x0a ∉ digits.drop 127 ++ 0x3d :: mode := by
          rw [← hdrop]
          exact fun h => hl (List.mem_of_mem_drop h)
        have := ih (digits.drop 127).length (by rw [List.length_drop]; omega) hl' hdropne hdropd
          (by rwa [← hrest]) rfl
        rw [← hrest, ← hdrop] at this
        exact this.imp (fun h => mem_numbersOf_take hl hline (.inr h))
          fun h => ⟨h.1, mem_numbersOf_take hl hline (.inr h.2)⟩
      · -- the number has two digits, and the first is the last of the piece
        obtain ⟨hten, hfirst⟩ := digitsVal_cut hd (by omega) hpos hdropne
        refine .inr ⟨hten, mem_numbersOf_take hl hline (.inl ?_)⟩
        rw [htake, hfirst, ← List.append_nil (digits.take 127),
          lineNumber_digits htaked (by rw [ne_eq, List.take_eq_nil_iff]; tauto) (by simp)
            (by omega), List.append_nil]

theorem Listed.mem_numbersOf {content : List Byte} {n : ℕ} (h : Listed (some content) n) :
    ∃ line ∈ textLines content, AssignsPort line n ∧
      (n ∈ numbersOf line ∨ 10 ≤ n ∧ n / 10 ∈ numbersOf line) := by
  obtain ⟨hrange, content', hcontent, line, hline, hassigns⟩ := h
  obtain rfl := Option.some.inj hcontent
  obtain ⟨digits, mode, rfl, -, hne, hd, rfl⟩ := id hassigns
  exact ⟨_, hline, hassigns,
    Switchd.mem_numbersOf (not_mem_of_mem_textLines hline) hne hd hrange⟩

/-! ### The list -/

theorem swpNames_inj {ns ms : List ℕ} (hn : ∀ n ∈ ns, 0 < n ∧ n ≤ 56)
    (hm : ∀ m ∈ ms, 0 < m ∧ m ≤ 56) (h : ns.map swpName = ms.map swpName) : ns = ms := by
  have hports : ∀ ks : List ℕ, (∀ k ∈ ks, 0 < k ∧ k ≤ 56) →
      (ks.map swpName).map ifnameToPort = ks.map fun k : ℕ => some (k : ℤ) := by
    intro ks hks
    rw [List.map_map]
    exact List.map_congr_left fun k hk => ifnameToPort_swpName (hks k hk)
  have hmap := congrArg (List.map ifnameToPort) h
  rw [hports ns hn, hports ms hm] at hmap
  refine List.map_injective_iff.mpr (fun a b hab => ?_) hmap
  exact_mod_cast Option.some.inj hab

/-- Numbers without repetition that are all assigned leave out none that is. -/
theorem listedPorts_complete {content : List Byte} (hdistinct : (listedPorts content).Nodup)
    (hlisted : ∀ n ∈ listedPorts content, Listed (some content) n) {n : ℕ}
    (hn : Listed (some content) n) : n ∈ listedPorts content := by
  rw [listedPorts_eq] at hdistinct hlisted ⊢
  set all := (textLines content).flatMap numbersOf with hall
  by_cases hlen : all.length ≤ MAX_PORTS
  · rw [List.take_of_length_le hlen] at hdistinct hlisted ⊢
    obtain ⟨line, hline, hassigns, hmem | ⟨hten, hmem⟩⟩ := hn.mem_numbersOf
    · exact List.mem_flatMap.mpr ⟨line, hline, hmem⟩
    · -- the first digit is assigned by another line, and read there as well
      obtain ⟨line', hline', hassigns', hmem' | ⟨hten', -⟩⟩ :=
        (hlisted _ (List.mem_flatMap.mpr ⟨line, hline, hmem⟩)).mem_numbersOf
      · have hne : line ≠ line' := by
          rintro rfl
          have := hassigns.unique hassigns'
          omega
        have : Std.Symm (Function.onFun List.Disjoint numbersOf) := ⟨fun _ _ h => h.symm⟩
        have hdisjoint := (List.nodup_flatMap.mp hdistinct).2.forall hline hline' hne
        exact absurd hmem' (List.disjoint_left.mp hdisjoint hmem)
      · have := hn.1
        omega
  · -- the list is full, with every port once
    have hsub : all.take MAX_PORTS ⊆ List.range' 1 56 := by
      intro m hm
      have := (hlisted m hm).1
      rw [List.mem_range'_1]
      omega
    have hperm : (all.take MAX_PORTS).Perm (List.range' 1 56) := by
      refine (List.subperm_of_subset hdistinct hsub).perm_of_length_le ?_
      rw [List.length_range', List.length_take_of_le (by omega)]
      decide
    have := hn.1
    rw [hperm.mem_iff, List.mem_range'_1]
    omega

theorem mem_listedPorts_of_listed {content : List Byte} {n : ℕ} (h : Listed (some content) n) :
    listedPorts content ≠ [] := by
  obtain ⟨line, hline, -, hmem⟩ := h.mem_numbersOf
  obtain ⟨m, hm⟩ : ∃ m, m ∈ numbersOf line := by
    rcases hmem with hmem | ⟨-, hmem⟩
    · exact ⟨_, hmem⟩
    · exact ⟨_, hmem⟩
  have hall : m ∈ (textLines content).flatMap numbersOf := List.mem_flatMap.mpr ⟨line, hline, hm⟩
  rw [listedPorts_eq, ne_eq, List.take_eq_nil_iff, not_or]
  exact ⟨by decide, List.ne_nil_of_mem hall⟩

theorem defaultNames_eq : defaultNames = (List.range' 1 52).map swpName := portConfigLoad_eq none

theorem defaultNames_nodup : defaultNames.Nodup := by
  rw [defaultNames_eq]
  have hnodup : (List.range' 1 52).Nodup := List.nodup_range'
  refine hnodup.map_on fun n hn m hm => ?_
  rw [List.mem_range'_1] at hn hm
  exact swpName_inj (by omega) (by omega)

/-- The port list is well formed exactly if the pieces of the file start with the numbers
that are assigned, each once, or stand for the default. -/
theorem portConfigLoad_wellFormed_iff (file : Option (List Byte)) :
    WellFormed file (portConfigLoad file) ↔ StartsAsListed file := by
  cases file with
  | none =>
    refine iff_of_true ⟨defaultNames_nodup, ?_, ?_, fun _ => rfl⟩ fun content h => nomatch h
    · rintro ⟨n, -, content, h, -⟩
      cases h
    · rintro n ⟨-, content, h, -⟩
      cases h
  | some content =>
    have hinj : ∀ n ∈ portNumbers (some content), ∀ m ∈ portNumbers (some content),
        swpName n = swpName m → n = m := fun n hn m hm h =>
      swpName_inj (portNumbers_inRange _ n hn) (portNumbers_inRange _ m hm) h
    rw [portConfigLoad_eq, StartsAsListed]
    simp only [Option.some.injEq, forall_eq']
    by_cases hnil : listedPorts content = []
    · have hnone : ∀ n, ¬ Listed (some content) n := fun n h => mem_listedPorts_of_listed h hnil
      have hnumbers : portNumbers (some content) = List.range' 1 52 := if_pos hnil
      rw [hnumbers, hnil, ← defaultNames_eq]
      exact iff_of_true ⟨defaultNames_nodup, fun ⟨n, h⟩ => absurd h (hnone n),
        fun n h => absurd h (hnone n), fun _ => rfl⟩
        (.inl ⟨List.nodup_nil, fun n h => absurd h List.not_mem_nil⟩)
    · have hnumbers : portNumbers (some content) = listedPorts content := if_neg hnil
      rw [hnumbers] at hinj ⊢
      constructor
      · intro h
        have hdistinct := h.distinct.of_map
        by_cases hsome : ∃ n, Listed (some content) n
        · refine .inl ⟨hdistinct, fun n hn => ?_⟩
          obtain ⟨m, hm, hname⟩ := h.listed hsome _ (List.mem_map_of_mem hn)
          have hrange : 0 < n ∧ n ≤ 56 := portNumbers_inRange (some content) n (by rwa [hnumbers])
          rwa [swpName_inj hrange hm.1 hname]
        · have hnone : ∀ n, ¬ Listed (some content) n := fun n hn => hsome ⟨n, hn⟩
          refine .inr ⟨hnone, ?_⟩
          refine swpNames_inj (fun n hn => ?_) (fun n hn => ?_)
            ((h.default hnone).trans defaultNames_eq)
          · exact portNumbers_inRange (some content) n (by rwa [hnumbers])
          · rw [List.mem_range'_1] at hn
            omega
      · rintro (⟨hdistinct, hlisted⟩ | ⟨hnone, heq⟩)
        · refine ⟨hdistinct.map_on hinj, fun _ name hname => ?_, fun n hn => ?_, fun hnone => ?_⟩
          · obtain ⟨n, hn, rfl⟩ := List.mem_map.mp hname
            exact ⟨n, hlisted n hn, rfl⟩
          · exact List.mem_map_of_mem (listedPorts_complete hdistinct hlisted hn)
          · obtain ⟨n, hn⟩ := List.exists_mem_of_ne_nil _ hnil
            exact absurd (hlisted n hn) (hnone n)
        · rw [heq, ← defaultNames_eq]
          exact ⟨defaultNames_nodup, fun ⟨n, h⟩ => absurd h (hnone n),
            fun n h => absurd h (hnone n), fun _ => rfl⟩

/-- "1=10G" and "1=40G". -/
def portTwice : List Byte :=
  [0x31, 0x3d, 0x31, 0x30, 0x47, 0x0a, 0x31, 0x3d, 0x34, 0x30, 0x47, 0x0a]

/-- A port with two lines is listed twice. -/
theorem not_portConfigLoad_wellFormed : ¬ ∀ file, WellFormed file (portConfigLoad file) := by
  intro h
  have hnames : portConfigLoad (some portTwice) = [swpName 1, swpName 1] := by decide
  have hdistinct := (h (some portTwice)).distinct
  rw [hnames] at hdistinct
  exact absurd hdistinct (by decide)

end OpenNos.Switchd
