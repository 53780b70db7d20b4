import Mathlib.Data.List.DropRight
import OpenNos.Lib.LastWrite
import OpenNos.Lib.Scanf
import OpenNos.Lib.TextLines
import OpenNos.Sdk.SocScript

/-! The port map of config.bcm (`config.c`). A line `portmap_<n>=<lane>:<speed>`, or with
`.0` behind the number, gives a port its lane and speed; the last line for a port decides.
The code removes blanks only at the end of a line, and takes what `sscanf` takes. -/

namespace OpenNos.Sdk

open Cstring LastWrite

def MAX_PORTMAP : ℕ := 56

def CONFIG_PATH_MAX : ℕ := 256

structure PortmapEntry where
  lane : ℤ
  speed : ℤ
  deriving DecidableEq

structure Config where
  portmap : ℕ → PortmapEntry
  portmapCount : ℕ

/-- The zeros of the start. -/
def Config.zero : Config := ⟨fun _ => ⟨0, 0⟩, 0⟩

def Config.set (c : Config) (n : ℕ) (e : PortmapEntry) : Config where
  portmap := Function.update c.portmap n e
  portmapCount := if n ≥ c.portmapCount then n + 1 else c.portmapCount

def getPortmap (c : Config) (portId : ℤ) : Option PortmapEntry :=
  if portId < 0 ∨ portId ≥ c.portmapCount then none else some (c.portmap portId.toNat)

def getPortCount (c : Config) : ℕ := c.portmapCount

/-- `sscanf(line, "portmap_%d<sep>%d:%d", &n, &lane, &speed) == 3` and the numbers. -/
def scanPortmap (sep line : List Byte) : Option (ℤ × ℤ × ℤ) := do
  let s ← scanLiteral (ascii "portmap_") line
  let (n, s) ← scanInt s
  let s ← scanLiteral sep s
  let (lane, s) ← scanInt s
  let s ← scanLiteral (ascii ":") s
  let (speed, _) ← scanInt s
  return (n, lane, speed)

def parsePortmapLine (c : Config) (line : List Byte) : Config × ℤ :=
  match (scanPortmap (ascii ".0=") line).or (scanPortmap (ascii "=") line) with
  | some (n, lane, speed) =>
    (if 0 ≤ n ∧ n < MAX_PORTMAP then c.set n.toNat ⟨lane, speed⟩ else c, 0)
  | none => (c, -1)

def isBlank (c : Byte) : Bool := c = 0x20 ∨ c = 0x09

def isEnd (c : Byte) : Bool := c = 0x20 ∨ c = 0x09 ∨ c = 0x0a ∨ c = 0x0d

/-- `trim`: the caller keeps its pointer, and with it the blanks at the start. -/
def trim (s : List Byte) : List Byte :=
  s.takeWhile isBlank ++ (s.dropWhile isBlank).rdropWhile isEnd

/-- A turn of the loop. -/
def configLine (c : Config) (line : List Byte) : Config :=
  let line := trim (cstr line)
  if line = [] ∨ line.head? = some 0x23 then c else (parsePortmapLine c line).1

/-- The file that a path means. -/
def configFile (path : List Byte) : List Byte :=
  (if ascii ".bcm" <:+: path then path
    else path ++ (if path.getLast? = some 0x2f then [] else ascii "/") ++ ascii "config.bcm").take
      (CONFIG_PATH_MAX - 1)

def configLoad (files : List Byte → Option (List Byte)) (path : Option (List Byte)) :
    Config × ℤ :=
  match path with
  | none => (Config.zero, -1)
  | some path =>
    match files (configFile path) with
    | none => (Config.zero, -1)
    | some content => ((fgetsLines 256 content []).foldl configLine Config.zero, 0)

/-! ### What a line means -/

/-- Digits, and their value. -/
def IsNumeral (digits : List Byte) (v : ℤ) : Prop :=
  (digits ≠ [] ∧ ∀ c ∈ digits, isDigit c = true) ∧ v = digitsVal digits

/-- Without the blanks at both ends the line is `portmap_<n>=<lane>:<speed>` or
`portmap_<n>.0=<lane>:<speed>`, with `n` at most 55. -/
def MeansPort (line : List Byte) (n : ℕ) (e : PortmapEntry) : Prop :=
  n < MAX_PORTMAP ∧ ∃ port lane speed sep,
    (IsNumeral port n ∧ IsNumeral lane e.lane ∧ IsNumeral speed e.speed) ∧
    (sep = ascii ".0=" ∨ sep = ascii "=") ∧
    (line.dropWhile isBlank).rdropWhile isEnd =
      ascii "portmap_" ++ (port ++ (sep ++ (lane ++ (ascii ":" ++ speed))))

/-- The map is what the lines mean: each port has the lane and the speed of its last line,
the count is one more than the largest port, and nothing else has an effect. -/
structure LoadedAsMeant (lines : List (List Byte)) (c : Config) : Prop where
  last : ∀ n e, Last MeansPort lines n e → getPortmap c n = some e
  count : IsBound MeansPort lines (getPortCount c)
  others : ∀ n, Untouched MeansPort lines n → c.portmap n = ⟨0, 0⟩

/-! ### What the code accepts -/

/-- The line up to a NUL, without blanks at its end, is "portmap_", a number, "=" or ".0=",
a number, ":" and a number, with anything behind it; a number is one of `%d`. -/
def AcceptsPort (line : List Byte) (n : ℕ) (e : PortmapEntry) : Prop :=
  n < MAX_PORTMAP ∧ ∃ p q r : UnsignedParts, (p.Valid ∧ q.Valid ∧ r.Valid) ∧
    (cstr line).rdropWhile isEnd = ascii "portmap_" ++ p.text ∧
    (p.rest = ascii ".0=" ++ q.text ∨ p.rest = ascii "=" ++ q.text) ∧
    q.rest = ascii ":" ++ r.text ∧
    p.intValue = n ∧ q.intValue = e.lane ∧ r.intValue = e.speed

/-- The lines the code accepts give every port the lane and the speed that the lines give
it which mean one, and the same largest port. -/
structure AcceptedAsMeant (lines : List (List Byte)) : Prop where
  table : ∀ n e, Holds AcceptsPort Config.zero.portmap lines n e ↔
    Holds MeansPort Config.zero.portmap lines n e
  count : ∀ k, IsBound AcceptsPort lines k ↔ IsBound MeansPort lines k

/-! ### Texts -/

theorem scanPortmap_eq_some_iff {sep line : List Byte} {n lane speed : ℤ} :
    scanPortmap sep line = some (n, lane, speed) ↔
      ∃ p q r : UnsignedParts, (p.Valid ∧ q.Valid ∧ r.Valid) ∧
        line = ascii "portmap_" ++ p.text ∧ p.rest = sep ++ q.text ∧
        q.rest = ascii ":" ++ r.text ∧
        p.intValue = n ∧ q.intValue = lane ∧ r.intValue = speed := by
  simp only [scanPortmap, Option.bind_eq_bind, Option.bind_eq_some_iff, scanLiteral_eq_some_iff,
    Prod.exists, scanInt_eq_some_iff, Option.pure_def, Option.some.injEq, Prod.mk.injEq]
  constructor
  · rintro ⟨s, hline, n', s', ⟨p, hp, rfl, rfl, rfl⟩, s'', hsep, lane', t, ⟨q, hq, rfl, rfl, rfl⟩,
      t', hcolon, speed', u, ⟨r, hr, rfl, rfl, rfl⟩, rfl, rfl, rfl⟩
    exact ⟨p, q, r, ⟨hp, hq, hr⟩, hline, hsep, hcolon, rfl, rfl, rfl⟩
  · rintro ⟨p, q, r, ⟨hp, hq, hr⟩, hline, hsep, hcolon, rfl, rfl, rfl⟩
    exact ⟨_, hline, _, _, ⟨p, hp, rfl, rfl, rfl⟩, _, hsep, _, _, ⟨q, hq, rfl, rfl, rfl⟩,
      _, hcolon, _, _, ⟨r, hr, rfl, rfl, rfl⟩, rfl, rfl, rfl⟩

/-- A text that begins with a letter keeps its beginning. -/
theorem trim_eq_iff {s t : List Byte} : trim s = ascii "portmap_" ++ t ↔
    s.rdropWhile isEnd = ascii "portmap_" ++ t := by
  have hp : ascii "portmap_" = 0x70 :: ascii "ortmap_" := rfl
  have hsplit := List.takeWhile_append_dropWhile (p := isBlank) (l := s)
  constructor
  · intro h
    cases hblank : s.takeWhile isBlank with
    | nil =>
      rw [hblank, List.nil_append] at hsplit
      rwa [trim, hblank, List.nil_append, hsplit] at h
    | cons b l =>
      have hb : isBlank b = true := List.mem_takeWhile_imp (hblank ▸ List.mem_cons_self ..)
      rw [trim, hblank, hp, List.cons_append, List.cons_append, List.cons.injEq] at h
      rw [h.1] at hb
      exact absurd hb (by decide)
  · intro h
    obtain ⟨r, hr⟩ := List.rdropWhile_prefix isEnd (l := s)
    have hs : s = 0x70 :: (ascii "ortmap_" ++ t ++ r) := by
      rw [← hr, h, hp]
      simp
    rw [trim, ← h]
    rw [hs, List.takeWhile_cons_of_neg (by decide), List.dropWhile_cons_of_neg (by decide)]
    rfl

theorem trim_newline (s : List Byte) : trim (s ++ [0x0a]) = trim s := by
  rw [trim, trim]
  by_cases h : ∀ c ∈ s, isBlank c = true
  · rw [List.takeWhile_append_of_pos h, List.dropWhile_append_of_pos h,
      List.takeWhile_eq_self_iff.mpr h, List.dropWhile_eq_nil_iff.mpr h]
    rw [List.append_assoc]
    rfl
  · have hne : s.dropWhile isBlank ≠ [] := fun hnil => h (List.dropWhile_eq_nil_iff.mp hnil)
    have htake : (s ++ [0x0a]).takeWhile isBlank = s.takeWhile isBlank := by
      rw [List.takeWhile_append, if_neg]
      intro hlen
      have hs := (List.takeWhile_prefix isBlank).eq_of_length hlen
      exact h (List.takeWhile_eq_self_iff.mp hs)
    rw [htake, List.dropWhile_append, if_neg (by simpa using hne),
      List.rdropWhile_concat_pos _ _ _ (by decide)]

/-! ### What a turn of the loop does -/

/-- The port that a line gives a lane and a speed. -/
def readPort (line : List Byte) : Option (ℕ × PortmapEntry) :=
  match (scanPortmap (ascii ".0=") (trim (cstr line))).or
      (scanPortmap (ascii "=") (trim (cstr line))) with
  | some (n, lane, speed) =>
    if 0 ≤ n ∧ n < MAX_PORTMAP then some (n.toNat, ⟨lane, speed⟩) else none
  | none => none

theorem scanPortmap_eq_none {sep line : List Byte}
    (h : line = [] ∨ line.head? = some 0x23) : scanPortmap sep line = none := by
  have hlit : scanLiteral (ascii "portmap_") line = none := by
    by_contra hne
    obtain ⟨r, hr⟩ := Option.ne_none_iff_exists'.mp hne
    rw [scanLiteral_eq_some_iff] at hr
    subst hr
    rcases h with h | h
    · cases h
    · exact absurd (Option.some.inj h) (by decide)
  rw [scanPortmap, hlit]
  rfl

/-- Comments and empty lines need no test of their own. -/
theorem configLine_eq (c : Config) (line : List Byte) :
    configLine c line = match readPort line with
      | some (n, e) => c.set n e
      | none => c := by
  rw [configLine, readPort]
  split
  · rename_i h
    rw [scanPortmap_eq_none h, scanPortmap_eq_none h]
    rfl
  · rw [parsePortmapLine]
    cases (scanPortmap (ascii ".0=") (trim (cstr line))).or
        (scanPortmap (ascii "=") (trim (cstr line))) with
    | none => rfl
    | some x =>
      dsimp only
      split <;> rfl

theorem readPort_newline (p : List Byte) : readPort (p ++ [0x0a]) = readPort p := by
  rw [readPort, readPort, cstr_newline trim_newline]

/-- The two forms exclude each other. -/
theorem separators_exclusive {p p' : UnsignedParts} (hp : p.Valid) (hp' : p'.Valid)
    (h : p.text = p'.text) {q q' : List Byte} (hrest : p.rest = ascii ".0=" ++ q)
    (hrest' : p'.rest = ascii "=" ++ q') : False := by
  rw [hp.unique hp' h, hrest'] at hrest
  exact absurd (List.cons.inj hrest).1 (by decide)

/-- The code reads the lines of its grammar. -/
theorem readPort_eq_some_iff {line : List Byte} {n : ℕ} {e : PortmapEntry} :
    readPort line = some (n, e) ↔ AcceptsPort line n e := by
  rw [readPort, AcceptsPort]
  constructor
  · intro h
    cases hscan : (scanPortmap (ascii ".0=") (trim (cstr line))).or
        (scanPortmap (ascii "=") (trim (cstr line))) with
    | none =>
      rw [hscan] at h
      cases h
    | some x =>
      obtain ⟨n', lane, speed⟩ := x
      simp only [hscan, Option.ite_none_right_eq_some, Option.some.injEq, Prod.mk.injEq] at h
      obtain ⟨hrange, rfl, rfl⟩ := h
      refine ⟨by omega, ?_⟩
      rcases Option.or_eq_some_iff.mp hscan with hdot | ⟨-, hplain⟩
      · obtain ⟨p, q, r, hvalid, hline, hsep, hrest⟩ := scanPortmap_eq_some_iff.mp hdot
        exact ⟨p, q, r, hvalid, trim_eq_iff.mp hline, .inl hsep, hrest.1, by omega, hrest.2.2⟩
      · obtain ⟨p, q, r, hvalid, hline, hsep, hrest⟩ := scanPortmap_eq_some_iff.mp hplain
        exact ⟨p, q, r, hvalid, trim_eq_iff.mp hline, .inr hsep, hrest.1, by omega, hrest.2.2⟩
  · rintro ⟨hn, p, q, r, hvalid, hline, hsep, hcolon, hport, hlane, hspeed⟩
    rw [← trim_eq_iff] at hline
    have hscan : (scanPortmap (ascii ".0=") (trim (cstr line))).or
        (scanPortmap (ascii "=") (trim (cstr line))) = some ((n : ℤ), e.lane, e.speed) := by
      rcases hsep with hdot | hplain
      · rw [scanPortmap_eq_some_iff.mpr
          ⟨p, q, r, hvalid, hline, hdot, hcolon, hport, hlane, hspeed⟩]
        rfl
      · have hnone : scanPortmap (ascii ".0=") (trim (cstr line)) = none := by
          by_contra hne
          obtain ⟨⟨n', lane, speed⟩, hx⟩ := Option.ne_none_iff_exists'.mp hne
          obtain ⟨p', q', r', hvalid', hline', hdot, -⟩ := scanPortmap_eq_some_iff.mp hx
          exact separators_exclusive hvalid'.1 hvalid.1
            (List.append_cancel_left (hline'.symm.trans hline)) hdot hplain
        rw [hnone, Option.none_or]
        exact scanPortmap_eq_some_iff.mpr
          ⟨p, q, r, hvalid, hline, hplain, hcolon, hport, hlane, hspeed⟩
    rw [hscan]
    dsimp only
    rw [if_pos ⟨Int.natCast_nonneg n, by exact_mod_cast hn⟩, Int.toNat_natCast]

theorem AcceptsPort.unique {line : List Byte} {n n' : ℕ} {e e' : PortmapEntry}
    (h : AcceptsPort line n e) (h' : AcceptsPort line n' e') : n = n' ∧ e = e' := by
  rw [← readPort_eq_some_iff] at h h'
  rw [h] at h'
  exact Prod.mk.inj (Option.some.inj h')

/-! ### What a line means is unique -/

/-- Digits in front of something else are the parts of a text. -/
theorem numeral_valid {digits r : List Byte} {v : ℤ} (h : IsNumeral digits v)
    (hr : ∀ c ∈ r.head?, isDigit c = false) : UnsignedParts.Valid ⟨[], [], digits, r⟩ :=
  ⟨by simp, .inl rfl, h.1.2, h.1.1, hr⟩

theorem numeral_append_inj {d d' r r' : List Byte} {v v' : ℤ} (h : IsNumeral d v)
    (h' : IsNumeral d' v') (hr : ∀ c ∈ r.head?, isDigit c = false)
    (hr' : ∀ c ∈ r'.head?, isDigit c = false) (heq : d ++ r = d' ++ r') : d = d' ∧ r = r' := by
  have hparts := (numeral_valid h hr).unique (numeral_valid h' hr') heq
  exact ⟨congrArg UnsignedParts.digits hparts, congrArg UnsignedParts.rest hparts⟩

/-- What stands behind the number of a port is no digit. -/
theorem separator_head {sep : List Byte} (h : sep = ascii ".0=" ∨ sep = ascii "=")
    (t : List Byte) : ∀ c ∈ (sep ++ t).head?, isDigit c = false := by
  intro c hc
  rcases h with rfl | rfl <;> rw [← Option.some.inj hc] <;> decide

theorem colon_head (t : List Byte) : ∀ c ∈ (ascii ":" ++ t).head?, isDigit c = false := by
  intro c hc
  rw [← Option.some.inj hc]
  decide

theorem MeansPort.unique {line : List Byte} {n n' : ℕ} {e e' : PortmapEntry}
    (h : MeansPort line n e) (h' : MeansPort line n' e') : n = n' ∧ e = e' := by
  obtain ⟨-, port, lane, speed, sep, ⟨hport, hlane, hspeed⟩, hsep, hline⟩ := h
  obtain ⟨-, port', lane', speed', sep', ⟨hport', hlane', hspeed'⟩, hsep', hline'⟩ := h'
  obtain ⟨rfl, hrest⟩ := numeral_append_inj hport hport' (separator_head hsep _)
    (separator_head hsep' _) (List.append_cancel_left (hline.symm.trans hline'))
  have hseps : sep = sep' := by
    rcases hsep with rfl | rfl <;> rcases hsep' with rfl | rfl
    · rfl
    · exact absurd (List.cons.inj hrest).1 (by decide)
    · exact absurd (List.cons.inj hrest).1 (by decide)
    · rfl
  rw [hseps] at hrest
  obtain ⟨rfl, hspeeds⟩ := numeral_append_inj hlane hlane' (colon_head _) (colon_head _)
    (List.append_cancel_left hrest)
  obtain rfl : speed = speed' := List.append_cancel_left hspeeds
  refine ⟨by exact_mod_cast hport.2.trans hport'.2.symm, ?_⟩
  cases e
  cases e'
  rw [PortmapEntry.mk.injEq]
  exact ⟨hlane.2.trans hlane'.2.symm, hspeed.2.trans hspeed'.2.symm⟩

theorem ne_zero_of_isEnd {c : Byte} (h : isEnd c = true) : c ≠ 0 := by
  rintro rfl
  exact absurd h (by decide)

theorem numeral_ne_zero {digits : List Byte} {v : ℤ} (h : IsNumeral digits v) :
    ∀ c ∈ digits, c ≠ 0 := by
  rintro c hc rfl
  exact absurd (h.1.2 0 hc) (by decide)

theorem numeral_intValue {digits r : List Byte} {v : ℤ} (h : IsNumeral digits v) :
    UnsignedParts.intValue ⟨[], [], digits, r⟩ = min v (2 ^ 31 - 1) := by
  rw [UnsignedParts.intValue, if_neg (by simp), h.2]
  dsimp only
  omega

/-- No byte of such a line is NUL. -/
theorem MeansPort.ne_zero {line : List Byte} {n : ℕ} {e : PortmapEntry}
    (h : MeansPort line n e) : ∀ c ∈ line.dropWhile isBlank, c ≠ 0 := by
  obtain ⟨-, port, lane, speed, sep, ⟨hport, hlane, hspeed⟩, hsep, hline⟩ := h
  have hsepzero : ∀ c ∈ sep, c ≠ 0 := by
    rcases hsep with rfl | rfl <;> decide
  intro c hc
  rw [← List.rdropWhile_append_rtakeWhile (p := isEnd) (l := line.dropWhile isBlank), hline] at hc
  simp only [List.mem_append] at hc
  rcases hc with (hc | hc | hc | hc | hc | hc) | hc
  · exact (show ∀ c ∈ ascii "portmap_", c ≠ 0 by decide) c hc
  · exact numeral_ne_zero hport c hc
  · exact hsepzero c hc
  · exact numeral_ne_zero hlane c hc
  · exact (show ∀ c ∈ ascii ":", c ≠ 0 by decide) c hc
  · exact numeral_ne_zero hspeed c hc
  · exact ne_zero_of_isEnd (List.mem_rtakeWhile_imp hc)

theorem dropWhile_isBlank {line : List Byte} (h : ∀ c ∈ line.head?, isBlank c = false) :
    line.dropWhile isBlank = line := by
  cases line with
  | nil => rfl
  | cons c line => exact List.dropWhile_cons_of_neg (by simp [h c rfl])

/-- A line of the form that begins with no blank is read; a lane or a speed that does not
fit is the largest number. -/
theorem MeansPort.accepts {line : List Byte} {n : ℕ} {e : PortmapEntry}
    (h : MeansPort line n e) (hblank : ∀ c ∈ line.head?, isBlank c = false) :
    AcceptsPort line n ⟨min e.lane (2 ^ 31 - 1), min e.speed (2 ^ 31 - 1)⟩ := by
  have hcstr : cstr line = line := by
    have hzero := h.ne_zero
    rw [dropWhile_isBlank hblank] at hzero
    exact List.takeWhile_eq_self_iff.mpr fun c hc => decide_eq_true (hzero c hc)
  obtain ⟨hn, port, lane, speed, sep, ⟨hport, hlane, hspeed⟩, hsep, hline⟩ := h
  rw [dropWhile_isBlank hblank] at hline
  have hmax : MAX_PORTMAP = 56 := rfl
  have hforms : sep ++ (lane ++ (ascii ":" ++ speed)) =
        ascii ".0=" ++ (lane ++ (ascii ":" ++ speed)) ∨
      sep ++ (lane ++ (ascii ":" ++ speed)) = ascii "=" ++ (lane ++ (ascii ":" ++ speed)) := by
    rcases hsep with rfl | rfl
    · exact .inl rfl
    · exact .inr rfl
  refine ⟨hn, ⟨[], [], port, sep ++ (lane ++ (ascii ":" ++ speed))⟩,
    ⟨[], [], lane, ascii ":" ++ speed⟩, ⟨[], [], speed, []⟩,
    ⟨numeral_valid hport (separator_head hsep _), numeral_valid hlane (colon_head _),
      numeral_valid hspeed (by simp)⟩,
    hcstr.symm ▸ hline, hforms, ?_, ?_, numeral_intValue hlane, numeral_intValue hspeed⟩
  · simp [UnsignedParts.text]
  · rw [numeral_intValue hport]
    omega

theorem AcceptsPort.no_blank {line : List Byte} {n : ℕ} {e : PortmapEntry}
    (h : AcceptsPort line n e) : ∀ c ∈ line.head?, isBlank c = false := by
  obtain ⟨-, p, q, r, -, hline, -⟩ := h
  obtain ⟨t, ht⟩ := (List.rdropWhile_prefix isEnd (l := cstr line)).trans
    (List.takeWhile_prefix _)
  rw [hline] at ht
  intro c hc
  rw [← ht] at hc
  rw [← Option.some.inj hc]
  decide

/-- A line of the form is read unless it begins with blanks, and then as it is but for
numbers that do not fit. -/
theorem MeansPort.accepts_iff {line : List Byte} {n : ℕ} {e : PortmapEntry}
    (h : MeansPort line n e) (n' : ℕ) (e' : PortmapEntry) : AcceptsPort line n' e' ↔
      (∀ c ∈ line.head?, isBlank c = false) ∧ n' = n ∧
        e'.lane = min e.lane (2 ^ 31 - 1) ∧ e'.speed = min e.speed (2 ^ 31 - 1) := by
  constructor
  · intro h'
    obtain ⟨rfl, rfl⟩ := h'.unique (h.accepts h'.no_blank)
    exact ⟨h'.no_blank, rfl, rfl, rfl⟩
  · rintro ⟨hblank, rfl, hlane, hspeed⟩
    have he : e' = ⟨min e.lane (2 ^ 31 - 1), min e.speed (2 ^ 31 - 1)⟩ := by
      rw [← hlane, ← hspeed]
    rw [he]
    exact h.accepts hblank

/-- A line that is meant has no blank in front and numbers that fit, or the line is neither
meant nor accepted. -/
def PlainPort (line : List Byte) : Prop :=
  (∃ n e, MeansPort line n e ∧ (∀ c ∈ line.head?, isBlank c = false) ∧
    e.lane < 2 ^ 31 ∧ e.speed < 2 ^ 31) ∨
  ∀ n e, ¬ AcceptsPort line n e ∧ ¬ MeansPort line n e

/-- These are the lines that the code takes as they are meant. -/
theorem acceptsPort_iff_meansPort {line : List Byte} :
    (∀ n e, AcceptsPort line n e ↔ MeansPort line n e) ↔ PlainPort line := by
  constructor
  · intro h
    by_cases hsome : ∃ n e, MeansPort line n e
    · obtain ⟨n, e, he⟩ := hsome
      obtain ⟨hblank, -, hlane, hspeed⟩ := (he.accepts_iff n e).mp ((h n e).mpr he)
      exact .inl ⟨n, e, he, hblank, by omega, by omega⟩
    · have hnone : ∀ n e, ¬ MeansPort line n e := fun n e he => hsome ⟨n, e, he⟩
      exact .inr fun n e => ⟨fun he => hnone n e ((h n e).mp he), hnone n e⟩
  · rintro (⟨n, e, he, hblank, hlane, hspeed⟩ | hnone) n' e'
    · rw [he.accepts_iff n' e']
      constructor
      · rintro ⟨-, rfl, hlane', hspeed'⟩
        have hee : e' = e := by
          cases e
          cases e'
          rw [PortmapEntry.mk.injEq]
          exact ⟨hlane'.trans (min_eq_left (by omega)), hspeed'.trans (min_eq_left (by omega))⟩
        rwa [hee]
      · intro he'
        obtain ⟨rfl, rfl⟩ := he'.unique he
        exact ⟨hblank, rfl, (min_eq_left (by omega)).symm, (min_eq_left (by omega)).symm⟩
    · exact iff_of_false (hnone n' e').1 (hnone n' e').2

/-! ### What a file leaves -/

variable {lines : List (List Byte)}

theorem acceptedAsMeant_of_plain (h : ∀ line ∈ lines, PlainPort line) :
    AcceptedAsMeant lines where
  table _ _ := holds_congr fun line hline => acceptsPort_iff_meansPort.mpr (h line hline)
  count _ := isBound_congr fun line hline => acceptsPort_iff_meansPort.mpr (h line hline)

theorem acceptsPort_oneValue : OneValue AcceptsPort := fun _ _ _ _ hv hw => (hv.unique hw).2

theorem meansPort_oneValue : OneValue MeansPort := fun _ _ _ _ hv hw => (hv.unique hw).2

theorem configLine_of_accepts {c : Config} {line : List Byte} {n : ℕ} {e : PortmapEntry}
    (h : AcceptsPort line n e) : configLine c line = c.set n e := by
  rw [configLine_eq, readPort_eq_some_iff.mpr h]

theorem configLine_of_not_accepts {c : Config} {line : List Byte}
    (h : ∀ n e, ¬ AcceptsPort line n e) : configLine c line = c := by
  have hnone : readPort line = none := by
    by_contra hne
    obtain ⟨⟨n, e⟩, hx⟩ := Option.ne_none_iff_exists'.mp hne
    exact h n e (readPort_eq_some_iff.mp hx)
  rw [configLine_eq, hnone]

/-- The map holds the last of what the lines give a port. -/
theorem foldl_configLine_holds (lines : List (List Byte)) (n : ℕ) :
    Holds AcceptsPort Config.zero.portmap lines n
      ((lines.foldl configLine Config.zero).portmap n) := by
  refine holds_foldl (g := Config.portmap) (fun c line n e h => ?_) (fun c line n h => ?_) lines n
  · rw [configLine_of_accepts h]
    exact Function.update_self ..
  · by_cases hsome : ∃ n' e, AcceptsPort line n' e
    · obtain ⟨n', e, h'⟩ := hsome
      have hne : n ≠ n' := by
        rintro rfl
        exact h e h'
      rw [configLine_of_accepts h']
      exact Function.update_of_ne hne ..
    · rw [configLine_of_not_accepts fun n' e h' => hsome ⟨n', e, h'⟩]

theorem foldl_configLine_count (lines : List (List Byte)) :
    IsBound AcceptsPort lines (lines.foldl configLine Config.zero).portmapCount := by
  induction lines using List.reverseRecOn with
  | nil => exact ⟨fun _ h => absurd h List.not_mem_nil, .inl rfl⟩
  | append_singleton lines line ih =>
    rw [List.foldl_append, List.foldl_cons, List.foldl_nil]
    by_cases hsome : ∃ n e, AcceptsPort line n e
    · obtain ⟨n, e, h⟩ := hsome
      have hmax : ((lines.foldl configLine Config.zero).set n e).portmapCount =
          max (lines.foldl configLine Config.zero).portmapCount (n + 1) := by
        rw [Config.set]
        dsimp only
        split <;> omega
      rw [configLine_of_accepts h, hmax]
      exact ih.concat_of_write (fun k k' v v' hk hk' => (hk.unique hk').1) h
    · have hnone : ∀ n e, ¬ AcceptsPort line n e := fun n e h => hsome ⟨n, e, h⟩
      rw [configLine_of_not_accepts hnone]
      exact ih.concat_of_none hnone

/-- Lines that fit the buffer are what the loop works on. -/
theorem foldl_fgetsLines {content : List Byte}
    (hshort : ∀ line ∈ textLines content, line.length ≤ 254) :
    (fgetsLines 256 content []).foldl configLine Config.zero =
      (textLines content).foldl configLine Config.zero := by
  have hfold : ∀ l : List (List Byte), l.foldl configLine Config.zero =
      (l.filterMap readPort).foldl (fun c x => c.set x.1 x.2) Config.zero := by
    intro l
    rw [List.foldl_filterMap]
    exact List.foldl_ext _ _ _ fun c line _ => by
      rw [configLine_eq]
      cases readPort line <;> rfl
  have hpieces : ∀ line ∈ textLines content,
      (fgetsLines 256 line []).filterMap readPort = (readPort line).toList := by
    intro line hline
    rcases eq_or_ne line [] with rfl | hne
    · rfl
    · have hle := hshort line hline
      rw [fgetsLines_take (not_mem_of_mem_textLines hline) [] (by decide) hne, List.nil_append,
        List.take_of_length_le (by omega), List.drop_of_length_le (by omega)]
      cases hread : readPort line with
      | none => rw [List.filterMap_cons_none hread]; rfl
      | some x => rw [List.filterMap_cons_some hread]; rfl
  rw [hfold, hfold, filterMap_fgetsLines readPort_newline rfl, List.flatMap_congr hpieces]
  congr 1
  exact (List.filterMap_eq_flatMap_toList _ _).symm

/-- A map made of the lines is what they mean exactly if they are accepted as they are
meant. -/
theorem loadedAsMeant_iff :
    LoadedAsMeant lines (lines.foldl configLine Config.zero) ↔ AcceptedAsMeant lines := by
  set c := lines.foldl configLine Config.zero with hc
  have htable : ∀ n e, Holds AcceptsPort Config.zero.portmap lines n e ↔ e = c.portmap n :=
    fun n e => ⟨fun h => h.unique acceptsPort_oneValue (foldl_configLine_holds lines n),
      fun h => h ▸ foldl_configLine_holds lines n⟩
  have hcount : ∀ k, IsBound AcceptsPort lines k ↔ k = c.portmapCount :=
    fun k => ⟨fun h => h.unique (foldl_configLine_count lines),
      fun h => h ▸ foldl_configLine_count lines⟩
  have hget : ∀ n, n < c.portmapCount → getPortmap c n = some (c.portmap n) := fun n hn => by
    rw [getPortmap, if_neg (by omega), Int.toNat_natCast]
  constructor
  · intro h
    have hmeant : ∀ n, Holds MeansPort Config.zero.portmap lines n (c.portmap n) := by
      intro n
      obtain ⟨e, he⟩ := exists_holds MeansPort Config.zero.portmap lines n
      rcases id he with hlast | ⟨huntouched, -⟩
      · have hsome := h.last n e hlast
        rw [getPortmap, Option.ite_none_left_eq_some, Int.toNat_natCast, Option.some.injEq] at hsome
        rwa [hsome.2]
      · exact .inr ⟨huntouched, h.others n huntouched⟩
    refine ⟨fun n e => (htable n e).trans ⟨fun he => he ▸ hmeant n,
      fun he => he.unique meansPort_oneValue (hmeant n)⟩, fun k => (hcount k).trans
      ⟨fun hk => hk ▸ h.count, fun hk => hk.unique h.count⟩⟩
  · intro h
    have hbound : IsBound MeansPort lines c.portmapCount :=
      (h.count _).mp ((hcount _).mpr rfl)
    refine ⟨fun n e hlast => ?_, hbound, fun n huntouched => ?_⟩
    · have he := (htable n e).mp ((h.table n e).mpr (.inl hlast))
      obtain ⟨before, line, after, hlines, hmeans, -⟩ := hlast
      rw [he]
      exact hget n (hbound.1 line (by rw [hlines]; simp) n e hmeans)
    · exact ((htable n _).mp ((h.table n _).mpr (.inr ⟨huntouched, rfl⟩))).symm

/-- A file that is loaded leaves the map it means exactly if its lines are accepted as they
are meant. -/
theorem configLoad_asMeant_iff (files : List Byte → Option (List Byte)) (path : List Byte)
    {content : List Byte} (hfile : files (configFile path) = some content)
    (hshort : ∀ line ∈ textLines content, line.length ≤ 254) :
    (configLoad files (some path)).2 = 0 ∧
      (LoadedAsMeant (textLines content) (configLoad files (some path)).1 ↔
        AcceptedAsMeant (textLines content)) := by
  have hload : configLoad files (some path) =
      ((fgetsLines 256 content []).foldl configLine Config.zero, 0) := by
    simp only [configLoad, hfile]
  rw [hload, foldl_fgetsLines hshort]
  exact ⟨rfl, loadedAsMeant_iff⟩

theorem not_meansPort_nil (n : ℕ) (e : PortmapEntry) : ¬ MeansPort [] n e := by
  rintro ⟨-, port, lane, speed, sep, -, -, hline⟩
  have hlength := congrArg List.length hline
  have hname : (ascii "portmap_").length = 8 := rfl
  rw [List.dropWhile_nil, List.rdropWhile_nil, List.length_nil, List.length_append] at hlength
  omega

theorem plainPort_nil : PlainPort [] := by
  refine .inr fun n e => ⟨fun h => ?_, not_meansPort_nil n e⟩
  rw [← readPort_eq_some_iff] at h
  cases h

/-- A port in either form. -/
theorem configLoad_asMeant_twoPorts :
    let content := ascii "portmap_1=65:10\nportmap_2.0=66:40\n"
    let result := configLoad (fun _ => some content) (some (ascii "/etc/nos"))
    result.2 = 0 ∧ LoadedAsMeant (textLines content) result.1 := by
  intro content result
  have hlines : textLines content =
      [ascii "portmap_1=65:10", ascii "portmap_2.0=66:40", []] := by decide
  have h1 : PlainPort (ascii "portmap_1=65:10") :=
    .inl ⟨1, ⟨65, 10⟩, ⟨by decide, ascii "1", ascii "65", ascii "10", ascii "=",
      ⟨⟨by decide, by decide⟩, ⟨by decide, by decide⟩, ⟨by decide, by decide⟩⟩, .inr rfl,
        by decide⟩, by decide, by decide, by decide⟩
  have h2 : PlainPort (ascii "portmap_2.0=66:40") :=
    .inl ⟨2, ⟨66, 40⟩, ⟨by decide, ascii "2", ascii "66", ascii "40", ascii ".0=",
      ⟨⟨by decide, by decide⟩, ⟨by decide, by decide⟩, ⟨by decide, by decide⟩⟩, .inl rfl,
        by decide⟩, by decide, by decide, by decide⟩
  have hplain : ∀ line ∈ textLines content, PlainPort line := by
    rw [hlines]
    simp only [List.forall_mem_cons, List.not_mem_nil, false_imp_iff, implies_true, and_true]
    exact ⟨h1, h2, plainPort_nil⟩
  obtain ⟨hrc, hloaded⟩ := configLoad_asMeant_iff (fun _ => some content) (ascii "/etc/nos")
    rfl (by decide)
  exact ⟨hrc, hloaded.mpr (acceptedAsMeant_of_plain hplain)⟩

/-- A port whose line begins with a blank is not loaded. -/
theorem not_loadedAsMeant_blank : ¬ ∀ (files : List Byte → Option (List Byte)) (path : List Byte)
    (content : List Byte), files (configFile path) = some content →
      (∀ line ∈ textLines content, line.length ≤ 254) →
        LoadedAsMeant (textLines content) (configLoad files (some path)).1 := by
  intro h
  have hlines : textLines (ascii " portmap_1=65:10\n") = [ascii " portmap_1=65:10", []] := by decide
  have hloaded := h (fun _ => some (ascii " portmap_1=65:10\n")) [] _ rfl (by decide)
  have hmeans : MeansPort (ascii " portmap_1=65:10") 1 ⟨65, 10⟩ :=
    ⟨by decide, ascii "1", ascii "65", ascii "10", ascii "=",
      ⟨⟨by decide, by decide⟩, ⟨by decide, by decide⟩, ⟨by decide, by decide⟩⟩, .inr rfl, by decide⟩
  have hlast : Last MeansPort (textLines (ascii " portmap_1=65:10\n")) 1 ⟨65, 10⟩ :=
    ⟨[], _, _, hlines, hmeans, fun j hj e => by
      rw [List.mem_singleton.mp hj]
      exact not_meansPort_nil 1 e⟩
  exact absurd (hloaded.last 1 _ hlast) (by decide)

end OpenNos.Sdk
