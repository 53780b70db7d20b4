import OpenNos.Switchd.LinkFlap

/-! The port list of switchd (`port_config.c`): ports.conf read line by line into
the names of the interfaces. The list is the numbers at the starts of the lines, up
to 56 of those from 1 to 56, in the order of the file; a file without any, or none at
all, stands for swp1 to swp52. -/

namespace OpenNos.Switchd

open Cstring

/-- The port number a line starts with. -/
def lineNumber (line : List Byte) : Option ℕ :=
  match scanSigned (cstr line) with
  | none => none
  | some n => if 1 ≤ n ∧ n ≤ MAX_PORTS then some n.toNat else none

/-- The loop over the lines; `names` is `port_names` up to `port_count`. -/
def readPorts : List (List Byte) → List (List Byte) → List (List Byte)
  | [], names => names
  | line :: rest, names =>
    if names.length < MAX_PORTS then
      match lineNumber line with
      | some n => readPorts rest (names ++ [swpName n])
      | none => readPorts rest names
    else names

def defaultNames : List (List Byte) := (List.range 52).map fun i => swpName (i + 1)

/-- `port_config_load` on the content of the file, if it can be opened. -/
def portConfigLoad : Option (List Byte) → List (List Byte)
  | none => defaultNames
  | some content =>
    let names := readPorts (fgetsLines 128 content []) []
    if names = [] then defaultNames else names

/-! ### The numbers behind the names -/

/-- The port numbers the lines of the file start with, as far as there is room. -/
def listedPorts (content : List Byte) : List ℕ :=
  ((fgetsLines 128 content []).filterMap lineNumber).take MAX_PORTS

def portNumbers : Option (List Byte) → List ℕ
  | none => List.range' 1 52
  | some content => if listedPorts content = [] then List.range' 1 52 else listedPorts content

theorem lineNumber_inRange {line : List Byte} {n : ℕ} (h : lineNumber line = some n) :
    0 < n ∧ n ≤ 56 := by
  unfold lineNumber at h
  cases hs : scanSigned (cstr line) with
  | none => simp [hs] at h
  | some m =>
    simp only [hs, Option.ite_none_right_eq_some, Option.some.injEq] at h
    obtain ⟨⟨h1, h56⟩, rfl⟩ := h
    have hmax : ((MAX_PORTS : ℕ) : ℤ) = 56 := rfl
    omega

theorem readPorts_eq (lines names : List (List Byte)) (hroom : names.length ≤ MAX_PORTS) :
    readPorts lines names =
      names ++ ((lines.filterMap lineNumber).take (MAX_PORTS - names.length)).map swpName := by
  induction lines generalizing names with
  | nil => simp [readPorts]
  | cons line rest ih =>
    rw [readPorts]
    by_cases hlt : names.length < MAX_PORTS
    · rw [if_pos hlt]
      cases hn : lineNumber line with
      | none =>
        simp only [List.filterMap_cons, hn]
        exact ih names hroom
      | some n =>
        have hlen : (names ++ [swpName n]).length = names.length + 1 := by simp
        have hsub : MAX_PORTS - names.length = MAX_PORTS - (names.length + 1) + 1 := by omega
        simp only [List.filterMap_cons, hn]
        rw [ih _ (by omega), hlen, hsub, List.take_succ_cons, List.map_cons, List.append_assoc,
          List.singleton_append]
    · have hfull : MAX_PORTS - names.length = 0 := by omega
      rw [if_neg hlt, hfull, List.take_zero, List.map_nil, List.append_nil]

/-- The names the loader leaves are those of its numbers. -/
theorem portConfigLoad_eq (file : Option (List Byte)) :
    portConfigLoad file = (portNumbers file).map swpName := by
  have hdefault : defaultNames = (List.range' 1 52).map swpName := by
    rw [defaultNames, List.range'_eq_map_range, List.map_map]
    exact List.map_congr_left fun i _ => by simp [Nat.add_comm]
  cases file with
  | none => exact hdefault
  | some content =>
    have hread : readPorts (fgetsLines 128 content []) [] = (listedPorts content).map swpName := by
      rw [readPorts_eq _ _ (Nat.zero_le _)]
      rfl
    simp only [portConfigLoad, portNumbers, hread, List.map_eq_nil_iff]
    split_ifs
    · exact hdefault
    · rfl

theorem portNumbers_inRange (file : Option (List Byte)) :
    ∀ n ∈ portNumbers file, 0 < n ∧ n ≤ 56 := by
  have hdefault : ∀ n ∈ List.range' 1 52, 0 < n ∧ n ≤ 56 := by
    intro n hn
    rw [List.mem_range'_1] at hn
    omega
  cases file with
  | none => exact hdefault
  | some content =>
    rw [portNumbers]
    split_ifs
    · exact hdefault
    · intro n hn
      obtain ⟨line, -, hline⟩ := List.mem_filterMap.mp (List.mem_of_mem_take hn)
      exact lineNumber_inRange hline

theorem portNumbers_length (file : Option (List Byte)) :
    0 < (portNumbers file).length ∧ (portNumbers file).length ≤ MAX_PORTS := by
  cases file with
  | none => exact ⟨by decide, by decide⟩
  | some content =>
    rw [portNumbers]
    split_ifs with hnil
    · exact ⟨by decide, by decide⟩
    · exact ⟨List.length_pos_iff.mpr hnil, List.length_take_le _ _⟩

/-- What the loader hands to the rest of switchd. -/
def PortConfig.ofFile (file : Option (List Byte)) : PortConfig where
  ports := portNumbers file
  inRange := portNumbers_inRange file

end OpenNos.Switchd
