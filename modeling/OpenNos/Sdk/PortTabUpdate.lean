import OpenNos.Sdk.SbusDevice

/-! The loops of the initialisation that change some fields of every entry of a table
(`init_datapath.c`), over entries with any content and operations that fail in any
pattern. An entry is read, changed and written back; where the read fails, zeros are
changed instead, and take the place of all fields. -/

namespace OpenNos.Sdk

open Bits OpProg

/-- PORT_PRI, VT_ENABLE, TRUST_INCOMING_VID and PRI_MAPPING are cleared, PORT_VID is 1. -/
def portTabFields : List FieldWrite :=
  [⟨10, 3, 0⟩, ⟨2, 1, 0⟩, ⟨104, 1, 0⟩, ⟨137, 24, 0⟩, ⟨26, 12, 1⟩]

/-- PORT_TYPE and HIGIG2 are cleared. -/
def egrPortFields : List FieldWrite := [⟨0, 2, 0⟩, ⟨2, 1, 0⟩]

/-- A bit that belongs to none of the fields. -/
def Foreign (fs : List FieldWrite) (b : ℕ) : Prop :=
  ∀ f ∈ fs, b < f.start ∨ f.start + f.width ≤ b

/-- From `d` to `d'` only these fields of a table have changed, to these values, and have
these values in all of the first `count` entries that were written. -/
structure FieldsOnly (addr : BitVec 32) (count : ℕ) (fs : List FieldWrite) (d d' : SocDev) :
    Prop where
  kept : ∀ i b, Foreign fs b → bit (d'.mem addr i) b = bit (d.mem addr i) b
  intended : ∀ i < count, d.outcome (2 * i + 1) ≠ .lost →
    ∀ f ∈ fs, field (d'.mem addr i) f.start f.width = f.value.setWidth f.width
  others : d'.reg = d.reg ∧ ∀ addr' ≠ addr, d'.mem addr' = d.mem addr'

/-- No entry of which the read fails is overwritten, except with what it holds. -/
def FrameSafe (addr : BitVec 32) (count nwords : ℕ) (fs : List FieldWrite) (d : SocDev) : Prop :=
  ∀ i < count, d.outcome (2 * i) = .ok ∨ d.outcome (2 * i + 1) = .lost ∨
    ∀ b < 32 * nwords, Foreign fs b → bit (d.mem addr i) b = false

/-! ### Entries -/

theorem bit_word (w : Words) {k j : ℕ} (hj : j < 32) : bit w (32 * k + j) = (w k).getLsbD j := by
  rw [bit, show (32 * k + j) / 32 = k by omega, show (32 * k + j) % 32 = j by omega]

/-- Arrays with the same words bit by bit are the same. -/
theorem words_ext_word {w w' : Words}
    (h : ∀ k, ∀ j < 32, (w k).getLsbD j = bit w' (32 * k + j)) : w = w' := by
  apply words_ext
  intro b
  rw [← Nat.div_add_mod b 32, bit_word _ (Nat.mod_lt _ (by omega)),
    h _ _ (Nat.mod_lt _ (by omega))]

/-- An entry with its fields written, bit by bit. -/
theorem bit_putFields_portTab (w : Words) {b : ℕ} (hb : b / 32 < 6) :
    bit (putFields w 6 portTabFields) b =
      if b = 26 then true
      else if b = 2 ∨ 10 ≤ b ∧ b < 13 ∨ 27 ≤ b ∧ b < 38 ∨ b = 104 ∨ 137 ≤ b ∧ b < 161 then false
      else bit w b := by
  have hvalue : ∀ c, (1 : BitVec 64).getLsbD c = decide (c = 0) := by
    intro c
    by_cases hc : c = 0 <;> simp [hc]
  simp only [portTabFields, putFields, List.foldl_cons, List.foldl_nil, bit_putField, hvalue, hb,
    and_true]
  split_ifs <;> first | omega | (simp <;> omega)

/-- The masks of the loop, bit by bit. -/
theorem getLsbD_portTabEntry (entry : Words) (k : ℕ) {j : ℕ} (hj : j < 32) :
    (portTabEntry entry k).getLsbD j =
      if k = 0 ∧ j = 26 then true
      else if k = 0 ∧ (j = 2 ∨ 10 ≤ j ∧ j < 13 ∨ 27 ≤ j) ∨ k = 1 ∧ j < 6 ∨ k = 3 ∧ j = 8 ∨
        k = 4 ∧ 9 ≤ j ∨ k = 5 ∧ j = 0 then false
      else (entry k).getLsbD j := by
  have hpri : ∀ j < 32, (0x7#32 <<< 10 ||| 1#32 <<< 2).getLsbD j =
      decide (10 ≤ j ∧ j < 13 ∨ j = 2) := by decide
  have hvid : ∀ j < 32, (0xfc000000#32).getLsbD j = decide (26 ≤ j) := by decide
  have hone : ∀ j < 32, (1#32 <<< 26).getLsbD j = decide (j = 26) := by decide
  have hvidHigh : ∀ j < 32, (0x3f#32).getLsbD j = decide (j < 6) := by decide
  have htrust : ∀ j < 32, (1#32 <<< 8).getLsbD j = decide (j = 8) := by decide
  have hmap : ∀ j < 32, (0xfffffe00#32).getLsbD j = decide (9 ≤ j) := by decide
  have hmapHigh : ∀ j < 32, (0x1#32).getLsbD j = decide (j = 0) := by decide
  rcases k with _ | _ | _ | _ | _ | _ | k <;>
    simp only [portTabEntry, BitVec.getLsbD_or, BitVec.getLsbD_and, BitVec.getLsbD_not, hj,
      decide_true, Bool.true_and, hpri j hj, hvid j hj, hone j hj, hvidHigh j hj, htrust j hj,
      hmap j hj, hmapHigh j hj] <;>
    grind

/-- The masks of the loop are those of the fields. -/
theorem portTabEntry_eq (entry : Words) :
    portTabEntry entry = putFields entry 6 portTabFields := by
  apply words_ext_word
  intro k j hj
  rw [getLsbD_portTabEntry entry k hj, ← bit_word entry hj]
  by_cases hk : (32 * k + j) / 32 < 6
  · rw [bit_putFields_portTab entry hk]
    exact if_congr (by omega) rfl (if_congr (by omega) rfl rfl)
  · rw [if_neg (by omega), if_neg (by omega)]
    simp only [portTabFields, putFields, List.foldl_cons, List.foldl_nil, bit_putField, hk,
      and_false, if_false]

theorem egrPortEntry_eq (egr : Words) : egrPortEntry egr = putFields egr 6 egrPortFields := by
  have htype : ∀ j < 32, (0x7#32).getLsbD j = decide (j < 3) := by decide
  apply words_ext_word
  intro k j hj
  simp only [egrPortFields, putFields, List.foldl_cons, List.foldl_nil, bit_putField, egrPortEntry]
  rw [bit_word _ hj]
  rcases k with _ | k
  · simp only [Function.update_self, BitVec.getLsbD_and, BitVec.getLsbD_not, hj, decide_true,
      Bool.true_and, htype j hj]
    grind
  · rw [Function.update_of_ne (Nat.succ_ne_zero k)]
    grind

/-! ### The loop -/

variable {addr : BitVec 32} {nwords : ℕ} {f : Words → Words}

/-- An entry after its turn. -/
def updated (f : Words → Words) (nwords : ℕ) (old : Words) (read write : Outcome) : Words :=
  if write = .lost then old
  else splice nwords (f (if read = .ok then old else fun _ => 0)) old

/-- The body of the loop. -/
def updateEntry (addr : BitVec 32) (nwords : ℕ) (f : Words → Words) (i : ℕ) : Sbus Unit := do
  let entry ← sbusMemRead addr i nwords
  discard <| sbusMemWrite addr i (f (entry.getD fun _ => 0)) nwords

theorem updateEntry_runOn (i : ℕ) (d : SocDev) :
    ((updateEntry addr nwords f i).runOn SocDev.sbusStep d).2 =
      (d.next.writeMem addr i (f (if d.outcome 0 = .ok then d.mem addr i else fun _ => 0))
        nwords).1 := by
  have hread : ((d.sbusStep (.memRead addr i nwords)).2.getD fun _ => 0) =
      if d.outcome 0 = .ok then d.mem addr i else fun _ => 0 := by
    rw [SocDev.sbusStep, SocDev.readMem]
    by_cases hok : d.outcome 0 = .ok <;> simp [hok]
  rw [updateEntry, runOn_bind, sbusMemRead, runOn_perform, runOn_discard, sbusMemWrite, runOn_bind,
    runOn_perform, runOn_pure]
  dsimp only
  rw [hread]
  rfl

variable (addr nwords f) in
/-- One turn uses up two operations and changes one entry. -/
theorem updateEntry_spec (i : ℕ) (d : SocDev) :
    let d' := ((updateEntry addr nwords f i).runOn SocDev.sbusStep d).2
    (d'.reg = d.reg ∧ ∀ addr' ≠ addr, d'.mem addr' = d.mem addr') ∧
      (∀ n, d'.outcome n = d.outcome (n + 2)) ∧
      d'.mem addr i = updated f nwords (d.mem addr i) (d.outcome 0) (d.outcome 1) ∧
      ∀ i' ≠ i, d'.mem addr i' = d.mem addr i' := by
  dsimp only
  rw [updateEntry_runOn, SocDev.writeMem, updated]
  by_cases hlost : d.outcome 1 = .lost
  · have hnext : d.next.outcome 0 = .lost := hlost
    rw [if_pos hnext, if_pos hlost]
    exact ⟨⟨rfl, fun _ _ => rfl⟩, fun _ => rfl, rfl, fun _ _ => rfl⟩
  · have hnext : d.next.outcome 0 ≠ .lost := hlost
    rw [if_neg hnext, if_neg hlost]
    refine ⟨⟨rfl, fun addr' hne => Function.update_of_ne hne ..⟩, fun _ => rfl, ?_,
      fun i' hne => ?_⟩
    · simp [SocDev.next]
    · simp [SocDev.next, Function.update_of_ne hne]

variable (addr nwords f) in
/-- The loop from some entry on. -/
theorem updateLoop_runOn (s count : ℕ) (d : SocDev) :
    let d' := (((List.range' s count).forM (updateEntry addr nwords f)).runOn SocDev.sbusStep d).2
    (d'.reg = d.reg ∧ ∀ addr' ≠ addr, d'.mem addr' = d.mem addr') ∧
      ∀ i, d'.mem addr i = if s ≤ i ∧ i < s + count then
        updated f nwords (d.mem addr i) (d.outcome (2 * (i - s))) (d.outcome (2 * (i - s) + 1))
      else d.mem addr i := by
  induction count generalizing s d with
  | zero => exact ⟨⟨rfl, fun _ _ => rfl⟩, fun i => (if_neg (by omega)).symm⟩
  | succ count ih =>
    obtain ⟨⟨hreg, hother⟩, houtcome, hself, hne⟩ :=
      updateEntry_spec addr nwords f s d
    obtain ⟨⟨hreg', hother'⟩, hmem⟩ :=
      ih (s + 1) ((updateEntry addr nwords f s).runOn SocDev.sbusStep d).2
    rw [List.range'_succ, List.forM_eq_forM, List.forM_cons, runOn_bind]
    refine ⟨⟨hreg'.trans hreg, fun addr' h => (hother' addr' h).trans (hother addr' h)⟩,
      fun i => (hmem i).trans ?_⟩
    rcases lt_trichotomy i s with hlt | rfl | hgt
    · rw [if_neg (by omega), if_neg (by omega), hne i (by omega)]
    · rw [if_neg (by omega), if_pos (by omega), hself, Nat.sub_self]
    · rw [houtcome, houtcome, hne i (by omega)]
      by_cases hi : i < s + (count + 1)
      · rw [if_pos (by omega), if_pos (by omega),
          show 2 * (i - (s + 1)) + 2 = 2 * (i - s) by omega,
          show 2 * (i - (s + 1)) + 1 + 2 = 2 * (i - s) + 1 by omega]
      · rw [if_neg (by omega), if_neg (by omega)]

variable (addr nwords f) in
theorem updateEntries_runOn (count : ℕ) (d : SocDev) :
    let d' := ((updateEntries addr count nwords f).runOn SocDev.sbusStep d).2
    (d'.reg = d.reg ∧ ∀ addr' ≠ addr, d'.mem addr' = d.mem addr') ∧
      (∀ i < count, d'.mem addr i =
        updated f nwords (d.mem addr i) (d.outcome (2 * i)) (d.outcome (2 * i + 1))) ∧
      ∀ i, count ≤ i → d'.mem addr i = d.mem addr i := by
  have hloop : updateEntries addr count nwords f =
      (List.range' 0 count).forM (updateEntry addr nwords f) := by
    rw [updateEntries, List.range_eq_range']
    rfl
  obtain ⟨hothers, hmem⟩ := updateLoop_runOn addr nwords f 0 count d
  rw [hloop]
  refine ⟨hothers, fun i hi => ?_, fun i hi => ?_⟩
  · rw [hmem, if_pos (by omega), Nat.sub_zero]
  · rw [hmem, if_neg (by omega)]

/-- The loop changes nothing but its fields exactly if no entry of which the read fails is
overwritten with something else. -/
theorem updateEntries_fieldsOnly {fs : List FieldWrite} (hf : ∀ w, f w = putFields w nwords fs)
    (hfs : fs.Pairwise FieldWrite.Apart) (hfit : ∀ g ∈ fs, g.start + g.width ≤ 32 * nwords)
    (count : ℕ) (d : SocDev) :
    FieldsOnly addr count fs d
        ((updateEntries addr count nwords f).runOn SocDev.sbusStep d).2 ↔
      FrameSafe addr count nwords fs d := by
  obtain ⟨hothers, hmem, hpast⟩ :=
    updateEntries_runOn addr nwords f count d
  constructor
  · intro h i hi
    by_cases hok : d.outcome (2 * i) = .ok
    · exact .inl hok
    · by_cases hlost : d.outcome (2 * i + 1) = .lost
      · exact .inr (.inl hlost)
      · refine .inr (.inr fun b hb hforeign => ?_)
        rw [← h.kept i b hforeign, hmem i hi, updated, if_neg hlost, if_neg hok,
          bit_splice _ _ hb, hf, bit_putFields_of_outside hforeign]
        exact bit_zero b
  · intro hsafe
    refine ⟨fun i b hforeign => ?_, fun i hi hnot g hg => ?_, hothers⟩
    · by_cases hi : i < count
      · rw [hmem i hi, updated]
        by_cases hlost : d.outcome (2 * i + 1) = .lost
        · rw [if_pos hlost]
        · rw [if_neg hlost]
          by_cases hb : b < 32 * nwords
          · rw [bit_splice _ _ hb, hf, bit_putFields_of_outside hforeign]
            by_cases hok : d.outcome (2 * i) = .ok
            · rw [if_pos hok]
            · rw [if_neg hok]
              rcases hsafe i hi with h | h | h
              · exact absurd h hok
              · exact absurd h hlost
              · exact (bit_zero b).trans (h b hb hforeign).symm
          · exact bit_splice_of_le _ _ (by omega)
      · rw [hpast i (by omega)]
    · rw [hmem i hi, updated, if_neg hnot, field_splice _ _ (hfit g hg), hf,
        field_putFields hfs _ hg (hfit g hg)]

/-- The two loops of the initialisation. -/
theorem portLoops_fieldsOnly_iff (d : SocDev) :
    (FieldsOnly PORT_TABm 67 portTabFields d
        ((updateEntries PORT_TABm 67 6 portTabEntry).runOn SocDev.sbusStep d).2 ↔
      FrameSafe PORT_TABm 67 6 portTabFields d) ∧
    (FieldsOnly EGR_PORTm 67 egrPortFields d
        ((updateEntries EGR_PORTm 67 6 egrPortEntry).runOn SocDev.sbusStep d).2 ↔
      FrameSafe EGR_PORTm 67 6 egrPortFields d) :=
  ⟨updateEntries_fieldsOnly portTabEntry_eq (by decide) (by decide) 67 d,
    updateEntries_fieldsOnly egrPortEntry_eq (by decide) (by decide) 67 d⟩

/-- All words of all tables are ones, and the first read fails. -/
def entryUnread : SocDev where
  reg := fun _ _ => 0
  mem := fun _ _ _ => 0xffffffff
  outcome := fun n => if n = 0 then .lost else .ok
  writes := 0

/-- Bit 0 of entry 0 is lost. -/
theorem not_portLoops_fieldsOnly : ¬ ∀ d, FieldsOnly PORT_TABm 67 portTabFields d
    ((updateEntries PORT_TABm 67 6 portTabEntry).runOn SocDev.sbusStep d).2 := by
  intro h
  have hkept := (h entryUnread).kept 0 0 (by simp [Foreign, portTabFields])
  have hafter : bit (((updateEntries PORT_TABm 67 6 portTabEntry).runOn SocDev.sbusStep
      entryUnread).2.mem PORT_TABm 0) 0 = false := by
    rw [(updateEntries_runOn _ _ _ 67 entryUnread).2.1 0 (by omega)]
    decide
  rw [hafter] at hkept
  exact absurd hkept (by decide)

end OpenNos.Sdk
