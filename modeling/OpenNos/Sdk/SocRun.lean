import OpenNos.Lib.Nesting
import OpenNos.Sdk.SocScript

/-! A run of scripts (`soc.c`). A script reads its lines one after the other and may run
further scripts with `rcload`, itself among them; only the counter `rcload_depth` limits
the nesting. The calls of `soc_run_internal` that have not returned stand on a stack, and
the counter is the depth of the innermost one. -/

namespace OpenNos.Sdk

open Cstring Nesting StateTransition

def RCLOAD_MAX_DEPTH : ℤ := 8

/-- A call of `soc_run_internal`. -/
structure Frame where
  /-- the lines it has not read -/
  lines : List (List Byte)
  /-- whether it has opened its script -/
  found : Bool
  /-- `rcload_depth` on entry -/
  entry : ℤ

structure SocRun where
  /-- the calls that have not returned, the innermost first -/
  frames : List Frame
  rcloadDepth : ℤ
  /-- the commands carried out -/
  done : List SocCmd
  /-- what the last call to return has returned -/
  ret : ℤ

variable (files : List Byte → Option (List Byte))

/-- What a call reads of the script at a path, by lines of a buffer of 512 bytes. -/
def scriptLines (path : List Byte) : List (List Byte) :=
  match files path with
  | none => []
  | some content => fgetsLines 512 content []

/-- `soc_run_internal` up to its loop. -/
def SocRun.enter (s : SocRun) (script : Option (List Byte)) : SocRun :=
  { s with frames :=
      ⟨(script.map (scriptLines files)).getD [], (script.bind files).isSome, s.rcloadDepth⟩ ::
        s.frames }

/-- The counter after a return to the calls that are left. -/
def depthAfter (callers : List Frame) (depth : ℤ) : ℤ :=
  if callers = [] then depth else depth - 1

/-- A line of the innermost call, or its return; `none` when all calls have returned. -/
def SocRun.step (s : SocRun) : Option SocRun :=
  match s.frames with
  | [] => none
  | f :: callers =>
    match f.lines with
    | [] => some { s with
        frames := callers
        rcloadDepth := depthAfter callers s.rcloadDepth
        ret := if f.found then 0 else -1 }
    | line :: lines =>
      let s := { s with frames := { f with lines := lines } :: callers }
      match socLine line with
      | .rcload path =>
        if s.rcloadDepth < RCLOAD_MAX_DEPTH then
          some (SocRun.enter files { s with rcloadDepth := s.rcloadDepth + 1 } (some path))
        else some s
      | cmd => some { s with done := s.done ++ [cmd] }

/-- `soc_run_internal` called with the counter at `depth`. -/
def socRunInternal (script : Option (List Byte)) (depth : ℤ) : SocRun :=
  SocRun.enter files ⟨[], depth, [], 0⟩ script

/-- `bcm56846_soc_run`. -/
def socRun (script : Option (List Byte)) : SocRun := socRunInternal files script 0

/-- How many `rcload` are under way. -/
def SocRun.nesting (s : SocRun) : ℕ := s.frames.length - 1

variable {files}

/-! ### Steps -/

/-- A step is a return, a line that stays in the innermost call, or a call. -/
theorem SocRun.step_cases {s t : SocRun} (h : s.step files = some t) :
    ∃ f callers, s.frames = f :: callers ∧
      ((f.lines = [] ∧ t.frames = callers ∧ t.rcloadDepth = depthAfter callers s.rcloadDepth) ∨
        ∃ line lines, f.lines = line :: lines ∧
          ((t.frames = { f with lines := lines } :: callers ∧ t.rcloadDepth = s.rcloadDepth) ∨
            ∃ path g, socLine line = .rcload path ∧ s.rcloadDepth < RCLOAD_MAX_DEPTH ∧
              t.frames = g :: { f with lines := lines } :: callers ∧
              g.lines = scriptLines files path ∧ g.entry = s.rcloadDepth + 1 ∧
              t.rcloadDepth = s.rcloadDepth + 1)) := by
  rw [SocRun.step] at h
  cases hframes : s.frames with
  | nil =>
    rw [hframes] at h
    cases h
  | cons f callers =>
    rw [hframes] at h
    refine ⟨f, callers, rfl, ?_⟩
    cases hlines : f.lines with
    | nil =>
      simp only [hlines] at h
      obtain rfl := Option.some.inj h
      exact .inl ⟨rfl, rfl, rfl⟩
    | cons line lines =>
      refine .inr ⟨line, lines, rfl, ?_⟩
      simp only [hlines] at h
      cases hcmd : socLine line with
      | rcload path =>
        simp only [hcmd] at h
        by_cases hd : s.rcloadDepth < RCLOAD_MAX_DEPTH
        · rw [if_pos hd] at h
          obtain rfl := Option.some.inj h
          exact .inr ⟨path, _, rfl, hd, rfl, rfl, rfl, rfl⟩
        · rw [if_neg hd] at h
          obtain rfl := Option.some.inj h
          exact .inl ⟨rfl, rfl⟩
      | _ =>
        simp only [hcmd] at h
        obtain rfl := Option.some.inj h
        exact .inl ⟨rfl, rfl⟩

/-- A run stops only when all calls have returned. -/
theorem SocRun.frames_of_step_none {s : SocRun} (h : s.step files = none) : s.frames = [] := by
  rw [SocRun.step] at h
  cases hframes : s.frames with
  | nil => rfl
  | cons f callers =>
    simp only [hframes] at h
    cases hlines : f.lines with
    | nil =>
      simp only [hlines] at h
      cases h
    | cons line lines =>
      simp only [hlines] at h
      split at h
      · split at h <;> cases h
      · cases h

/-! ### The counter -/

/-- The calls of a stack were entered at depths that grow by one, from `base` for the
outermost, and all but that one below the limit. -/
def Stacked (base : ℤ) : ℤ → List Frame → Prop
  | depth, [] => depth = base
  | depth, f :: callers => f.entry = depth ∧ (callers = [] ∨ depth ≤ RCLOAD_MAX_DEPTH) ∧
      Stacked base (depthAfter callers depth) callers

variable {base depth : ℤ} {frames : List Frame}

/-- The counter is that of the outermost call and the nesting. -/
theorem Stacked.depth_eq (h : Stacked base depth frames) :
    depth = base + (frames.length - 1 : ℕ) := by
  induction frames generalizing depth with
  | nil =>
    rw [Stacked] at h
    simp [h]
  | cons f callers ih =>
    have hcallers := ih h.2.2
    cases callers with
    | nil =>
      rw [depthAfter, if_pos rfl] at hcallers
      simpa using hcallers
    | cons g callers =>
      rw [depthAfter, if_neg (by simp)] at hcallers
      simp only [List.length_cons, Nat.add_sub_cancel] at hcallers ⊢
      omega

theorem Stacked.le_max (h : Stacked base depth frames) (hbase : base ≤ RCLOAD_MAX_DEPTH) :
    depth ≤ RCLOAD_MAX_DEPTH := by
  cases frames with
  | nil => exact h ▸ hbase
  | cons f callers =>
    obtain ⟨-, rfl | hle, hcallers⟩ := h
    · rw [depthAfter, if_pos rfl, Stacked] at hcallers
      exact hcallers ▸ hbase
    · exact hle

theorem stacked_enter (script : Option (List Byte)) :
    Stacked depth depth (socRunInternal files script depth).frames :=
  ⟨rfl, .inl rfl, rfl⟩

/-- A step keeps the stack in order. -/
theorem Stacked.step {s t : SocRun} (hs : Stacked base s.rcloadDepth s.frames)
    (h : s.step files = some t) : Stacked base t.rcloadDepth t.frames := by
  obtain ⟨f, callers, hframes, hcase⟩ := SocRun.step_cases h
  rw [hframes] at hs
  obtain ⟨-, hret, hretd⟩ | ⟨line, lines, -, ⟨hstay, hstayd⟩ |
    ⟨path, g, -, hlt, hcall, -, hentry, hcalld⟩⟩ := hcase
  · rw [hret, hretd]
    exact hs.2.2
  · rw [hstay, hstayd]
    exact hs
  · have hback : depthAfter ({ f with lines := lines } :: callers) (s.rcloadDepth + 1) =
        s.rcloadDepth := by
      rw [depthAfter, if_neg (by simp)]
      omega
    rw [hcall, hcalld]
    exact ⟨hentry, .inr (by omega), by rw [hback]; exact hs⟩

/-! ### The measure -/

/-- The script that a line runs. -/
def rcloadLines (files : List Byte → Option (List Byte)) (line : List Byte) :
    Option (List (List Byte)) :=
  match socLine line with
  | .rcload path => some (scriptLines files path)
  | _ => none

/-- What is left of a call: its lines, with the scripts they run as deep as the counter
lets them. -/
def Frame.cost (files : List Byte → Option (List Byte)) (f : Frame) : ℕ :=
  Nesting.cost (rcloadLines files) (RCLOAD_MAX_DEPTH - f.entry).toNat f.lines

def SocRun.measure (files : List Byte → Option (List Byte)) (s : SocRun) : ℕ :=
  (s.frames.map (Frame.cost files)).sum

/-- A step lowers what is left of all calls. -/
theorem SocRun.measure_step {s t : SocRun} (hs : Stacked base s.rcloadDepth s.frames)
    (h : s.step files = some t) : t.measure files < s.measure files := by
  obtain ⟨f, callers, hframes, hcase⟩ := SocRun.step_cases h
  rw [hframes] at hs
  rw [SocRun.measure, SocRun.measure, hframes, List.map_cons, List.sum_cons]
  obtain ⟨-, hret, -⟩ | ⟨line, lines, hlines, ⟨hstay, -⟩ |
    ⟨path, g, hcmd, hlt, hcall, hglines, hentry, -⟩⟩ := hcase
  · have := cost_pos (rcloadLines files) (RCLOAD_MAX_DEPTH - f.entry).toNat f.lines
    rw [hret, Frame.cost]
    omega
  · have := cost_lt_cons (rcloadLines files) (RCLOAD_MAX_DEPTH - f.entry).toNat line lines
    rw [hstay, List.map_cons, List.sum_cons, Frame.cost, Frame.cost, hlines]
    dsimp only
    omega
  · have hlevel : (RCLOAD_MAX_DEPTH - f.entry).toNat =
        (RCLOAD_MAX_DEPTH - g.entry).toNat + 1 := by
      rw [hs.1, hentry]
      omega
    have hline : rcloadLines files line = some g.lines := by
      rw [rcloadLines, hcmd, hglines]
    have := cost_call (rcloadLines files) hline (RCLOAD_MAX_DEPTH - g.entry).toNat lines
    rw [hcall, List.map_cons, List.map_cons, List.sum_cons, List.sum_cons, Frame.cost,
      Frame.cost, Frame.cost, hlines, hlevel]
    dsimp only
    omega

/-! ### Runs -/

/-- What has been reached from a call is a stack in order. -/
theorem stacked_of_reaches {script : Option (List Byte)} {s : SocRun}
    (h : Reaches (SocRun.step files) (socRunInternal files script depth) s) :
    Stacked depth s.rcloadDepth s.frames :=
  reaches_keeps (I := fun s : SocRun => Stacked depth s.rcloadDepth s.frames)
    (fun _ _ hs hstep => hs.step hstep) (stacked_enter script) h

/-- Scripts end, whatever they load; each call leaves the counter as it found it, and in a
run of `bcm56846_soc_run` the counter is the nesting, which stays within the limit. -/
theorem socRun_terminates (files : List Byte → Option (List Byte))
    (script : Option (List Byte)) :
    (∀ depth, (eval (SocRun.step files) (socRunInternal files script depth)).Dom ∧
      (∀ s, Reaches (SocRun.step files) (socRunInternal files script depth) s →
        ∀ f callers, s.frames = f :: callers → f.lines = [] → s.rcloadDepth = f.entry) ∧
      ∀ t ∈ eval (SocRun.step files) (socRunInternal files script depth),
        t.frames = [] ∧ t.rcloadDepth = depth) ∧
    ∀ s, Reaches (SocRun.step files) (socRun files script) s →
      s.nesting ≤ 8 ∧ s.rcloadDepth = s.nesting := by
  refine ⟨fun depth => ⟨?_, ?_, ?_⟩, ?_⟩
  · exact eval_dom_of_measure (I := fun s : SocRun => Stacked depth s.rcloadDepth s.frames)
      (SocRun.measure files) (fun _ _ hs hstep => hs.step hstep)
      (fun _ _ hs hstep => SocRun.measure_step hs hstep) (stacked_enter script)
  · intro s hs f callers hframes _
    have hst := stacked_of_reaches hs
    rw [hframes] at hst
    exact hst.1.symm
  · intro t ht
    obtain ⟨hreach, hend⟩ := mem_eval.mp ht
    have hst := stacked_of_reaches hreach
    have hframes := SocRun.frames_of_step_none hend
    rw [hframes] at hst
    exact ⟨hframes, hst⟩
  · intro s hs
    have hst := stacked_of_reaches hs
    have hdepth : s.rcloadDepth = s.nesting := by
      have := hst.depth_eq
      rwa [zero_add] at this
    have hmax := hst.le_max (by decide)
    rw [hdepth, RCLOAD_MAX_DEPTH] at hmax
    exact ⟨by exact_mod_cast hmax, hdepth⟩

end OpenNos.Sdk
