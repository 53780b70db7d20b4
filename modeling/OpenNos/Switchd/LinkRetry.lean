import OpenNos.Lib.History
import OpenNos.Switchd.PortMap

/-! The link poll thread and failing calls (`link_state_thread`, `tun_set_up`). The
thread calls `tun_set_up` when the link value it reads differs from the one it read
last, and takes note of the new value before it knows whether the call succeeds. So a
call that fails is not made again while the link keeps its value, and IFF_UP stays
behind the link. -/

namespace OpenNos.Switchd

open Cstring History

/-! ### The thread and the flags of the kernel -/

def IFNAMSIZ : ℕ := 16

/-- Which system calls of one `tun_set_up` succeed, if they are made. -/
structure TunCalls where
  socket : Bool
  getFlags : Bool
  setFlags : Bool

def TunCalls.Succeed (c : TunCalls) : Prop :=
  c.socket = true ∧ c.getFlags = true ∧ c.setFlags = true

instance (c : TunCalls) : Decidable c.Succeed := inferInstanceAs (Decidable (_ ∧ _ ∧ _))

/-- `ifr_name` of a request about this interface. -/
def ifrName (ifname : List Byte) : List Byte := ifname.take (IFNAMSIZ - 1)

def isUp (flags : BitVec 16) : Bool := flags &&& IFF_UP.setWidth 16 ≠ 0

/-- `tun_set_up` on the flags of every interface. -/
def Tun.setUp (c : TunCalls) (flags : List Byte → BitVec 16) (ifname : List Byte) (up : Bool) :
    (List Byte → BitVec 16) × ℤ :=
  let name := ifrName ifname
  if c.socket = false then (flags, -1)
  else if c.getFlags = false then (flags, -1)
  else
    let ifrFlags :=
      if up then flags name ||| IFF_UP.setWidth 16 else flags name &&& ~~~IFF_UP.setWidth 16
    if c.setFlags = false then (flags, -1) else (Function.update flags name ifrFlags, 0)

/-- The memory of the thread and the flags of the interfaces. -/
structure PollState where
  /-- `last_up[i]`, `none` for -1 -/
  lastUp : ℕ → Option Bool
  flags : List Byte → BitVec 16

/-- What the calls of one pass give: the link value of each port, `none` where the
status read fails, and the system calls for each interface. -/
structure PollPass where
  status : ℤ → Option Bool
  tun : ℕ → TunCalls

/-- The thread before its first pass. -/
def PollState.start (flags : List Byte → BitVec 16) : PollState where
  lastUp := fun _ => none
  flags := flags

variable (names : List (List Byte))

/-- The turn of a pass for one port; the result of `tun_set_up` is not used. -/
def pollTurn (m : PollPass) (s : PollState) (i : ℕ) : PollState :=
  let turn := linkStateTurn names i (m.status ((i : ℤ) + 1)) s.lastUp
  { lastUp := turn.1
    flags := turn.2.foldl (fun flags call => (Tun.setUp (m.tun i) flags call.1 call.2).1) s.flags }

/-- One pass over the ports. -/
def pollPass (s : PollState) (m : PollPass) : PollState :=
  (List.range names.length).foldl (pollTurn names m) s

/-- The passes made: the thread returns at once when there are no ports or too many. -/
def passesMade (ms : List PollPass) : List PollPass :=
  if names.length = 0 ∨ MAX_PORTS < names.length then [] else ms

/-! ### Updates -/

/-- The pass reads this value for the port of this interface, and could set the flag. -/
structure Due (m : PollPass) (i : ℕ) (name : List Byte) (up : Bool) : Prop where
  name : names[i]? = some name
  status : m.status ((i : ℤ) + 1) = some up
  succeed : (m.tun i).Succeed

/-- After the pass every flag that could be set is the link value just read. -/
def UpdatesApplied (s : PollState) (m : PollPass) : Prop :=
  ∀ i name up, Due names m i name up → isUp ((pollPass names s m).flags (ifrName name)) = up

/-- The call that the turn for port `i` makes for the interface, if it succeeds. -/
def callFor (s : PollState) (m : PollPass) (ifr : List Byte) (i : ℕ) : Option Bool :=
  if names[i]?.map ifrName = some ifr ∧ s.lastUp i ≠ m.status ((i : ℤ) + 1) ∧ (m.tun i).Succeed then
    m.status ((i : ℤ) + 1)
  else none

/-- The calls that the pass makes for the interface and that succeed, in order. -/
def callsFor (s : PollState) (m : PollPass) (ifr : List Byte) : List Bool :=
  (List.range names.length).filterMap (callFor names s m ifr)

/-- Where a flag could be set, the last call of the pass for the interface sets it to
the value read, or no call is made and the flag has that value already. -/
def NoneSkipped (s : PollState) (m : PollPass) : Prop :=
  ∀ i name up, Due names m i name up →
    (callsFor names s m (ifrName name) = [] → isUp (s.flags (ifrName name)) = up) ∧
      ∀ w, (callsFor names s m (ifrName name)).getLast? = some w → w = up

/-- The pass reads a new value that the flag does not have, and `tun_set_up` fails. -/
structure CallFails (i : ℕ) (name : List Byte) (up : Bool) (s : PollState) (m : PollPass) :
    Prop where
  status : m.status ((i : ℤ) + 1) = some up
  changed : s.lastUp i ≠ some up
  fails : ¬ (m.tun i).Succeed
  behind : isUp (s.flags (ifrName name)) ≠ up

variable {names} {s : PollState} {m : PollPass} {i : ℕ} {name ifr : List Byte} {up : Bool}

/-! ### One call -/

theorem isUp_or (w : BitVec 16) : isUp (w ||| IFF_UP.setWidth 16) = true := by
  have h : (w ||| IFF_UP.setWidth 16) &&& IFF_UP.setWidth 16 = IFF_UP.setWidth 16 := by
    ext j hj
    simp only [BitVec.getElem_and, BitVec.getElem_or]
    cases w[j] <;> simp
  rw [isUp, h]
  rfl

theorem isUp_andNot (w : BitVec 16) : isUp (w &&& ~~~IFF_UP.setWidth 16) = false := by
  have h : w &&& ~~~IFF_UP.setWidth 16 &&& IFF_UP.setWidth 16 = 0 := by
    ext j hj
    simp only [BitVec.getElem_and, BitVec.getElem_not]
    cases (IFF_UP.setWidth 16)[j] <;> simp
  rw [isUp, h]
  rfl

/-- The flags after `tun_set_up`. -/
theorem Tun.setUp_fst (c : TunCalls) (flags : List Byte → BitVec 16) :
    (Tun.setUp c flags name up).1 =
      if c.Succeed then
        Function.update flags (ifrName name)
          (if up then flags (ifrName name) ||| IFF_UP.setWidth 16
            else flags (ifrName name) &&& ~~~IFF_UP.setWidth 16)
      else flags := by
  rw [Tun.setUp]
  dsimp only
  by_cases hc : c.Succeed
  · rw [if_neg (by simp [hc.1]), if_neg (by simp [hc.2.1]), if_neg (by simp [hc.2.2]), if_pos hc]
  · rw [if_neg hc]
    by_cases hsocket : c.socket = false
    · rw [if_pos hsocket]
    · by_cases hget : c.getFlags = false
      · rw [if_neg hsocket, if_pos hget]
      · have hset : c.setFlags = false := by
          by_contra hset
          exact hc ⟨by simpa using hsocket, by simpa using hget, by simpa using hset⟩
        rw [if_neg hsocket, if_neg hget, if_pos hset]

/-- `tun_set_up` sets the flag of its interface if its calls succeed, and changes
nothing else. -/
theorem Tun.isUp_setUp (c : TunCalls) (flags : List Byte → BitVec 16) :
    isUp ((Tun.setUp c flags name up).1 ifr) =
      if ifrName name = ifr ∧ c.Succeed then up else isUp (flags ifr) := by
  rw [Tun.setUp_fst]
  by_cases hc : c.Succeed
  · rw [if_pos hc]
    by_cases hifr : ifrName name = ifr
    · subst hifr
      rw [if_pos (And.intro rfl hc), Function.update_self]
      cases up with
      | true => exact isUp_or _
      | false => exact isUp_andNot _
    · rw [if_neg fun h : _ ∧ _ => hifr h.1, Function.update_of_ne (Ne.symm hifr)]
  · rw [if_neg hc, if_neg fun h : _ ∧ _ => hc h.2]

/-! ### One pass -/

/-- A turn takes note of the value read, and makes its call. -/
theorem pollTurn_spec (names : List (List Byte)) (s : PollState) (m : PollPass) (i : ℕ) :
    (pollTurn names m s i).lastUp =
        Function.update s.lastUp i ((m.status ((i : ℤ) + 1)).or (s.lastUp i)) ∧
      ∀ ifr, isUp ((pollTurn names m s i).flags ifr) =
        (callFor names s m ifr i).getD (isUp (s.flags ifr)) := by
  rw [pollTurn]
  dsimp only
  cases hst : m.status ((i : ℤ) + 1) with
  | none =>
    refine ⟨by simp [linkStateTurn], fun ifr => ?_⟩
    simp [linkStateTurn, callFor, hst]
  | some up =>
    refine ⟨by simp [linkStateTurn], fun ifr => ?_⟩
    rw [callFor, hst, linkStateTurn]
    dsimp only
    by_cases hch : s.lastUp i ≠ some up
    · rw [if_pos hch]
      cases hn : names[i]? with
      | none => simp
      | some name =>
        rw [List.foldl_cons, List.foldl_nil, Tun.isUp_setUp, Option.map_some]
        by_cases hc : ifrName name = ifr ∧ (m.tun i).Succeed
        · rw [if_pos hc, if_pos ⟨by rw [hc.1], hch, hc.2⟩, Option.getD_some]
        · rw [if_neg hc, if_neg fun h => hc ⟨Option.some.inj h.1, h.2.2⟩, Option.getD_none]
    · rw [if_neg hch, if_neg fun h => hch h.2.1]
      rfl

/-- The first turns of a pass. -/
theorem foldl_pollTurn (s : PollState) (m : PollPass) (k : ℕ) :
    (∀ i, ((List.range k).foldl (pollTurn names m) s).lastUp i =
        if i < k then (m.status ((i : ℤ) + 1)).or (s.lastUp i) else s.lastUp i) ∧
      ∀ ifr, isUp (((List.range k).foldl (pollTurn names m) s).flags ifr) =
        ((List.range k).filterMap (callFor names s m ifr)).getLast?.getD (isUp (s.flags ifr)) := by
  induction k with
  | zero => exact ⟨fun i => rfl, fun ifr => rfl⟩
  | succ k ih =>
    obtain ⟨hlast, hflags⟩ := ih
    rw [List.range_succ, List.foldl_append, List.foldl_cons, List.foldl_nil]
    set t := (List.range k).foldl (pollTurn names m) s
    obtain ⟨hturn, hset⟩ := pollTurn_spec names t m k
    have hk : t.lastUp k = s.lastUp k := by rw [hlast, if_neg (lt_irrefl k)]
    constructor
    · intro i
      rw [hturn, hk]
      by_cases hi : i = k
      · subst hi
        rw [Function.update_self, if_pos (Nat.lt_succ_self i)]
      · rw [Function.update_of_ne hi, hlast]
        by_cases hlt : i < k
        · rw [if_pos hlt, if_pos (by omega)]
        · rw [if_neg hlt, if_neg (by omega)]
    · intro ifr
      have hcall : callFor names t m ifr k = callFor names s m ifr k := by
        rw [callFor, callFor, hk]
      rw [hset, hcall, hflags, List.filterMap_append]
      cases hc : callFor names s m ifr k with
      | none => simp [hc]
      | some w => simp [hc]

theorem pollPass_flags (s : PollState) (m : PollPass) (ifr : List Byte) :
    isUp ((pollPass names s m).flags ifr) =
      (callsFor names s m ifr).getLast?.getD (isUp (s.flags ifr)) :=
  (foldl_pollTurn s m names.length).2 ifr

theorem pollPass_lastUp (s : PollState) (m : PollPass) (hi : i < names.length) :
    (pollPass names s m).lastUp i = (m.status ((i : ℤ) + 1)).or (s.lastUp i) := by
  rw [pollPass, (foldl_pollTurn s m names.length).1, if_pos hi]

theorem updatesApplied_pass (s : PollState) (m : PollPass) :
    UpdatesApplied names s m ↔ NoneSkipped names s m := by
  have hflag : ∀ ifr up, isUp ((pollPass names s m).flags ifr) = up ↔
      (callsFor names s m ifr = [] → isUp (s.flags ifr) = up) ∧
        ∀ w, (callsFor names s m ifr).getLast? = some w → w = up := by
    intro ifr up
    rw [pollPass_flags]
    rcases List.eq_nil_or_concat (callsFor names s m ifr) with h | ⟨l, w, h⟩
    · simp [h]
    · simp [h]
  constructor
  · intro h i name up hdue
    exact (hflag _ _).mp (h i name up hdue)
  · intro h i name up hdue
    exact (hflag _ _).mpr (h i name up hdue)

/-! ### Interfaces of one port each -/

theorem filterMap_eq_toList {α β : Type*} {f : α → Option β} {l : List α} {a : α} (hl : l.Nodup)
    (ha : a ∈ l) (h : ∀ b, b ≠ a → f b = none) : l.filterMap f = (f a).toList := by
  have hnone : ∀ l : List α, a ∉ l → l.filterMap f = [] := fun l hl =>
    List.filterMap_eq_nil_iff.mpr fun b hb => h b fun heq => hl (heq ▸ hb)
  obtain ⟨l₁, l₂, rfl⟩ := List.append_of_mem ha
  obtain ⟨-, hl₂, hdisj⟩ := List.nodup_append.mp hl
  have h₁ : a ∉ l₁ := fun hm => hdisj a hm a (List.mem_cons_self ..) rfl
  rw [List.filterMap_append, hnone l₁ h₁, List.nil_append, List.filterMap_cons,
    hnone l₂ (List.nodup_cons.mp hl₂).1]
  cases f a <;> rfl

/-- The only turn that concerns the interface is that of its port. -/
theorem callsFor_of_nodup (hnd : (names.map ifrName).Nodup) (hi : names[i]? = some name)
    (s : PollState) (m : PollPass) :
    callsFor names s m (ifrName name) = (callFor names s m (ifrName name) i).toList := by
  have hlt : i < names.length := (List.getElem?_eq_some_iff.mp hi).1
  refine filterMap_eq_toList List.nodup_range (List.mem_range.mpr hlt) fun j hj => if_neg ?_
  rintro ⟨hname, -⟩
  rw [← List.getElem?_map] at hname
  have hi' : (names.map ifrName)[i]? = some (ifrName name) := by
    rw [List.getElem?_map, hi, Option.map_some]
  have hlt' : i < (names.map ifrName).length := by rwa [List.length_map]
  exact hj ((List.getElem?_inj hlt' hnd).mp (hi'.trans hname.symm)).symm

/-- The thread has read this value last, and the flag does not have it. -/
def Behind (i : ℕ) (name : List Byte) (up : Bool) (s : PollState) : Prop :=
  s.lastUp i = some up ∧ isUp (s.flags (ifrName name)) ≠ up

theorem noneSkipped_of_nodup (hnd : (names.map ifrName).Nodup) (s : PollState) (m : PollPass) :
    NoneSkipped names s m ↔ ∀ i name up, Due names m i name up → ¬ Behind i name up s := by
  have hdue : ∀ i name up, Due names m i name up →
      (((callsFor names s m (ifrName name) = [] → isUp (s.flags (ifrName name)) = up) ∧
        ∀ w, (callsFor names s m (ifrName name)).getLast? = some w → w = up) ↔
          ¬ Behind i name up s) := by
    intro i name up h
    rw [callsFor_of_nodup hnd h.name, callFor, h.name, h.status, Behind, Option.map_some]
    by_cases hch : s.lastUp i = some up
    · simp [hch]
    · simp [hch, h.succeed]
  constructor
  · intro h i name up hd
    exact (hdue i name up hd).mp (h i name up hd)
  · intro h i name up hd
    exact (hdue i name up hd).mpr (h i name up hd)

/-- A flag falls behind where a call fails, and stays behind until the link changes. -/
theorem behind_pass (hnd : (names.map ifrName).Nodup) (hi : names[i]? = some name) (s : PollState)
    (m : PollPass) : Behind i name up (pollPass names s m) ↔
      Behind i name up s ∧ ¬ m.status ((i : ℤ) + 1) = some (!up) ∨ CallFails i name up s m := by
  have hlt : i < names.length := (List.getElem?_eq_some_iff.mp hi).1
  have hflag : isUp ((pollPass names s m).flags (ifrName name)) =
      (callFor names s m (ifrName name) i).getD (isUp (s.flags (ifrName name))) := by
    rw [pollPass_flags, callsFor_of_nodup hnd hi]
    cases callFor names s m (ifrName name) i <;> rfl
  have hfails : CallFails i name up s m ↔ m.status ((i : ℤ) + 1) = some up ∧
      s.lastUp i ≠ some up ∧ ¬ (m.tun i).Succeed ∧ isUp (s.flags (ifrName name)) ≠ up :=
    ⟨fun h => ⟨h.status, h.changed, h.fails, h.behind⟩, fun h => ⟨h.1, h.2.1, h.2.2.1, h.2.2.2⟩⟩
  rw [Behind, Behind, pollPass_lastUp s m hlt, hflag, hfails, callFor, hi, Option.map_some]
  cases hst : m.status ((i : ℤ) + 1) with
  | none => simp
  | some v =>
    by_cases hv : v = up
    · subst hv
      by_cases hch : s.lastUp i = some v
      · simp [hch]
      · by_cases hc : (m.tun i).Succeed
        · simp [hch, hc]
        · simp [hch, hc]
    · have hnot : v = !up := by
        cases v <;> cases up <;> simp_all
      simp [hnot]

/-! ### A run of the thread -/

/-- Where every port has an interface of its own, the updates of a run are applied if and
only if after every call that failed the port has read the other value before the update is
due again. Where ports share an interface, the pass that applies it must not skip it. -/
theorem updatesApplied_iff (names : List (List Byte)) (flags : List Byte → BitVec 16)
    (ms : List PollPass) :
    ((names.map ifrName).Nodup →
      (EachStep (pollPass names) (UpdatesApplied names) (PollState.start flags)
          (passesMade names ms) ↔
        ∀ before m between m' after i name up,
          passesMade names ms = before ++ m :: (between ++ m' :: after) →
          Due names m' i name up →
          CallFails i name up (run (pollPass names) (PollState.start flags) before) m →
          ∃ x ∈ between, x.status ((i : ℤ) + 1) = some (!up))) ∧
    (EachStep (pollPass names) (UpdatesApplied names) (PollState.start flags)
        (passesMade names ms) ↔
      EachStep (pollPass names) (NoneSkipped names) (PollState.start flags)
        (passesMade names ms)) := by
  have hiff : EachStep (pollPass names) (UpdatesApplied names) (PollState.start flags)
      (passesMade names ms) ↔ EachStep (pollPass names) (NoneSkipped names)
        (PollState.start flags) (passesMade names ms) := by
    simp only [eachStep_iff_splits, updatesApplied_pass]
  refine ⟨fun hnd => ?_, hiff⟩
  have hsince : ∀ i name up, names[i]? = some name → ∀ ns,
      (Behind i name up (run (pollPass names) (PollState.start flags) ns) ↔
        ∃ before m between, ns = before ++ m :: between ∧
          CallFails i name up (run (pollPass names) (PollState.start flags) before) m ∧
          ∀ x ∈ between, ¬ x.status ((i : ℤ) + 1) = some (!up)) := by
    intro i name up hi ns
    have hstart : ¬ Behind i name up (PollState.start flags) := fun h => by cases h.1
    exact run_iff_since (behind_pass hnd hi) hstart ns
  rw [hiff, eachStep_iff_splits]
  constructor
  · intro h before m between m' after i name up hsplit hdue hfails
    by_contra hno
    have hbehind := (hsince i name up hdue.name (before ++ m :: between)).mpr
      ⟨before, m, between, rfl, hfails, fun x hx heq => hno ⟨x, hx, heq⟩⟩
    exact (noneSkipped_of_nodup hnd _ _).mp (h (before ++ m :: between) m' after (by simpa))
      i name up hdue hbehind
  · intro h ns m' rest hsplit
    refine (noneSkipped_of_nodup hnd _ _).mpr fun i name up hdue hbehind => ?_
    obtain ⟨before, m, between, rfl, hfails, hbetween⟩ := (hsince i name up hdue.name ns).mp hbehind
    obtain ⟨x, hx, heq⟩ := h before m between m' rest i name up (by simpa using hsplit) hdue hfails
    exact hbetween x hx heq

/-- A pass that reads the link of port 1 as up. -/
def readsUp (setFlags : Bool) : PollPass where
  status := fun _ => some true
  tun := fun _ => { socket := true, getFlags := true, setFlags := setFlags }

/-- The link of swp1 is up, and the flag stays down after the call that failed. -/
theorem not_updatesApplied_retry :
    ¬ EachStep (pollPass [swpName 1]) (UpdatesApplied [swpName 1]) (PollState.start fun _ => 0)
      (passesMade [swpName 1] [readsUp false, readsUp true]) := by
  rintro ⟨-, h, -⟩
  exact absurd (h 0 (swpName 1) true ⟨rfl, rfl, rfl, rfl, rfl⟩) (by decide)

end OpenNos.Switchd
