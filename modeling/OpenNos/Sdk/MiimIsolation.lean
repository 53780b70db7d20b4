import OpenNos.Sdk.MiimBus

/-! One named transaction on the shared bus. As long as the other thread spares what
this one has set up, the transaction reaches what its caller named, and the selection
it makes is still there for the next transaction of the access. -/

namespace OpenNos.Sdk

open Bits RegProg Bde

/-- What a thread relies on from the other thread and from the PHYs. -/
structure Others (t : Thread) (s s' : MiimBus) : Prop extends Spares t s s' where
  window : s'.window t = s.window t

/-- What a thread guarantees: the other's record and window are its own business, and
what it adds to its record is good. -/
structure Honest (t : Thread) (s s' : MiimBus) : Prop where
  window : ∀ u, u ≠ t → s'.window u = s.window u
  log : ∀ u, u ≠ t → s'.log u = s.log u
  good : ∀ e ∈ s'.log t, e ∈ s.log t ∨ e.Good

abbrev BusWp {α : Type} (t : Thread) (Q : α → MiimBus → Prop) (p : Reg MiimEvent α)
    (s : MiimBus) : Prop :=
  Wp (miimBus t) (Others t) (Honest t) Q p s

theorem honest_of_same {t : Thread} {s s' : MiimBus}
    (hwindow : ∀ u, u ≠ t → s'.window u = s.window u) (hlog : s'.log = s.log) : Honest t s s' :=
  ⟨hwindow, fun _ _ => by rw [hlog], fun e he => .inl (hlog ▸ he)⟩

section Accesses

variable {t : Thread} (s : MiimBus)

@[simp] theorem setWindow_window (w : Window) : (s.setWindow t w).window t = w := by
  simp only [MiimBus.setWindow, Function.update_self]

@[simp] theorem setWindow_reg (w : Window) : (s.setWindow t w).reg = s.reg := rfl

@[simp] theorem setWindow_select (w : Window) : (s.setWindow t w).select = s.select := rfl

@[simp] theorem setReg_window (off : ℕ) (v : BitVec 32) : (s.setReg off v).window = s.window := rfl

@[simp] theorem setReg_select (off : ℕ) (v : BitVec 32) : (s.setReg off v).select = s.select := rfl

theorem setWindow_window_of_ne {u : Thread} (h : u ≠ t) (w : Window) :
    (s.setWindow t w).window u = s.window u := by
  simp only [MiimBus.setWindow, Function.update_of_ne h]

theorem honest_setWindow (w : Window) : Honest t s (s.setWindow t w) :=
  honest_of_same (fun _ hu => setWindow_window_of_ne s hu w) rfl

theorem setReg_reg_of_ne {off off' : ℕ} (h : off' ≠ off) (v : BitVec 32) :
    (s.setReg off v).reg off' = s.reg off' := by
  simp only [MiimBus.setReg, Function.update_of_ne h]

theorem setReg_reg_self {off : ℕ} (h : off ≠ CMIC_MIIM_CTRL) (v : BitVec 32) :
    (s.setReg off v).reg off = v := by
  simp only [MiimBus.setReg, Function.update_self, written_of_ne h]

theorem honest_setReg (off : ℕ) (v : BitVec 32) : Honest t s (s.setReg off v) :=
  honest_of_same (fun _ _ => rfl) rfl

/-- A register other than those of a transaction. -/
theorem miimBus_write_of_ne {off : ℕ} (haddress : off ≠ CMIC_MIIM_ADDRESS)
    (hparam : off ≠ CMIC_MIIM_PARAM) (hctrl : off ≠ CMIC_MIIM_CTRL) (v : BitVec 32) :
    (miimBus t).write s off v = s.setReg off v := by
  simp only [miimBus, MiimBus.wrote, if_neg haddress, if_neg hparam, if_neg hctrl]

/-- A write to the control register that triggers nothing. -/
theorem miimBus_write_clr {v : BitVec 32} (hv : v.getLsbD 7 = false) :
    (miimBus t).write s CMIC_MIIM_CTRL v = s.setReg CMIC_MIIM_CTRL v := by
  have hset := not_setsBit hv
  have hoff : CMIC_MIIM_CTRL ≠ CMIC_MIIM_ADDRESS ∧ CMIC_MIIM_CTRL ≠ CMIC_MIIM_PARAM := by decide
  simp only [miimBus, MiimBus.wrote, if_neg hoff.1, if_neg hoff.2, if_neg (hset 16),
    if_neg (hset 17), ite_self]

theorem miimBus_write_address (v : BitVec 32) :
    (miimBus t).write s CMIC_MIIM_ADDRESS v =
      (s.setReg CMIC_MIIM_ADDRESS v).setWindow t { s.window t with address := true } := rfl

theorem miimBus_write_param (v : BitVec 32) :
    (miimBus t).write s CMIC_MIIM_PARAM v =
      (s.setReg CMIC_MIIM_PARAM v).setWindow t { s.window t with param := true } := rfl

theorem miimBus_write_setRead :
    (miimBus t).write s CMIC_MIIM_CTRL MIIM_SET_READ =
      (s.setReg CMIC_MIIM_CTRL MIIM_SET_READ).triggerRead t := rfl

theorem miimBus_write_setWrite :
    (miimBus t).write s CMIC_MIIM_CTRL MIIM_SET_WRITE =
      (s.setReg CMIC_MIIM_CTRL MIIM_SET_WRITE).triggerWrite t := rfl

theorem miimBus_seen_of_ne {off : ℕ} (h : off ≠ CMIC_MIIM_READ_DATA) :
    (miimBus t).seen s off = s := if_neg h

end Accesses

/-! ### What a thread has set up -/

/-- These selection registers have these values. -/
def Select.Agrees (sel : Select) (known : List (Target × BitVec 16)) : Prop :=
  ∀ p ∈ known, sel.get p.1 = some p.2

@[simp] theorem agrees_nil (sel : Select) : sel.Agrees [] ↔ True := by simp [Select.Agrees]

@[simp] theorem agrees_cons (sel : Select) (p : Target × BitVec 16)
    (known : List (Target × BitVec 16)) :
    sel.Agrees (p :: known) ↔ sel.get p.1 = some p.2 ∧ sel.Agrees known := List.forall_mem_cons

/-- The selection registers of a PHY that its access relies on, with these values. -/
def Knows (t : Thread) (phy : PhyAddr) (known : List (Target × BitVec 16)) (s : MiimBus) : Prop :=
  ∀ p ∈ known, (phy, p.1) ∈ (s.window t).relies ∧ (s.select phy).get p.1 = some p.2

/-- The caller has named its next transaction. -/
structure Named (t : Thread) (c : Call) (keeps : List Target) (known : List (Target × BitVec 16))
    (s : MiimBus) : Prop where
  call : (s.window t).call = c
  keeps : (s.window t).keeps = keeps
  knows : Knows t c.phy known s

/-- And has written its address. -/
structure Addressed (t : Thread) (c : Call) (keeps : List Target)
    (known : List (Target × BitVec 16)) (reg : BitVec 5) (s : MiimBus) : Prop
    extends Named t c keeps known s where
  open_address : (s.window t).address = true
  address : (s.reg CMIC_MIIM_ADDRESS).setWidth 5 = reg

/-- And its parameters. -/
structure Ready (t : Thread) (c : Call) (keeps : List Target) (known : List (Target × BitVec 16))
    (reg : BitVec 5) (s : MiimBus) : Prop extends Addressed t c keeps known reg s where
  open_param : (s.window t).param = true
  phy : s.paramPhy = c.phy
  data : ∀ d, c.data = some d → s.paramData = d

/-- It has triggered a read, of this value, and not fetched it. -/
structure Awaits (t : Thread) (value : BitVec 16) (s : MiimBus) : Prop where
  open_data : (s.window t).awaits = true
  data : (s.reg CMIC_MIIM_READ_DATA).setWidth 16 = value
  value : (s.window t).value = value

def Fetched (t : Thread) (value : BitVec 16) (s : MiimBus) : Prop := (s.window t).value = value

section Stability

variable {t : Thread} {c : Call} {keeps : List Target} {known : List (Target × BitVec 16)}

theorem stable_knows (phy : PhyAddr) : Stable (Others t) (Knows t phy known) := by
  intro s s' h hR p hp
  obtain ⟨hrelies, hget⟩ := h p hp
  refine ⟨?_, (hR.select (phy, p.1) hrelies).trans hget⟩
  rw [hR.window]
  exact hrelies

theorem stable_named : Stable (Others t) (Named t c keeps known) := by
  intro s s' h hR
  exact ⟨(congrArg _ hR.window).trans h.call, (congrArg _ hR.window).trans h.keeps,
    stable_knows c.phy s s' h.knows hR⟩

theorem stable_addressed (reg : BitVec 5) :
    Stable (Others t) (Addressed t c keeps known reg) := by
  intro s s' h hR
  refine ⟨stable_named s s' h.toNamed hR, (congrArg _ hR.window).trans h.open_address, ?_⟩
  rw [hR.address h.open_address, h.address]

theorem stable_ready (reg : BitVec 5) : Stable (Others t) (Ready t c keeps known reg) := by
  intro s s' h hR
  refine ⟨stable_addressed reg s s' h.toAddressed hR, (congrArg _ hR.window).trans h.open_param,
    (hR.phy h.open_param).trans h.phy, fun d hd => ?_⟩
  have hwrites : (s.window t).call.data.isSome = true := by rw [h.call, hd, Option.isSome_some]
  exact (hR.data h.open_param hwrites).trans (h.data d hd)

theorem stable_awaits (value : BitVec 16) : Stable (Others t) (Awaits t value) := by
  intro s s' h hR
  refine ⟨(congrArg _ hR.window).trans h.open_data, ?_, (congrArg _ hR.window).trans h.value⟩
  rw [hR.readData h.open_data]
  exact h.data

theorem stable_fetched (value : BitVec 16) : Stable (Others t) (Fetched t value) :=
  fun _ _ h hR => (congrArg _ hR.window).trans h

end Stability

/-! ### The parameter register -/

section Param

variable (phy : PhyAddr) (data : BitVec 16)

/-- The parameters of a transaction. -/
def paramOf : BitVec 32 :=
  miimParam (phy.phy.setWidth 32) (phy.bus.setWidth 32) ||| MIIM_PARAM_DATA (data.setWidth 32)

attribute [local simp] paramOf miimParam MIIM_PARAM_INTERNAL MIIM_PARAM_BUS_ID MIIM_PARAM_PHY
  MIIM_PARAM_DATA

theorem paramOf_bus : (paramOf phy data >>> 22).setWidth 3 = phy.bus := by
  ext i hi
  simp
  interval_cases i <;> simp

theorem paramOf_phy : (paramOf phy data >>> 16).setWidth 5 = phy.phy := by
  ext i hi
  simp
  interval_cases i <;> simp

theorem paramOf_data : (paramOf phy data).setWidth 16 = data := by
  ext i hi
  simp
  interval_cases i <;> simp

theorem paramOf_zero : miimParam (phy.phy.setWidth 32) (phy.bus.setWidth 32) = paramOf phy 0 := by
  simp

end Param

/-! ### The requests of a transaction -/

section Requests

variable {t : Thread} {c : Call} {keeps : List Target} {known : List (Target × BitVec 16)}
  {s : MiimBus}

/-- Clearing a bit of the control register changes nothing a thread has set up. -/
theorem wp_clr_bit {P : MiimBus → Prop} (hP : Stable (Others t) P)
    (hkeep : ∀ s v, P s → P (s.setReg CMIC_MIIM_CTRL v)) {v : BitVec 32}
    (hv : v.getLsbD 7 = false) (hs : P s) : BusWp t (fun _ => P) (bdeWrite CMIC_MIIM_CTRL v) s := by
  refine wp_write hP (fun s hs => ?_) hP hs
  rw [miimBus_write_clr s hv]
  exact ⟨honest_setReg s _ v, hkeep s v hs⟩

theorem wp_call (h : Knows t c.phy known s) :
    BusWp t (fun _ => Named t c keeps known) (mark (.call c keeps)) s := by
  refine wp_mark (stable_knows c.phy) (fun s h => ?_) stable_named h
  refine ⟨honest_setWindow s _, ?_, ?_, ?_⟩
  · exact congrArg Window.call (setWindow_window s _)
  · exact congrArg Window.keeps (setWindow_window s _)
  · intro p hp
    obtain ⟨hrelies, hget⟩ := h p hp
    refine ⟨?_, hget⟩
    rw [show ((miimBus t).event s (.call c keeps)).window t = _ from setWindow_window s _]
    exact hrelies

theorem Named.address (h : Named t c keeps known s) (reg : BitVec 5) {v : BitVec 32}
    (hv : v.setWidth 5 = reg) :
    Addressed t c keeps known reg ((miimBus t).write s CMIC_MIIM_ADDRESS v) := by
  have hreg : (s.setReg CMIC_MIIM_ADDRESS v).reg CMIC_MIIM_ADDRESS = v :=
    setReg_reg_self s (by decide) v
  rw [miimBus_write_address]
  constructor
  · constructor
    · simpa using h.call
    · simpa using h.keeps
    · simpa [Knows] using h.knows
  · simp
  · simp [hreg, hv]

theorem Addressed.param {reg : BitVec 5} (h : Addressed t c keeps known reg s) {data : BitVec 16}
    (hdata : ∀ d, c.data = some d → d = data) :
    Ready t c keeps known reg ((miimBus t).write s CMIC_MIIM_PARAM (paramOf c.phy data)) := by
  have hreg : (s.setReg CMIC_MIIM_PARAM (paramOf c.phy data)).reg CMIC_MIIM_PARAM =
      paramOf c.phy data := setReg_reg_self s (by decide) _
  have haddress : (s.setReg CMIC_MIIM_PARAM (paramOf c.phy data)).reg CMIC_MIIM_ADDRESS =
      s.reg CMIC_MIIM_ADDRESS := setReg_reg_of_ne s (by decide) _
  rw [miimBus_write_param]
  constructor
  · constructor
    · constructor
      · simpa using h.call
      · simpa using h.keeps
      · simpa [Knows] using h.knows
    · simpa using h.open_address
    · simpa [haddress] using h.address
  · simp
  · simp [MiimBus.paramPhy, hreg, paramOf_bus, paramOf_phy]
  · intro d hd
    simp [MiimBus.paramData, hreg, paramOf_data, hdata d hd]

/-- The registers and selections from which a transaction is executed. -/
theorem Ready.described {reg : BitVec 5} (h : Ready t c keeps known reg s)
    (hresolve : ∀ sel : Select, sel.Agrees known → sel.resolve reg = c.target) :
    s.paramPhy = c.phy ∧ s.target = c.target := by
  refine ⟨h.phy, ?_⟩
  rw [MiimBus.target, h.phy, h.address]
  exact hresolve _ fun p hp => (h.knows p hp).2

theorem honest_triggered {data : Option (BitVec 16)} (hphy : s.paramPhy = (s.window t).call.phy)
    (htarget : s.target = (s.window t).call.target) (hdata : data = (s.window t).call.data) :
    Honest t s (s.triggered t data) := by
  refine ⟨fun u hu => Function.update_of_ne hu _ _, fun u hu => Function.update_of_ne hu _ _, ?_⟩
  intro e he
  have hlog : (s.triggered t data).log t =
      s.log t ++ [.made (s.window t).call ⟨s.paramPhy, s.target, data⟩] := Function.update_self ..
  rw [hlog, List.mem_append, List.mem_singleton] at he
  refine he.imp_right ?_
  rintro rfl
  rw [Entry.Good, hphy, htarget, hdata]

theorem Ready.setCtrl {reg : BitVec 5} (h : Ready t c keeps known reg s) (v : BitVec 32) :
    Ready t c keeps known reg (s.setReg CMIC_MIIM_CTRL v) := by
  have haddress : (s.setReg CMIC_MIIM_CTRL v).reg CMIC_MIIM_ADDRESS = s.reg CMIC_MIIM_ADDRESS :=
    setReg_reg_of_ne s (by decide) v
  have hparam : (s.setReg CMIC_MIIM_CTRL v).reg CMIC_MIIM_PARAM = s.reg CMIC_MIIM_PARAM :=
    setReg_reg_of_ne s (by decide) v
  refine ⟨⟨⟨h.call, h.keeps, h.knows⟩, h.open_address, ?_⟩, h.open_param, ?_, fun d hd => ?_⟩
  · rw [haddress, h.address]
  · rw [MiimBus.paramPhy, hparam]
    exact h.phy
  · rw [MiimBus.paramData, hparam]
    exact h.data d hd

section Trigger

variable {reg : BitVec 5}
  (hresolve : ∀ sel : Select, sel.Agrees known → sel.resolve reg = c.target)
include hresolve

/-- A write reaches its target, and leaves the selection that the access goes on with. -/
theorem Ready.triggerWrite {known' : List (Target × BitVec 16)}
    (h : Ready t c (known'.map Prod.fst) known reg s) {d : BitVec 16} (hd : c.data = some d)
    (hselect : ∀ sel : Select, sel.Agrees known → (sel.write c.target d).Agrees known') :
    Honest t s (s.triggerWrite t) ∧ Knows t c.phy known' (s.triggerWrite t) := by
  obtain ⟨hphy, htarget⟩ := h.described hresolve
  have hdata : s.paramData = d := h.data d hd
  have hhonest : Honest t s (s.triggered t (some s.paramData)) := by
    refine honest_triggered ?_ ?_ ?_
    · rw [hphy, h.call]
    · rw [htarget, h.call]
    · rw [hdata, h.call, hd]
  refine ⟨⟨hhonest.window, hhonest.log, hhonest.good⟩, fun p hp => ⟨?_, ?_⟩⟩
  · have hrelies : ((s.triggerWrite t).window t).relies =
        (s.window t).keeps.map fun r => ((s.window t).call.phy, r) := by
      simp [MiimBus.triggerWrite, MiimBus.triggered]
    rw [hrelies, h.keeps, h.call]
    exact List.mem_map.mpr ⟨p.1, List.mem_map_of_mem hp, rfl⟩
  · have hsel : (s.triggerWrite t).select c.phy = (s.select c.phy).write c.target d := by
      simp [MiimBus.triggerWrite, hphy, htarget, hdata]
    rw [hsel]
    exact hselect _ (fun p hp => (h.knows p hp).2) p hp

/-- A read reaches its target, and its value waits to be fetched. -/
theorem Ready.triggerRead (h : Ready t c keeps known reg s) (hd : c.data = none) :
    Honest t s (s.triggerRead t) ∧ ∃ value, Awaits t value (s.triggerRead t) := by
  obtain ⟨hphy, htarget⟩ := h.described hresolve
  have hhonest : Honest t s (s.triggered t none) := by
    refine honest_triggered ?_ ?_ ?_
    · rw [hphy, h.call]
    · rw [htarget, h.call]
    · rw [h.call, hd]
  refine ⟨⟨hhonest.window, hhonest.log, hhonest.good⟩, s.held c.phy c.target, ?_, ?_, ?_⟩
  · simp [MiimBus.triggerRead, MiimBus.triggered]
  · simp [MiimBus.triggerRead, hphy, htarget]
  · simp [MiimBus.triggerRead, MiimBus.triggered, h.call]

end Trigger

/-! ### The polls -/

theorem wp_bdeRead_ctrl {P : MiimBus → Prop} (hP : Stable (Others t) P) (hs : P s) :
    BusWp t (fun _ => P) (bdeRead CMIC_MIIM_CTRL) s := by
  refine wp_read hP (fun s hs => ?_) (fun _ => hP) hs
  rw [miimBus_seen_of_ne s (by decide)]
  exact ⟨honest_of_same (fun _ _ => rfl) rfl, hs⟩

theorem wp_miimWritePoll_keeps {P : MiimBus → Prop} (hP : Stable (Others t) P)
    (hkeep : ∀ s v, P s → P (s.setReg CMIC_MIIM_CTRL v)) (polls : ℕ) (hs : P s) :
    BusWp t (fun _ => P) (miimWritePoll polls) s := by
  have hpure {rc : Rc Unit} {s : MiimBus} (hs : P s) : BusWp t (fun _ => P) (pure rc) s :=
    wp_pure (Q := fun _ => P) hP hs
  induction polls generalizing s with
  | zero => exact wp_seq (wp_clr_bit hP hkeep (by decide) hs) fun _ s hs => hpure hs
  | succ polls ih =>
    refine wp_seq (wp_bdeRead_ctrl hP hs) fun ctrl s hs => ?_
    split_ifs
    · exact wp_seq (wp_clr_bit hP hkeep (by decide) hs) fun _ s hs => hpure hs
    · exact ih hs

/-- What `miim_read` returns with 0 is the value of its own transaction. -/
def Delivers (t : Thread) (rc : Rc (BitVec 16)) (s : MiimBus) : Prop :=
  ∀ data, rc = .ok data → Fetched t data s

theorem stable_delivers (rc : Rc (BitVec 16)) : Stable (Others t) (Delivers t rc) :=
  fun s s' h hR data hdata => stable_fetched data s s' (h data hdata) hR

theorem wp_fetch {value : BitVec 16} (hs : Awaits t value s) :
    BusWp t (fun data s => Fetched t value s ∧ data.setWidth 16 = value)
      (bdeRead CMIC_MIIM_READ_DATA) s := by
  refine wp_read (stable_awaits value) (fun s hs => ?_) (fun data s s' h hR => ?_) hs
  · refine ⟨honest_setWindow s _, ?_, hs.data⟩
    exact (congrArg Window.value (setWindow_window s _)).trans hs.value
  · exact ⟨stable_fetched value s s' h.1 hR, h.2⟩

theorem wp_miimReadPoll_delivers {value : BitVec 16} (polls : ℕ) (hs : Awaits t value s) :
    BusWp t (Delivers t) (miimReadPoll polls) s := by
  induction polls generalizing s with
  | zero =>
    have hfail (rc : Errno) (s : MiimBus) : Delivers t (.error rc) s := fun data h => by cases h
    have hclr : BusWp t (fun _ _ => True) (bdeWrite CMIC_MIIM_CTRL MIIM_CLR_READ) s :=
      wp_clr_bit (fun _ _ _ _ => trivial) (fun _ _ _ => trivial) (by decide) trivial
    exact wp_seq hclr fun _ s _ => wp_pure (stable_delivers _) (hfail _ s)
  | succ polls ih =>
    refine wp_seq (wp_bdeRead_ctrl (stable_awaits value) hs) fun ctrl s hs => ?_
    split_ifs
    · refine wp_seq (wp_fetch hs) fun data s ⟨hs, hdata⟩ => ?_
      have hclr : BusWp t (fun _ => Fetched t value) (bdeWrite CMIC_MIIM_CTRL MIIM_CLR_DONE) s :=
        wp_clr_bit (stable_fetched value) (fun _ _ h => h) (by decide) hs
      refine wp_seq hclr fun _ s hs => wp_pure (stable_delivers _) ?_
      rintro _ ⟨⟩
      exact hdata ▸ hs
    · exact ih hs

theorem honest_returned {rc : Rc (BitVec 16)} (hs : Delivers t rc s) :
    Honest t s ((miimBus t).event s (.returned rc)) := by
  have hwindow (s : MiimBus) : Honest t s (s.setWindow t { s.window t with awaits := false }) :=
    honest_setWindow s _
  cases rc with
  | error e => exact hwindow s
  | ok data =>
    refine ⟨fun u hu => setWindow_window_of_ne _ hu _, fun u hu => Function.update_of_ne hu _ _, ?_⟩
    intro e he
    have hlog : ((miimBus t).event s (.returned (.ok data))).log t =
        s.log t ++ [.returned (s.window t).value data] := Function.update_self ..
    rw [hlog, List.mem_append, List.mem_singleton] at he
    refine he.imp_right ?_
    rintro rfl
    exact (hs data rfl).symm

/-- The requests up to the trigger, for either direction. -/
theorem wp_setup (clr : BitVec 32) (hclr : clr.getLsbD 7 = false) (reg : BitVec 32)
    (data : BitVec 16) {phy : PhyAddr} {target : Target} {written : Option (BitVec 16)}
    (hdata : ∀ d, written = some d → d = data) {α : Type} {Q : α → MiimBus → Prop}
    {p : Reg MiimEvent α}
    (hp : ∀ s, Ready t ⟨phy, target, written⟩ keeps known (reg.setWidth 5) s → BusWp t Q p s)
    (hs : Named t ⟨phy, target, written⟩ keeps known s) : BusWp t Q (do
      bdeWrite CMIC_MIIM_CTRL clr
      bdeWrite CMIC_MIIM_CTRL MIIM_CLR_DONE
      bdeWrite CMIC_MIIM_ADDRESS (reg &&& 0x1f)
      bdeWrite CMIC_MIIM_PARAM (paramOf phy data)
      p) s := by
  have hkeep {v : BitVec 32} (hv : v.getLsbD 7 = false) {s : MiimBus}
      (hs : Named t ⟨phy, target, written⟩ keeps known s) :
      BusWp t (fun _ => Named t ⟨phy, target, written⟩ keeps known) (bdeWrite CMIC_MIIM_CTRL v) s :=
    wp_clr_bit stable_named (fun _ _ h => ⟨h.call, h.keeps, h.knows⟩) hv hs
  have hreg : (reg &&& 0x1f).setWidth 5 = reg.setWidth 5 := by
    ext i hi
    simp only [BitVec.getElem_setWidth, BitVec.getLsbD_and]
    interval_cases i <;> simp
  have haddress {s : MiimBus} (hs : Named t ⟨phy, target, written⟩ keeps known s) :
      BusWp t (fun _ => Addressed t ⟨phy, target, written⟩ keeps known (reg.setWidth 5))
        (bdeWrite CMIC_MIIM_ADDRESS (reg &&& 0x1f)) s := by
    refine wp_write stable_named (fun s hs => ⟨?_, hs.address _ hreg⟩) (stable_addressed _) hs
    rw [miimBus_write_address]
    exact honest_of_same (fun u hu => setWindow_window_of_ne _ hu _) rfl
  have hparam {s : MiimBus}
      (hs : Addressed t ⟨phy, target, written⟩ keeps known (reg.setWidth 5) s) :
      BusWp t (fun _ => Ready t ⟨phy, target, written⟩ keeps known (reg.setWidth 5))
        (bdeWrite CMIC_MIIM_PARAM (paramOf phy data)) s := by
    refine wp_write (stable_addressed _) (fun s hs => ⟨?_, hs.param hdata⟩) (stable_ready _) hs
    rw [miimBus_write_param]
    exact honest_of_same (fun u hu => setWindow_window_of_ne _ hu _) rfl
  refine wp_seq (hkeep hclr hs) fun _ s hs => wp_seq (hkeep (by decide) hs) fun _ s hs => ?_
  exact wp_seq (haddress hs) fun _ s hs => wp_seq (hparam hs) fun _ s hs => hp s hs

end Requests

/-! ### Named transactions -/

theorem miimWrite_eq (phy : PhyAddr) (reg : BitVec 32) (data : BitVec 16) :
    miimWrite (E := MiimEvent) (phy.phy.setWidth 32) (phy.bus.setWidth 32) reg data = (do
      bdeWrite CMIC_MIIM_CTRL MIIM_CLR_WRITE
      bdeWrite CMIC_MIIM_CTRL MIIM_CLR_DONE
      bdeWrite CMIC_MIIM_ADDRESS (reg &&& 0x1f)
      bdeWrite CMIC_MIIM_PARAM (paramOf phy data)
      bdeWrite CMIC_MIIM_CTRL MIIM_SET_WRITE
      miimWritePoll MIIM_POLL_MAX) := by
  simp only [miimWrite, paramOf]

theorem miimRead_eq (phy : PhyAddr) (reg : BitVec 32) :
    miimRead (E := MiimEvent) (phy.phy.setWidth 32) (phy.bus.setWidth 32) reg = (do
      bdeWrite CMIC_MIIM_CTRL MIIM_CLR_READ
      bdeWrite CMIC_MIIM_CTRL MIIM_CLR_DONE
      bdeWrite CMIC_MIIM_ADDRESS (reg &&& 0x1f)
      bdeWrite CMIC_MIIM_PARAM (paramOf phy 0)
      bdeWrite CMIC_MIIM_CTRL MIIM_SET_READ
      miimReadPoll MIIM_POLL_MAX) := by
  simp only [miimRead, paramOf_zero]

section Transactions

variable {t : Thread} {phy : PhyAddr} {target : Target} {known : List (Target × BitVec 16)}
  {reg : BitVec 32}
  (hresolve : ∀ sel : Select, sel.Agrees known → sel.resolve (reg.setWidth 5) = target)
include hresolve

/-- From the selection it relies on, a write reaches its target and leaves the
selection for what follows. -/
theorem wp_miimWriteTo {known' : List (Target × BitVec 16)} {data : BitVec 16}
    (hselect : ∀ sel : Select, sel.Agrees known → (sel.write target data).Agrees known')
    {s : MiimBus} (hs : Knows t phy known s) :
    BusWp t (fun _ => Knows t phy known')
      (miimWriteTo phy target (known'.map Prod.fst) reg data) s := by
  have hset {s : MiimBus} (hs : Ready t ⟨phy, target, some data⟩ (known'.map Prod.fst) known
      (reg.setWidth 5) s) :
      BusWp t (fun _ => Knows t phy known') (bdeWrite CMIC_MIIM_CTRL MIIM_SET_WRITE) s := by
    refine wp_write (stable_ready _) (fun s hs => ?_) (stable_knows phy) hs
    rw [miimBus_write_setWrite]
    obtain ⟨hhonest, hknows⟩ := (hs.setCtrl MIIM_SET_WRITE).triggerWrite hresolve rfl hselect
    exact ⟨⟨hhonest.window, hhonest.log, hhonest.good⟩, hknows⟩
  have hpoll {s : MiimBus} (hs : Knows t phy known' s) :
      BusWp t (fun _ => Knows t phy known') (miimWritePoll MIIM_POLL_MAX) s :=
    wp_miimWritePoll_keeps (stable_knows phy) (fun _ _ h => h) MIIM_POLL_MAX hs
  refine wp_seq (wp_call (c := ⟨phy, target, some data⟩) hs) fun _ s hs => ?_
  have hdata (d : BitVec 16) (hd : some data = some d) : d = data := (Option.some.inj hd).symm
  rw [miimWrite_eq]
  exact wp_setup MIIM_CLR_WRITE (by decide) reg data hdata
    (fun s hs => wp_seq (hset hs) fun _ s hs => hpoll hs) hs

/-- From the selection it relies on, a read reaches its target and delivers its value. -/
theorem wp_miimReadFrom {s : MiimBus} (hs : Knows t phy known s) :
    BusWp t (fun _ _ => True) (miimReadFrom phy target reg) s := by
  have hset {s : MiimBus} (hs : Ready t ⟨phy, target, none⟩ [] known (reg.setWidth 5) s) :
      BusWp t (fun _ s => ∃ value, Awaits t value s) (bdeWrite CMIC_MIIM_CTRL MIIM_SET_READ) s := by
    refine wp_write (stable_ready _) (fun s hs => ?_) ?_ hs
    · rw [miimBus_write_setRead]
      obtain ⟨hhonest, hawaits⟩ := (hs.setCtrl MIIM_SET_READ).triggerRead hresolve rfl
      exact ⟨⟨hhonest.window, hhonest.log, hhonest.good⟩, hawaits⟩
    · rintro s s' ⟨value, h⟩ hR
      exact ⟨value, stable_awaits value s s' h hR⟩
  have hret {rc : Rc (BitVec 16)} {s : MiimBus} (hs : Delivers t rc s) :
      BusWp t (fun _ _ => True) (mark (.returned rc)) s := by
    exact wp_mark (stable_delivers rc) (fun s hs => ⟨honest_returned hs, trivial⟩)
      (fun _ _ _ _ => trivial) hs
  have hpoll {s : MiimBus} (hs : ∃ value, Awaits t value s) :
      BusWp t (Delivers t) (miimReadPoll MIIM_POLL_MAX) s := by
    obtain ⟨value, hs⟩ := hs
    exact wp_miimReadPoll_delivers MIIM_POLL_MAX hs
  refine wp_seq (wp_call (c := ⟨phy, target, none⟩) hs) fun _ s hs => ?_
  have hdata (d : BitVec 16) (hd : none = some d) : d = 0 := by cases hd
  have hread : BusWp t (Delivers t) (miimRead (phy.phy.setWidth 32) (phy.bus.setWidth 32) reg)
      s := by
    rw [miimRead_eq]
    exact wp_setup MIIM_CLR_READ (by decide) reg 0 hdata
      (fun s hs => wp_seq (hset hs) fun _ s hs => hpoll hs) hs
  refine wp_seq hread fun rc s hs => wp_seq (hret hs) fun _ s _ => ?_
  exact wp_pure (fun _ _ _ _ => trivial) trivial

end Transactions

end OpenNos.Sdk
