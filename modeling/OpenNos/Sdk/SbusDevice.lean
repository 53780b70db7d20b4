import OpenNos.Sdk.InitDatapath
import OpenNos.Sdk.SocScript

/-! The chip behind the operations of `sbus.c` and the registers of BAR0, with a pattern
of failures. An operation that fails may have had its effect all the same; an operation
that succeeds reads what the chip holds and writes what it is given. -/

namespace OpenNos.Sdk

open Bits OpProg

/-- A register of BAR0, or one behind the S-Channel. -/
inductive SocReg
  | bde (offset : BitVec 32)
  | sbus (addr : BitVec 32)
  deriving DecidableEq

/-- How an operation ends: well, with an error and without effect, or with an error
although it has taken effect. -/
inductive Outcome
  | ok
  | lost
  | unconfirmed
  deriving DecidableEq

structure SocDev where
  reg : SocReg → Words
  mem : BitVec 32 → ℕ → Words
  /-- the operations to come -/
  outcome : ℕ → Outcome
  /-- how many writes have taken effect -/
  writes : ℕ

namespace SocDev

variable (d : SocDev)

/-- One operation has been used up. -/
def next : SocDev := { d with outcome := fun n => d.outcome (n + 1) }

def readReg (r : SocReg) : SocDev × Option Words :=
  (d.next, if d.outcome 0 = .ok then some (d.reg r) else none)

/-- The first `n` words of a register are replaced. -/
def writeReg (r : SocReg) (w : Words) (n : ℕ) : SocDev × Option Words :=
  (if d.outcome 0 = .lost then d.next
    else { d.next with
      reg := Function.update d.reg r (splice n w (d.reg r))
      writes := d.writes + 1 },
    if d.outcome 0 = .ok then some fun _ => 0 else none)

def readMem (addr : BitVec 32) (i : ℕ) : SocDev × Option Words :=
  (d.next, if d.outcome 0 = .ok then some (d.mem addr i) else none)

/-- The first `n` words of a table entry are replaced. -/
def writeMem (addr : BitVec 32) (i : ℕ) (w : Words) (n : ℕ) : SocDev × Option Words :=
  (if d.outcome 0 = .lost then d.next
    else { d.next with
      mem := Function.update d.mem addr
        (Function.update (d.mem addr) i (splice n w (d.mem addr i)))
      writes := d.writes + 1 },
    if d.outcome 0 = .ok then some fun _ => 0 else none)

/-- An operation of `sbus.c`. -/
def sbusStep : SbusOp → SocDev × Option Words
  | .regRead addr | .regRead64 addr => d.readReg (.sbus addr)
  | .regWrite addr value => d.writeReg (.sbus addr) (fun _ => value) 1
  | .regWrite64 addr data => d.writeReg (.sbus addr) data 2
  | .memRead addr i _ => d.readMem addr i
  | .memWrite addr i data n => d.writeMem addr i data n

end SocDev

/-! ### Access from scripts -/

/-- An operation of `sbus.c`, or an access to a register of BAR0. -/
inductive SocOp
  | bdeRead (offset : BitVec 32)
  | bdeWrite (offset value : BitVec 32)
  | sbus (o : SbusOp)

def SocDev.step (d : SocDev) : SocOp → SocDev × Option Words
  | .bdeRead offset => d.readReg (.bde offset)
  | .bdeWrite offset value => d.writeReg (.bde offset) (fun _ => value) 1
  | .sbus o => d.sbusStep o

abbrev SocProg := OpProg SocOp (Option Words)

/-- The register behind an address of a script. -/
def socReg (addr : BitVec 32) : SocReg := if addr < CMIC_BAR0_SIZE then .bde addr else .sbus addr

def socReadReg (addr : BitVec 32) : SocProg (Option (BitVec 32)) := do
  let reply ← perform (if addr < CMIC_BAR0_SIZE then .bdeRead addr else .sbus (.regRead addr))
  return reply.map fun w => w 0

def SocWrite.op : SocWrite → SocOp
  | .bde offset value => .bdeWrite offset value
  | .sbus addr value => .sbus (.regWrite addr value)

/-- Whether the write returns 0. -/
def SocWrite.run (w : SocWrite) : SocProg Bool := do
  let reply ← perform w.op
  return reply.isSome

variable {d : SocDev}

theorem socReadReg_runOn (addr : BitVec 32) : (socReadReg addr).runOn SocDev.step d =
    (if d.outcome 0 = .ok then some (d.reg (socReg addr) 0) else none, d.next) := by
  rw [socReadReg, runOn_bind, runOn_perform, runOn_pure, socReg]
  by_cases hbar : addr < CMIC_BAR0_SIZE <;> by_cases hok : d.outcome 0 = .ok <;>
    simp [hbar, hok, SocDev.step, SocDev.sbusStep, SocDev.readReg]

theorem socWriteReg_runOn (addr value : BitVec 32) :
    ((socWriteReg addr value).run.runOn SocDev.step d).2 =
      (d.writeReg (socReg addr) (fun _ => value) 1).1 := by
  rw [SocWrite.run, runOn_bind, runOn_perform, runOn_pure, socWriteReg, socReg]
  by_cases hbar : addr < CMIC_BAR0_SIZE
  · rw [if_pos hbar, if_pos hbar]
    rfl
  · rw [if_neg hbar, if_neg hbar]
    rfl

/-! ### A register whose content is replaced in part -/

/-- The bits of `prior` under the mask have been replaced by those of `value`. -/
def Replaced (mask value prior after : BitVec 32) : Prop :=
  ∀ i < 32, after.getLsbD i = if mask.getLsbD i then value.getLsbD i else prior.getLsbD i

/-- A step from `d` to `d'` leaves the register alone or replaces the bits under the mask,
leaves everything else alone, and writes nothing if its first operation, the read of the
register, fails. -/
structure OnlyField (r : SocReg) (mask value : BitVec 32) (d d' : SocDev) : Prop where
  field : d'.reg r 0 = d.reg r 0 ∨ Replaced mask value (d.reg r 0) (d'.reg r 0)
  others : d'.mem = d.mem ∧ ∀ r' j, r' ≠ r ∨ j ≠ 0 → d'.reg r' j = d.reg r' j
  readFailed : d.outcome 0 ≠ .ok → d'.writes = d.writes

theorem replaced_masked (mask value prior : BitVec 32) :
    Replaced mask value prior ((prior &&& ~~~mask) ||| (value &&& mask)) := by
  intro i hi
  simp only [BitVec.getLsbD_or, BitVec.getLsbD_and, BitVec.getLsbD_not, hi, decide_true,
    Bool.true_and]
  cases mask.getLsbD i <;> simp

theorem replaced_congr {mask value value' prior after : BitVec 32}
    (h : Replaced mask value prior after) :
    Replaced mask value' prior after ↔ value &&& mask = value' &&& mask := by
  constructor
  · intro h'
    apply BitVec.eq_of_getLsbD_eq
    intro i hi
    rw [BitVec.getLsbD_and, BitVec.getLsbD_and]
    have := (h i hi).symm.trans (h' i hi)
    cases hm : mask.getLsbD i
    · simp
    · simpa [hm] using this
  · intro heq i hi
    rw [h i hi]
    by_cases hm : mask.getLsbD i = true
    · have := congrArg (fun x : BitVec 32 => x.getLsbD i) heq
      simp only [BitVec.getLsbD_and, hm, Bool.and_true] at this
      rw [if_pos hm, if_pos hm, this]
    · rw [if_neg hm, if_neg hm]

/-- A replacement changes nothing if the bits were there. -/
theorem replaced_eq_iff {mask value prior after : BitVec 32}
    (h : Replaced mask value prior after) :
    after = prior ↔ value &&& mask = prior &&& mask := by
  have hself : after = prior ↔ Replaced mask prior prior after := by
    constructor
    · rintro rfl i -
      exact (ite_self _).symm
    · intro hrep
      apply BitVec.eq_of_getLsbD_eq
      intro i hi
      rw [hrep i hi, ite_self]
  rw [hself, replaced_congr h]

/-- A read and the write of `x`, whatever came of the read. -/
theorem onlyField_writeReg_iff {r : SocReg} {mask value x : BitVec 32} :
    OnlyField r mask value d (d.next.writeReg r (fun _ => x) 1).1 ↔
      d.outcome 1 = .lost ∨ d.outcome 0 = .ok ∧
        (x = d.reg r 0 ∨ Replaced mask value (d.reg r 0) x) := by
  rw [SocDev.writeReg]
  by_cases hlost : d.outcome 1 = .lost
  · have hnext : d.next.outcome 0 = .lost := hlost
    rw [if_pos hnext]
    exact iff_of_true ⟨.inl rfl, ⟨rfl, fun _ _ _ => rfl⟩, fun _ => rfl⟩ (.inl hlost)
  · have hnext : d.next.outcome 0 ≠ .lost := hlost
    have hself : Function.update d.next.reg r (splice 1 (fun _ => x) (d.next.reg r)) r 0 = x := by
      simp [splice]
    rw [if_neg hnext, or_iff_right hlost]
    constructor
    · rintro ⟨hfield, -, hfailed⟩
      refine ⟨?_, hself ▸ hfield⟩
      by_contra hne
      exact absurd (hfailed hne) (Nat.succ_ne_self _)
    · rintro ⟨hok, hx⟩
      refine ⟨?_, ⟨rfl, fun r' j hne => ?_⟩, fun hne => absurd hok hne⟩
      · dsimp only
        rwa [hself]
      · by_cases hr : r' = r
        · subst hr
          have hj : ¬ j < 1 := by
            rcases hne with hne | hne
            · exact absurd rfl hne
            · omega
          simp [splice, SocDev.next, hj]
        · simp [SocDev.next, Function.update_of_ne hr]

/-- `sbus_reg_modify` changes only the bits under its mask, and nothing if it cannot read
the register. -/
theorem sbusRegModify_onlyField (addr mask value : BitVec 32) (d : SocDev) :
    OnlyField (.sbus addr) mask value d
      ((sbusRegModify addr mask value).runOn SocDev.sbusStep d).2 := by
  rw [sbusRegModify, runOn_bind, runOn_perform]
  by_cases hok : d.outcome 0 = .ok
  · have hread : (d.sbusStep (.regRead addr)).2 = some (d.reg (.sbus addr)) := if_pos hok
    rw [hread]
    exact onlyField_writeReg_iff.mpr (.inr ⟨hok, .inr (replaced_masked mask value _)⟩)
  · have hread : (d.sbusStep (.regRead addr)).2 = none := if_neg hok
    rw [hread]
    exact ⟨.inl rfl, ⟨rfl, fun _ _ _ => rfl⟩, fun _ => rfl⟩

end OpenNos.Sdk
