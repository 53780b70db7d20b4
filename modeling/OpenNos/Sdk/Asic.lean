import OpenNos.Lib.Bits
import OpenNos.Lib.Errno

/-! The chip as the table code of the SDK sees it through `sbus.c`: every table
is its entries by index, every register its value, and `fault` tells which of
the S-Channel operations still to come fail. A failing operation has no effect.
How a table write travels as a message is the subject of `Bde/Message.lean`;
here the transport is ideal except for the faults. -/

namespace OpenNos.Sdk

open Bits

structure Asic where
  /-- entry `index` of the table at a base address -/
  mem : BitVec 32 → ℕ → Words
  reg : BitVec 32 → BitVec 32
  fault : ℕ → Bool

namespace Asic

/-- Every entry and register zero, no fault to come. -/
def blank : Asic where
  mem := fun _ _ _ => 0#32
  reg := fun _ => 0#32
  fault := fun _ => false

/-- The same, but operation `k` fails. -/
def failing (k : ℕ) : Asic := { blank with fault := fun n => n == k }

/-- One S-Channel operation has been used up. -/
def tick (a : Asic) : Asic := { a with fault := fun n => a.fault (n + 1) }

/-- The first `nwords` words of an entry are replaced. -/
def store (a : Asic) (base : BitVec 32) (index : ℕ) (w : Words) (nwords : ℕ) : Asic :=
  let table := Function.update (a.mem base) index (splice nwords w (a.mem base index))
  { a with mem := Function.update a.mem base table }

/-- `sbus_mem_write`; `true` is the return value 0. -/
def memWrite (a : Asic) (base : BitVec 32) (index : ℕ) (w : Words) (nwords : ℕ) : Asic × Bool :=
  if a.fault 0 then (a.tick, false) else (a.tick.store base index w nwords, true)

/-- `sbus_mem_read`. -/
def memRead (a : Asic) (base : BitVec 32) (index : ℕ) : Asic × Option Words :=
  if a.fault 0 then (a.tick, none) else (a.tick, some (a.mem base index))

/-- `sbus_reg_write`. -/
def regWrite (a : Asic) (addr value : BitVec 32) : Asic × Bool :=
  if a.fault 0 then (a.tick, false)
  else ({ a.tick with reg := Function.update a.reg addr value }, true)

/-- `sbus_reg_read`. -/
def regRead (a : Asic) (addr : BitVec 32) : Asic × Option (BitVec 32) :=
  if a.fault 0 then (a.tick, none) else (a.tick, some (a.reg addr))

/-- No operation fails. -/
def FaultFree (a : Asic) : Prop := ∀ n, a.fault n = false

variable {a : Asic}

theorem blank_faultFree : blank.FaultFree := fun _ => rfl

@[simp] theorem tick_mem (a : Asic) : a.tick.mem = a.mem := rfl

theorem FaultFree.tick (h : a.FaultFree) : a.tick = a := by
  cases a with
  | mk mem reg fault =>
    simp only [Asic.tick, Asic.mk.injEq, true_and]
    funext n
    exact (h (n + 1)).trans (h n).symm

theorem FaultFree.memWrite (h : a.FaultFree) (base : BitVec 32) (index : ℕ) (w : Words)
    (nwords : ℕ) : a.memWrite base index w nwords = (a.store base index w nwords, true) := by
  rw [Asic.memWrite, if_neg (by simp [h 0]), h.tick]

theorem memWrite_of_fault (h : a.fault 0 = true) (base : BitVec 32) (index : ℕ) (w : Words)
    (nwords : ℕ) : a.memWrite base index w nwords = (a.tick, false) := if_pos h

theorem memWrite_of_not_fault (h : a.fault 0 = false) (base : BitVec 32) (index : ℕ) (w : Words)
    (nwords : ℕ) : a.memWrite base index w nwords = (a.tick.store base index w nwords, true) :=
  if_neg (by simp [h])

theorem FaultFree.memRead (h : a.FaultFree) (base : BitVec 32) (index : ℕ) :
    a.memRead base index = (a, some (a.mem base index)) := by
  rw [Asic.memRead, if_neg (by simp [h 0]), h.tick]

theorem FaultFree.store (h : a.FaultFree) (base : BitVec 32) (index : ℕ) (w : Words)
    (nwords : ℕ) : (a.store base index w nwords).FaultFree := h

theorem store_mem_self (base : BitVec 32) (index : ℕ) (w : Words) (nwords : ℕ) :
    (a.store base index w nwords).mem base index = splice nwords w (a.mem base index) := by
  simp [Asic.store]

theorem store_mem_of_ne {base base' : BitVec 32} {index index' : ℕ} (w : Words) (nwords : ℕ)
    (h : base' ≠ base ∨ index' ≠ index) :
    (a.store base index w nwords).mem base' index' = a.mem base' index' := by
  rcases eq_or_ne base' base with rfl | hb
  · simp [Asic.store, h.resolve_left (fun h => h rfl)]
  · simp [Asic.store, hb]

theorem regWrite_mem (addr value : BitVec 32) : (a.regWrite addr value).1.mem = a.mem := by
  unfold Asic.regWrite
  split <;> rfl

theorem FaultFree.regWrite (h : a.FaultFree) (addr value : BitVec 32) :
    (a.regWrite addr value).1.FaultFree := by
  rw [Asic.regWrite, if_neg (by simp [h 0]), h.tick]
  exact h

/-- A write leaves the other tables. -/
theorem store_mem_base {base base' : BitVec 32} (h : base' ≠ base) (index : ℕ) (w : Words)
    (nwords : ℕ) : (a.store base index w nwords).mem base' = a.mem base' := by
  funext i
  exact store_mem_of_ne w nwords (.inl h)

@[simp] theorem store_reg (base : BitVec 32) (index : ℕ) (w : Words) (nwords : ℕ) :
    (a.store base index w nwords).reg = a.reg := rfl

@[simp] theorem store_fault (base : BitVec 32) (index : ℕ) (w : Words) (nwords : ℕ) :
    (a.store base index w nwords).fault = a.fault := rfl

/-- A write, failing or not, leaves the other entries. -/
theorem memWrite_mem_of_ne {base base' : BitVec 32} {index index' : ℕ} (w : Words) (nwords : ℕ)
    (h : base' ≠ base ∨ index' ≠ index) :
    (a.memWrite base index w nwords).1.mem base' index' = a.mem base' index' := by
  cases hf : a.fault 0 with
  | true =>
    rw [memWrite_of_fault hf]
    rfl
  | false =>
    rw [memWrite_of_not_fault hf]
    exact store_mem_of_ne w nwords h

/-- The first `n` words of the entry are these. -/
def Holds (a : Asic) (base : BitVec 32) (i n : ℕ) (w : Words) : Prop :=
  ∀ j < n, a.mem base i j = w j

theorem holds_store_self (base : BitVec 32) (i n : ℕ) (w : Words) :
    (a.store base i w n).Holds base i n w := by
  intro j hj
  rw [store_mem_self, splice, if_pos hj]

@[simp] theorem holds_tick (base : BitVec 32) (i n : ℕ) (w : Words) :
    a.tick.Holds base i n w ↔ a.Holds base i n w := Iff.rfl

theorem holds_store_of_ne {base base' : BitVec 32} {i i' n : ℕ} {w w' : Words} (n' : ℕ)
    (h : base' ≠ base ∨ i' ≠ i) :
    (a.store base i w n').Holds base' i' n w' ↔ a.Holds base' i' n w' := by
  simp only [Holds, store_mem_of_ne w n' h]

theorem Holds.bit_eq {base : BitVec 32} {i n b : ℕ} {w : Words} (h : a.Holds base i n w)
    (hb : b < 32 * n) : bit (a.mem base i) b = bit w b := by
  rw [bit, bit, h (b / 32) (by omega)]

theorem Holds.field_eq {base : BitVec 32} {i n start width : ℕ} {w : Words}
    (h : a.Holds base i n w) (hb : start + width ≤ 32 * n) :
    field (a.mem base i) start width = field w start width :=
  field_congr fun _ hk => h.bit_eq (by omega)

end Asic

/-! ### MAC addresses -/

/-- `uint8_t mac[6]`. -/
abbrev Mac := Vector (BitVec 8) 6

def mac48ToU64 (mac : Mac) : BitVec 64 :=
  (mac[0].setWidth 64 <<< 40) ||| (mac[1].setWidth 64 <<< 32) ||| (mac[2].setWidth 64 <<< 24) |||
    (mac[3].setWidth 64 <<< 16) ||| (mac[4].setWidth 64 <<< 8) ||| mac[5].setWidth 64

/-- Byte `i` of the address is byte `5 - i` of the number. -/
theorem getLsbD_mac48ToU64 (mac : Mac) (i j : ℕ) (hi : i < 6) (hj : j < 8) :
    (mac48ToU64 mac).getLsbD (8 * (5 - i) + j) = (mac[i]).getLsbD j := by
  have hge (x : BitVec 8) (k : ℕ) (hk : 8 ≤ k) : x.getLsbD k = false := BitVec.getLsbD_of_ge x k hk
  simp only [mac48ToU64, BitVec.getLsbD_or, BitVec.getLsbD_shiftLeft, BitVec.getLsbD_setWidth]
  interval_cases i <;> interval_cases j <;> simp

/-- The 48-bit number a table field holds for the address. -/
def Mac.u48 (mac : Mac) : BitVec 48 := (mac48ToU64 mac).setWidth 48

/-- A table field tells any two addresses apart. -/
theorem Mac.u48_injective : Function.Injective Mac.u48 := by
  intro m m' h
  apply Vector.ext
  intro i hi
  apply BitVec.eq_of_getLsbD_eq
  intro j hj
  have hb := congrArg (fun x => x.getLsbD (8 * (5 - i) + j)) h
  simpa only [Mac.u48, BitVec.getLsbD_setWidth, show 8 * (5 - i) + j < 48 by omega, decide_true,
    Bool.true_and, getLsbD_mac48ToU64 _ i j hi hj] using hb

end OpenNos.Sdk
