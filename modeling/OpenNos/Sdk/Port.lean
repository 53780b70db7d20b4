import OpenNos.Sdk.L3

/-! Administrative enable of the front-panel ports (`port.c`). The SerDes
initialisation that follows an enable works on MIIM registers only and touches
nothing of the state here. -/

namespace OpenNos.Sdk

def XLPORT_PORT_ENABLE_OFF : BitVec 32 := 0x80000 + 0x22a

/-- The base addresses of the XLPORT blocks, twelve of four lanes and four of one. -/
def xlportBlocks : List (BitVec 32) :=
  [0x40a00000, 0x40b00000, 0x00b00000, 0x00c00000, 0x00d00000, 0x00e00000, 0x00f00000, 0x40000000,
    0x40100000, 0x40200000, 0x40300000, 0x40400000, 0x40600000, 0x40500000, 0x40900000, 0x40800000]

/-- The lanes of xe20 to xe27 are permuted on the board. -/
def permute20to23 : List ℕ := [1, 0, 3, 2]

structure BlockLane where
  base : BitVec 32
  lane : ℕ
  blockIdx : ℕ

def xeToBlockLane (xe : ℤ) : Option BlockLane :=
  if xe < 0 ∨ 51 < xe then none
  else
    let x := xe.toNat
    -- four ports to a block up to xe47, then one
    let idx := if x ≤ 47 then x / 4 else x - 36
    let lane :=
      if x ≤ 47 then if 20 ≤ x ∧ x ≤ 27 then permute20to23.getD (x % 4) 0 else x % 4 else 0
    some { base := xlportBlocks.getD idx 0, lane := lane, blockIdx := idx }

def portEnableSet (s : SdkState) (port : ℤ) (enable : Bool) : SdkState × Rc Unit :=
  if port ≤ 0 ∨ 52 < port then (s, .error .einval)
  else
    match xeToBlockLane (port - 1) with
    | none => (s, .error .einval)
    | some b =>
      let old := s.xlportEnableShadow b.blockIdx
      let val := if enable then old ||| 1#32 <<< b.lane else old &&& ~~~(1#32 <<< b.lane)
      let (a, ok) := s.asic.regWrite (b.base + XLPORT_PORT_ENABLE_OFF) val
      let shadow := Function.update s.xlportEnableShadow b.blockIdx val
      ({ s with asic := a, xlportEnableShadow := shadow },
        if ok then .ok () else .error .eio)

/-- Only the chip outside its tables and the shadow of the enable bits change. -/
theorem portEnableSet_eq (s : SdkState) (port : ℤ) (enable : Bool) : ∃ a shadow,
    (portEnableSet s port enable).1 = { s with asic := a, xlportEnableShadow := shadow } ∧
      a.mem = s.asic.mem ∧ (s.asic.FaultFree → a.FaultFree) := by
  unfold portEnableSet
  by_cases hp : port ≤ 0 ∨ 52 < port
  · rw [if_pos hp]
    exact ⟨s.asic, s.xlportEnableShadow, rfl, rfl, id⟩
  · rw [if_neg hp]
    cases hx : xeToBlockLane (port - 1) with
    | none => exact ⟨s.asic, s.xlportEnableShadow, rfl, rfl, id⟩
    | some b => exact ⟨_, _, rfl, Asic.regWrite_mem _ _, fun h => h.regWrite _ _⟩

end OpenNos.Sdk
