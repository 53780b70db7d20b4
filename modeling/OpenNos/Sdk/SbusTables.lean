import OpenNos.Sdk.Ecmp
import OpenNos.Sdk.L2
import OpenNos.Sdk.L2User
import OpenNos.Sdk.SbusRefine

/-! The tables of the chip that the SDK writes, with their sizes. No two of their entries
share a place on the S-bus, and every access of the datapath initialisation lies within
them. -/

namespace OpenNos.Sdk

open Bits OpProg Bde

/-- A table ends within the addresses. -/
def TableFits (t : BitVec 32 × ℕ) : Prop := t.1.toNat + t.2 ≤ 2 ^ 32

instance (t : BitVec 32 × ℕ) : Decidable (TableFits t) := inferInstanceAs (Decidable (_ ≤ _))

/-- Two tables in different blocks, or one behind the other. -/
def TablesApart (t u : BitVec 32 × ℕ) : Prop :=
  cdkAddrToBlock t.1 ≠ cdkAddrToBlock u.1 ∨ t.1.toNat + t.2 ≤ u.1.toNat ∨
    u.1.toNat + u.2 ≤ t.1.toNat

instance (t u : BitVec 32 × ℕ) : Decidable (TablesApart t u) :=
  inferInstanceAs (Decidable (_ ∨ _ ∨ _))

instance : Std.Symm TablesApart := ⟨fun _ _ h => h.imp Ne.symm Or.symm⟩

/-- The size of the table at an address, and none if there is no table. -/
def sizeIn (tables : List (BitVec 32 × ℕ)) (addr : BitVec 32) : ℕ :=
  ((tables.find? fun t => t.1 = addr).map fun t => t.2).getD 0

theorem mem_of_lt_sizeIn {tables : List (BitVec 32 × ℕ)} {addr : BitVec 32} {index : ℕ}
    (h : index < sizeIn tables addr) : (addr, sizeIn tables addr) ∈ tables := by
  rw [sizeIn] at h ⊢
  cases hfind : tables.find? fun t => t.1 = addr with
  | none =>
    rw [hfind] at h
    exact absurd h (Nat.not_lt_zero _)
  | some t =>
    have haddr : t.1 = addr := by simpa using List.find?_some hfind
    rw [← haddr]
    exact List.mem_of_find?_eq_some hfind

theorem toNat_add_ofNat {addr : BitVec 32} {size index : ℕ} (hfits : addr.toNat + size ≤ 2 ^ 32)
    (h : index < size) : (addr + BitVec.ofNat 32 index).toNat = addr.toNat + index := by
  rw [BitVec.toNat_add, BitVec.toNat_ofNat]
  omega

theorem setWidth_block {addr addr' : BitVec 32}
    (h : (cdkAddrToBlock addr).setWidth 6 = (cdkAddrToBlock addr').setWidth 6) :
    cdkAddrToBlock addr = cdkAddrToBlock addr' := by
  have h₁ := cdkAddrToBlock_lt addr
  have h₂ := cdkAddrToBlock_lt addr'
  have hnat := congrArg BitVec.toNat h
  rw [BitVec.toNat_setWidth, BitVec.toNat_setWidth, Nat.mod_eq_of_lt h₁,
    Nat.mod_eq_of_lt h₂] at hnat
  exact BitVec.eq_of_toNat_eq hnat

/-- Tables given by their addresses and sizes. -/
def TableMap.ofList (tables : List (BitVec 32 × ℕ)) (hfits : ∀ t ∈ tables, TableFits t)
    (hapart : tables.Pairwise TablesApart) : TableMap where
  size := sizeIn tables
  apart {addr addr' index index'} h h' heq := by
    have hmem := mem_of_lt_sizeIn h
    have hmem' := mem_of_lt_sizeIn h'
    obtain ⟨hblock, haddr⟩ := Prod.mk.inj heq
    have hnat := congrArg BitVec.toNat haddr
    have hfit : addr.toNat + sizeIn tables addr ≤ 2 ^ 32 := hfits _ hmem
    have hfit' : addr'.toNat + sizeIn tables addr' ≤ 2 ^ 32 := hfits _ hmem'
    rw [toNat_add_ofNat hfit h, toNat_add_ofNat hfit' h'] at hnat
    by_cases hsame : addr = addr'
    · subst hsame
      exact ⟨rfl, by omega⟩
    · have hne : (addr, sizeIn tables addr) ≠ (addr', sizeIn tables addr') :=
        fun h => hsame (Prod.mk.inj h).1
      have hpair : TablesApart (addr, sizeIn tables addr) (addr', sizeIn tables addr') :=
        hapart.forall hmem hmem' hne
      rcases hpair with hblk | hle | hle
      · exact absurd (setWidth_block hblock) hblk
      all_goals
        dsimp only at hle
        omega

/-- The tables `init_datapath.c` writes. -/
def initTables : List (BitVec 32 × ℕ) :=
  [(ING_UNTAGGED_PHBm, 64), (ING_PRI_CNG_MAPm, 1024), (PORT_TABm, 67), (COS_MAP_SELm, 67),
    (PORT_COS_MAPm, 64), (CPU_COS_MAPm, 128), (THDO_CONFIG_0Am, 296), (THDO_CONFIG_0Bm, 296),
    (MMU_THDO_CONFIG_SP_0m, 40), (MMU_THDO_CONFIG_SP_1m, 40), (MMU_THDO_QDRPRST_0m, 296),
    (MMU_THDO_QDRPRST_1m, 296), (MMU_THDO_QDRPRST_SP_0m, 40), (MMU_THDO_QDRPRST_SP_1m, 40),
    (EPC_LINK_BMAPm, 1), (ING_EN_EFILTER_BITMAPm, 1), (EGR_PORTm, 67), (STG_TABm, 256),
    (VLAN_TABm, 4096), (EGR_VLANm, 4096), (UNKNOWN_UCAST_BLOCK_MASKm, 67),
    (UNKNOWN_MCAST_BLOCK_MASKm, 67)]

/-- The tables of forwarding, `l2.c`, `l3.c` and `ecmp.c`. -/
def forwardingTables : List (BitVec 32 × ℕ) :=
  [(L2_ENTRY_BASE, 131072), (L2_USER_ENTRY_BASE, 512), (EGR_L3_INTF_BASE, 4096),
    (ING_L3_NEXT_HOP_BASE, 16384), (EGR_L3_NEXT_HOP_BASE, 16384), (L3_DEFIP_BASE, 8192),
    (L3_ECMP_BASE, 4096), (L3_ECMP_GROUP_BASE, 1024)]

def sdkTables : TableMap :=
  .ofList (initTables ++ forwardingTables) (by decide +kernel) (by decide +kernel)

/-- A chip at rest, seen as the ideal one. -/
def idealOf (s : SbusChip) : SocDev where
  reg
    | .bde _ => fun _ => 0
    | .sbus addr => s.space.reg (regAddr addr)
  mem addr index := s.space.mem (cellAddr addr index)
  outcome _ := .ok
  writes := 0

theorem provides_ideal {s : SbusChip} (h : s.running = none) :
    Provides sdkTables s.reg s (idealOf s) :=
  ⟨h, rfl, fun _ _ => rfl, fun _ => rfl, fun _ _ _ => rfl⟩

end OpenNos.Sdk
