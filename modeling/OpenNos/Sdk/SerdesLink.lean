import OpenNos.Sdk.SerdesAccess

/-! Whose link status is reported. A status register keeps a low until it is read, so the
code reads it twice; the clause 45 read before that selects lane 0 of the WARPcore,
whatever lane the port is on. -/

namespace OpenNos.Sdk

open RegProg

/-- A register with a latch: what a read returns, and what the next read finds then. -/
structure StatusReg where
  latched : BitVec 16
  live : BitVec 16

abbrev StatusRegs := PhyAddr × Target → StatusReg

/-- A read releases the latch. -/
def latchedRegs : PhyCore StatusRegs where
  read regs _ phy target :=
    let status := regs (phy, target)
    (status.latched, Function.update regs (phy, target) ⟨status.live, status.live⟩)
  write regs phy target data := Function.update regs (phy, target) ⟨data, data⟩

/-- The PCS status register of a lane, device 3 register 1. -/
def pcsStatus (phy : PhyAddr) (lane : BitVec 2) : PhyAddr × Target :=
  (phy, .mmd (lane.setWidth 16) 3 1)

/-- The result depends on the PCS status of the lane of the port alone. -/
def LinkNoninterference (delay : ℕ → ℕ) (port : ℤ) : Prop :=
  ∀ s t : MiimDev StatusRegs,
    (∀ a, portToPhyBus port = .ok a →
      s.bus.core (pcsStatus a.phy a.lane) = t.bus.core (pcsStatus a.phy a.lane)) →
    (runAlone (miimDev latchedRegs delay) (serdesLinkGet port) s).1 =
      (runAlone (miimDev latchedRegs delay) (serdesLinkGet port) t).1

/-- No WARPcore at all, or the first lane of one. -/
def OnFirstLane (port : ℤ) : Prop :=
  port < 1 ∨ 52 < port ∨ port ≤ 48 ∧ (port - 1) % 4 = 0 ∨ 49 ≤ port ∧ port ≤ 51

instance (port : ℤ) : Decidable (OnFirstLane port) := inferInstanceAs (Decidable (_ ∨ _))

theorem onFirstLane_iff (port : ℤ) :
    OnFirstLane port ↔ ∀ a, portToPhyBus port = .ok a → a.lane = 0 := by
  have hlane (xe : ℕ) : BitVec.ofNat 2 (xe % 4) = 0 ↔ xe % 4 = 0 := by
    rw [← BitVec.toNat_inj, BitVec.toNat_ofNat]
    exact Iff.of_eq (congrArg (· = 0) (Nat.mod_mod_of_dvd xe (by decide)))
  unfold OnFirstLane portToPhyBus
  split_ifs with h49 h50 h51 h52 hrange
  · simp [h49]
  · simp [h50]
  · simp [h51]
  · simp [h52]
  · have hports : (port < 1 ∨ 52 < port ∨ port ≤ 48 ∧ (port - 1) % 4 = 0 ∨
        49 ≤ port ∧ port ≤ 51) ↔ (port - 1).toNat % 4 = 0 := by omega
    have hblock : ¬ 6 ≤ (port - 1).toNat / 4 - 7 := by omega
    rw [hports, ← hlane]
    dsimp only
    split_ifs <;> simp
  · have hports : port < 1 ∨ 52 < port ∨ port ≤ 48 ∧ (port - 1) % 4 = 0 ∨
        49 ≤ port ∧ port ≤ 51 := by omega
    simp only [hports, false_imp_iff, implies_true]

/-- The result is the live status of lane 0. -/
theorem linkGet_result {delay : ℕ → ℕ} (hok : ∀ n, ¬ Fails delay n) {port : ℤ} {a : PortPhy}
    (ha : portToPhyBus port = .ok a) (s : MiimDev StatusRegs) :
    (runAlone (miimDev latchedRegs delay) (serdesLinkGet port) s).1 =
      .ok ((s.bus.core (pcsStatus a.phy 0)).live.getLsbD 2) := by
  have hread := onCore_wcCl45Read (C := latchedRegs) hok a.phy 3 1
  have hinit : OnCore latchedRegs delay miimDividerInit _ := onCore_miimDividerInit
  unfold serdesLinkGet
  rw [ha]
  simp only [runAlone_bind, hread.result, Except.isOk, Except.toBool, if_pos, runAlone_pure]
  rw [hread.state, hinit.state]
  simp only [latchedRegs, MiimDev.view, PhyBus.view, Function.update_self]
  rfl

variable {delay : ℕ → ℕ} (hok : ∀ n, ¬ Fails delay n)

def linksDown : StatusRegs := fun _ => ⟨0, 0⟩

include hok

/-- Where the port is on another lane, the first lane of its WARPcore decides. -/
theorem interference_of_lane {port : ℤ} {a : PortPhy} (ha : portToPhyBus port = .ok a)
    (hlane : a.lane ≠ 0) : ¬ LinkNoninterference delay port := by
  intro h
  have hne : pcsStatus a.phy a.lane ≠ pcsStatus a.phy 0 := by
    intro he
    have htarget := (Prod.ext_iff.mp he).2
    simp only [pcsStatus, Target.mmd.injEq] at htarget
    have hwidth : ∀ l : BitVec 2, l.setWidth 16 = (0 : BitVec 2).setWidth 16 → l = 0 := by decide
    exact hlane (hwidth _ htarget.1)
  have hsame := h (idleDev linksDown 0)
    (idleDev (Function.update linksDown (pcsStatus a.phy 0) ⟨4, 4⟩) 0) fun b hb => ?_
  · rw [linkGet_result hok ha, linkGet_result hok ha] at hsame
    simp [idleDev, linksDown] at hsame
  · obtain rfl := Except.ok.inj (ha.symm.trans hb)
    exact (Function.update_of_ne hne _ _).symm

/-- One port does not depend on another exactly if it is on the first lane. -/
theorem linkNoninterference_iff (port : ℤ) :
    LinkNoninterference delay port ↔ OnFirstLane port := by
  rw [onFirstLane_iff]
  constructor
  · intro h a ha
    by_contra hlane
    exact interference_of_lane hok ha hlane h
  · intro hfirst s t hagree
    cases ha : portToPhyBus port with
    | error e => 
      unfold serdesLinkGet
      rw [ha]
      rfl
    | ok a =>
      have hstatus := hagree a ha
      rw [hfirst a ha] at hstatus
      rw [linkGet_result hok ha, linkGet_result hok ha, hstatus]

omit hok

theorem linkNoninterference_iff_first : LinkNoninterference (fun _ => 0) 51 :=
  (linkNoninterference_iff (fun _ => Nat.not_succ_le_zero _) 51).mpr (by decide)

/-- Port 52 shares the WARPcore of port 51 and reports its link. -/
theorem not_linkNoninterference_port52 : ¬ LinkNoninterference (fun _ => 0) 52 :=
  interference_of_lane (a := ⟨⟨1, 31⟩, 1⟩) (fun _ => Nat.not_succ_le_zero _) rfl (by decide)

end OpenNos.Sdk
