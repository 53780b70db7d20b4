import OpenNos.Sdk.MiimIsolation
import OpenNos.Sdk.Serdes

/-! Isolation of the two threads. Every access of a WARPcore or clause 45 register makes
the selection it needs, so from any state a program of such accesses reaches what it
names, as long as the other thread spares what it has set up. Nothing in the code makes
the threads do so. -/

namespace OpenNos.Sdk

open Bits RegProg Bde

/-- From any state, with the other thread sparing this one, every transaction is the
one its caller named. -/
def Isolating {α : Type} (t : Thread) (p : Serdes α) : Prop := ∀ s, BusWp t (fun _ _ => True) p s

section Accesses

variable {t : Thread} {α β : Type}

theorem isolating_pure (a : α) : Isolating t (pure a) := fun _ =>
  wp_pure (fun _ _ _ _ => trivial) trivial

theorem Isolating.bind {p : Serdes α} {f : α → Serdes β} (hp : Isolating t p)
    (hf : ∀ a, Isolating t (f a)) : Isolating t (p >>= f) := fun s =>
  wp_seq (hp s) fun a s _ => hf a s

theorem isolating_onlyIf {c : Prop} [Decidable c] {p : Serdes Unit} (hp : Isolating t p) :
    Isolating t (onlyIf c p) := by
  unfold onlyIf
  split_ifs
  · exact hp
  · exact isolating_pure ()

/-- Events that are not part of a transaction. -/
theorem isolating_mark {e : MiimEvent} (he : ∀ s, Honest t s ((miimBus t).event s e)) :
    Isolating t (mark e) := fun _ =>
  wp_mark (P := fun _ => True) (fun _ _ _ _ => trivial) (fun s _ => ⟨he s, trivial⟩)
    (fun _ _ _ _ => trivial) trivial

theorem isolating_usleep (us : ℕ) : Isolating t (mark (.usleep us)) :=
  isolating_mark fun _ => honest_of_same (fun _ _ => rfl) rfl

theorem isolating_i2cWrite (bus : ℤ) (addr reg val : BitVec 8) :
    Isolating t (mark (.i2cWrite bus addr reg val)) :=
  isolating_mark fun _ => honest_of_same (fun _ _ => rfl) rfl

theorem isolating_i2cRead (bus : ℤ) (addr reg : BitVec 8) :
    Isolating t (mark (.i2cRead bus addr reg)) :=
  isolating_mark fun _ => honest_of_same (fun _ _ => rfl) rfl

theorem isolating_ended : Isolating t (mark .ended) :=
  isolating_mark fun s => honest_setWindow s _

/-- A register outside the transactions. -/
theorem isolating_bdeWrite {off : ℕ} (haddress : off ≠ CMIC_MIIM_ADDRESS)
    (hparam : off ≠ CMIC_MIIM_PARAM) (hctrl : off ≠ CMIC_MIIM_CTRL) (v : BitVec 32) :
    Isolating t (bdeWrite off v) := by
  refine fun _ => wp_write (P := fun _ => True) (fun _ _ _ _ => trivial) (fun s _ => ?_)
    (fun _ _ _ _ => trivial) trivial
  rw [miimBus_write_of_ne s haddress hparam hctrl]
  exact ⟨honest_setReg s off v, trivial⟩

end Accesses

/-! ### The targets -/

section Targets

variable (sel : Select)

theorem resolve_aerBlk : sel.resolve (WC_REG_AER_BLK.setWidth 5) = .aerBlk := rfl

theorem resolve_mmdCtrl : sel.resolve ((13 : BitVec 32).setWidth 5) = .mmdCtrl := rfl

/-- The lane register is in the block that every access selects first. -/
theorem resolve_aerLane (h : sel.get .aerBlk = some WC_AER_BROADCAST) :
    sel.resolve (WC_REG_AER_LANE.setWidth 5) = .aerLane := by
  have hblk : sel.aerBlk = WC_AER_BROADCAST := Option.some.inj h
  rw [Select.resolve, hblk, if_neg (by decide), if_pos (by decide)]
  rfl

/-- Register 14 is the address or the data of clause 45, as the control register says. -/
theorem resolve_mmdData : sel.resolve ((14 : BitVec 32).setWidth 5) =
    let devad := sel.mmdCtrl.setWidth 5
    if sel.mmdCtrl &&& 0xc000 = 0 then .mmdAddr devad
    else .mmd sel.aerLane devad (sel.mmdAddr devad) := rfl

theorem resolve_mmdAddr {devad : BitVec 5} (h : sel.get .mmdCtrl = some (devad.setWidth 16)) :
    sel.resolve ((14 : BitVec 32).setWidth 5) = .mmdAddr devad := by
  have hctrl : sel.mmdCtrl = devad.setWidth 16 := Option.some.inj h
  have hbits : ∀ d : BitVec 5, d.setWidth 16 &&& 0xc000 = 0 ∧
      (d.setWidth 16).setWidth 5 = d := by decide
  rw [resolve_mmdData, hctrl]
  simp only [if_pos (hbits devad).1, (hbits devad).2]

theorem resolve_mmd {devad : BitVec 5} {lane reg : BitVec 16}
    (hlane : sel.get .aerLane = some lane) (haddr : sel.get (.mmdAddr devad) = some reg)
    (hctrl : sel.get .mmdCtrl = some (0x4000 ||| devad.setWidth 16)) :
    sel.resolve ((14 : BitVec 32).setWidth 5) = .mmd lane devad reg := by
  obtain rfl : sel.aerLane = lane := Option.some.inj hlane
  obtain rfl : sel.mmdAddr devad = reg := Option.some.inj haddr
  have hctrl : sel.mmdCtrl = 0x4000 ||| devad.setWidth 16 := Option.some.inj hctrl
  have hbits : ∀ d : BitVec 5, (0x4000 ||| d.setWidth 16) &&& 0xc000 ≠ (0 : BitVec 16) ∧
      (0x4000 ||| d.setWidth 16 : BitVec 16).setWidth 5 = d := by decide
  rw [resolve_mmdData, hctrl]
  simp only [if_neg (hbits devad).1, (hbits devad).2]

/-- A register of the WARPcore that is not one of the two selection registers. -/
def isPlain (addr : BitVec 16) : Bool := addr.setWidth 4 != (0xf : BitVec 4) && addr != 0xffde

theorem wcReg_setWidth (addr : BitVec 16) :
    (wcReg addr).setWidth 5 = 0x10 + (addr.setWidth 4).setWidth 5 := by
  have hmask : addr.toNat &&& 15 % 2 ^ 16 = addr.toNat % 16 :=
    Nat.and_two_pow_sub_one_eq_mod addr.toNat 4
  apply BitVec.eq_of_toNat_eq
  simp only [wcReg, BitVec.toNat_setWidth, BitVec.toNat_add, BitVec.toNat_and,
    BitVec.ofNat_eq_ofNat, BitVec.toNat_ofNat]
  omega

theorem resolve_wc {addr lane : BitVec 16} (haddr : isPlain addr)
    (hblk : sel.get .aerBlk = some (addr &&& 0xfff0)) (hlane : sel.get .aerLane = some lane) :
    sel.resolve ((wcReg addr).setWidth 5) = .wc lane addr := by
  obtain rfl : sel.aerLane = lane := Option.some.inj hlane
  have hblk : sel.aerBlk = addr &&& 0xfff0 := Option.some.inj hblk
  have hnibble : ∀ n : BitVec 4, n ≠ 0xf → 0x10 + n.setWidth 5 ≠ (0x1f : BitVec 5) ∧
      (0x10 : BitVec 5) ≤ 0x10 + n.setWidth 5 ∧ (0x10 + n.setWidth 5) &&& 0xf = n.setWidth 5 := by
    decide
  obtain ⟨hoff, haddr⟩ : addr.setWidth 4 ≠ (0xf : BitVec 4) ∧ addr ≠ 0xffde := by
    simpa [isPlain] using haddr
  obtain ⟨hne, hle, hand⟩ := hnibble _ hoff
  have hwhole : (addr &&& 0xfff0 &&& 0xfff0) ||| ((addr.setWidth 4).setWidth 5).setWidth 16 =
      addr := by
    ext i hi
    simp
    interval_cases i <;> simp
  rw [Select.resolve, wcReg_setWidth, if_neg hne, if_pos hle, hand, hblk]
  simp only [hwhole, if_neg haddr]

end Targets

/-! ### The accesses -/

section Registers

variable {t : Thread} {α : Type} {phy : PhyAddr}

theorem wp_ifOk {P : MiimBus → Prop} {p : Serdes (Rc Unit)} {q : Serdes (Rc α)} {s : MiimBus}
    (hp : BusWp t (fun _ => P) p s) (hq : ∀ s, P s → BusWp t (fun _ _ => True) q s) :
    BusWp t (fun _ _ => True) (ifOk p q) s := by
  refine wp_seq hp fun rc s hs => ?_
  split_ifs
  · exact hq s hs
  · exact isolating_pure _ s

/-- Before the first transaction of an access nothing is relied upon. -/
theorem knows_nil (s : MiimBus) : Knows t phy [] s := fun _ h => absurd h List.not_mem_nil

theorem wp_aerBroadcast (s : MiimBus) : BusWp t (fun _ => Knows t phy [(.aerBlk, WC_AER_BROADCAST)])
    (miimWriteTo phy .aerBlk [.aerBlk] WC_REG_AER_BLK WC_AER_BROADCAST) s :=
  wp_miimWriteTo (fun sel _ => resolve_aerBlk sel)
    (fun _ _ => by simp [Select.write, Select.get]) (knows_nil s)

theorem wp_aerLane {lane : BitVec 16} {s : MiimBus}
    (hs : Knows t phy [(.aerBlk, WC_AER_BROADCAST)] s) :
    BusWp t (fun _ => Knows t phy [(.aerLane, lane)])
      (miimWriteTo phy .aerLane [.aerLane] WC_REG_AER_LANE lane) s :=
  wp_miimWriteTo (fun sel h => resolve_aerLane sel ((agrees_cons _ _ _).mp h).1)
    (fun _ _ => by simp [Select.write, Select.get]) hs

theorem wp_aerBlk {lane blk : BitVec 16} {s : MiimBus} (hs : Knows t phy [(.aerLane, lane)] s) :
    BusWp t (fun _ => Knows t phy [(.aerBlk, blk), (.aerLane, lane)])
      (miimWriteTo phy .aerBlk [.aerBlk, .aerLane] WC_REG_AER_BLK blk) s :=
  wp_miimWriteTo (fun sel _ => resolve_aerBlk sel)
    (fun _ h => by simpa [Select.write, Select.get] using h) hs

/-- An access whose last transaction reaches its target in the block and lane selected. -/
theorem isolating_wcAccess {lane : BitVec 2} {addr : BitVec 16} {last : Serdes (Rc α)}
    (hlast : ∀ s, Knows t phy [(.aerBlk, addr &&& 0xfff0), (.aerLane, lane.setWidth 16)] s →
      BusWp t (fun _ _ => True) last s) : Isolating t (wcAccess phy lane addr last) := by
  have hlane : ∀ l : BitVec 2, l.setWidth 16 &&& 3 = (l.setWidth 16 : BitVec 16) := by decide
  intro s
  have hselect : BusWp t (fun _ _ => True) (ifOk
      (miimWriteTo phy .aerBlk [.aerBlk] WC_REG_AER_BLK WC_AER_BROADCAST) <| ifOk
      (miimWriteTo phy .aerLane [.aerLane] WC_REG_AER_LANE (lane.setWidth 16 &&& 3)) <| ifOk
      (miimWriteTo phy .aerBlk [.aerBlk, .aerLane] WC_REG_AER_BLK (addr &&& 0xfff0)) last) s := by
    rw [hlane]
    refine wp_ifOk (wp_aerBroadcast s) fun s hs => wp_ifOk (wp_aerLane hs) fun s hs => ?_
    exact wp_ifOk (wp_aerBlk hs) hlast
  exact wp_seq hselect fun rc s _ => isolating_ended.bind (fun _ => isolating_pure rc) s

theorem resolve_of_agrees {addr : BitVec 16} (haddr : isPlain addr) {lane : BitVec 16}
    (sel : Select) (h : sel.Agrees [(.aerBlk, addr &&& 0xfff0), (.aerLane, lane)]) :
    sel.resolve ((wcReg addr).setWidth 5) = .wc lane addr := by
  obtain ⟨hblk, hlane, -⟩ := by simpa only [agrees_cons] using h
  exact resolve_wc sel haddr hblk hlane

theorem isolating_wcRead (lane : BitVec 2) {addr : BitVec 16} (haddr : isPlain addr) :
    Isolating t (wcRead phy lane addr) :=
  isolating_wcAccess fun _ hs => wp_miimReadFrom (resolve_of_agrees haddr) hs

theorem isolating_wcWrite (lane : BitVec 2) {addr : BitVec 16} (haddr : isPlain addr)
    (val : BitVec 16) : Isolating t (wcWrite phy lane addr val) :=
  isolating_wcAccess fun _ hs => wp_mono (fun _ _ _ => trivial)
    (wp_miimWriteTo (resolve_of_agrees haddr) (fun _ _ => (agrees_nil _).mpr trivial) hs)

theorem isolating_aerReset : Isolating t (aerReset phy) := fun s =>
  wp_seq (wp_miimWriteTo (fun sel _ => resolve_aerBlk sel) (fun _ _ => (agrees_nil _).mpr trivial)
    (knows_nil s)) fun _ s _ => isolating_ended s

theorem isolating_wcCl45Read (devad : BitVec 5) (reg : BitVec 16) :
    Isolating t (wcCl45Read phy devad reg) := by
  intro s
  have haddr {s : MiimBus}
      (hs : Knows t phy [(.aerLane, 0), (.mmdCtrl, devad.setWidth 16)] s) :
      BusWp t (fun _ => Knows t phy [(.aerLane, 0), (.mmdAddr devad, reg)])
        (miimWriteTo phy (.mmdAddr devad) [.aerLane, .mmdAddr devad] 14 reg) s := by
    refine wp_miimWriteTo (fun sel h => ?_) (fun sel h => ?_) hs
    · obtain ⟨-, hctrl, -⟩ := by simpa only [agrees_cons] using h
      exact resolve_mmdAddr sel hctrl
    · obtain ⟨hlane, -⟩ := by simpa only [agrees_cons] using h
      simpa [Select.write, Select.get] using hlane
  have hblk {s : MiimBus} (hs : Knows t phy [(.aerLane, 0)] s) :
      BusWp t (fun _ => Knows t phy [(.aerLane, 0)])
        (miimWriteTo phy .aerBlk [.aerLane] WC_REG_AER_BLK 0) s :=
    wp_miimWriteTo (fun sel _ => resolve_aerBlk sel)
      (fun _ h => by simpa [Select.write, Select.get] using h) hs
  have hctrl {s : MiimBus} (hs : Knows t phy [(.aerLane, 0)] s) :
      BusWp t (fun _ => Knows t phy [(.aerLane, 0), (.mmdCtrl, devad.setWidth 16)])
        (miimWriteTo phy .mmdCtrl [.aerLane, .mmdCtrl] 13 (devad.setWidth 16)) s :=
    wp_miimWriteTo (fun sel _ => resolve_mmdCtrl sel)
      (fun _ h => by simpa [Select.write, Select.get] using h) hs
  have hdata {s : MiimBus} (hs : Knows t phy [(.aerLane, 0), (.mmdAddr devad, reg)] s) :
      BusWp t (fun _ => Knows t phy [(.aerLane, 0), (.mmdAddr devad, reg),
          (.mmdCtrl, 0x4000 ||| devad.setWidth 16)])
        (miimWriteTo phy .mmdCtrl [.aerLane, .mmdAddr devad, .mmdCtrl] 13
          (0x4000 ||| devad.setWidth 16)) s :=
    wp_miimWriteTo (fun sel _ => resolve_mmdCtrl sel)
      (fun _ h => by simpa [Select.write, Select.get] using h) hs
  refine wp_seq (wp_aerBroadcast s) fun _ s hs => wp_seq (wp_aerLane hs) fun _ s hs => ?_
  refine wp_seq (hblk hs) fun _ s hs => wp_seq (hctrl hs) fun _ s hs => ?_
  refine wp_seq (haddr hs) fun _ s hs => wp_seq (hdata hs) fun _ s hs => ?_
  refine wp_seq (wp_miimReadFrom (fun sel h => ?_) hs) fun rc s _ =>
    isolating_ended.bind (fun _ => isolating_pure rc) s
  obtain ⟨hlane, hreg, hctrl, -⟩ := by simpa only [agrees_cons] using h
  exact resolve_mmd sel hlane hreg hctrl

end Registers

/-! ### The programs -/

section Programs

variable {t : Thread} {phy : PhyAddr} {lane : BitVec 2} {addr : BitVec 16}

theorem isolating_wcReadInto (val : BitVec 16) (haddr : isPlain addr) :
    Isolating t (wcReadInto val phy lane addr) :=
  (isolating_wcRead lane haddr).bind fun _ => isolating_pure _

theorem isolating_wcPut (haddr : isPlain addr) (val : BitVec 16) :
    Isolating t (wcPut phy lane addr val) :=
  (isolating_wcWrite lane haddr val).bind fun _ => isolating_pure _

theorem isolating_wcUpdate (haddr : isPlain addr) (f : BitVec 16 → BitVec 16) (assigned : Bool)
    (val : BitVec 16) : Isolating t (wcUpdate phy lane addr f assigned val) := by
  refine (isolating_wcRead lane haddr).bind fun rc => ?_
  by_cases hrc : rc.isOk
  · rw [if_pos hrc]
    exact (isolating_wcPut haddr _).bind fun _ => isolating_pure _
  · rw [if_neg hrc]
    exact isolating_pure _

theorem isolating_wcPoll (haddr : isPlain addr) (done : BitVec 16 → Bool) (cnt : ℕ)
    (val : BitVec 16) : Isolating t (wcPoll phy addr done cnt val) := by
  induction cnt generalizing val with
  | zero => exact isolating_pure val
  | succ cnt ih =>
    refine (isolating_wcReadInto val haddr).bind fun val => ?_
    split_ifs
    · exact isolating_pure val
    · exact (isolating_usleep 1000).bind fun _ => ih val

theorem isolating_wcPutAll {writes : List (BitVec 16 × BitVec 16)}
    (h : writes.all fun w => isPlain w.1) : Isolating t (wcPutAll phy lane writes) := by
  induction writes with
  | nil => exact isolating_pure ()
  | cons w writes ih =>
    obtain ⟨hw, hwrites⟩ := by simpa only [List.all_cons, Bool.and_eq_true] using h
    exact (isolating_wcPut hw w.2).bind fun _ => ih hwrites

theorem isolating_wcReadAll {addrs : List (BitVec 16)} (h : addrs.all isPlain) :
    Isolating t (wcReadAll phy lane addrs) := by
  induction addrs with
  | nil => exact isolating_pure ()
  | cons addr addrs ih =>
    obtain ⟨haddr, haddrs⟩ := by simpa only [List.all_cons, Bool.and_eq_true] using h
    exact (isolating_wcRead lane haddr).bind fun _ => ih haddrs

theorem isolating_wcPutWords (words : List (BitVec 16)) : Isolating t (wcPutWords phy words) := by
  induction words with
  | nil => exact isolating_pure ()
  | cons data rest ih => exact (isolating_wcPut (by decide) data).bind fun _ => ih

theorem isolating_wcFirmwareDownload (ucode : List (BitVec 8)) :
    Isolating t (wcFirmwareDownload phy ucode) := by
  refine (isolating_wcPut (by decide) _).bind fun _ => (isolating_usleep _).bind fun _ => ?_
  refine (isolating_wcPut (by decide) _).bind fun _ => (isolating_usleep _).bind fun _ => ?_
  refine (isolating_wcPutAll rfl).bind fun _ => ?_
  refine (isolating_wcPoll (by decide) _ 500 0).bind fun val => ?_
  split_ifs
  · exact isolating_pure _
  · refine (isolating_wcReadInto val (by decide)).bind fun val => ?_
    refine (isolating_wcPut (by decide) _).bind fun _ => ?_
    refine (isolating_wcPut (by decide) _).bind fun _ => (isolating_wcPutAll rfl).bind fun _ => ?_
    refine (isolating_wcPutWords _).bind fun _ => (isolating_wcPut (by decide) _).bind fun _ => ?_
    refine (isolating_wcReadInto _ (by decide)).bind fun val => ?_
    split_ifs
    · exact isolating_pure _
    · refine (isolating_wcPutAll rfl).bind fun _ => ?_
      exact (isolating_wcPoll (by decide) _ 500 0).bind fun _ => isolating_pure _

theorem isolating_wcPhyInit (env : SerdesEnv) : Isolating t (wcPhyInit env phy) := by
  refine (isolating_wcReadInto _ (by decide)).bind fun val => ?_
  refine (isolating_wcReadInto _ (by decide)).bind fun val => ?_
  refine (isolating_onlyIf ?_).bind fun _ => ?_
  · exact (isolating_wcPut (by decide) _).bind fun _ => isolating_usleep _
  refine (isolating_wcPut (by decide) _).bind fun _ => ?_
  refine (isolating_wcReadInto _ (by decide)).bind fun val => ?_
  refine (isolating_wcPut (by decide) _).bind fun _ => ?_
  refine (isolating_wcReadInto _ (by decide)).bind fun val => ?_
  refine (isolating_onlyIf ?_).bind fun _ => ?_
  · exact (isolating_wcFirmwareDownload _).bind fun _ => isolating_pure _
  refine (isolating_wcReadInto _ (by decide)).bind fun val => ?_
  refine (isolating_wcPut (by decide) _).bind fun _ => ?_
  refine (isolating_wcPoll (by decide) _ _ _).bind fun val => ?_
  refine (isolating_wcReadInto _ (by decide)).bind fun val => ?_
  refine (isolating_wcPut (by decide) _).bind fun _ => ?_
  refine (isolating_wcPut (by decide) _).bind fun _ => ?_
  refine (isolating_wcPoll (by decide) _ _ _).bind fun val => ?_
  exact (isolating_wcReadInto _ (by decide)).bind fun _ => isolating_aerReset

theorem isolating_configureLane (val : BitVec 16) : Isolating t (configureLane val phy lane) := by
  refine (isolating_wcReadInto _ (by decide)).bind fun val => ?_
  refine (isolating_wcPut (by decide) _).bind fun _ => ?_
  refine (isolating_wcReadInto _ (by decide)).bind fun val => ?_
  refine (isolating_wcPut (by decide) _).bind fun _ => ?_
  refine (isolating_wcUpdate (by decide) _ _ _).bind fun val => ?_
  refine (isolating_wcUpdate (by decide) _ _ _).bind fun val => ?_
  refine (isolating_wcRead _ (by decide)).bind fun rc => ?_
  refine (isolating_onlyIf (isolating_wcPut (by decide) _)).bind fun _ => ?_
  refine (isolating_wcUpdate (by decide) _ _ _).bind fun val => ?_
  refine (isolating_wcUpdate (by decide) _ _ _).bind fun val => ?_
  refine (isolating_wcReadInto _ (by decide)).bind fun val => ?_
  refine (isolating_wcPut (by decide) _).bind fun _ => ?_
  refine (isolating_wcUpdate (by decide) _ _ _).bind fun val => ?_
  refine (isolating_wcPutAll rfl).bind fun _ => ?_
  refine (isolating_wcUpdate (by decide) _ _ _).bind fun val => ?_
  refine (isolating_wcUpdate (by decide) _ _ _).bind fun val => ?_
  exact (isolating_wcUpdate (by decide) _ _ _).bind fun _ => isolating_pure _

theorem isolating_retimerUnmute (env : SerdesEnv) (port : ℤ) :
    Isolating t (retimerUnmute env port) := by
  unfold retimerUnmute
  dsimp only
  split_ifs
  · exact isolating_pure ()
  · refine (isolating_i2cWrite _ _ _ _).bind fun _ => ?_
    exact (isolating_i2cRead _ _ _).bind fun _ => isolating_i2cWrite _ _ _ _
  · exact (isolating_i2cWrite _ _ _ _).bind fun _ => isolating_pure ()

theorem isolating_pollBlockLock (cnt : ℕ) (cl49Status : BitVec 16) :
    Isolating t (pollBlockLock phy lane cnt cl49Status) := by
  induction cnt generalizing cl49Status with
  | zero => exact isolating_pure ()
  | succ cnt ih =>
    refine (isolating_wcReadInto _ (by decide)).bind fun cl49Status => ?_
    refine (isolating_wcRead _ (by decide)).bind fun _ => ?_
    refine (isolating_wcCl45Read 3 1).bind fun _ => (isolating_wcCl45Read 3 1).bind fun _ => ?_
    exact isolating_onlyIf ((isolating_usleep _).bind fun _ => ih cl49Status)

theorem isolating_diagnosePcs (env : SerdesEnv) : Isolating t (diagnosePcs env phy lane) := by
  have hread : Isolating t (wcReadAll phy lane [WC_ANARXSTATUS, WC_MISC1, WC_MISC3, WC_RX66_CTRL,
      WC_CL49_CTRL1, WC_RX66_SCW0, WC_RX66_SCW0_MASK]) :=
    isolating_wcReadAll rfl
  have hpoll : Isolating t (pollBlockLock phy lane 5 env.junk) := isolating_pollBlockLock 5 _
  unfold diagnosePcs
  exact (isolating_usleep _).bind fun _ => hread.bind fun _ => hpoll

theorem isolating_miimDividerInit : Isolating t miimDividerInit :=
  (isolating_bdeWrite (by decide) (by decide) (by decide) _).bind fun _ =>
    isolating_bdeWrite (by decide) (by decide) (by decide) _

theorem isolating_initOnce (env : SerdesEnv) (inited : PhyInited) (phy : PhyAddr) :
    Isolating t (initOnce env inited phy) := by
  unfold initOnce
  split_ifs
  · exact (isolating_wcPhyInit env).bind fun _ => isolating_pure _
  · exact isolating_pure _

theorem isolating_serdesInit10g (env : SerdesEnv) (inited : PhyInited) (port : ℤ) :
    Isolating t (serdesInit10g env inited port) := by
  unfold serdesInit10g
  cases portToPhyBus port with
  | error e => exact isolating_pure _
  | ok p =>
    have hdiag : Isolating t (retimerUnmute env port >>= fun _ => diagnosePcs env p.phy p.lane) :=
      (isolating_retimerUnmute env port).bind fun _ => isolating_diagnosePcs env
    refine isolating_miimDividerInit.bind fun _ => ?_
    refine (isolating_initOnce env inited _).bind fun inited => ?_
    refine (isolating_configureLane _).bind fun _ => (isolating_onlyIf hdiag).bind fun _ => ?_
    exact isolating_aerReset.bind fun _ => isolating_pure _

theorem isolating_serdesLinkGet (port : ℤ) : Isolating t (serdesLinkGet port) := by
  unfold serdesLinkGet
  cases portToPhyBus port with
  | error e => exact isolating_pure _
  | ok p =>
    refine isolating_miimDividerInit.bind fun _ => (isolating_wcCl45Read 3 1).bind fun rc => ?_
    split_ifs
    · refine (isolating_wcCl45Read 3 1).bind fun rc => ?_
      cases rc with
      | error e => exact isolating_pure _
      | ok pcsStatus => exact isolating_aerReset.bind fun _ => isolating_pure _
    · exact isolating_pure _

theorem isolating_netlinkThread (env : SerdesEnv) (requests : List EnableRequest)
    (inited : PhyInited) : Isolating t (netlinkThread env inited requests) := by
  induction requests generalizing inited with
  | nil => exact isolating_pure ()
  | cons r rest ih =>
    refine Isolating.bind ?_ fun result => ih result.2
    unfold portEnableSetSerdes
    split_ifs
    · exact isolating_pure _
    · exact isolating_pure _
    · exact (isolating_serdesInit10g env inited r.port).bind fun _ => isolating_pure _
    · exact isolating_pure _

theorem isolating_linkStateRound (macLink : ℤ → Rc Bool) (i n : ℕ) :
    Isolating t (linkStateRound macLink i n) := by
  induction n generalizing i with
  | zero => exact isolating_pure ()
  | succ n ih =>
    refine Isolating.bind ?_ fun _ => ih (i + 1)
    unfold portLinkStatusGet
    split_ifs
    · exact isolating_pure _
    · exact isolating_serdesLinkGet _
    · exact isolating_pure _

theorem isolating_linkStateThread (numPorts : ℕ) (rounds : List (ℤ → Rc Bool)) :
    Isolating t (linkStateThread numPorts rounds) := by
  induction rounds with
  | nil => exact isolating_pure ()
  | cons macLink rounds ih =>
    exact (isolating_usleep _).bind fun _ => (isolating_linkStateRound macLink 0 numPorts).bind
      fun _ => ih

end Programs

/-! ### The two threads -/

/-- No transaction yet, with the registers and the PHYs in any state. -/
def MiimBus.start (reg : ℕ → BitVec 32) (select : PhyAddr → Select)
    (value : PhyAddr → Target → BitVec 16) : MiimBus where
  reg := reg
  select := select
  value := value
  window := fun _ => {
    call := ⟨⟨0, 0⟩, .aerBlk, none⟩, keeps := [], address := false, param := false, awaits := false,
    relies := [], value := 0 }
  log := fun _ => []

theorem Honest.isolated {t : Thread} {s s' : MiimBus} (h : Honest t s s') (hs : Isolated s) :
    Isolated s' := by
  intro u e he
  by_cases hu : u = t
  · subst hu
    exact (h.good e he).elim (hs u e) id
  · rw [h.log u hu] at he
    exact hs u e he

theorem Spares.others {t u : Thread} (hne : t ≠ u) {s s' : MiimBus} (h : Spares t s s')
    (hhonest : Honest u s s') : Others t s s' := ⟨h, hhonest.window t hne⟩

theorem PhysMove.others (t : Thread) {s s' : MiimBus} (h : PhysMove s s') : Others t s s' := by
  have hparam : s'.reg CMIC_MIIM_PARAM = s.reg CMIC_MIIM_PARAM := h.reg _ (by decide)
  refine ⟨⟨fun _ => h.reg _ (by decide), fun _ => ?_, fun _ _ => ?_, fun _ => h.reg _ (by decide),
    fun p _ => ?_⟩, congrFun h.window t⟩
  · rw [MiimBus.paramPhy, MiimBus.paramPhy, hparam]
  · rw [MiimBus.paramData, MiimBus.paramData, hparam]
  · rw [h.select]

/-- In every interleaving of the threads in which each step spares the other thread,
every transaction is the one its caller named, with its own value. -/
theorem threads_isolated (env : SerdesEnv) (inited : PhyInited) (requests : List EnableRequest)
    (numPorts : ℕ) (rounds : List (ℤ → Rc Bool)) (reg : ℕ → BitVec 32) (select : PhyAddr → Select)
    (value : PhyAddr → Target → BitVec 16) :
    IsolatedRuns (Spares .linkPoll) (Spares .netlink) (netlinkThread env inited requests)
      (linkStateThread numPorts rounds) (MiimBus.start reg select value) := by
  rintro ⟨p, q, s⟩ hrun
  have hstart : Isolated (MiimBus.start reg select value) :=
    fun _ _ he => absurd he List.not_mem_nil
  refine Wp.par_invariant (isolating_netlinkThread env requests inited _)
    (isolating_linkStateThread numPorts rounds _) (fun _ _ h => ⟨h.others _, h.others _⟩)
    (fun _ _ hG hC => hC.others (by decide) hG) (fun _ _ hG hC => hC.others (by decide) hG)
    (fun s s' h hD => ?_) (fun _ _ h hG => hG.isolated h) (fun _ _ h hG => hG.isolated h) hrun
    hstart
  rw [Isolated, hD.log]
  exact h

/-- While port 50 is set up the link thread polls port 49 and overwrites the
parameters: the block of the wrong PHY is written. -/
theorem threads_isolated_fails :
    ¬ ∀ (env : SerdesEnv) (inited : PhyInited) (requests : List EnableRequest) (numPorts : ℕ)
      (rounds : List (ℤ → Rc Bool)) (reg : ℕ → BitVec 32) (select : PhyAddr → Select)
      (value : PhyAddr → Target → BitVec 16),
      IsolatedRuns (fun _ _ => True) (fun _ _ => True) (netlinkThread env inited requests)
        (linkStateThread numPorts rounds) (MiimBus.start reg select value) := by
  intro h
  have hruns := h ⟨[], fun _ => true, 0⟩ (fun _ => 0xffffffff) [⟨50, true, true⟩] 49
    [fun _ => .ok false] (fun _ => 0) (fun _ => ⟨0, 0, 0, fun _ => 0⟩) (fun _ _ => 0)
  have hlog : (schedule (miimBus .netlink) (miimBus .linkPoll)
      (.replicate 7 true ++ .replicate 8 false ++ [true])
      (netlinkThread ⟨[], fun _ => true, 0⟩ (fun _ => 0xffffffff) [⟨50, true, true⟩],
        linkStateThread 49 [fun _ => .ok false],
        MiimBus.start (fun _ => 0) (fun _ => ⟨0, 0, 0, fun _ => 0⟩) fun _ _ => 0)).map
        (fun c => c.2.2.log .netlink) =
      some [.made ⟨⟨1, 17⟩, .aerBlk, some 0xffd0⟩ ⟨⟨1, 13⟩, .aerBlk, some 0xffd0⟩] := rfl
  obtain ⟨c, hc, hcut⟩ := Option.map_eq_some_iff.mp hlog
  have hgood := hruns c (reaches_of_schedule _ _ _ hc) .netlink
    (.made ⟨⟨1, 17⟩, .aerBlk, some 0xffd0⟩ ⟨⟨1, 13⟩, .aerBlk, some 0xffd0⟩) (by simp [hcut])
  exact absurd hgood (by decide)

end OpenNos.Sdk
