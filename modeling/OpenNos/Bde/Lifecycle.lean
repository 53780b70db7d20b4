import OpenNos.Lib.Errno
import OpenNos.Lib.History
import OpenNos.Lib.Ledger

/-! How the kernel modules come and go. `nos_bde_probe` binds a PCI device, `nos_bde_remove`
releases it, and `nos_user_bde.c` adds and removes the character device; each takes what it
needs step by step and, when a step is refused, gives back what it has. Devices come and go
in any order with any step refused, and in between the exported addresses are those of a
device that is still bound, or none. -/

namespace OpenNos.Bde

open History

def DMA_POOL_SIZE : ℕ := 4 * 1024 * 1024

def PAGE_SHIFT : ℕ := 12

/-- `struct nos_bde_priv`. -/
structure NosBdePriv where
  pdev : ℕ
  bar0 : ℕ
  dmaVbase : ℕ
  dmaPbase : ℕ
  dmaSize : ℕ
  irq : ℕ
  deriving DecidableEq

/-- What the modules take from the kernel. -/
inductive KernelRes
  | priv (pdev : ℕ)
  | enabled (pdev : ℕ)
  | regions (pdev : ℕ)
  | bar0 (pdev addr : ℕ)
  | dma (pdev vbase pbase size : ℕ)
  | irq (pdev number : ℕ)
  | userClass
  | chrdevRegion
  | cdev
  | deviceNode
  deriving DecidableEq

/-- What `device_create` returns; the code takes only NULL for a failure. -/
inductive NodeReply
  | created
  | null
  | errPtr
  deriving DecidableEq

/-- The modules between two calls: the books, the driver data of each PCI device, `bde_priv`,
and if `nos_user_bde` is loaded, whether its device node is there. -/
structure BdeModules where
  ledger : Ledger KernelRes
  drvdata : ℕ → Option NosBdePriv
  bdePriv : Option NosBdePriv
  user : Option Bool

def BdeModules.blank : BdeModules := ⟨.blank, fun _ => none, none, none⟩

/-! ### `nos_bde_probe` and `nos_bde_remove` -/

/-- A block of coherent memory, which starts at a page. -/
structure DmaBlock where
  vbase : ℕ
  pbase : ℕ
  aligned : 2 ^ PAGE_SHIFT ∣ pbase

/-- What the kernel answers during a probe: an address is `none` where NULL is returned. -/
structure ProbeEnv where
  kzalloc : Bool
  pciEnableDevice : Option Errno
  pciRequestRegions : Option Errno
  pciIomap : Option ℕ
  dmaAllocCoherent : Option DmaBlock
  irq : ℕ
  requestIrq : Bool

/-- The labels, each falling through to the next. -/
def errFree (pdev : ℕ) (l : Ledger KernelRes) : Ledger KernelRes := l.give (.priv pdev)

def errDisable (pdev : ℕ) (l : Ledger KernelRes) : Ledger KernelRes :=
  errFree pdev (l.give (.enabled pdev))

def errRelease (pdev : ℕ) (l : Ledger KernelRes) : Ledger KernelRes :=
  errDisable pdev (l.give (.regions pdev))

def errIounmap (pdev bar0 : ℕ) (l : Ledger KernelRes) : Ledger KernelRes :=
  errRelease pdev (l.give (.bar0 pdev bar0))

def errDma (pdev bar0 : ℕ) (dma : DmaBlock) (l : Ledger KernelRes) : Ledger KernelRes :=
  errIounmap pdev bar0 (l.give (.dma pdev dma.vbase dma.pbase DMA_POOL_SIZE))

/-- The books after the probe and the private data, unless it fails. -/
def probeLedger (env : ProbeEnv) (pdev : ℕ) (l : Ledger KernelRes) :
    Rc NosBdePriv × Ledger KernelRes :=
  if !env.kzalloc then (.error .enomem, l)
  else
    let l := l.take (.priv pdev)
    match env.pciEnableDevice with
    | some rc => (.error rc, errFree pdev l)
    | none =>
      let l := l.take (.enabled pdev)
      match env.pciRequestRegions with
      | some rc => (.error rc, errDisable pdev l)
      | none =>
        let l := l.take (.regions pdev)
        match env.pciIomap with
        | none => (.error .enomem, errRelease pdev l)
        | some bar0 =>
          let l := l.take (.bar0 pdev bar0)
          match env.dmaAllocCoherent with
          | none => (.error .enomem, errIounmap pdev bar0 l)
          | some dma =>
            let l := l.take (.dma pdev dma.vbase dma.pbase DMA_POOL_SIZE)
            if !env.requestIrq then (.error .eio, errDma pdev bar0 dma l)
            else (.ok ⟨pdev, bar0, dma.vbase, dma.pbase, DMA_POOL_SIZE, env.irq⟩,
              l.take (.irq pdev env.irq))

def nosBdeProbe (env : ProbeEnv) (pdev : ℕ) (s : BdeModules) : Rc Unit × BdeModules :=
  match probeLedger env pdev s.ledger with
  | (.error rc, l) => (.error rc, { s with ledger := l })
  | (.ok priv, l) => (.ok (), { s with
      ledger := l
      drvdata := Function.update s.drvdata pdev (some priv)
      bdePriv := some priv })

def nosBdeRemove (pdev : ℕ) (s : BdeModules) : BdeModules :=
  match s.drvdata pdev with
  | none => s
  | some priv => { s with
      bdePriv := none
      ledger := s.ledger.giveAll [.irq pdev priv.irq,
        .dma pdev priv.dmaVbase priv.dmaPbase priv.dmaSize, .bar0 pdev priv.bar0,
        .regions pdev, .enabled pdev, .priv pdev]
      drvdata := Function.update s.drvdata pdev none }

/-! ### What `nos_kernel_bde` exports -/

def nosBdeGetBar0 (s : BdeModules) : Option ℕ := s.bdePriv.map NosBdePriv.bar0

def nosBdeGetDmaPbase (s : BdeModules) : ℕ := (s.bdePriv.map NosBdePriv.dmaPbase).getD 0

def nosBdeGetDmaSize (s : BdeModules) : ℕ := (s.bdePriv.map NosBdePriv.dmaSize).getD 0

/-! ### `nos_user_bde` -/

structure UserEnv where
  classCreate : Option Errno
  allocChrdevRegion : Option Errno
  cdevAdd : Option Errno
  deviceCreate : NodeReply

def nosUserBdeInit (env : UserEnv) (s : BdeModules) : Rc Unit × BdeModules :=
  match env.classCreate with
  | some rc => (.error rc, s)
  | none =>
    let l := s.ledger.take .userClass
    match env.allocChrdevRegion with
    | some rc => (.error rc, { s with ledger := l.give .userClass })
    | none =>
      let l := l.take .chrdevRegion
      match env.cdevAdd with
      | some rc => (.error rc, { s with ledger := (l.give .chrdevRegion).give .userClass })
      | none =>
        let l := l.take .cdev
        match env.deviceCreate with
        | .null => (.error .enodev, { s with
            ledger := ((l.give .cdev).give .chrdevRegion).give .userClass })
        | .errPtr => (.ok (), { s with ledger := l, user := some false })
        | .created => (.ok (), { s with ledger := l.take .deviceNode, user := some true })

/-- `device_destroy` looks the node up first. -/
def deviceDestroy (l : Ledger KernelRes) : Ledger KernelRes :=
  if l.held .deviceNode = 0 then l else l.give .deviceNode

def nosUserBdeExit (s : BdeModules) : BdeModules :=
  { s with
    ledger := (deviceDestroy s.ledger).giveAll [.cdev, .chrdevRegion, .userClass]
    user := none }

/-! ### `nos_bde_mmap` -/

/-- The frames a mapping shows and its length in bytes. -/
structure Mapping where
  pfn : ℕ
  length : ℕ

/-- `remap` is the answer of `remap_pfn_range`. -/
def nosBdeMmap (s : BdeModules) (vmStart vmEnd : ℕ) (remap : Option Errno) : Rc Mapping :=
  let size := nosBdeGetDmaSize s
  let pbase := nosBdeGetDmaPbase s
  if nosBdeGetBar0 s = none ∨ pbase = 0 ∨ size = 0 then .error .enodev
  else if vmEnd - vmStart > size then .error .einval
  else match remap with
    | some rc => .error rc
    | none => .ok ⟨pbase >>> PAGE_SHIFT, vmEnd - vmStart⟩

/-! ### Histories -/

/-- What the PCI core and the module loader do. A device that is bound is not probed again,
and only a module that is loaded is unloaded. -/
inductive BdeEvent
  | probe (env : ProbeEnv) (pdev : ℕ)
  | remove (pdev : ℕ)
  | load (env : UserEnv)
  | unload

def BdeModules.step (s : BdeModules) : BdeEvent → BdeModules
  | .probe env pdev => if s.drvdata pdev = none then (nosBdeProbe env pdev s).2 else s
  | .remove pdev => nosBdeRemove pdev s
  | .load env => if s.user = none then (nosUserBdeInit env s).2 else s
  | .unload => if s.user = none then s else nosUserBdeExit s

/-! ### What the modules own -/

/-- What a bound device uses. -/
def NosBdePriv.uses (p : NosBdePriv) (pdev : ℕ) : List KernelRes :=
  [.priv pdev, .enabled pdev, .regions pdev, .bar0 pdev p.bar0,
    .dma pdev p.dmaVbase p.dmaPbase p.dmaSize, .irq pdev p.irq]

/-- What the character device uses, with or without its node. -/
def userUses (node : Bool) : List KernelRes :=
  [.userClass, .chrdevRegion, .cdev] ++ if node then [.deviceNode] else []

/-- The device a thing is taken for; the others are the character device's. -/
def KernelRes.pdev : KernelRes → Option ℕ
  | .priv pdev | .enabled pdev | .regions pdev | .bar0 pdev _ | .dma pdev _ _ _
  | .irq pdev _ => some pdev
  | .userClass | .chrdevRegion | .cdev | .deviceNode => none

/-- How many of a thing the bound devices and the character device use. -/
def BdeModules.uses (s : BdeModules) (r : KernelRes) : ℕ :=
  match r.pdev with
  | some pdev => ((s.drvdata pdev).map fun p => (p.uses pdev).count r).getD 0
  | none => (s.user.map fun node => (userUses node).count r).getD 0

/-- The books are right, and `bde_priv` is that of a bound device or none. -/
structure BdeModules.Sound (s : BdeModules) : Prop where
  books : s.ledger.Balanced s.uses
  exported : ∀ p, s.bdePriv = some p → s.drvdata p.pdev = some p
  bound : ∀ pdev p, s.drvdata pdev = some p → p.pdev = pdev ∧ 2 ^ PAGE_SHIFT ∣ p.dmaPbase

variable {s : BdeModules} {pdev : ℕ} {p : NosBdePriv}

theorem pdev_of_mem_uses {r : KernelRes} (h : r ∈ p.uses pdev) : r.pdev = some pdev := by
  simp only [NosBdePriv.uses, List.mem_cons, List.not_mem_nil, or_false] at h
  rcases h with rfl | rfl | rfl | rfl | rfl | rfl <;> rfl

theorem pdev_of_mem_userUses {node : Bool} {r : KernelRes} (h : r ∈ userUses node) :
    r.pdev = none := by
  cases node <;>
  · simp only [userUses, Bool.false_eq_true, if_true, if_false, List.append_nil,
      List.cons_append, List.nil_append, List.mem_cons, List.not_mem_nil, or_false] at h
    rcases h with rfl | rfl | rfl | rfl <;> rfl

/-- A device that comes to be bound adds its uses. -/
theorem uses_bound (hnone : s.drvdata pdev = none) (l : Ledger KernelRes)
    (b : Option NosBdePriv) (r : KernelRes) :
    BdeModules.uses ⟨l, Function.update s.drvdata pdev (some p), b, s.user⟩ r =
      s.uses r + (p.uses pdev).count r := by
  unfold BdeModules.uses
  cases hr : r.pdev with
  | none =>
    have hcount : (p.uses pdev).count r = 0 :=
      List.count_eq_zero.mpr fun h => by simp [pdev_of_mem_uses h] at hr
    rw [hcount, Nat.add_zero]
  | some d =>
    dsimp only
    by_cases hd : d = pdev
    · rw [hd, Function.update_self, hnone]
      exact (Nat.zero_add _).symm
    · have hcount : (p.uses pdev).count r = 0 :=
        List.count_eq_zero.mpr fun h => hd (Option.some.inj (hr.symm.trans (pdev_of_mem_uses h)))
      rw [Function.update_of_ne hd, hcount, Nat.add_zero]

/-- The character device adds its own. -/
theorem uses_loaded (hnone : s.user = none) (l : Ledger KernelRes) (node : Bool)
    (r : KernelRes) : BdeModules.uses ⟨l, s.drvdata, s.bdePriv, some node⟩ r =
      s.uses r + (userUses node).count r := by
  unfold BdeModules.uses
  cases hr : r.pdev with
  | none =>
    dsimp only
    rw [hnone]
    exact (Nat.zero_add _).symm
  | some d =>
    have hcount : (userUses node).count r = 0 :=
      List.count_eq_zero.mpr fun h => by simp [pdev_of_mem_userUses h] at hr
    rw [hcount, Nat.add_zero]

/-! ### One call -/

/-- A probe that fails leaves the books as they were. -/
theorem probeLedger_cases (env : ProbeEnv) (pdev : ℕ) (l : Ledger KernelRes) :
    (∃ rc, probeLedger env pdev l = (.error rc, l)) ∨
    ∃ p, p.pdev = pdev ∧ 2 ^ PAGE_SHIFT ∣ p.dmaPbase ∧
      probeLedger env pdev l = (.ok p, l.takeAll (p.uses pdev)) := by
  unfold probeLedger
  by_cases hk : env.kzalloc = true
  · cases henable : env.pciEnableDevice with
    | some rc => exact .inl ⟨rc, by simp [hk, errFree]⟩
    | none =>
      cases hregions : env.pciRequestRegions with
      | some rc => exact .inl ⟨rc, by simp [hk, errFree, errDisable]⟩
      | none =>
        cases hiomap : env.pciIomap with
        | none => exact .inl ⟨.enomem, by simp [hk, errFree, errDisable, errRelease]⟩
        | some bar0 =>
          cases hdma : env.dmaAllocCoherent with
          | none =>
            exact .inl ⟨.enomem, by simp [hk, errFree, errDisable, errRelease, errIounmap]⟩
          | some dma =>
            by_cases hirq : env.requestIrq = true
            · exact .inr ⟨⟨pdev, bar0, dma.vbase, dma.pbase, DMA_POOL_SIZE, env.irq⟩, rfl,
                dma.aligned, by simp [hk, hirq, NosBdePriv.uses, Ledger.takeAll]⟩
            · exact .inl ⟨.eio, by
                simp [hk, hirq, errFree, errDisable, errRelease, errIounmap, errDma]⟩
  · exact .inl ⟨.enomem, by simp [hk]⟩

theorem nosBdeProbe_cases (env : ProbeEnv) (pdev : ℕ) (s : BdeModules) :
    (∃ rc, nosBdeProbe env pdev s = (.error rc, s)) ∨
    ∃ p, p.pdev = pdev ∧ 2 ^ PAGE_SHIFT ∣ p.dmaPbase ∧ nosBdeProbe env pdev s =
      (.ok (), ⟨s.ledger.takeAll (p.uses pdev), Function.update s.drvdata pdev (some p), some p,
        s.user⟩) := by
  rw [nosBdeProbe]
  obtain ⟨rc, hprobe⟩ | ⟨p, hp, haligned, hprobe⟩ := probeLedger_cases env pdev s.ledger
  · exact .inl ⟨rc, by rw [hprobe]⟩
  · exact .inr ⟨p, hp, haligned, by rw [hprobe]⟩

theorem BdeModules.Sound.probe (h : s.Sound) (env : ProbeEnv) (hnone : s.drvdata pdev = none) :
    (nosBdeProbe env pdev s).2.Sound := by
  obtain ⟨rc, hprobe⟩ | ⟨p, hp, haligned, hprobe⟩ := nosBdeProbe_cases env pdev s
  · rw [hprobe]
    exact h
  · rw [hprobe]
    refine ⟨h.books.takeAll fun r => uses_bound hnone _ _ r, ?_, fun d q hq => ?_⟩
    · rintro q ⟨⟩
      rw [hp]
      exact Function.update_self ..
    · dsimp only at hq
      by_cases hd : d = pdev
      · subst hd
        rw [Function.update_self] at hq
        cases hq
        exact ⟨hp, haligned⟩
      · rw [Function.update_of_ne hd] at hq
        exact h.bound d q hq

theorem nosBdeRemove_of_bound (hbound : s.drvdata pdev = some p) : nosBdeRemove pdev s =
    ⟨s.ledger.giveAll (p.uses pdev).reverse, Function.update s.drvdata pdev none, none,
      s.user⟩ := by
  rw [nosBdeRemove, hbound]
  rfl

theorem BdeModules.Sound.remove (h : s.Sound) (pdev : ℕ) : (nosBdeRemove pdev s).Sound := by
  cases hbound : s.drvdata pdev with
  | none =>
    have hsame : nosBdeRemove pdev s = s := by rw [nosBdeRemove, hbound]
    rwa [hsame]
  | some p =>
    rw [nosBdeRemove_of_bound hbound]
    refine ⟨h.books.giveAll fun r => ?_, fun q hq => (by cases hq), fun d q hq => ?_⟩
    · -- the state before is the one after with the device bound again
      have hback := uses_bound (s := ⟨s.ledger, Function.update s.drvdata pdev none, none, s.user⟩)
        (p := p) (Function.update_self ..) s.ledger s.bdePriv r
      rw [Function.update_idem, ← hbound, Function.update_eq_self] at hback
      rw [List.count_reverse]
      exact hback
    · dsimp only at hq
      by_cases hd : d = pdev
      · rw [hd, Function.update_self] at hq
        cases hq
      · rw [Function.update_of_ne hd] at hq
        exact h.bound d q hq

theorem nosUserBdeInit_cases (env : UserEnv) (s : BdeModules) :
    (∃ rc, nosUserBdeInit env s = (.error rc, s)) ∨
    ∃ node, nosUserBdeInit env s =
      (.ok (), ⟨s.ledger.takeAll (userUses node), s.drvdata, s.bdePriv, some node⟩) := by
  unfold nosUserBdeInit
  cases hclass : env.classCreate with
  | some rc => exact .inl ⟨rc, rfl⟩
  | none =>
    cases hregion : env.allocChrdevRegion with
    | some rc => exact .inl ⟨rc, by simp⟩
    | none =>
      cases hcdev : env.cdevAdd with
      | some rc => exact .inl ⟨rc, by simp⟩
      | none =>
        cases hnode : env.deviceCreate with
        | null => exact .inl ⟨.enodev, by simp⟩
        | errPtr => exact .inr ⟨false, rfl⟩
        | created => exact .inr ⟨true, rfl⟩

theorem BdeModules.Sound.load (h : s.Sound) (env : UserEnv) (hnone : s.user = none) :
    (nosUserBdeInit env s).2.Sound := by
  obtain ⟨rc, hinit⟩ | ⟨node, hinit⟩ := nosUserBdeInit_cases env s
  · rw [hinit]
    exact h
  · rw [hinit]
    exact ⟨h.books.takeAll fun r => uses_loaded hnone _ _ r, h.exported, h.bound⟩

/-- The node goes first, if it is there. -/
theorem nosUserBdeExit_eq {node : Bool} (h : s.Sound) (hloaded : s.user = some node) :
    nosUserBdeExit s = ⟨s.ledger.giveAll (userUses node).reverse, s.drvdata, s.bdePriv, none⟩ := by
  have hheld : s.ledger.held .deviceNode = if node then 1 else 0 := by
    rw [h.books.held, BdeModules.uses]
    simp only [KernelRes.pdev, hloaded, Option.map_some, Option.getD_some]
    cases node <;> rfl
  rw [nosUserBdeExit, deviceDestroy, hheld]
  cases node <;> rfl

theorem BdeModules.Sound.unload {node : Bool} (h : s.Sound) (hloaded : s.user = some node) :
    (nosUserBdeExit s).Sound := by
  rw [nosUserBdeExit_eq h hloaded]
  refine ⟨h.books.giveAll fun r => ?_, h.exported, h.bound⟩
  have hback := uses_loaded (s := ⟨s.ledger, s.drvdata, s.bdePriv, none⟩) rfl s.ledger node r
  rw [← hloaded] at hback
  rw [List.count_reverse]
  exact hback

theorem BdeModules.Sound.step (h : s.Sound) (e : BdeEvent) : (s.step e).Sound := by
  cases e with
  | probe env pdev =>
    rw [BdeModules.step]
    split
    · next hnone => exact h.probe env hnone
    · exact h
  | remove pdev => exact h.remove pdev
  | load env =>
    rw [BdeModules.step]
    split
    · next hnone => exact h.load env hnone
    · exact h
  | unload =>
    rw [BdeModules.step]
    cases hloaded : s.user with
    | none => exact h
    | some node => exact h.unload hloaded

theorem BdeModules.Sound.blank : BdeModules.blank.Sound where
  books := ⟨rfl, fun r => by cases r <;> rfl⟩
  exported _ h := by cases h
  bound _ _ h := by cases h

/-! ### Over whole histories -/

/-- The modules after a history. -/
def bdeAfter (events : List BdeEvent) : BdeModules := run BdeModules.step .blank events

theorem bdeAfter_sound (events : List BdeEvent) : (bdeAfter events).Sound := by
  have h : Throughout BdeModules.step BdeModules.Sound .blank events :=
    throughout_of_step (fun _ e h => h.step e) .blank events
  exact h.final

/-- Whatever is probed, removed, loaded and unloaded, and whichever steps are refused: nothing
is given back that is not held, and what is held is what the bound devices and the loaded
character device use. -/
theorem modules_balanced (events : List BdeEvent) :
    (bdeAfter events).ledger.Balanced (bdeAfter events).uses :=
  (bdeAfter_sound events).books

theorem BdeModules.Sound.held_of_uses (h : s.Sound) (hbound : s.drvdata pdev = some p)
    {r : KernelRes} (hr : r ∈ p.uses pdev) : 0 < s.ledger.held r := by
  rw [h.books.held, BdeModules.uses, pdev_of_mem_uses hr]
  simp only [hbound, Option.map_some, Option.getD_some]
  exact List.count_pos_iff.mpr hr

theorem nosBdeMmap_eq_ok {vmStart vmEnd : ℕ} {remap : Option Errno} {m : Mapping}
    (h : nosBdeMmap s vmStart vmEnd remap = .ok m) : ∃ p, s.bdePriv = some p ∧
      m.pfn = p.dmaPbase >>> PAGE_SHIFT ∧ m.length = vmEnd - vmStart ∧ m.length ≤ p.dmaSize := by
  unfold nosBdeMmap at h
  dsimp only at h
  split_ifs at h with hnone hlong
  cases hpriv : s.bdePriv with
  | none => exact absurd (.inl (by rw [nosBdeGetBar0, hpriv]; rfl)) hnone
  | some p =>
    cases remap with
    | some rc => cases h
    | none =>
      cases h
      have hpbase : nosBdeGetDmaPbase s = p.dmaPbase := by rw [nosBdeGetDmaPbase, hpriv]; rfl
      have hsize : nosBdeGetDmaSize s = p.dmaSize := by rw [nosBdeGetDmaSize, hpriv]; rfl
      rw [hsize, not_lt] at hlong
      exact ⟨p, rfl, by rw [hpbase], rfl, hlong⟩

/-- The registers that the ioctls reach are those of a mapping that is held, and a mapping of
the pool into user space stays within a block that is held. -/
theorem exports_held (events : List BdeEvent) :
    (∀ addr, nosBdeGetBar0 (bdeAfter events) = some addr →
      ∃ pdev, 0 < (bdeAfter events).ledger.held (.bar0 pdev addr)) ∧
    ∀ vmStart vmEnd remap m, nosBdeMmap (bdeAfter events) vmStart vmEnd remap = .ok m →
      ∃ pdev vbase pbase size, 0 < (bdeAfter events).ledger.held (.dma pdev vbase pbase size) ∧
        pbase ≤ m.pfn * 2 ^ PAGE_SHIFT ∧ m.pfn * 2 ^ PAGE_SHIFT + m.length ≤ pbase + size := by
  have h := bdeAfter_sound events
  refine ⟨fun addr haddr => ?_, fun vmStart vmEnd remap m hm => ?_⟩
  · obtain ⟨p, hp, rfl⟩ := Option.map_eq_some_iff.mp haddr
    exact ⟨p.pdev, h.held_of_uses (h.exported p hp) (by simp [NosBdePriv.uses])⟩
  · obtain ⟨p, hp, hpfn, -, hlength⟩ := nosBdeMmap_eq_ok hm
    have hbound := h.exported p hp
    have haligned : p.dmaPbase >>> PAGE_SHIFT * 2 ^ PAGE_SHIFT = p.dmaPbase := by
      rw [Nat.shiftRight_eq_div_pow]
      exact Nat.div_mul_cancel (h.bound _ p hbound).2
    refine ⟨p.pdev, p.dmaVbase, p.dmaPbase, p.dmaSize,
      h.held_of_uses hbound (by simp [NosBdePriv.uses]), ?_, ?_⟩
    · rw [hpfn, haligned]
    · rw [hpfn, haligned]
      exact Nat.add_le_add_left hlength _

end OpenNos.Bde
