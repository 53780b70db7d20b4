import OpenNos.Sdk.PktioAlloc

/-! `dma_alloc` in the arithmetic of the machine, with addresses of `w` bits. It aligns
the absolute address by masks and keeps the relative one, and sets the first page aside
when it maps the pool. Where nothing wraps it is the allocator on numbers, and so the
blocks lie apart from one another behind the first page. -/

namespace OpenNos.Sdk

open Bump History

variable {w : ℕ}

/-- What `bde_mmap_dma` returns and the size `bde_get_dma_info` reports. -/
structure DmaMapping (w : ℕ) where
  vbase : BitVec w
  size : BitVec 32

/-- The static variables of `dma_alloc`, what it has handed out, and which calls of the
BDE fail. -/
structure DmaWords (w : ℕ) where
  mapped : Bool
  size : BitVec 32
  off : BitVec w
  blocks : List Block
  mapFault : ℕ → Bool
  infoFault : Bool

structure DmaRequest (w : ℕ) where
  size : BitVec w
  align : BitVec w

/-- The next address of the alignment, from an offset on. -/
def DmaMapping.place (m : DmaMapping w) (off align : BitVec w) : BitVec w :=
  let p := m.vbase + off
  (p + (align - 1)) &&& ~~~(align - 1)

namespace DmaWords

/-- The mapping `dma_alloc` makes when there is none yet. -/
def map (m : DmaMapping w) (d : DmaWords w) : DmaWords w × Bool :=
  if d.mapped then (d, true)
  else if d.mapFault 0 ∨ m.size = 0 then
    ({ d with mapFault := fun n => d.mapFault (n + 1) }, false)
  else if d.infoFault then ({ d with mapped := true }, false)
  else
    ({ d with mapped := true, size := m.size, off := if d.off < 4096 then 4096 else d.off }, true)

def alloc (m : DmaMapping w) (d : DmaWords w) (r : DmaRequest w) :
    DmaWords w × Option (BitVec w) :=
  match d.map m with
  | (d, false) => (d, none)
  | (d, true) =>
    let a := m.place d.off r.align
    if m.vbase + d.size.setWidth w < a + r.size then (d, none)
    else
      ({ d with off := a - m.vbase + r.size, blocks := ⟨a.toNat, r.size.toNat⟩ :: d.blocks },
        some a)

def step (m : DmaMapping w) (d : DmaWords w) (r : DmaRequest w) : DmaWords w := (d.alloc m r).1

/-- Before the first request. -/
def start (mapFault : ℕ → Bool) (infoFault : Bool) : DmaWords w where
  mapped := false
  size := 0
  off := 0
  blocks := []
  mapFault := mapFault
  infoFault := infoFault

end DmaWords

/-- The mapping ends before the address space does. -/
def DmaMapping.NoWrap (m : DmaMapping w) : Prop := m.vbase.toNat + m.size.toNat < 2 ^ w

instance (m : DmaMapping w) : Decidable m.NoWrap := inferInstanceAs (Decidable (_ < _))

/-- The alignment is a power of two up to 4096, and no sum the request computes wraps. -/
structure DmaRequest.NoWrap (m : DmaMapping w) (d : DmaWords w) (r : DmaRequest w) : Prop where
  align : ∃ k ≤ 12, r.align.toNat = 2 ^ k
  next : m.vbase.toNat + (d.map m).1.off.toNat + (r.align.toNat - 1) < 2 ^ w
  block : alignUp (m.vbase.toNat + (d.map m).1.off.toNat) r.align.toNat + r.size.toNat < 2 ^ w

/-- What a request gets. -/
structure AllocSound (m : DmaMapping w) (d : DmaWords w) (r : DmaRequest w) : Prop where
  aligned : ∀ a, (d.alloc m r).2 = some a → r.align.toNat ∣ a.toNat
  /-- with an exception: where the size of the pool is unknown it is taken for 0, and an
  empty block fits -/
  inside : ∀ a, (d.alloc m r).2 = some a → d.infoFault = false ∨ r.size ≠ 0 →
    m.vbase.toNat + 4096 ≤ a.toNat ∧
      a.toNat + r.size.toNat ≤ m.vbase.toNat + m.size.toNat
  apart : ∀ a, (d.alloc m r).2 = some a →
    (∀ b ∈ d.blocks, Block.Apart ⟨a.toNat, r.size.toNat⟩ b) ∧
      (d.alloc m r).1.blocks = ⟨a.toNat, r.size.toNat⟩ :: d.blocks
  /-- a request that is refused leaves everything as it was -/
  refused : d.mapped = true → (d.alloc m r).2 = none → (d.alloc m r).1 = d
  /-- and one that fits is not refused -/
  fits : d.mapped = true → d.infoFault = false →
    alignUp (m.vbase.toNat + d.off.toNat) r.align.toNat + r.size.toNat ≤
      m.vbase.toNat + m.size.toNat → (d.alloc m r).2 ≠ none

/-! ### The allocator on numbers -/

def DmaMapping.pool (m : DmaMapping w) : DmaPool where
  vbase := m.vbase.toNat
  pbase := 0
  size := m.size

def DmaWords.abs (d : DmaWords w) : DmaState where
  mapped := d.mapped
  size := d.size.toNat
  off := d.off.toNat
  blocks := d.blocks
  mapFault := d.mapFault
  infoFault := d.infoFault

variable {m : DmaMapping w} {d : DmaWords w} {r : DmaRequest w}

theorem toNat_page (hw : 32 ≤ w) : (4096 : BitVec w).toNat = 4096 :=
  Nat.mod_eq_of_lt ((show 4096 < 2 ^ 32 by decide).trans_le (Nat.pow_le_pow_right (by decide) hw))

/-- The offset behind the first page. -/
theorem toNat_skipPage (hw : 32 ≤ w) (off : BitVec w) :
    (if off < 4096 then 4096 else off).toNat = max off.toNat 4096 := by
  have hpage := toNat_page hw
  by_cases h : off < 4096
  · rw [if_pos h, hpage]
    rw [BitVec.lt_def, hpage] at h
    omega
  · rw [if_neg h]
    rw [BitVec.lt_def, hpage] at h
    omega

theorem abs_map (hw : 32 ≤ w) (m : DmaMapping w) (d : DmaWords w) :
    d.abs.map m.pool = ((d.map m).1.abs, (d.map m).2) := by
  rw [DmaWords.map, DmaState.map]
  by_cases hmapped : d.mapped = true
  · rw [if_pos hmapped, if_pos (show d.abs.mapped = true from hmapped)]
  · rw [if_neg hmapped, if_neg (show ¬ d.abs.mapped = true from hmapped)]
    by_cases hfault : d.mapFault 0 ∨ m.size = 0
    · rw [if_pos hfault, if_pos (show d.abs.mapFault 0 ∨ m.pool.size = 0 from hfault)]
      rfl
    · rw [if_neg hfault, if_neg (show ¬ (d.abs.mapFault 0 ∨ m.pool.size = 0) from hfault)]
      by_cases hinfo : d.infoFault = true
      · rw [if_pos hinfo, if_pos (show d.abs.infoFault = true from hinfo)]
        rfl
      · rw [if_neg hinfo, if_neg (show ¬ d.abs.infoFault = true from hinfo)]
        simp only [DmaWords.abs, DmaMapping.pool, toNat_skipPage hw]

/-- Once the pool is mapped its size is known, and the first page is set aside. -/
structure Reserved (m : DmaMapping w) (d : DmaWords w) : Prop where
  page : d.mapped = true → d.infoFault = false → d.size = m.size ∧ 4096 ≤ d.off.toNat
  unknown : d.infoFault = true → d.size = 0
  size_le : d.size.toNat ≤ m.size.toNat

theorem Reserved.map (hw : 32 ≤ w) (h : Reserved m d) : Reserved m (d.map m).1 := by
  rw [DmaWords.map]
  by_cases hmapped : d.mapped = true
  · rwa [if_pos hmapped]
  · rw [if_neg hmapped]
    by_cases hfault : d.mapFault 0 ∨ m.size = 0
    · rw [if_pos hfault]
      exact ⟨fun hm => absurd hm hmapped, h.unknown, h.size_le⟩
    · rw [if_neg hfault]
      by_cases hinfo : d.infoFault = true
      · rw [if_pos hinfo]
        exact ⟨fun _ hi => absurd (hinfo.symm.trans hi) (by decide), h.unknown, h.size_le⟩
      · rw [if_neg hinfo]
        refine ⟨fun _ _ => ⟨rfl, ?_⟩, fun hi => absurd hi hinfo, le_rfl⟩
        dsimp only
        rw [toNat_skipPage hw]
        exact Nat.le_max_right _ _

/-- The place a request computes, where nothing wraps. -/
theorem toNat_place {off : BitVec w} {k : ℕ} (halign : r.align.toNat = 2 ^ k)
    (hnext : m.vbase.toNat + off.toNat + (r.align.toNat - 1) < 2 ^ w) :
    (m.place off r.align).toNat = alignUp (m.vbase.toNat + off.toNat) r.align.toNat := by
  have hsum : (m.vbase + off).toNat = m.vbase.toNat + off.toNat :=
    BitVec.toNat_add_of_lt (by omega)
  rw [DmaMapping.place, toNat_alignMask halign (by rwa [hsum]), hsum]

/-- The pool is not mapped, or the block does not fit. -/
def Refused (m : DmaMapping w) (d : DmaWords w) (r : DmaRequest w) : Prop :=
  (d.map m).2 = true → m.vbase.toNat + (d.map m).1.size.toNat <
    alignUp (m.vbase.toNat + (d.map m).1.off.toNat) r.align.toNat + r.size.toNat

/-- The block and the state after it. -/
structure Given (m : DmaMapping w) (d : DmaWords w) (r : DmaRequest w) (a : BitVec w) : Prop where
  mapped : (d.map m).2 = true
  place : a.toNat = alignUp (m.vbase.toNat + (d.map m).1.off.toNat) r.align.toNat
  fits : a.toNat + r.size.toNat ≤ m.vbase.toNat + (d.map m).1.size.toNat
  off : (a - m.vbase + r.size).toNat = a.toNat - m.vbase.toNat + r.size.toNat
  state : (d.alloc m r).1 = { (d.map m).1 with
    off := a - m.vbase + r.size, blocks := ⟨a.toNat, r.size.toNat⟩ :: (d.map m).1.blocks }

theorem alloc_cases (hw : 32 ≤ w) (hm : m.NoWrap) (hd : Reserved m d) (hr : r.NoWrap m d) :
    (Refused m d r ∧ d.alloc m r = ((d.map m).1, none)) ∨
      ∃ a, Given m d r a ∧ (d.alloc m r).2 = some a := by
  obtain ⟨⟨k, -, halign⟩, hnext, hblock⟩ := hr
  have hsize := (hd.map hw).size_le
  have ha := toNat_place halign hnext
  cases hmap : d.map m with
  | mk d' ok =>
    rw [hmap] at hnext hblock hsize ha
    dsimp only at hnext hblock hsize ha
    cases ok with
    | false =>
      refine .inl ⟨fun h => ?_, by rw [DmaWords.alloc, hmap]⟩
      rw [hmap] at h
      cases h
    | true =>
      have hlimit : (m.vbase + d'.size.setWidth w).toNat = m.vbase.toNat + d'.size.toNat := by
        have hset : (d'.size.setWidth w).toNat = d'.size.toNat := BitVec.toNat_setWidth_of_le hw
        rw [DmaMapping.NoWrap] at hm
        rw [BitVec.toNat_add_of_lt (by rw [hset]; omega), hset]
      have halloc : d.alloc m r =
          if m.vbase + d'.size.setWidth w < m.place d'.off r.align + r.size then (d', none)
          else ({ d' with
            off := m.place d'.off r.align - m.vbase + r.size
            blocks := ⟨(m.place d'.off r.align).toNat, r.size.toNat⟩ :: d'.blocks },
              some (m.place d'.off r.align)) := by
        rw [DmaWords.alloc, hmap]
      rw [← ha] at hblock
      generalize m.place d'.off r.align = a at ha hblock halloc
      have hend : (a + r.size).toNat = a.toNat + r.size.toNat := BitVec.toNat_add_of_lt hblock
      have hge : m.vbase.toNat ≤ a.toNat := by
        have hup := le_alignUp (halign ▸ Nat.two_pow_pos k) (m.vbase.toNat + d'.off.toNat)
        omega
      by_cases hroom : m.vbase + d'.size.setWidth w < a + r.size
      · rw [if_pos hroom] at halloc
        rw [BitVec.lt_def, hlimit, hend, ha] at hroom
        exact .inl ⟨fun _ => by rw [hmap]; exact hroom, halloc⟩
      · rw [if_neg hroom] at halloc
        rw [BitVec.lt_def, hlimit, hend] at hroom
        have hoff : (a - m.vbase + r.size).toNat = a.toNat - m.vbase.toNat + r.size.toNat := by
          have hsub : (a - m.vbase).toNat = a.toNat - m.vbase.toNat :=
            BitVec.toNat_sub_of_le (BitVec.le_def.mpr hge)
          rw [BitVec.toNat_add_of_lt (by rw [hsub]; omega), hsub]
        refine .inr ⟨a, ⟨by rw [hmap], by rw [hmap, ha], ?_, hoff, by rw [halloc, hmap]⟩,
          by rw [halloc]⟩
        rw [hmap]
        exact Nat.le_of_not_lt hroom

/-- Where nothing wraps the request does what the allocator on numbers does. -/
theorem abs_alloc (hw : 32 ≤ w) (hm : m.NoWrap) (hd : Reserved m d) (hr : r.NoWrap m d) :
    dmaAlloc m.pool d.abs r.size.toNat r.align.toNat =
      ((d.alloc m r).1.abs, (d.alloc m r).2.map BitVec.toNat) := by
  have hplace : m.pool.vbase + (d.map m).1.abs.off =
    m.vbase.toNat + (d.map m).1.off.toNat := rfl
  have hlimit : m.pool.vbase + (d.map m).1.abs.size =
    m.vbase.toNat + (d.map m).1.size.toNat := rfl
  rw [dmaAlloc, abs_map hw]
  rcases alloc_cases hw hm hd hr with ⟨hno, halloc⟩ | ⟨a, ha, hsome⟩
  · rw [halloc]
    cases hok : (d.map m).2 with
    | false => rfl
    | true =>
      dsimp only
      rw [hplace, hlimit, fit, if_pos (hno hok)]
      rfl
  · have hfit := ha.fits
    rw [ha.place] at hfit
    rw [ha.mapped, hsome, ha.state]
    dsimp only
    rw [hplace, hlimit, fit, if_neg (Nat.not_lt.mpr hfit)]
    simp only [DmaWords.abs, DmaMapping.pool, ha.off, ha.place, Option.map_some]

/-! ### What requests get -/

/-- The invariant of the requests. -/
structure DmaWords.Inv (m : DmaMapping w) (d : DmaWords w) : Prop where
  reserved : Reserved m d
  blocks : d.abs.Inv m.pool

theorem map_of_mapped (h : d.mapped = true) : d.map m = (d, true) := if_pos h

@[simp] theorem map_blocks (m : DmaMapping w) (d : DmaWords w) :
    (d.map m).1.blocks = d.blocks := by
  rw [DmaWords.map]
  split_ifs <;> rfl

@[simp] theorem map_infoFault (m : DmaMapping w) (d : DmaWords w) :
    (d.map m).1.infoFault = d.infoFault := by
  rw [DmaWords.map]
  split_ifs <;> rfl

theorem mapped_of_map (h : (d.map m).2 = true) : (d.map m).1.mapped = true := by
  rw [DmaWords.map] at h ⊢
  split_ifs at h ⊢ with hmapped
  · exact hmapped
  · rfl
  · rfl

theorem DmaRequest.NoWrap.align_pos (h : r.NoWrap m d) : 0 < r.align.toNat := by
  obtain ⟨k, -, hk⟩ := h.align
  exact hk ▸ Nat.two_pow_pos k

theorem Given.le {a : BitVec w} (h : Given m d r a) (hr : r.NoWrap m d) :
    m.vbase.toNat + (d.map m).1.off.toNat ≤ a.toNat :=
  h.place ▸ le_alignUp hr.align_pos _

theorem DmaWords.Inv.step (hw : 32 ≤ w) (hm : m.NoWrap) (h : d.Inv m) (hr : r.NoWrap m d) :
    (d.step m r).Inv m := by
  have hmap := h.reserved.map hw
  constructor
  · rcases alloc_cases hw hm h.reserved hr with ⟨-, halloc⟩ | ⟨a, ha, -⟩
    · rwa [DmaWords.step, halloc]
    · rw [DmaWords.step, ha.state]
      refine ⟨fun hmapped hinfo => ⟨(hmap.page hmapped hinfo).1, ?_⟩, hmap.unknown, hmap.size_le⟩
      have hpage := (hmap.page hmapped hinfo).2
      have hle := ha.le hr
      dsimp only
      rw [ha.off]
      omega
  · have hinv := (h.blocks.alloc hr.align_pos r.size.toNat).1
    rwa [abs_alloc hw hm h.reserved hr] at hinv

theorem DmaWords.Inv.allocSound (hw : 32 ≤ w) (hm : m.NoWrap) (h : d.Inv m) (hr : r.NoWrap m d) :
    AllocSound m d r := by
  have hmap := h.reserved.map hw
  have hstep := (h.step hw hm hr).blocks.laid.apart
  rcases alloc_cases hw hm h.reserved hr with ⟨hno, halloc⟩ | ⟨a, ha, hsome⟩
  · refine ⟨fun a ha => ?_, fun a ha => ?_, fun a ha => ?_, fun hmapped _ => ?_,
      fun hmapped hinfo hfit => ?_⟩
    · rw [halloc] at ha
      cases ha
    · rw [halloc] at ha
      cases ha
    · rw [halloc] at ha
      cases ha
    · rw [halloc, map_of_mapped hmapped]
    · have hsize := (h.reserved.page hmapped hinfo).1
      rw [Refused, map_of_mapped hmapped, hsize] at hno
      exact absurd (hno rfl) (Nat.not_lt.mpr hfit)
  · have hblocks : (d.alloc m r).1.blocks = ⟨a.toNat, r.size.toNat⟩ :: d.blocks := by
      rw [ha.state, map_blocks]
    refine ⟨fun a' ha' => ?_, fun a' ha' hsize => ?_, fun a' ha' => ?_, fun _ hnone => ?_,
      fun _ _ _ => ?_⟩
    · obtain rfl := Option.some.inj (hsome.symm.trans ha')
      rw [ha.place]
      exact dvd_alignUp _ _
    · obtain rfl := Option.some.inj (hsome.symm.trans ha')
      have hle := ha.le hr
      have hfits := ha.fits
      cases hinfo : d.infoFault with
      | false =>
        obtain ⟨hsize, hpage⟩ := hmap.page (mapped_of_map ha.mapped) (by rw [map_infoFault, hinfo])
        rw [hsize] at hfits
        exact ⟨by omega, hfits⟩
      | true =>
        have hzero := hmap.unknown (by rw [map_infoFault, hinfo])
        rw [hzero, show (0 : BitVec 32).toNat = 0 from rfl] at hfits
        have hempty : r.size = 0 := BitVec.eq_of_toNat_eq
          (show r.size.toNat = 0 % 2 ^ w by rw [Nat.zero_mod]; omega)
        rw [hinfo] at hsize
        exact absurd hempty (hsize.resolve_left (by decide))
    · obtain rfl := Option.some.inj (hsome.symm.trans ha')
      refine ⟨?_, hblocks⟩
      change ((d.step m r).blocks).Pairwise _ at hstep
      rw [DmaWords.step, hblocks] at hstep
      exact (List.pairwise_cons.mp hstep).1
    · rw [hsome] at hnone
      cases hnone
    · rw [hsome]
      nofun

theorem inv_start (m : DmaMapping w) (mapFault : ℕ → Bool) (infoFault : Bool) :
    (DmaWords.start mapFault infoFault).Inv m where
  reserved := ⟨nofun, fun _ => rfl, Nat.zero_le _⟩
  blocks := ⟨laid_nil _ _, Nat.zero_le _, nofun⟩

/-- Whatever calls of the BDE fail, every request of a sequence in which nothing wraps
gets a block of its own in the pool, or nothing. -/
theorem dmaAlloc_sound (hw : 32 ≤ w) (hm : m.NoWrap) (mapFault : ℕ → Bool) (infoFault : Bool)
    {rs : List (DmaRequest w)}
    (hrs : EachStep (DmaWords.step m) (fun d r => r.NoWrap m d)
      (DmaWords.start mapFault infoFault) rs) :
    EachStep (DmaWords.step m) (AllocSound m) (DmaWords.start mapFault infoFault) rs :=
  EachStep.of_keep (fun _ _ h hr => h.step hw hm hr) (fun _ _ h hr => h.allocSound hw hm hr)
    (inv_start m mapFault infoFault) hrs

/-- A pool of 8192 bytes: a block, one that does not fit, and a smaller one. -/
theorem dmaAlloc_sound_small :
    EachStep (DmaWords.step { vbase := 0x10000#32, size := 8192 })
      (AllocSound { vbase := 0x10000#32, size := 8192 })
      (DmaWords.start (fun _ => false) false) [⟨100, 64⟩, ⟨4096, 16⟩, ⟨2048, 16⟩] :=
  dmaAlloc_sound (by decide) (by decide) _ _
    ⟨⟨⟨6, by decide, by decide⟩, by decide, by decide⟩,
      ⟨⟨4, by decide, by decide⟩, by decide, by decide⟩,
      ⟨⟨4, by decide, by decide⟩, by decide, by decide⟩, trivial⟩

end OpenNos.Sdk
