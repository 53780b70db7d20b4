import OpenNos.Lib.History
import OpenNos.Switchd.IfName

/-! The map from interface indexes to ports over a history of link messages. The
kernel tells which interface an index stands for by RTM_NEWLINK with a name, and by
RTM_DELLINK of the family AF_UNSPEC; an RTM_DELLINK of the family AF_BRIDGE says only
that the interface left a bridge. `handle_link` does not read the family, and leaves
the map alone when the name is not one of a port; so the map is exact in the histories
where no such message finds its index mapped, and every name is plainly numbered. -/

namespace OpenNos.Switchd

open Sdk Cstring History

def AF_UNSPEC : BitVec 8 := 0

/-- An RTM_NEWLINK or RTM_DELLINK with the family in its header, which `handle_link`
does not read. -/
structure LinkMsg where
  ifiFamily : BitVec 8
  del : Bool
  m : Nlmsg Ifinfomsg

/-- The thread, and the messages it has handled, the latest first. -/
structure MapState where
  net : NetState
  log : List LinkMsg

def MapState.start (sdk : SdkState) : MapState where
  net := NetState.init sdk
  log := []

/-- One message goes through `dispatch`. -/
def linkStep (r : MapState) (x : LinkMsg) : MapState where
  net := dispatch r.net (.link x.del x.m)
  log := x :: r.log

/-- A whole header, with this index. -/
def LinkMsg.IsAbout (x : LinkMsg) (i : ℕ) : Prop :=
  NLMSG_LENGTH 16 ≤ x.m.nlmsgLen ∧ x.m.hdr.ifiIndex.toNat = i

instance (x : LinkMsg) (i : ℕ) : Decidable (x.IsAbout i) := inferInstanceAs (Decidable (_ ∧ _))

/-- The message tells which interface the index stands for. -/
def LinkMsg.Tells (x : LinkMsg) (i : ℕ) : Prop :=
  x.IsAbout i ∧ if x.del then x.ifiFamily = AF_UNSPEC else (linkName x.m).isSome

instance (x : LinkMsg) (i : ℕ) : Decidable (x.Tells i) := inferInstanceAs (Decidable (_ ∧ _))

/-- The message gives the interface the name of this port. -/
def LinkMsg.Names (x : LinkMsg) (p : ℤ) : Prop :=
  x.del = false ∧ ∃ name, linkName x.m = some name ∧ PortName name p

/-- The latest message that tells about the index names this port. -/
def LatestNames (log : List LinkMsg) (i : ℕ) (p : ℤ) : Prop :=
  ∃ x, log.find? (·.Tells i) = some x ∧ x.Names p

/-- The map holds the port that the latest message names, -1 where it names none. -/
def MapExact (r : MapState) : Prop :=
  ∀ i, 1 ≤ i → i < MAX_IFINDEX →
    (∀ p, p ≠ -1 → (r.net.ifindexToPort i = p ↔ LatestNames r.log i p)) ∧
      ((∀ p, ¬ LatestNames r.log i p) → r.net.ifindexToPort i = -1)

/-- An RTM_DELLINK of another family than AF_UNSPEC, and an RTM_NEWLINK with a name
that is no port's, find the index unmapped, and a name that numbers a port does so
plainly. -/
def UnmappedAt (r : MapState) (x : LinkMsg) (i : ℕ) : Prop :=
  (x.del = true → x.ifiFamily ≠ AF_UNSPEC → r.net.ifindexToPort i = -1) ∧
    (x.del = false → ∀ name, linkName x.m = some name →
      PlainlyNumbered name ∧ ((∀ n, ¬ PortName name n) → r.net.ifindexToPort i = -1))

/-- The condition on a message, if it is about an index of the map. -/
def FindsUnmapped (r : MapState) (x : LinkMsg) : Prop :=
  ∀ i, 1 ≤ i → i < MAX_IFINDEX → x.IsAbout i → UnmappedAt r x i

variable {r : MapState} {x : LinkMsg} {i : ℕ} {p : ℤ}

/-! ### What a message does to the map -/

/-- An RTM_DELLINK unmaps its index, an RTM_NEWLINK with a name that is accepted maps
it. -/
theorem handleLink_map (s : NetState) (x : LinkMsg) (hi : i < MAX_IFINDEX) :
    (handleLink s x.del x.m).1.ifindexToPort i =
      if x.IsAbout i then
        if x.del then -1
        else ((linkName x.m).bind ifnameToPort).getD (s.ifindexToPort i)
      else s.ifindexToPort i := by
  have hmap : ∀ port : ℤ, (if x.m.hdr.ifiIndex.toNat < MAX_IFINDEX then
      { s with ifindexToPort := Function.update s.ifindexToPort x.m.hdr.ifiIndex.toNat port }
      else s).ifindexToPort i =
        if x.m.hdr.ifiIndex.toNat = i then port else s.ifindexToPort i := by
    intro port
    by_cases heq : x.m.hdr.ifiIndex.toNat = i
    · rw [if_pos heq, heq, if_pos hi]
      exact Function.update_self ..
    · rw [if_neg heq]
      split
      · exact Function.update_of_ne (Ne.symm heq) ..
      · rfl
  rw [handleLink]
  dsimp only
  by_cases hlen : x.m.nlmsgLen < NLMSG_LENGTH 16
  · rw [if_pos hlen, if_neg fun h => absurd h.1 (by omega)]
  · have habout : x.IsAbout i ↔ x.m.hdr.ifiIndex.toNat = i :=
      ⟨fun h => h.2, fun h => ⟨by omega, h⟩⟩
    rw [if_neg hlen]
    simp only [habout]
    cases hdel : x.del with
    | true => rw [if_pos rfl, if_pos rfl, hmap]
    | false =>
      rw [if_neg Bool.false_ne_true, if_neg Bool.false_ne_true, linkName]
      cases htb : x.m.tb IFLA_IFNAME with
      | none => simp
      | some a =>
        cases hport : ifnameToPort (cstr a.data) with
        | none => simp [hport]
        | some port => simp only [hmap, Option.map_some, Option.bind_some, hport, Option.getD_some]

theorem linkStep_map (hi : i < MAX_IFINDEX) :
    (linkStep r x).net.ifindexToPort i =
      if x.IsAbout i then
        if x.del then -1
        else ((linkName x.m).bind ifnameToPort).getD (r.net.ifindexToPort i)
      else r.net.ifindexToPort i := handleLink_map r.net x hi

theorem linkStep_log : (linkStep r x).log = x :: r.log := rfl

/-! ### What a message tells -/

theorem latestNames_of_tells (h : x.Tells i) : LatestNames (x :: r.log) i p ↔ x.Names p := by
  rw [LatestNames, List.find?_cons_of_pos (by simpa using h)]
  constructor
  · rintro ⟨y, hy, hp⟩
    rwa [Option.some.inj hy]
  · intro hp
    exact ⟨x, rfl, hp⟩

theorem latestNames_of_not_tells (h : ¬ x.Tells i) :
    LatestNames (x :: r.log) i p ↔ LatestNames r.log i p := by
  rw [LatestNames, List.find?_cons_of_neg (by simpa using h)]
  exact Iff.rfl

theorem PortName.ne {name : List Byte} (h : PortName name p) : p ≠ -1 := by
  have := h.1.1
  omega

theorem LatestNames.ne {log : List LinkMsg} (h : LatestNames log i p) : p ≠ -1 := by
  obtain ⟨x, -, -, name, -, hname⟩ := h
  exact hname.ne

/-- The map is exact at an index. -/
def ExactAt (r : MapState) (i : ℕ) : Prop :=
  ∀ p, p ≠ -1 → (r.net.ifindexToPort i = p ↔ LatestNames r.log i p)

theorem mapExact_iff : MapExact r ↔ ∀ i, 1 ≤ i → i < MAX_IFINDEX → ExactAt r i := by
  constructor
  · intro h i h1 h2
    exact (h i h1 h2).1
  · intro h i h1 h2
    refine ⟨h i h1 h2, fun hno => ?_⟩
    by_contra hne
    exact hno _ ((h i h1 h2 _ hne).mp rfl)

/-- A message that tells nothing of the index, and leaves it as it is. -/
theorem ExactAt.of_frame (hx : ¬ x.Tells i)
    (hmap : (linkStep r x).net.ifindexToPort i = r.net.ifindexToPort i) :
    ExactAt (linkStep r x) i ↔ ExactAt r i := by
  constructor <;> intro h p hp
  · rw [← hmap, ← latestNames_of_not_tells hx]
    exact h p hp
  · rw [hmap]
    exact (h p hp).trans (latestNames_of_not_tells hx).symm

/-! ### One message -/

theorem exactAt_dellink (hi : i < MAX_IFINDEX) (hr : ExactAt r i) (hx : x.IsAbout i)
    (hdel : x.del = true) : ExactAt (linkStep r x) i ↔ UnmappedAt r x i := by
  have hmap : (linkStep r x).net.ifindexToPort i = -1 := by
    rw [linkStep_map hi, if_pos hx, if_pos hdel]
  have hcond : UnmappedAt r x i ↔ (x.ifiFamily ≠ AF_UNSPEC → r.net.ifindexToPort i = -1) := by
    simp [UnmappedAt, hdel]
  rw [hcond]
  by_cases hfam : x.ifiFamily = AF_UNSPEC
  · have htells : x.Tells i := ⟨hx, by rw [if_pos hdel]; exact hfam⟩
    refine ⟨fun _ hne => absurd hfam hne, fun _ p hp => ?_⟩
    rw [hmap, linkStep_log, latestNames_of_tells htells]
    exact ⟨fun h => absurd h.symm hp, fun h => by simp [LinkMsg.Names, hdel] at h⟩
  · have htells : ¬ x.Tells i := fun h => hfam (by simpa [hdel] using h.2)
    constructor
    · intro h _
      by_contra hne
      have hp := ((h _ hne).mpr ((latestNames_of_not_tells htells).mpr ((hr _ hne).mp rfl)))
      exact hne (hp.symm.trans hmap)
    · intro h p hp
      rw [hmap, linkStep_log, latestNames_of_not_tells htells, ← hr p hp, h hfam]

theorem exactAt_newlink (hi : i < MAX_IFINDEX) (hr : ExactAt r i) (hx : x.IsAbout i)
    (hdel : x.del = false) : ExactAt (linkStep r x) i ↔ UnmappedAt r x i := by
  have hmap : (linkStep r x).net.ifindexToPort i =
      ((linkName x.m).bind ifnameToPort).getD (r.net.ifindexToPort i) := by
    rw [linkStep_map hi, if_pos hx, hdel, if_neg Bool.false_ne_true]
  cases hname : linkName x.m with
  | none =>
    rw [hname] at hmap
    have htells : ¬ x.Tells i := fun h => by simpa [hdel, hname] using h.2
    rw [ExactAt.of_frame htells hmap]
    exact ⟨fun _ => by simp [UnmappedAt, hdel, hname], fun _ => hr⟩
  | some name =>
    rw [hname, Option.bind_some] at hmap
    have htells : x.Tells i := ⟨hx, by simp [hdel, hname]⟩
    have hnames : ∀ p, x.Names p ↔ PortName name p := by simp [LinkMsg.Names, hdel, hname]
    have hcond : UnmappedAt r x i ↔
        PlainlyNumbered name ∧ ((∀ n, ¬ PortName name n) → r.net.ifindexToPort i = -1) := by
      simp [UnmappedAt, hdel, hname]
    have hexact : ExactAt (linkStep r x) i ↔ ∀ p, p ≠ -1 →
        ((ifnameToPort name).getD (r.net.ifindexToPort i) = p ↔ PortName name p) := by
      simp only [ExactAt, hmap, linkStep_log, latestNames_of_tells htells, hnames]
    rw [hcond, hexact]
    cases hport : ifnameToPort name with
    | none =>
      have hno : ∀ n, ¬ PortName name n := fun n hn => by
        rw [ifnameToPort_of_portName hn] at hport
        cases hport
      constructor
      · intro h
        refine ⟨plainlyNumbered_of_exact fun n hn => ?_, fun _ => ?_⟩
        · rw [hport] at hn
          cases hn
        · by_contra hne
          exact hno _ ((h _ hne).mp rfl)
      · rintro ⟨-, h⟩ p hp
        rw [Option.getD_none, h hno]
        exact ⟨fun h => absurd h.symm hp, fun h => absurd h (hno p)⟩
    | some n =>
      obtain ⟨q, -, -, hrange, hn⟩ := ifnameToPort_eq_some_iff.mp hport
      constructor
      · intro h
        have hportName : PortName name n := (h n (by omega)).mp rfl
        refine ⟨plainlyNumbered_of_exact fun n' hn' => ?_, fun hno => absurd hportName (hno n)⟩
        rw [hport] at hn'
        rwa [← Option.some.inj hn']
      · rintro ⟨hplain, -⟩ p hp
        rw [Option.getD_some]
        constructor
        · rintro rfl
          exact hplain.portName hport
        · intro h
          rw [ifnameToPort_of_portName h] at hport
          exact (Option.some.inj hport).symm

/-- A message keeps an exact map exact if and only if it meets the condition. -/
theorem mapExact_step (hr : MapExact r) (x : LinkMsg) :
    MapExact (linkStep r x) ↔ FindsUnmapped r x := by
  rw [mapExact_iff] at hr ⊢
  have hstep : ∀ i, 1 ≤ i → i < MAX_IFINDEX →
      (ExactAt (linkStep r x) i ↔ (x.IsAbout i → UnmappedAt r x i)) := by
    intro i h1 h2
    by_cases hx : x.IsAbout i
    · cases hdel : x.del with
      | true => simp only [hx, true_implies, exactAt_dellink h2 (hr i h1 h2) hx hdel]
      | false => simp only [hx, true_implies, exactAt_newlink h2 (hr i h1 h2) hx hdel]
    · have hframe := ExactAt.of_frame (r := r) (fun h => hx h.1)
        (by rw [linkStep_map h2, if_neg hx])
      exact ⟨fun _ h => absurd h hx, fun _ => hframe.mpr (hr i h1 h2)⟩
  constructor
  · intro h i h1 h2
    exact (hstep i h1 h2).mp (h i h1 h2)
  · intro h i h1 h2
    exact (hstep i h1 h2).mpr (h i h1 h2)

theorem MapExact.start (sdk : SdkState) : MapExact (MapState.start sdk) := by
  refine mapExact_iff.mpr fun i _ _ p hp => ⟨fun h => absurd h.symm hp, ?_⟩
  rintro ⟨x, hx, -⟩
  cases hx

/-! ### A history of messages -/

/-- The map is exact throughout a history of link messages if and only if every
message about an index meets the condition. -/
theorem mapExact_throughout_iff (sdk : SdkState) (xs : List LinkMsg) :
    Throughout linkStep MapExact (MapState.start sdk) xs ↔
      EachStep linkStep FindsUnmapped (MapState.start sdk) xs := by
  have keep : ∀ r x, MapExact r → FindsUnmapped r x → MapExact (linkStep r x) :=
    fun r x hr => (mapExact_step hr x).mpr
  have breaks : ∀ r x, MapExact r → ¬ FindsUnmapped r x → ¬ MapExact (linkStep r x) :=
    fun r x hr hno hx => hno ((mapExact_step hr x).mp hx)
  exact throughout_iff_eachStep_of_any (fun _ h => h) keep breaks (MapExact.start sdk) xs

/-- The interface with index 3 has this name. -/
def namedThree (name : List Byte) : LinkMsg where
  ifiFamily := AF_UNSPEC
  del := false
  m :=
    { nlmsgLen := 44
      hdr := { ifiIndex := 3, ifiFlags := IFF_UP }
      tb := attrs [(IFLA_IFNAME, name)] }

/-- swp1 is renamed to eth0, and its index stays mapped. -/
theorem not_mapExact_rename :
    ¬ Throughout linkStep MapExact (MapState.start (SdkState.init Asic.blank))
      [namedThree [0x73, 0x77, 0x70, 0x31, 0], namedThree [0x65, 0x74, 0x68, 0x30, 0]] := by
  intro h
  have hexact := (mapExact_iff.mp h.final) 3 (by decide) (by decide) 1 (by decide)
  have hmap : (run linkStep (MapState.start (SdkState.init Asic.blank))
      [namedThree [0x73, 0x77, 0x70, 0x31, 0],
        namedThree [0x65, 0x74, 0x68, 0x30, 0]]).net.ifindexToPort 3 = 1 := rfl
  obtain ⟨x, hx, -, name, hname, hport⟩ := hexact.mp hmap
  obtain rfl : namedThree [0x65, 0x74, 0x68, 0x30, 0] = x := Option.some.inj hx
  obtain rfl : [0x65, 0x74, 0x68, 0x30] = name := Option.some.inj hname
  exact absurd hport.2 (by decide)

end OpenNos.Switchd
