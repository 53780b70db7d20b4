import OpenNos.Lib.History
import OpenNos.Lib.RangeIndex
import OpenNos.Switchd.NeighCache

/-! The static L2 entries beside the neighbours the kernel has announced. An
entry belongs to a MAC and a VLAN, a neighbour to an address and an interface;
several neighbours may share an entry. The handler adds one entry for a new
neighbour and deletes one for a removed one, without regard to what the neighbour
had before or to who else has the entry. -/

namespace OpenNos.Switchd

open Sdk History RangeIndex

/-- The netlink thread, an ideal L2 table, the entry of each known neighbour, and
the port on which each entry was announced last. -/
structure MirrorState where
  net : NetState
  l2 : Mac × BitVec 16 → Option ℤ
  known : BitVec 32 × BitVec 32 → Option (Mac × BitVec 16)
  latest : Mac × BitVec 16 → Option ℤ

/-- A call of the SDK as the ideal table carries it out. -/
def idealCall (l2 : Mac × BitVec 16 → Option ℤ) : SdkCall → Mac × BitVec 16 → Option ℤ
  | .portEnableSet _ _ => l2
  | .l2AddrAdd addr => Function.update l2 (addr.mac, addr.vid) (some addr.port)
  | .l2AddrDelete mac vid => Function.update l2 (mac, vid) none

def MirrorState.step (f : MirrorState) (m : Nlmsghdr) : MirrorState :=
  match m with
  | .neigh del n =>
    let key := (n.u32 NDA_DST, n.hdr.ndmIfindex)
    let port := f.net.ifindexToPort n.hdr.ndmIfindex.toNat
    let s : MirrorState :=
      { f with
        net := dispatch f.net m
        l2 := (handleNeigh f.net del n).2.foldl idealCall f.l2 }
    if del then { s with known := Function.update f.known key none }
    else
      match neighLladdr n with
      | none => s
      | some mac =>
        { s with
          known := Function.update f.known key (some (mac, neighVid n))
          latest := Function.update f.latest (mac, neighVid n) (some port) }
  | _ => { f with net := dispatch f.net m }

def MirrorState.start (sdk : SdkState) : MirrorState where
  net := NetState.init sdk
  l2 := fun _ => none
  known := fun _ => none
  latest := fun _ => none

/-- The entries are those of the known neighbours, on the port announced last. -/
structure Mirrors (f : MirrorState) : Prop where
  entries : Exact f.l2 f.known
  ports : ∀ entry port, f.l2 entry = some port → f.latest entry = some port

/-- An IPv4 neighbour on a mapped interface, for whom the cache has room. -/
def Mapped (f : MirrorState) : Nlmsghdr → Prop
  | .neigh del n => neighPort f.net n ≠ none ∧
      (del = false → Takes f.net.neighCache (n.u32 NDA_DST) n.hdr.ndmIfindex)
  | _ => True

/-- The entry a removed neighbour leads the handler to delete. -/
def deletedEntry (s : NetState) (n : Nlmsg Ndmsg) : Option (Mac × BitVec 16) :=
  (deletedMac s n).map fun mac => (mac, neighVid n)

/-- Nobody loses an entry to another: a neighbour that changes its entry leaves it
to one who shares it, and a removed neighbour takes its own entry along unless it
is shared. -/
def KeepsEntries (f : MirrorState) : Nlmsghdr → Prop
  | .neigh false n => ∀ mac, neighLladdr n = some mac →
      ∀ old, f.known (n.u32 NDA_DST, n.hdr.ndmIfindex) = some old → old ≠ (mac, neighVid n) →
        Shared f.known (n.u32 NDA_DST, n.hdr.ndmIfindex) old
  | .neigh true n =>
      (∀ entry, deletedEntry f.net n = some entry →
        ¬ Shared f.known (n.u32 NDA_DST, n.hdr.ndmIfindex) entry) ∧
      ∀ old, f.known (n.u32 NDA_DST, n.hdr.ndmIfindex) = some old →
        deletedEntry f.net n = some old ∨ Shared f.known (n.u32 NDA_DST, n.hdr.ndmIfindex) old
  | _ => True

structure MirrorState.Inv (f : MirrorState) : Prop where
  keyed : Keyed f.net.neighCache
  cached : ∀ ip ifindex,
    neighCacheGet f.net.neighCache ip ifindex = (f.known (ip, ifindex)).map Prod.fst
  mirrors : Mirrors f

variable {f : MirrorState} {n : Nlmsg Ndmsg}

theorem neighPort_eq_some {s : NetState} {port : ℤ} (h : neighPort s n = some port) :
    port = s.ifindexToPort n.hdr.ndmIfindex.toNat := by
  unfold neighPort at h
  split_ifs at h with hc
  exact (Option.some.inj h).symm

/-- What an announced neighbour leads to. -/
theorem step_newneigh {port : ℤ} {mac : Mac} (hp : neighPort f.net n = some port)
    (hmac : neighLladdr n = some mac) : f.step (.neigh false n) =
      { net := dispatch f.net (.neigh false n)
        l2 := Function.update f.l2 (mac, neighVid n) (some port)
        known := Function.update f.known (n.u32 NDA_DST, n.hdr.ndmIfindex)
          (some (mac, neighVid n))
        latest := Function.update f.latest (mac, neighVid n) (some port) } := by
  rw [MirrorState.step]
  simp only [Bool.false_eq_true, if_false, hmac, handleNeigh_new hp hmac, ← neighPort_eq_some hp]
  rfl

theorem step_newneigh_of_none {port : ℤ} (hp : neighPort f.net n = some port)
    (hmac : neighLladdr n = none) : f.step (.neigh false n) =
      { f with net := dispatch f.net (.neigh false n) } := by
  rw [MirrorState.step]
  simp only [Bool.false_eq_true, if_false, hmac, handleNeigh_new_of_none hp hmac]
  rfl

/-- What a removed neighbour leads to. -/
theorem step_delneigh {port : ℤ} (hp : neighPort f.net n = some port) :
    f.step (.neigh true n) =
      { f with
        net := dispatch f.net (.neigh true n)
        l2 := erase f.l2 (deletedEntry f.net n)
        known := Function.update f.known (n.u32 NDA_DST, n.hdr.ndmIfindex) none } := by
  rw [MirrorState.step]
  simp only [if_true, handleNeigh_del hp, deletedEntry]
  cases deletedMac f.net n with
  | none => rfl
  | some mac => rfl

theorem exact_empty (sdk : SdkState) :
    Exact (MirrorState.start sdk).l2 (MirrorState.start sdk).known := by
  intro entry
  refine iff_of_false (fun h => h rfl) ?_
  rintro ⟨key, h⟩
  cases h

namespace MirrorState.Inv

theorem start (sdk : SdkState) : (MirrorState.start sdk).Inv where
  keyed := List.nodup_nil
  cached := fun _ _ => rfl
  mirrors := ⟨exact_empty sdk, nofun⟩

/-- Other messages change neither the cache nor the entries. -/
theorem other (h : f.Inv) {m : Nlmsghdr} (hm : ∀ del n, m ≠ .neigh del n) :
    MirrorState.Inv { f with net := dispatch f.net m } where
  keyed := by
    rw [dispatch_neighCache f.net hm]
    exact h.keyed
  cached := by
    rw [dispatch_neighCache f.net hm]
    exact h.cached
  mirrors := ⟨h.mirrors.entries, h.mirrors.ports⟩

/-- The cache follows what is known, one neighbour at a time. -/
theorem cached_update (h : f.Inv) {cache : List NeighEntry} {ip ifindex : BitVec 32}
    {entry : Option (Mac × BitVec 16)}
    (hself : neighCacheGet cache ip ifindex = entry.map Prod.fst)
    (hother : ∀ ip' ifindex', ¬ (ip' = ip ∧ ifindex' = ifindex) →
      neighCacheGet cache ip' ifindex' = neighCacheGet f.net.neighCache ip' ifindex')
    (ip' ifindex' : BitVec 32) : neighCacheGet cache ip' ifindex' =
      (Function.update f.known (ip, ifindex) entry (ip', ifindex')).map Prod.fst := by
  by_cases hkey : ip' = ip ∧ ifindex' = ifindex
  · obtain ⟨rfl, rfl⟩ := hkey
    rw [hself, Function.update_self]
  · have hne : (ip', ifindex') ≠ (ip, ifindex) := fun he => hkey (Prod.mk.inj he)
    rw [hother _ _ hkey, h.cached, Function.update_of_ne hne]

theorem newneigh (h : f.Inv) {port : ℤ} {mac : Mac} (hp : neighPort f.net n = some port)
    (hmac : neighLladdr n = some mac)
    (ht : Takes f.net.neighCache (n.u32 NDA_DST) n.hdr.ndmIfindex)
    (hentries : Exact (f.step (.neigh false n)).l2 (f.step (.neigh false n)).known) :
    (f.step (.neigh false n)).Inv := by
  have hcache : (dispatch f.net (.neigh false n)).neighCache =
      neighCacheSet f.net.neighCache (n.u32 NDA_DST) n.hdr.ndmIfindex mac := by
    rw [dispatch, handleNeigh_new hp hmac]
    rfl
  have hstep := step_newneigh hp hmac
  refine ⟨?_, ?_, hentries, ?_⟩
  · rw [hstep, hcache]
    exact h.keyed.set _ _ _
  · rw [hstep, hcache]
    exact h.cached_update (neighCacheGet_set_self ht) fun _ _ => neighCacheGet_set_of_ne
  · intro entry port' hport
    rw [hstep] at hport ⊢
    simp only at hport ⊢
    by_cases hentry : entry = (mac, neighVid n)
    · rw [hentry, Function.update_self] at hport ⊢
      exact hport
    · rw [Function.update_of_ne hentry] at hport ⊢
      exact h.mirrors.ports entry port' hport

theorem delneigh (h : f.Inv) {port : ℤ} (hp : neighPort f.net n = some port)
    (hentries : Exact (f.step (.neigh true n)).l2 (f.step (.neigh true n)).known) :
    (f.step (.neigh true n)).Inv := by
  have hcache : (dispatch f.net (.neigh true n)).neighCache =
      neighCacheRemove f.net.neighCache (n.u32 NDA_DST) n.hdr.ndmIfindex := by
    rw [dispatch, handleNeigh_del hp]
    rfl
  have hstep := step_delneigh hp
  refine ⟨?_, ?_, hentries, ?_⟩
  · rw [hstep, hcache]
    exact h.keyed.remove _ _
  · rw [hstep, hcache]
    exact h.cached_update (neighCacheGet_remove_self h.keyed) fun _ _ =>
      neighCacheGet_remove_of_ne
  · intro entry port' hport
    rw [hstep] at hport ⊢
    simp only at hport ⊢
    refine h.mirrors.ports entry port' ?_
    cases hgone : deletedEntry f.net n with
    | none => rwa [hgone] at hport
    | some gone =>
      rw [hgone, erase] at hport
      by_cases hentry : entry = gone
      · rw [hentry, Function.update_self] at hport
        cases hport
      · rwa [Function.update_of_ne hentry] at hport

/-- The entries stay exact under exactly the messages that meet the condition. -/
theorem exact_step_iff (h : f.Inv) {m : Nlmsghdr} (hd : Mapped f m) :
    Exact (f.step m).l2 (f.step m).known ↔ KeepsEntries f m := by
  match m, hd with
  | .neigh false n, ⟨hport, _⟩ =>
    obtain ⟨port, hp⟩ := Option.ne_none_iff_exists'.mp hport
    cases hmac : neighLladdr n with
    | none =>
      rw [step_newneigh_of_none hp hmac]
      refine iff_of_true h.mirrors.entries fun mac hmac' => ?_
      rw [hmac] at hmac'
      cases hmac'
    | some mac =>
      rw [step_newneigh hp hmac, h.mirrors.entries.put_iff, KeepsEntries, hmac]
      exact ⟨fun hc mac' he => by cases he; exact hc, fun hc => hc mac rfl⟩
  | .neigh true n, ⟨hport, _⟩ =>
    obtain ⟨port, hp⟩ := Option.ne_none_iff_exists'.mp hport
    rw [step_delneigh hp, h.mirrors.entries.drop_iff]
    exact Iff.rfl
  | .link _ _, _ => exact iff_of_true h.mirrors.entries trivial
  | .addr _ _, _ => exact iff_of_true h.mirrors.entries trivial
  | .route _ _, _ => exact iff_of_true h.mirrors.entries trivial
  | .other, _ => exact iff_of_true h.mirrors.entries trivial

theorem step (h : f.Inv) {m : Nlmsghdr} (hd : Mapped f m)
    (hentries : Exact (f.step m).l2 (f.step m).known) : (f.step m).Inv := by
  cases m with
  | neigh del n =>
    obtain ⟨port, hp⟩ := Option.ne_none_iff_exists'.mp hd.1
    cases del with
    | false =>
      cases hmac : neighLladdr n with
      | none =>
        have hcache : (dispatch f.net (.neigh false n)).neighCache = f.net.neighCache := by
          rw [dispatch, handleNeigh_new_of_none hp hmac]
          rfl
        rw [step_newneigh_of_none hp hmac]
        refine ⟨?_, ?_, h.mirrors.entries, h.mirrors.ports⟩
        · rw [hcache]
          exact h.keyed
        · rw [hcache]
          exact h.cached
      | some mac => exact h.newneigh hp hmac (hd.2 rfl) hentries
    | true => exact h.delneigh hp hentries
  | link del m => exact h.other fun _ _ => Nlmsghdr.noConfusion
  | addr del m => exact h.other fun _ _ => Nlmsghdr.noConfusion
  | route del m => exact h.other fun _ _ => Nlmsghdr.noConfusion
  | other => exact h.other fun _ _ => Nlmsghdr.noConfusion

end MirrorState.Inv

/-- The L2 entries mirror the neighbours throughout exactly the histories in which
nobody loses an entry to another. -/
theorem mirrors_iff_keepsEntries (sdk : SdkState) {ms : List Nlmsghdr}
    (hd : EachStep MirrorState.step Mapped (MirrorState.start sdk) ms) :
    Throughout MirrorState.step Mirrors (MirrorState.start sdk) ms ↔
      EachStep MirrorState.step KeepsEntries (MirrorState.start sdk) ms :=
  throughout_iff_eachStep (fun _ h => h.mirrors)
    (fun _ _ h hd hc => h.step hd ((h.exact_step_iff hd).mpr hc))
    (fun _ _ h hd hc hm => hc ((h.exact_step_iff hd).mp hm.entries))
    (MirrorState.Inv.start sdk) hd

/-! ### Two neighbours with one MAC -/

/-- The entry of MAC 02:00:00:00:00:`mac`, untagged. -/
def entrySwp1 (mac : Cstring.Byte) : Mac × BitVec 16 := (#v[2, 0, 0, 0, 0, mac], 0)

def sdkBlank : SdkState := SdkState.init Asic.blank

/-- One of two neighbours with the same MAC goes, and the entry of the other with it. -/
theorem mirrors_fails :
    EachStep MirrorState.step Mapped (MirrorState.start sdkBlank)
        [newlinkSwp1, neighSwp1 false 2 9, neighSwp1 false 3 9, neighSwp1 true 3 9] ∧
      ¬ Throughout MirrorState.step Mirrors (MirrorState.start sdkBlank)
        [newlinkSwp1, neighSwp1 false 2 9, neighSwp1 false 3 9, neighSwp1 true 3 9] := by
  constructor
  · refine ⟨trivial, ⟨?_, ?_⟩, ⟨?_, ?_⟩, ⟨?_, nofun⟩, trivial⟩
    · decide +kernel
    · decide +kernel
    · decide +kernel
    · decide +kernel
    · decide +kernel
  · intro h
    refine (h.final.entries (entrySwp1 9)).mpr ⟨(0x0a000002, 3), ?_⟩ ?_
    · decide +kernel
    · decide +kernel

/-- A neighbour comes and goes beside another. -/
theorem mirrors_apart :
    Throughout MirrorState.step Mirrors (MirrorState.start sdkBlank)
      [newlinkSwp1, neighSwp1 false 2 9, neighSwp1 false 3 8, neighSwp1 true 3 8] := by
  have hd : EachStep MirrorState.step Mapped (MirrorState.start sdkBlank)
      [newlinkSwp1, neighSwp1 false 2 9, neighSwp1 false 3 8, neighSwp1 true 3 8] := by
    refine ⟨trivial, ⟨?_, ?_⟩, ⟨?_, ?_⟩, ⟨?_, nofun⟩, trivial⟩
    · decide +kernel
    · decide +kernel
    · decide +kernel
    · decide +kernel
    · decide +kernel
  have hknown : (run MirrorState.step (MirrorState.start sdkBlank)
      [newlinkSwp1, neighSwp1 false 2 9, neighSwp1 false 3 8]).known =
        Function.update (Function.update (fun _ => none) (0x0a000002, 3) (some (entrySwp1 9)))
          (0x0a000003, 3) (some (entrySwp1 8)) := rfl
  refine (mirrors_iff_keepsEntries sdkBlank hd).mpr ⟨trivial, ?_, ?_, ⟨?_, ?_⟩, trivial⟩
  · exact fun _ _ old hold => nomatch hold
  · exact fun _ _ old hold => nomatch hold
  · -- the other neighbour has another entry
    rintro entry hgone ⟨key, hne, hkey⟩
    have hentry : some entry = some (entrySwp1 8) := hgone.symm.trans (by decide +kernel)
    have hkey' := (congrFun hknown key).symm.trans hkey
    have hne' : key ≠ (0x0a000003, 3) := hne
    rw [Function.update_of_ne hne', hentry] at hkey'
    by_cases hk : key = (0x0a000002, 3)
    · rw [hk, Function.update_self] at hkey'
      exact absurd hkey' (by decide)
    · rw [Function.update_of_ne hk] at hkey'
      cases hkey'
  · intro old hold
    left
    rw [← hold]
    decide +kernel

end OpenNos.Switchd
