import OpenNos.Lib.History
import OpenNos.Lib.Lpm
import OpenNos.Sdk.Defip

/-! Longest-prefix match over L3_DEFIP. The chip answers a destination with the
best valid slot whose entry matches, under a fixed priority of the slots. A
history of route calls keeps the answer the longest live prefix when every new
prefix finds the lowest free slot on the right side of the prefixes it overlaps;
the allocator does not look. -/

namespace OpenNos.Sdk

open Lpm History FirstFit

/-- Which of two matching slots the chip prefers. -/
inductive Priority where
  | lowest
  | highest

def Priority.rank : Priority → ℕ → ℤ
  | .lowest, i => i
  | .highest, i => -i

/-- VRF 0, mode 0. -/
def searchKey (a : BitVec 32) : BitVec 44 := (defipKey a).setWidth 44

/-- Every bit with mask 1 agrees. -/
def DefipEntry.Matches (e : DefipEntry) (key : BitVec 44) : Prop :=
  key &&& e.mask = e.key &&& e.mask

def Asic.MatchesAt (c : Asic) (a : BitVec 32) (i : ℕ) : Prop :=
  i < MAX_L3_DEFIP ∧ ∃ e, c.slot i = some e ∧ e.Matches (searchKey a)

/-- The chip answers a destination with slot `i`. -/
def Asic.Answers (c : Asic) (pr : Priority) (a : BitVec 32) (i : ℕ) : Prop :=
  c.MatchesAt a i ∧ ∀ j, c.MatchesAt a j → j ≠ i → pr.rank i < pr.rank j

def L3Route.toPrefix (r : L3Route) : Prefix 32 := ⟨r.pfx, r.prefixLen.toNat⟩

theorem toPrefix_len (r : L3Route) : r.toPrefix.len = r.prefixLen.toNat := rfl

/-- The route a host entry stands for. -/
def L3Host.route (h : L3Host) : L3Route where
  pfx := h.addr
  prefixLen := 32
  egressId := h.egressId
  isIpv6 := h.isIpv6

inductive RouteCall where
  | routeAdd (route : L3Route)
  | hostAdd (host : L3Host)
  | routeDelete (route : L3Route)

def RouteCall.toPrefix : RouteCall → Prefix 32
  | .routeAdd r => r.toPrefix
  | .hostAdd h => h.route.toPrefix
  | .routeDelete r => r.toPrefix

/-- The library state and the prefixes its calls have reported as installed. -/
structure RouteLog where
  sdk : SdkState
  live : Set (Prefix 32)

/-- A prefix whose add returned 0 is live. -/
def RouteLog.added (s : RouteLog) (P : Prefix 32) : SdkState × Rc Unit → RouteLog
  | (sdk, .ok ()) => ⟨sdk, insert P s.live⟩
  | (sdk, .error _) => ⟨sdk, s.live⟩

/-- A prefix whose delete returned 0 is not. -/
def RouteLog.deleted (s : RouteLog) (P : Prefix 32) : SdkState × Rc Unit → RouteLog
  | (sdk, .ok ()) => ⟨sdk, s.live \ {P}⟩
  | (sdk, .error _) => ⟨sdk, s.live⟩

def RouteLog.step (s : RouteLog) : RouteCall → RouteLog
  | .routeAdd r => s.added r.toPrefix (l3RouteAdd s.sdk r)
  | .hostAdd h => s.added h.route.toPrefix (l3HostAdd s.sdk h)
  | .routeDelete r => s.deleted r.toPrefix (l3RouteDelete s.sdk r)

/-- Nothing installed. -/
def RouteLog.start (c : Asic) : RouteLog := ⟨SdkState.init c, ∅⟩

/-- The chip answers every destination with the longest live prefix that
contains it, and answers when there is one. -/
def LpmHolds (pr : Priority) (s : RouteLog) : Prop :=
  ∀ a, (∀ i, s.sdk.asic.Answers pr a i → ∃ P ∈ s.live, s.sdk.asic.Names i P.value P.len ∧
      P.Covers a ∧ ∀ Q ∈ s.live, Q.Covers a → Q ≠ P → Q.len < P.len) ∧
    ((∃ i, s.sdk.asic.Answers pr a i) ↔ ∃ P ∈ s.live, P.Covers a)

/-- The slot is preferred to the lowest free one. -/
def Priority.BeforeFree (c : Asic) (j : ℕ) : Priority → Prop
  | .lowest => ∀ i < j, c.slot i ≠ none
  | .highest => ∃ i < j, c.slot i = none

/-- A new prefix for which there is room finds the longer prefixes inside it
before the lowest free slot, and the shorter ones around it after. -/
def AddInOrder (pr : Priority) (s : SdkState) (r : L3Route) : Prop :=
  r.Accepted → (∀ i < MAX_L3_DEFIP, ¬ s.asic.Names i r.pfx r.prefixLen) →
    (∃ i < MAX_L3_DEFIP, s.asic.slot i = none) →
      ∀ j < MAX_L3_DEFIP, ∀ Q : Prefix 32, Q.len ≤ 32 → s.asic.Names j Q.value Q.len →
        (r.prefixLen < Q.len → r.toPrefix.Covers Q.value → pr.BeforeFree s.asic j) ∧
        (Q.len < r.prefixLen → Q.Covers r.pfx → ¬ pr.BeforeFree s.asic j)

def RouteLog.InOrder (pr : Priority) (s : RouteLog) : RouteCall → Prop
  | .routeAdd r => AddInOrder pr s.sdk r
  | .hostAdd h => AddInOrder pr s.sdk h.route
  | .routeDelete _ => True

def RouteLog.AddDone (s : RouteLog) (r : L3Route) (rc : Rc Unit) : Prop :=
  r.Accepted → (r.toPrefix ∈ s.live ∨ ∃ i < MAX_L3_DEFIP, s.sdk.asic.slot i = none) → rc = .ok ()

/-- An accepted add of a live prefix, or with a free slot, returns 0, and so does every delete
with valid arguments. -/
def RouteLog.Accomplishes (s : RouteLog) : RouteCall → Prop
  | .routeAdd r => s.AddDone r (l3RouteAdd s.sdk r).2
  | .hostAdd h => s.AddDone h.route (l3HostAdd s.sdk h).2
  | .routeDelete r => r.Deletable → (l3RouteDelete s.sdk r).2 = .ok ()

/-! ### The table of prefixes behind the slots -/

/-- The prefix recorded for each slot. -/
def SdkState.routes (s : SdkState) (i : ℕ) : Option (Prefix 32) :=
  if i < MAX_L3_DEFIP ∧ s.defipUsed i = true then
    some ⟨s.defipPrefix i, (s.defipPlen i).toNat⟩
  else none

theorem searchKey_and_mask_iff {p a : BitVec 32} {l : ℤ} {n : BitVec 14} :
    (entryOf p l n).Matches (searchKey a) ↔
      ∀ b < 32, (ipMask l).getLsbD b = true → a.getLsbD b = p.getLsbD b := by
  have hkey (x : BitVec 32) (b : ℕ) (hb : b < 32) :
      ((defipKey x).setWidth 44).getLsbD (b + 1) = x.getLsbD b := by
    simp [defipKey, show b + 1 < 44 by omega]
  have hout (x : BitVec 32) (b : ℕ) (hb : b = 0 ∨ 33 ≤ b) :
      ((defipKey x).setWidth 44).getLsbD b = false := by
    rcases hb with rfl | hb
    · simp [defipKey]
    · have : x.getLsbD (b - 1) = false := BitVec.getLsbD_of_ge x _ (by omega)
      simp [defipKey, this]
  constructor
  · intro h b hb hm
    have hbit := congrArg (fun x => x.getLsbD (b + 1)) h
    simp only [BitVec.getLsbD_and, getLsbD_entryOf_mask _ _ _ b hb, hm, Bool.and_true] at hbit
    rw [← hkey a b hb, ← hkey p b hb]
    exact hbit
  · intro h
    apply BitVec.eq_of_getLsbD_eq
    intro b hb
    simp only [BitVec.getLsbD_and]
    by_cases hin : b = 0 ∨ 33 ≤ b
    · rw [searchKey, hout a b hin, entryOf, hout p b hin]
    · obtain ⟨c, rfl⟩ : ∃ c, b = c + 1 := ⟨b - 1, by omega⟩
      rw [getLsbD_entryOf_mask _ _ _ c (by omega), searchKey, hkey a c (by omega), entryOf,
        hkey p c (by omega)]
      by_cases hm : (ipMask l).getLsbD c = true
      · rw [h c (by omega) hm]
      · simp [hm]

/-- An entry matches the addresses of its prefix. -/
theorem entryOf_matches_iff {p a : BitVec 32} {l : ℤ} {n : BitVec 14} (hl : 0 ≤ l ∧ l ≤ 32) :
    (entryOf p l n).Matches (searchKey a) ↔ (⟨p, l.toNat⟩ : Prefix 32).Covers a := by
  rw [searchKey_and_mask_iff]
  refine forall_congr' fun b => forall_congr' fun hb => ?_
  have hm : (ipMask l).getLsbD b = true ↔ 32 ≤ b + l.toNat := by
    rw [getLsbD_ipMask b hb, decide_eq_true_iff]
    omega
  rw [hm]

variable {s : SdkState}

theorem RouteStore.routes_eq_some_iff (h : RouteStore s) {i : ℕ} {P : Prefix 32} :
    s.routes i = some P ↔ i < MAX_L3_DEFIP ∧ P.len ≤ 32 ∧ s.asic.Names i P.value P.len := by
  constructor
  · intro hP
    unfold SdkState.routes at hP
    split_ifs at hP with hu
    obtain ⟨hi, hu⟩ := hu
    have hl := h.plen i hi hu
    cases hP
    refine ⟨hi, by simp only; omega, ?_⟩
    simp only [Int.toNat_of_nonneg hl.1]
    exact h.live i hi hu
  · rintro ⟨hi, hl, hn⟩
    obtain ⟨hu, hp, hq⟩ := (h.names_iff hi (by omega)).mp hn
    rw [SdkState.routes, if_pos ⟨hi, hu⟩, hp, hq, Int.toNat_natCast]

/-- The slots that name the prefix of a route are those with its route. -/
theorem RouteStore.routes_eq_toPrefix_iff (h : RouteStore s) {r : L3Route}
    (hr : 0 ≤ r.prefixLen ∧ r.prefixLen ≤ 32) {i : ℕ} :
    s.routes i = some r.toPrefix ↔ i < MAX_L3_DEFIP ∧ s.asic.Names i r.pfx r.prefixLen := by
  have hlen : ((r.prefixLen.toNat : ℕ) : ℤ) = r.prefixLen := Int.toNat_of_nonneg hr.1
  have hle : r.prefixLen.toNat ≤ 32 := by omega
  rw [h.routes_eq_some_iff]
  simp only [L3Route.toPrefix, hlen, hle, true_and]

theorem RouteStore.matchesAt_iff (h : RouteStore s) {a : BitVec 32} {i : ℕ} :
    s.asic.MatchesAt a i ↔ Matches s.routes a i := by
  constructor
  · rintro ⟨hi, e, he, hm⟩
    have hu : s.defipUsed i = true := by
      by_contra hu
      rw [h.free i hi (by simpa using hu)] at he
      cases he
    obtain ⟨n, hn⟩ := h.live i hi hu
    rw [he] at hn
    cases hn
    refine ⟨_, if_pos ⟨hi, hu⟩, ?_⟩
    exact (entryOf_matches_iff (h.plen i hi hu)).mp hm
  · rintro ⟨P, hP, hcov⟩
    obtain ⟨hi, hl, n, hn⟩ := h.routes_eq_some_iff.mp hP
    exact ⟨hi, _, hn, (entryOf_matches_iff (by omega)).mpr hcov⟩

theorem RouteStore.answers_iff (h : RouteStore s) {pr : Priority} {a : BitVec 32} {i : ℕ} :
    s.asic.Answers pr a i ↔ Wins pr.rank s.routes a i := by
  simp only [Asic.Answers, Wins, h.matchesAt_iff]

theorem routes_withRoute (s : SdkState) {i : ℕ} (hi : i < MAX_L3_DEFIP) (r : L3Route) :
    (s.withRoute i r).routes = Function.update s.routes i (some r.toPrefix) := by
  funext j
  by_cases hj : j = i
  · subst hj
    simp [SdkState.routes, hi, L3Route.toPrefix]
  · simp [SdkState.routes, hj]

theorem routes_withoutRoute (s : SdkState) (i : ℕ) :
    (s.withoutRoute i).routes = Function.update s.routes i none := by
  funext j
  by_cases hj : j = i
  · subst hj
    simp [SdkState.routes]
  · simp [SdkState.routes, hj]

/-- The slots a new prefix would follow are those with the smaller rank. -/
theorem RouteStore.beforeFree_iff (h : RouteStore s) (pr : Priority) {i j : ℕ}
    (hi : firstFree s.defipUsed 0 MAX_L3_DEFIP = some i) (hj : j < MAX_L3_DEFIP) (hne : j ≠ i) :
    pr.BeforeFree s.asic j ↔ pr.rank j < pr.rank i := by
  have hlt : i < j ↔ ∃ k < j, s.asic.slot k = none := by
    rw [firstFree_lt_iff hi]
    constructor
    · rintro ⟨k, -, hk, hu⟩
      exact ⟨k, hk, h.free k (by omega) hu⟩
    · rintro ⟨k, hk, hn⟩
      exact ⟨k, Nat.zero_le k, hk, (h.slot_eq_none_iff (by omega)).mp hn⟩
  cases pr with
  | lowest =>
    have hbf : Priority.BeforeFree s.asic j .lowest ↔ ¬ ∃ k < j, s.asic.slot k = none := by
      simp [Priority.BeforeFree]
    rw [hbf, ← hlt]
    simp only [Priority.rank]
    omega
  | highest =>
    have hbf : Priority.BeforeFree s.asic j .highest ↔ ∃ k < j, s.asic.slot k = none := Iff.rfl
    rw [hbf, ← hlt]
    simp only [Priority.rank]
    omega

theorem Priority.rank_injective (pr : Priority) : Function.Injective pr.rank := by
  intro i j h
  cases pr with
  | lowest => simpa [Priority.rank] using h
  | highest => simpa [Priority.rank] using h

theorem RouteStore.exists_wins (h : RouteStore s) (pr : Priority) {a : BitVec 32} {i : ℕ}
    (hi : Matches s.routes a i) : ∃ k, Wins pr.rank s.routes a k := by
  refine Lpm.exists_wins pr.rank_injective (s := Finset.range MAX_L3_DEFIP) ?_ hi
  intro j hj
  obtain ⟨Q, hQ⟩ := Option.ne_none_iff_exists'.mp hj
  exact Finset.mem_range.mpr (h.routes_eq_some_iff.mp hQ).1

/-! ### The invariant of a history -/

structure RouteLog.Inv (pr : Priority) (s : RouteLog) : Prop where
  store : RouteStore s.sdk
  live : ∀ P, P ∈ s.live ↔ ∃ i, s.sdk.routes i = some P
  canonical : ∀ i P, s.sdk.routes i = some P → P.Canonical
  ordered : Ordered pr.rank s.sdk.routes

variable {pr : Priority} {t : RouteLog}

theorem RouteLog.Inv.lpmHolds (h : t.Inv pr) : LpmHolds pr t := by
  intro a
  constructor
  · intro i hi
    obtain ⟨P, hP, hcov, hbest⟩ := h.ordered.longest_of_wins (h.store.answers_iff.mp hi)
    refine ⟨P, (h.live P).mpr ⟨i, hP⟩, (h.store.routes_eq_some_iff.mp hP).2.2, hcov, ?_⟩
    intro Q hQ hQa hne
    obtain ⟨j, hj⟩ := (h.live Q).mp hQ
    refine lt_of_le_of_ne (hbest j Q hj hQa) fun hlen => hne ?_
    exact Prefix.eq_of_covers (h.canonical j Q hj) (h.canonical i P hP) hQa hcov hlen
  · constructor
    · rintro ⟨i, hi⟩
      obtain ⟨⟨P, hP, hcov⟩, -⟩ := h.store.answers_iff.mp hi
      exact ⟨P, (h.live P).mpr ⟨i, hP⟩, hcov⟩
    · rintro ⟨P, hP, hcov⟩
      obtain ⟨i, hi⟩ := (h.live P).mp hP
      obtain ⟨k, hk⟩ := h.store.exists_wins pr ⟨P, hi, hcov⟩
      exact ⟨k, h.store.answers_iff.mpr hk⟩

/-- The property fails once the longest live prefix over some address ranks
behind another one that covers it. -/
theorem not_lpmHolds_of_rank (hs : RouteStore t.sdk)
    (hlive : ∀ P, P ∈ t.live ↔ ∃ i, t.sdk.routes i = some P) {i j : ℕ} {Q : Prefix 32}
    {a : BitVec 32} (hi : Matches t.sdk.routes a i) (hQ : t.sdk.routes j = some Q)
    (hQa : Q.Covers a) (hrank : pr.rank i < pr.rank j)
    (hself : ∀ m R, t.sdk.routes m = some R → R.Covers a → m = j ∨ R.len < Q.len) :
    ¬ LpmHolds pr t := by
  intro h
  obtain ⟨k, hk⟩ := hs.exists_wins pr hi
  obtain ⟨P, hP, hn, hcov, hbest⟩ := (h a).1 k (hs.answers_iff.mpr hk)
  obtain ⟨m, hm⟩ := (hlive P).mp hP
  have hkm : k < MAX_L3_DEFIP := (hs.matchesAt_iff.mpr hk.1).1
  have hkP := hs.routes_eq_some_iff.mpr ⟨hkm, (hs.routes_eq_some_iff.mp hm).2.1, hn⟩
  refine not_longest_of_wins hi hQ hQa hrank hself hk ⟨P, hkP, hcov, ?_⟩
  intro m R hR hRa
  rcases eq_or_ne R P with rfl | hne
  · exact le_rfl
  · exact (hbest R ((hlive R).mpr ⟨m, hR⟩) hRa hne).le

/-- A route is written to a slot that was free or its own. -/
theorem RouteLog.Inv.withRoute (h : t.Inv pr) {r : L3Route} {i : ℕ} (hi : i < MAX_L3_DEFIP)
    (hl : 0 ≤ r.prefixLen ∧ r.prefixLen ≤ 32) (hc : r.toPrefix.Canonical)
    (hslot : ∀ j < MAX_L3_DEFIP, t.sdk.asic.Names j r.pfx r.prefixLen → j = i)
    (hold : t.sdk.routes i = none ∨ t.sdk.routes i = some r.toPrefix)
    (hord : Ordered pr.rank (Function.update t.sdk.routes i (some r.toPrefix))) :
    RouteLog.Inv pr ⟨t.sdk.withRoute i r, insert r.toPrefix t.live⟩ where
  store := h.store.withRoute hl hslot
  live := by
    intro P
    simp only [routes_withRoute _ hi, Set.mem_insert_iff, h.live]
    constructor
    · rintro (rfl | ⟨j, hj⟩)
      · exact ⟨i, Function.update_self ..⟩
      · by_cases hji : j = i
        · subst hji
          rw [hj] at hold
          refine ⟨j, ?_⟩
          rw [Function.update_self, hold.resolve_left nofun]
        · exact ⟨j, by rw [Function.update_of_ne hji, hj]⟩
    · rintro ⟨j, hj⟩
      by_cases hji : j = i
      · rw [hji, Function.update_self] at hj
        exact .inl (Option.some.inj hj).symm
      · rw [Function.update_of_ne hji] at hj
        exact .inr ⟨j, hj⟩
  canonical := by
    intro j P hP
    simp only [routes_withRoute _ hi] at hP
    by_cases hji : j = i
    · rw [hji, Function.update_self] at hP
      cases hP
      exact hc
    · rw [Function.update_of_ne hji] at hP
      exact h.canonical j P hP
  ordered := by
    simp only [routes_withRoute _ hi]
    exact hord

/-- An add in order keeps the table in order. -/
theorem RouteLog.Inv.added (h : t.Inv pr) {r : L3Route} (hc : r.toPrefix.Canonical)
    (hord : AddInOrder pr t.sdk r) :
    (t.added r.toPrefix (l3RouteAdd t.sdk r)).Inv pr := by
  by_cases hr : r.Accepted
  swap
  · obtain ⟨e, he⟩ := l3RouteAdd_of_rejected t.sdk hr
    rw [he]
    exact h
  by_cases hex : ∃ i < MAX_L3_DEFIP, t.sdk.asic.Names i r.pfx r.prefixLen
  · -- the prefix has a slot: the table of prefixes stays as it is
    obtain ⟨i, hi, hn⟩ := hex
    rw [l3RouteAdd_of_names h.store hr hi hn]
    have hown : t.sdk.routes i = some r.toPrefix :=
      (h.store.routes_eq_toPrefix_iff hr.2.1).mpr ⟨hi, hn⟩
    refine h.withRoute hi hr.2.1 hc ?_ (.inr hown) ?_
    · exact fun j hj hnj => h.store.names_unique hj hi hr.2.1 hnj hn
    · rw [← hown, Function.update_eq_self]
      exact h.ordered
  have hno : ∀ j < MAX_L3_DEFIP, ¬ t.sdk.asic.Names j r.pfx r.prefixLen :=
    fun j hj hn => hex ⟨j, hj, hn⟩
  cases hff : firstFree t.sdk.defipUsed 0 MAX_L3_DEFIP with
  | none =>
    rw [l3RouteAdd_of_full h.store hr hno hff]
    exact h
  | some i =>
    have hi := (firstFree_mem hff).2
    have hfree : t.sdk.asic.slot i = none := h.store.free i hi (firstFree_free hff)
    have hnone : t.sdk.routes i = none := by
      rw [SdkState.routes, if_neg (by rw [firstFree_free hff]; simp)]
    rw [l3RouteAdd_of_firstFree h.store hr hno hff]
    refine h.withRoute hi hr.2.1 hc (fun j hj hn => absurd hn (hno j hj)) (.inl hnone) ?_
    have hside (j : ℕ) (Q : Prefix 32) (hji : j ≠ i) (hQ : t.sdk.routes j = some Q) := by
      obtain ⟨hj, hq, hn⟩ := h.store.routes_eq_some_iff.mp hQ
      have hside := hord hr hno ⟨i, hi, hfree⟩ j hj Q hq hn
      rw [h.store.beforeFree_iff pr hff hj hji] at hside
      exact hside
    refine h.ordered.insert ?_ ?_
    · intro j Q hji hQ hlt hcov
      refine (hside j Q hji hQ).1 ?_ hcov
      rw [toPrefix_len] at hlt
      omega
    · intro j Q hji hQ hlt hcov
      have hnot := (hside j Q hji hQ).2 (by rw [toPrefix_len] at hlt; omega) hcov
      exact lt_of_le_of_ne (not_lt.mp hnot) fun he => hji (pr.rank_injective he.symm)

/-- The slot of a prefix is cleared. -/
theorem RouteLog.Inv.withoutRoute (h : t.Inv pr) {r : L3Route}
    (hl : 0 ≤ r.prefixLen ∧ r.prefixLen ≤ 32) {i : ℕ} (hi : i < MAX_L3_DEFIP)
    (hn : t.sdk.asic.Names i r.pfx r.prefixLen) :
    RouteLog.Inv pr ⟨t.sdk.withoutRoute i, t.live \ {r.toPrefix}⟩ where
  store := h.store.withoutRoute i
  live := by
    intro P
    simp only [routes_withoutRoute, Set.mem_sdiff, Set.mem_singleton_iff, h.live]
    constructor
    · rintro ⟨⟨j, hj⟩, hne⟩
      have hji : j ≠ i := by
        rintro rfl
        rw [(h.store.routes_eq_toPrefix_iff hl).mpr ⟨hi, hn⟩] at hj
        exact hne (Option.some.inj hj).symm
      exact ⟨j, by rw [Function.update_of_ne hji, hj]⟩
    · rintro ⟨j, hj⟩
      have hji : j ≠ i := by
        rintro rfl
        simp at hj
      rw [Function.update_of_ne hji] at hj
      refine ⟨⟨j, hj⟩, ?_⟩
      rintro rfl
      obtain ⟨hjm, hnj⟩ := (h.store.routes_eq_toPrefix_iff hl).mp hj
      exact hji (h.store.names_unique hjm hi hl hnj hn)
  canonical := by
    intro j P hP
    simp only [routes_withoutRoute] at hP
    by_cases hji : j = i
    · simp [hji] at hP
    · rw [Function.update_of_ne hji] at hP
      exact h.canonical j P hP
  ordered := by
    simp only [routes_withoutRoute]
    exact h.ordered.erase i

/-- A delete leaves the rest of the table in order. -/
theorem RouteLog.Inv.deleted (h : t.Inv pr) (r : L3Route) :
    (t.deleted r.toPrefix (l3RouteDelete t.sdk r)).Inv pr := by
  by_cases hr : r.Deletable
  swap
  · obtain ⟨e, he⟩ := l3RouteDelete_of_rejected t.sdk hr
    rw [he]
    exact h
  by_cases hex : ∃ i < MAX_L3_DEFIP, t.sdk.asic.Names i r.pfx r.prefixLen
  · obtain ⟨i, hi, hn⟩ := hex
    rw [l3RouteDelete_of_names h.store hr hi hn]
    exact h.withoutRoute hr.2 hi hn
  · have hno : ∀ j < MAX_L3_DEFIP, ¬ t.sdk.asic.Names j r.pfx r.prefixLen :=
      fun j hj hn => hex ⟨j, hj, hn⟩
    have hlive : r.toPrefix ∉ t.live := by
      rw [h.live]
      rintro ⟨j, hj⟩
      obtain ⟨hjm, hnj⟩ := (h.store.routes_eq_toPrefix_iff hr.2).mp hj
      exact hno j hjm hnj
    rw [l3RouteDelete_of_absent h.store hr hno]
    simp only [RouteLog.deleted, Set.sdiff_singleton_eq_self hlive]
    exact ⟨h.store, h.live, h.canonical, h.ordered⟩

theorem l3HostAdd_eq (s : SdkState) (host : L3Host) :
    l3HostAdd s host = l3RouteAdd s host.route := by
  unfold l3HostAdd
  by_cases h6 : host.isIpv6 = true
  · rw [if_pos h6, l3RouteAdd, if_pos (show host.route.isIpv6 = true from h6)]
  · rw [if_neg h6, L3Host.route]
    simp only [htonl, eq_false_of_ne_true h6]

theorem RouteLog.Inv.step (h : t.Inv pr) (c : RouteCall) (hc : c.toPrefix.Canonical)
    (hord : t.InOrder pr c) : (t.step c).Inv pr := by
  cases c with
  | routeAdd r => exact h.added hc hord
  | hostAdd host =>
    rw [RouteLog.step, l3HostAdd_eq]
    exact h.added hc hord
  | routeDelete r => exact h.deleted r

theorem RouteLog.Inv.start {c : Asic} (hf : c.FaultFree)
    (hs : ∀ i < MAX_L3_DEFIP, c.slot i = none) : (RouteLog.start c).Inv pr where
  store := RouteStore.init hf hs
  live := by simp [RouteLog.start, SdkState.routes, SdkState.init]
  canonical := by
    intro i P hP
    simp [RouteLog.start, SdkState.routes, SdkState.init] at hP
  ordered := by
    intro i j P Q hP
    simp [RouteLog.start, SdkState.routes, SdkState.init] at hP

theorem RouteLog.Inv.addDone (h : t.Inv pr) (r : L3Route) :
    t.AddDone r (l3RouteAdd t.sdk r).2 := by
  intro hr hroom
  rcases l3RouteAdd_cases h.store hr with ⟨i, -, -, -, he⟩ | ⟨hno, hfull, -⟩
  · rw [he]
  · exfalso
    rcases hroom with hlive | ⟨i, hi, hfree⟩
    · obtain ⟨i, hi⟩ := (h.live _).mp hlive
      obtain ⟨hi, hn⟩ := (h.store.routes_eq_toPrefix_iff hr.2.1).mp hi
      exact hno i hi hn
    · exact hfull i hi hfree

theorem RouteLog.Inv.accomplishes (h : t.Inv pr) (c : RouteCall) : t.Accomplishes c := by
  cases c with
  | routeAdd r => exact h.addDone r
  | hostAdd host =>
    rw [RouteLog.Accomplishes, l3HostAdd_eq]
    exact h.addDone host.route
  | routeDelete r => exact l3RouteDelete_snd t.sdk

/-- A history of calls with canonical prefixes whose new prefixes all go in in
order keeps the answers of the chip the longest live prefixes, and calls that have
room and valid arguments return 0. -/
theorem lpmHolds_of_inOrder (pr : Priority) (c : Asic) (hf : c.FaultFree)
    (hs : ∀ i < MAX_L3_DEFIP, c.slot i = none) (calls : List RouteCall)
    (hc : ∀ call ∈ calls, call.toPrefix.Canonical)
    (hord : EachStep RouteLog.step (RouteLog.InOrder pr) (RouteLog.start c) calls) :
    Throughout RouteLog.step (LpmHolds pr) (RouteLog.start c) calls ∧
      EachStep RouteLog.step RouteLog.Accomplishes (RouteLog.start c) calls := by
  have hstart : (RouteLog.start c).Inv pr := RouteLog.Inv.start hf hs
  have hsteps := hord.and_of_forall hc
  constructor
  · refine Throughout.mono (fun _ h => RouteLog.Inv.lpmHolds h) ?_
    exact throughout_of_eachStep (fun t call h hm => h.step call hm.1 hm.2) hstart hsteps
  · exact EachStep.of_keep (fun t call (h : t.Inv pr) hm => h.step call hm.1 hm.2)
      (fun t call h _ => h.accomplishes call) hstart hsteps

/-! ### Two nested prefixes in either order -/

/-- 10.0.0.0/8. -/
def tenSlash8 : L3Route := { pfx := 0x0a000000, prefixLen := 8, egressId := 1, isIpv6 := false }

/-- 10.1.0.0/16. -/
def tenOneSlash16 : L3Route :=
  { pfx := 0x0a010000, prefixLen := 16, egressId := 2, isIpv6 := false }

/-- Slot 0 holds the first route and slot 1 the second. -/
def twoRoutes (r r' : L3Route) : RouteLog :=
  ⟨((SdkState.init Asic.blank).withRoute 0 r).withRoute 1 r',
    insert r'.toPrefix (insert r.toPrefix ∅)⟩

theorem twoRoutes_routes (r r' : L3Route) : (twoRoutes r r').sdk.routes =
    Function.update (Function.update (fun _ => none) 0 (some r.toPrefix)) 1 (some r'.toPrefix) := by
  rw [twoRoutes, routes_withRoute _ (by decide), routes_withRoute _ (by decide)]
  congr 2
  funext j
  simp [SdkState.routes, SdkState.init]

theorem twoRoutes_live (r r' : L3Route) (P : Prefix 32) :
    P ∈ (twoRoutes r r').live ↔ ∃ i, (twoRoutes r r').sdk.routes i = some P := by
  rw [twoRoutes_routes]
  constructor
  · rintro (rfl | rfl | hP)
    · exact ⟨1, rfl⟩
    · exact ⟨0, rfl⟩
    · exact absurd hP (Set.notMem_empty P)
  · rintro ⟨i, hi⟩
    by_cases h1 : i = 1
    · subst h1
      cases hi
      exact .inl rfl
    by_cases h0 : i = 0
    · subst h0
      cases hi
      exact .inr (.inl rfl)
    · rw [Function.update_of_ne h1, Function.update_of_ne h0] at hi
      cases hi

section TwoRoutes

variable {r r' : L3Route} (hr : r.Accepted) (hr' : r'.Accepted) (hne : r.pfx ≠ r'.pfx)

theorem initStore : RouteStore (SdkState.init Asic.blank) :=
  RouteStore.init Asic.blank_faultFree fun i _ => slot_blank i

theorem init_not_names (j : ℕ) (pfx : BitVec 32) (plen : ℤ) :
    ¬ (SdkState.init Asic.blank).asic.Names j pfx plen := by
  rintro ⟨n, hn⟩
  exact absurd ((slot_blank j).symm.trans hn) nofun

include hr

theorem oneRoute_store : RouteStore ((SdkState.init Asic.blank).withRoute 0 r) :=
  initStore.withRoute hr.2.1 fun j _ hn => absurd hn (init_not_names j _ _)

theorem step_start : (RouteLog.start Asic.blank).step (.routeAdd r) =
    ⟨(SdkState.init Asic.blank).withRoute 0 r, insert r.toPrefix ∅⟩ := by
  have hadd : l3RouteAdd (SdkState.init Asic.blank) r =
      ((SdkState.init Asic.blank).withRoute 0 r, .ok ()) :=
    l3RouteAdd_of_firstFree initStore hr (fun j _ => init_not_names j _ _)
      (firstFree_of_low (Nat.zero_le 0) (by decide) nofun rfl)
  simp only [RouteLog.step, RouteLog.start, hadd, RouteLog.added]

include hr' hne

theorem oneRoute_not_names (j : ℕ) (hj : j < MAX_L3_DEFIP) :
    ¬ ((SdkState.init Asic.blank).withRoute 0 r).asic.Names j r'.pfx r'.prefixLen := by
  intro hn
  obtain ⟨hu, hp, -⟩ := ((oneRoute_store hr).names_iff hj hr'.2.1).mp hn
  by_cases hj0 : j = 0
  · subst hj0
    exact hne hp
  · simp [SdkState.withRoute, SdkState.init, hj0] at hu

/-- Into an empty table the first route goes to slot 0 and the next to slot 1. -/
theorem step_step_start :
    ((RouteLog.start Asic.blank).step (.routeAdd r)).step (.routeAdd r') = twoRoutes r r' := by
  have hadd : l3RouteAdd ((SdkState.init Asic.blank).withRoute 0 r) r' =
      (((SdkState.init Asic.blank).withRoute 0 r).withRoute 1 r', .ok ()) := by
    refine l3RouteAdd_of_firstFree (oneRoute_store hr) hr'
      (oneRoute_not_names hr hr' hne) (firstFree_of_low (Nat.zero_le 1) (by decide) ?_ rfl)
    intro j _ hj
    simp [show j = 0 by omega, SdkState.withRoute]
  rw [step_start hr]
  simp only [RouteLog.step, hadd, RouteLog.added, twoRoutes]

theorem twoRoutes_store : RouteStore (twoRoutes r r').sdk :=
  (oneRoute_store hr).withRoute hr'.2.1 fun j hj hn =>
    absurd hn (oneRoute_not_names hr hr' hne j hj)

/-- Of two nested routes the shorter one ranks first. -/
theorem twoRoutes_not_lpmHolds {pr : Priority} {a : BitVec 32} {i j : ℕ} {P Q : Prefix 32}
    (hP : (twoRoutes r r').sdk.routes i = some P) (hQ : (twoRoutes r r').sdk.routes j = some Q)
    (hcov : P.Covers a) (hcov' : Q.Covers a) (hlen : P.len < Q.len) (hrank : pr.rank i < pr.rank j)
    (hij : ∀ m R, (twoRoutes r r').sdk.routes m = some R → m = i ∨ m = j) :
    ¬ LpmHolds pr (twoRoutes r r') := by
  refine not_lpmHolds_of_rank (twoRoutes_store hr hr' hne) (twoRoutes_live r r')
    ⟨P, hP, hcov⟩ hQ hcov' hrank ?_
  intro m R hR _
  rcases hij m R hR with rfl | rfl
  · rw [hP] at hR
    cases hR
    exact .inr hlen
  · exact .inl rfl

end TwoRoutes

/-- With either priority two nested routes in the wrong order send 10.1.0.0 to
the shorter one. -/
theorem lpmHolds_fails :
    ¬ Throughout RouteLog.step (LpmHolds .lowest) (RouteLog.start Asic.blank)
        [.routeAdd tenSlash8, .routeAdd tenOneSlash16] ∧
      ¬ Throughout RouteLog.step (LpmHolds .highest) (RouteLog.start Asic.blank)
        [.routeAdd tenOneSlash16, .routeAdd tenSlash8] := by
  have h8 : tenSlash8.toPrefix.Covers 0x0a010000 := by decide
  have h16 : tenOneSlash16.toPrefix.Covers 0x0a010000 := by decide
  have hends (r r' : L3Route) (m : ℕ) (R : Prefix 32)
      (hm : (twoRoutes r r').sdk.routes m = some R) : m = 0 ∨ m = 1 := by
    rw [twoRoutes_routes] at hm
    by_contra hne
    rw [Function.update_of_ne (by omega), Function.update_of_ne (by omega)] at hm
    cases hm
  constructor
  · intro h
    have hend := h.final
    rw [run_cons, run_cons, run_nil,
      step_step_start (by decide) (by decide) (by decide)] at hend
    exact twoRoutes_not_lpmHolds (i := 0) (j := 1) (by decide) (by decide) (by decide)
      (by rw [twoRoutes_routes]; rfl) (by rw [twoRoutes_routes]; rfl) h8 h16 (by decide) (by decide)
      (hends _ _) hend
  · intro h
    have hend := h.final
    rw [run_cons, run_cons, run_nil,
      step_step_start (by decide) (by decide) (by decide)] at hend
    exact twoRoutes_not_lpmHolds (i := 1) (j := 0) (by decide) (by decide) (by decide)
      (by rw [twoRoutes_routes]; rfl) (by rw [twoRoutes_routes]; rfl) h8 h16 (by decide) (by decide)
      (fun m R hm => (hends _ _ m R hm).symm) hend

/-- The longer route first, for a chip that prefers the lowest slot. -/
theorem lpmHolds_longest_first :
    Throughout RouteLog.step (LpmHolds .lowest) (RouteLog.start Asic.blank)
        [.routeAdd tenOneSlash16, .routeAdd tenSlash8] ∧
      EachStep RouteLog.step RouteLog.Accomplishes (RouteLog.start Asic.blank)
        [.routeAdd tenOneSlash16, .routeAdd tenSlash8] := by
  refine lpmHolds_of_inOrder .lowest Asic.blank Asic.blank_faultFree (fun i _ => slot_blank i) _
    ?_ ⟨?_, ?_, trivial⟩
  · simp only [List.forall_mem_cons, List.not_mem_nil, false_imp_iff, implies_true, and_true]
    exact ⟨by decide, by decide⟩
  · intro _ _ _ j _ Q _ hn
    exact absurd hn (init_not_names j _ _)
  · have h16 : tenOneSlash16.Accepted := by decide
    rw [step_start h16]
    intro _ _ _ j hj Q hQ hn
    obtain ⟨hu, hp, hl⟩ := ((oneRoute_store h16).names_iff hj (by omega)).mp hn
    have hj0 : j = 0 := by
      by_contra hj0
      simp [SdkState.withRoute, SdkState.init, hj0] at hu
    subst hj0
    have hl16 : (Q.len : ℤ) = 16 := hl.symm
    exact ⟨fun _ _ i hi => absurd hi (Nat.not_lt_zero i), fun hlt => absurd hlt (by
      rw [hl16]
      decide)⟩

end OpenNos.Sdk
