import OpenNos.Switchd.PortConfig

/-! Which ASIC port an interface is. `main` starts switchd from ports.conf and opens
one TAP for each name; from then on five places go from an interface to a port or
back. Four of them count positions in the list of names, `ifname_to_port` reads the
number in the name. Here: the files on which all five take swpN for port N. -/

namespace OpenNos.Switchd

open Cstring

/-! ### Start-up -/

/-- The descriptors the kernel gives to `tun_create`, call by call; all stay open. -/
structure TunDevice where
  create : ℕ → Option ℤ
  nonneg : ∀ i fd, create i = some fd → 0 ≤ fd
  distinct : ∀ i j fd, create i = some fd → create j = some fd → i = j

/-- `tun_create_all` for `count` names. -/
def tunCreateAll (tun : TunDevice) : ℕ → Option (List ℤ)
  | 0 => some []
  | i + 1 =>
    match tunCreateAll tun i with
    | none => none
    | some fds =>
      match tun.create i with
      | none => none
      | some fd => some (fds ++ [fd])

/-- What the threads of switchd work with, and the calls made before they start. -/
structure Daemon where
  names : List (List Byte)
  tunFds : List ℤ
  calls : List SdkCall

/-- `main` up to the start of the threads; `none` when it gives up. -/
def switchdMain (portsConf : Option (List Byte)) (tun : TunDevice) : Option Daemon :=
  let names := portConfigLoad portsConf
  let numPorts := names.length
  if numPorts = 0 ∨ MAX_PORTS < numPorts then none
  else
    let calls := (List.range numPorts).map fun i : ℕ => SdkCall.portEnableSet ((i : ℤ) + 1) true
    match tunCreateAll tun numPorts with
    | none => none
    | some tunFds => some { names := names, tunFds := tunFds, calls := calls }

/-! ### Packets -/

/-- A frame `tx_thread` has read from a descriptor: the call of `bcm56846_tx`. -/
def txThread (tunFds : List ℤ) (fd : ℤ) (pkt : List Byte) : Option (ℤ × List Byte) :=
  if pkt.length = 0 then none
  else (tunFds.findIdx? (· == fd)).map fun j : ℕ => ((j : ℤ) + 1, pkt)

/-- A frame punted from a port: the write to a descriptor. -/
def rxCallback (tunFds : List ℤ) (port : ℤ) (pkt : List Byte) : Option (ℤ × List Byte) :=
  let idx := port - 1
  if idx < 0 ∨ (tunFds.length : ℤ) ≤ idx then none
  else
    match tunFds[idx.toNat]? with
    | none => none
    | some fd => if fd < 0 then none else some (fd, pkt)

/-! ### Link state -/

/-- One turn of the poll loop: `last_up` afterwards and the calls of `tun_set_up`. -/
def linkStateTurn (names : List (List Byte)) (i : ℕ) (status : Option Bool)
    (lastUp : ℕ → Option Bool) : (ℕ → Option Bool) × List (List Byte × Bool) :=
  match status with
  | none => (lastUp, [])
  | some up =>
    let changed := lastUp i ≠ some up
    (Function.update lastUp i (some up),
      if changed then
        match names[i]? with
        | none => []
        | some name => [(name, up)]
      else [])

/-- The first turns of a round; `status` is the link state of each port. -/
def linkStateRound (names : List (List Byte)) (status : ℤ → Option Bool)
    (lastUp : ℕ → Option Bool) : ℕ → (ℕ → Option Bool) × List (List Byte × Bool)
  | 0 => (lastUp, [])
  | i + 1 =>
    let before := linkStateRound names status lastUp i
    let turn := linkStateTurn names i (status ((i : ℤ) + 1)) before.1
    (turn.1, before.2 ++ turn.2)

/-- The rounds of the loop, one for each reading of the ports. -/
def linkStateRounds (names : List (List Byte)) :
    (ℕ → Option Bool) → List (ℤ → Option Bool) → List (List Byte × Bool)
  | _, [] => []
  | lastUp, status :: rest =>
    let round := linkStateRound names status lastUp names.length
    round.2 ++ linkStateRounds names round.1 rest

def linkStateThread (names : List (List Byte)) (polls : List (ℤ → Option Bool)) :
    List (List Byte × Bool) :=
  if names.length = 0 ∨ MAX_PORTS < names.length then []
  else linkStateRounds names (fun _ => none) polls

/-- One interface driven by one port: it is set on every change of the link state. -/
def driven : Option Bool → List (Option Bool) → List Bool
  | _, [] => []
  | last, none :: rest => driven last rest
  | last, some up :: rest =>
    if last ≠ some up then up :: driven (some up) rest else driven last rest

/-- What the calls do to swpN. -/
def setsOf (n : ℕ) (calls : List (List Byte × Bool)) : List Bool :=
  (calls.filter (·.1 == swpName n)).map (·.2)

/-! ### The agreement -/

/-- Every place takes swpN, whose TAP is `fd`, for port N. -/
structure IsPort (d : Daemon) (n : ℕ) (fd : ℤ) : Prop where
  enabled : .portEnableSet n true ∈ d.calls
  tx : ∀ pkt, pkt ≠ [] → txThread d.tunFds fd pkt = some ((n : ℤ), pkt)
  rx : ∀ pkt, rxCallback d.tunFds n pkt = some (fd, pkt)
  link : ∀ polls, setsOf n (linkStateThread d.names polls) =
    driven none (polls.map fun status => status n)
  netlink : ifnameToPort (swpName n) = some (n : ℤ)

/-- Every interface is the port of its number. -/
def OneInterfaceOnePort (d : Daemon) : Prop :=
  ∀ (i n : ℕ) (fd : ℤ), 0 < n ∧ n ≤ 56 → d.names[i]? = some (swpName n) →
    d.tunFds[i]? = some fd → IsPort d n fd

/-- The numbers at the starts of the lines count up from 1, if there are any. -/
def CountsUp : Option (List Byte) → Prop
  | none => True
  | some content => ∃ k, listedPorts content = List.range' 1 k

/-! ### What start-up leaves -/

variable {tun : TunDevice} {file : Option (List Byte)} {ns : List ℕ} {d : Daemon}

theorem tunCreateAll_spec {count : ℕ} {fds : List ℤ} (h : tunCreateAll tun count = some fds) :
    fds.length = count ∧ ∀ i fd, fds[i]? = some fd → tun.create i = some fd := by
  induction count generalizing fds with
  | zero =>
    obtain rfl := Option.some.inj h
    exact ⟨rfl, fun i fd hi => by simp at hi⟩
  | succ count ih =>
    rw [tunCreateAll] at h
    cases hfds : tunCreateAll tun count with
    | none => simp [hfds] at h
    | some before =>
      cases hfd : tun.create count with
      | none => simp [hfds, hfd] at h
      | some new =>
        simp only [hfds, hfd, Option.some.injEq] at h
        obtain ⟨hlen, hcreate⟩ := ih hfds
        subst h
        refine ⟨by simp [hlen], fun i fd hi => ?_⟩
        rcases Nat.lt_or_ge i before.length with hlt | hge
        · rw [List.getElem?_append_left hlt] at hi
          exact hcreate i fd hi
        · rw [List.getElem?_append_right hge, List.getElem?_singleton] at hi
          split_ifs at hi with hzero
          obtain rfl := Option.some.inj hi
          rw [show i = count by omega, hfd]

/-- The daemon runs on the interfaces of these numbers, each with a descriptor of
its own. -/
structure Started (ns : List ℕ) (d : Daemon) : Prop where
  names : d.names = ns.map swpName
  fds_length : d.tunFds.length = ns.length
  nonneg : ∀ (i : ℕ) (fd : ℤ), d.tunFds[i]? = some fd → 0 ≤ fd
  distinct : ∀ (i j : ℕ) (fd : ℤ), d.tunFds[i]? = some fd → d.tunFds[j]? = some fd → i = j
  calls : d.calls = (List.range ns.length).map fun i : ℕ => .portEnableSet ((i : ℤ) + 1) true

theorem switchdMain_started (h : switchdMain file tun = some d) :
    Started (portNumbers file) d := by
  have hrange := portNumbers_length file
  have hno : ¬ ((portNumbers file).length = 0 ∨ MAX_PORTS < (portNumbers file).length) := by
    omega
  simp only [switchdMain, portConfigLoad_eq, List.length_map, if_neg hno] at h
  cases hfds : tunCreateAll tun (portNumbers file).length with
  | none => simp [hfds] at h
  | some fds =>
    simp only [hfds, Option.some.injEq] at h
    obtain ⟨hlen, hcreate⟩ := tunCreateAll_spec hfds
    subst h
    exact ⟨rfl, hlen, fun i fd hi => tun.nonneg i fd (hcreate i fd hi),
      fun i j fd hi hj => tun.distinct i j fd (hcreate i fd hi) (hcreate j fd hj), rfl⟩

/-! ### Frames go by position -/

theorem Started.tx (h : Started ns d) {i : ℕ} {fd : ℤ} (hfd : d.tunFds[i]? = some fd)
    {pkt : List Byte} (hpkt : pkt ≠ []) : txThread d.tunFds fd pkt = some ((i : ℤ) + 1, pkt) := by
  have hlen : ¬ pkt.length = 0 := by simpa using hpkt
  have hidx : d.tunFds.findIdx? (· == fd) = some i := by
    obtain ⟨hlt, hget⟩ := List.getElem?_eq_some_iff.mp hfd
    rw [List.findIdx?_eq_some_iff_getElem]
    refine ⟨hlt, by simp [hget], fun j hj => ?_⟩
    have hjlt : j < d.tunFds.length := hj.trans hlt
    intro heq
    have hfd' : d.tunFds[j]? = some fd := by
      rw [List.getElem?_eq_getElem hjlt, eq_of_beq heq]
    exact absurd (h.distinct j i fd hfd' hfd) hj.ne
  rw [txThread, if_neg hlen, hidx, Option.map_some]

theorem Started.rx (h : Started ns d) {i : ℕ} {fd : ℤ} (hfd : d.tunFds[i]? = some fd)
    (pkt : List Byte) : rxCallback d.tunFds ((i : ℤ) + 1) pkt = some (fd, pkt) := by
  have hlt : i < d.tunFds.length := (List.getElem?_eq_some_iff.mp hfd).1
  have hidx : ((i : ℤ) + 1 - 1).toNat = i := by omega
  have hrange : ¬ ((i : ℤ) + 1 - 1 < 0 ∨ (d.tunFds.length : ℤ) ≤ (i : ℤ) + 1 - 1) := by omega
  have hfd0 : ¬ fd < 0 := not_lt.mpr (h.nonneg i fd hfd)
  simp only [rxCallback, if_neg hrange, hidx, hfd, if_neg hfd0]

/-! ### The link poll in a list that counts up -/

theorem setsOf_append (n : ℕ) (xs ys : List (List Byte × Bool)) :
    setsOf n (xs ++ ys) = setsOf n xs ++ setsOf n ys := by
  simp [setsOf]

/-- One reading, then the others. -/
theorem driven_cons (last status : Option Bool) (rest : List (Option Bool)) :
    driven last (status :: rest) = driven last [status] ++ driven (status.or last) rest := by
  cases status with
  | none => rfl
  | some up =>
    by_cases hlast : last = some up
    · simp [driven, hlast]
    · simp [driven, hlast]

/-- A turn remembers its own reading. -/
theorem linkStateTurn_lastUp (names : List (List Byte)) (i : ℕ) (status : Option Bool)
    (lastUp : ℕ → Option Bool) (j : ℕ) : (linkStateTurn names i status lastUp).1 j =
      if j = i then status.or (lastUp i) else lastUp j := by
  cases status with
  | none =>
    simp only [linkStateTurn, Option.none_or]
    split_ifs with h
    · rw [h]
    · rfl
  | some up => simp only [linkStateTurn, Function.update_apply, Option.some_or]

/-- A turn drives the interface at its own position. -/
theorem setsOf_turn {names : List (List Byte)} {i n m : ℕ} (hn : 0 < n ∧ n ≤ 56)
    (hm : 0 < m ∧ m ≤ 56) (hname : names[i]? = some (swpName m)) (status : Option Bool)
    (lastUp : ℕ → Option Bool) : setsOf n (linkStateTurn names i status lastUp).2 =
      if m = n then driven (lastUp i) [status] else [] := by
  cases status with
  | none => simp [linkStateTurn, setsOf, driven]
  | some up =>
    have hswp : (swpName m == swpName n) = decide (m = n) := by
      by_cases hmn : m = n
      · simp [hmn]
      · have hne : swpName m ≠ swpName n := fun h => hmn (swpName_inj hm hn h)
        simp [hmn, hne]
    by_cases hlast : lastUp i = some up
    · simp [linkStateTurn, hlast, setsOf, driven]
    · by_cases hmn : m = n
      · simp [linkStateTurn, hlast, hname, setsOf, driven, hmn]
      · simp [linkStateTurn, hlast, hname, setsOf, hswp, hmn]

/-- A turn on the interfaces of a file is the turn the flapping loop takes. -/
theorem pollPort_ofFile (k : Kernel) (s : FlapState) {i n : ℕ}
    (hn : (portNumbers file)[i]? = some n) (status : Option Bool) (tunOk : Bool) :
    pollPort k (PortConfig.ofFile file) s i status tunOk =
      (linkStateTurn (portConfigLoad file) i status s.lastUp).2.foldl
        (fun s call => tunSetUp k s n call.2 tunOk)
        { s with lastUp := (linkStateTurn (portConfigLoad file) i status s.lastUp).1 } := by
  have hport : (PortConfig.ofFile file).ports[i]? = some n := hn
  have hname : (portConfigLoad file)[i]? = some (swpName n) := by
    rw [portConfigLoad_eq, List.getElem?_map, hn, Option.map_some]
  cases status with
  | none => simp only [pollPort, hport, linkStateTurn, List.foldl_nil]
  | some up =>
    simp only [pollPort, hport, linkStateTurn, hname]
    split_ifs
    · rfl
    · rfl

/-- The names count up from swp1. -/
def NamesCountUp (names : List (List Byte)) : Prop :=
  names.length ≤ 56 ∧ ∀ i < names.length, names[i]? = some (swpName (i + 1))

variable {names : List (List Byte)}

theorem linkStateRound_lastUp (names : List (List Byte)) (status : ℤ → Option Bool)
    (lastUp : ℕ → Option Bool) (k j : ℕ) : (linkStateRound names status lastUp k).1 j =
      if j < k then (status ((j : ℤ) + 1)).or (lastUp j) else lastUp j := by
  induction k with
  | zero => rfl
  | succ k ih =>
    simp only [linkStateRound, linkStateTurn_lastUp]
    rcases lt_trichotomy j k with hlt | rfl | hgt
    · rw [if_neg hlt.ne, ih, if_pos hlt, if_pos (by omega)]
    · rw [if_pos rfl, ih, if_neg (lt_irrefl j), if_pos (Nat.lt_succ_self j)]
    · rw [if_neg hgt.ne', ih, if_neg (by omega), if_neg (by omega)]

/-- A round drives each interface by its own port. -/
theorem NamesCountUp.setsOf_round (h : NamesCountUp names) (status : ℤ → Option Bool)
    (lastUp : ℕ → Option Bool) {i k : ℕ} (hi : i < names.length) (hk : k ≤ names.length) :
    setsOf (i + 1) (linkStateRound names status lastUp k).2 =
      if i < k then driven (lastUp i) [status ((i : ℤ) + 1)] else [] := by
  have hlen := h.1
  induction k with
  | zero => rfl
  | succ k ih =>
    have hname := h.2 k (by omega)
    rw [linkStateRound, setsOf_append, ih (by omega),
      setsOf_turn ⟨by omega, by omega⟩ ⟨by omega, by omega⟩ hname, linkStateRound_lastUp]
    rcases lt_trichotomy i k with hlt | rfl | hgt
    · rw [if_pos hlt, if_neg (by omega), if_pos (by omega), List.append_nil]
    · rw [if_neg (lt_irrefl i), if_pos rfl, if_neg (lt_irrefl i), if_pos (Nat.lt_succ_self i),
        List.nil_append]
    · rw [if_neg (by omega), if_neg (by omega), if_neg (by omega), List.append_nil]

/-- So do all of them together. -/
theorem NamesCountUp.setsOf_rounds (h : NamesCountUp names) {i : ℕ} (hi : i < names.length)
    (lastUp : ℕ → Option Bool) (polls : List (ℤ → Option Bool)) :
    setsOf (i + 1) (linkStateRounds names lastUp polls) =
      driven (lastUp i) (polls.map fun status => status ((i : ℤ) + 1)) := by
  induction polls generalizing lastUp with
  | nil => rfl
  | cons status rest ih =>
    rw [linkStateRounds, setsOf_append, h.setsOf_round status lastUp hi le_rfl, if_pos hi, ih,
      linkStateRound_lastUp, if_pos hi, List.map_cons, ← driven_cons]

theorem NamesCountUp.setsOf_thread (h : NamesCountUp names) {i : ℕ} (hi : i < names.length)
    (polls : List (ℤ → Option Bool)) : setsOf (i + 1) (linkStateThread names polls) =
      driven none (polls.map fun status => status ((i : ℤ) + 1)) := by
  have hno : ¬ (names.length = 0 ∨ MAX_PORTS < names.length) := by
    have hlen : names.length ≤ MAX_PORTS := h.1
    omega
  rw [linkStateThread, if_neg hno]
  exact h.setsOf_rounds hi _ polls

/-! ### The files on which the places agree -/

theorem namesCountUp_range' {k : ℕ} (hk : k ≤ 56) :
    NamesCountUp ((List.range' 1 k).map swpName) := by
  refine ⟨by simpa using hk, fun i hi => ?_⟩
  rw [List.length_map, List.length_range'] at hi
  rw [List.getElem?_map, List.getElem?_range' hi, Option.map_some, one_mul, Nat.add_comm]

/-- On a list that counts up all five places agree. -/
theorem Started.oneInterfaceOnePort {k : ℕ} (h : Started (List.range' 1 k) d) (hk : k ≤ 56) :
    OneInterfaceOnePort d := by
  intro i n fd hn hname hfd
  have hlt : i < k := by
    have hlen := (List.getElem?_eq_some_iff.mp hfd).1
    rwa [h.fds_length, List.length_range'] at hlen
  have hcount : NamesCountUp d.names := h.names ▸ namesCountUp_range' hk
  have hnames : i < d.names.length := by
    simpa [h.names] using hlt
  have hswp : swpName n = swpName (i + 1) :=
    Option.some.inj (hname.symm.trans (hcount.2 i hnames))
  obtain rfl : n = i + 1 := swpName_inj hn ⟨by omega, by omega⟩ hswp
  have hcast : ((i + 1 : ℕ) : ℤ) = (i : ℤ) + 1 := by omega
  constructor
  · rw [h.calls, List.length_range', hcast]
    exact List.mem_map_of_mem (List.mem_range.mpr hlt)
  · intro pkt hpkt
    rw [h.tx hfd hpkt, hcast]
  · intro pkt
    rw [hcast]
    exact h.rx hfd pkt
  · intro polls
    rw [hcast]
    exact hcount.setsOf_thread hnames polls
  · exact ifnameToPort_swpName hn

/-- Frames go by position, so the names must stand at theirs. -/
theorem Started.countsUp (h : Started ns d) (hns : ∀ n ∈ ns, 0 < n ∧ n ≤ 56)
    (hone : OneInterfaceOnePort d) : ns = List.range' 1 ns.length := by
  apply List.ext_getElem?
  intro i
  by_cases hi : i < ns.length
  · have hlt : i < d.tunFds.length := by rwa [h.fds_length]
    have hname : d.names[i]? = some (swpName ns[i]) := by
      rw [h.names, List.getElem?_map, List.getElem?_eq_getElem hi, Option.map_some]
    have hfd : d.tunFds[i]? = some d.tunFds[i] := List.getElem?_eq_getElem hlt
    have hport := hone i ns[i] _ (hns _ (List.getElem_mem hi)) hname hfd
    have htx := hport.tx [0] (List.cons_ne_nil _ _)
    rw [h.tx hfd (List.cons_ne_nil _ _), Option.some.injEq, Prod.mk.injEq] at htx
    rw [List.getElem?_range' hi, List.getElem?_eq_getElem hi]
    congr 1
    omega
  · rw [List.getElem?_eq_none (by omega), List.getElem?_eq_none (by simpa using hi)]

theorem countsUp_iff (file : Option (List Byte)) :
    CountsUp file ↔ ∃ k ≤ 56, portNumbers file = List.range' 1 k := by
  cases file with
  | none => exact ⟨fun _ => ⟨52, by omega, rfl⟩, fun _ => trivial⟩
  | some content =>
    rw [CountsUp, portNumbers]
    split_ifs with hnil
    · exact ⟨fun _ => ⟨52, by omega, rfl⟩, fun _ => ⟨0, hnil⟩⟩
    · constructor
      · rintro ⟨k, hk⟩
        have hlen := List.length_take_le MAX_PORTS
          ((fgetsLines 128 content []).filterMap lineNumber)
        have hkmax : k ≤ MAX_PORTS := by
          have : (listedPorts content).length = k := by rw [hk, List.length_range']
          exact this ▸ hlen
        exact ⟨k, hkmax, hk⟩
      · rintro ⟨k, -, hk⟩
        exact ⟨k, hk⟩

/-- On the files whose lines count up from 1, and on no others, every interface
is the port of its number in all five places. -/
theorem oneInterfaceOnePort_iff_countsUp (portsConf : Option (List Byte)) (tun : TunDevice)
    (d : Daemon) (hmain : switchdMain portsConf tun = some d) :
    OneInterfaceOnePort d ↔ CountsUp portsConf := by
  have hstarted := switchdMain_started hmain
  rw [countsUp_iff]
  constructor
  · intro hone
    exact ⟨_, (portNumbers_length portsConf).2,
      hstarted.countsUp (portNumbers_inRange portsConf) hone⟩
  · rintro ⟨k, hk, hns⟩
    rw [hns] at hstarted
    exact hstarted.oneInterfaceOnePort hk

/-- Descriptors from 5 on. -/
def tunFromFive : TunDevice where
  create := fun i => some ((i : ℤ) + 5)
  nonneg := by
    intro i fd h
    obtain rfl := Option.some.inj h
    omega
  distinct := by
    intro i j fd hi hj
    have hij := Option.some.inj (hi.trans hj.symm)
    omega

/-- The line "N=10G" for a number of one digit. -/
def lineTenG (digit : Byte) : List Byte := [digit, 0x3d, 0x31, 0x30, 0x47, 0x0a]

/-- "1=10G" and "2=10G". -/
theorem oneInterfaceOnePort_two : OneInterfaceOnePort
    ⟨[swpName 1, swpName 2], [5, 6], [.portEnableSet 1 true, .portEnableSet 2 true]⟩ :=
  (oneInterfaceOnePort_iff_countsUp (some (lineTenG 0x31 ++ lineTenG 0x32)) tunFromFive _ rfl).mpr
    ⟨2, by decide⟩

/-- "5=10G" alone: what swp5 sends goes out on port 1. -/
theorem oneInterfaceOnePort_fails :
    ∃ d, switchdMain (some (lineTenG 0x35)) tunFromFive = some d ∧ ¬ OneInterfaceOnePort d := by
  refine ⟨⟨[swpName 5], [5], [.portEnableSet 1 true]⟩, rfl, fun hone => ?_⟩
  have hport := hone 0 5 5 (by omega) rfl rfl
  exact absurd (hport.tx [0] (List.cons_ne_nil _ _)) (by decide)

end OpenNos.Switchd
