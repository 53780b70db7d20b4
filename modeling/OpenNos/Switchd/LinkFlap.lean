import OpenNos.Lib.History
import OpenNos.Switchd.IfName

/-! The loop from the link poll thread through the kernel to the netlink thread
(`link_state.c`, `tun.c`, `netlink.c`). The poll thread sets IFF_UP of an
interface to the link state it reads; the kernel queues an RTM_NEWLINK for every
change of the flag; the netlink thread takes the flag for the administrator's
wish and enables or disables the port. Nobody else touches the flags here, so
every disable comes from a poll that read the link as down. -/

namespace OpenNos.Switchd

open History Cstring Sdk

/-! ### The kernel -/

/-- "swp" and the number in decimal. -/
def swpName (n : ℕ) : List Byte := [0x73, 0x77, 0x70] ++ decimal n

/-- What the kernel announces when IFF_UP of swpN becomes `up`. -/
structure Kernel where
  newlink : ℕ → Bool → Nlmsg Ifinfomsg
  complete : ∀ n up, NLMSG_LENGTH 16 ≤ (newlink n up).nlmsgLen
  named : ∀ n up, 0 < n ∧ n ≤ 56 →
    ∃ a, (newlink n up).tb IFLA_IFNAME = some a ∧ cstr a.data = swpName n
  flagged : ∀ n up, (newlink n up).hdr.ifiFlags &&& IFF_UP ≠ 0 ↔ up = true

/-- The interfaces of ports.conf in order, by number; only these are accepted. -/
structure PortConfig where
  ports : List ℕ
  inRange : ∀ n ∈ ports, 0 < n ∧ n ≤ 56

/-- The poll thread, the kernel, the netlink thread and the calls of
`bcm56846_port_enable_set` that `handle_link` has made. -/
structure FlapState where
  /-- `last_up[i]`, `none` for -1 -/
  lastUp : ℕ → Option Bool
  /-- IFF_UP of swpN -/
  iffUp : ℕ → Bool
  /-- announcements not yet received -/
  queue : List (Nlmsg Ifinfomsg)
  net : NetState
  calls : List SdkCall

inductive FlapEvent where
  /-- one turn of the poll loop: what the status call gave, and whether the
  ioctls of `tun_set_up` succeed if it is called -/
  | poll (i : ℕ) (status : Option Bool) (tunOk : Bool)
  /-- the netlink thread handles the next message -/
  | deliver

variable (k : Kernel) (cfg : PortConfig)

/-- `tun_set_up`, and the announcement of a change. -/
def tunSetUp (s : FlapState) (n : ℕ) (up ok : Bool) : FlapState :=
  if ok = false ∨ s.iffUp n = up then s
  else { s with iffUp := Function.update s.iffUp n up, queue := s.queue ++ [k.newlink n up] }

def pollPort (s : FlapState) (i : ℕ) (status : Option Bool) (tunOk : Bool) : FlapState :=
  match cfg.ports[i]?, status with
  | some n, some up =>
    let changed := s.lastUp i ≠ some up
    let s' := { s with lastUp := Function.update s.lastUp i (some up) }
    if changed then tunSetUp k s' n up tunOk else s'
  | _, _ => s

def deliver (s : FlapState) : FlapState :=
  match s.queue with
  | [] => s
  | m :: rest =>
    let r := handleLink s.net false m
    { s with queue := rest, net := NetState.perform r, calls := s.calls ++ r.2 }

def FlapState.step (s : FlapState) : FlapEvent → FlapState
  | .poll i status tunOk => pollPort k cfg s i status tunOk
  | .deliver => deliver s

/-- Every interface as the administrator set it, nothing polled, nothing queued. -/
def FlapState.start (admin : ℕ → Bool) (net : NetState) : FlapState where
  lastUp := fun _ => none
  iffUp := admin
  queue := []
  net := net
  calls := []

/-- No port the administrator enabled has been disabled. -/
def KeepsEnabled (admin : ℕ → Bool) (s : FlapState) : Prop :=
  ∀ n, admin n = true → .portEnableSet n false ∉ s.calls

/-- Not a turn that reads the link of an enabled interface as newly down and
takes IFF_UP from it. -/
def NoTakedown (admin : ℕ → Bool) (s : FlapState) : FlapEvent → Prop
  | .poll i (some false) true =>
    ∀ n, cfg.ports[i]? = some n → admin n = true → s.lastUp i ≠ some false → s.iffUp n = false
  | _ => True

/-! ### Messages -/

theorem ifnameToPort_swpName {n : ℕ} (hn : 0 < n ∧ n ≤ 56) :
    ifnameToPort (swpName n) = some (n : ℤ) := by
  refine ifnameToPort_of_portName ⟨by omega, ?_⟩
  rw [Int.toNat_natCast]
  rfl

theorem swpName_inj {n m : ℕ} (hn : 0 < n ∧ n ≤ 56) (hm : 0 < m ∧ m ≤ 56)
    (h : swpName n = swpName m) : n = m := by
  have hport := congrArg ifnameToPort h
  rw [ifnameToPort_swpName hn, ifnameToPort_swpName hm] at hport
  exact_mod_cast Option.some.inj hport

/-- An announcement makes `handle_link` set the enable of its port to the flag. -/
theorem handleLink_newlink (net : NetState) {n : ℕ} (hn : 0 < n ∧ n ≤ 56) (up : Bool) :
    (handleLink net false (k.newlink n up)).2 = [.portEnableSet n up] := by
  obtain ⟨a, ha, hname⟩ := k.named n up hn
  have hflag : decide ((k.newlink n up).hdr.ifiFlags &&& IFF_UP ≠ 0) = up := by
    rw [Bool.eq_iff_iff, decide_eq_true_iff]
    exact k.flagged n up
  rw [handleLink, if_neg (by have := k.complete n up; omega), if_neg (by decide), ha]
  simp only [hname, ifnameToPort_swpName hn, hflag]

/-! ### Where a disable comes from -/

variable {admin : ℕ → Bool} {s : FlapState}

/-- Every queued message announces a flag of a port. -/
def Announced (s : FlapState) : Prop :=
  ∀ m ∈ s.queue, ∃ n up, (0 < n ∧ n ≤ 56) ∧ m = k.newlink n up

/-- A queued message takes an enabled interface down, or has done so. -/
def Doomed (admin : ℕ → Bool) (s : FlapState) : Prop :=
  ∃ n, admin n = true ∧
    ((0 < n ∧ n ≤ 56) ∧ k.newlink n false ∈ s.queue ∨ .portEnableSet n false ∈ s.calls)

/-- What a turn of the poll loop can do. -/
theorem pollPort_cases (s : FlapState) (i : ℕ) (status : Option Bool) (tunOk : Bool) :
    (pollPort k cfg s i status tunOk).calls = s.calls ∧
      ((pollPort k cfg s i status tunOk).queue = s.queue ∧
          (pollPort k cfg s i status tunOk).iffUp = s.iffUp ∨
        ∃ n up, cfg.ports[i]? = some n ∧ status = some up ∧ tunOk = true ∧
          s.lastUp i ≠ some up ∧ s.iffUp n ≠ up ∧
          (pollPort k cfg s i status tunOk).queue = s.queue ++ [k.newlink n up]) := by
  unfold pollPort
  cases hn : cfg.ports[i]? with
  | none => exact ⟨rfl, .inl ⟨rfl, rfl⟩⟩
  | some n =>
    cases status with
    | none => exact ⟨rfl, .inl ⟨rfl, rfl⟩⟩
    | some up =>
      by_cases hc : s.lastUp i ≠ some up
      · by_cases ht : tunOk = false ∨ s.iffUp n = up
        · simp only [if_pos hc, tunSetUp, if_pos ht]
          exact ⟨trivial, .inl ⟨trivial, trivial⟩⟩
        · simp only [if_pos hc, tunSetUp, if_neg ht]
          obtain ⟨hok, hup⟩ := not_or.mp ht
          exact ⟨trivial, .inr ⟨n, up, rfl, rfl, by simpa using hok, hc, hup, rfl⟩⟩
      · simp only [if_neg hc]
        exact ⟨trivial, .inl ⟨trivial, trivial⟩⟩

theorem PortConfig.getElem?_inRange {i n : ℕ} (h : cfg.ports[i]? = some n) : 0 < n ∧ n ≤ 56 :=
  cfg.inRange n (List.mem_of_getElem? h)

theorem Announced.step (h : Announced k s) (e : FlapEvent) : Announced k (s.step k cfg e) := by
  cases e with
  | poll i status tunOk =>
    obtain ⟨-, ⟨hq, -⟩ | ⟨n, up, hn, -, -, -, -, hq⟩⟩ := pollPort_cases k cfg s i status tunOk
    · rw [Announced, FlapState.step, hq]
      exact h
    · intro m hm
      rw [FlapState.step, hq, List.mem_append, List.mem_singleton] at hm
      rcases hm with hm | rfl
      · exact h m hm
      · exact ⟨n, up, cfg.getElem?_inRange hn, rfl⟩
  | deliver =>
    rw [FlapState.step, deliver]
    cases hq : s.queue with
    | nil => exact h
    | cons m rest => exact fun m' hm' => h m' (by rw [hq]; exact List.mem_cons_of_mem m hm')

/-- A delivery calls for what its message announces. -/
theorem deliver_newlink {n : ℕ} {up : Bool} {rest : List (Nlmsg Ifinfomsg)}
    (hn : 0 < n ∧ n ≤ 56) (hq : s.queue = k.newlink n up :: rest) :
    (deliver s).queue = rest ∧ (deliver s).calls = s.calls ++ [.portEnableSet n up] := by
  rw [deliver, hq]
  simp only [handleLink_newlink k s.net hn up]
  exact ⟨trivial, trivial⟩

theorem deliver_nil (hq : s.queue = []) : deliver s = s := by rw [deliver, hq]

/-- Two announcements that are the same message have the same name and flag. -/
theorem newlink_inj (net : NetState) {n n' : ℕ} {up up' : Bool} (hn : 0 < n ∧ n ≤ 56)
    (hn' : 0 < n' ∧ n' ≤ 56) (h : k.newlink n up = k.newlink n' up') : n = n' ∧ up = up' := by
  have hcall := handleLink_newlink k net hn up
  rw [h, handleLink_newlink k net hn' up'] at hcall
  simp only [List.cons.injEq, SdkCall.portEnableSet.injEq, Nat.cast_inj, and_true] at hcall
  exact ⟨hcall.1.symm, hcall.2.symm⟩

theorem Doomed.step (ha : Announced k s) (h : Doomed k admin s) (e : FlapEvent) :
    Doomed k admin (s.step k cfg e) := by
  obtain ⟨n, hadm, hd⟩ := h
  refine ⟨n, hadm, ?_⟩
  cases e with
  | poll i status tunOk =>
    obtain ⟨hc, hq⟩ := pollPort_cases k cfg s i status tunOk
    rw [FlapState.step, hc]
    refine hd.imp_left fun ⟨hn, hm⟩ => ⟨hn, ?_⟩
    rcases hq with ⟨hq, -⟩ | ⟨_, _, -, -, -, -, -, hq⟩
    · rw [hq]
      exact hm
    · rw [hq]
      exact List.mem_append_left _ hm
  | deliver =>
    cases hq : s.queue with
    | nil => rwa [FlapState.step, deliver_nil hq]
    | cons m rest =>
      obtain ⟨n', up, hn', rfl⟩ := ha m (by rw [hq]; exact List.mem_cons_self)
      obtain ⟨hq', hc'⟩ := deliver_newlink k hn' hq
      rw [FlapState.step, hq', hc']
      rcases hd with ⟨hn, hd⟩ | hd
      · rw [hq, List.mem_cons] at hd
        rcases hd with hd | hd
        · obtain ⟨rfl, rfl⟩ := newlink_inj k s.net hn hn' hd
          exact .inr (List.mem_append_right _ List.mem_cons_self)
        · exact .inl ⟨hn, hd⟩
      · exact .inr (List.mem_append_left _ hd)

theorem doomed_of_takedown (e : FlapEvent) (h : ¬ NoTakedown cfg admin s e) :
    Doomed k admin (s.step k cfg e) := by
  match e, h with
  | .poll i (some false) true, h =>
    simp only [NoTakedown, not_forall] at h
    obtain ⟨n, hn, hadm, hlast, hup⟩ := h
    refine ⟨n, hadm, .inl ⟨cfg.getElem?_inRange hn, ?_⟩⟩
    have hup' : s.iffUp n ≠ false := hup
    simp only [FlapState.step, pollPort, hn, if_pos hlast, tunSetUp]
    rw [if_neg (by simpa using hup')]
    exact List.mem_append_right _ List.mem_cons_self
  | .poll i (some true) _, h => exact absurd trivial h
  | .poll i (some false) false, h => exact absurd trivial h
  | .poll i none _, h => exact absurd trivial h
  | .deliver, h => exact absurd trivial h

/-- Only such a turn dooms an enabled port. -/
theorem not_doomed_step (ha : Announced k s) (h : ¬ Doomed k admin s) (e : FlapEvent)
    (he : NoTakedown cfg admin s e) : ¬ Doomed k admin (s.step k cfg e) := by
  rintro ⟨n, hadm, hd⟩
  cases e with
  | poll i status tunOk =>
    obtain ⟨hc, hq⟩ := pollPort_cases k cfg s i status tunOk
    rw [FlapState.step, hc] at hd
    rcases hd with ⟨hn, hm⟩ | hd
    · rcases hq with ⟨hq, -⟩ | ⟨n', up, hi, rfl, rfl, hlast, hup, hq⟩
      · rw [hq] at hm
        exact h ⟨n, hadm, .inl ⟨hn, hm⟩⟩
      · rw [hq, List.mem_append, List.mem_singleton] at hm
        rcases hm with hm | hm
        · exact h ⟨n, hadm, .inl ⟨hn, hm⟩⟩
        · obtain ⟨rfl, rfl⟩ := newlink_inj k s.net hn (cfg.getElem?_inRange hi) hm
          exact hup (he n hi hadm hlast)
    · exact h ⟨n, hadm, .inr hd⟩
  | deliver =>
    cases hq : s.queue with
    | nil =>
      rw [FlapState.step, deliver_nil hq] at hd
      exact h ⟨n, hadm, hd⟩
    | cons m rest =>
      obtain ⟨n', up, hn', rfl⟩ := ha m (by rw [hq]; exact List.mem_cons_self)
      obtain ⟨hq', hc'⟩ := deliver_newlink k hn' hq
      rw [FlapState.step, hq', hc', List.mem_append, List.mem_singleton] at hd
      rcases hd with ⟨hn, hm⟩ | hd | hd
      · exact h ⟨n, hadm, .inl ⟨hn, by rw [hq]; exact List.mem_cons_of_mem _ hm⟩⟩
      · exact h ⟨n, hadm, .inr hd⟩
      · simp only [SdkCall.portEnableSet.injEq, Nat.cast_inj] at hd
        obtain ⟨rfl, rfl⟩ := hd
        exact h ⟨n, hadm, .inl ⟨hn', by rw [hq]; exact List.mem_cons_self⟩⟩

theorem announced_start (admin : ℕ → Bool) (net : NetState) :
    Announced k (FlapState.start admin net) := fun _ hm => absurd hm List.not_mem_nil

theorem not_doomed_start (net : NetState) : ¬ Doomed k admin (FlapState.start admin net) := by
  rintro ⟨n, -, ⟨-, hm⟩ | hm⟩
  · exact absurd hm List.not_mem_nil
  · exact absurd hm List.not_mem_nil

/-- Link changes leave the enabled ports enabled in every history none of whose
polls takes IFF_UP from an enabled interface; a history with such a poll
disables a port by the time its messages are delivered. -/
theorem keepsEnabled_iff (admin : ℕ → Bool) (net : NetState) (events : List FlapEvent) :
    (EachStep (FlapState.step k cfg) (NoTakedown cfg admin) (FlapState.start admin net) events →
      Throughout (FlapState.step k cfg) (KeepsEnabled admin) (FlapState.start admin net) events) ∧
    ((run (FlapState.step k cfg) (FlapState.start admin net) events).queue = [] →
      Throughout (FlapState.step k cfg) (KeepsEnabled admin) (FlapState.start admin net) events →
      EachStep (FlapState.step k cfg) (NoTakedown cfg admin) (FlapState.start admin net)
        events) := by
  constructor
  · intro hC
    have hinv := throughout_of_eachStep
      (fun s e (h : Announced k s ∧ ¬ Doomed k admin s) he =>
        ⟨h.1.step k cfg e, not_doomed_step k cfg h.1 h.2 e he⟩)
      ⟨announced_start k admin net, not_doomed_start k net⟩ hC
    exact hinv.mono fun s h n hadm hcall => h.2 ⟨n, hadm, .inr hcall⟩
  · intro hq hP
    by_contra hC
    obtain ⟨n, hadm, ⟨-, hm⟩ | hcall⟩ := trapped_of_not_eachStep
      (fun s e (h : Announced k s) => h.step k cfg e)
      (fun s e _ he => doomed_of_takedown k cfg e he)
      (fun s e h hd => hd.step k cfg h e) (announced_start k admin net) hC
    · rw [hq] at hm
      exact absurd hm List.not_mem_nil
    · exact hP.final n hadm hcall

/-! ### One port whose cable is pulled -/

def swpNewlink (n : ℕ) (up : Bool) : Nlmsg Ifinfomsg where
  nlmsgLen := 44
  hdr := { ifiIndex := 3, ifiFlags := if up then IFF_UP else 0 }
  tb type :=
    if type = IFLA_IFNAME then some { payload := 6, data := swpName n ++ [0] } else none

/-- A kernel that sends the name and the flag only. -/
def plainKernel : Kernel where
  newlink := swpNewlink
  complete _ _ := show NLMSG_LENGTH 16 ≤ 44 by decide
  named := by
    intro n up ⟨h0, h56⟩
    refine ⟨{ payload := 6, data := swpName n ++ [0] }, rfl, ?_⟩
    interval_cases n <;> rfl
  flagged := by
    intro n up
    cases up <;> simp [swpNewlink, IFF_UP]

/-- ports.conf with the one line "1=10G". -/
def onePort : PortConfig where
  ports := [1]
  inRange := by decide

/-- Every port enabled. -/
def flapStart : FlapState :=
  FlapState.start (fun _ => true) (NetState.init (SdkState.init Asic.blank))

/-- The link of an enabled port comes up and goes down again: the port is disabled. -/
theorem keepsEnabled_fails :
    ¬ Throughout (FlapState.step plainKernel onePort) (KeepsEnabled fun _ => true) flapStart
      [.poll 0 (some true) true, .poll 0 (some false) true, .deliver] := by
  intro h
  have hq : (run (FlapState.step plainKernel onePort) flapStart
      [.poll 0 (some true) true, .poll 0 (some false) true]).queue =
        [plainKernel.newlink 1 false] := rfl
  have hcalls := (deliver_newlink plainKernel (by decide) hq).2
  refine h.final 1 rfl ?_
  change _ ∈ (deliver (run (FlapState.step plainKernel onePort) flapStart
    [.poll 0 (some true) true, .poll 0 (some false) true])).calls
  rw [hcalls]
  exact List.mem_append_right _ List.mem_cons_self

/-- A link that comes up and stays up. -/
theorem keepsEnabled_linkUp :
    Throughout (FlapState.step plainKernel onePort) (KeepsEnabled fun _ => true) flapStart
      [.poll 0 (some true) true, .deliver, .poll 0 none true] :=
  (keepsEnabled_iff plainKernel onePort _ _ _).1 ⟨trivial, trivial, trivial, trivial⟩

end OpenNos.Switchd
