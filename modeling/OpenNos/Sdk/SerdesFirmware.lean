import OpenNos.Sdk.SerdesAccess

/-! The firmware download against the micro-controller of a WARPcore. Each word that
arrives is stored at a pointer, which then advances; a write that fails on the bus
changes nothing, and the download looks at no result of its writes. -/

namespace OpenNos.Sdk

open RegProg

/-- The micro-controller: its program memory, where the next word goes, the size it was
told and the number of words it has taken. -/
structure Uc where
  ram : ℕ → BitVec 16
  pointer : ℕ
  ramword : BitVec 16
  transferred : ℕ

namespace Uc

variable (u : Uc)

def store (data : BitVec 16) : Uc :=
  { u with
    ram := Function.update u.ram u.pointer data
    pointer := u.pointer + 1
    transferred := u.transferred + 1 }

def seek (addr : ℕ) : Uc := { u with pointer := addr }

def told (size : BitVec 16) : Uc := { u with ramword := size }

def write (target : Target) (data : BitVec 16) : Uc :=
  match target with
  | .wc _ addr =>
    if addr = WC_UC_WRDATA then u.store data
    else if addr = WC_UC_ADDRESS then u.seek data.toNat
    else if addr = WC_UC_RAMWORD then u.told data
    else u
  | _ => u

/-- The byte at an address of the program memory, the low byte of a word first. -/
def byte (k : ℕ) : BitVec 8 := (u.ram (k / 2) >>> (8 * (k % 2))).setWidth 8

end Uc

/-- A micro-controller in each WARPcore. What a read delivers is fixed by the number of its
transaction. -/
def ucCore (value : ℕ → BitVec 16) : PhyCore (PhyAddr → Uc) where
  read ucs n _ _ := (value n, ucs)
  write ucs phy target data := Function.update ucs phy ((ucs phy).write target data)

/-- One micro-controller, and the number of transactions. -/
abbrev UcView := Uc × ℕ

def PhyView.uc (phy : PhyAddr) (v : PhyView (PhyAddr → Uc)) : UcView := (v.1 phy, v.2)

def MiimDev.uc (phy : PhyAddr) (s : MiimDev (PhyAddr → Uc)) : UcView := s.view.uc phy

/-! ### The download, access by access -/

section Views

variable (value : ℕ → BitVec 16) (delay : ℕ → ℕ)

/-- What a variable that holds `val` holds after a read from the `n`th transaction on. -/
def reply (val : BitVec 16) (n : ℕ) : BitVec 16 :=
  if AccessOk delay n then value (n + 3) else val

/-- A poll: the variable, and the first transaction after it. -/
def pollReply (done : BitVec 16 → Bool) : ℕ → BitVec 16 → ℕ → BitVec 16 × ℕ
  | 0, val, n => (val, n)
  | cnt + 1, val, n =>
    if done (reply value delay val n) then (reply value delay val n, afterAccess delay n)
    else pollReply done cnt (reply value delay val n) (afterAccess delay n)

def putUc (addr data : BitVec 16) (v : UcView) : UcView :=
  (if AccessOk delay v.2 then v.1.write (.wc 0 addr) data else v.1, afterAccess delay v.2)

def putWordsUc : List (BitVec 16) → UcView → UcView
  | [], v => v
  | data :: rest, v => putWordsUc rest (putUc delay WC_UC_WRDATA data v)

/-- From the end of the poll to the last word. -/
def transferUc (ucode : List (BitVec 8)) (v : UcView) : UcView :=
  let v := putUc delay WC_UC_RAMWORD (BitVec.ofNat 16 (fwSizeAligned ucode - 1))
    (v.1, accessStart delay v.2 2)
  let v := putUc delay WC_UC_ADDRESS 0x0000 v
  putWordsUc delay (fwWords ucode) (v.1, afterAccess delay v.2)

/-- A download whose poll has left `val` in the variable. -/
def polledUc (ucode : List (BitVec 8)) (val : BitVec 16) (v : UcView) : Rc Unit × UcView :=
  if val &&& 0x8000 = 0 then (.error .etimedout, v)
  else
    let (uc, m) := transferUc delay ucode v
    let val := reply value delay (reply value delay val v.2) (afterAccess delay m)
    if val &&& 0x0003 ≠ 0 then (.error .eio, (uc, accessStart delay m 2))
    else
      (.ok (), (uc, (pollReply value delay (fun val => val ≠ 0) 500 0 (accessStart delay m 4)).2))

def initDone (val : BitVec 16) : Bool := val &&& 0x8000 ≠ 0

/-- What the first poll of a download leaves. -/
def initPoll (n : ℕ) : BitVec 16 × ℕ :=
  pollReply value delay initDone 500 0 (accessStart delay n 4)

/-- The result of a download, the micro-controller and the first transaction after it. -/
def downloadUc (ucode : List (BitVec 8)) (v : UcView) : Rc Unit × UcView :=
  let poll := initPoll value delay v.2
  polledUc value delay ucode poll.1 (v.1, poll.2)

end Views

variable {value : ℕ → BitVec 16} {delay : ℕ → ℕ} {phy : PhyAddr}

/-- What a program returns and does to the micro-controller depends on it and on the
number of transactions alone. -/
abbrev OnUc (value : ℕ → BitVec 16) (delay : ℕ → ℕ) (phy : PhyAddr) {α : Type} (p : Serdes α)
    (f : UcView → α × UcView) : Prop :=
  ActsAs (miimDev (ucCore value) delay) (MiimDev.uc phy) p f

theorem onUc_mark (e : MiimEvent) : OnUc value delay phy (mark e) (fun v => ((), v)) :=
  fun _ => rfl

theorem onUc_wcPut {addr : BitVec 16} (haddr : isPlain addr) (data : BitVec 16) :
    OnUc value delay phy (wcPut phy 0 addr data) (fun v => ((), putUc delay addr data v)) := by
  refine (onCore_wcPut 0 haddr data).coarsen (PhyView.uc phy) fun v => ?_
  change ((), putUc delay addr data (v.1 phy, v.2)) = _
  simp only [putView, writeView, accessView, putUc]
  by_cases hok : AccessOk delay v.2
  · simp only [if_pos hok, PhyView.uc, ucCore, Function.update_self]
    rfl
  · simp only [if_neg hok]
    rfl

/-- A register that the memory does not depend on. -/
def Inert (addr : BitVec 16) : Prop :=
  isPlain addr ∧ addr ≠ WC_UC_WRDATA ∧ addr ≠ WC_UC_ADDRESS ∧ addr ≠ WC_UC_RAMWORD

instance (addr : BitVec 16) : Decidable (Inert addr) := inferInstanceAs (Decidable (_ ∧ _))

theorem onUc_wcPut_inert {addr : BitVec 16} (haddr : Inert addr) (data : BitVec 16) :
    OnUc value delay phy (wcPut phy 0 addr data)
      (fun v => ((), (v.1, afterAccess delay v.2))) := by
  obtain ⟨hplain, hdata, hstart, hsize⟩ := haddr
  have hput (v : UcView) : putUc delay addr data v = (v.1, afterAccess delay v.2) := by
    simp only [putUc, Uc.write, if_neg hdata, if_neg hstart, if_neg hsize, ite_self]
  have h : OnUc value delay phy (wcPut phy 0 addr data) _ := onUc_wcPut hplain data
  simp only [hput] at h
  exact h

theorem onUc_wcRead {addr : BitVec 16} (haddr : isPlain addr) :
    OnUc value delay phy (wcRead phy 0 addr) (fun v =>
      (if AccessOk delay v.2 then .ok (value (v.2 + 3)) else .error .eio,
        (v.1, afterAccess delay v.2))) := by
  refine (onCore_wcRead 0 haddr).coarsen (PhyView.uc phy) fun v => ?_
  change ((if AccessOk delay v.2 then .ok (value (v.2 + 3)) else .error .eio : Rc (BitVec 16)),
    (v.1 phy, afterAccess delay v.2)) = _
  simp only [readView, accessView]
  split_ifs
  · rfl
  · rfl

theorem onUc_wcReadInto (val : BitVec 16) {addr : BitVec 16} (haddr : isPlain addr) :
    OnUc value delay phy (wcReadInto val phy 0 addr)
      (fun v => (reply value delay val v.2, (v.1, afterAccess delay v.2))) := by
  have hread : OnUc value delay phy (wcReadInto val phy 0 addr) _ :=
    (onUc_wcRead haddr).bind fun rc => actsAs_pure (rc.toOption.getD val)
  intro s
  refine Eq.trans ?_ (hread s)
  simp only [reply]
  split_ifs
  · rfl
  · rfl

theorem onUc_wcPoll {addr : BitVec 16} (haddr : isPlain addr) (done : BitVec 16 → Bool)
    (cnt : ℕ) (val : BitVec 16) : OnUc value delay phy (wcPoll phy addr done cnt val) (fun v =>
      ((pollReply value delay done cnt val v.2).1,
        (v.1, (pollReply value delay done cnt val v.2).2))) := by
  induction cnt generalizing val with
  | zero => exact actsAs_pure val
  | succ cnt ih =>
    have hread : OnUc value delay phy (wcReadInto val phy 0 addr) _ := onUc_wcReadInto val haddr
    have hrun := hread.bind
      (q := fun val => if done val then return val
        else mark (.usleep 1000) >>= fun _ => wcPoll phy addr done cnt val)
      (g := fun val v => if done val then (val, v)
        else ((pollReply value delay done cnt val v.2).1,
          (v.1, (pollReply value delay done cnt val v.2).2))) fun val => by
        split_ifs
        · exact actsAs_pure val
        · exact (onUc_mark _).bind fun _ => ih val
    intro s
    refine Eq.trans ?_ (hrun s)
    simp only [pollReply]
    split_ifs
    · rfl
    · rfl

theorem onUc_wcPutWords (words : List (BitVec 16)) :
    OnUc value delay phy (wcPutWords phy words) (fun v => ((), putWordsUc delay words v)) := by
  induction words with
  | nil => exact actsAs_pure ()
  | cons data rest ih => exact (onUc_wcPut (by decide) data).bind fun _ => ih

/-- The end of the download, from its check of the status. -/
theorem onUc_finish (val : BitVec 16) : OnUc value delay phy
    (if val &&& 0x0003 ≠ 0 then (return .error .eio : Serdes (Rc Unit)) else do
      wcPutAll phy 0 [(WC_FW_CRC, 0x0001), (WC_UC_COMMAND, 0x0010)]
      let _ ← wcPoll phy WC_FW_VERSION (fun val => val ≠ 0) 500 0
      return .ok ())
    (fun v => if val &&& 0x0003 ≠ 0 then (.error .eio, v) else (.ok (), (v.1,
      (pollReply value delay (fun val => val ≠ 0) 500 0 (accessStart delay v.2 2)).2))) := by
  split_ifs
  · exact actsAs_pure _
  · have hputs : OnUc value delay phy
        (wcPutAll phy 0 [(WC_FW_CRC, 0x0001), (WC_UC_COMMAND, 0x0010)]) _ :=
      (onUc_wcPut_inert (by decide) _).bind fun _ =>
      (onUc_wcPut_inert (by decide) _).bind fun _ =>
      actsAs_pure ()
    exact hputs.bind fun _ => (onUc_wcPoll (by decide) _ 500 0).bind fun _ => actsAs_pure _

/-- The download from the end of its poll. -/
theorem onUc_polled (ucode : List (BitVec 8)) (val : BitVec 16) : OnUc value delay phy
    (if val &&& 0x8000 = 0 then (return .error .etimedout : Serdes (Rc Unit)) else do
      let val ← wcReadInto val phy 0 WC_UC_COMMAND2
      wcPut phy 0 WC_UC_COMMAND2 (val ||| 0x0020)
      wcPut phy 0 WC_UC_RAMWORD (BitVec.ofNat 16 (fwSizeAligned ucode - 1))
      wcPutAll phy 0 [(WC_UC_ADDRESS, 0x0000), (WC_UC_COMMAND, 0x0009)]
      wcPutWords phy (fwWords ucode)
      wcPut phy 0 WC_UC_COMMAND 0x0002
      let val ← wcReadInto val phy 0 WC_UC_DL_STATUS
      if val &&& 0x0003 ≠ 0 then return .error .eio
      else
        wcPutAll phy 0 [(WC_FW_CRC, 0x0001), (WC_UC_COMMAND, 0x0010)]
        let _ ← wcPoll phy WC_FW_VERSION (fun val => val ≠ 0) 500 0
        return .ok ())
    (polledUc value delay ucode val) := by
  unfold polledUc
  split_ifs
  · exact actsAs_pure _
  · have haddress : OnUc value delay phy
        (wcPutAll phy 0 [(WC_UC_ADDRESS, 0x0000), (WC_UC_COMMAND, 0x0009)]) _ :=
      (onUc_wcPut (by decide) _).bind fun _ =>
      (onUc_wcPut_inert (by decide) _).bind fun _ =>
      actsAs_pure ()
    exact (onUc_wcReadInto _ (by decide)).bind fun val =>
      (onUc_wcPut_inert (by decide) _).bind fun _ =>
      (onUc_wcPut (by decide) _).bind fun _ => haddress.bind fun _ =>
      (onUc_wcPutWords (fwWords ucode)).bind fun _ =>
      (onUc_wcPut_inert (by decide) _).bind fun _ =>
      (onUc_wcReadInto _ (by decide)).bind fun val => onUc_finish val

theorem onUc_wcFirmwareDownload (ucode : List (BitVec 8)) :
    OnUc value delay phy (wcFirmwareDownload phy ucode) (downloadUc value delay ucode) := by
  have hreset : OnUc value delay phy
      (wcPutAll phy 0 [(WC_UC_DL_STATUS, 0x0000), (WC_UC_COMMAND, 0x8000)]) _ :=
    (onUc_wcPut_inert (by decide) _).bind fun _ =>
    (onUc_wcPut_inert (by decide) _).bind fun _ =>
    actsAs_pure ()
  have hrun : OnUc value delay phy (wcFirmwareDownload phy ucode) _ :=
    (onUc_wcPut_inert (by decide) _).bind fun _ =>
    (onUc_mark _).bind fun _ =>
    (onUc_wcPut_inert (by decide) _).bind fun _ =>
    (onUc_mark _).bind fun _ => hreset.bind fun _ =>
    (onUc_wcPoll (by decide) _ 500 0).bind fun val => onUc_polled ucode val
  exact hrun

/-! ### The transfer -/

section Words

variable {words : List (BitVec 16)} {v : UcView}

/-- A word that arrives is stored. -/
theorem putUc_word_ok (h : AccessOk delay v.2) (data : BitVec 16) :
    putUc delay WC_UC_WRDATA data v = (v.1.store data, afterAccess delay v.2) := by
  rw [putUc, if_pos h]
  rfl

theorem putUc_failed (h : ¬ AccessOk delay v.2) (addr data : BitVec 16) :
    putUc delay addr data v = (v.1, afterAccess delay v.2) := by
  rw [putUc, if_neg h]

theorem putWordsUc_ramword : (putWordsUc delay words v).1.ramword = v.1.ramword := by
  induction words generalizing v with
  | nil => rfl
  | cons data rest ih =>
    rw [putWordsUc, ih]
    by_cases h : AccessOk delay v.2
    · rw [putUc_word_ok h]
      rfl
    · rw [putUc_failed h]

/-- The pointer never goes back, so what is below it stays. -/
theorem putWordsUc_below {j : ℕ} (hj : j < v.1.pointer) :
    (putWordsUc delay words v).1.ram j = v.1.ram j := by
  induction words generalizing v with
  | nil => rfl
  | cons data rest ih =>
    rw [putWordsUc]
    by_cases h : AccessOk delay v.2
    · rw [putUc_word_ok h, ih (Nat.lt_succ_of_lt hj)]
      exact Function.update_of_ne (Nat.ne_of_lt hj) _ _
    · rw [putUc_failed h]
      exact ih hj

theorem putWordsUc_transferred_le (words : List (BitVec 16)) (v : UcView) :
    (putWordsUc delay words v).1.transferred ≤ v.1.transferred + words.length := by
  induction words generalizing v with
  | nil => exact Nat.le_refl _
  | cons data rest ih =>
    rw [putWordsUc, List.length_cons]
    by_cases h : AccessOk delay v.2
    · rw [putUc_word_ok h]
      refine (ih _).trans_eq ?_
      simp only [Uc.store]
      omega
    · rw [putUc_failed h]
      exact (ih _).trans (Nat.add_le_add_left (Nat.le_succ _) _)

/-- All the words are taken only if none of them fails. -/
theorem accessOk_of_transferred (words : List (BitVec 16)) (v : UcView)
    (h : (putWordsUc delay words v).1.transferred = v.1.transferred + words.length) :
    ∀ i < words.length, AccessOk delay (accessStart delay v.2 i) := by
  induction words generalizing v with
  | nil => exact fun i hi => absurd hi (Nat.not_lt_zero i)
  | cons data rest ih =>
    rw [putWordsUc, List.length_cons] at h
    have hok : AccessOk delay v.2 := by
      by_contra hfail
      rw [putUc_failed hfail] at h
      have hle := (h.symm.trans_le (putWordsUc_transferred_le rest _))
      simp only at hle
      omega
    rw [putUc_word_ok hok] at h
    have hrest := ih (v.1.store data, afterAccess delay v.2) (by
      rw [h]
      simp only [Uc.store]
      omega)
    intro i hi
    cases i with
    | zero => exact hok
    | succ i => exact hrest i (Nat.lt_of_succ_lt_succ hi)

/-- Words that all arrive stand one after the other from the pointer on. -/
theorem putWordsUc_stored (words : List (BitVec 16)) (v : UcView)
    (h : ∀ i < words.length, AccessOk delay (accessStart delay v.2 i)) :
    (putWordsUc delay words v).1.transferred = v.1.transferred + words.length ∧
      ∀ i (hi : i < words.length),
        (putWordsUc delay words v).1.ram (v.1.pointer + i) = words[i] := by
  induction words generalizing v with
  | nil => exact ⟨rfl, fun i hi => absurd hi (Nat.not_lt_zero i)⟩
  | cons data rest ih =>
    rw [putWordsUc, putUc_word_ok (h 0 (Nat.succ_pos _))]
    obtain ⟨hcount, hram⟩ := ih (v.1.store data, afterAccess delay v.2)
      fun i hi => h (i + 1) (Nat.succ_lt_succ hi)
    refine ⟨?_, fun i hi => ?_⟩
    · rw [hcount, List.length_cons]
      simp only [Uc.store]
      omega
    · cases i with
      | zero =>
        rw [putWordsUc_below (Nat.lt_succ_self _)]
        exact Function.update_self _ _ _
      | succ i =>
        have hstored := hram i (Nat.lt_of_succ_lt_succ hi)
        rw [List.getElem_cons_succ, ← hstored]
        congr 1
        simp only [Uc.store]
        omega

end Words

/-! ### The image -/

section Image

variable {ucode : List (BitVec 8)}

theorem fwWords_length : (fwWords ucode).length = fwSizeAligned ucode / 2 := by
  simp [fwWords]

theorem fwSizeAligned_even (ucode : List (BitVec 8)) :
    2 * (fwSizeAligned ucode / 2) = fwSizeAligned ucode := by
  unfold fwSizeAligned
  omega

/-- The words, low byte first, are the image and zeros after it. -/
theorem byte_of_words {u : Uc}
    (hram : ∀ i (hi : i < (fwWords ucode).length), u.ram i = (fwWords ucode)[i]) {k : ℕ}
    (hk : k < fwSizeAligned ucode) : u.byte k = ucode.getD k 0 := by
  have hlow (a b : BitVec 8) :
      ((a.setWidth 16 ||| b.setWidth 16 <<< 8) >>> (8 * 0)).setWidth 8 = a := by
    ext i hi
    simp
  have hhigh (a b : BitVec 8) :
      ((a.setWidth 16 ||| b.setWidth 16 <<< 8) >>> (8 * 1)).setWidth 8 = b := by
    ext i hi
    simp [show 8 + i < 16 by omega, show i < 16 by omega, BitVec.getLsbD_eq_getElem hi]
  have hi : k / 2 < (fwWords ucode).length := by
    rw [fwWords_length]
    have := fwSizeAligned_even ucode
    omega
  have hword : u.ram (k / 2) = (ucode.getD (2 * (k / 2)) 0).setWidth 16 |||
      (ucode.getD (2 * (k / 2) + 1) 0).setWidth 16 <<< 8 := by
    rw [hram _ hi]
    simp only [fwWords, List.getElem_map, List.getElem_range]
  rw [Uc.byte, hword]
  rcases Nat.mod_two_eq_zero_or_one k with hodd | hodd
  · rw [hodd, hlow, show 2 * (k / 2) = k by omega]
  · rw [hodd, hhigh, show 2 * (k / 2) + 1 = k by omega]

/-- The size told fits the register. -/
theorem fwSize_register (hlen : 1 ≤ ucode.length) (hmax : ucode.length ≤ 65536) :
    (BitVec.ofNat 16 (fwSizeAligned ucode - 1)).toNat + 1 = fwSizeAligned ucode := by
  rw [BitVec.toNat_ofNat]
  unfold fwSizeAligned
  omega

end Image

/-! ### The polls -/

section Polls

variable {done : BitVec 16 → Bool} {cnt : ℕ} {val : BitVec 16} {n : ℕ}

/-- The `p`th read of a poll is the first whose answer ends it. -/
structure FirstAnswer (value : ℕ → BitVec 16) (delay : ℕ → ℕ) (done : BitVec 16 → Bool)
    (n p : ℕ) : Prop where
  answered : AccessOk delay (accessStart delay n p)
  ends : done (value (accessStart delay n p + 3)) = true
  first : ∀ q < p, AccessOk delay (accessStart delay n q) →
    done (value (accessStart delay n q + 3)) = false

/-- A poll that succeeds has read its value. -/
theorem pollReply_done (hval : done val = false)
    (h : done (pollReply value delay done cnt val n).1 = true) :
    ∃ p < cnt, FirstAnswer value delay done n p ∧ pollReply value delay done cnt val n =
      (value (accessStart delay n p + 3), accessStart delay n (p + 1)) := by
  induction cnt generalizing val n with
  | zero =>
    rw [pollReply, hval] at h
    exact absurd h Bool.false_ne_true
  | succ cnt ih =>
    rw [pollReply] at h ⊢
    split_ifs at h ⊢ with hdone
    · have hok : AccessOk delay n := by
        by_contra hfail
        rw [reply, if_neg hfail, hval] at hdone
        exact Bool.false_ne_true hdone
      rw [reply, if_pos hok] at hdone ⊢
      exact ⟨0, Nat.succ_pos _, ⟨hok, hdone, fun q hq => absurd hq (Nat.not_lt_zero q)⟩, rfl⟩
    · obtain ⟨p, hp, hfirst, he⟩ := ih (Bool.not_eq_true _ ▸ hdone) h
      refine ⟨p + 1, Nat.succ_lt_succ hp, ⟨hfirst.answered, hfirst.ends, fun q hq hok => ?_⟩, he⟩
      cases q with
      | zero =>
        rw [reply, if_pos (show AccessOk delay n from hok)] at hdone
        exact Bool.not_eq_true _ ▸ hdone
      | succ q => exact hfirst.first q (Nat.lt_of_succ_lt_succ hq) hok

/-- A poll succeeds with the first read that delivers what it waits for. -/
theorem pollReply_of_first {p : ℕ} (hval : done val = false) (hp : p < cnt)
    (h : FirstAnswer value delay done n p) : pollReply value delay done cnt val n =
      (value (accessStart delay n p + 3), accessStart delay n (p + 1)) := by
  induction cnt generalizing val n p with
  | zero => exact absurd hp (Nat.not_lt_zero p)
  | succ cnt ih =>
    cases p with
    | zero =>
      have hreply : reply value delay val n = value (n + 3) := if_pos h.answered
      rw [pollReply, hreply]
      exact if_pos h.ends
    | succ p =>
      have hreply : done (reply value delay val n) = false := by
        unfold reply
        split_ifs with hok
        · exact h.first 0 (Nat.succ_pos p) hok
        · exact hval
      rw [pollReply, if_neg (Bool.not_eq_true _ ▸ hreply)]
      exact ih hreply (Nat.lt_of_succ_lt_succ hp)
        ⟨h.answered, h.ends, fun q hq => h.first (q + 1) (Nat.succ_lt_succ hq)⟩

/-- What a poll ends with that starts from a value it does not take. -/
theorem pollReply_eq_iff {x : BitVec 16} (hval : done val = false) (hx : done x = true) :
    (pollReply value delay done cnt val n).1 = x ↔
      ∃ p < cnt, FirstAnswer value delay done n p ∧ value (accessStart delay n p + 3) = x := by
  constructor
  · rintro rfl
    obtain ⟨p, hp, hfirst, he⟩ := pollReply_done hval hx
    exact ⟨p, hp, hfirst, by rw [he]⟩
  · rintro ⟨p, hp, hfirst, rfl⟩
    rw [pollReply_of_first hval hp hfirst]

theorem lt_afterAccess (n : ℕ) : n < afterAccess delay n := by
  unfold afterAccess
  split_ifs <;> omega

theorem accessStart_strictMono (n : ℕ) : StrictMono (accessStart delay n) :=
  strictMono_nat_of_lt_succ fun k => by
    rw [accessStart_add]
    exact lt_afterAccess _

end Polls

/-! ### Integrity -/

/-- The program memory holds the image, padded with zeros, and as many bytes were
transferred as the controller was told. -/
structure Loaded (ucode : List (BitVec 8)) (u u' : Uc) : Prop where
  image : ∀ k < fwSizeAligned ucode, u'.byte k = ucode.getD k 0
  size : 2 * u'.transferred = 2 * u.transferred + (u'.ramword.toNat + 1)

/-- With this pattern of failures, whatever the reads deliver and whatever the controller
holds, a download that returns 0 has loaded the image. -/
def DownloadSound (delay : ℕ → ℕ) (n : ℕ) (phy : PhyAddr) (ucode : List (BitVec 8)) : Prop :=
  ∀ value (s : MiimDev (PhyAddr → Uc)), s.bus.count = n →
    let r := runAlone (miimDev (ucCore value) delay) (wcFirmwareDownload phy ucode) s
    r.1 = .ok () → Loaded ucode (s.bus.core phy) (r.2.bus.core phy)

/-- The writes of size, address and every word arrive; the poll ends at the `n`th
transaction. -/
def TransferArrives (delay : ℕ → ℕ) (n words : ℕ) : Prop :=
  AccessOk delay (accessStart delay n 2) ∧ AccessOk delay (accessStart delay n 3) ∧
    ∀ i < words, AccessOk delay (accessStart delay n (5 + i))

theorem downloadSound_iff_view {n : ℕ} {ucode : List (BitVec 8)} :
    DownloadSound delay n phy ucode ↔ ∀ value u, (downloadUc value delay ucode (u, n)).1 = .ok () →
      Loaded ucode u (downloadUc value delay ucode (u, n)).2.1 := by
  constructor
  · intro h value u
    have hload : OnUc value delay phy _ _ := onUc_wcFirmwareDownload ucode
    have hrun := hload (idleDev (fun _ => u) n)
    have hloaded := h value (idleDev (fun _ => u) n) rfl
    change downloadUc value delay ucode (u, n) = _ at hrun
    rw [hrun]
    exact hloaded
  · rintro h value s rfl
    have hload : OnUc value delay phy _ _ := onUc_wcFirmwareDownload ucode
    have hrun := hload s
    have hloaded := h value (s.bus.core phy)
    change downloadUc value delay ucode (s.bus.core phy, s.bus.count) = _ at hrun
    rw [hrun] at hloaded
    exact hloaded

section Transfer

variable {u : Uc} {n : ℕ} {ucode : List (BitVec 8)}

/-- The size arrives or is lost. -/
theorem transferUc_eq : transferUc delay ucode (u, n) =
    putWordsUc delay (fwWords ucode) ((putUc delay WC_UC_ADDRESS 0
      (if AccessOk delay (accessStart delay n 2) then
          u.told (BitVec.ofNat 16 (fwSizeAligned ucode - 1))
        else u, accessStart delay n 3)).1, accessStart delay n 5) := rfl

theorem putUc_address (h : AccessOk delay n) :
    (putUc delay WC_UC_ADDRESS 0 (u, n)).1 = u.seek 0 := by
  rw [putUc, if_pos h]
  rfl

theorem putUc_address_ramword : (putUc delay WC_UC_ADDRESS 0 (u, n)).1.ramword = u.ramword := by
  by_cases h : AccessOk delay n
  · rw [putUc_address h]
    rfl
  · rw [putUc_failed h]

theorem loaded_of_arrives (hlen : 1 ≤ ucode.length) (hmax : ucode.length ≤ 65536)
    (h : TransferArrives delay n (fwSizeAligned ucode / 2)) :
    Loaded ucode u (transferUc delay ucode (u, n)).1 := by
  obtain ⟨hsize, haddress, hwords⟩ := h
  have hok : ∀ i < (fwWords ucode).length,
      AccessOk delay (accessStart delay (accessStart delay n 5) i) := by
    intro i hi
    rw [← accessStart_add]
    exact hwords i (fwWords_length ▸ hi)
  rw [transferUc_eq, if_pos hsize, putUc_address haddress]
  obtain ⟨hcount, hram⟩ := putWordsUc_stored (fwWords ucode)
    ((u.told (BitVec.ofNat 16 (fwSizeAligned ucode - 1))).seek 0, accessStart delay n 5) hok
  constructor
  · intro k hk
    refine byte_of_words (fun i hi => ?_) hk
    rw [← hram i hi]
    exact congrArg _ (Nat.zero_add i).symm
  · have htold := fwSize_register hlen hmax
    have := fwSizeAligned_even ucode
    rw [hcount, putWordsUc_ramword, fwWords_length]
    simp only [Uc.seek, Uc.told]
    omega

/-- A controller on which every lost write shows. -/
def wornUc (ucode : List (BitVec 8)) : Uc where
  ram := fun _ => ~~~(ucode.getD 0 0).setWidth 16
  pointer := 1
  ramword := 0
  transferred := 0

theorem arrives_of_loaded (hlen : 1 ≤ ucode.length) (hmax : ucode.length ≤ 65536)
    (h : Loaded ucode (wornUc ucode) (transferUc delay ucode (wornUc ucode, n)).1) :
    TransferArrives delay n (fwSizeAligned ucode / 2) := by
  obtain ⟨himage, htotal⟩ := h
  rw [transferUc_eq] at himage htotal
  rw [putWordsUc_ramword] at htotal
  have hsize : AccessOk delay (accessStart delay n 2) := by
    by_contra hlost
    -- no whole number of words has the size that is left in the register
    rw [if_neg hlost, putUc_address_ramword] at htotal
    simp only [wornUc, BitVec.ofNat_eq_ofNat, BitVec.toNat_ofNat] at htotal
    omega
  rw [if_pos hsize] at himage htotal
  have haddress : AccessOk delay (accessStart delay n 3) := by
    by_contra hlost
    -- the first word stands beyond the first address
    have hfirst := himage 0 (by unfold fwSizeAligned; omega)
    rw [putUc_failed hlost, Uc.byte, putWordsUc_below Nat.one_pos] at hfirst
    have hbit := congrArg (fun b => b.getLsbD 0) hfirst
    simp [wornUc, Uc.told] at hbit
  rw [putUc_address haddress] at himage htotal
  refine ⟨hsize, haddress, fun i hi => ?_⟩
  rw [accessStart_add]
  refine accessOk_of_transferred (fwWords ucode)
    (((wornUc ucode).told (BitVec.ofNat 16 (fwSizeAligned ucode - 1))).seek 0,
      accessStart delay n 5) ?_ i (fwWords_length ▸ hi)
  have htold := fwSize_register hlen hmax
  have := fwSizeAligned_even ucode
  simp only [Uc.seek, Uc.told] at htotal
  rw [fwWords_length]
  simp only [Uc.seek, Uc.told]
  omega

end Transfer

/-- In every run that takes the `p`th answer of the first poll for its end, the writes that
follow arrive. -/
def EachTransferArrives (delay : ℕ → ℕ) (n words : ℕ) : Prop :=
  ∀ p < 500, AccessOk delay (accessStart delay n (4 + p)) →
    TransferArrives delay (accessStart delay n (5 + p)) words

section Runs

variable {n : ℕ} {ucode : List (BitVec 8)}

theorem accessStart_polled (p : ℕ) :
    accessStart delay n (5 + p) = accessStart delay (accessStart delay n 4) (p + 1) := by
  rw [← accessStart_add, show 4 + (p + 1) = 5 + p by omega]

/-- A download whose first poll has an answer. -/
theorem downloadUc_of_first (ucode : List (BitVec 8)) (u : Uc) {p : ℕ} (hp : p < 500)
    (h : FirstAnswer value delay initDone (accessStart delay n 4) p) :
    downloadUc value delay ucode (u, n) =
      polledUc value delay ucode (value (accessStart delay (accessStart delay n 4) p + 3))
        (u, accessStart delay n (5 + p)) := by
  simp only [downloadUc, initPoll]
  rw [pollReply_of_first (by decide) hp h, accessStart_polled]

/-- Without one it times out. -/
theorem downloadUc_cases (ucode : List (BitVec 8)) (u : Uc) :
    (∃ p < 500, FirstAnswer value delay initDone (accessStart delay n 4) p) ∨
      (initPoll value delay n).1 &&& 0x8000 = 0 ∧
      downloadUc value delay ucode (u, n) =
        (.error .etimedout, (u, (initPoll value delay n).2)) := by
  by_cases hready : (initPoll value delay n).1 &&& 0x8000 = 0
  · exact .inr ⟨hready, if_pos hready⟩
  · have hdone : initDone (initPoll value delay n).1 = true := decide_eq_true hready
    obtain ⟨p, hp, hfirst, -⟩ := pollReply_done (by decide : initDone 0 = false) hdone
    exact .inl ⟨p, hp, hfirst⟩

theorem FirstAnswer.ready {m p : ℕ} (h : FirstAnswer value delay initDone m p) :
    ¬ value (accessStart delay m p + 3) &&& 0x8000 = 0 := of_decide_eq_true h.ends

theorem polledUc_loads {val : BitVec 16} {v : UcView} (hready : ¬ val &&& 0x8000 = 0) :
    (polledUc value delay ucode val v).2.1 = (transferUc delay ucode v).1 := by
  simp only [polledUc, if_neg hready]
  split_ifs <;> rfl

theorem putWordsUc_count (words : List (BitVec 16)) (v : UcView) :
    (putWordsUc delay words v).2 = accessStart delay v.2 words.length := by
  induction words generalizing v with
  | nil => rfl
  | cons data rest ih => exact ih _

theorem transferUc_count (v : UcView) : (transferUc delay ucode v).2 =
    accessStart delay v.2 (5 + fwSizeAligned ucode / 2) := by
  rw [accessStart_add, ← fwWords_length, transferUc, putWordsUc_count]
  rfl

/-- What the variable holds when the download looks at the error bits. -/
def statusReply (value : ℕ → BitVec 16) (delay : ℕ → ℕ) (words : ℕ) (val : BitVec 16)
    (n : ℕ) : BitVec 16 :=
  reply value delay (reply value delay val n) (accessStart delay n (6 + words))

theorem statusReply_eq (val : BitVec 16) (v : UcView) :
    reply value delay (reply value delay val v.2) (afterAccess delay (transferUc delay ucode v).2) =
      statusReply value delay (fwSizeAligned ucode / 2) val v.2 := by
  rw [transferUc_count, statusReply, show 6 + fwSizeAligned ucode / 2 =
    5 + fwSizeAligned ucode / 2 + 1 by omega, accessStart_succ]

theorem polledUc_ok_iff {val : BitVec 16} {v : UcView} (hready : ¬ val &&& 0x8000 = 0) :
    (polledUc value delay ucode val v).1 = .ok () ↔
      statusReply value delay (fwSizeAligned ucode / 2) val v.2 &&& 0x0003 = 0 := by
  simp only [polledUc, if_neg hready, statusReply_eq]
  split_ifs with hstatus
  · exact iff_of_false (fun h => by cases h) hstatus
  · exact iff_of_true rfl (not_not.mp hstatus)

/-- The answers of a run that ends its poll at the transaction `k`. -/
def readyAt (k : ℕ) : ℕ → BitVec 16 := fun n => if n = k then 0x8000 else 0

theorem reply_status (k n : ℕ) {val : BitVec 16} (hval : val &&& 0x0003 = 0) :
    reply (readyAt k) delay val n &&& 0x0003 = 0 := by
  unfold reply readyAt
  split_ifs
  · decide
  · decide
  · exact hval

/-- Every answered poll is the end of some run that returns 0. -/
theorem downloadUc_readyAt (ucode : List (BitVec 8)) (u : Uc) {p : ℕ} (hp : p < 500)
    (hok : AccessOk delay (accessStart delay n (4 + p))) :
    (downloadUc (readyAt (accessStart delay n (4 + p) + 3)) delay ucode (u, n)).1 = .ok () ∧
      (downloadUc (readyAt (accessStart delay n (4 + p) + 3)) delay ucode (u, n)).2.1 =
        (transferUc delay ucode (u, accessStart delay n (5 + p))).1 := by
  rw [accessStart_add] at hok ⊢
  set k := accessStart delay (accessStart delay n 4) p + 3 with hk
  have hready : readyAt k k = 0x8000 := if_pos rfl
  have hfirst : FirstAnswer (readyAt k) delay initDone (accessStart delay n 4) p := by
    refine ⟨hok, by rw [← hk, hready]; decide, fun q hq _ => ?_⟩
    have hlt : accessStart delay (accessStart delay n 4) q < _ := accessStart_strictMono _ hq
    rw [readyAt, if_neg (by omega)]
    rfl
  rw [downloadUc_of_first ucode u hp hfirst, ← hk, hready]
  exact ⟨(polledUc_ok_iff (by decide)).mpr (reply_status k _ (reply_status k _ (by decide))),
    polledUc_loads (by decide)⟩

theorem arrives_of_downloadSound (hlen : 1 ≤ ucode.length) (hmax : ucode.length ≤ 65536)
    (h : DownloadSound delay n phy ucode) :
    EachTransferArrives delay n (fwSizeAligned ucode / 2) := by
  intro p hp hok
  obtain ⟨hresult, hcore⟩ := downloadUc_readyAt ucode (wornUc ucode) hp hok
  have hloaded := downloadSound_iff_view.mp h _ _ hresult
  rw [hcore] at hloaded
  exact arrives_of_loaded hlen hmax hloaded

/-- A download that returns 0 has loaded the image exactly with the patterns of failures that
spare, after every poll that is answered, the size, the address and each word. -/
theorem downloadSound_iff (phy : PhyAddr) (hlen : 1 ≤ ucode.length)
    (hmax : ucode.length ≤ 65536) :
    DownloadSound delay n phy ucode ↔
      EachTransferArrives delay n (fwSizeAligned ucode / 2) := by
  refine ⟨arrives_of_downloadSound hlen hmax, fun h => downloadSound_iff_view.mpr ?_⟩
  intro value u hresult
  rcases downloadUc_cases ucode u with ⟨p, hp, hfirst⟩ | ⟨-, htimeout⟩
  · rw [downloadUc_of_first ucode u hp hfirst, polledUc_loads hfirst.ready]
    have hok := hfirst.answered
    rw [← accessStart_add] at hok
    exact loaded_of_arrives hlen hmax (h p hp hok)
  · rw [htimeout] at hresult
    cases hresult

end Runs

theorem downloadSound_iff_faultless : DownloadSound (fun _ => 0) 0 ⟨1, 31⟩ [0x02] := by
  have hok (n : ℕ) : AccessOk (fun _ => 0) n :=
    ⟨Nat.not_succ_le_zero _, Nat.not_succ_le_zero _, Nat.not_succ_le_zero _, Nat.not_succ_le_zero _⟩
  exact (downloadSound_iff ⟨1, 31⟩ (by decide) (by decide)).mpr fun _ _ _ =>
    ⟨hok _, hok _, fun _ _ => hok _⟩

/-- Only the transaction that carries the first word fails. -/
def firstWordLost (n : ℕ) : ℕ := if n = 43 then MIIM_POLL_MAX else 0

theorem not_downloadSound_firstWordLost : ¬ DownloadSound firstWordLost 0 ⟨1, 31⟩ [0x02] := by
  intro h
  have harrives := arrives_of_downloadSound (by decide) (by decide) h 0 (by decide) (by decide)
  exact absurd (harrives.2.2 0 (by decide)) (by decide)

end OpenNos.Sdk
