import Mathlib.Tactic

/-! A list searched by key, as C code keeps a small map: a look-up answers with
the first entry of the key, a put overwrites it in place or appends, a removal
closes the gap. While the keys are distinct, this is a finite map. -/

namespace OpenNos.KeyedList

variable {ε κ : Type*} [DecidableEq κ] (key : ε → κ)

/-- The first entry of the key. -/
def get (l : List ε) (k : κ) : Option ε := l.find? fun e => decide (key e = k)

/-- The entry takes the place of the first one of its key. -/
def replace (l : List ε) (e : ε) : List ε := l.set (l.findIdx fun x => decide (key x = key e)) e

/-- The first entry of the key is taken out. -/
def remove (l : List ε) (k : κ) : List ε := l.eraseP fun e => decide (key e = k)

variable {key} {l : List ε} {e x : ε} {k k' : κ}

@[simp] theorem get_nil : get key [] k = none := rfl

theorem get_cons_self (h : key x = k) : get key (x :: l) k = some x :=
  List.find?_cons_of_pos (by simpa using h)

theorem get_cons_of_ne (h : key x ≠ k) : get key (x :: l) k = get key l k :=
  List.find?_cons_of_neg (by simpa using h)

theorem get_eq_none_iff : get key l k = none ↔ ∀ e ∈ l, key e ≠ k := by
  simp only [get, List.find?_eq_none, decide_eq_true_eq, ne_eq]

theorem replace_cons_self (h : key x = key e) : replace key (x :: l) e = e :: l := by
  rw [replace, List.findIdx_cons, decide_eq_true h]
  rfl

theorem replace_cons_of_ne (h : key x ≠ key e) :
    replace key (x :: l) e = x :: replace key l e := by
  rw [replace, List.findIdx_cons, decide_eq_false h]
  rfl

theorem remove_cons_self (h : key x = k) : remove key (x :: l) k = l :=
  List.eraseP_cons_of_pos (by simpa using h)

theorem remove_cons_of_ne (h : key x ≠ k) : remove key (x :: l) k = x :: remove key l k :=
  List.eraseP_cons_of_neg (by simpa using h)

theorem get_replace_self (hk : key e = k) (h : get key l k ≠ none) :
    get key (replace key l e) k = some e := by
  induction l with
  | nil => exact absurd rfl h
  | cons x l ih =>
    by_cases hx : key x = key e
    · rw [replace_cons_self hx, get_cons_self hk]
    · have hxk : key x ≠ k := by rwa [← hk]
      rw [get_cons_of_ne hxk] at h
      rw [replace_cons_of_ne hx, get_cons_of_ne hxk, ih h]

theorem get_replace_of_ne (h : key e ≠ k) : get key (replace key l e) k = get key l k := by
  induction l with
  | nil => rfl
  | cons x l ih =>
    by_cases hx : key x = key e
    · rw [replace_cons_self hx, get_cons_of_ne h, get_cons_of_ne (by rwa [hx])]
    · rw [replace_cons_of_ne hx]
      by_cases hk : key x = k
      · rw [get_cons_self hk, get_cons_self hk]
      · rw [get_cons_of_ne hk, get_cons_of_ne hk, ih]

theorem keys_replace : (replace key l e).map key = l.map key := by
  induction l with
  | nil => rfl
  | cons x l ih =>
    by_cases hx : key x = key e
    · rw [replace_cons_self hx, List.map_cons, List.map_cons, hx]
    · rw [replace_cons_of_ne hx, List.map_cons, List.map_cons, ih]

theorem get_append_self (hk : key e = k) (h : get key l k = none) :
    get key (l ++ [e]) k = some e := by
  have hf : l.find? (fun x => decide (key x = k)) = none := h
  rw [get, List.find?_append, hf, Option.none_or]
  exact get_cons_self hk

theorem get_append_of_ne (h : key e ≠ k) : get key (l ++ [e]) k = get key l k := by
  have hf : get key [e] k = none := by rw [get_cons_of_ne h, get_nil]
  rw [get] at hf ⊢
  rw [List.find?_append, hf, Option.or_none]
  rfl

theorem nodup_append (hd : (l.map key).Nodup) (h : get key l (key e) = none) :
    ((l ++ [e]).map key).Nodup := by
  rw [List.map_append, List.nodup_append]
  refine ⟨hd, List.nodup_singleton _, ?_⟩
  intro a ha b hb
  obtain ⟨x, hx, rfl⟩ := List.mem_map.mp ha
  rw [List.mem_singleton.mp hb]
  exact get_eq_none_iff.mp h x hx

theorem get_remove_of_ne (h : k' ≠ k) : get key (remove key l k) k' = get key l k' := by
  induction l with
  | nil => rfl
  | cons x l ih =>
    by_cases hx : key x = k
    · rw [remove_cons_self hx, get_cons_of_ne (by rwa [hx, ne_comm])]
    · rw [remove_cons_of_ne hx]
      by_cases hk : key x = k'
      · rw [get_cons_self hk, get_cons_self hk]
      · rw [get_cons_of_ne hk, get_cons_of_ne hk, ih]

/-- The keys being distinct, no second entry comes to light. -/
theorem get_remove_self (hd : (l.map key).Nodup) : get key (remove key l k) k = none := by
  induction l with
  | nil => rfl
  | cons x l ih =>
    rw [List.map_cons, List.nodup_cons] at hd
    by_cases hx : key x = k
    · rw [remove_cons_self hx, get_eq_none_iff]
      intro e he hk
      exact hd.1 (List.mem_map.mpr ⟨e, he, hk.trans hx.symm⟩)
    · rw [remove_cons_of_ne hx, get_cons_of_ne hx, ih hd.2]

theorem nodup_remove (hd : (l.map key).Nodup) : ((remove key l k).map key).Nodup :=
  hd.sublist (List.eraseP_sublist.map key)

end OpenNos.KeyedList
