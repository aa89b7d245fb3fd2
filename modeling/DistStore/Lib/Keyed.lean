import Mathlib.Tactic
import Mathlib.Data.List.Basic

/-! Lists of records that are searched by a key from the front and written at the
position the search found. -/

namespace Keyed

variable {α κ : Type*} [DecidableEq κ]

def get (key : α → κ) (l : List α) (k : κ) : Option α := l.find? fun a => key a = k

def slot (key : α → κ) (l : List α) (k : κ) : Option ℕ := l.findIdx? fun a => key a = k

variable {key : α → κ}

theorem slot_bind_getElem? (key : α → κ) (l : List α) (k : κ) :
    ((slot key l k).bind fun i => l[i]?) = get key l k := by
  induction l with
  | nil => rfl
  | cons a l ih =>
    simp only [slot, get, List.findIdx?_cons, List.find?_cons] at ih ⊢
    by_cases ha : key a = k
    · simp [ha]
    · simp only [ha, decide_false, Bool.false_eq_true, if_false]
      rw [← ih]
      cases l.findIdx? fun a => decide (key a = k) <;> simp

theorem slot_eq_none_iff {l : List α} {k : κ} : slot key l k = none ↔ get key l k = none := by
  simp [slot, get, List.findIdx?_eq_none_iff]

theorem exists_slot {l : List α} {k : κ} {a : α} (h : get key l k = some a) :
    ∃ i, slot key l k = some i ∧ l[i]? = some a := by
  rw [← slot_bind_getElem?] at h
  exact Option.bind_eq_some_iff.mp h

theorem key_of_get {l : List α} {k : κ} {a : α} (h : get key l k = some a) : key a = k := by
  simpa using List.find?_some h

theorem mem_of_get {l : List α} {k : κ} {a : α} (h : get key l k = some a) : a ∈ l :=
  List.mem_of_find?_eq_some h

/-- Where the keys differ, every record is found by its own. -/
theorem get_of_mem {l : List α} (hl : (l.map key).Nodup) {a : α} (ha : a ∈ l) :
    get key l (key a) = some a := by
  induction l with
  | nil => exact absurd ha List.not_mem_nil
  | cons b l ih =>
    rw [List.map_cons, List.nodup_cons] at hl
    rw [get, List.find?_cons]
    by_cases hb : key b = key a
    · rcases List.mem_cons.mp ha with rfl | ha
      · simp
      · exact absurd (hb ▸ List.mem_map_of_mem ha) hl.1
    · rcases List.mem_cons.mp ha with rfl | ha
      · exact absurd rfl hb
      · rw [decide_eq_false hb]
        exact ih hl.2 ha

theorem get_append_single (l : List α) (a : α) (k : κ) :
    get key (l ++ [a]) k = (get key l k).or (if key a = k then some a else none) := by
  rw [get, get, List.find?_append, List.find?_singleton]
  simp

/-- A write through a found slot that keeps the key. -/
theorem get_modify {l : List α} {k : κ} {i : ℕ} (h : slot key l k = some i) {f : α → α}
    (hf : ∀ a, key (f a) = key a) (k' : κ) :
    get key (l.modify i f) k' = if k' = k then (get key l k).map f else get key l k' := by
  induction l generalizing i with
  | nil => simp [slot] at h
  | cons a l ih =>
    simp only [slot, List.findIdx?_cons] at h
    by_cases ha : key a = k
    · simp only [ha, decide_true, if_true, Option.some.injEq] at h
      subst h
      simp only [List.modify_zero_cons, get, List.find?_cons, hf, ha, decide_true]
      by_cases hk : k' = k
      · simp [hk]
      · simp [hk, Ne.symm hk]
    · simp only [ha, decide_false, Bool.false_eq_true, if_false, Option.map_eq_some_iff] at h
      obtain ⟨j, hj, rfl⟩ := h
      have hrest := ih hj
      simp only [get, List.modify_succ_cons, List.find?_cons, ha, decide_false] at hrest ⊢
      rw [hrest]
      by_cases hk : k' = k
      · subst hk
        simp [ha]
      · simp [hk]

end Keyed
