import Mathlib.Tactic
import Mathlib.Data.List.Basic

/-! Lists laid out in pairs: `f 0, g 0, f 1, g 1, …`. Writing one position is an
update of one of the two functions, and a filter that keeps few positions is read
off from the rounds that contribute. -/

namespace Pairs

variable {α : Type*}

def pairs (f g : ℕ → α) (n : ℕ) : List α := (List.range n).flatMap fun i => [f i, g i]

@[simp] theorem pairs_zero (f g : ℕ → α) : pairs f g 0 = [] := rfl

theorem pairs_succ (f g : ℕ → α) (n : ℕ) : pairs f g (n + 1) = pairs f g n ++ [f n, g n] := by
  simp [pairs, List.range_succ]

@[simp] theorem pairs_length (f g : ℕ → α) (n : ℕ) : (pairs f g n).length = 2 * n := by
  induction n with
  | zero => rfl
  | succ n ih => rw [pairs_succ, List.length_append, ih]; rfl

theorem getElem?_pairs_even (f g : ℕ → α) {n i : ℕ} (h : i < n) :
    (pairs f g n)[2 * i]? = some (f i) := by
  induction n with
  | zero => omega
  | succ n ih =>
    rw [pairs_succ]
    by_cases hi : i < n
    · rw [List.getElem?_append_left (by rw [pairs_length]; omega), ih hi]
    · obtain rfl : i = n := by omega
      rw [List.getElem?_append_right (by rw [pairs_length]), pairs_length, Nat.sub_self]
      rfl

theorem getElem?_pairs_odd (f g : ℕ → α) {n i : ℕ} (h : i < n) :
    (pairs f g n)[2 * i + 1]? = some (g i) := by
  induction n with
  | zero => omega
  | succ n ih =>
    rw [pairs_succ]
    by_cases hi : i < n
    · rw [List.getElem?_append_left (by rw [pairs_length]; omega), ih hi]
    · obtain rfl : i = n := by omega
      rw [List.getElem?_append_right (by rw [pairs_length]; omega), pairs_length,
        Nat.add_sub_cancel_left]
      rfl

theorem pairs_congr {f g f' g' : ℕ → α} {n : ℕ} (hf : ∀ i < n, f i = f' i)
    (hg : ∀ i < n, g i = g' i) : pairs f g n = pairs f' g' n := by
  induction n with
  | zero => rfl
  | succ n ih =>
    rw [pairs_succ, pairs_succ, hf n (by omega), hg n (by omega),
      ih (fun i hi => hf i (by omega)) fun i hi => hg i (by omega)]

theorem pairs_const (z : α) (n : ℕ) :
    pairs (fun _ => z) (fun _ => z) n = List.replicate (2 * n) z := by
  induction n with
  | zero => rfl
  | succ n ih => rw [pairs_succ, ih, Nat.mul_succ, List.replicate_add]; rfl

theorem mem_pairs {f g : ℕ → α} {n : ℕ} {x : α} :
    x ∈ pairs f g n ↔ ∃ i < n, x = f i ∨ x = g i := by
  simp [pairs]

theorem pairs_set_even (f g : ℕ → α) (n i : ℕ) (x : α) :
    (pairs f g n).set (2 * i) x = pairs (Function.update f i x) g n := by
  induction n with
  | zero => rfl
  | succ n ih =>
    rw [pairs_succ, pairs_succ]
    rcases lt_trichotomy i n with hi | rfl | hi
    · rw [List.set_append_left _ _ (by rw [pairs_length]; omega), ih,
        Function.update_of_ne (by omega)]
    · rw [List.set_append_right _ _ (by rw [pairs_length]), pairs_length, Nat.sub_self,
        Function.update_self]
      congr 1
      exact pairs_congr (fun j hj => (Function.update_of_ne (by omega) ..).symm) fun _ _ => rfl
    · rw [List.set_eq_of_length_le (by
          rw [List.length_append, pairs_length, List.length_cons, List.length_singleton]; omega),
        Function.update_of_ne (by omega)]
      congr 1
      exact pairs_congr (fun j hj => (Function.update_of_ne (by omega) ..).symm) fun _ _ => rfl

theorem pairs_set_odd (f g : ℕ → α) (n i : ℕ) (x : α) :
    (pairs f g n).set (2 * i + 1) x = pairs f (Function.update g i x) n := by
  induction n with
  | zero => rfl
  | succ n ih =>
    rw [pairs_succ, pairs_succ]
    rcases lt_trichotomy i n with hi | rfl | hi
    · rw [List.set_append_left _ _ (by rw [pairs_length]; omega), ih,
        Function.update_of_ne (by omega)]
    · rw [List.set_append_right _ _ (by rw [pairs_length]; omega), pairs_length,
        Nat.add_sub_cancel_left, Function.update_self]
      congr 1
      exact pairs_congr (fun _ _ => rfl) fun j hj => (Function.update_of_ne (by omega) ..).symm
    · rw [List.set_eq_of_length_le (by
          rw [List.length_append, pairs_length, List.length_cons, List.length_singleton]; omega),
        Function.update_of_ne (by omega)]
      congr 1
      exact pairs_congr (fun _ _ => rfl) fun j hj => (Function.update_of_ne (by omega) ..).symm

theorem filter_pairs (p : α → Bool) (f g : ℕ → α) (n : ℕ) :
    (pairs f g n).filter p = (List.range n).flatMap fun i => [f i, g i].filter p := by
  rw [pairs, List.filter_flatMap]

/-- Only round `a` contributes. -/
theorem flatMap_range_single {g : ℕ → List α} {n a : ℕ} (ha : a < n)
    (h : ∀ i < n, i ≠ a → g i = []) : (List.range n).flatMap g = g a := by
  induction n with
  | zero => omega
  | succ n ih =>
    rw [List.range_succ, List.flatMap_append, List.flatMap_singleton]
    by_cases hn : a = n
    · subst hn
      rw [List.flatMap_eq_nil_iff.mpr fun i hi => h i (by have := List.mem_range.mp hi; omega)
        (List.mem_range.mp hi).ne, List.nil_append]
    · rw [ih (by omega) fun i hi => h i (by omega), h n (by omega) (Ne.symm hn), List.append_nil]

/-- Only the rounds `a < b` contribute. -/
theorem flatMap_range_two {g : ℕ → List α} {n a b : ℕ} (hab : a < b) (hb : b < n)
    (h : ∀ i < n, i ≠ a → i ≠ b → g i = []) : (List.range n).flatMap g = g a ++ g b := by
  induction n with
  | zero => omega
  | succ n ih =>
    rw [List.range_succ, List.flatMap_append, List.flatMap_singleton]
    by_cases hn : b = n
    · subst hn
      rw [flatMap_range_single hab fun i hi hia => h i (by omega) hia (by omega)]
    · rw [ih (by omega) fun i hi => h i (by omega), h n (by omega) (by omega) (Ne.symm hn),
        List.append_nil]

end Pairs
