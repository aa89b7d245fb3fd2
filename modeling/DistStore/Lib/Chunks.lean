import Mathlib.Tactic
import Mathlib.Data.List.Basic

/-! Pieces of a string. A sender cuts it at every multiple of a size; what carries
it may cut it anywhere else. -/

namespace Chunks

variable {α : Type*}

/-- `cs` are the pieces of `s`: none is empty, none longer than `b`. -/
structure Cuts (b : ℕ) (s : List α) (cs : List (List α)) : Prop where
  flatten : cs.flatten = s
  ne_nil : ∀ c ∈ cs, c ≠ []
  length_le : ∀ c ∈ cs, c.length ≤ b

/-- The first `n` pieces of size `b`; the last ones may be short or empty. -/
def chunks (b n : ℕ) (s : List α) : List (List α) :=
  (List.range n).map fun i => (s.drop (i * b)).take b

theorem chunks_succ (b n : ℕ) (s : List α) :
    chunks b (n + 1) s = chunks b n s ++ [(s.drop (n * b)).take b] := by
  rw [chunks, List.range_succ, List.map_append]
  rfl

theorem flatten_chunks (b n : ℕ) (s : List α) : (chunks b n s).flatten = s.take (n * b) := by
  induction n with
  | zero => simp [chunks]
  | succ n ih => rw [chunks_succ, List.flatten_append, ih, List.flatten_singleton, Nat.add_mul,
      Nat.one_mul, List.take_add]

/-- The pieces that are not empty are the first `⌈|s| / b⌉`. -/
theorem length_filter_chunks {b : ℕ} (hb : 0 < b) (n : ℕ) (s : List α) :
    ((chunks b n s).filter (· ≠ [])).length = min n ((s.length + (b - 1)) / b) := by
  induction n with
  | zero => simp [chunks]
  | succ n ih =>
    rw [chunks_succ, List.filter_append, List.length_append, ih]
    have hlen : ((s.drop (n * b)).take b).length = min b (s.length - n * b) := by
      rw [List.length_take, List.length_drop]
    by_cases hn : n * b < s.length
    · have hne : (s.drop (n * b)).take b ≠ [] := by
        rw [ne_eq, ← List.length_eq_zero_iff, hlen]
        omega
      have hlt : n < (s.length + (b - 1)) / b := by
        rw [Nat.lt_div_iff_mul_lt hb]
        omega
      simp only [hne, ne_eq, not_false_eq_true, decide_true, List.filter_cons_of_pos, List.filter_nil,
        List.length_singleton]
      omega
    · have hnil : (s.drop (n * b)).take b = [] := by
        rw [← List.length_eq_zero_iff, hlen]
        omega
      have hle : (s.length + (b - 1)) / b ≤ n := by
        rw [Nat.div_le_iff_le_mul_add_pred hb, Nat.mul_comm]
        omega
      simp only [hnil, ne_eq, not_true_eq_false, decide_false, Bool.false_eq_true, not_false_eq_true,
        List.filter_cons_of_neg, List.filter_nil, List.length_nil]
      omega

/-- Pieces left out are bytes left out. -/
theorem Cuts.length_take_lt {b n : ℕ} {s : List α} {cs : List (List α)} (h : Cuts b s cs)
    (hn : n < cs.length) : (cs.take n).flatten.length < s.length := by
  have hsplit := congrArg List.length (congrArg List.flatten (List.take_append_drop n cs))
  rw [List.flatten_append, List.length_append, h.flatten, List.drop_eq_getElem_cons hn,
    List.flatten_cons, List.length_append] at hsplit
  have hpos := List.length_pos_of_ne_nil (h.ne_nil _ (List.getElem_mem hn))
  omega

/-- Pieces that may be cut short make up the whole only if none is. -/
theorem flatten_map_eq_iff {ι : Type*} {l : List ι} {f g : ι → List α} (h : ∀ i ∈ l, f i <+: g i) :
    (l.map f).flatten = (l.map g).flatten ↔ ∀ i ∈ l, f i = g i := by
  constructor
  · intro heq
    induction l with
    | nil => exact List.forall_mem_nil _
    | cons i l ih =>
      obtain ⟨hi, hl⟩ := List.forall_mem_cons.mp h
      have hle : (l.map f).flatten.length ≤ (l.map g).flatten.length := by
        rw [List.length_flatten, List.length_flatten, List.map_map, List.map_map]
        exact List.sum_le_sum fun j hj => (hl j hj).length_le
      have hlen := congrArg List.length heq
      rw [List.map_cons, List.map_cons, List.flatten_cons, List.flatten_cons, List.length_append,
        List.length_append] at hlen
      have hhead : f i = g i := hi.eq_of_length (by have := hi.length_le; omega)
      rw [List.map_cons, List.map_cons, List.flatten_cons, List.flatten_cons, hhead,
        List.append_cancel_left_eq] at heq
      exact List.forall_mem_cons.mpr ⟨hhead, ih hl heq⟩
  · intro hall
    rw [List.map_congr_left hall]

end Chunks
