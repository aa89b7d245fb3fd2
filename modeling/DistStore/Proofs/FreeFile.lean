import DistStore.Model.FreeFile

/-! What `xfileserver_free_file` frees: as many slots as the file has fragments in the whole
network, where the container has two. -/

namespace DSS.ContainerHeap

open Counter

variable {m : ContainerHeap} {name : List UInt8} {fileId size count : ℕ} {frags : List Fragment}

/-! ## The loop -/

theorem freeFile_eq (h : m.file.fragmentCountTotal < 2 ^ 8) :
    m.freeFile = ((List.range m.file.fragmentCountTotal).mapM m.fragmentBytes).map fun freed =>
      (freed, ⟨.zero, none, none, m.buffers⟩) := by
  have hloop : loop 8 (· < m.file.fragmentCountTotal) m.fragmentBytes (2 ^ 8) 0 =
      (List.range m.file.fragmentCountTotal).mapM m.fragmentBytes := by
    rw [loop_eq h (fun i hi => decide_eq_true hi) (decide_eq_false (lt_irrefl _)) (Nat.zero_le _),
      Nat.sub_zero, if_pos h, List.range_eq_range']
  rw [freeFile, hloop, Option.map_eq_bind]
  rfl

theorem mapM_fragmentBytes {n : ℕ} (h : n ≤ 2) :
    (List.range n).mapM m.fragmentBytes = some ([m.bytes0, m.bytes1].take n) := by
  rcases (by omega : n = 0 ∨ n = 1 ∨ n = 2) with rfl | rfl | rfl <;> rfl

/-- The third slot is not in the array; up to there the loop frees what the slots hold. -/
theorem freesExactly_iff (h : m.file.fragmentCountTotal < 2 ^ 8) :
    m.FreesExactly ↔ m.file.fragmentCountTotal ≤ 2 ∧
      (([m.bytes0, m.bytes1].take m.file.fragmentCountTotal).filterMap id).Perm m.buffers := by
  rw [FreesExactly, freeFile_eq h]
  constructor
  · rintro ⟨freed, m', hfree, hperm, -⟩
    obtain ⟨slots, hslots, heq⟩ := Option.map_eq_some_iff.mp hfree
    cases heq
    have htwo : m.file.fragmentCountTotal ≤ 2 := by
      by_contra hmore
      obtain ⟨b, hb⟩ := exists_mapM_iff.mp ⟨_, hslots⟩ 2 (List.mem_range.mpr (by omega))
      cases hb
    rw [mapM_fragmentBytes htwo] at hslots
    cases hslots
    exact ⟨htwo, hperm⟩
  · rintro ⟨htwo, hperm⟩
    rw [mapM_fragmentBytes htwo]
    exact ⟨_, _, rfl, hperm, rfl, rfl, rfl⟩

/-! ## The history of a container -/

theorem addFragment_total (m : ContainerHeap) (frag : Fragment) :
    (m.addFragment frag).file.fragmentCountTotal = m.file.fragmentCountTotal := by
  unfold addFragment xfileserverAddFragment
  split_ifs <;> rfl

theorem addFragment_buffers (m : ContainerHeap) (frag : Fragment) :
    (m.addFragment frag).buffers = m.buffers ++ [m.buffers.length] := by
  unfold addFragment
  split_ifs <;> rfl

theorem filled_total (frags : List Fragment) :
    (filled name fileId size count frags).file.fragmentCountTotal = u8 count := by
  induction frags using List.reverseRecOn with
  | nil => rfl
  | append_singleton frags frag ih =>
    rw [filled, List.foldl_append]
    exact (addFragment_total _ frag).trans ih

theorem filled_buffers (frags : List Fragment) :
    (filled name fileId size count frags).buffers = List.range frags.length := by
  induction frags using List.reverseRecOn with
  | nil => rfl
  | append_singleton frags frag ih =>
    have hlast : (filled name fileId size count (frags ++ [frag])).buffers =
        (filled name fileId size count frags).buffers ++
          [(filled name fileId size count frags).buffers.length] := by
      rw [filled, List.foldl_append]
      exact addFragment_buffers _ frag
    rw [hlast, ih, List.length_range, List.length_append, List.length_singleton, List.range_succ]

/-- The second call finds the first slot taken, unless the first was given id 0. -/
theorem filled_two (name : List UInt8) (fileId size count : ℕ) (a b : Fragment) :
    (filled name fileId size count [a, b]).bytes0 = (if u8 a.fragmentId = 0 then some 1 else some 0) ∧
      (filled name fileId size count [a, b]).bytes1 = (if u8 a.fragmentId = 0 then none else some 1) := by
  have hfirst : (addFile name fileId size count).addFragment a =
      ⟨{ freshContainer name fileId size count with
          fragments0 := ⟨u8 a.fragmentId, a.data.take a.data.length, u64 a.data.length⟩ },
        some 0, none, [0]⟩ := rfl
  rw [filled, List.foldl_cons, List.foldl_cons, List.foldl_nil, hfirst, addFragment]
  dsimp only
  split_ifs <;> exact ⟨rfl, rfl⟩

/-- A container is freed exactly if its file has at most two fragments in the network, no fewer
than are stored here, and of two that are the first has an id. -/
theorem free_file_exact_iff (fileName : List UInt8) (fileId totalSize fragmentCountTotal : ℕ)
    (frags : List Fragment) :
    (filled fileName fileId totalSize fragmentCountTotal frags).FreesExactly ↔
      u8 fragmentCountTotal ≤ 2 ∧ frags.length ≤ u8 fragmentCountTotal ∧
        ∀ a b, frags = [a, b] → u8 a.fragmentId ≠ 0 := by
  have hlt : u8 fragmentCountTotal < 2 ^ 8 := Nat.mod_lt _ (by norm_num)
  rw [freesExactly_iff (by rw [filled_total]; exact hlt), filled_total, filled_buffers]
  refine and_congr_right fun htwo => ?_
  generalize u8 fragmentCountTotal = n at htwo
  constructor
  · intro hperm
    have hlen := hperm.length_eq
    rw [List.length_range] at hlen
    refine ⟨?_, ?_⟩
    · -- as many buffers as calls, and at most one in a slot
      rw [← hlen]
      exact (List.length_filterMap_le _ _).trans (List.length_take_le _ _)
    · rintro a b rfl hzero
      obtain ⟨h0, h1⟩ := filled_two fileName fileId totalSize fragmentCountTotal a b
      rw [h0, h1, if_pos hzero, if_pos hzero] at hlen
      rcases (by omega : n = 0 ∨ n = 1 ∨ n = 2) with rfl | rfl | rfl <;> cases hlen
  · rintro ⟨hle, hid⟩
    rcases frags with _ | ⟨a, _ | ⟨b, _ | ⟨c, frags⟩⟩⟩
    · rcases (by omega : n = 0 ∨ n = 1 ∨ n = 2) with rfl | rfl | rfl <;> exact .refl _
    · rw [List.length_singleton] at hle
      rcases (by omega : n = 1 ∨ n = 2) with rfl | rfl <;> exact .refl _
    · obtain rfl : n = 2 := le_antisymm htwo hle
      obtain ⟨h0, h1⟩ := filled_two fileName fileId totalSize fragmentCountTotal a b
      rw [h0, h1, if_neg (hid a b rfl), if_neg (hid a b rfl)]
      exact .refl _
    · rw [List.length_cons, List.length_cons, List.length_cons] at hle
      omega

/-- A file of three fragments. -/
theorem not_free_file_exact :
    ¬ ∀ (fileName : List UInt8) (fileId totalSize fragmentCountTotal : ℕ) (frags : List Fragment),
      1 ≤ fragmentCountTotal → fragmentCountTotal ≤ 255 → frags.length ≤ 2 →
        (filled fileName fileId totalSize fragmentCountTotal frags).FreesExactly := by
  intro hall
  obtain ⟨freed, m', hfree, -⟩ := hall [97] 1 300 3 [⟨1, [7]⟩, ⟨2, [8]⟩] (by decide) (by decide)
    (by decide)
  have hnone : (filled [97] 1 300 3 [⟨1, [7]⟩, ⟨2, [8]⟩]).freeFile = none := by decide
  rw [hnone] at hfree
  cases hfree

end DSS.ContainerHeap
