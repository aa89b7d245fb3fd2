import DistStore.Lib.Transition
import DistStore.Model.StoreDump
import DistStore.Proofs.FileTable

/-! The dump of the store ends unless a file has 255 fragments: then no value of the `uint8_t`
that counts them is greater. -/

namespace DSS

open Transition Counter

/-! ## One file -/

/-- What is stored of a fragment can be read. -/
def XFileContainer.Printable (file : XFileContainer) : Prop :=
  ∀ fr ∈ [file.fragments0, file.fragments1], fr.fragmentSize ≤ fr.fragmentBytes.length

theorem lastFragment_spec {file : XFileContainer} {f : ℕ} {fr : XFileFragment}
    (h : file.lastFragment f = some fr) :
    fr ∈ [file.fragments0, file.fragments1] ∧ fr.fragmentId = f := by
  simp only [XFileContainer.lastFragment, List.foldl_cons, List.foldl_nil] at h
  split_ifs at h with h1 h0
  · cases h
    exact ⟨by simp, h1⟩
  · cases h
    exact ⟨by simp, h0⟩

theorem dumpFragment_number {file : XFileContainer} (f : ℕ) (d : DumpedFragment)
    (h : dumpFragment file f = some d) : d.number = f := by
  rw [dumpFragment] at h
  cases hlast : file.lastFragment f with
  | none =>
    rw [hlast] at h
    cases h
    rfl
  | some fr =>
    rw [hlast] at h
    obtain ⟨bytes, -, h⟩ := Option.bind_eq_some_iff.mp h
    cases h
    exact (lastFragment_spec hlast).2

theorem exists_dumpFragment {file : XFileContainer} (h : file.Printable) (f : ℕ) :
    ∃ d, dumpFragment file f = some d := by
  rw [dumpFragment]
  cases hlast : file.lastFragment f with
  | none => exact ⟨_, rfl⟩
  | some fr =>
    have hsize := h fr (lastFragment_spec hlast).1
    have hpreview : (if fr.fragmentSize < 10 then fr.fragmentSize else 10) ≤ fr.fragmentBytes.length := by
      split_ifs <;> omega
    simp only [readBuffer]
    rw [if_pos ⟨le_rfl, by omega⟩]
    exact ⟨_, rfl⟩

section file

variable {fs : FileTable} {fuel i : ℕ}

/-- The counter holds the number after the last fragment's. -/
theorem loop_fragments (h : (fs.slots i).fragmentCountTotal < 255) :
    loop 8 (· ≤ (fs.slots i).fragmentCountTotal) (dumpFragment (fs.slots i)) fuel 1 =
      if (fs.slots i).fragmentCountTotal < fuel then
        (List.range' 1 (fs.slots i).fragmentCountTotal).mapM (dumpFragment (fs.slots i))
      else none := by
  have hend : decide ((fs.slots i).fragmentCountTotal + 1 ≤ (fs.slots i).fragmentCountTotal) = false :=
    decide_eq_false (by omega)
  rw [loop_eq (by omega) (fun f hf => decide_eq_true (Nat.le_of_lt_succ hf)) hend (Nat.le_add_left _ _),
    Nat.succ_sub_one]

theorem dumpFile_of_255 (h : (fs.slots i).fragmentCountTotal = 255) : dumpFile fuel fs i = none := by
  rw [dumpFile, h]
  have hloop : loop 8 (· ≤ 255) (dumpFragment (fs.slots i)) fuel 1 = none :=
    loop_eq_none (fun f hf => decide_eq_true (by omega)) (by omega) fuel
  show (loop 8 _ _ fuel 1).bind _ = none
  rw [hloop]
  rfl

theorem exists_dumpFile (hread : (fs.slots i).Printable) (h : (fs.slots i).fragmentCountTotal < 255)
    (hfuel : 255 ≤ fuel) : ∃ d, dumpFile fuel fs i = some d := by
  obtain ⟨fragments, hfragments⟩ := exists_mapM_iff.mpr
    fun f (_ : f ∈ List.range' 1 (fs.slots i).fragmentCountTotal) => exists_dumpFragment hread f
  refine ⟨_, Option.bind_eq_some_iff.mpr ⟨fragments, ?_, rfl⟩⟩
  rw [loop_fragments h, if_pos (by omega), hfragments]

theorem dumpFile_index {d : DumpedFile} (hd : dumpFile fuel fs i = some d) : d.index = i := by
  obtain ⟨fragments, -, hd⟩ := Option.bind_eq_some_iff.mp hd
  cases hd
  rfl

theorem dumpFile_numbers {d : DumpedFile} (h : (fs.slots i).fragmentCountTotal < 255)
    (hd : dumpFile fuel fs i = some d) :
    d.fragments.map (·.number) = List.range' 1 (fs.slots i).fragmentCountTotal := by
  obtain ⟨fragments, hfragments, hd⟩ := Option.bind_eq_some_iff.mp hd
  cases hd
  rw [loop_fragments h] at hfragments
  split_ifs at hfragments
  exact map_of_mapM dumpFragment_number hfragments

end file

/-! ## The store -/

namespace FileTable

variable {t t' : FileTable} {op : StoreOp}

/-- What every store is that the operations fill: `file_count` and each
`fragment_count_total` as wide as the source has them, and each fragment as long as it says. -/
structure Filled (t : FileTable) : Prop where
  fileCount_lt : t.fileCount < 2 ^ 16
  total_lt : ∀ i < t.fileCount, (t.slots i).fragmentCountTotal < 2 ^ 8
  printable : ∀ i < t.fileCount, (t.slots i).Printable

/-- No counter of the dump has to go past the end of its width. -/
def No255 (t : FileTable) : Prop := ∀ i < t.fileCount, (t.slots i).fragmentCountTotal ≠ 255

theorem loop_files (h : t.fileCount < 2 ^ 16) (fuel : ℕ) :
    loop 16 (· < t.fileCount) (dumpFile fuel t) fuel 0 =
      if t.fileCount < fuel then (List.range t.fileCount).mapM (dumpFile fuel t) else none := by
  rw [List.range_eq_range']
  exact loop_eq h (fun i hi => decide_eq_true hi) (decide_eq_false (lt_irrefl _)) (Nat.zero_le _) fuel

theorem Filled.dumpsOnce_iff (h : t.Filled) : t.DumpsOnce ↔ t.No255 := by
  constructor
  · rintro ⟨fuel, d, hd, -⟩ i hi htotal
    obtain ⟨files, hfiles, -⟩ := Option.bind_eq_some_iff.mp hd
    rw [loop_files h.fileCount_lt] at hfiles
    split_ifs at hfiles
    obtain ⟨file, hfile⟩ := exists_mapM_iff.mp ⟨files, hfiles⟩ i (List.mem_range.mpr hi)
    rw [dumpFile_of_255 htotal] at hfile
    cases hfile
  · intro hno
    have hlt (i : ℕ) (hi : i < t.fileCount) : (t.slots i).fragmentCountTotal < 255 := by
      have hne := hno i hi
      have htotal := h.total_lt i hi
      omega
    have hcount := h.fileCount_lt
    have hfuel : 255 ≤ 2 ^ 16 := by omega
    obtain ⟨files, hfiles⟩ := exists_mapM_iff.mpr fun i (hi : i ∈ List.range t.fileCount) =>
      exists_dumpFile (h.printable i (List.mem_range.mp hi)) (hlt i (List.mem_range.mp hi)) hfuel
    refine ⟨2 ^ 16, ⟨t.fileCount, files⟩, ?_, ?_, ?_⟩
    · rw [xfileserverDebug, loop_files hcount, if_pos hcount, hfiles]
      rfl
    · exact map_of_mapM (fun i d => dumpFile_index) hfiles
    · intro file hfile
      obtain ⟨i, hi, hd⟩ := mem_of_mapM hfiles hfile
      rw [dumpFile_index hd]
      exact dumpFile_numbers (hlt i (List.mem_range.mp hi)) hd

/-! ## The operations -/

theorem filled_init (mem : ℕ → XFileContainer) : (init mem).Filled :=
  ⟨Nat.two_pow_pos 16, fun _ hi => absurd hi (Nat.not_lt_zero _),
    fun _ hi => absurd hi (Nat.not_lt_zero _)⟩

theorem addFragment_total (file : XFileContainer) (fragmentId : ℕ) (data : List UInt8) :
    (xfileserverAddFragment true file fragmentId data data.length).2.fragmentCountTotal =
      file.fragmentCountTotal := by
  unfold xfileserverAddFragment
  split_ifs <;> rfl

theorem addFragment_printable {file : XFileContainer} (h : file.Printable) (fragmentId : ℕ)
    (data : List UInt8) :
    (xfileserverAddFragment true file fragmentId data data.length).2.Printable := by
  have hstored : u64 data.length ≤ (data.take data.length).length := by
    rw [List.take_length]
    exact Nat.mod_le _ _
  unfold XFileContainer.Printable at h ⊢
  rw [List.forall_mem_cons, List.forall_mem_singleton] at h ⊢
  simp only [xfileserverAddFragment, if_true]
  split_ifs
  · exact ⟨hstored, h.2⟩
  · exact ⟨h.1, hstored⟩

theorem freshContainer_printable (name : List UInt8) (id size total : ℕ) :
    (freshContainer name id size total).Printable := by
  intro fr hfr
  simp only [freshContainer, List.mem_cons, List.not_mem_nil, or_false, or_self] at hfr
  rw [hfr]
  exact le_rfl

theorem addFragment_slots_self (t : FileTable) (slot fragmentId : ℕ) (data : List UInt8) :
    (t.afterStore (.addFragment slot fragmentId data)).slots slot =
      (xfileserverAddFragment true (t.slots slot) fragmentId data data.length).2 :=
  Function.update_self ..

theorem addFragment_slots_of_ne (t : FileTable) {i slot : ℕ} (fragmentId : ℕ) (data : List UInt8)
    (h : i ≠ slot) : (t.afterStore (.addFragment slot fragmentId data)).slots i = t.slots i :=
  Function.update_of_ne h ..

/-- A call of `xfileserver_add_file` keeps the store filled, and free of 255 unless it brings it. -/
theorem Filled.add (h : t.Filled) (c : AddCall) :
    (t.add c).1.Filled ∧
      (t.No255 →
        ((t.add c).1.No255 ↔ ¬ (u8 c.fragmentCountTotal = 255 ∧ t.fileCount + 1 < 2 ^ 16))) := by
  have hnew : (t.add c).1.slots t.fileCount =
      freshContainer c.fileName c.fileId c.totalSize c.fragmentCountTotal :=
    Function.update_self _ _ _
  have hcount : (t.add c).1.fileCount = u16 (t.fileCount + 1) := rfl
  have hlt := h.fileCount_lt
  rcases Nat.lt_or_ge (t.fileCount + 1) (2 ^ 16) with hroom | hfull
  · rw [u16_of_lt hroom] at hcount
    have hall {P : XFileContainer → Prop} (hold : ∀ i < t.fileCount, P (t.slots i))
        (hfresh : P (freshContainer c.fileName c.fileId c.totalSize c.fragmentCountTotal)) :
        ∀ i < (t.add c).1.fileCount, P ((t.add c).1.slots i) := by
      intro i hi
      rcases (Nat.le_of_lt_succ (hcount ▸ hi)).eq_or_lt with rfl | hi
      · rw [hnew]
        exact hfresh
      · rw [add_slots t c hi]
        exact hold i hi
    refine ⟨⟨hcount ▸ hroom,
      hall (P := fun f => f.fragmentCountTotal < 2 ^ 8) h.total_lt (Nat.mod_lt _ (by norm_num)),
      hall h.printable (freshContainer_printable _ _ _ _)⟩, fun hno => ?_⟩
    rw [and_iff_left hroom]
    constructor
    · intro hafter htotal
      have hne := hafter t.fileCount (by omega)
      rw [hnew] at hne
      exact hne htotal
    · intro htotal
      exact hall (P := fun f => f.fragmentCountTotal ≠ 255) hno htotal
  · -- `file_count` is back at 0
    have hzero : (t.add c).1.fileCount = 0 := by
      rw [hcount, u16]
      omega
    have hnone {P : ℕ → Prop} : ∀ i < (t.add c).1.fileCount, P i := by
      intro i hi
      omega
    exact ⟨⟨by omega, hnone, hnone⟩, fun _ => iff_of_true hnone fun hadd => by omega⟩

theorem Filled.afterStore (h : t.Filled) (op : StoreOp) :
    (t.afterStore op).Filled ∧ (t.No255 → ((t.afterStore op).No255 ↔ ¬ Adds255 op t)) := by
  cases op with
  | add op =>
    have hafter : t.afterStore (.add op) = t.after op := rfl
    rw [hafter, after, Adds255]
    cases hcall : t.call op with
    | none =>
      refine ⟨h, fun hno => iff_of_true hno ?_⟩
      rintro ⟨c, hc, -⟩
      cases hc
    | some c =>
      rw [Option.elim_some]
      simp only [Option.mem_some_iff, exists_eq_left']
      exact h.add c
  | addFragment slot fragmentId data =>
    have hself := addFragment_slots_self t slot fragmentId data
    have hother {i : ℕ} (hne : i ≠ slot) := addFragment_slots_of_ne t fragmentId data hne
    have htotal (i : ℕ) : ((t.afterStore (.addFragment slot fragmentId data)).slots i).fragmentCountTotal =
        (t.slots i).fragmentCountTotal := by
      rcases eq_or_ne i slot with rfl | hne
      · rw [hself, addFragment_total]
      · rw [hother hne]
    refine ⟨⟨h.fileCount_lt, fun i hi => (htotal i).trans_lt (h.total_lt i hi), fun i hi => ?_⟩,
      fun hno => iff_of_true (fun i hi => (htotal i).trans_ne (hno i hi)) id⟩
    rcases eq_or_ne i slot with rfl | hne
    · rw [hself]
      exact addFragment_printable (h.printable i hi) fragmentId data
    · rw [hother hne]
      exact h.printable i hi

/-- The dump ends after every operation, and shows each container and fragment number once,
exactly as long as no container of 255 fragments is added. -/
theorem dump_terminates_iff (mem : ℕ → XFileContainer) (ops : List StoreOp) :
    Along storeStep (fun op t => (t.afterStore op).DumpsOnce) (init mem) ops ↔
      Along storeStep (fun op t => ¬ Adds255 op t) (init mem) ops := by
  refine along_iff (I := fun t => t.Filled ∧ t.No255) (C := fun _ _ => True) ?_ ?_
    ⟨filled_init mem, fun _ hi => absurd hi (Nat.not_lt_zero _)⟩
    (along_of_forall (fun _ _ => trivial) _ _)
  · rintro t op ⟨hfilled, hno⟩ -
    exact (hfilled.afterStore op).1.dumpsOnce_iff.trans ((hfilled.afterStore op).2 hno)
  · rintro t op t' ⟨hfilled, hno⟩ - hadds hstep
    cases hstep
    exact ⟨(hfilled.afterStore op).1, ((hfilled.afterStore op).2 hno).mpr hadds⟩

/-- A file of 300 bytes in a network of 255 nodes. -/
theorem not_dump_terminates :
    ¬ ∀ (mem : ℕ → XFileContainer) (ops : List StoreOp),
      Along storeStep (fun op t => (t.afterStore op).DumpsOnce) (init mem) ops := by
  intro hall
  obtain ⟨hdump, -⟩ := hall (fun _ => freshContainer [] 0 0 0)
    [.add (.handleNewFile ⟨[97], 300⟩ 300 255)]
  have hfilled := ((filled_init fun _ => freshContainer [] 0 0 0).afterStore
    (.add (.handleNewFile ⟨[97], 300⟩ 300 255))).1
  exact hfilled.dumpsOnce_iff.mp hdump 0 (by decide) (by decide)

end FileTable

end DSS
