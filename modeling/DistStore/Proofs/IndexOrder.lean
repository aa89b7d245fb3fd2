import DistStore.Proofs.IndexStores

/-! The order of the ids along the list. `xfilenetindex_find_file` says that the list is always
ordered; it is as long as nothing is appended that belongs further to the front. -/

namespace DSS.IndexStores

open Transition

variable {m m' : IndexStores} {st : IndexFiles} {w : IndexWrite}

def added (m : IndexStores) : IndexWrite → Option ℕ
  | .newFile _ _ _ => some (u16 (m.fs.fileCount + 1))
  | .report p =>
    let id := (XReportFileKnowledge.ofContent (content p)).fileId
    if m.net.findFile id = none then some (u16 id) else none
  | .own _ f => if m.net.findFile f.fileId = none then some (u16 f.fileId) else none
  | .store _ _ _ => none

def Ordered (m : IndexStores) : Prop := m.net.ids.Pairwise (· ≤ ·)

def StaysOrdered (w : IndexWrite) (m : IndexStores) : Prop := ∀ m' ∈ m.step w, Ordered m'

/-- No id that is in the list is larger than the one the write appends. -/
def InOrder (w : IndexWrite) (m : IndexStores) : Prop :=
  (m.step w).isSome = true → ∀ id ∈ m.added w, ∀ known ∈ m.net.ids, known ≤ id

instance (w : IndexWrite) (m : IndexStores) : Decidable (StaysOrdered w m) :=
  inferInstanceAs (Decidable (∀ m' ∈ m.step w, m'.net.ids.Pairwise (· ≤ ·)))

theorem save_table_ids {fs fs' : XFileServer} {table table' : XFileNetworkIndex}
    {r : XReportFileKnowledge} (h : xprocedureSaveFileToIndex fs table r = some (fs', table')) :
    table'.ids = table.ids ++
      (if xfilenetindexFindFile table r.fileId = none then some (u16 r.fileId) else none).toList := by
  obtain ⟨slot, -, h⟩ := Option.bind_eq_some_iff.mp h
  obtain ⟨fni, -, h⟩ := Option.bind_eq_some_iff.mp h
  obtain ⟨fragments, -, h⟩ := Option.bind_eq_some_iff.mp h
  cases h
  refine (ids_update (f := fun e => { e with fragments := fragments }) (fun _ => rfl) slot).trans ?_
  split_ifs
  · rw [XFileNetworkIndex.ids, xfilenetindexAddFile, List.map_append]
    rfl
  · exact (List.append_nil _).symm

/-- A write appends its id to the list, or nothing. -/
theorem Represents.step_ids (h : m.Represents st) (hstep : m.step w = some m') :
    (∃ st', m'.Represents st') ∧ m'.net.ids = m.net.ids ++ (m.added w).toList := by
  obtain ⟨st', hst', hrep⟩ := h.step_some hstep
  refine ⟨⟨st', hrep⟩, ?_⟩
  rw [hrep.net.ids_eq, h.net.ids_eq]
  cases w with
  | newFile sv fc sz =>
    obtain ⟨⟨fs, table, file⟩, hplace, hst'⟩ := Option.bind_eq_some_iff.mp hst'
    cases hst'
    have hids := (place_ids (u := ⟨sv, fc, sz, [], fun _ => ⟨none, [], []⟩⟩) hplace).2.1
    rw [added, h.fs]
    exact hids
  | report p =>
    obtain ⟨⟨fs, table⟩, hsave, hst'⟩ := Option.bind_eq_some_iff.mp hst'
    cases hst'
    have hids := save_table_ids hsave
    simp only [added, h.net.findFile]
    exact hids
  | own nodeId f =>
    obtain ⟨⟨fs, table⟩, hsave, hst'⟩ := Option.bind_eq_some_iff.mp hst'
    cases hst'
    have hids := save_table_ids hsave
    simp only [added, h.net.findFile]
    exact hids
  | store slot fragments0 fragments1 =>
    cases hst'
    exact (List.append_nil _).symm

theorem staysOrdered_iff (h : m.Represents st) (hm : Ordered m) :
    StaysOrdered w m ↔ InOrder w m := by
  rw [StaysOrdered, InOrder]
  cases hstep : m.step w with
  | none => simp
  | some m' =>
    simp only [Option.mem_some_iff, forall_eq', Option.isSome_some, forall_true_left]
    rw [Ordered, (h.step_ids hstep).2, List.pairwise_append]
    have hsingle : (m.added w).toList.Pairwise (· ≤ ·) := by
      cases m.added w with
      | none => exact List.Pairwise.nil
      | some id => exact List.pairwise_singleton _ id
    constructor
    · rintro ⟨-, -, hle⟩ id hid known hknown
      exact hle known hknown id (Option.mem_toList.mpr hid)
    · intro hle
      refine ⟨hm, hsingle, fun known hknown id hid => ?_⟩
      exact hle id (Option.mem_toList.mp hid) known hknown

/-- From the first own file on, the list is ordered after every write exactly as long as every
write appends an id no smaller than those in the list. -/
theorem index_ordered_iff (nodeId : ℕ) (own : XFileServer) (ws : List IndexWrite) :
    Along step StaysOrdered ⟨own, NetworkList.init⟩ (ownWrites nodeId own ++ ws) ↔
      Along step InOrder ⟨own, NetworkList.init⟩ (ownWrites nodeId own ++ ws) := by
  refine along_iff (I := fun m => (∃ st, m.Represents st) ∧ Ordered m) (C := fun _ _ => True)
    ?_ ?_ ?_ (along_of_forall (fun _ _ => trivial) _ _)
  · rintro m w ⟨⟨st, hst⟩, hm⟩ -
    exact staysOrdered_iff hst hm
  · rintro m w m' ⟨⟨st, hst⟩, hm⟩ - horder hstep
    exact ⟨(hst.step_ids hstep).1, (staysOrdered_iff hst hm).mpr horder m' hstep⟩
  · exact ⟨⟨⟨own, xfilenetindexInit⟩, rfl, NetworkList.represents_init⟩, List.Pairwise.nil⟩

/-- Of a network of four, the third node's only file is the second, cut into four fragments. -/
def ownSecond : XFileServer :=
  ⟨[{ freshContainer [98] 2 400 4 with
    fragments0 := ⟨2, List.replicate 100 7, 100⟩, fragments1 := ⟨3, List.replicate 100 7, 100⟩ }]⟩

/-- The first file, which was too small to be cut, reported by node 1. -/
def reportFirst : IndexWrite :=
  .report (xpacketReportFile (oneByte [97]).sv (reportOf 1 { freshContainer [97] 1 1 1 with
    fragments0 := ⟨1, [7], 1⟩ }))

/-- Node 4 is dead, node 3 takes over, and hears of the first file after its own. -/
theorem not_index_ordered :
    ((run step ⟨ownSecond, NetworkList.init⟩ (ownWrites 3 ownSecond ++ [reportFirst])).map
        fun m => m.net.ids) = some [2, 1] ∧
      ¬ Along step StaysOrdered ⟨ownSecond, NetworkList.init⟩
        (ownWrites 3 ownSecond ++ [reportFirst]) := by
  decide +kernel

end DSS.IndexStores
