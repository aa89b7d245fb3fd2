import DistStore.Model.StoreRun
import DistStore.Proofs.Uploads

/-! One file the network stores: its fragments, the entries of its table, and the container each node
makes of those it got. -/

namespace DSS

open Pairs Splice

namespace StoredFile

def piece (f : StoredFile) (e : XFragmentNetworkPointer) : List UInt8 :=
  slice f.bytes ((e.fragment - 1) * (f.bytes.length / f.count)) e.size

/-- The size of fragment `i + 1`. -/
def pieceSize (f : StoredFile) (i : ℕ) : ℕ := fragmentSize f.count f.bytes.length i

def placed (f : StoredFile) (id : ℕ) : PlacedFile :=
  ⟨char200 f.name, id, f.bytes.length, f.count, f.pieceSize, f.piece⟩

def table (f : StoredFile) : List XFragmentNetworkPointer := placedTable f.nodes f.pieceSize f.count

/-- The container before a fragment is stored in it. -/
def fresh (f : StoredFile) (id : ℕ) : XFileContainer :=
  freshContainer (char200 f.name) id f.bytes.length f.count

def container (f : StoredFile) (id n : ℕ) : XFileContainer := (f.placed id).container f.nodes n

/-- The containers node `n` has of it: the index has one of every file, another node only of the
files it got a fragment of. -/
def held (f : StoredFile) (N id n : ℕ) : List XFileContainer :=
  if n = N ∨ heldEntries f.table n ≠ [] then [f.container id n] else []

/-- The file fits, and whoever receives it or a fragment of it comes to the end of its receives: neither
is a multiple of the bucket's size. -/
structure Arrives (f : StoredFile) : Prop where
  uploadable : Uploadable (f.name, f.bytes)
  whole : ¬ SERVER_BUCKET_SIZE ∣ f.bytes.length
  fragment : ∀ i < f.count, ¬ SERVER_BUCKET_SIZE ∣ f.pieceSize i

structure StoredBy (f : StoredFile) (c : Cluster) : Prop where
  uploadable : Uploadable (f.name, f.bytes)
  nodes : f.nodes.Sublist c.nodes
  two_le : 2 ≤ f.nodes.length

variable {f : StoredFile} {c : Cluster} {id : ℕ}

theorem count_bounds (h2 : 2 ≤ f.nodes.length) : 1 ≤ f.count ∧ f.count ≤ f.nodes.length := by
  rw [count]
  split_ifs <;> omega

theorem count_cases (f : StoredFile) : f.count = 1 ∨ f.count = f.nodes.length := by
  rw [count]
  split_ifs
  · exact .inl rfl
  · exact .inr rfl

theorem count_le_length (hpos : 0 < f.bytes.length) : f.count ≤ f.bytes.length := by
  rw [count]
  split_ifs with h
  · exact hpos
  · exact (not_le.mp (not_or.mp h).1).le

/-- A file smaller than a bucket arrives. -/
theorem Arrives.of_lt (hu : Uploadable (f.name, f.bytes)) (hlt : f.bytes.length < SERVER_BUCKET_SIZE) :
    f.Arrives where
  uploadable := hu
  whole := Nat.not_dvd_of_pos_of_lt hu.size_pos hlt
  fragment := by
    intro i hi
    have hpos : 0 < f.bytes.length := hu.size_pos
    have hsz : f.bytes.length < 2 ^ 31 := hu.size_lt
    have hin : i * (f.bytes.length / f.count) + f.pieceSize i ≤ f.bytes.length := fragment_inside hsz hi
    apply Nat.not_dvd_of_pos_of_lt _ (by omega)
    have hdiv : 0 < f.bytes.length / f.count := Nat.div_pos (count_le_length hpos) (by omega)
    rw [pieceSize, fragmentSize_eq (by omega) hsz]
    split_ifs <;> omega

theorem holder_mem {i : ℕ} (hi : i < f.nodes.length) : f.holder i ∈ f.nodes := by
  rw [holder, List.getD_eq_getElem _ _ hi]
  exact List.getElem_mem hi

namespace StoredBy

variable (h : f.StoredBy c)
include h

theorem length_nodes_le : f.nodes.length ≤ c.N := by
  rw [← c.nodes_length]
  exact h.nodes.length_le

theorem mem_bounds {n : ℕ} (hn : n ∈ f.nodes) : 1 ≤ n ∧ n ≤ c.N :=
  Cluster.mem_nodes.mp (h.nodes.subset hn)

theorem placed_over (hN : c.N ≤ 254) (hid : id < 2 ^ 16) : (f.placed id).Over f.nodes where
  sorted := c.nodes_sorted.sublist h.nodes
  two_le := h.two_le
  length_le := h.length_nodes_le.trans hN
  fileId := hid
  fileSize := lt_trans h.uploadable.size_lt (by norm_num)
  fc := f.count_cases
  size i := by
    have hsz : f.bytes.length < 2 ^ 31 := h.uploadable.size_lt
    have hpos := (count_bounds h.two_le).1
    have hdiv := Nat.div_add_mod f.bytes.length f.count
    have hle : f.bytes.length / f.count ≤ f.count * (f.bytes.length / f.count) :=
      Nat.le_mul_of_pos_left _ hpos
    show fragmentSize f.count f.bytes.length i < 2 ^ 64
    rw [fragmentSize_eq hpos hsz]
    split_ifs <;> omega

theorem backup_mem (i : ℕ) : f.backup i ∈ f.nodes :=
  holder_mem (Nat.mod_lt _ (by have := h.two_le; omega))

theorem mem_table {e : XFragmentNetworkPointer} (he : e ∈ f.table) :
    ∃ i < f.count, e.fragment = i + 1 ∧ e.size = f.pieceSize i ∧ e.nodeId ∈ f.nodes := by
  obtain ⟨i, hi, rfl | rfl⟩ := mem_pairs.mp he
  · exact ⟨i, hi, rfl, rfl, holder_mem (hi.trans_le (count_bounds h.two_le).2)⟩
  · exact ⟨i, hi, rfl, rfl, h.backup_mem i⟩

end StoredBy

/-- An entry of the table can be read out of the file and stored. -/
structure Covers (f : StoredFile) (e : XFragmentNetworkPointer) : Prop where
  storable : Storable e
  size_lt : e.size < 2 ^ 31
  inside : (e.fragment - 1) * (f.bytes.length / f.count) + e.size ≤ f.bytes.length
  node : e.nodeId ∈ f.nodes

theorem Covers.piece_length {e : XFragmentNetworkPointer} (h : f.Covers e) :
    (f.piece e).length = e.size := slice_length h.inside

theorem StoredBy.covers (h : f.StoredBy c) (hN : c.N ≤ 254) {e : XFragmentNetworkPointer}
    (he : e ∈ f.table) : f.Covers e := by
  obtain ⟨i, hi, hf, hs, hnode⟩ := h.mem_table he
  have hbound := (count_bounds h.two_le).2
  have hle := h.length_nodes_le
  have hsz : f.bytes.length < 2 ^ 31 := h.uploadable.size_lt
  have hin := fragment_inside hsz hi
  rw [← pieceSize, ← hs] at hin
  refine ⟨⟨by omega, by omega, by omega⟩, by omega, ?_, hnode⟩
  rw [hf, Nat.add_sub_cancel]
  exact hin

/-- What every container of a file says of it. -/
structure Header (f : StoredFile) (id : ℕ) (x : XFileContainer) : Prop where
  fileId : x.fileId = id
  fileName : x.fileName = char200 f.name
  size : x.size = f.bytes.length
  fragmentCountTotal : x.fragmentCountTotal = f.count

theorem StoredBy.fresh_header (h : f.StoredBy c) (hN : c.N ≤ 254) (hid : id < 2 ^ 16) :
    f.Header id (f.fresh id) := by
  have hbound := (count_bounds h.two_le).2
  have hle := h.length_nodes_le
  have hsz : f.bytes.length < 2 ^ 31 := h.uploadable.size_lt
  exact ⟨u16_of_lt hid, strncpy199_char200 h.uploadable.name_ne_zero h.uploadable.name_le,
    u64_of_lt (by omega), u8_of_lt (by omega)⟩

theorem StoredBy.header (h : f.StoredBy c) (hN : c.N ≤ 254) (hid : id < 2 ^ 16) (n : ℕ) :
    f.Header id (f.container id n) := by
  obtain ⟨h1, h2, h3, h4⟩ := fillContainer_ids f.piece (f.fresh id) (heldEntries f.table n)
  have hfresh := h.fresh_header hN hid
  exact ⟨h1.trans hfresh.fileId, h2.trans hfresh.fileName, h3.trans hfresh.size,
    h4.trans hfresh.fragmentCountTotal⟩

theorem StoredBy.fresh_fresh (h : f.StoredBy c) (hN : c.N ≤ 254) (hid : id < 2 ^ 16) :
    freshContainer (f.fresh id).fileName (f.fresh id).fileId (f.fresh id).size
      (f.fresh id).fragmentCountTotal = f.fresh id := by
  obtain ⟨h1, h2, h3, h4⟩ := h.fresh_header hN hid
  rw [h1, h2, h3, h4]
  rfl

/-- What is said of a fragment fits its packet. -/
theorem Covers.fits {e : XFragmentNetworkPointer} (h : f.Covers e) (id i : ℕ) :
    (xreqfragcreationNew (f.fresh id) e i).Fits :=
  ⟨char200_length _, Nat.mod_lt _ (by norm_num),
    lt_of_lt_of_le (Nat.mod_lt _ (by norm_num) : u16 id < 2 ^ 16) (by norm_num),
    Nat.mod_lt _ (by norm_num), Nat.mod_lt _ (by norm_num),
    lt_of_lt_of_le h.storable.fragment (by norm_num), h.storable.size⟩

theorem Covers.fansOut {e : XFragmentNetworkPointer} (h : f.Covers e) :
    FansOut f.bytes ((f.bytes.length / f.count : ℕ) : ℤ) f.piece e :=
  ⟨h.storable, h.size_lt, h.piece_length, readBuffer_eq h.storable.pos h.inside⟩

end StoredFile

end DSS
