import DistStore.Model.Network
import DistStore.Model.PeerTable
import DistStore.Proofs.Placement

/-! The placement loop of the index while all nodes are alive: it never skips a
peer, takes the first two candidates for each fragment, and so builds
`placedTable` over the nodes `1..N`. -/

namespace DSS

open Pairs

def Cluster.fragcount (c : Cluster) (sz : ℕ) : ℕ :=
  if sz ≤ c.N ∨ sz ≤ MINIMAL_SIZE_FOR_SPLIT then 1 else c.N

/-- The size of fragment `i + 1`, as the table has it. -/
def fragmentSize (fc sz i : ℕ) : ℕ :=
  toU64 (if i + 1 = fc then cInt (sz / fc) + cInt (sz % fc) else cInt (sz / fc))

theorem foldl_placeFragment_pairs {sv : Server} {d : XIndexData} {fc : ℕ} {fragsz remain : ℤ}
    {p s : ℕ → XFragmentNetworkPointer} {m : ℕ}
    (hround : ∀ i < m, ∀ fragments,
      placeReplicas sv i (startNode d i) (if i + 1 = fc then fragsz + remain else fragsz)
        (d.knownPeers + 1) 0 0 fragments = (fragments.set (2 * i) (p i)).set (2 * i + 1) (s i)) :
    (List.range m).foldl (placeFragment sv d fc fragsz remain)
        (0, pairs (fun _ => .zero) (fun _ => .zero) fc) =
      (offsetBefore d m, pairs (fun i => if i < m then p i else .zero)
        (fun i => if i < m then s i else .zero) fc) := by
  induction m with
  | zero => simp [offsetBefore]
  | succ m ih =>
    have hupdate : ∀ f : ℕ → XFragmentNetworkPointer,
        Function.update (fun i => if i < m then f i else .zero) m (f m) =
          fun i => if i < m + 1 then f i else .zero := fun f => by
      funext i
      by_cases hi : i = m
      · rw [hi, Function.update_self, if_pos m.lt_succ_self]
      · rw [Function.update_of_ne hi]
        simp only [show i < m + 1 ↔ i < m by omega]
    rw [List.range_succ, List.foldl_append, ih fun i hi => hround i (by omega), List.foldl_cons,
      List.foldl_nil, placeFragment]
    show (offsetBefore d (m + 1), placeReplicas sv m (startNode d m) _ _ 0 0 _) = _
    rw [hround m m.lt_succ_self, pairs_set_even, pairs_set_odd, hupdate, hupdate]

section ready

variable {c : Cluster} {sv : Server}

theorem Cluster.nodes_length (c : Cluster) : c.nodes.length = c.N := by
  rw [nodes, List.length_range']

theorem Cluster.nodes_getD {c : Cluster} {i : ℕ} (h : i < c.N) : c.nodes.getD i 0 = i + 1 := by
  rw [List.getD_eq_getElem _ _ (by rwa [c.nodes_length])]
  simp [nodes, Nat.add_comm]

theorem Cluster.mem_nodes {c : Cluster} {n : ℕ} : n ∈ c.nodes ↔ 1 ≤ n ∧ n ≤ c.N := by
  rw [nodes, List.mem_range'_1]
  omega

theorem Cluster.nodeAt_addr {c : Cluster} {n : ℕ} (h1 : 1 ≤ n) (hn : n ≤ c.N) : c.nodeAt (c.addr n) = some n := by
  obtain ⟨m, hm⟩ : ∃ m, c.nodeAt (c.addr n) = some m := by
    rw [← Option.isSome_iff_exists, nodeAt, List.find?_isSome]
    exact ⟨n, mem_nodes.mpr ⟨h1, hn⟩, by simp⟩
  have hmem := mem_nodes.mp (List.mem_of_find?_eq_some hm)
  have haddr : c.addr m = c.addr n := by simpa using List.find?_some hm
  rw [hm, c.addr_inj m n hmem.1 hmem.2 h1 hn haddr]

theorem Cluster.fragcountOf_eq (c : Cluster) (sz : ℕ) :
    fragcountOf c.N sz = (c.fragcount sz : ℤ) := by
  rw [fragcountOf, fragcount]
  split_ifs
  · rfl
  · exact cInt_of_lt c.N_lt

theorem Cluster.fragcount_pos (c : Cluster) (sz : ℕ) : 1 ≤ c.fragcount sz := by
  have := c.two_le
  rw [fragcount]
  split_ifs <;> omega

theorem Cluster.fragcount_le (c : Cluster) (sz : ℕ) : c.fragcount sz ≤ c.N := by
  have := c.two_le
  rw [fragcount]
  split_ifs <;> omega

theorem Cluster.IndexReady.isValid (h : c.IndexReady sv) {n : ℕ} (h1 : 1 ≤ n) (hn : n ≤ c.N) :
    serverIsValidNode sv n = true := by
  obtain ⟨d, hd, -, -, hips⟩ := h.indexData
  rw [serverIsValidNode, if_neg (by omega), hd, h.nodeId]
  by_cases he : n = c.N
  · rw [if_pos he]
  · rw [if_neg he]
    simpa [hips n h1 (by omega)] using c.port_ne_zero n h1 hn

theorem skipDeadPeers_ready {d : XIndexData} (hknown : d.knownPeers = c.N - 1)
    (hips : ∀ n, 1 ≤ n → n < c.N → d.peerIp n = c.addr n) (i : ℕ) :
    skipDeadPeers d i (d.knownPeers - (i + 0)) 0 = 0 := by
  rcases hr : d.knownPeers - (i + 0) with _ | r
  · rfl
  · have hip := hips (i + 1) (by omega) (by omega)
    rw [XIndexData.peerIp, Nat.add_sub_cancel] at hip
    rw [skipDeadPeers, Nat.add_zero, hip, if_neg (c.port_ne_zero _ (by omega) (by omega))]

theorem placeReplicas_ready (h : c.IndexReady sv) (i : ℕ) (fragmentsz : ℤ)
    {r : ℕ} (hr : 2 ≤ r) (fragments : List XFragmentNetworkPointer) :
    placeReplicas sv i i fragmentsz r 0 0 fragments =
      (fragments.set (2 * i) ⟨u16 (i + 1), toU64 fragmentsz, i % c.N + 1⟩).set (2 * i + 1)
        ⟨u16 (i + 1), toU64 fragmentsz, (i + 1) % c.N + 1⟩ := by
  have hN : u64 (sv.netSize + sv.deathCount) = c.N := by
    rw [h.netSize, h.deathCount, Nat.add_zero, u64_of_lt (by have := c.N_lt; omega)]
  have hvalid : ∀ k, serverIsValidNode sv (k % c.N + 1) = true := fun k =>
    h.isValid (by omega) (Nat.mod_lt k (by have := c.two_le; omega))
  obtain ⟨r, rfl⟩ : ∃ r', r = r' + 2 := ⟨r - 2, by omega⟩
  have hdone : ∀ (r tries : ℕ) fr, placeReplicas sv i i fragmentsz r tries 2 fr = fr := fun r _ _ => by
    cases r <;> simp [placeReplicas, REDUNDANCY]
  simp only [placeReplicas, REDUNDANCY, hN, hvalid, if_true, Nat.zero_lt_two, Nat.one_lt_two,
    Nat.add_zero, Nat.zero_add, Nat.reduceAdd, hdone, Nat.mul_comm i 2]

theorem foldl_placeFragment (h : c.IndexReady sv) {d : XIndexData}
    (hknown : d.knownPeers = c.N - 1) (hips : ∀ n, 1 ≤ n → n < c.N → d.peerIp n = c.addr n)
    (fc : ℕ) (fragsz remain : ℤ) (m : ℕ) :
    (List.range m).foldl (placeFragment sv d fc fragsz remain)
        (0, pairs (fun _ => .zero) (fun _ => .zero) fc) =
      (0, pairs
        (fun i => if i < m then
          ⟨u16 (i + 1), toU64 (if i + 1 = fc then fragsz + remain else fragsz), i % c.N + 1⟩ else .zero)
        (fun i => if i < m then
          ⟨u16 (i + 1), toU64 (if i + 1 = fc then fragsz + remain else fragsz), (i + 1) % c.N + 1⟩
          else .zero) fc) := by
  have h2 := c.two_le
  have hoffset : ∀ i, offsetBefore d i = 0 := by
    intro i
    induction i with
    | zero => rfl
    | succ i ih => rw [offsetBefore, ih, skipDeadPeers_ready hknown hips]
  rw [foldl_placeFragment_pairs fun i _ fragments => ?_, hoffset m]
  rw [startNode, hoffset, Nat.add_zero]
  exact placeReplicas_ready h i _ (by omega) fragments

/-- The table the loop leaves for a file of `sz` bytes: fragment numbers are `uint16_t`. -/
def Cluster.newTable (c : Cluster) (sz : ℕ) : List XFragmentNetworkPointer :=
  pairs (fun i => ⟨u16 (i + 1), fragmentSize (c.fragcount sz) sz i, i % c.N + 1⟩)
    (fun i => ⟨u16 (i + 1), fragmentSize (c.fragcount sz) sz i, (i + 1) % c.N + 1⟩) (c.fragcount sz)

theorem Cluster.newTable_eq {c : Cluster} {sz : ℕ} (hfc : c.fragcount sz < 2 ^ 16) :
    c.newTable sz = placedTable c.nodes (fragmentSize (c.fragcount sz) sz) (c.fragcount sz) := by
  have hle := c.fragcount_le sz
  have hpos := c.fragcount_pos sz
  have hmod : ∀ k, k % c.N < c.N := fun k => Nat.mod_lt k (by omega)
  refine pairs_congr (fun i hi => ?_) fun i hi => ?_
  · rw [primaryEntry, Cluster.nodes_getD (by omega), u16_of_lt (by omega),
      Nat.mod_eq_of_lt (by omega)]
  · rw [secondaryEntry, c.nodes_length, Cluster.nodes_getD (hmod _), u16_of_lt (by omega)]

def Cluster.tableEntry (c : Cluster) (id sz : ℕ) : XFileInNetwork :=
  ⟨id, 2 * c.fragcount sz, c.newTable sz⟩

theorem serverIndexHandleNewFile_ready (h : c.IndexReady sv) (fs : XFileServer)
    (net : XFileNetworkIndex) (fc : XRequestFileCreation) (sz : ℕ) :
    serverIndexHandleNewFile sv fs net fc sz = some
      (⟨fs.files ++ [freshContainer fc.name (fs.fileCount + 1) sz (c.fragcount sz)]⟩,
       xfilenetindexAddFile net (c.tableEntry (u16 (fs.fileCount + 1)) sz), fs.fileCount) := by
  obtain ⟨d, hd, hknown, -, hips⟩ := h.indexData
  have hN := c.N_lt
  have hle := c.fragcount_le sz
  have hu : toU64 (c.fragcount sz : ℤ) = c.fragcount sz := toU64_natCast (by omega)
  have hu2 : toU64 ((c.fragcount sz : ℤ) * (REDUNDANCY : ℕ)) = 2 * c.fragcount sz := by
    rw [toU64, REDUNDANCY]
    omega
  have hzero : (xfilenetindexNewFile (fs.fileCount + 1) (2 * c.fragcount sz)).fragments =
      pairs (fun _ => .zero) (fun _ => .zero) (c.fragcount sz) := by
    rw [pairs_const, xfilenetindexNewFile, u64_of_lt (by omega)]
  have htable : ∀ p s : ℕ → XFragmentNetworkPointer,
      pairs (fun i => if i < c.fragcount sz then p i else .zero)
        (fun i => if i < c.fragcount sz then s i else .zero) (c.fragcount sz) =
      pairs p s (c.fragcount sz) := fun p s =>
    pairs_congr (fun i hi => if_pos hi) fun i hi => if_pos hi
  have hdiv : u64 (sv.netSize + sv.deathCount) ≠ 0 := by
    have h2 := c.two_le
    rw [h.netSize, h.deathCount, u64_of_lt (by omega)]
    omega
  simp only [serverIndexHandleNewFile, hd, Option.bind_eq_bind, Option.bind_some, h.netSize,
    c.fragcountOf_eq, hu, hu2, Int.toNat_natCast, hzero, placeFragments_eq hdiv,
    foldl_placeFragment h hknown hips, htable]
  simp only [xfileserverAddFile, xfilenetindexNewFile,
    u64_of_lt (show 2 * c.fragcount sz < 2 ^ 64 by omega)]
  rfl

end ready

/-- `net` is the table of files of the given sizes, numbered from one. -/
def Cluster.Tables (c : Cluster) (sizes : List ℕ) (net : XFileNetworkIndex) : Prop :=
  ∀ id, 1 ≤ id → id < 2 ^ 16 → net.found id = sizes[id - 1]?.map (c.tableEntry id)

namespace Cluster.Tables

variable {c : Cluster} {sizes : List ℕ} {net : XFileNetworkIndex}

theorem init (c : Cluster) : c.Tables [] xfilenetindexInit := fun id _ _ => by
  rw [XFileNetworkIndex.found_eq]
  rfl

theorem snoc (h : c.Tables sizes net) (sz : ℕ) :
    c.Tables (sizes ++ [sz]) (xfilenetindexAddFile net (c.tableEntry (sizes.length + 1) sz)) := by
  intro id h1 hid
  rw [XFileNetworkIndex.found_addFile, h id h1 hid, u16_of_lt hid, Cluster.tableEntry]
  by_cases hlt : id - 1 < sizes.length
  · rw [List.getElem?_append_left hlt, List.getElem?_eq_getElem hlt]
    rfl
  · rw [List.getElem?_eq_none (by omega), List.getElem?_append_right (by omega)]
    by_cases he : sizes.length + 1 = id
    · subst he
      simp [Cluster.tableEntry]
    · rw [if_neg he, List.getElem?_eq_none (by rw [List.length_singleton]; omega)]
      rfl

end Cluster.Tables

end DSS
