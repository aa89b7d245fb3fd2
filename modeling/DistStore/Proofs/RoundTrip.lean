import DistStore.Proofs.StoreRead

/-! Store, then retrieve, while all nodes are there. The index asks the first holder of every fragment;
whatever reaches the gateway writes one fragment of the file back at its own place, so the order does not
matter. -/

namespace DSS

namespace Cluster

variable {c : Cluster} {u : Upload} {us : List Upload}

/-- A file that was stored while all nodes were there. -/
def storedFile (c : Cluster) (u : Upload) : StoredFile := ⟨u.1, u.2, c.nodes⟩

def storeOf (c : Cluster) (us : List Upload) : FileStore := ⟨us.map c.storedFile, c.nodes⟩

theorem storedFile_storedBy (hu : Uploadable u) : (c.storedFile u).StoredBy c where
  uploadable := hu
  nodes := List.Sublist.refl _
  two_le := by rw [storedFile, c.nodes_length]; exact c.two_le

theorem getElem?_storeOf {j : ℕ} (hj : us[j]? = some u) :
    (c.storeOf us).files[j]? = some (c.storedFile u) := by
  rw [storeOf, List.getElem?_map, hj, Option.map_some]

/-- Where the names differ, every file is found by its own. -/
theorem find_storeOf (hnames : (us.map Prod.fst).Nodup) (hu : u ∈ us) :
    (c.storeOf us).find u.1 = some (c.storedFile u) := by
  have hkeys : ((c.storeOf us).files.map StoredFile.name).Nodup := by
    rw [storeOf, List.map_map]
    exact hnames
  exact Keyed.get_of_mem hkeys (List.mem_map_of_mem hu)

/-- Any sequence of uploads goes through, and leaves every fragment where it belongs. -/
theorem uploads_stored (hN : c.N ≤ 254) {sv : Server} (hready : c.IndexReady sv)
    (hus : ∀ u ∈ us, Uploadable u) (hlen : us.length ≤ FILE_SERVER_MAX_FILES) :
    ∃ nw, Network.uploads c sv us = some nw ∧ c.Stored (c.storeOf us) nw := by
  induction us using List.reverseRecOn with
  | nil => exact ⟨_, rfl, Stored.empty hready⟩
  | append_singleton us u ih =>
    rw [List.length_append, List.length_singleton] at hlen
    obtain ⟨nw, hrun, hst⟩ := ih (fun v hv => hus v (by simp [hv])) (by omega)
    have hnext : (c.storeOf us).files.length < FILE_SERVER_MAX_FILES := by
      rw [storeOf, List.length_map]
      omega
    obtain ⟨nw', hup, hst'⟩ := hst.upload hN (hus u (by simp)) hnext
    have hafter : (c.storeOf us).after (.upload u) = c.storeOf (us ++ [u]) := by
      rw [storeOf, storeOf, List.map_append]
      rfl
    refine ⟨nw', ?_, hafter ▸ hst'⟩
    rw [Network.uploads, List.foldlM_append, ← Network.uploads, hrun]
    simpa using hup

/-- While all nodes are there, whoever is asked is there. -/
theorem asked_storeOf (hu : Uploadable u) {i : ℕ} (hi : i < (c.storedFile u).count) :
    (c.storeOf us).asked (c.storedFile u) i ∈ (c.storeOf us).alive := by
  have hst := storedFile_storedBy (c := c) hu
  rw [FileStore.asked]
  split_ifs
  · exact StoredFile.holder_mem (hi.trans_le (StoredFile.count_bounds hst.two_le).2)
  · exact hst.backup_mem i

end Cluster

/-- Whatever was uploaded, through whichever gateway it is asked for and in whatever
order the deliveries reach it, the client gets the bytes that were uploaded. -/
theorem store_then_retrieve {c : Cluster} (hN : c.N ≤ 254) {sv : Server} (hready : c.IndexReady sv)
    {us : List Upload} (hus : ∀ u ∈ us, Uploadable u) (hnames : (us.map Prod.fst).Nodup)
    (hlen : us.length ≤ FILE_SERVER_MAX_FILES) :
    ∃ nw, Network.uploads c sv us = some nw ∧
      ∀ u ∈ us, ∀ g, 1 ≤ g → g < c.N → ∀ (server : ℕ → Server) (req : XPacket),
        (XRequestFile.ofContent (content req)).name = char200 u.1 →
        ∃ fc res frags orders arrivals,
          typeRequestFileIndex nw.index (nw.fs c.N) req = some (fc, res) ∧
          serverIndexRequestFragments nw.index nw.fnetidx fc.fileId fc.fragmentCountTotal g =
            some (frags, orders) ∧
          (∀ e ∈ frags, ∃ x, (nw.fs e.nodeId).found fc.fileId = some x ∧
            (x.fragments0.fragmentId = e.fragment ∨ x.fragments1.fragmentId = e.fragment)) ∧
          orders.map (Network.carryOut c nw server g) = arrivals.map some ∧
          ∀ order : List Arrival, order.Perm arrivals →
            ∃ st, order.foldlM (serverWaitRequestFragments (nw.fs g)) (typeRequestFileGateway res) =
              some st ∧ bufferToClient st = some u.2 := by
  obtain ⟨nw, hrun, hst⟩ := Cluster.uploads_stored hN hready hus hlen
  refine ⟨nw, hrun, fun u hmem g h1 hg server req hreq => ?_⟩
  have hu := hus u hmem
  obtain ⟨j, fc, hj, hanswer, hid, hcount⟩ := hst.requested hN hu.name_ne_zero hu.name_le hreq
    (Cluster.find_storeOf hnames hmem)
  obtain ⟨d, hd, -, hips⟩ := hst.index.indexData
  have hjlen := (List.getElem?_eq_some_iff.mp hj).1
  have hle := hst.length_le
  rw [FILE_SERVER_MAX_FILES] at hle
  -- every order is carried out
  have hbring : ∀ i, i < (c.storedFile u).count → ∃ a, nw.carryOut c server g
      (orderFragment nw.index d (j + 1 : ℕ) g
        ((c.storedFile u).entry i ((c.storeOf us).asked (c.storedFile u) i))) = some a ∧
      (c.storedFile u).Delivers (nw.fs g) (j + 1) i a := by
    intro i hi
    have hone := hst.carryOut hN hj hips (Cluster.mem_nodes.mpr ⟨h1, hg.le⟩) hg.ne server hi
    rwa [if_pos (Cluster.asked_storeOf hu hi)] at hone
  choose! arrival harrival using hbring
  refine ⟨fc, _, _, _, (List.range (c.storedFile u).count).map arrival, hanswer,
    by rw [hid, hcount]; exact hst.requestFragments_eq hN hj hd g, fun e he => ?_, ?_,
    fun order hperm => ?_⟩
  · obtain ⟨i, hi, rfl⟩ := List.mem_map.mp he
    obtain ⟨x, hfound, -, hslot⟩ := hst.stores hN hj (List.mem_range.mp hi)
    refine ⟨x, by rw [hid]; exact hfound, ?_⟩
    have hfrag := congrArg XFileFragment.fragmentId hslot
    split_ifs at hfrag
    · exact .inr hfrag
    · exact .inl hfrag
  · simp only [List.map_map]
    exact List.map_congr_left fun i hi => (harrival i (List.mem_range.mp hi)).1
  · rw [hst.typeRequestFileGateway_eq hN hj]
    exact (Cluster.storedFile_storedBy hu).gathers_all hN (by omega) (fun i hi => (harrival i hi).2) hperm

/-- Three nodes, a file of 200 bytes, asked for through node 2. -/
theorem store_then_retrieve_three_nodes :
    let c := Cluster.boot 3 (by decide) (by decide)
    let u : Upload := ([97], List.replicate 200 7)
    let req := commPacket 0 0 TYPE_REQUEST_FILE (XRequestFile.bytes ⟨char200 [97]⟩) SIZEOF_COMM
    ∃ nw fc res frags orders, ∃ arrivals : List Arrival,
      Network.uploads c c.readyIndex [u] = some nw ∧
      typeRequestFileIndex nw.index (nw.fs 3) req = some (fc, res) ∧
      serverIndexRequestFragments nw.index nw.fnetidx fc.fileId fc.fragmentCountTotal 2 =
        some (frags, orders) ∧
      orders.map (Network.carryOut c nw (fun _ => c.readyIndex) 2) = arrivals.map some ∧
      ∃ st, arrivals.reverse.foldlM (serverWaitRequestFragments (nw.fs 2))
        (typeRequestFileGateway res) = some st ∧ bufferToClient st = some (List.replicate 200 7) := by
  intro c u req
  have hlen : u.2.length = 200 := List.length_replicate
  have hus : ∀ v ∈ [u], Uploadable v := by
    simp only [List.mem_singleton, forall_eq]
    exact ⟨by simp [u], by decide, by decide, by rw [hlen]; norm_num, by rw [hlen]; norm_num⟩
  obtain ⟨nw, hrun, h⟩ := store_then_retrieve (c := c) (by decide) c.readyIndex_ready hus
    (by decide) (by decide)
  obtain ⟨fc, res, frags, orders, arrivals, h1, h2, -, h3, h4⟩ := h u (by simp) 2 (by decide)
    (by decide) (fun _ => c.readyIndex) req (by
      rw [content_commPacket, XRequestFile.ofContent_bytes, char200_of_length (char200_length _)])
  exact ⟨nw, fc, res, frags, orders, arrivals, hrun, h1, h2, h3,
    h4 arrivals.reverse arrivals.reverse_perm⟩

end DSS
