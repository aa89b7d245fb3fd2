import DistStore.Proofs.BalancedPlacement
import DistStore.Proofs.StoredFile

/-! Uploads and deaths in any order: after each of them the index knows the nodes that are left,
and every node stores of each file the fragments that were put on it when the file came. -/

namespace DSS

open Pairs Splice

/-! ## The index -/

/-- `sv` is node `N` as index, and knows the nodes that are left. -/
structure Cluster.LiveIndex (c : Cluster) (alive : List ℕ) (sv : Server) : Prop where
  nodeId : sv.me.nodeId = c.N
  index : sv.index.nodeId = c.N
  netSize : sv.netSize = alive.length
  deathCount : sv.deathCount = c.N - alive.length
  indexData : ∃ d, sv.indexData = some d ∧ d.knownPeers = c.N - 1 ∧
    ∀ n, 1 ≤ n → n < c.N → d.peerIp n = if n ∈ alive then c.addr n else Address.zero

/-- The nodes that are left: the index, and another one at least. -/
structure Cluster.Left (c : Cluster) (alive : List ℕ) : Prop where
  nodes : alive.Sublist c.nodes
  index : c.N ∈ alive
  two_le : 2 ≤ alive.length

namespace Cluster.Left

variable {c : Cluster} {alive : List ℕ}

theorem nodes_left (c : Cluster) : c.Left c.nodes where
  nodes := List.Sublist.refl _
  index := mem_nodes.mpr ⟨by have := c.two_le; omega, le_rfl⟩
  two_le := by rw [c.nodes_length]; exact c.two_le

theorem length_le (h : c.Left alive) : alive.length ≤ c.N := by
  rw [← c.nodes_length]
  exact h.nodes.length_le

theorem eq_filter (h : c.Left alive) : c.nodes.filter (· ∈ alive) = alive := by
  have hsub : (c.nodes.filter (· ∈ alive)).Pairwise (· < ·) :=
    c.nodes_sorted.sublist List.filter_sublist
  have hsorted := c.nodes_sorted.sublist h.nodes
  have hperm : (c.nodes.filter (· ∈ alive)).Perm alive := by
    rw [List.perm_ext_iff_of_nodup (hsub.imp fun h => h.ne) (hsorted.imp fun h => h.ne)]
    intro n
    rw [List.mem_filter, decide_eq_true_eq]
    exact and_iff_right_of_imp fun hn => h.nodes.subset hn
  exact hperm.eq_of_pairwise' hsub hsorted

theorem nodup (h : c.Left alive) : alive.Nodup :=
  (c.nodes_sorted.sublist h.nodes).imp fun h => h.ne

theorem bounds (h : c.Left alive) {n : ℕ} (hn : n ∈ alive) : 1 ≤ n ∧ n ≤ c.N :=
  mem_nodes.mp (h.nodes.subset hn)

/-- One of the others is gone. -/
theorem length_without (h : c.Left alive) {dead : ℕ} (hd : dead ∈ alive) :
    (alive.filter (· ≠ dead)).length = alive.length - 1 := by
  have herase : alive.erase dead = alive.filter (· ≠ dead) := by
    rw [h.nodup.erase_eq_filter]
    exact List.filter_congr fun n _ => by simp [bne, beq_eq_decide]
  rw [← herase, List.length_erase_of_mem hd]

theorem without (h : c.Left alive) (h3 : 3 ≤ alive.length) {dead : ℕ} (hd : dead ∈ alive)
    (hne : dead ≠ c.N) : c.Left (alive.filter (· ≠ dead)) where
  nodes := List.filter_sublist.trans h.nodes
  index := List.mem_filter.mpr ⟨h.index, decide_eq_true hne.symm⟩
  two_le := by
    rw [h.length_without hd]
    omega

end Cluster.Left

namespace Cluster.LiveIndex

variable {c : Cluster} {alive : List ℕ} {sv : Server}

theorem of_ready (h : c.IndexReady sv) : c.LiveIndex c.nodes sv where
  nodeId := h.nodeId
  index := h.index
  netSize := by rw [h.netSize, c.nodes_length]
  deathCount := by rw [h.deathCount, c.nodes_length, Nat.sub_self]
  indexData := by
    obtain ⟨d, hd, hknown, -, hips⟩ := h.indexData
    refine ⟨d, hd, hknown, fun n h1 hn => ?_⟩
    rw [hips n h1 hn, if_pos (mem_nodes.mpr ⟨h1, hn.le⟩)]

theorem liveNode_iff (hl : c.Left alive) {d : XIndexData}
    (hips : ∀ n, 1 ≤ n → n < c.N → d.peerIp n = if n ∈ alive then c.addr n else Address.zero)
    {n : ℕ} (h1 : 1 ≤ n) (hn : n ≤ c.N) : liveNode d c.N n = decide (n ∈ alive) := by
  rw [liveNode]
  refine decide_eq_decide.mpr ?_
  rcases Nat.eq_or_lt_of_le hn with rfl | hlt
  · exact iff_of_true (.inl rfl) hl.index
  · rw [hips n h1 hlt]
    split_ifs with hmem
    · exact iff_of_true (.inr (c.port_ne_zero n h1 hn)) hmem
    · exact iff_of_false (not_or.mpr ⟨hlt.ne, not_not.mpr rfl⟩) hmem

theorem liveNodes_eq (hl : c.Left alive) {d : XIndexData}
    (hips : ∀ n, 1 ≤ n → n < c.N → d.peerIp n = if n ∈ alive then c.addr n else Address.zero) :
    liveNodes d c.N = alive := by
  refine Eq.trans (List.filter_congr fun n hn => ?_) hl.eq_filter
  obtain ⟨h1, hn⟩ := mem_nodes.mp hn
  exact liveNode_iff hl hips h1 hn

theorem placementState (h : c.LiveIndex alive sv) (hl : c.Left alive) (hN : c.N ≤ 254)
    {d : XIndexData} (hd : sv.indexData = some d) : PlacementState sv d c.N := by
  obtain ⟨d', hd', hknown, hips⟩ := h.indexData
  obtain rfl : d' = d := Option.some.inj (hd'.symm.trans hd)
  have hle := hl.length_le
  exact ⟨h.nodeId, by rw [h.netSize, h.deathCount]; omega, hN, hd, hknown,
    by rw [liveNodes_eq hl hips, h.netSize], by rw [h.netSize]; exact hl.two_le⟩

theorem isValid (h : c.LiveIndex alive sv) (hl : c.Left alive) {n : ℕ} (h1 : 1 ≤ n)
    (hn : n ≤ c.N) : serverIsValidNode sv n = decide (n ∈ alive) := by
  obtain ⟨d, hd, -, hips⟩ := h.indexData
  rw [← liveNode_iff hl hips h1 hn, serverIsValidNode, if_neg (by omega), h.nodeId, hd, liveNode]
  by_cases hlast : n = c.N
  · simp [hlast]
  · simp [hlast]

theorem notice (h : c.LiveIndex alive sv) (hl : c.Left alive) (h3 : 3 ≤ alive.length)
    {p : XPacket} (htype : commType p = TYPE_PEER_DIED) (hmem : noticeOf p ∈ alive)
    (dial : Address → Option ℕ) :
    ∃ r, xprocedureCheckPeerB dial sv p = some r ∧
      c.LiveIndex (alive.filter (· ≠ noticeOf p)) r.sv := by
  have hle := hl.length_le
  have hlt := c.N_lt
  have hlen := hl.length_without hmem
  obtain ⟨hd1, hdN⟩ := hl.bounds hmem
  have hdec : dec64 sv.netSize = alive.length - 1 := by
    rw [h.netSize, dec64_of_pos (by omega) (by omega)]
  have hinc : inc64 sv.deathCount = c.N - (alive.length - 1) := by
    rw [h.deathCount, inc64]
    omega
  obtain ⟨r, hr⟩ : ∃ r, peerDiedNeighbour dial
      { sv with netSize := dec64 sv.netSize, deathCount := inc64 sv.deathCount } p = some r := by
    rw [peerDiedNeighbour]
    dsimp only
    split_ifs with hf h0
    · omega
    · exact ⟨_, rfl⟩
    · exact ⟨_, rfl⟩
  obtain ⟨hme, -, hnet, hdeath, hindex, hdata⟩ := peerDiedNeighbour_frame hr
  dsimp only at hme hnet hdeath hindex hdata
  have hisIndex : serverIsIndex r.sv = true := by
    simp [serverIsIndex, hme, hindex, h.index, h.nodeId]
  refine ⟨⟨peerDiedIndex r.sv (noticeOf p), r.sent⟩, ?_, ?_⟩
  · simp only [xprocedureCheckPeerB, htype, if_true, hr, Option.bind_eq_bind, Option.bind_some]
    rfl
  obtain ⟨d, hd, hknown, hips⟩ := h.indexData
  rw [peerDiedIndex, if_pos hisIndex]
  refine ⟨by rw [← h.nodeId, ← hme], by rw [← h.index, ← hindex], ?_, ?_,
    forgetPeer (noticeOf p) d, ?_, hknown, fun n h1 hn => ?_⟩
  · exact hnet.trans (hdec.trans hlen.symm)
  · rw [hlen]
    exact hdeath.trans hinc
  · rw [hdata, hd]
    rfl
  · rw [peerIp_forgetPeer hd1 h1, hips n h1 hn]
    simp only [List.mem_filter, decide_eq_true_eq]
    by_cases heq : n = noticeOf p <;> simp [heq]

end Cluster.LiveIndex

/-! ## The network -/

/-- A transmission of the fan-out of `f`: a fragment for a node that had to be there. -/
structure StoredFile.Sends (f : StoredFile) (c : Cluster) (sv : Server) (t : FragmentTransmission) :
    Prop where
  packet : ∃ frag, t.packet = xpacketSendFragment sv frag ∧ frag.Fits ∧ frag.fragSize = t.raw.length
  node : ∃ n ∈ f.nodes, c.nodeAt t.dest = some n
  size : ∃ i < f.count, t.raw.length = f.pieceSize i

theorem Network.upload_eq_some {c : Cluster} {nw : Network} {file : Upload} {fs1 fs2 : XFileServer}
    {net : XFileNetworkIndex} {slot : ℕ} {sent : List FragmentTransmission}
    (hplaced : serverIndexHandleNewFile nw.index (nw.fs c.N) nw.fnetidx
      ⟨char200 file.1, file.2.length⟩ file.2.length = some (fs1, net, slot))
    (hfan : serverIndexFanoutFragments nw.index fs1 net slot file.2 = some (fs2, sent)) :
    nw.upload c file =
      some ⟨nw.index, sent.foldl (deliver c) (Function.update nw.fs c.N fs2), net⟩ := by
  simp only [Network.upload, hplaced, hfan, Option.bind_eq_bind, Option.bind_some]
  rfl

namespace Cluster

/-- What a run is made of: a file that arrives, while the store has a slot for it; the notice that
names a node which is still there, as long as two nodes remain. It names neither the index nor the node
before it, whose death nobody tells the index. -/
def Allowed (c : Cluster) (op : NetworkOp) (s : FileStore) : Prop :=
  match op with
  | .upload file => StoredFile.Arrives ⟨file.1, file.2, s.alive⟩ ∧ s.files.length < FILE_SERVER_MAX_FILES
  | .notice _ p => commType p = TYPE_PEER_DIED ∧ noticeOf p ∈ s.alive ∧ noticeOf p ≠ c.N ∧
      noticeOf p ≠ c.N - 1 ∧ 3 ≤ s.alive.length

theorem Allowed.arrives {c : Cluster} {op : NetworkOp} {s : FileStore} (hop : c.Allowed op s)
    (h : ∀ f ∈ s.files, f.Arrives) : ∀ f ∈ (s.after op).files, f.Arrives := by
  cases op with
  | upload file =>
    intro f hf
    rcases List.mem_append.mp hf with hf | hf
    · exact h f hf
    · rw [List.mem_singleton.mp hf]
      exact hop.1
  | notice dial p => exact h

def AllowedRun (c : Cluster) (ops : List NetworkOp) : Prop :=
  Transition.Along (fun s op => some (FileStore.after s op)) c.Allowed (FileStore.empty c) ops

/-- Whatever a run has stored has arrived. -/
theorem AllowedRun.arrives {c : Cluster} {ops : List NetworkOp} (hops : c.AllowedRun ops) :
    ∀ f ∈ ((FileStore.empty c).afterAll ops).files, f.Arrives := by
  have hrun : ∀ (s : FileStore) (ops : List NetworkOp),
      Transition.run (fun s op => some (FileStore.after s op)) s ops = some (s.afterAll ops) := by
    intro s ops
    induction ops generalizing s with
    | nil => rfl
    | cons op ops ih => exact Transition.run_cons.mpr ⟨s.after op, rfl, ih _⟩
  refine Transition.along_invariant (P := fun s : FileStore => ∀ f ∈ s.files, f.Arrives)
    (fun s op s' hs hop hstep => ?_) (by simp [FileStore.empty]) hops (hrun _ ops)
  obtain rfl := Option.some.inj hstep
  exact hop.arrives hs

/-- The network has the files of `s`, numbered from one in their order. -/
structure Stored (c : Cluster) (s : FileStore) (nw : Network) : Prop where
  left : c.Left s.alive
  index : c.LiveIndex s.alive nw.index
  stored : ∀ f ∈ s.files, f.StoredBy c
  length_le : s.files.length ≤ FILE_SERVER_MAX_FILES
  own : (nw.fs c.N).files = s.files.mapIdx fun i f => f.container (i + 1) c.N
  table : ∀ id, 1 ≤ id → id < 2 ^ 16 → nw.fnetidx.found id =
    s.files[id - 1]?.map fun f => ⟨id, 2 * f.count, f.table⟩
  files : ∀ n, 1 ≤ n → n ≤ c.N → ∀ id, (nw.fs n).files.filter (·.fileId = id) =
    if id = 0 then [] else (s.files[id - 1]?.map fun f => f.held c.N id n).getD []

namespace Stored

variable {c : Cluster} {s : FileStore} {nw : Network}

theorem empty {sv : Server} (hready : c.IndexReady sv) :
    c.Stored (FileStore.empty c) (Network.empty sv) where
  left := Left.nodes_left c
  index := LiveIndex.of_ready hready
  stored := by simp [FileStore.empty]
  length_le := Nat.zero_le _
  own := rfl
  table id _ _ := by
    simp [FileStore.empty, Network.empty, xfilenetindexInit, XFileNetworkIndex.found,
      xfilenetindexFindFile]
  files n _ _ id := by simp [FileStore.empty, Network.empty, xfileserverInit]

theorem fileCount (h : c.Stored s nw) : (nw.fs c.N).fileCount = s.files.length := by
  rw [XFileServer.fileCount, h.own, List.length_mapIdx]

/-- Every container is that of a file. -/
theorem mem_files (h : c.Stored s nw) {n : ℕ} (h1 : 1 ≤ n) (hn : n ≤ c.N) {x : XFileContainer}
    (hx : x ∈ (nw.fs n).files) :
    ∃ j f, x.fileId = j + 1 ∧ s.files[j]? = some f ∧ x ∈ f.held c.N (j + 1) n := by
  have hmem : x ∈ (nw.fs n).files.filter (·.fileId = x.fileId) := List.mem_filter.mpr ⟨hx, by simp⟩
  rw [h.files n h1 hn] at hmem
  split_ifs at hmem with h0
  · exact absurd hmem List.not_mem_nil
  · obtain ⟨j, hj⟩ := Nat.exists_eq_succ_of_ne_zero h0
    rw [hj, Nat.succ_sub_one] at hmem
    rcases hf : s.files[j]? with _ | f
    · simp [hf] at hmem
    · exact ⟨j, f, hj, hf, by simpa [hf] using hmem⟩

theorem found (h : c.Stored s nw) {n : ℕ} (h1 : 1 ≤ n) (hn : n ≤ c.N) {i : ℕ} {f : StoredFile}
    (hf : s.files[i]? = some f) : (nw.fs n).found (i + 1) = (f.held c.N (i + 1) n).head? := by
  rw [XFileServer.found_eq, Keyed.get, ← List.head?_filter, h.files n h1 hn, if_neg (by omega),
    Nat.add_sub_cancel, hf]
  rfl

theorem found_of_held (h : c.Stored s nw) {n : ℕ} (h1 : 1 ≤ n) (hn : n ≤ c.N) {i : ℕ} {f : StoredFile}
    (hf : s.files[i]? = some f) (hne : heldEntries f.table n ≠ []) :
    (nw.fs n).found (i + 1) = some (f.container (i + 1) n) := by
  rw [h.found h1 hn hf, StoredFile.held, if_pos (.inr hne)]
  rfl

theorem storedBy (h : c.Stored s nw) {file : Upload} (hu : Uploadable file) :
    StoredFile.StoredBy ⟨file.1, file.2, s.alive⟩ c := ⟨hu, h.left.nodes, h.left.two_le⟩

theorem placed (h : c.Stored s nw) (hN : c.N ≤ 254) (name bytes : List UInt8)
    (hid : s.files.length + 1 < 2 ^ 16) {f : StoredFile} (hf : f = ⟨name, bytes, s.alive⟩) :
    serverIndexHandleNewFile nw.index (nw.fs c.N) nw.fnetidx ⟨char200 name, bytes.length⟩
        bytes.length =
      some (⟨(nw.fs c.N).files ++ [f.fresh (s.files.length + 1)]⟩, xfilenetindexAddFile nw.fnetidx
        ⟨s.files.length + 1, 2 * f.count, f.table⟩, s.files.length) := by
  obtain ⟨d, hd, -, hips⟩ := h.index.indexData
  have hcount : placedFragments nw.index bytes.length = f.count := by
    rw [placedFragments, h.index.netSize, hf]
    rfl
  rw [(h.index.placementState h.left hN hd).handleNewFile_eq, h.fileCount, u16_of_lt hid, hcount,
    LiveIndex.liveNodes_eq h.left hips, hf]
  rfl

/-- The fan-out of the file in the last slot: the index keeps its own fragments. -/
theorem fannedOut (h : c.Stored s nw) (hN : c.N ≤ 254) {f : StoredFile} (hf : f.StoredBy c)
    {id : ℕ} (hid : id = s.files.length + 1) (hid16 : id < 2 ^ 16) {d : XIndexData}
    (hd : nw.index.indexData = some d) :
    serverIndexFanoutFragments nw.index ⟨(nw.fs c.N).files ++ [f.fresh id]⟩
        (xfilenetindexAddFile nw.fnetidx ⟨id, 2 * f.count, f.table⟩) s.files.length f.bytes =
      some (⟨(nw.fs c.N).files ++ [f.container id c.N]⟩,
        (f.table.zipIdx.filter fun q => q.1.nodeId ≠ c.N).map
          (fragmentMessage nw.index d f.piece (f.fresh id))) := by
  have hfresh := hf.fresh_header hN hid16
  have hsz : f.bytes.length < 2 ^ 31 := hf.uploadable.size_lt
  have hslot : ((nw.fs c.N).files ++ [f.fresh id])[s.files.length]? = some (f.fresh id) := by
    rw [← h.fileCount]
    exact List.getElem?_concat_length
  have hfound : (xfilenetindexAddFile nw.fnetidx ⟨id, 2 * f.count, f.table⟩).found id =
      some ⟨id, 2 * f.count, f.table⟩ := by
    rw [XFileNetworkIndex.found_addFile, h.table id (by omega) hid16, u16_of_lt hid16,
      List.getElem?_eq_none (by omega)]
    simp
  have hbase : cInt (f.bytes.length / (2 * f.count / REDUNDANCY)) =
      ((f.bytes.length / f.count : ℕ) : ℤ) := by
    rw [REDUNDANCY, Nat.mul_div_cancel_left _ (by norm_num)]
    exact cInt_of_lt (lt_of_le_of_lt (Nat.div_le_self ..) hsz)
  have hfan := foldlM_fansOut nw.index d f.table.zipIdx
    (fun q hq => (hf.covers hN (List.fst_mem_of_mem_zipIdx hq)).fansOut) (f.fresh id) []
  rw [List.zipIdx_map_fst, h.index.nodeId, fanoutFragment] at hfan
  simp only [serverIndexFanoutFragments, serverIndexFanout, hd, hslot, hfresh.fileId, hfound, hfresh.size,
    Option.bind_eq_bind, Option.bind_some, hbase, hfan, List.nil_append]
  refine congrArg (fun fs => some (fs, _)) ?_
  rw [← h.fileCount]
  exact update_append (nw.fs c.N) _ _

/-- An entry of another node: what is sent, and who listens at the address. -/
theorem others (h : c.Stored s nw) (hN : c.N ≤ 254) {f : StoredFile} (hf : f.StoredBy c)
    (hnodes : f.nodes = s.alive) {q : XFragmentNetworkPointer × ℕ}
    (hq : q ∈ f.table.zipIdx.filter fun q => q.1.nodeId ≠ c.N) :
    f.Covers q.1 ∧ q.1.nodeId ∈ s.alive ∧ 1 ≤ q.1.nodeId ∧ q.1.nodeId < c.N := by
  obtain ⟨hmem, hne⟩ := List.mem_filter.mp hq
  have hread := hf.covers hN (List.fst_mem_of_mem_zipIdx hmem)
  have hnode := hnodes ▸ hread.node
  obtain ⟨h1, hn⟩ := h.left.bounds hnode
  exact ⟨hread, hnode, h1, lt_of_le_of_ne hn (by simpa using hne)⟩

/-- The messages of the fan-out reach the nodes that are there. -/
theorem delivered (h : c.Stored s nw) (hN : c.N ≤ 254) {f : StoredFile} (hf : f.StoredBy c)
    (hnodes : f.nodes = s.alive) {id : ℕ} (hid : id = s.files.length + 1) (hid16 : id < 2 ^ 16)
    {d : XIndexData}
    (hips : ∀ n, 1 ≤ n → n < c.N → d.peerIp n = if n ∈ s.alive then c.addr n else Address.zero)
    (fs : ℕ → XFileServer) (hfs : ∀ n, n ≠ c.N → fs n = nw.fs n) (n : ℕ) :
    ((f.table.zipIdx.filter fun q => q.1.nodeId ≠ c.N).map
        (fragmentMessage nw.index d f.piece (f.fresh id))).foldl (Network.deliver c) fs n =
      if n = c.N then fs n
      else withEntries (nw.fs n) f.piece (f.fresh id) (heldEntries f.table n) := by
  have hothers := fun q => h.others hN hf hnodes (q := q)
  rw [foldl_deliver_fresh nw.index (hf.fresh_fresh hN hid16)]
  · split_ifs with hn
    · have hnone : heldEntries ((f.table.zipIdx.filter fun q => q.1.nodeId ≠ c.N).map Prod.fst) n =
          [] := by
        rw [heldEntries, List.filter_eq_nil_iff]
        intro e he
        obtain ⟨q, hq, rfl⟩ := List.mem_map.mp he
        simpa [hn] using (hothers q hq).2.2.2.ne
      rw [hnone, withEntries, if_pos rfl]
    · rw [hfs n hn, heldEntries_others _ hn, List.zipIdx_map_fst]
  · intro q hq
    exact (hothers q hq).1.fits id q.2
  · intro q hq
    obtain ⟨-, hnode, h1, hlt⟩ := hothers q hq
    rw [hips _ h1 hlt, if_pos hnode, nodeAt_addr h1 hlt.le]
  · intro q hq y hy
    obtain ⟨-, -, h1, hlt⟩ := hothers q hq
    rw [hfs _ hlt.ne] at hy
    obtain ⟨j, g, hj, hg, -⟩ := h.mem_files h1 hlt.le hy
    have := (List.getElem?_eq_some_iff.mp hg).1
    rw [(hf.fresh_header hN hid16).fileId]
    omega

/-- What is sent when the next file is fanned out: one fragment each, to a node that is there. -/
theorem sentOut (h : c.Stored s nw) (hN : c.N ≤ 254) {file : Upload} (hu : Uploadable file)
    (hid16 : s.files.length + 1 < 2 ^ 16) {f : StoredFile} (hf : f = ⟨file.1, file.2, s.alive⟩) :
    ∃ fs1 net slot fs2 sent,
      serverIndexHandleNewFile nw.index (nw.fs c.N) nw.fnetidx ⟨char200 file.1, file.2.length⟩
        file.2.length = some (fs1, net, slot) ∧
      serverIndexFanoutFragments nw.index fs1 net slot file.2 = some (fs2, sent) ∧
      ∀ t ∈ sent, f.Sends c nw.index t := by
  have hst : f.StoredBy c := hf ▸ h.storedBy hu
  obtain ⟨d, hd, -, hips⟩ := h.index.indexData
  have hfan := h.fannedOut hN hst rfl hid16 hd
  rw [show f.bytes = file.2 by rw [hf]] at hfan
  refine ⟨_, _, _, _, _, h.placed hN file.1 file.2 hid16 hf, hfan, fun t ht => ?_⟩
  obtain ⟨q, hq, rfl⟩ := List.mem_map.mp ht
  obtain ⟨hread, halive, h1, hlt⟩ := h.others hN hst (by rw [hf]) hq
  obtain ⟨i, hi, -, hsize, -⟩ := hst.mem_table (List.fst_mem_of_mem_zipIdx (List.mem_filter.mp hq).1)
  refine ⟨⟨_, rfl, hread.fits _ _, hread.piece_length.symm⟩, ⟨q.1.nodeId, hread.node, ?_⟩, i, hi,
    hread.piece_length.trans hsize⟩
  rw [fragmentMessage, hips _ h1 hlt, if_pos halive, nodeAt_addr h1 hlt.le]

theorem upload_eq (h : c.Stored s nw) (hN : c.N ≤ 254) {file : Upload} (hu : Uploadable file)
    (hid16 : s.files.length + 1 < 2 ^ 16) {f : StoredFile} (hf : f = ⟨file.1, file.2, s.alive⟩) :
    ∃ fs', nw.upload c file = some ⟨nw.index, fs', xfilenetindexAddFile nw.fnetidx
        ⟨s.files.length + 1, 2 * f.count, f.table⟩⟩ ∧
      fs' c.N = ⟨(nw.fs c.N).files ++ [f.container (s.files.length + 1) c.N]⟩ ∧
      ∀ n, n ≠ c.N → fs' n = withEntries (nw.fs n) f.piece (f.fresh (s.files.length + 1))
        (heldEntries f.table n) := by
  have hst : f.StoredBy c := hf ▸ h.storedBy hu
  obtain ⟨d, hd, -, hips⟩ := h.index.indexData
  have hdeliver := h.delivered hN hst (by rw [hf]) rfl hid16 hips
    (Function.update nw.fs c.N ⟨(nw.fs c.N).files ++ [f.container (s.files.length + 1) c.N]⟩)
    (fun n hn => Function.update_of_ne hn ..)
  refine ⟨((f.table.zipIdx.filter fun q => q.1.nodeId ≠ c.N).map
      (fragmentMessage nw.index d f.piece (f.fresh (s.files.length + 1)))).foldl (Network.deliver c)
      (Function.update nw.fs c.N ⟨(nw.fs c.N).files ++ [f.container (s.files.length + 1) c.N]⟩),
    ?_, ?_, fun n hn => ?_⟩
  · have hplaced := h.placed hN file.1 file.2 hid16 hf
    have hfan := h.fannedOut hN hst rfl hid16 hd
    rw [show f.bytes = file.2 by rw [hf]] at hfan
    exact Network.upload_eq_some hplaced hfan
  · rw [hdeliver, if_pos rfl, Function.update_self]
  · rw [hdeliver, if_neg hn]

theorem files_after (fs : XFileServer) (f : StoredFile) (id : ℕ) {n : ℕ} (hn : n ≠ c.N) :
    (withEntries fs f.piece (f.fresh id) (heldEntries f.table n)).files =
      fs.files ++ f.held c.N id n := by
  rw [withEntries, StoredFile.held]
  by_cases hnil : heldEntries f.table n = []
  · rw [if_pos hnil, if_neg (by simp [hn, hnil]), List.append_nil]
  · rw [if_neg hnil, if_pos (.inr hnil)]
    rfl

theorem filter_held {f : StoredFile} (hf : f.StoredBy c) (hN : c.N ≤ 254) {id : ℕ}
    (hid : id < 2 ^ 16) (n k : ℕ) :
    (f.held c.N id n).filter (·.fileId = k) = if id = k then f.held c.N id n else [] := by
  have hhead := (hf.header hN hid n).fileId
  rw [StoredFile.held]
  by_cases hk : id = k
  · subst hk
    rw [if_pos rfl]
    split_ifs <;> simp [hhead]
  · rw [if_neg hk]
    split_ifs <;> simp [hhead, hk]

/-- An upload goes through, and is the next file. -/
theorem upload (h : c.Stored s nw) (hN : c.N ≤ 254) {file : Upload} (hu : Uploadable file)
    (hlen : s.files.length < FILE_SERVER_MAX_FILES) :
    ∃ nw', nw.upload c file = some nw' ∧ c.Stored (s.after (.upload file)) nw' := by
  rw [FILE_SERVER_MAX_FILES] at hlen
  obtain ⟨f, hf⟩ : ∃ f : StoredFile, f = ⟨file.1, file.2, s.alive⟩ := ⟨_, rfl⟩
  have hst : f.StoredBy c := hf ▸ h.storedBy hu
  have hafter : s.after (.upload file) = ⟨s.files ++ [f], s.alive⟩ := by rw [hf]; rfl
  have hid16 : s.files.length + 1 < 2 ^ 16 := by omega
  obtain ⟨fs', hup, hindex, hothers⟩ := h.upload_eq hN hu hid16 hf
  have hstored : ∀ n, (fs' n).files = (nw.fs n).files ++ f.held c.N (s.files.length + 1) n := by
    intro n
    by_cases hn : n = c.N
    · subst hn
      rw [hindex, StoredFile.held, if_pos (.inl rfl)]
    · rw [hothers n hn, files_after _ _ _ hn]
  rw [hafter]
  refine ⟨_, hup, h.left, h.index, ?_, ?_, ?_, fun id h1 hid => ?_, fun n h1 hn id => ?_⟩
  · intro g hg
    rcases List.mem_append.mp hg with hg | hg
    · exact h.stored g hg
    · rwa [List.mem_singleton.mp hg]
  · simp only [List.length_append, List.length_singleton]
    rw [FILE_SERVER_MAX_FILES]
    omega
  · simp only [hindex, h.own, List.mapIdx_append, List.mapIdx_cons, List.mapIdx_nil, Nat.zero_add]
  · simp only [XFileNetworkIndex.found_addFile, h.table id h1 hid, u16_of_lt hid]
    rcases Nat.lt_or_ge (id - 1) s.files.length with hlt | hge
    · rw [List.getElem?_append_left hlt, List.getElem?_eq_getElem hlt]
      rfl
    · rw [List.getElem?_eq_none hge, List.getElem?_append_right hge]
      by_cases he : s.files.length + 1 = id
      · subst he
        simp
      · rw [if_neg he, List.getElem?_eq_none (by rw [List.length_singleton]; omega)]
        rfl
  · simp only [hstored, List.filter_append, filter_held hst hN hid16, h.files n h1 hn]
    rcases Nat.eq_zero_or_pos id with rfl | hpos
    · simp
    rw [if_neg hpos.ne', if_neg hpos.ne']
    rcases Nat.lt_or_ge (id - 1) s.files.length with hlt | hge
    · rw [if_neg (by omega), List.append_nil, List.getElem?_append_left hlt]
    · rw [List.getElem?_eq_none hge, List.getElem?_append_right hge]
      by_cases he : s.files.length + 1 = id
      · subst he
        simp
      · rw [if_neg he, List.getElem?_eq_none (by rw [List.length_singleton]; omega)]
        rfl

theorem notice (h : c.Stored s nw) {dial : Address → Option ℕ} {p : XPacket}
    (hop : c.Allowed (.notice dial p) s) :
    ∃ nw', nw.step c (.notice dial p) = some nw' ∧ c.Stored (s.after (.notice dial p)) nw' := by
  obtain ⟨htype, hmem, hne, -, h3⟩ := hop
  obtain ⟨r, hr, hindex⟩ := h.index.notice h.left h3 htype hmem dial
  refine ⟨{ nw with index := r.sv }, ?_, h.left.without h3 hmem hne, hindex, h.stored,
    h.length_le, h.own, h.table, h.files⟩
  rw [Network.step, Network.takeNotice, hr]
  rfl

theorem step (h : c.Stored s nw) (hN : c.N ≤ 254) {op : NetworkOp} (hop : c.Allowed op s) :
    ∃ nw', nw.step c op = some nw' ∧ c.Stored (s.after op) nw' := by
  cases op with
  | upload file => exact h.upload hN hop.1.uploadable hop.2
  | notice dial p => exact h.notice hop

/-- Along any run of uploads and deaths the network does what the store does. -/
theorem run (hN : c.N ≤ 254) {ops : List NetworkOp} (h : c.Stored s nw)
    (hops : Transition.Along (fun s op => some (FileStore.after s op)) c.Allowed s ops) :
    ∃ nw', Transition.run (Network.step c) nw ops = some nw' ∧ c.Stored (s.afterAll ops) nw' := by
  induction ops generalizing s nw with
  | nil => exact ⟨nw, rfl, h⟩
  | cons op ops ih =>
    obtain ⟨nw1, hstep, h1⟩ := h.step hN hops.1
    obtain ⟨nw2, hrun, h2⟩ := ih h1 (hops.2 _ rfl)
    exact ⟨nw2, Transition.run_cons.mpr ⟨nw1, hstep, hrun⟩, h2⟩

end Stored

end Cluster

end DSS
