import DistStore.Proofs.Failover

/-! The index dies, and the file is read from the node that took over: its table is made of the
reports, and every fragment of every file is asked of a node that is left. -/

namespace DSS

namespace Cluster

variable {c : Cluster} {u : Upload} {us : List Upload} {nw : Network}

/-- The nodes without the index: the last of them is the new one. -/
def survivors (c : Cluster) (h3 : 3 ≤ c.N) : Cluster where
  N := c.N - 1
  addr := c.addr
  two_le := by omega
  N_lt := by have := c.N_lt; omega
  addr_inj m n hm hm' hn hn' := c.addr_inj m n hm (by omega) hn (by omega)
  port_ne_zero n h1 hn := c.port_ne_zero n h1 (by omega)

def takenOver (c : Cluster) (nw : Network) (nd : Node) : Network :=
  ⟨nd.sv, Function.update nw.fs (c.N - 1) nd.fs, nd.fnetidx⟩

theorem takenOver_fs (c : Cluster) (nw : Network) (nd : Node) (n : ℕ) :
    (c.takenOver nw nd).fs n = if n = c.N - 1 then nd.fs else nw.fs n :=
  Function.update_apply ..

/-! ## Who is asked -/

/-- Asked for a file through the gateway `g`, the new index has every fragment brought to it. -/
theorem Stored.read_takenOver (h : c.Stored (c.storeOf us) nw) (h4 : 4 ≤ c.N) (hN : c.N ≤ 254)
    (hus : ∀ u ∈ us, Uploadable u) (hnames : (us.map Prod.fst).Nodup)
    {nd : Node} (hsv : c.NewIndex nd.sv)
    (hrec : c.Recovered us nw nd.fs nd.fnetidx) (hu : u ∈ us) {g : ℕ} (h1 : 1 ≤ g)
    (hg : g < c.N - 1) (server : ℕ → Server) {req : XPacket}
    (hreq : (XRequestFile.ofContent (content req)).name = char200 u.1) :
    ∃ fc res frags orders arrivals, typeRequestFileIndex nd.sv nd.fs req = some (fc, res) ∧
      serverIndexRequestFragments nd.sv nd.fnetidx fc.fileId fc.fragmentCountTotal g =
        some (frags, orders) ∧
      orders.map ((c.takenOver nw nd).carryOut (c.survivors (by omega)) server g) =
        arrivals.map some ∧
      ∀ order : List Arrival, order.Perm arrivals →
        ∃ st, order.foldlM (serverWaitRequestFragments (nw.fs g)) (typeRequestFileGateway res) =
          some st ∧ bufferToClient st = some u.2 := by
  obtain ⟨j, hjlen, hj⟩ := List.mem_iff_getElem.mp hu
  replace hj : us[j]? = some u := by rw [List.getElem?_eq_getElem hjlen, hj]
  have hlen := h.length_le
  rw [FILE_SERVER_MAX_FILES, storeOf, List.length_map] at hlen
  have hid : j + 1 < 2 ^ 16 := by omega
  have hst := storedFile_storedBy (c := c) (hus u hu)
  -- the file is found by name
  obtain ⟨x, hx, hhead⟩ := findByName_of_headers hus hnames hrec.headers hj (hrec.known j u hj)
  obtain ⟨slot, hslot, hget⟩ := Option.bind_eq_some_iff.mp hx
  have hanswer : typeRequestFileIndex nd.sv nd.fs req = some (x,
      xpacketRequestFileResponse nd.sv x.fileId x.size x.fragmentCountTotal) := by
    simp only [typeRequestFileIndex, hreq, hslot, hget, Option.bind_eq_bind, Option.bind_some]
    rfl
  -- and all its fragments are asked of nodes that are left
  obtain ⟨d, hd, hips⟩ := hsv.indexData
  obtain ⟨t, hfound, hrebuilt⟩ := hrec.tables j u hj
  obtain ⟨node, hselect, hnode⟩ := h.chosen h4 hN hsv hrec hj hrebuilt
  have hreqf := serverIndexRequestFragments_eq hd (show j + 1 < 2 ^ 64 by omega) hfound
    (c.storedFile u).count g
  rw [hselect, List.map_map, ← hhead.fileId, ← hhead.fragmentCountTotal, hhead.fileId] at hreqf
  have hat : ∀ n, 1 ≤ n → n ≤ c.N - 2 →
      (c.survivors (by omega)).nodeAt (d.peerIp n) = some n := by
    intro n hn1 hn
    rw [hips n hn1 hn]
    exact nodeAt_addr (c := c.survivors (by omega)) hn1 (show n ≤ c.N - 1 by omega)
  have hgfs : (c.takenOver nw nd).fs g = nw.fs g := by rw [takenOver_fs, if_neg (by omega)]
  have hone : ∀ i, i < (c.storedFile u).count → ∃ a, (c.takenOver nw nd).carryOut (c.survivors (by omega)) server g
      (orderFragment nd.sv d (j + 1 : ℕ) g ((c.storedFile u).entry i (node i))) = some a ∧
        (c.storedFile u).Delivers (nw.fs g) (j + 1) i a := by
    intro i hi
    obtain ⟨hn1, hn, hstores⟩ := hnode i hi
    have hme : (c.takenOver nw nd).index.me.nodeId = (c.survivors (by omega)).N := hsv.me
    rw [← hgfs]
    refine hst.carryOut hN hid hme (by omega) (hat g h1 (by omega)) hi
      (fun _ hne => hat _ hn1 ?_) (by rwa [takenOver_fs]) server
    have hne : node i ≠ c.N - 1 := hne
    omega
  choose! arrival harrival using hone
  refine ⟨x, _, _, _, (List.range (c.storedFile u).count).map arrival, hanswer,
    by rw [hhead.fileId]; exact hreqf, ?_, fun order hperm => ?_⟩
  · rw [hhead.fragmentCountTotal]
    simp only [List.map_map]
    exact List.map_congr_left fun i hi => (harrival i (List.mem_range.mp hi)).1
  · rw [hhead.fileId, hhead.size, hhead.fragmentCountTotal, hst.collecting_start hN hid]
    exact hst.gathers_all hN hid (fun i hi => (harrival i hi).2) hperm

end Cluster

/-- The index died, node `N - 1` took over, and the reports came in any order: whatever was uploaded
is read back through every other node, in whatever order its fragments come. -/
theorem failover_then_retrieve {c : Cluster} (h4 : 4 ≤ c.N) (hN : c.N ≤ 254) {sv : Server}
    (hready : c.IndexReady sv) {us : List Upload} (harrive : ∀ u ∈ us, (c.storedFile u).Arrives)
    (hnames : (us.map Prod.fst).Nodup) (hlen : us.length ≤ FILE_SERVER_MAX_FILES) :
    ∃ nw, Network.uploads c sv us = some nw ∧
      ∀ (server : ℕ → Server) (dial : Address → Option ℕ) (p : XPacket) (knownPeers : ℕ),
        (∀ n, 1 ≤ n → n < c.N → (server n).me = ⟨c.addr n, n⟩) →
        c.NodeReady (c.N - 1) (server (c.N - 1)) →
        commType p = TYPE_PEER_DIED → (XPeerDied.ofContent (content p)).peerId = c.N →
        ∃ sv1 nd1, xprocedureCheckPeerB dial (server (c.N - 1)) p = some ⟨sv1, none⟩ ∧
          serverBeginOperation knownPeers ⟨sv1, nw.fs (c.N - 1), xfilenetindexInit⟩ = some nd1 ∧
          ∀ ps : List XPacket, ps.Perm (c.failoverPackets server nw) →
            ∃ nd2, ps.foldlM receiveKnowledge
                { nd1 with sv := (serverIndexPresentItself nd1.sv).1 } = some nd2 ∧
              ∀ u ∈ us, ∀ g, 1 ≤ g → g < c.N - 1 → ∀ (servers : ℕ → Server) (req : XPacket),
                (XRequestFile.ofContent (content req)).name = char200 u.1 →
                ∃ fc res frags orders arrivals,
                  typeRequestFileIndex nd2.sv nd2.fs req = some (fc, res) ∧
                  serverIndexRequestFragments nd2.sv nd2.fnetidx fc.fileId fc.fragmentCountTotal g =
                    some (frags, orders) ∧
                  orders.map ((c.takenOver nw nd2).carryOut (c.survivors (by omega)) servers g) =
                    arrivals.map some ∧
                  ∀ order : List Arrival, order.Perm arrivals →
                    ∃ st, order.foldlM (serverWaitRequestFragments (nw.fs g))
                        (typeRequestFileGateway res) = some st ∧ bufferToClient st = some u.2 := by
  have hus : ∀ u ∈ us, Uploadable u := fun u hu => (harrive u hu).uploadable
  obtain ⟨nw, hrun, hst⟩ := Cluster.uploads_stored hN hready hus hlen
  refine ⟨nw, hrun, fun server dial p knownPeers hserver hnode ht hp => ?_⟩
  obtain ⟨sv1, hcheck, -, hme, hnet, hdeath⟩ := hnode.check (by omega) dial ht hp
  have hme1 : sv1.me.nodeId = c.N - 1 := by rw [hme, hserver (c.N - 1) (by omega) (by omega)]
  have hbegin := serverBeginOperation_eq (hnet.trans hme1.symm) knownPeers (nw.fs (c.N - 1))
    xfilenetindexInit
  have hall := fun (ps : List XPacket) (hps : ps.Perm (c.failoverPackets server nw)) =>
    hst.saveReports_survivors hN (hst.reports_perm (by omega) hN hserver hps)
  -- every rebuild starts with the new index's own reports
  have hsplit : ∀ ps : List XPacket, ps.Perm (c.failoverPackets server nw) → ∃ st1 fs' net',
      saveReports (nw.fs (c.N - 1), xfilenetindexInit)
        ((nw.fs (c.N - 1)).files.map (reportOf (c.N - 1))) = some st1 ∧
      saveReports st1 (fileReports ps) = some (fs', net') ∧ c.Recovered us nw fs' net' := by
    intro ps hps
    obtain ⟨fs', net', hsave, hrec⟩ := hall ps hps
    rw [saveReports, List.foldlM_append] at hsave
    obtain ⟨st1, hfirst, hrest⟩ := Option.bind_eq_some_iff.mp hsave
    exact ⟨st1, fs', net', hfirst, hrest, hrec⟩
  obtain ⟨st1, -, -, hown, -⟩ := hsplit _ (List.Perm.refl _)
  rw [hme1, hown] at hbegin
  refine ⟨sv1, _, hcheck, hbegin, fun ps hps => ?_⟩
  obtain ⟨st, fs', net', hown', hrest, hrec⟩ := hsplit ps hps
  obtain rfl : st = st1 := Option.some.inj (hown'.symm.trans hown)
  obtain ⟨hnew, -⟩ := Cluster.newIndex_of_packets (by omega) hserver hps hme1 hnet hdeath knownPeers
  rw [foldlM_receiveKnowledge]
  refine ⟨_, congrArg (Option.map _) hrest, fun u hu g h1 hg servers req hreq => ?_⟩
  exact hst.read_takenOver h4 hN hus hnames hnew hrec hu h1 hg servers hreq

/-- Four nodes, a file of 200 bytes; the reports arrive in reverse, the file is read at node 2. -/
theorem failover_then_retrieve_four_nodes :
    let c := Cluster.boot 4 (by decide) (by decide)
    let u : Upload := ([97], List.replicate 200 7)
    let server := fun n => serverInit (c.args n) ⟨4, c.addr 4, none, true⟩
    let req := commPacket 0 0 TYPE_REQUEST_FILE (XRequestFile.bytes ⟨char200 [97]⟩) SIZEOF_COMM
    ∃ nw sv1 nd1 nd2 fc res frags orders, ∃ arrivals : List Arrival,
      Network.uploads c c.readyIndex [u] = some nw ∧
      xprocedureCheckPeerB (fun _ => none) (server 3) (xpacketPeerDead (server 1) 4) =
        some ⟨sv1, none⟩ ∧
      serverBeginOperation 0 ⟨sv1, nw.fs 3, xfilenetindexInit⟩ = some nd1 ∧
      (c.failoverPackets server nw).reverse.foldlM receiveKnowledge
        { nd1 with sv := (serverIndexPresentItself nd1.sv).1 } = some nd2 ∧
      typeRequestFileIndex nd2.sv nd2.fs req = some (fc, res) ∧
      serverIndexRequestFragments nd2.sv nd2.fnetidx fc.fileId fc.fragmentCountTotal (2 : ℕ) =
        some (frags, orders) ∧
      orders.map ((c.takenOver nw nd2).carryOut (c.survivors (by decide)) server 2) =
        arrivals.map some ∧
      ∃ st, arrivals.foldlM (serverWaitRequestFragments (nw.fs 2)) (typeRequestFileGateway res) =
        some st ∧ bufferToClient st = some (List.replicate 200 7) := by
  intro c u server req
  have hlen : u.2.length = 200 := List.length_replicate
  have harrive : ∀ v ∈ [u], (c.storedFile v).Arrives := by
    intro v hv
    rw [List.mem_singleton.mp hv]
    apply StoredFile.Arrives.of_lt
    · exact ⟨by simp [u, Cluster.storedFile], by decide, by decide, by rw [Cluster.storedFile, hlen]; norm_num,
        by rw [Cluster.storedFile, hlen]; norm_num⟩
    · rw [Cluster.storedFile, hlen]
      decide
  obtain ⟨nw, hrun, h⟩ := failover_then_retrieve (c := c) (by decide) (by decide) c.readyIndex_ready
    harrive (by decide) (by decide)
  obtain ⟨sv1, nd1, hcheck, hbegin, hall⟩ := h server (fun _ => none)
    (xpacketPeerDead (server 1) 4) 0 (fun _ _ _ => rfl) ⟨rfl, rfl, rfl, rfl, rfl⟩
    (by rw [xpacketPeerDead, commType_commPacket]; decide)
    (by rw [xpacketPeerDead, content_commPacket, XPeerDied.ofContent_bytes]; decide)
  obtain ⟨nd2, hreports, hread⟩ := hall _ (c.failoverPackets server nw).reverse_perm
  obtain ⟨fc, res, frags, orders, arrivals, h1, h2, h3, h4⟩ := hread u (by simp) 2 (by decide)
    (by decide) server req (by
      rw [content_commPacket, XRequestFile.ofContent_bytes, char200_of_length (char200_length _)])
  exact ⟨nw, sv1, nd1, nd2, fc, res, frags, orders, arrivals, hrun, hcheck, hbegin, hreports, h1, h2,
    h3, h4 arrivals (List.Perm.refl _)⟩

end DSS
