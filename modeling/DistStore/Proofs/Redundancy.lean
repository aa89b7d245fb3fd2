import Mathlib.Data.Finset.Card
import DistStore.Proofs.NewFile

/-! One death after placement: which fragments the index still finds on a living
node. The choice of replicas goes wrong when the index mistakes the file for one
placed after the death, and when its fragment count does not fit a byte. -/

namespace DSS

open Pairs

variable {c : Cluster} {sv sv' : Server} {d : ℕ}

/-! ## The index after the death -/

theorem serverIsValidNode_forget {d n : ℕ} {x : XIndexData} (hx : sv.indexData = some (forgetPeer d x))
    (hd : 1 ≤ d) (hn : 1 ≤ n) (hme : n ≠ sv.me.nodeId) :
    serverIsValidNode sv n = if n = d then false else decide ((x.peerIp n).port ≠ 0) := by
  rw [serverIsValidNode, if_neg (by omega), if_neg hme, hx]
  simp only [peerIp_forgetPeer hd hn]
  split_ifs <;> rfl

/-- What the selection reads of the index once the death of `d` is processed. -/
structure IndexAfterDeath (c : Cluster) (d : ℕ) (sv : Server) : Prop where
  deathCount : sv.deathCount = 1
  netSize : sv.netSize = if d = c.N - 1 then c.N - 2 else c.N - 1
  indexData : sv.indexData ≠ none
  isValid : ∀ n, 1 ≤ n → n ≤ c.N → serverIsValidNode sv n = decide (n ≠ d)

/-- The index marks exactly the dead peer invalid, whichever way it learns of it. -/
theorem valid_of_forget (h : c.IndexReady sv) {x : XIndexData} (hx : sv.indexData = some x)
    (hme : sv'.me = sv.me) (hx' : sv'.indexData = some (forgetPeer d x)) (hd : 1 ≤ d)
    (hdN : d < c.N) {n : ℕ} (h1 : 1 ≤ n) (hn : n ≤ c.N) :
    serverIsValidNode sv' n = decide (n ≠ d) := by
  obtain ⟨x', hd', -, -, hips⟩ := h.indexData
  obtain rfl : x' = x := Option.some.inj (hd'.symm.trans hx)
  by_cases he : n = c.N
  · rw [serverIsValidNode, if_neg (by omega), if_pos (by rw [hme, h.nodeId, he])]
    simp only [show n ≠ d by omega, ne_eq, not_false_eq_true, decide_true]
  · rw [serverIsValidNode_forget hx' hd h1 (by rw [hme, h.nodeId]; exact he)]
    by_cases hnd : n = d
    · simp [hnd]
    · simpa [hnd, hips n h1 (by omega)] using c.port_ne_zero n h1 hn

theorem IndexAfterDeath.of_healthcheck (h : c.IndexReady sv) (h3 : 3 ≤ c.N) :
    IndexAfterDeath c (c.N - 1) (serverHealthcheckDead sv).sv := by
  obtain ⟨x, hx, -⟩ := h.indexData
  have hlt := c.N_lt
  have hindex : serverIsIndex sv = true := by simp [serverIsIndex, h.index, h.nodeId]
  have hdec : dec64 (dec64 c.N) = c.N - 2 := by
    rw [dec64_of_pos (x := c.N) (by omega) (by omega), dec64_of_pos (by omega) (by omega)]
    omega
  have heq := congrArg Handled.sv (serverHealthcheckDead_eq sv)
  rw [hindex, h.netSize, h.deathCount, hdec, h.peerB, hx] at heq
  have hme : (serverHealthcheckDead sv).sv.me = sv.me := by rw [heq]
  have hx' : (serverHealthcheckDead sv).sv.indexData = some (forgetPeer (c.N - 1) x) := by
    rw [heq]
    rfl
  refine ⟨?_, ?_, by simp [hx'],
    fun n h1 hn => valid_of_forget h hx hme hx' (by omega) (by omega) h1 hn⟩
  · rw [heq]
    rfl
  · rw [heq]
    exact (if_pos rfl).symm

theorem IndexAfterDeath.of_notice (h : c.IndexReady sv) (h3 : 3 ≤ c.N) (hd : 1 ≤ d) (hdN : d < c.N - 1)
    {dial : Address → Option ℕ} {p : XPacket} {sent : Option XPacket}
    (ht : commType p = TYPE_PEER_DIED) (hp : (XPeerDied.ofContent (content p)).peerId = d)
    (hrun : xprocedureCheckPeerB dial sv p = some ⟨sv', sent⟩) : IndexAfterDeath c d sv' := by
  obtain ⟨x, hx, -⟩ := h.indexData
  have hlt := c.N_lt
  rw [xprocedureCheckPeerB, if_pos ht, hp] at hrun
  obtain ⟨⟨sv1, sent1⟩, hr, hr'⟩ := Option.bind_eq_some_iff.mp hrun
  obtain ⟨hme, -, hnet, hdeath, hindex, hdata⟩ := peerDiedNeighbour_frame hr
  dsimp only at hme hnet hdeath hindex hdata
  have hisIndex : serverIsIndex sv1 = true := by
    simp [serverIsIndex, hme, hindex, h.index, h.nodeId]
  have hsv : sv' = { sv1 with indexData := sv1.indexData.map (forgetPeer d) } := by
    rw [← ((Handled.mk.injEq ..).mp (Option.some.inj hr')).1, peerDiedIndex, if_pos hisIndex]
  have hx' : sv'.indexData = some (forgetPeer d x) := by
    rw [hsv, hdata, hx]
    rfl
  refine ⟨?_, ?_, by simp [hx'],
    fun n h1 hn => valid_of_forget h hx (hsv ▸ hme) hx' hd (by omega) h1 hn⟩
  · rw [hsv]
    simp [hdeath, h.deathCount, inc64]
  · rw [if_neg (by omega), hsv, hnet, ← h.netSize]
    exact dec64_of_pos (by rw [h.netSize]; omega) (by rw [h.netSize]; omega)

theorem Cluster.IndexSawDeath.afterDeath (h : c.IndexReady sv) (h3 : 3 ≤ c.N) (hd : 1 ≤ d)
    (hdN : d < c.N) (hsaw : c.IndexSawDeath sv d sv') : IndexAfterDeath c d sv' := by
  rw [Cluster.IndexSawDeath] at hsaw
  split_ifs at hsaw with he
  · subst hsaw he
    exact IndexAfterDeath.of_healthcheck h h3
  · obtain ⟨dial, p, sent, ht, hp, hrun⟩ := hsaw
    exact IndexAfterDeath.of_notice h h3 hd (by omega) ht hp hrun

/-! ## The placed files -/

theorem placeFiles_concat (sv : Server) (files : List (XRequestFileCreation × ℕ))
    (f : XRequestFileCreation × ℕ) :
    placeFiles sv (files ++ [f]) = (placeFiles sv files).bind fun st =>
      (serverIndexHandleNewFile sv st.1 st.2 f.1 f.2).map fun r => (r.1, r.2.1) := by
  rw [placeFiles, List.foldlM_append, ← placeFiles]
  simp [Option.bind_eq_bind]

/-- A container's fragment count is a byte, whatever the index counts. -/
theorem placeFiles_byte {files : List (XRequestFileCreation × ℕ)} {fs : XFileServer}
    {net : XFileNetworkIndex} (h : placeFiles sv files = some (fs, net)) :
    ∀ x ∈ fs.files, x.fragmentCountTotal < 2 ^ 8 := by
  induction files using List.reverseRecOn generalizing fs net with
  | nil =>
    obtain ⟨rfl, rfl⟩ := (Prod.mk.injEq ..).mp (Option.some.inj h)
    simp [xfileserverInit]
  | append_singleton files f ih =>
    rw [placeFiles_concat] at h
    obtain ⟨⟨fs1, net1⟩, h1, h2⟩ := Option.bind_eq_some_iff.mp h
    obtain ⟨⟨fs2, net2, slot⟩, h3, h4⟩ := Option.map_eq_some_iff.mp h2
    obtain ⟨rfl, rfl⟩ := (Prod.mk.injEq ..).mp h4
    simp only [serverIndexHandleNewFile] at h3
    obtain ⟨x, hx, h3⟩ := Option.bind_eq_some_iff.mp h3
    obtain ⟨placed, -, h3⟩ := Option.bind_eq_some_iff.mp h3
    obtain ⟨rfl, -⟩ := (Prod.mk.injEq ..).mp (Option.some.inj h3)
    intro y hy
    rcases List.mem_append.mp hy with hy | hy
    · exact ih h1 y hy
    · rw [List.mem_singleton.mp hy]
      exact Nat.mod_lt _ (by norm_num)

theorem placeFiles_ready (h : c.IndexReady sv) {files : List (XRequestFileCreation × ℕ)}
    (hlen : files.length ≤ FILE_SERVER_MAX_FILES) :
    ∃ fs net, placeFiles sv files = some (fs, net) ∧ fs.files.length = files.length ∧
      (∀ j f, files[j]? = some f → fs.files[j]? =
        some (freshContainer f.1.name (j + 1) f.2 (c.fragcount f.2))) ∧
      c.Tables (files.map Prod.snd) net := by
  induction files using List.reverseRecOn with
  | nil => exact ⟨_, _, rfl, rfl, by simp, Cluster.Tables.init c⟩
  | append_singleton files f ih =>
    rw [List.length_append, List.length_singleton, FILE_SERVER_MAX_FILES] at hlen
    obtain ⟨fs, net, hrun, hfl, hfiles, htab⟩ := ih (by rw [FILE_SERVER_MAX_FILES]; omega)
    have hcount : fs.fileCount = files.length := hfl
    refine ⟨⟨fs.files ++ [freshContainer f.1.name (files.length + 1) f.2 (c.fragcount f.2)]⟩,
      xfilenetindexAddFile net (c.tableEntry (files.length + 1) f.2), ?_, ?_, ?_, ?_⟩
    · rw [placeFiles_concat, hrun, Option.bind_some, serverIndexHandleNewFile_ready h]
      simp [hcount, u16_of_lt (show files.length + 1 < 2 ^ 16 by omega)]
    · simp [hfl]
    · intro j g hg
      by_cases hj : j < files.length
      · rw [List.getElem?_append_left hj] at hg
        rw [List.getElem?_append_left (by omega)]
        exact hfiles j g hg
      · rw [List.getElem?_append_right (by omega)] at hg
        obtain rfl : j = files.length := by
          by_contra hne
          rw [List.getElem?_eq_none (by rw [List.length_singleton]; omega)] at hg
          simp at hg
        obtain rfl : f = g := by simpa using hg
        rw [List.getElem?_append_right (by omega), hfl]
        simp
    · rw [List.map_append, List.map_singleton]
      have hsnoc := htab.snoc f.2
      rwa [List.length_map] at hsnoc

/-! ## The selection -/

/-- For fragment `k` of the file in slot `j`, the request of the file chooses an
entry that names a living node. -/
def SelectsAlive (c : Cluster) (sv : Server) (fs : XFileServer) (net : XFileNetworkIndex)
    (d : ℕ) (deliverTo : ℤ) (j k : ℕ) : Prop :=
  ∃ file frags orders, fs.files[j]? = some file ∧
    serverIndexRequestFragments sv net file.fileId file.fragmentCountTotal deliverTo =
      some (frags, orders) ∧
    ∃ e ∈ frags, e.fragment = k ∧ 1 ≤ e.nodeId ∧ e.nodeId ≤ c.N ∧ e.nodeId ≠ d

/-- A file of more fragments than a byte counts is selected only in part. -/
theorem not_selectsAlive_of_byte {fs : XFileServer} {net : XFileNetworkIndex} {g : ℤ} {j n : ℕ}
    (hbyte : ∀ x ∈ fs.files, x.fragmentCountTotal < 2 ^ 8) (hn : 2 ^ 8 ≤ n) :
    ¬ ∀ k, 1 ≤ k → k ≤ n → SelectsAlive c sv fs net d g j k := by
  intro hall
  obtain ⟨file, frags, orders, hfile, hreq, -⟩ := hall 1 (by omega) (by omega)
  have hlen : frags.length < 2 ^ 8 := by
    simp only [serverIndexRequestFragments] at hreq
    obtain ⟨x, -, hreq⟩ := Option.bind_eq_some_iff.mp hreq
    obtain ⟨f, -, hreq⟩ := Option.bind_eq_some_iff.mp hreq
    obtain ⟨rfl, -⟩ := (Prod.mk.injEq ..).mp (Option.some.inj hreq)
    simpa [selectFragments] using hbyte file (List.mem_of_getElem? hfile)
  have hsub : Finset.Icc 1 n ⊆ (frags.map (·.fragment)).toFinset := by
    intro k hk
    obtain ⟨h1, hk⟩ := Finset.mem_Icc.mp hk
    obtain ⟨file', frags', orders', hfile', hreq', e, he, hek, -⟩ := hall k h1 hk
    obtain rfl : file' = file := Option.some.inj (hfile'.symm.trans hfile)
    obtain ⟨rfl, -⟩ := (Prod.mk.injEq ..).mp (Option.some.inj (hreq'.symm.trans hreq))
    simpa using ⟨e, he, hek⟩
  have hcard := Finset.card_le_card hsub
  rw [Nat.card_Icc] at hcard
  have hle := (List.toFinset_card_le (frags.map (·.fragment)))
  rw [List.length_map] at hle
  omega

theorem getD_placedTable_primary {l : List ℕ} {size : ℕ → ℕ} {fc i : ℕ} (h : i < fc) :
    (placedTable l size fc).getD (i * REDUNDANCY) .zero = primaryEntry l size i := by
  rw [REDUNDANCY, Nat.mul_comm, List.getD_eq_getElem?_getD, placedTable, getElem?_pairs_even _ _ h]
  rfl

theorem getD_placedTable_secondary {l : List ℕ} {size : ℕ → ℕ} {fc i : ℕ} (h : i < fc) :
    (placedTable l size fc).getD (i * REDUNDANCY + 1) .zero = secondaryEntry l size i := by
  rw [REDUNDANCY, Nat.mul_comm, List.getD_eq_getElem?_getD, placedTable, getElem?_pairs_odd _ _ h]
  rfl

/-- The entries chosen after one death: the primaries if the index takes the file
for a later one, else the replica wherever the primary is dead. -/
theorem selectFragments_afterDeath (h : IndexAfterDeath c d sv) {fc : ℕ} {size : ℕ → ℕ}
    (hfc : fc ≤ c.N) :
    selectFragments sv (placedTable c.nodes size fc) fc = (List.range fc).map fun i =>
      if fc = 2 * sv.netSize ∨ i + 1 ≠ d then primaryEntry c.nodes size i
      else secondaryEntry c.nodes size i := by
  have hlt := c.N_lt
  have hnet : sv.netSize < 2 ^ 31 := by
    rw [h.netSize]
    split_ifs <;> omega
  have hu : toU64 (fc : ℤ) = fc := toU64_natCast (by omega)
  have hu2 : u64 (sv.netSize * REDUNDANCY) = 2 * sv.netSize := by
    rw [REDUNDANCY, u64_of_lt (by omega), Nat.mul_comm]
  rw [selectFragments, Int.toNat_natCast]
  refine List.map_congr_left fun i hi => ?_
  have hi := List.mem_range.mp hi
  have hvalid := h.isValid (i + 1) (by omega) (by omega)
  rw [getD_placedTable_primary hi, getD_placedTable_secondary hi, h.deathCount, hu, hu2]
  simp only [primaryEntry, Cluster.nodes_getD (show i < c.N by omega), hvalid, decide_eq_true_eq,
    Nat.zero_lt_one, if_true]
  by_cases h1 : fc = 2 * sv.netSize <;> by_cases h2 : i + 1 = d <;> simp [h1, h2]

theorem selectsAlive_fragment_iff (h : IndexAfterDeath c d sv) (hdN : d < c.N)
    {fs : XFileServer} {net : XFileNetworkIndex} {j sz : ℕ} {name : List UInt8}
    (hj : j + 1 < 2 ^ 16) (hfc : c.fragcount sz < 2 ^ 8)
    (hfile : fs.files[j]? = some (freshContainer name (j + 1) sz (c.fragcount sz)))
    (hfound : net.found (j + 1) = some (c.tableEntry (j + 1) sz)) (deliverTo : ℤ) {k : ℕ}
    (h1 : 1 ≤ k) (hk : k ≤ c.fragcount sz) :
    SelectsAlive c sv fs net d deliverTo j k ↔ ¬ (c.fragcount sz = 2 * sv.netSize ∧ k = d) := by
  have hle := c.fragcount_le sz
  obtain ⟨x, hx⟩ := Option.ne_none_iff_exists'.mp h.indexData
  have hreq := serverIndexRequestFragments_eq hx (by omega) hfound (c.fragcount sz) deliverTo
  rw [Cluster.tableEntry, Cluster.newTable_eq (by omega), selectFragments_afterDeath h hle] at hreq
  obtain ⟨file, hfresh⟩ : ∃ file, file = freshContainer name (j + 1) sz (c.fragcount sz) := ⟨_, rfl⟩
  have hid : file.fileId = j + 1 := by rw [hfresh]; exact u16_of_lt hj
  have hcount : file.fragmentCountTotal = c.fragcount sz := by rw [hfresh]; exact u8_of_lt hfc
  rw [← hfresh] at hfile
  rw [← hid, ← hcount] at hreq
  constructor
  · rintro ⟨file', frags, orders, hf, hr, e, he, hek, -, -, hed⟩ ⟨htwice, hkd⟩
    obtain rfl : file' = file := Option.some.inj (hf.symm.trans hfile)
    obtain ⟨rfl, -⟩ := (Prod.mk.injEq ..).mp (Option.some.inj (hr.symm.trans hreq))
    obtain ⟨i, hi, rfl⟩ := List.mem_map.mp he
    have hi := List.mem_range.mp hi
    rw [if_pos (.inl (hcount.trans htwice))] at hek hed
    simp only [primaryEntry, Cluster.nodes_getD (show i < c.N by omega)] at hek hed
    omega
  · intro hnot
    refine ⟨file, _, _, hfile, hreq, _, List.mem_map_of_mem (List.mem_range.mpr
      (show k - 1 < file.fragmentCountTotal by omega)), ?_⟩
    by_cases hkd : k = d
    · rw [if_neg (by omega)]
      have hmod : k % c.N = k := Nat.mod_eq_of_lt (by omega)
      simp only [secondaryEntry, Nat.sub_add_cancel h1, c.nodes_length, hmod,
        Cluster.nodes_getD (show k < c.N by omega), true_and]
      omega
    · rw [if_pos (.inr (by omega))]
      simp only [primaryEntry, Cluster.nodes_getD (show k - 1 < c.N by omega)]
      omega

/-- After one death, a file placed before it keeps every fragment on a living node
exactly when it is unsplit, or its count fits a byte and the index does not take it
for a file placed after the death. -/
theorem selectsAlive_iff (h : c.IndexReady sv) (h3 : 3 ≤ c.N)
    {files : List (XRequestFileCreation × ℕ)} (hlen : files.length ≤ FILE_SERVER_MAX_FILES)
    {fs : XFileServer} {net : XFileNetworkIndex} (hplaced : placeFiles sv files = some (fs, net))
    {j : ℕ} {name : XRequestFileCreation} {sz : ℕ} (hj : files[j]? = some (name, sz))
    (hd : 1 ≤ d) (hdN : d < c.N) (hsaw : c.IndexSawDeath sv d sv') (deliverTo : ℤ) :
    (∀ k, 1 ≤ k → k ≤ c.fragcount sz → SelectsAlive c sv' fs net d deliverTo j k) ↔
      (sz ≤ c.N ∨ sz ≤ MINIMAL_SIZE_FOR_SPLIT) ∨ (c.N ≤ 255 ∧ ¬ (c.N = 4 ∧ d = 3)) := by
  have hafter := hsaw.afterDeath h h3 hd hdN
  obtain ⟨fs', net', hrun, hfl, hfiles, htables⟩ := placeFiles_ready h hlen
  obtain ⟨rfl, rfl⟩ := (Prod.mk.injEq ..).mp (Option.some.inj (hrun.symm.trans hplaced))
  by_cases hbig : 255 < c.fragcount sz
  · -- more fragments than the container's count can say
    refine iff_of_false
      (not_selectsAlive_of_byte (placeFiles_byte hplaced) (by omega)) ?_
    rw [Cluster.fragcount] at hbig
    split_ifs at hbig with hsmall <;> omega
  have hjlen : j < files.length := (List.getElem?_eq_some_iff.mp hj).1
  have hfile : fs'.files[j]? = some (freshContainer name.name (j + 1) sz (c.fragcount sz)) :=
    hfiles j _ hj
  have hfound : net'.found (j + 1) = some (c.tableEntry (j + 1) sz) := by
    rw [htables (j + 1) (by omega) (by rw [FILE_SERVER_MAX_FILES] at hlen; omega),
      Nat.add_sub_cancel, List.getElem?_map, hj]
    rfl
  have hone : ∀ k, 1 ≤ k → k ≤ c.fragcount sz →
      (SelectsAlive c sv' fs' net' d deliverTo j k ↔
        ¬ (c.fragcount sz = 2 * sv'.netSize ∧ k = d)) := fun k h1 hk =>
    selectsAlive_fragment_iff hafter hdN (by rw [FILE_SERVER_MAX_FILES] at hlen; omega)
      (by omega) hfile hfound deliverTo h1 hk
  have hnet := hafter.netSize
  rw [Cluster.fragcount] at hone hbig ⊢
  split_ifs at hone hbig hnet ⊢ with hsmall hlast hlast
  · exact iff_of_true (fun k h1 hk => (hone k h1 hk).mpr (by omega)) (.inl hsmall)
  · exact iff_of_true (fun k h1 hk => (hone k h1 hk).mpr (by omega)) (.inl hsmall)
  · refine ⟨fun hall => .inr ⟨by omega, fun h4 => ?_⟩, fun hor k h1 hk => (hone k h1 hk).mpr ?_⟩
    · exact (hone d hd (by omega)).mp (hall d hd (by omega)) ⟨by omega, rfl⟩
    · have := hor.resolve_left hsmall
      omega
  · exact iff_of_true (fun k h1 hk => (hone k h1 hk).mpr (by omega)) (.inr ⟨by omega, by omega⟩)

/-- Five nodes: whichever dies, the fragments of a file of 300 bytes are found. -/
theorem selectsAlive_iff_five_nodes :
    let c := Cluster.boot 5 (by decide) (by decide)
    let sv' := (serverHealthcheckDead c.readyIndex).sv
    ∃ fs net, placeFiles c.readyIndex [(⟨char200 [97], 300⟩, 300)] = some (fs, net) ∧
      ∀ k, 1 ≤ k → k ≤ 5 → SelectsAlive c sv' fs net 4 1 0 k := by
  intro c sv'
  obtain ⟨fs, net, hplaced, -⟩ := placeFiles_ready c.readyIndex_ready
    (show [((⟨char200 [97], 300⟩ : XRequestFileCreation), 300)].length ≤ FILE_SERVER_MAX_FILES
      by decide)
  have hsaw : c.IndexSawDeath c.readyIndex 4 sv' := by
    rw [Cluster.IndexSawDeath, if_pos (by decide)]
  exact ⟨fs, net, hplaced, (selectsAlive_iff (c := c) (d := 4) (j := 0)
    c.readyIndex_ready (by decide) (by decide) hplaced rfl (by decide) (by decide)
    hsaw 1).mpr (.inr (by decide))⟩

/-- Four nodes: when node 3 dies, its predecessor's count of the net is off by one,
and the index asks the dead node for fragment 3 although node 4 has it. -/
theorem not_selectsAlive_four_nodes :
    let c := Cluster.boot 4 (by decide) (by decide)
    let sv' := (serverHealthcheckDead c.readyIndex).sv
    c.IndexSawDeath c.readyIndex 3 sv' ∧
    ∃ fs net, placeFiles c.readyIndex [(⟨char200 [97], 101⟩, 101)] = some (fs, net) ∧
      c.fragcount 101 = 4 ∧ ¬ SelectsAlive c sv' fs net 3 1 0 3 := by
  intro c sv'
  have hsaw : c.IndexSawDeath c.readyIndex 3 sv' := by
    rw [Cluster.IndexSawDeath, if_pos (by decide)]
  have hafter := hsaw.afterDeath c.readyIndex_ready (by decide) (by decide) (by decide)
  obtain ⟨fs, net, hplaced, -, hfiles, htables⟩ := placeFiles_ready c.readyIndex_ready
    (show [((⟨char200 [97], 101⟩ : XRequestFileCreation), 101)].length ≤ FILE_SERVER_MAX_FILES
      by decide)
  refine ⟨hsaw, fs, net, hplaced, by decide, fun hsel => ?_⟩
  have hiff := selectsAlive_fragment_iff (j := 0) hafter (by decide) (by decide) (by decide)
    (hfiles 0 _ rfl) (htables 1 (by decide) (by decide)) 1 (k := 3) (by decide) (by decide)
  exact hiff.mp hsel ⟨by rw [hafter.netSize]; decide, rfl⟩

end DSS
