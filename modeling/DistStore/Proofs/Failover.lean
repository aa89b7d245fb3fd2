import Mathlib.Data.List.Perm.Basic
import DistStore.Model.Failover
import DistStore.Proofs.RoundTrip

/-! The death of the index. Node `N - 1` indexes its own files and takes the reports
of the others in any order; every fragment of every file is then asked of a living
node that stores it. -/

namespace DSS

open Pairs

/-! ## The reports arrive -/

def fileReports (ps : List XPacket) : List XReportFileKnowledge :=
  ps.filterMap fun p =>
    if commType p = TYPE_REPORT_FILE then some (XReportFileKnowledge.ofContent (content p)) else none

def savePeer (sv : Server) (p : XPacket) : Server :=
  if commType p = TYPE_REPORT_SELF then countReportedPeer sv p else sv

/-- Packets that report nodes and packets that report files do not meet. -/
theorem foldlM_receiveKnowledge (ps : List XPacket) (nd : Node) :
    ps.foldlM receiveKnowledge nd = (saveReports (nd.fs, nd.fnetidx) (fileReports ps)).map
      fun st => ⟨ps.foldl savePeer nd.sv, st.1, st.2⟩ := by
  induction ps generalizing nd with
  | nil => rfl
  | cons p ps ih =>
    rw [List.foldlM_cons, List.foldl_cons, fileReports, List.filterMap_cons, ← fileReports,
      receiveKnowledge, savePeer]
    by_cases hself : commType p = TYPE_REPORT_SELF
    · have hfile : commType p ≠ TYPE_REPORT_FILE := by rw [hself]; decide
      simp only [if_pos hself, if_neg hfile]
      exact ih _
    · by_cases hfile : commType p = TYPE_REPORT_FILE
      · simp only [if_neg hself, if_pos hfile, saveReports, List.foldlM_cons, Option.bind_eq_bind]
        rcases hstep : xprocedureSaveFileToIndex nd.fs nd.fnetidx
          (XReportFileKnowledge.ofContent (content p)) with _ | ⟨fs, net⟩
        · rfl
        · simp only [Option.bind_some]
          exact ih _
      · simp only [if_neg hself, if_neg hfile]
        exact ih nd

namespace MainLoop

def reportCount (ps : List XPacket) : ℕ := ps.countP fun p => commType p = TYPE_REPORT_SELF

/-- The peers the index knows, while it takes some packets in. -/
structure Gathered (sv sv' : Server) (count : ℕ) : Prop where
  me : sv'.me = sv.me
  peerB : sv'.peerB = sv.peerB
  state : sv'.state = sv.state
  netSize : sv'.netSize = sv.netSize
  connected : sv'.connected = u64 (sv.connected + count)
  table : ∀ d, sv.indexData = some d → ∃ d', sv'.indexData = some d' ∧
    d'.peerIps.length = d.peerIps.length ∧ d'.knownPeers = d.knownPeers + count

theorem gathered_foldl_savePeer (ps : List XPacket) {sv : Server} (hconn : sv.connected < 2 ^ 64) :
    Gathered sv (ps.foldl savePeer sv) (reportCount ps) := by
  induction ps generalizing sv with
  | nil => exact ⟨rfl, rfl, rfl, rfl, (u64_of_lt hconn).symm, fun d hd => ⟨d, hd, rfl, rfl⟩⟩
  | cons p ps ih =>
    rw [List.foldl_cons, reportCount, List.countP_cons, ← reportCount, savePeer]
    by_cases hself : commType p = TYPE_REPORT_SELF
    · simp only [hself, if_true, decide_true]
      have hrest : Gathered (countReportedPeer sv p) (ps.foldl savePeer (countReportedPeer sv p))
          (reportCount ps) := ih (Nat.mod_lt _ (by decide))
      refine ⟨hrest.me, hrest.peerB, hrest.state, hrest.netSize, ?_, fun d hd => ?_⟩
      · rw [hrest.connected]
        simp only [countReportedPeer, inc64, u64]
        omega
      · obtain ⟨d', hd', hlen, hknown⟩ := hrest.table _ (by
          simp only [countReportedPeer, serverIndexSaveReportedPeer, hd]
          rfl)
        refine ⟨d', hd', hlen.trans (List.length_set ..), hknown.trans ?_⟩
        show d.knownPeers + 1 + _ = _
        omega
    · simpa [hself] using ih hconn

end MainLoop

theorem foldl_savePeer_deathCount (ps : List XPacket) (sv : Server) :
    (ps.foldl savePeer sv).deathCount = sv.deathCount := by
  induction ps generalizing sv with
  | nil => rfl
  | cons p ps ih =>
    rw [List.foldl_cons, ih, savePeer]
    split_ifs <;> rfl

/-- `p` is node `n`'s report of itself. -/
def Cluster.Presents (c : Cluster) (n : ℕ) (p : XPacket) : Prop :=
  commType p = TYPE_REPORT_SELF ∧ commSenderId p = n ∧
    (XPeerReportMessage.ofContent (content p)).peerAddr = c.addr n

/-- The index after packets of nodes `1..m`: it knows the address of every node that
presented itself. -/
theorem foldl_savePeer_peerIp {c : Cluster} {m : ℕ} (sv : Server) (ps : List XPacket)
    (hps : ∀ p ∈ ps, commType p = TYPE_REPORT_SELF → ∃ n, 1 ≤ n ∧ n ≤ m ∧ c.Presents n p)
    {d : XIndexData} (hd : sv.indexData = some d) (hm : m ≤ d.peerIps.length) :
    ∃ d', (ps.foldl savePeer sv).indexData = some d' ∧
      ∀ n, 1 ≤ n → n ≤ m → d'.peerIp n = c.addr n ∨
        d'.peerIp n = d.peerIp n ∧ ¬ ∃ p ∈ ps, c.Presents n p := by
  induction ps generalizing sv d with
  | nil => exact ⟨d, hd, fun n _ _ => .inr ⟨rfl, by simp⟩⟩
  | cons p ps ih =>
    have hrest := fun q hq => hps q (List.mem_cons_of_mem _ hq)
    rw [List.foldl_cons]
    by_cases hself : commType p = TYPE_REPORT_SELF
    · obtain ⟨n, h1, hnm, hp⟩ := hps p (by simp) hself
      have hdata : (savePeer sv p).indexData =
          some ⟨d.peerIps.set (n - 1) (c.addr n), d.knownPeers + 1⟩ := by
        rw [savePeer, if_pos hself]
        simp only [countReportedPeer, serverIndexSaveReportedPeer, hd, Option.map_some, hp.2.1, hp.2.2]
      obtain ⟨d', hd', hips⟩ := ih _ hrest hdata (by simpa using hm)
      refine ⟨d', hd', fun k hk1 hkm => ?_⟩
      by_cases hkn : k = n
      · subst hkn
        have hset : (⟨d.peerIps.set (k - 1) (c.addr k), d.knownPeers + 1⟩ : XIndexData).peerIp k =
            c.addr k := by
          rw [XIndexData.peerIp, List.getD_eq_getElem?_getD, List.getElem?_set,
            if_pos rfl, if_pos (by omega), Option.getD_some]
        rcases hips k hk1 hkm with h | h
        · exact .inl h
        · exact .inl (h.1.trans hset)
      · have hset : (⟨d.peerIps.set (n - 1) (c.addr n), d.knownPeers + 1⟩ : XIndexData).peerIp k =
            d.peerIp k := by
          rw [XIndexData.peerIp, XIndexData.peerIp, List.getD_eq_getElem?_getD,
            List.getD_eq_getElem?_getD, List.getElem?_set_ne (by omega)]
        rcases hips k hk1 hkm with h | ⟨h, hno⟩
        · exact .inl h
        · refine .inr ⟨h.trans hset, ?_⟩
          rintro ⟨q, hq, hqk⟩
          rcases List.mem_cons.mp hq with rfl | hq
          · exact hkn (hqk.2.1.symm.trans hp.2.1)
          · exact hno ⟨q, hq, hqk⟩
    · have hsame : savePeer sv p = sv := if_neg hself
      rw [hsame]
      obtain ⟨d', hd', hips⟩ := ih sv hrest hd hm
      refine ⟨d', hd', fun k hk1 hkm => ?_⟩
      rcases hips k hk1 hkm with h | ⟨h, hno⟩
      · exact .inl h
      · refine .inr ⟨h, ?_⟩
        rintro ⟨q, hq, hqk⟩
        rcases List.mem_cons.mp hq with rfl | hq
        · exact hself hqk.1
        · exact hno ⟨q, hq, hqk⟩

theorem saveReports_ownFiles (st : XFileServer × XFileNetworkIndex) (n : ℕ) (files : List XFileContainer) :
    saveReports st (files.map (reportOf n)) =
      files.foldlM (fun st f => xprocedureSaveFileToIndex st.1 st.2 (reportOf n f)) st := by
  rw [saveReports, List.foldlM_map]

theorem serverBeginOperation_eq {sv : Server} (hme : sv.netSize = sv.me.nodeId) (knownPeers : ℕ)
    (fs : XFileServer) (net : XFileNetworkIndex) :
    serverBeginOperation knownPeers ⟨sv, fs, net⟩ =
      (saveReports (fs, net) (fs.files.map (reportOf sv.me.nodeId))).map fun st =>
        ⟨serverSetState (allocIndexData knownPeers sv) .indexPresentItself, st.1, st.2⟩ := by
  simp only [serverBeginOperation, beginServer, hme, if_true, saveReports_ownFiles]
  cases List.foldlM (fun st f => xprocedureSaveFileToIndex st.1 st.2 (reportOf sv.me.nodeId f))
    (fs, net) fs.files <;> rfl

/-! ## The reports of the survivors -/

theorem PlacedFile.reportWith_fits {f : PlacedFile} {l : List ℕ} (h : f.Over l)
    {e e' : XFragmentNetworkPointer} (he : e.Fits) (he' : e'.Fits) : (f.reportWith e e').Fits where
  fileName := char200_length _
  fileSize := h.fileSize
  fileId := h.fileId
  fragCount := h.fc_lt
  fragments0 := he
  fragments1 := he'

theorem XFragmentNetworkPointer.zero_fits : XFragmentNetworkPointer.zero.Fits :=
  ⟨by decide, by decide, by decide⟩

theorem PlacedFile.Over.report_fits {f : PlacedFile} {l : List ℕ} (h : f.Over l)
    (hl : ∀ n ∈ l, n < 2 ^ 64) {n : ℕ} (hn : n ∈ f.holders l) : (f.report l n).Fits := by
  have h2 := h.two_le
  have hle := h.length_le
  have hget : ∀ {i}, i < l.length → l.getD i 0 < 2 ^ 64 := fun hi => by
    rw [List.getD_eq_getElem _ _ hi]
    exact hl _ (List.getElem_mem hi)
  have hprimary : ∀ {i}, i < l.length → (primaryEntry l f.size i).Fits := fun hi =>
    ⟨by simp only [primaryEntry]; omega, h.size _, hget hi⟩
  have hsecondary : ∀ {i}, i < l.length → (secondaryEntry l f.size i).Fits := fun hi =>
    ⟨by simp only [secondaryEntry]; omega, h.size _, hget (Nat.mod_lt _ (by omega))⟩
  rcases h.fc with h1 | h1
  · rcases h.mem_holders_single h1 hn with rfl | rfl
    · rw [h.report_single_first h1]
      exact reportWith_fits h (hprimary (by omega)) XFragmentNetworkPointer.zero_fits
    · rw [h.report_single_second h1]
      exact reportWith_fits h (hsecondary (by omega)) XFragmentNetworkPointer.zero_fits
  · obtain ⟨j, hj, rfl⟩ := List.mem_iff_getElem.mp (List.mem_filter.mp hn).1
    rw [← List.getD_eq_getElem l 0 hj]
    rcases Nat.eq_zero_or_pos j with rfl | h0
    · rw [h.report_split_first h1]
      exact reportWith_fits h (hprimary (by omega)) (hsecondary (by omega))
    · rw [h.report_split_next h1 h0 hj]
      exact reportWith_fits h (hsecondary (by omega)) (hprimary hj)

namespace Cluster

variable {c : Cluster} {u : Upload} {us : List Upload} {nw : Network}

def survivorReports (c : Cluster) (nw : Network) : List XReportFileKnowledge :=
  (List.range' 1 (c.N - 1)).flatMap fun n => (nw.fs n).files.map (reportOf n)

/-- The holders of a file other than the dead index. -/
def livingHolders (c : Cluster) (u : Upload) : List ℕ :=
  (List.range' 1 (c.N - 1)).filter fun n => heldEntries (c.storedFile u).table n ≠ []

theorem mem_livingHolders {n : ℕ} : n ∈ c.livingHolders u ↔
    1 ≤ n ∧ n < c.N ∧ heldEntries (c.storedFile u).table n ≠ [] := by
  rw [livingHolders, List.mem_filter, List.mem_range'_1, decide_eq_true_eq, and_assoc]
  refine and_congr_right fun _ => and_congr_left fun _ => ?_
  omega

theorem livingHolders_nodup (c : Cluster) (u : Upload) : (c.livingHolders u).Nodup :=
  (List.nodup_range').filter _

theorem holders_of_living {n : ℕ} (hn : n ∈ c.livingHolders u) (id : ℕ) :
    n ∈ ((c.storedFile u).placed id).holders c.nodes := by
  obtain ⟨h1, hlt, hne⟩ := mem_livingHolders.mp hn
  exact List.mem_filter.mpr ⟨mem_nodes.mpr ⟨h1, hlt.le⟩, decide_eq_true hne⟩

theorem flatMap_if_singleton {α β : Type*} (p : α → Prop) [DecidablePred p] (f : α → β)
    (l : List α) : (l.flatMap fun x => if p x then [f x] else []) = (l.filter p).map f := by
  induction l with
  | nil => rfl
  | cons x l ih =>
    rw [List.flatMap_cons, ih, List.filter_cons]
    by_cases hx : p x <;> simp [hx]

theorem Stored.filter_survivorReports (h : c.Stored (c.storeOf us) nw) {j : ℕ} (hj : us[j]? = some u) :
    (c.survivorReports nw).filter (·.fileId = j + 1) =
      (c.livingHolders u).map (((c.storedFile u).placed (j + 1)).report c.nodes) := by
  rw [survivorReports, List.filter_flatMap, livingHolders, ← flatMap_if_singleton]
  refine List.flatMap_congr fun n hn => ?_
  rw [List.mem_range'_1] at hn
  rw [List.filter_map]
  have hfilter := h.files n hn.1 (by omega) (j + 1)
  rw [if_neg (by omega), Nat.add_sub_cancel, getElem?_storeOf hj, Option.map_some, Option.getD_some,
    StoredFile.held] at hfilter
  refine (congrArg (List.map (reportOf n)) hfilter).trans ?_
  by_cases hne : heldEntries (c.storedFile u).table n = []
  · rw [if_neg (by rintro (h | h) <;> [omega; exact h hne]), if_neg (not_not_intro hne)]
    rfl
  · rw [if_pos (.inr hne), if_pos hne]
    rfl

/-- Every report is that of a living holder. -/
theorem Stored.mem_survivorReports (h : c.Stored (c.storeOf us) nw) {n : ℕ} (h1 : 1 ≤ n) (hn : n < c.N)
    {x : XFileContainer} (hx : x ∈ (nw.fs n).files) :
    ∃ j u, us[j]? = some u ∧ n ∈ c.livingHolders u ∧
      reportOf n x = ((c.storedFile u).placed (j + 1)).report c.nodes n := by
  obtain ⟨j, f, -, hj, hheld⟩ := h.mem_files h1 hn.le hx
  rw [storeOf, List.getElem?_map, Option.map_eq_some_iff] at hj
  obtain ⟨u, hj, rfl⟩ := hj
  rw [StoredFile.held] at hheld
  split_ifs at hheld with hcond
  · rcases hcond with hcond | hcond
    · omega
    · refine ⟨j, u, hj, mem_livingHolders.mpr ⟨h1, hn, hcond⟩, ?_⟩
      rw [List.mem_singleton.mp hheld]
      rfl
  · exact absurd hheld List.not_mem_nil

/-! ## The new index -/

/-- The new index knows every file, and every entry of a living holder. -/
structure Recovered (c : Cluster) (us : List Upload) (nw : Network) (fs : XFileServer)
    (net : XFileNetworkIndex) : Prop where
  tables : ∀ j u, us[j]? = some u →
    ∃ t, net.found (j + 1) = some ⟨j + 1, 2 * (c.storedFile u).count, t⟩ ∧
      ((c.storedFile u).placed (j + 1)).Rebuilt c.nodes (c.livingHolders u) t
  headers : ∀ x ∈ fs.files, ∃ i v, us[i]? = some v ∧ (c.storedFile v).Header (i + 1) x
  known : ∀ j u, us[j]? = some u → ∃ x ∈ fs.files, x.fileId = j + 1
  own : ∀ k x, (nw.fs (c.N - 1)).found k = some x → fs.found k = some x

theorem Stored.headers (h : c.Stored (c.storeOf us) nw) (hN : c.N ≤ 254) {n : ℕ} (h1 : 1 ≤ n)
    (hn : n ≤ c.N) {x : XFileContainer} (hx : x ∈ (nw.fs n).files) :
    ∃ i v, us[i]? = some v ∧ (c.storedFile v).Header (i + 1) x := by
  obtain ⟨i, f, -, hi, hheld⟩ := h.mem_files h1 hn hx
  have hst := h.stored f (List.mem_of_getElem? hi)
  have hilen := (List.getElem?_eq_some_iff.mp hi).1
  have hle := h.length_le
  rw [FILE_SERVER_MAX_FILES] at hle
  rw [storeOf, List.getElem?_map, Option.map_eq_some_iff] at hi
  obtain ⟨v, hi, rfl⟩ := hi
  rw [StoredFile.held] at hheld
  split_ifs at hheld with hcond
  · rw [List.mem_singleton.mp hheld]
    exact ⟨i, v, hi, hst.header hN (by omega) n⟩
  · exact absurd hheld List.not_mem_nil

/-- In a store of containers of `us`, a search by name ends at the file of that name. -/
theorem findByName_of_headers (hus : ∀ u ∈ us, Uploadable u) (hnames : (us.map Prod.fst).Nodup)
    {fs : XFileServer}
    (hall : ∀ x ∈ fs.files, ∃ i v, us[i]? = some v ∧ (c.storedFile v).Header (i + 1) x) {j : ℕ}
    (hj : us[j]? = some u) (hex : ∃ x ∈ fs.files, x.fileId = j + 1) :
    ∃ x, ((xfileserverFindFileByName fs (char200 u.1)).bind fun k => fs.files[k]?) = some x ∧
      (c.storedFile u).Header (j + 1) x := by
  have hu := hus u (List.mem_of_getElem? hj)
  have hsame : ∀ {x i v}, us[i]? = some v → (c.storedFile v).Header (i + 1) x →
      strEq x.fileName ((char200 u.1).set 199 0) = decide (v.1 = u.1) := by
    intro x i v hv hx
    have hv' := hus v (List.mem_of_getElem? hv)
    rw [hx.fileName]
    exact strEq_char200 hv'.name_ne_zero hv'.name_le hu.name_ne_zero hu.name_le
  have hbind : ((xfileserverFindFileByName fs (char200 u.1)).bind fun k => fs.files[k]?) =
      fs.files.find? fun f => strEq f.fileName ((char200 u.1).set 199 0) := by
    have hslot := Keyed.slot_bind_getElem? (fun f : XFileContainer =>
      strEq f.fileName ((char200 u.1).set 199 0)) fs.files true
    simpa [Keyed.slot, Keyed.get, xfileserverFindFileByName] using hslot
  obtain ⟨x, hx⟩ : ∃ x, fs.files.find?
      (fun f => strEq f.fileName ((char200 u.1).set 199 0)) = some x := by
    obtain ⟨x, hxmem, hxid⟩ := hex
    obtain ⟨i, v, hv, hxh⟩ := hall x hxmem
    obtain rfl : i = j := by have := hxh.fileId; omega
    obtain rfl : v = u := Option.some.inj (hv.symm.trans hj)
    rw [← Option.isSome_iff_exists, List.find?_isSome]
    exact ⟨x, hxmem, by rw [hsame hv hxh]; simp⟩
  -- the container found is the one of the only file with this name
  obtain ⟨i, v, hv, hxh⟩ := hall x (List.mem_of_find?_eq_some hx)
  have hname := List.find?_some hx
  rw [hsame hv hxh, decide_eq_true_eq] at hname
  obtain rfl : i = j := by
    refine (List.getElem?_inj ?_ hnames).mp ?_
    · rw [List.length_map]
      exact (List.getElem?_eq_some_iff.mp hv).1
    · rw [List.getElem?_map, List.getElem?_map, hv, hj, Option.map_some, Option.map_some, hname]
  obtain rfl : v = u := Option.some.inj (hv.symm.trans hj)
  exact ⟨x, hbind.trans hx, hxh⟩

theorem reportContainer_header {j : ℕ} (hN : c.N ≤ 254) (hu : Uploadable u) (hj : j + 1 < 2 ^ 16)
    (n : ℕ) : (c.storedFile u).Header (j + 1)
      (reportContainer (((c.storedFile u).placed (j + 1)).report c.nodes n)) := by
  have hst := storedFile_storedBy (c := c) hu
  obtain ⟨hid, hname, hsize, hcount⟩ := hst.header hN hj n
  have hcount8 := hst.count_lt hN
  have hsz : (c.storedFile u).bytes.length < 2 ^ 31 := hu.size_lt
  refine ⟨?_, ?_, ?_, ?_⟩
  · exact (congrArg u16 hid).trans (u16_of_lt hj)
  · exact (congrArg strncpy199 hname).trans (strncpy199_char200 hu.name_ne_zero hu.name_le)
  · exact (congrArg u64 hsize).trans (u64_of_lt (by omega))
  · exact (congrArg u8 hcount).trans (u8_of_lt hcount8)

theorem primary_held {i : ℕ} (hi : i < (c.storedFile u).count) (hN : i < c.N) :
    (c.storedFile u).entry i (i + 1) ∈ heldEntries (c.storedFile u).table (i + 1) := by
  have hentry : (c.storedFile u).entry i (i + 1) =
      primaryEntry c.nodes (c.storedFile u).pieceSize i := by
    rw [primaryEntry, nodes_getD hN]
    rfl
  exact List.mem_filter.mpr ⟨mem_pairs.mpr ⟨i, hi, .inl hentry⟩, decide_eq_true rfl⟩

/-- The first fragment is on node 1. -/
theorem one_mem_livingHolders (c : Cluster) (u : Upload) : 1 ∈ c.livingHolders u := by
  have h2 := c.two_le
  have hpos := (StoredFile.count_bounds (f := c.storedFile u) (by rwa [storedFile, c.nodes_length])).1
  exact mem_livingHolders.mpr ⟨le_rfl, by omega, List.ne_nil_of_mem (primary_held hpos (by omega))⟩

/-- The reports of the survivors in any order, those of the new index among them. -/
theorem Stored.saveReports_survivors (h : c.Stored (c.storeOf us) nw) (hN : c.N ≤ 254)
    {rs : List XReportFileKnowledge} (hperm : rs.Perm (c.survivorReports nw)) :
    ∃ fs' net', saveReports (nw.fs (c.N - 1), xfilenetindexInit) rs = some (fs', net') ∧
      c.Recovered us nw fs' net' := by
  have hlen := h.length_le
  rw [FILE_SERVER_MAX_FILES, storeOf, List.length_map] at hlen
  have h2 := c.two_le
  have hjlen : ∀ {j u}, us[j]? = some u → j < us.length := fun hj =>
    (List.getElem?_eq_some_iff.mp hj).1
  have hst : ∀ {j u}, us[j]? = some u → (c.storedFile u).StoredBy c := fun hj =>
    h.stored _ (List.mem_of_getElem? (getElem?_storeOf hj))
  have hover : ∀ {j u}, us[j]? = some u → ((c.storedFile u).placed (j + 1)).Over c.nodes := fun hj =>
    (hst hj).placed_over hN (by have := hjlen hj; omega)
  let count := fun id => (us[id - 1]?.map fun u => (c.storedFile u).count).getD 0
  have hcount : ∀ {j u}, us[j]? = some u → count (j + 1) = (c.storedFile u).count := fun hj => by
    simp only [count, Nat.add_sub_cancel, hj, Option.map_some, Option.getD_some]
  -- every report is that of a living holder of an uploaded file
  have hfrom : ∀ r ∈ rs, ∃ j u n, us[j]? = some u ∧ n ∈ c.livingHolders u ∧
      r = ((c.storedFile u).placed (j + 1)).report c.nodes n := fun r hr => by
    obtain ⟨n, hn, hrn⟩ := List.mem_flatMap.mp (hperm.mem_iff.mp hr)
    obtain ⟨x, hx, rfl⟩ := List.mem_map.mp hrn
    rw [List.mem_range'_1] at hn
    obtain ⟨j, u, hj, hliving, hreport⟩ := h.mem_survivorReports hn.1 (by omega) hx
    exact ⟨j, u, n, hj, hliving, hreport⟩
  -- what the reports of one file leave of its table
  have htable : ∀ {j u}, us[j]? = some u → ∃ t,
      (rs.filter (·.fileId = j + 1)).foldlM (fun t r => saveEntries r t)
        (xfilenetindexInit.known (j + 1) (count (j + 1))).fragments = some t ∧
      ((c.storedFile u).placed (j + 1)).Rebuilt c.nodes (c.livingHolders u) t := fun {j u} hj => by
    have hfilter := hperm.filter (·.fileId = j + 1)
    rw [h.filter_survivorReports hj] at hfilter
    obtain ⟨hs, heq, hsperm⟩ := (congrFun₂ (List.eq_map_comp_perm _) _ _).mpr hfilter
    obtain ⟨t, ht, hlent, hrebuilt⟩ := (hover hj).foldlM_saveEntries
      (hsperm.nodup_iff.mpr (c.livingHolders_nodup u))
      (fun n hn => holders_of_living (hsperm.mem_iff.mp hn) _)
    refine ⟨t, ?_, hlent, fun i hi => ?_⟩
    · have := hjlen hj
      rw [heq, List.foldlM_map, hcount hj, known_init (by omega) ((hst hj).count_lt hN)]
      exact ht
    · simpa only [PlacedFile.entriesOf, hsperm.mem_iff] using hrebuilt i hi
  let t := fun id => ((rs.filter (·.fileId = id)).foldlM (fun t r => saveEntries r t)
    (xfilenetindexInit.known id (count id)).fragments).getD []
  have ht : ∀ id < 2 ^ 16, (rs.filter (·.fileId = id)).foldlM (fun t r => saveEntries r t)
      (xfilenetindexInit.known id (count id)).fragments = some (t id) := fun id _ => by
    rcases hf : rs.filter (·.fileId = id) with _ | ⟨r, rest⟩
    · simp only [t, hf]
      rfl
    · obtain ⟨hr, hid⟩ := List.mem_filter.mp (hf ▸ List.mem_cons_self : r ∈ rs.filter (·.fileId = id))
      obtain ⟨j, u, n, hj, hn, rfl⟩ := hfrom r hr
      rw [decide_eq_true_eq, ((hover hj).report_ids (holders_of_living hn _)).1] at hid
      obtain rfl : j + 1 = id := hid
      obtain ⟨t', ht', -⟩ := htable hj
      simp only [t, ht', Option.getD_some]
  obtain ⟨fs', net', hrun, -, hfound, hmem, hkeep, hnew⟩ := saveReports_spec count
    (nw.fs (c.N - 1)) xfilenetindexInit t
    (show ∀ r ∈ rs, r.fileId < 2 ^ 16 ∧ r.fragCount = count r.fileId from fun r hr => by
      obtain ⟨j, u, n, hj, hn, rfl⟩ := hfrom r hr
      obtain ⟨hid, hfc⟩ := (hover hj).report_ids (holders_of_living hn _)
      have := hjlen hj
      rw [hid, hfc]
      exact ⟨by simp only [StoredFile.placed]; omega, (hcount hj).symm⟩) ht
  have hreported : ∀ {j u}, us[j]? = some u → ∃ r ∈ rs, r.fileId = j + 1 := fun {j u} hj => by
    have hone := List.mem_map_of_mem (f := ((c.storedFile u).placed (j + 1)).report c.nodes)
      (c.one_mem_livingHolders u)
    rw [← h.filter_survivorReports hj] at hone
    obtain ⟨hr, hid⟩ := List.mem_filter.mp hone
    exact ⟨_, hperm.mem_iff.mpr hr, by simpa using hid⟩
  refine ⟨fs', net', hrun, fun j u hj => ?_, fun x hx => ?_, fun j u hj => ?_, hkeep⟩
  · obtain ⟨t', ht', hrebuilt⟩ := htable hj
    have := hjlen hj
    refine ⟨t', ?_, hrebuilt⟩
    rw [hfound (j + 1) (by omega) (.inr (hreported hj)), hcount hj,
      known_init (by omega) ((hst hj).count_lt hN),
      show t (j + 1) = t' by simp only [t, ht', Option.getD_some]]
  · rcases hmem x hx with hx | ⟨r, hr, rfl⟩
    · exact h.headers hN (by omega) (by omega) hx
    · obtain ⟨j, u, n, hj, hn, rfl⟩ := hfrom r hr
      have := hjlen hj
      exact ⟨j, u, hj, reportContainer_header hN (hst hj).uploadable (by omega) n⟩
  · obtain ⟨r, hr, hid⟩ := hreported hj
    obtain ⟨x, hx⟩ := Option.ne_none_iff_exists'.mp (hnew r hr)
    rw [XFileServer.found_eq] at hx
    exact ⟨x, Keyed.mem_of_get hx, (Keyed.key_of_get hx).trans hid⟩

def failoverPackets (c : Cluster) (server : ℕ → Server) (nw : Network) : List XPacket :=
  (List.range' 1 (c.N - 2)).flatMap fun n => reportPackets (server n) (nw.fs n)

theorem fileReports_reportPackets (sv : Server) (fs : XFileServer)
    (h : ∀ x ∈ fs.files, (reportOf sv.me.nodeId x).Fits) :
    fileReports (reportPackets sv fs) = fs.files.map (reportOf sv.me.nodeId) := by
  have hself : commType (xpacketReportSelf sv) ≠ TYPE_REPORT_FILE := by
    rw [xpacketReportSelf, xpacketNew, commType_commPacket]
    decide
  rw [reportPackets, fileReports, List.filterMap_cons, if_neg hself, List.filterMap_map,
    ← List.filterMap_eq_map]
  refine List.filterMap_congr fun x hx => ?_
  simp only [Function.comp_apply, xpacketReportFile, xpacketNew, commType_commPacket,
    content_commPacket, XReportFileKnowledge.ofContent_bytes (h x hx)]
  rfl

theorem presents_of_mem {n : ℕ} (hn : n < 2 ^ 64) {sv : Server} (hme : sv.me = ⟨c.addr n, n⟩)
    {fs : XFileServer} {p : XPacket} (hp : p ∈ reportPackets sv fs)
    (hself : commType p = TYPE_REPORT_SELF) : c.Presents n p := by
  rcases List.mem_cons.mp hp with rfl | hp
  · refine ⟨hself, ?_, ?_⟩
    · rw [xpacketReportSelf, xpacketNew, commSenderId_commPacket, hme, Nat.mod_eq_of_lt hn]
    · rw [xpacketReportSelf, xpacketNew, content_commPacket, XPeerReportMessage.ofContent_bytes, hme]
  · obtain ⟨x, -, rfl⟩ := List.mem_map.mp hp
    rw [xpacketReportFile, xpacketNew, commType_commPacket] at hself
    exact absurd hself (by decide)

theorem Stored.report_fits (h : c.Stored (c.storeOf us) nw) (hN : c.N ≤ 254) {n : ℕ} (h1 : 1 ≤ n)
    (hn : n < c.N) {x : XFileContainer} (hx : x ∈ (nw.fs n).files) : (reportOf n x).Fits := by
  obtain ⟨j, u, hj, hliving, hreport⟩ := h.mem_survivorReports h1 hn hx
  have hst := h.stored _ (List.mem_of_getElem? (getElem?_storeOf hj))
  have hlen := h.length_le
  rw [FILE_SERVER_MAX_FILES, storeOf, List.length_map] at hlen
  have hjlen := (List.getElem?_eq_some_iff.mp hj).1
  rw [hreport]
  refine PlacedFile.Over.report_fits (hst.placed_over hN (by omega)) (fun m hm => ?_)
    (holders_of_living hliving _)
  have := (hst.mem_bounds hm).2
  omega

/-! ## The request -/

end Cluster

/-- Of the two entries of a fragment, the one the index chooses is that of a holder
that reported, if there is one. -/
theorem PlacedFile.Rebuilt.choose {f : PlacedFile} {l rs : List ℕ} {t : List XFragmentNetworkPointer}
    (h : f.Rebuilt l rs t) {i : ℕ} (hi : i < f.fc)
    (hor : l.getD i 0 ∈ rs ∨ l.getD ((i + 1) % l.length) 0 ∈ rs) (valid : ℕ → Bool)
    (h0 : valid 0 = false) (hv : ∀ n ∈ rs, valid n = true) {e : XFragmentNetworkPointer}
    (he : e = if valid (t.getD (2 * i) .zero).nodeId then t.getD (2 * i) .zero
      else t.getD (2 * i + 1) .zero) :
    e.nodeId ∈ rs ∧ (e = primaryEntry l f.size i ∨ e = secondaryEntry l f.size i) := by
  have hperm := h.2 i hi
  have hmem : ∀ e', e' ∈ [t.getD (2 * i) .zero, t.getD (2 * i + 1) .zero] → e' = .zero ∨
      e'.nodeId ∈ rs ∧ (e' = primaryEntry l f.size i ∨ e' = secondaryEntry l f.size i) := by
    intro e' he'
    rw [hperm.mem_iff, entriesOf, List.mem_pair] at he'
    split_ifs at he' with hp hs hs
    · rcases he' with rfl | rfl
      exacts [.inr ⟨hp, .inl rfl⟩, .inr ⟨hs, .inr rfl⟩]
    · rcases he' with rfl | rfl
      exacts [.inr ⟨hp, .inl rfl⟩, .inl rfl]
    · rcases he' with rfl | rfl
      exacts [.inl rfl, .inr ⟨hs, .inr rfl⟩]
    · rcases he' with rfl | rfl
      exacts [.inl rfl, .inl rfl]
  by_cases hfirst : t.getD (2 * i) .zero = .zero
  · rw [hfirst, show valid XFragmentNetworkPointer.zero.nodeId = false from h0] at he
    rw [if_neg (by simp)] at he
    subst he
    rcases hmem (t.getD (2 * i + 1) .zero) (by simp) with hsecond | hsecond
    · -- both entries cannot be missing
      rw [hfirst, hsecond, entriesOf] at hperm
      exfalso
      rcases hor with hp | hs
      · have hz := hperm.mem_iff.mpr (List.mem_cons_self)
        rw [if_pos hp] at hz
        simp [primaryEntry, XFragmentNetworkPointer.zero] at hz
      · have hz := hperm.mem_iff.mpr (List.mem_cons_of_mem _ (List.mem_cons_self))
        rw [if_pos hs] at hz
        simp [secondaryEntry, XFragmentNetworkPointer.zero] at hz
    · exact hsecond
  · obtain ⟨hrs, hentry⟩ := (hmem (t.getD (2 * i) .zero) (by simp)).resolve_left hfirst
    rw [if_pos (hv _ hrs)] at he
    exact he ▸ ⟨hrs, hentry⟩

namespace Cluster

variable {c : Cluster} {u : Upload} {us : List Upload} {nw : Network}

structure NewIndex (c : Cluster) (sv : Server) : Prop where
  me : sv.me.nodeId = c.N - 1
  netSize : sv.netSize = c.N - 1
  deathCount : sv.deathCount = 1
  indexData : ∃ d, sv.indexData = some d ∧ ∀ n, 1 ≤ n → n ≤ c.N - 2 → d.peerIp n = c.addr n

theorem NewIndex.isValid {sv : Server} (h : c.NewIndex sv) {n : ℕ} (h1 : 1 ≤ n) (hn : n < c.N) :
    serverIsValidNode sv n = true := by
  obtain ⟨d, hd, hips⟩ := h.indexData
  rw [serverIsValidNode, if_neg (by omega), hd, h.me]
  by_cases he : n = c.N - 1
  · rw [if_pos he]
  · rw [if_neg he]
    simpa [hips n h1 (by omega)] using c.port_ne_zero n h1 hn.le

/-- Of the two entries of a fragment the index chooses that of a node that is left and stores it. -/
theorem Stored.chosen_entry (h : c.Stored (c.storeOf us) nw) (hN : c.N ≤ 254) {sv : Server}
    (hsv : c.NewIndex sv) {fs : XFileServer} {net : XFileNetworkIndex} (hrec : c.Recovered us nw fs net)
    {j : ℕ} (hj : us[j]? = some u) {t : List XFragmentNetworkPointer}
    (ht : ((c.storedFile u).placed (j + 1)).Rebuilt c.nodes (c.livingHolders u) t) {i : ℕ}
    (hi : i < (c.storedFile u).count) {e : XFragmentNetworkPointer}
    (he : e = if serverIsValidNode sv (t.getD (2 * i) .zero).nodeId then t.getD (2 * i) .zero
      else t.getD (2 * i + 1) .zero) :
    e = (c.storedFile u).entry i e.nodeId ∧ 1 ≤ e.nodeId ∧ e.nodeId < c.N ∧
      (c.storedFile u).Stores (if e.nodeId = c.N - 1 then fs else nw.fs e.nodeId) (j + 1) i := by
  have hlen := h.length_le
  rw [FILE_SERVER_MAX_FILES] at hlen
  have hjfile := getElem?_storeOf (c := c) hj
  have hjlen := (List.getElem?_eq_some_iff.mp hjfile).1
  have hst := h.stored _ (List.mem_of_getElem? hjfile)
  have hle : (c.storedFile u).count ≤ c.N :=
    (StoredFile.count_bounds hst.two_le).2.trans hst.length_nodes_le
  -- one of the two holders of the fragment lives
  have hor : c.nodes.getD i 0 ∈ c.livingHolders u ∨
      c.nodes.getD ((i + 1) % c.nodes.length) 0 ∈ c.livingHolders u := by
    rw [nodes_length, nodes_getD (by omega)]
    by_cases hlast : i + 1 = c.N
    · rw [hlast, Nat.mod_self, nodes_getD (by omega)]
      exact .inr (c.one_mem_livingHolders u)
    · exact .inl (mem_livingHolders.mpr
        ⟨by omega, by omega, List.ne_nil_of_mem (primary_held hi (by omega))⟩)
  obtain ⟨hliving, hentry⟩ := ht.choose hi hor (serverIsValidNode sv) rfl
    (fun n hn => hsv.isValid (mem_livingHolders.mp hn).1 (mem_livingHolders.mp hn).2.1) he
  obtain ⟨h1, hlt, hne⟩ := mem_livingHolders.mp hliving
  have heq : e = (c.storedFile u).entry i e.nodeId := by
    rcases hentry with hentry | hentry <;> rw [hentry] <;> rfl
  have hheld : e ∈ heldEntries (c.storedFile u).table e.nodeId :=
    List.mem_filter.mpr ⟨mem_pairs.mpr ⟨i, hi, hentry⟩, by simp⟩
  have hown := h.found_of_held h1 hlt.le hjfile hne
  refine ⟨heq, h1, hlt, hst.stores_of_held hN (by omega) (mem_nodes.mpr ⟨h1, hlt.le⟩) hi
    (heq ▸ hheld) ?_⟩
  split_ifs with hnew
  · exact hrec.own _ _ (hnew ▸ hown)
  · exact hown

/-- What the new index chooses for a file: every fragment is asked of a living node that stores it. -/
theorem Stored.chosen (h : c.Stored (c.storeOf us) nw) (h4 : 4 ≤ c.N) (hN : c.N ≤ 254) {sv : Server}
    (hsv : c.NewIndex sv) {fs : XFileServer} {net : XFileNetworkIndex} (hrec : c.Recovered us nw fs net)
    {j : ℕ} (hj : us[j]? = some u) {t : List XFragmentNetworkPointer}
    (ht : ((c.storedFile u).placed (j + 1)).Rebuilt c.nodes (c.livingHolders u) t) :
    ∃ node : ℕ → ℕ, selectFragments sv t (c.storedFile u).count =
        (List.range (c.storedFile u).count).map (fun i => (c.storedFile u).entry i (node i)) ∧
      ∀ i < (c.storedFile u).count, 1 ≤ node i ∧ node i < c.N ∧
        (c.storedFile u).Stores (if node i = c.N - 1 then fs else nw.fs (node i)) (j + 1) i := by
  have hst := h.stored _ (List.mem_of_getElem? (getElem?_storeOf hj))
  have hfc : (c.storedFile u).count = 1 ∨ (c.storedFile u).count = c.N := by
    have hcases := (c.storedFile u).count_cases
    rwa [show (c.storedFile u).nodes = c.nodes from rfl, c.nodes_length] at hcases
  -- the fragment count is never twice the counted nodes, so the validity test is made
  have hbranch : ¬ toU64 ((c.storedFile u).count : ℤ) = u64 (sv.netSize * 2) := by
    rw [toU64_natCast (by omega), hsv.netSize, u64_of_lt (by omega)]
    omega
  have hone := fun i (hi : i < (c.storedFile u).count) => h.chosen_entry hN hsv hrec hj ht hi rfl
  refine ⟨fun i => (if serverIsValidNode sv (t.getD (2 * i) .zero).nodeId then
    t.getD (2 * i) .zero else t.getD (2 * i + 1) .zero).nodeId, ?_, fun i hi => (hone i hi).2⟩
  rw [selectFragments, Int.toNat_natCast]
  refine List.map_congr_left fun i hi => ?_
  rw [← (hone i (List.mem_range.mp hi)).1]
  simp only [hsv.deathCount, Nat.zero_lt_one, if_true, hbranch, if_false, REDUNDANCY, Nat.mul_comm i 2]

/-! ## Node `N - 1` takes over -/

/-- Node `N - 1` learns that the index, its forward peer, died. -/
theorem NodeReady.check {sv : Server} (h : c.NodeReady (c.N - 1) sv) (h3 : 3 ≤ c.N)
    (dial : Address → Option ℕ) {p : XPacket} (ht : commType p = TYPE_PEER_DIED)
    (hp : (XPeerDied.ofContent (content p)).peerId = c.N) :
    ∃ sv', xprocedureCheckPeerB dial sv p = some ⟨sv', none⟩ ∧ sv'.state = .beginOperation ∧
      sv'.me = sv.me ∧ sv'.netSize = c.N - 1 ∧ sv'.deathCount = 1 := by
  have hlt := c.N_lt
  have hdec : dec64 c.N = c.N - 1 := dec64_of_pos (by omega) (by omega)
  have hpeer : sv.peerF.nodeId = c.N := by
    rw [h.peerF, Nat.mod_eq_of_lt (by omega), Nat.sub_add_cancel (by omega)]
  obtain ⟨r, hr, hsent⟩ : ∃ r, peerDiedNeighbour dial
      { sv with netSize := dec64 sv.netSize, deathCount := inc64 sv.deathCount } p = some r ∧
        r.sent = none := by
    simp only [peerDiedNeighbour, hp, hpeer, if_true, h.netSize, hdec,
      if_neg (show ¬ c.N - 1 = 0 by omega)]
    exact ⟨_, rfl, rfl⟩
  obtain ⟨hme, -, hnet, hdeath, hindex, -⟩ := peerDiedNeighbour_frame hr
  dsimp only at hme hnet hdeath hindex
  have hnot : serverIsIndex r.sv = false := by
    rw [serverIsIndex, hindex, hme, h.index, h.me]
    exact decide_eq_false (show c.N ≠ c.N - 1 by omega)
  refine ⟨serverSetState r.sv .beginOperation, ?_, rfl, hme, ?_, ?_⟩
  · simp only [xprocedureCheckPeerB, if_pos ht, hr, Option.bind_eq_bind, Option.bind_some,
      peerDiedIndex, hnot, Bool.false_eq_true, if_false, hp, hindex, h.index, if_true, hsent]
    rfl
  · exact hnet.trans (by rw [h.netSize, hdec])
  · exact hdeath.trans (by rw [h.deathCount]; rfl)

theorem Stored.reports_perm (h : c.Stored (c.storeOf us) nw) (h3 : 3 ≤ c.N) (hN : c.N ≤ 254)
    {server : ℕ → Server} (hserver : ∀ n, 1 ≤ n → n < c.N → (server n).me = ⟨c.addr n, n⟩)
    {ps : List XPacket} (hperm : ps.Perm (c.failoverPackets server nw)) :
    ((nw.fs (c.N - 1)).files.map (reportOf (c.N - 1)) ++ fileReports ps).Perm
      (c.survivorReports nw) := by
  have hsplit : List.range' 1 (c.N - 1) = List.range' 1 (c.N - 2) ++ [c.N - 1] := by
    rw [show c.N - 1 = c.N - 2 + 1 by omega, List.range'_concat, Nat.one_mul,
      Nat.add_comm 1 (c.N - 2)]
  have hpackets : fileReports (c.failoverPackets server nw) =
      (List.range' 1 (c.N - 2)).flatMap fun n => (nw.fs n).files.map (reportOf n) := by
    rw [fileReports, failoverPackets, List.filterMap_flatMap]
    refine List.flatMap_congr fun n hn => ?_
    rw [List.mem_range'_1] at hn
    have hme : (server n).me.nodeId = n := by rw [hserver n hn.1 (by omega)]
    have hreports := fileReports_reportPackets (server n) (nw.fs n) (fun x hx => by
      rw [hme]
      exact h.report_fits hN hn.1 (by omega) hx)
    rw [hme] at hreports
    exact hreports
  rw [survivorReports, hsplit, List.flatMap_append, List.flatMap_singleton, ← hpackets]
  exact List.perm_append_comm.trans ((hperm.filterMap _).append_right _)

/-- Every survivor presents itself once. -/
theorem presented {server : ℕ → Server} (h3 : 3 ≤ c.N)
    (hserver : ∀ n, 1 ≤ n → n < c.N → (server n).me = ⟨c.addr n, n⟩) {ps : List XPacket}
    (hperm : ps.Perm (c.failoverPackets server nw)) :
    (∀ p ∈ ps, commType p = TYPE_REPORT_SELF → ∃ n, 1 ≤ n ∧ n ≤ c.N - 2 ∧ c.Presents n p) ∧
      (∀ n, 1 ≤ n → n ≤ c.N - 2 → ∃ p ∈ ps, c.Presents n p) ∧
      ps.countP (fun p => commType p = TYPE_REPORT_SELF) = c.N - 2 := by
  have hN := c.N_lt
  have hself : ∀ sv, commType (xpacketReportSelf sv) = TYPE_REPORT_SELF := fun sv => by
    rw [xpacketReportSelf, xpacketNew, commType_commPacket]
    decide
  refine ⟨fun p hp ht => ?_, fun n h1 hn => ?_, ?_⟩
  · obtain ⟨n, hn, hp⟩ := List.mem_flatMap.mp (hperm.mem_iff.mp hp)
    rw [List.mem_range'_1] at hn
    exact ⟨n, hn.1, by omega, presents_of_mem (by omega) (hserver n hn.1 (by omega)) hp ht⟩
  · refine ⟨xpacketReportSelf (server n), hperm.mem_iff.mpr (List.mem_flatMap.mpr
      ⟨n, List.mem_range'_1.mpr (by omega), List.mem_cons_self⟩), ?_⟩
    exact presents_of_mem (by omega) (hserver n h1 (by omega))
      (List.mem_cons_self : _ ∈ reportPackets (server n) (nw.fs n)) (hself _)
  · have hone : ∀ n, (reportPackets (server n) (nw.fs n)).countP
        (fun p => commType p = TYPE_REPORT_SELF) = 1 := fun n => by
      rw [reportPackets, List.countP_cons_of_pos (by simpa using hself _), List.countP_map,
        List.countP_eq_zero.mpr]
      intro x _
      simp only [Function.comp_apply, xpacketReportFile, xpacketNew, commType_commPacket]
      decide
    rw [hperm.countP_eq, failoverPackets, List.countP_flatMap]
    simp only [Function.comp_def, hone, List.map_const', List.sum_replicate, smul_eq_mul, mul_one,
      List.length_range']

theorem newIndex_of_packets {server : ℕ → Server} (h3 : 3 ≤ c.N)
    (hserver : ∀ n, 1 ≤ n → n < c.N → (server n).me = ⟨c.addr n, n⟩) {ps : List XPacket}
    (hperm : ps.Perm (c.failoverPackets server nw)) {sv : Server} (hme : sv.me.nodeId = c.N - 1)
    (hnet : sv.netSize = c.N - 1) (hdeath : sv.deathCount = 1) (knownPeers : ℕ) :
    let sv' := ps.foldl savePeer (serverIndexPresentItself
      (serverSetState (allocIndexData knownPeers sv) .indexPresentItself)).1
    c.NewIndex sv' ∧ sv'.connected = c.N - 2 := by
  intro sv'
  have hN := c.N_lt
  obtain ⟨hps1, hps2, hcount⟩ := presented h3 hserver hperm
  set sv1 := (serverIndexPresentItself
    (serverSetState (allocIndexData knownPeers sv) .indexPresentItself)).1 with hsv1
  have hconn : sv1.connected = 0 := rfl
  have hgathered := MainLoop.gathered_foldl_savePeer ps (show sv1.connected < 2 ^ 64 by omega)
  obtain ⟨d', hd', hips⟩ := foldl_savePeer_peerIp sv1 ps hps1 rfl
    (by simp only [List.length_replicate]; omega)
  refine ⟨⟨?_, hgathered.netSize.trans hnet, (foldl_savePeer_deathCount ps sv1).trans hdeath, d', hd',
    fun n h1 hn => (hips n h1 hn).resolve_right fun h => h.2 (hps2 n h1 hn)⟩, ?_⟩
  · exact (congrArg XWhoAmI.nodeId hgathered.me).trans hme
  · refine hgathered.connected.trans ?_
    rw [MainLoop.reportCount, hcount, hconn, Nat.zero_add, u64_of_lt (by omega)]

end Cluster

/-- The index died: node `N - 1` takes over, and whatever the order of the reports,
finds every file, and for each of its fragments a living node that stores it. -/
theorem failover_keeps_files {c : Cluster} (h4 : 4 ≤ c.N) (hN : c.N ≤ 254) {sv : Server}
    (hready : c.IndexReady sv) {us : List Upload} (hus : ∀ u ∈ us, Uploadable u)
    (hnames : (us.map Prod.fst).Nodup) (hlen : us.length ≤ FILE_SERVER_MAX_FILES) :
    ∃ nw, Network.uploads c sv us = some nw ∧
      ∀ (server : ℕ → Server) (dial : Address → Option ℕ) (p : XPacket) (knownPeers : ℕ),
        (∀ n, 1 ≤ n → n < c.N → (server n).me = ⟨c.addr n, n⟩) →
        c.NodeReady (c.N - 1) (server (c.N - 1)) →
        commType p = TYPE_PEER_DIED → (XPeerDied.ofContent (content p)).peerId = c.N →
        ∃ sv1 nd1, xprocedureCheckPeerB dial (server (c.N - 1)) p = some ⟨sv1, none⟩ ∧
          sv1.state = .beginOperation ∧
          serverBeginOperation knownPeers ⟨sv1, nw.fs (c.N - 1), xfilenetindexInit⟩ = some nd1 ∧
          nd1.sv.state = .indexPresentItself ∧
          ∀ ps : List XPacket, ps.Perm (c.failoverPackets server nw) →
            ∃ nd2, ps.foldlM receiveKnowledge
                { nd1 with sv := (serverIndexPresentItself nd1.sv).1 } = some nd2 ∧
              nd2.sv.connected = nd2.sv.netSize - 1 ∧
              ∀ j u, us[j]? = some u →
                (∃ x, ((xfileserverFindFileByName nd2.fs (char200 u.1)).bind
                  fun k => nd2.fs.files[k]?) = some x ∧ (c.storedFile u).Header (j + 1) x) ∧
                nd2.fnetidx.found (j + 1) ≠ none ∧
                ∀ deliverTo, ∃ frags orders,
                  serverIndexRequestFragments nd2.sv nd2.fnetidx ((j + 1 : ℕ) : ℤ)
                    (c.storedFile u).count deliverTo = some (frags, orders) ∧
                  frags.length = (c.storedFile u).count ∧
                  ∀ i e, frags[i]? = some e → e.fragment = i + 1 ∧
                    e.size = (c.storedFile u).pieceSize i ∧ 1 ≤ e.nodeId ∧ e.nodeId < c.N ∧
                    (c.storedFile u).Stores (if e.nodeId = c.N - 1 then nd2.fs else nw.fs e.nodeId)
                      (j + 1) i := by
  obtain ⟨nw, hrun, hst⟩ := Cluster.uploads_stored hN hready hus hlen
  refine ⟨nw, hrun, fun server dial p knownPeers hserver hnode ht hp => ?_⟩
  obtain ⟨sv1, hcheck, hstate, hme, hnet, hdeath⟩ := hnode.check (by omega) dial ht hp
  have hme1 : sv1.me.nodeId = c.N - 1 := by rw [hme, hserver (c.N - 1) (by omega) (by omega)]
  have hbegin := serverBeginOperation_eq (hnet.trans hme1.symm) knownPeers (nw.fs (c.N - 1))
    xfilenetindexInit
  have hall := fun (ps : List XPacket) (hps : ps.Perm (c.failoverPackets server nw)) =>
    hst.saveReports_survivors hN (hst.reports_perm (by omega) hN hserver hps)
  -- the new index's own reports come first
  obtain ⟨st1, hown⟩ : ∃ st1, saveReports (nw.fs (c.N - 1), xfilenetindexInit)
      ((nw.fs (c.N - 1)).files.map (reportOf (c.N - 1))) = some st1 := by
    obtain ⟨fs', net', hrun', -⟩ := hall _ (List.Perm.refl _)
    rw [saveReports, List.foldlM_append] at hrun'
    obtain ⟨st1, hst1, -⟩ := Option.bind_eq_some_iff.mp hrun'
    exact ⟨st1, hst1⟩
  rw [hme1, hown] at hbegin
  refine ⟨sv1, _, hcheck, hstate, hbegin, rfl, fun ps hps => ?_⟩
  obtain ⟨fs', net', hrun', hrec⟩ := hall ps hps
  rw [saveReports, List.foldlM_append] at hrun'
  obtain ⟨st1', hown', hrest⟩ := Option.bind_eq_some_iff.mp hrun'
  obtain rfl : st1' = st1 := Option.some.inj (hown'.symm.trans hown)
  obtain ⟨hnew, hconn⟩ := Cluster.newIndex_of_packets (by omega) hserver hps hme1 hnet hdeath
    knownPeers
  rw [foldlM_receiveKnowledge]
  refine ⟨_, congrArg (Option.map _) hrest, ?_, fun j u hj => ⟨?_, ?_, fun deliverTo => ?_⟩⟩
  · exact hconn.trans (by rw [hnew.netSize]; rfl)
  · exact Cluster.findByName_of_headers hus hnames hrec.headers hj (hrec.known j u hj)
  · obtain ⟨t, hfound, -⟩ := hrec.tables j u hj
    simp [hfound]
  · obtain ⟨d, hd, -⟩ := hnew.indexData
    obtain ⟨t, hfound, hrebuilt⟩ := hrec.tables j u hj
    obtain ⟨node, hselect, hnode⟩ := hst.chosen h4 hN hnew hrec hj hrebuilt
    have hjlen := (List.getElem?_eq_some_iff.mp hj).1
    rw [FILE_SERVER_MAX_FILES] at hlen
    refine ⟨_, _, serverIndexRequestFragments_eq hd (by omega) hfound _ _, ?_, fun i e he => ?_⟩
    · rw [hselect, List.length_map, List.length_range]
    · rw [hselect, List.getElem?_map, Option.map_eq_some_iff] at he
      obtain ⟨i', hi', rfl⟩ := he
      obtain ⟨hi, rfl⟩ := List.getElem?_eq_some_iff.mp hi'
      rw [List.length_range] at hi
      rw [List.getElem_range]
      exact ⟨rfl, rfl, hnode i hi⟩

/-- Four nodes, a file of 200 bytes; the reports arrive in reverse. -/
theorem failover_keeps_files_four_nodes :
    let c := Cluster.boot 4 (by decide) (by decide)
    let u : Upload := ([97], List.replicate 200 7)
    let server := fun n => serverInit (c.args n) ⟨4, c.addr 4, none, true⟩
    ∃ nw sv1 nd1 nd2 frags orders, Network.uploads c c.readyIndex [u] = some nw ∧
      xprocedureCheckPeerB (fun _ => none) (server 3) (xpacketPeerDead (server 1) 4) =
        some ⟨sv1, none⟩ ∧
      serverBeginOperation 0 ⟨sv1, nw.fs 3, xfilenetindexInit⟩ = some nd1 ∧
      (c.failoverPackets server nw).reverse.foldlM receiveKnowledge
        { nd1 with sv := (serverIndexPresentItself nd1.sv).1 } = some nd2 ∧
      serverIndexRequestFragments nd2.sv nd2.fnetidx 1 4 1 = some (frags, orders) ∧
      frags.length = 4 ∧ ∀ i e, frags[i]? = some e → e.fragment = i + 1 ∧ e.nodeId < 4 := by
  intro c u server
  have hlen : u.2.length = 200 := List.length_replicate
  have hus : ∀ v ∈ [u], Uploadable v := by
    simp only [List.mem_singleton, forall_eq]
    exact ⟨by simp [u], by decide, by decide, by rw [hlen]; norm_num, by rw [hlen]; norm_num⟩
  have hfc : (c.storedFile u).count = 4 := by
    rw [StoredFile.count, Cluster.storedFile, hlen]
    decide
  obtain ⟨nw, hrun, h⟩ := failover_keeps_files (c := c) (by decide) (by decide) c.readyIndex_ready
    hus (by decide) (by decide)
  obtain ⟨sv1, nd1, hcheck, -, hbegin, -, hall⟩ := h server (fun _ => none)
    (xpacketPeerDead (server 1) 4) 0 (fun _ _ _ => rfl) ⟨rfl, rfl, rfl, rfl, rfl⟩
    (by rw [xpacketPeerDead, commType_commPacket]; decide)
    (by rw [xpacketPeerDead, content_commPacket, XPeerDied.ofContent_bytes]; decide)
  obtain ⟨nd2, hrun2, -, hfiles⟩ := hall _ (c.failoverPackets server nw).reverse_perm
  obtain ⟨-, -, hreq⟩ := hfiles 0 u rfl
  obtain ⟨frags, orders, hfrags, hcount, hmem⟩ := hreq 1
  rw [hfc] at hfrags hcount
  exact ⟨nw, sv1, nd1, nd2, frags, orders, hrun, hcheck, hbegin, hrun2, hfrags, hcount,
    fun i e he => ⟨(hmem i e he).1, (hmem i e he).2.2.2.1⟩⟩

end DSS
