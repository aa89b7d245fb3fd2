import DistStore.Proofs.RingSteps
import DistStore.Proofs.TableRange

/-! The peers register at a new index: each reports itself once, in any order. -/

namespace DSS

open Transition

/-- A connection on which node `n` identifies itself and reports itself once; what else it
sends is no report of a node. -/
structure Cluster.Registers (c : Cluster) (n : ℕ) (io : PassIo) : Prop where
  accept : io.accept.isSome
  sent : io.sent = true
  identified : ∃ r rs, io.conn = r :: rs ∧ serverWaitClientPresentation (serverWaitFromSocket r) ≠ 0
  once : ∃ p, (knowledgePackets io.conn.tail).filter (fun p => commType p = TYPE_REPORT_SELF) = [p] ∧
    c.Presents n p

/-- The index after the nodes `ns` have registered, on what `malloc` returned. -/
structure Cluster.Known (c : Cluster) (mem : IndexMemory) (ns : List ℕ) (sv : Server) : Prop where
  nodes : ∀ n ∈ ns, 1 ≤ n ∧ n < c.N
  me : sv.me.nodeId = c.N
  netSize : sv.netSize = c.N
  connected : sv.connected = ns.length
  state : sv.state = if ns.length = c.N - 1 then .idle else .indexWaitingPeersKnowledge
  table : ∃ d, sv.indexData = some d ∧ d.peerIps.length = c.N ∧
    d.knownPeers = mem.knownPeers + ns.length ∧ ∀ n ∈ ns, d.peerIp n = c.addr n

/-- The index knows every other node by its address, and counts them. -/
def Cluster.Registered (c : Cluster) (sv : Server) : Prop :=
  ∃ d, sv.indexData = some d ∧ d.knownPeers = c.N - 1 ∧ ∀ n, 1 ≤ n → n < c.N → d.peerIp n = c.addr n

section registration

variable {c : Cluster} {mem : IndexMemory}

theorem Cluster.Known.presented {nd nd' : Node} (hme : nd.sv.me.nodeId = c.N)
    (hsize : nd.sv.netSize = c.N) (h : serverBeginIndexIn mem nd = some nd') :
    c.Known mem [] (serverIndexPresentItself nd'.sv).1 := by
  have h2 := c.two_le
  simp only [serverBeginIndexIn, Option.bind_eq_bind, Option.pure_def] at h
  obtain ⟨t, -, h⟩ := Option.bind_eq_some_iff.mp h
  obtain rfl := Option.some.inj h
  refine ⟨fun n hn => absurd hn List.not_mem_nil, hme, hsize, rfl, ?_, _, rfl, ?_, rfl,
    fun n hn => absurd hn List.not_mem_nil⟩
  · rw [if_neg (by simp only [List.length_nil]; omega)]
    rfl
  · rw [List.length_map, List.length_range]
    exact hsize

theorem Cluster.Known.register {ns : List ℕ} {n : ℕ} {io : PassIo} {st st' : MainLoop}
    (h : c.Known mem ns st.sv) (hlen : ns.length + 1 < c.N) (h1 : 1 ≤ n) (hn : n < c.N)
    (hio : c.Registers n io) (hpass : st.pass io = some st') : c.Known mem (n :: ns) st'.sv := by
  have hN := c.N_lt
  obtain ⟨d, hd, hsize, hknown, hips⟩ := h.table
  obtain ⟨r, rs, hconn, hid⟩ := hio.identified
  obtain ⟨p, hself, hp⟩ := hio.once
  rw [hconn, List.tail_cons] at hself
  obtain ⟨a, haccept⟩ := Option.isSome_iff_exists.mp hio.accept
  have hstate : st.sv.state = .indexWaitingPeersKnowledge := h.state.trans (if_neg (by omega))
  simp only [MainLoop.pass, hstate, MainLoop.indexWaitingPeersKnowledge, hd, haccept, hconn, hid,
    hio.sent, Bool.true_eq_false, or_self, if_false] at hpass
  split_ifs at hpass
  obtain ⟨nd, hnd, hpass⟩ := Option.bind_eq_some_iff.mp hpass
  obtain rfl := Option.some.inj hpass
  rw [knowledgeLoop, foldlM_receiveKnowledge] at hnd
  obtain ⟨t, -, rfl⟩ := Option.map_eq_some_iff.mp hnd
  set ps := knowledgePackets rs
  have hcount : MainLoop.reportCount ps = 1 := by
    rw [MainLoop.reportCount, List.countP_eq_length_filter, hself, List.length_singleton]
  have hsender : ∀ q ∈ ps, commType q = TYPE_REPORT_SELF → q = p := by
    intro q hq htype
    have hmem : q ∈ ps.filter fun p => commType p = TYPE_REPORT_SELF :=
      List.mem_filter.mpr ⟨hq, decide_eq_true htype⟩
    rw [hself] at hmem
    exact List.mem_singleton.mp hmem
  have hmem : p ∈ ps := (List.mem_filter.mp (hself ▸ List.mem_singleton_self p)).1
  -- the counters, and the table
  have hgathered := MainLoop.gathered_foldl_savePeer ps
    (show st.sv.connected < 2 ^ 64 by rw [h.connected]; omega)
  obtain ⟨d1, hd1, hsize1, hknown1⟩ := hgathered.table d hd
  have hconnected : (ps.foldl savePeer st.sv).connected = ns.length + 1 := by
    rw [hgathered.connected, hcount, h.connected, u64_of_lt (by omega)]
  obtain ⟨d2, hd2, hips2⟩ := foldl_savePeer_peerIp (m := c.N) st.sv ps
    (fun q hq htype => ⟨n, h1, hn.le, hsender q hq htype ▸ hp⟩) hd hsize.ge
  obtain rfl : d1 = d2 := Option.some.inj (hd1.symm.trans hd2)
  have hdone : indexClientDone (ps.foldl savePeer st.sv) =
      if ns.length + 1 = c.N - 1 then serverSetState (ps.foldl savePeer st.sv) .idle
      else ps.foldl savePeer st.sv := by
    rw [indexClientDone, hgathered.netSize, h.netSize, hconnected, dec64_of_pos (by omega) (by omega)]
  have htable : ∃ d', (ps.foldl savePeer st.sv).indexData = some d' ∧ d'.peerIps.length = c.N ∧
      d'.knownPeers = mem.knownPeers + (ns.length + 1) ∧ ∀ m ∈ n :: ns, d'.peerIp m = c.addr m := by
    refine ⟨d1, hd1, hsize1.trans hsize, by omega, fun m hm => ?_⟩
    rcases List.mem_cons.mp hm with rfl | hm
    · exact (hips2 m h1 hn.le).resolve_right fun hno => hno.2 ⟨p, hmem, hp⟩
    · obtain ⟨hm1, hmN⟩ := h.nodes m hm
      rcases hips2 m hm1 hmN.le with hnew | ⟨hold, -⟩
      · exact hnew
      · exact hold.trans (hips m hm)
  have hnodes : ∀ m ∈ n :: ns, 1 ≤ m ∧ m < c.N := by
    intro m hm
    rcases List.mem_cons.mp hm with rfl | hm
    · exact ⟨h1, hn⟩
    · exact h.nodes m hm
  have hme := (congrArg XWhoAmI.nodeId hgathered.me).trans h.me
  have hnet := hgathered.netSize.trans h.netSize
  show c.Known mem (n :: ns) (indexClientDone (ps.foldl savePeer st.sv))
  rw [hdone]
  split_ifs with hall
  · exact ⟨hnodes, hme, hnet, hconnected, (if_pos hall).symm, htable⟩
  · exact ⟨hnodes, hme, hnet, hconnected, (hgathered.state.trans hstate).trans (if_neg hall).symm, htable⟩

theorem Cluster.Known.run {ns ms : List ℕ} {ios : List PassIo} {st st' : MainLoop}
    (h : c.Known mem ns st.sv) (hlen : ns.length + ms.length < c.N)
    (hms : ∀ n ∈ ms, 1 ≤ n ∧ n < c.N) (hios : List.Forall₂ c.Registers ms ios)
    (hrun : run (fun st io => MainLoop.pass io st) st ios = some st') :
    c.Known mem (ms.reverse ++ ns) st'.sv := by
  induction hios generalizing ns st with
  | nil => exact Option.some.inj hrun ▸ h
  | @cons m io ms ios hio _ ih =>
    obtain ⟨t, ht, hrun⟩ := run_cons.mp hrun
    rw [List.length_cons] at hlen
    obtain ⟨hm1, hmN⟩ := hms m (by simp)
    have hstep := h.register (by omega) hm1 hmN hio ht
    rw [List.reverse_cons, List.append_assoc, List.singleton_append]
    exact ih hstep (by simp only [List.length_cons]; omega)
      (fun n hn => hms n (List.mem_cons_of_mem _ hn)) hrun

end registration

/-- Once each other node has registered, in whatever order, the index is idle and has every
address; its count of them is right exactly if `known_peers` was zero in the memory that
`malloc` returned. -/
theorem registered_iff {c : Cluster} {mem : IndexMemory} {nd nd' : Node}
    (hme : nd.sv.me.nodeId = c.N) (hsize : nd.sv.netSize = c.N)
    (hbegin : serverBeginIndexIn mem nd = some nd') {st st' : MainLoop}
    (hst : st.sv = (serverIndexPresentItself nd'.sv).1) {ns : List ℕ}
    (hns : ns.Perm (List.range' 1 (c.N - 1))) {ios : List PassIo}
    (hios : List.Forall₂ c.Registers ns ios)
    (hrun : run (fun st io => MainLoop.pass io st) st ios = some st') :
    st'.sv.state = .idle ∧ (c.Registered st'.sv ↔ mem.knownPeers = 0) := by
  have h2 := c.two_le
  have hlen : ns.length = c.N - 1 := by rw [hns.length_eq, List.length_range']
  have hmem (n : ℕ) : n ∈ ns ↔ 1 ≤ n ∧ n < c.N := by
    rw [hns.mem_iff, List.mem_range'_1]
    omega
  have hknown : c.Known mem (ns.reverse ++ []) st'.sv :=
    Cluster.Known.run (hst ▸ .presented hme hsize hbegin) (by rw [List.length_nil, hlen]; omega)
      (fun n hn => (hmem n).mp hn) hios hrun
  rw [List.append_nil] at hknown
  obtain ⟨d, hd, -, hcount, hips⟩ := hknown.table
  rw [List.length_reverse, hlen] at hcount
  refine ⟨hknown.state.trans (if_pos (by rw [List.length_reverse, hlen])), ?_⟩
  constructor
  · rintro ⟨d', hd', hd'known, -⟩
    obtain rfl : d = d' := Option.some.inj (hd.symm.trans hd')
    omega
  · intro hzero
    exact ⟨d, hd, by omega, fun n h1 hn =>
      hips n (List.mem_reverse.mpr ((hmem n).mpr ⟨h1, hn⟩))⟩

def usedMemory (knownPeers : ℕ) : IndexMemory := ⟨knownPeers, fun _ => ⟨⟨10, 0, 0, 1⟩, 80⟩⟩

def presentedIndex (knownPeers : ℕ) : MainLoop :=
  { startedNode 3 with
    node := ⟨(serverIndexPresentItself (serverSetState
        (allocIndexDataIn (usedMemory knownPeers) (startedNode 3).sv) .indexPresentItself)).1,
      xfileserverInit, xfilenetindexInit⟩ }

def registrations : List PassIo := [connectionIo 6 (emptyReport 2), connectionIo 7 (emptyReport 1)]

theorem registers_emptyReport {n : ℕ} (hn : n = 1 ∨ n = 2) (fd : ℕ) :
    Cluster.three.Registers n (connectionIo fd (emptyReport n)) := by
  have hself : (knowledgePackets (emptyReport n).tail).filter
      (fun p => commType p = TYPE_REPORT_SELF) = [xpacketReportSelf (Cluster.three.bootedServer n)] := by
    rcases hn with rfl | rfl <;> decide +kernel
  have hme := (Cluster.three.bootedServer_facts n).1
  refine ⟨rfl, rfl, ⟨_, _, rfl, ?_⟩, _, hself, Cluster.presents_of_mem (by omega) hme
    (show _ ∈ reportPackets _ xfileserverInit from List.mem_cons_self) (commType_commPacket ..)⟩
  rcases hn with rfl | rfl <;> decide +kernel

/-- Both register at an index whose `known_peers` happened to be zero. -/
theorem registered_zeroed :
    ∃ st ∈ run (fun st io => MainLoop.pass io st) (presentedIndex 0) registrations,
      st.sv.state = .idle ∧ Cluster.three.Registered st.sv := by
  have hrun : (run (fun st io => MainLoop.pass io st) (presentedIndex 0) registrations).isSome := by
    decide +kernel
  have hst := (Option.some_get hrun).symm
  have hbegin : serverBeginIndexIn (usedMemory 0) (startedNode 3).node =
      some ⟨serverSetState (allocIndexDataIn (usedMemory 0) (startedNode 3).sv) .indexPresentItself,
        xfileserverInit, xfilenetindexInit⟩ := rfl
  have h := registered_iff (c := Cluster.three) rfl rfl hbegin rfl (List.Perm.swap 1 2 []) (.cons
      (registers_emptyReport (.inr rfl) 6) (.cons (registers_emptyReport (.inl rfl) 7) .nil)) hst
  exact ⟨_, hst, h.1, h.2.mpr rfl⟩

/-- `known_peers` held 7: the index counts nine peers of two. -/
theorem not_registered_used :
    ∃ st ∈ run (fun st io => MainLoop.pass io st) (presentedIndex 7) registrations,
      st.sv.state = .idle ∧ (st.sv.indexData.map fun d => d.knownPeers) = some 9 ∧
        ¬ Cluster.three.Registered st.sv := by
  have h : ∃ st ∈ run (fun st io => MainLoop.pass io st) (presentedIndex 7) registrations,
      st.sv.state = .idle ∧ (st.sv.indexData.map fun d => d.knownPeers) = some 9 := by
    decide +kernel
  obtain ⟨st, hst, hidle, hcount⟩ := h
  refine ⟨st, hst, hidle, hcount, ?_⟩
  rintro ⟨d, hd, hknown, -⟩
  rw [hd, Option.map_some, hknown] at hcount
  exact absurd hcount (by decide)

end DSS
