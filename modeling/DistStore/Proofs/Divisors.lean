import DistStore.Model.Divisors
import DistStore.Proofs.PassCases
import DistStore.Proofs.TableRange

/-! `net_size` along a run is what the deaths leave of it, and it is the one divisor that can
become zero: an entry of the file table has a fragment, and a gateway collects at most as many
as there are. -/

namespace DSS

open Transition

/-! ## Integers -/

theorem dec64_toU64 (x : ℤ) : dec64 (toU64 x) = toU64 (x - 1) := by
  unfold dec64 toU64
  omega

theorem cInt_toU64_eq_zero_iff (x : ℤ) : cInt (toU64 x) = 0 ↔ 2 ^ 32 ∣ x := by
  unfold cInt toU64
  split_ifs <;> omega

/-! ## The file table -/

/-- Every entry was made for at least one fragment. -/
def HasFragments (net : XFileNetworkIndex) : Prop := ∀ f ∈ net.files, REDUNDANCY ≤ f.totalFragments

section table

variable {net net' : XFileNetworkIndex}

theorem HasFragments.addFile (h : HasFragments net) {f : XFileInNetwork}
    (hf : REDUNDANCY ≤ f.totalFragments) : HasFragments (xfilenetindexAddFile net f) := by
  intro g hg
  rcases List.mem_append.mp hg with hg | hg
  · exact h g hg
  · rw [List.mem_singleton.mp hg]
    exact hf

theorem HasFragments.update (h : HasFragments net) (slot : ℕ) (l : List XFragmentNetworkPointer) :
    HasFragments (net.update slot fun f => { f with fragments := l }) := by
  intro g hg
  obtain ⟨i, hi⟩ := List.mem_iff_getElem?.mp hg
  rw [XFileNetworkIndex.update, List.getElem?_modify] at hi
  obtain ⟨f, hf, rfl⟩ := Option.map_eq_some_iff.mp hi
  have hle := h f (List.mem_of_getElem? hf)
  split_ifs
  · exact hle
  · exact hle

theorem saveEntries_nil (r : XReportFileKnowledge) : saveEntries r [] = none := by
  have hset (i : ℕ) (e : XFragmentNetworkPointer) : setEntry [] i e = none :=
    if_neg (Nat.not_lt_zero i)
  simp only [saveEntries, hset, Option.bind_eq_bind, Option.bind_none, List.getD_nil]
  split_ifs <;> rfl

theorem redundancy_le_of_ne_zero {k : ℕ} (h : u64 (k * REDUNDANCY) ≠ 0) :
    REDUNDANCY ≤ u64 (k * REDUNDANCY) := by
  unfold u64 REDUNDANCY at h ⊢
  omega

theorem HasFragments.saveFile (h : HasFragments net) {fs fs' : XFileServer} {r : XReportFileKnowledge}
    (hsave : xprocedureSaveFileToIndex fs net r = some (fs', net')) : HasFragments net' := by
  simp only [xprocedureSaveFileToIndex, Option.bind_eq_bind, Option.bind_eq_some_iff,
    Option.pure_def, Option.some.injEq, Prod.mk.injEq] at hsave
  obtain ⟨slot, hslot, fni, hfni, l, hl, -, rfl⟩ := hsave
  refine HasFragments.update ?_ slot l
  split_ifs at hslot hfni ⊢ with hnone
  · -- the entry that is written is the one that was just made
    have hfound := XFileNetworkIndex.found_addFile net
      (xfilenetindexNewFile r.fileId (r.fragCount * REDUNDANCY)) r.fileId
    rw [xfilenetindexFindFile_eq_none_iff.mp hnone, XFileNetworkIndex.found, hslot,
      Option.bind_some, hfni, Option.none_or,
      if_pos (show (xfilenetindexNewFile _ _).fileId = u16 r.fileId from rfl)] at hfound
    obtain rfl := Option.some.inj hfound
    refine h.addFile (redundancy_le_of_ne_zero fun hzero => ?_)
    have hempty : (xfilenetindexNewFile r.fileId (r.fragCount * REDUNDANCY)).fragments = [] := by
      unfold xfilenetindexNewFile
      rw [hzero]
      rfl
    rw [hempty, saveEntries_nil] at hl
    cases hl
  · exact h

theorem HasFragments.saveReports {rs : List XReportFileKnowledge} {st st' : XFileServer × XFileNetworkIndex}
    (h : HasFragments st.2) (hsave : DSS.saveReports st rs = some st') : HasFragments st'.2 := by
  have hstep : ∀ (t : XFileServer × XFileNetworkIndex) (r : XReportFileKnowledge)
      (t' : XFileServer × XFileNetworkIndex), HasFragments t.2 → True →
      xprocedureSaveFileToIndex t.1 t.2 r = some t' → HasFragments t'.2 :=
    fun _ _ _ ht _ hsave => ht.saveFile hsave
  exact run_invariant hstep h (fun _ _ => trivial) hsave

theorem HasFragments.ownFiles (h : HasFragments net) {nodeId : ℕ} {files : List XFileContainer}
    {fs fs' : XFileServer}
    (hsave : files.foldlM
      (fun st f => xprocedureSaveFileToIndex st.1 st.2 (reportOf nodeId f)) (fs, net) =
      some (fs', net')) : HasFragments net' := by
  rw [← saveReports_ownFiles] at hsave
  exact HasFragments.saveReports h hsave

theorem redundancy_le_of_fragcount {netSize sz : ℕ} (h : fragcountOf netSize sz ≠ 0) :
    REDUNDANCY ≤ u64 (toU64 (fragcountOf netSize sz * REDUNDANCY)) := by
  have hbound : -2 ^ 31 ≤ fragcountOf netSize sz ∧ fragcountOf netSize sz < 2 ^ 31 := by
    unfold fragcountOf cInt
    split_ifs <;> omega
  unfold u64 toU64 REDUNDANCY
  omega

theorem HasFragments.handleNewFile (h : HasFragments net) {sv : Server} {fs fs' : XFileServer}
    {fc : XRequestFileCreation} {sz file : ℕ} (hcount : fragcountOf sv.netSize sz ≠ 0)
    (hnew : serverIndexHandleNewFile sv fs net fc sz = some (fs', net', file)) :
    HasFragments net' := by
  simp only [serverIndexHandleNewFile, Option.bind_eq_bind, Option.bind_eq_some_iff,
    Option.pure_def, Option.some.injEq, Prod.mk.injEq] at hnew
  obtain ⟨d, -, placed, -, -, rfl, -⟩ := hnew
  exact h.addFile (redundancy_le_of_fragcount hcount)

end table

/-! ## One pass -/

namespace MainLoop

variable {io : PassIo} {st st' : MainLoop}

def Collects (st : MainLoop) : Prop :=
  st.sv.state = .waitRequestFragments →
    0 ≤ st.requested.fragmentFound ∧ st.requested.fragmentFound ≤ st.requested.fragmentCount

/-- `net_size` stays, and so does what the other divisors rest on. -/
structure KeepsDivisors (st st' : MainLoop) : Prop where
  netSize : st'.sv.netSize = st.sv.netSize
  table : HasFragments st.node.fnetidx → HasFragments st'.node.fnetidx
  collects : st.Collects → st'.Collects

theorem collects_of_ne (h : st.sv.state ≠ .waitRequestFragments) : st.Collects :=
  fun hstate => absurd hstate h

theorem KeepsDivisors.of_ne (hnet : st'.sv.netSize = st.sv.netSize)
    (htable : st'.node.fnetidx = st.node.fnetidx) (h : st'.sv.state ≠ .waitRequestFragments) :
    KeepsDivisors st st' :=
  ⟨hnet, fun hfrags => htable ▸ hfrags, fun _ => collects_of_ne h⟩

theorem KeepsDivisors.refl (st : MainLoop) : KeepsDivisors st st := ⟨rfl, id, id⟩

theorem KeepsDivisors.setState (st : MainLoop) {state : EServerState}
    (h : state ≠ .waitRequestFragments) : KeepsDivisors st (st.setState state) := .of_ne rfl rfl h

theorem netSize_serverDialIndex {dial : Address → Option ℕ} {sv sv' : Server}
    (h : serverDialIndex dial sv = some sv') : sv'.netSize = sv.netSize ∧ sv'.state = sv.state := by
  obtain ⟨fd, -, rfl⟩ := Option.map_eq_some_iff.mp h
  exact ⟨rfl, rfl⟩

theorem keepsDivisors_connecting (hstate : st.sv.state = .connecting) :
    KeepsDivisors st (st.withServer (serverConnecting io.accept io.dial st.sv)) := by
  have hnext := (sameTable_serverConnecting io.accept io.dial st.sv).2
  refine .of_ne ?_ rfl ?_
  · show (serverConnecting io.accept io.dial st.sv).netSize = st.sv.netSize
    rw [serverConnecting_eq]
    split_ifs <;> rfl
  · show (serverConnecting io.accept io.dial st.sv).state ≠ .waitRequestFragments
    rcases hnext with hnext | hnext <;> rw [hnext]
    · rw [hstate]
      decide
    · decide

theorem keepsDivisors_waitingNewPeer (hstate : st.sv.state = .waitingNewPeer) :
    KeepsDivisors st (st.withServer (serverWaitingNewPeer io.accept st.sv)) := by
  have hnext := (sameTable_serverWaitingNewPeer io.accept st.sv).2
  refine .of_ne ?_ rfl ?_
  · show (serverWaitingNewPeer io.accept st.sv).netSize = st.sv.netSize
    unfold serverWaitingNewPeer
    split_ifs
    · rfl
    · cases io.accept with
      | none => rfl
      | some client =>
        dsimp only
        unfold serverNewPeer
        split_ifs <;> rfl
  · show (serverWaitingNewPeer io.accept st.sv).state ≠ .waitRequestFragments
    rcases hnext with hnext | hnext | hnext <;> rw [hnext]
    · rw [hstate]
      decide
    · decide
    · decide

theorem keepsDivisors_beginOperation (h : beginOperation io st = some st') :
    KeepsDivisors st st' := by
  have hserver (sv : Server) : (beginServer io.knownPeers sv).netSize = sv.netSize ∧
      (beginServer io.knownPeers sv).state ≠ .waitRequestFragments := by
    unfold beginServer
    split_ifs <;> exact ⟨rfl, by simp [serverSetState]⟩
  obtain ⟨fs, net, hsave, rfl⟩ := beginOperation_cases h
  refine ⟨(hserver _).1, fun hfrags => ?_, fun _ => collects_of_ne (hserver _).2⟩
  split_ifs at hsave
  · exact hfrags.ownFiles hsave
  · exact hsave.2 ▸ hfrags

theorem keepsDivisors_receivedCreateFile (h : receivedCreateFile io st = some st') :
    KeepsDivisors st st' := by
  have hnext : EServerState.waitingRawPackets ≠ .waitRequestFragments := by decide
  obtain ⟨sv, raw, hsv, rfl⟩ := receivedCreateFile_cases h
  have hnet : sv.netSize = st.sv.netSize := by
    split_ifs at hsv
    · rw [hsv]
    · exact (netSize_serverDialIndex hsv).1
  exact .of_ne hnet rfl hnext

theorem keepsDivisors_receivedRequestGateway (h : receivedRequestGateway io st = some st') :
    KeepsDivisors st st' := by
  have hnext : EServerState.idle ≠ .waitRequestFragments := by decide
  rcases receivedRequestGateway_cases h with ⟨-, rfl⟩ | ⟨sv, hdial, rfl | ⟨res, rfl⟩⟩
  · exact .setState st hnext
  · exact .of_ne (netSize_serverDialIndex hdial).1 rfl hnext
  · exact ⟨(netSize_serverDialIndex hdial).1, id, fun _ _ => ⟨le_refl 0, Int.natCast_nonneg _⟩⟩

theorem keepsDivisors_receivedPacket (h : serverReceivedPacket io st = some st') :
    KeepsDivisors st st' := by
  have hidle : KeepsDivisors st (st.setState .idle) := .setState st (by decide)
  unfold serverReceivedPacket at h
  split_ifs at h
  · exact keepsDivisors_receivedCreateFile h
  · cases h
    exact .of_ne rfl rfl (by decide : EServerState.waitingRawPackets ≠ .waitRequestFragments)
  · cases h
    rcases receivedRequestIndex_cases st with hnext | ⟨requested, hnext⟩ <;> rw [hnext]
    · exact hidle
    · exact .of_ne rfl rfl (by decide : EServerState.indexRequestFragments ≠ .waitRequestFragments)
  · exact keepsDivisors_receivedRequestGateway h
  · cases h
    exact hidle

theorem keepsDivisors_waitingRawPackets (h : waitingRawPackets io st = some st') :
    KeepsDivisors st st' := by
  obtain ⟨buffer, rfl⟩ := waitingRawPackets_cases h
  refine .of_ne rfl rfl ?_
  show rawPacketsDone st.sv st.raw.triggerPkt ≠ .waitRequestFragments
  unfold rawPacketsDone
  split_ifs <;> decide

theorem keepsDivisors_handleNewFile (hcount : fragcountOf st.sv.netSize st.raw.totalSize ≠ 0)
    (h : handleNewFile st = some st') : KeepsDivisors st st' := by
  obtain ⟨fs, net, file, hnew, rfl⟩ := handleNewFile_cases h
  exact ⟨rfl, fun hfrags => hfrags.handleNewFile hcount hnew,
    fun _ => collects_of_ne (by decide : EServerState.indexFanoutFragments ≠ .waitRequestFragments)⟩

theorem collectFrom_counts {p : XPacket} {raw : List Recv} {requested : StateRequestedFile}
    (h : collectFrom io st p raw = some requested) :
    requested.fragmentCount = st.requested.fragmentCount ∧
      (requested.fragmentFound = st.requested.fragmentFound ∨
        requested.fragmentFound = st.requested.fragmentFound + 1) := by
  unfold collectFrom at h
  split_ifs at h
  · unfold collectLocal at h
    split at h
    · cases h
      exact ⟨rfl, .inl rfl⟩
    · obtain ⟨buffer, -, h⟩ := Option.bind_eq_some_iff.mp h
      cases h
      exact ⟨rfl, .inr rfl⟩
  · dsimp only at h
    split at h
    · obtain ⟨buffer, -, h⟩ := Option.bind_eq_some_iff.mp h
      cases h
      exact ⟨rfl, .inr rfl⟩
    · cases h

theorem keepsDivisors_waitRequestFragments (hstate : st.sv.state = .waitRequestFragments)
    (h : waitRequestFragments io st = some st') : KeepsDivisors st st' := by
  rcases waitRequestFragments_cases h with
    rfl | rfl | ⟨hmissing, p, raw, requested, hcollect, rfl⟩
  · exact .refl _
  · exact .setState st (by decide)
  · refine ⟨rfl, id, fun hcollects _ => ?_⟩
    obtain ⟨hcount, hfound⟩ := collectFrom_counts hcollect
    obtain ⟨hpos, hle⟩ := hcollects hstate
    dsimp only
    rw [hcount]
    rcases hfound with hfound | hfound <;> rw [hfound] <;> omega

theorem netSize_foldl_savePeer (ps : List XPacket) (sv : Server) :
    (ps.foldl savePeer sv).netSize = sv.netSize ∧ (ps.foldl savePeer sv).state = sv.state := by
  induction ps generalizing sv with
  | nil => exact ⟨rfl, rfl⟩
  | cons p ps ih =>
    have hone : (savePeer sv p).netSize = sv.netSize ∧ (savePeer sv p).state = sv.state := by
      unfold savePeer
      split_ifs <;> exact ⟨rfl, rfl⟩
    obtain ⟨hnet, hstate⟩ := ih (savePeer sv p)
    exact ⟨hnet.trans hone.1, hstate.trans hone.2⟩

theorem keepsDivisors_indexWaitingPeersKnowledge
    (hstate : st.sv.state = .indexWaitingPeersKnowledge)
    (h : indexWaitingPeersKnowledge io st = some st') : KeepsDivisors st st' := by
  rcases indexWaitingPeersKnowledge_cases h with rfl | ⟨-, nd, hnd, rfl⟩
  · exact .refl _
  · rw [knowledgeLoop, foldlM_receiveKnowledge] at hnd
    obtain ⟨t, hsave, rfl⟩ := Option.map_eq_some_iff.mp hnd
    obtain ⟨hnet, hnext⟩ := netSize_foldl_savePeer (knowledgePackets io.conn.tail) st.node.sv
    have hdone (sv : Server) : (indexClientDone sv).netSize = sv.netSize ∧
        ((indexClientDone sv).state = sv.state ∨ (indexClientDone sv).state = .idle) := by
      unfold indexClientDone
      split_ifs
      · exact ⟨rfl, .inr rfl⟩
      · exact ⟨rfl, .inl rfl⟩
    refine ⟨(hdone _).1.trans hnet, fun hfrags => HasFragments.saveReports hfrags hsave,
      fun _ => collects_of_ne ?_⟩
    show (indexClientDone _).state ≠ .waitRequestFragments
    have hst : st.node.sv.state = .indexWaitingPeersKnowledge := hstate
    rcases (hdone _).2 with hs | hs <;> rw [hs]
    · rw [hnext, hst]
      decide
    · decide

theorem keepsDivisors_reportKnowledge (hstate : st.sv.state = .reportKnowledgeToIndex)
    (h : reportKnowledge io st = some st') : KeepsDivisors st st' := by
  rcases reportKnowledge_cases h with ⟨-, rfl⟩ | ⟨sv, hdial, rfl | rfl⟩
  · exact .refl _
  · obtain ⟨hnet, hsv⟩ := netSize_serverDialIndex hdial
    refine .of_ne hnet rfl ?_
    show sv.state ≠ .waitRequestFragments
    rw [hsv, hstate]
    decide
  · exact .of_ne (netSize_serverDialIndex hdial).1 rfl
      (by decide : EServerState.idle ≠ .waitRequestFragments)

/-- Only an idle node changes its `net_size`. -/
theorem keepsDivisors_pass (hidle : st.sv.state ≠ .idle)
    (hcount : st.sv.state = .indexHandleNewFile →
      fragcountOf st.sv.netSize st.raw.totalSize ≠ 0)
    (h : pass io st = some st') : KeepsDivisors st st' := by
  unfold pass at h
  cases hst : st.sv.state <;> simp only [hst] at h
  case booting =>
    split_ifs at h
    cases h
    exact .setState st (by decide)
  case connecting =>
    cases h
    exact keepsDivisors_connecting hst
  case idle => exact absurd hst hidle
  case waitingNewPeer =>
    cases h
    exact keepsDivisors_waitingNewPeer hst
  case reportKnowledgeToIndex => exact keepsDivisors_reportKnowledge hst h
  case receivedPacket => exact keepsDivisors_receivedPacket h
  case beginOperation => exact keepsDivisors_beginOperation h
  case waitingRawPackets => exact keepsDivisors_waitingRawPackets h
  case indexHandleNewFile => exact keepsDivisors_handleNewFile (hcount hst) h
  case indexPresentItself =>
    rw [indexPresentItself_cases h]
    exact .of_ne rfl rfl (by decide : EServerState.indexWaitingPeersKnowledge ≠ .waitRequestFragments)
  case waitIndexGossip =>
    rw [waitIndexGossip_cases h]
    exact .of_ne rfl rfl (by decide : EServerState.reportKnowledgeToIndex ≠ .waitRequestFragments)
  case receivedFragment =>
    cases h
    exact .of_ne rfl rfl (by decide : EServerState.idle ≠ .waitRequestFragments)
  case waitRequestFragments => exact keepsDivisors_waitRequestFragments hst h
  case indexWaitingPeersKnowledge => exact keepsDivisors_indexWaitingPeersKnowledge hst h
  case indexFanoutFragments =>
    obtain ⟨fs, rfl⟩ := fanoutFragments_cases h
    exact .of_ne rfl rfl (by decide : EServerState.idle ≠ .waitRequestFragments)
  case indexRequestFragments =>
    rw [requestFragments_cases h]
    exact .setState st (by decide)

/-! ## SERVER_IDLE -/

def TakesNotice (io : PassIo) (st : MainLoop) : Prop :=
  st.sv.state = .idle ∧ st.sv.peerB.statusOpen = true ∧ io.peekZero = false ∧
    commType (serverWaitFromSocket io.peerB) = TYPE_PEER_DIED

instance (io : PassIo) (st : MainLoop) : Decidable (TakesNotice io st) :=
  inferInstanceAs (Decidable (_ ∧ _ ∧ _ ∧ _))

theorem xprocedureCheckPeerB_netSize {dial : Address → Option ℕ} {sv : Server} {p : XPacket}
    {r : Handled} (h : xprocedureCheckPeerB dial sv p = some r) :
    r.sv.netSize = if commType p = TYPE_PEER_DIED then dec64 sv.netSize else sv.netSize := by
  have hindex (sv : Server) (id : ℕ) : (peerDiedIndex sv id).netSize = sv.netSize := by
    unfold peerDiedIndex
    split_ifs <;> rfl
  unfold xprocedureCheckPeerB at h
  split_ifs at h ⊢
  · obtain ⟨t, ht, h⟩ := Option.bind_eq_some_iff.mp h
    cases h
    obtain ⟨-, -, hnet, -⟩ := peerDiedNeighbour_frame ht
    exact (hindex _ _).trans hnet
  · cases h
    rfl

theorem checkPeerB_netSize {dial : Address → Option ℕ} {r : Recv} {sv sv' : Server}
    (h : checkPeerB dial r sv = some sv') :
    sv'.netSize = if sv.peerB.statusOpen = true ∧ commType (serverWaitFromSocket r) = TYPE_PEER_DIED
      then dec64 sv.netSize else sv.netSize := by
  have hnone : commType [] ≠ TYPE_PEER_DIED := by decide
  unfold checkPeerB at h
  by_cases hopen : sv.peerB.statusOpen = true
  · rw [if_pos hopen] at h
    rcases r with _ | _ | ⟨b, bs⟩
    · cases h
      exact (if_neg fun hc => hnone hc.2).symm
    · cases h
      exact (if_neg fun hc => hnone hc.2).symm
    · obtain ⟨t, ht, rfl⟩ := Option.map_eq_some_iff.mp h
      simp only [hopen, true_and]
      exact xprocedureCheckPeerB_netSize ht
  · rw [if_neg hopen] at h
    cases h
    exact (if_neg fun hc => hopen hc.1).symm

theorem idlePass_netSize (hidle : st.sv.state = .idle) (h : pass io st = some st') :
    st'.sv.netSize = (if FindsDead io st then dec64 (dec64 st.sv.netSize)
      else if TakesNotice io st then dec64 st.sv.netSize else st.sv.netSize) ∧
      st'.node.fnetidx = st.node.fnetidx ∧ st'.sv.state ≠ .waitRequestFragments := by
  obtain ⟨sv, hsv, -, hserve⟩ := pass_idle hidle h
  have hnet : sv.netSize = if FindsDead io st then dec64 (dec64 st.sv.netSize)
      else if TakesNotice io st then dec64 st.sv.netSize else st.sv.netSize := by
    by_cases hdead : FindsDead io st
    · have hopen := hdead.2.1
      have hpeek := hdead.2.2
      rw [hpeek, checkPeerB_closed (serverHealthcheck_dead hopen).2.1] at hsv
      cases hsv
      rw [if_pos hdead, serverHealthcheck, hopen, Bool.and_self, if_pos rfl, serverHealthcheckDead_eq]
    · have hhealth : serverHealthcheck io.peekZero st.sv = st.sv :=
        if_neg fun hc => hdead ⟨hidle, (Bool.and_eq_true _ _ ▸ hc).1, (Bool.and_eq_true _ _ ▸ hc).2⟩
      rw [hhealth] at hsv
      rw [if_neg hdead, checkPeerB_netSize hsv]
      refine if_congr ⟨fun hc => ⟨hidle, hc.1, ?_, hc.2⟩, fun hc => ⟨hc.2.1, hc.2.2.2⟩⟩ rfl rfl
      exact Bool.eq_false_iff.mpr fun hpeek => hdead ⟨hidle, hc.1, hpeek⟩
  have hnext : sv.state ≠ .waitRequestFragments := by
    rcases checkPeerB_state hsv with hs | hs <;> rw [hs]
    · rcases serverHealthcheck_state io.peekZero st.sv with hs' | hs' <;> rw [hs']
      · rw [hidle]
        decide
      · decide
    · decide
  rcases idleServe_cases hserve with ⟨clientFd, rfl⟩ | ⟨fd, r, rfl, -⟩
  · exact ⟨hnet, rfl, hnext⟩
  · exact ⟨hnet, rfl, by rw [receive_state]; decide⟩

end MainLoop

/-! ## Runs of one node -/

/-- The loop, with the deaths its health check found and the notices it took. -/
structure CountedLoop where
  loop : MainLoop
  found : ℕ
  noticed : ℕ

namespace CountedLoop

def step (s : CountedLoop) (io : PassIo) : Option CountedLoop :=
  (s.loop.pass io).map fun loop =>
    { loop := loop
      found := if s.loop.FindsDead io then s.found + 1 else s.found
      noticed := if s.loop.TakesNotice io then s.noticed + 1 else s.noticed }

/-- Node `n` as its program starts; `st` is the rest of its memory. -/
def started (c : Cluster) (n : ℕ) (index : XPeerConnection) (st : MainLoop) : CountedLoop :=
  ⟨{ st with node := ⟨serverInit (c.args n) index, xfileserverInit, xfilenetindexInit⟩ }, 0, 0⟩

/-- A notice takes one of the `N` nodes away, and a death that the node finds itself two. -/
def remaining (N : ℕ) (s : CountedLoop) : ℤ := N - s.noticed - 2 * s.found

/-- A file that is to be split comes when the counts leave no node, in 32 bits. -/
def SplitsByNone (N : ℕ) (s : CountedLoop) : Prop :=
  s.loop.sv.state = .indexHandleNewFile ∧ 2 ^ 32 ∣ s.remaining N ∧
    toU64 (s.remaining N) < s.loop.raw.totalSize ∧ MINIMAL_SIZE_FOR_SPLIT < s.loop.raw.totalSize

instance (N : ℕ) (s : CountedLoop) : Decidable (s.SplitsByNone N) :=
  inferInstanceAs (Decidable (_ ∧ _ ∧ _ ∧ _))

structure Inv (N : ℕ) (s : CountedLoop) : Prop where
  netSize : s.loop.sv.netSize = toU64 (s.remaining N)
  table : HasFragments s.loop.node.fnetidx
  collects : s.loop.Collects

variable {N : ℕ} {s t : CountedLoop} {io : PassIo}

theorem inv_started (c : Cluster) (n : ℕ) (index : XPeerConnection) (st : MainLoop) :
    Inv c.N (started c n index st) := by
  refine ⟨?_, ?_, MainLoop.collects_of_ne (by decide : EServerState.booting ≠ .waitRequestFragments)⟩
  · have hN := c.N_lt
    have hremaining : (started c n index st).remaining c.N = (c.N : ℤ) := by
      unfold remaining started
      simp
    rw [hremaining, toU64_natCast (by omega)]
    rfl
  · intro f hf
    cases hf

theorem Inv.splitsByNone_iff (h : Inv N s) :
    s.SplitsByNone N ↔ s.loop.sv.state = .indexHandleNewFile ∧
      fragcountOf s.loop.sv.netSize s.loop.raw.totalSize = 0 := by
  unfold SplitsByNone
  rw [← h.netSize, ← cInt_toU64_eq_zero_iff, ← h.netSize]
  unfold fragcountOf
  split_ifs with hsmall
  · constructor
    · rintro ⟨-, -, hnet, hmin⟩
      exact absurd hsmall (not_or.mpr ⟨hnet.not_ge, hmin.not_ge⟩)
    · rintro ⟨-, hone⟩
      cases hone
  · obtain ⟨hnet, hmin⟩ := not_or.mp hsmall
    exact ⟨fun hc => ⟨hc.1, hc.2.1⟩, fun hc => ⟨hc.1, hc.2, not_le.mp hnet, not_le.mp hmin⟩⟩

theorem Inv.step (h : Inv N s) (hnot : ¬ s.SplitsByNone N) (hstep : s.step io = some t) :
    Inv N t := by
  obtain ⟨loop, hpass, rfl⟩ := Option.map_eq_some_iff.mp hstep
  rw [h.splitsByNone_iff, not_and] at hnot
  by_cases hidle : s.loop.sv.state = .idle
  · obtain ⟨hnet, htable, hnext⟩ := MainLoop.idlePass_netSize hidle hpass
    refine ⟨hnet.trans ?_, htable ▸ h.table, MainLoop.collects_of_ne hnext⟩
    rw [h.netSize]
    unfold remaining
    dsimp only
    split_ifs with hdead hnotice hnotice
    · exact absurd hnotice.2.2.1 (by rw [hdead.2.2]; decide)
    · rw [dec64_toU64, dec64_toU64]
      congr 1
      push_cast
      ring
    · rw [dec64_toU64]
      congr 1
      push_cast
      ring
    · rfl
  · have hkeeps := MainLoop.keepsDivisors_pass hidle hnot hpass
    have hdead : ¬ s.loop.FindsDead io := fun hdead => hidle hdead.1
    have hnotice : ¬ s.loop.TakesNotice io := fun hnotice => hidle hnotice.1
    refine ⟨hkeeps.netSize.trans ?_, hkeeps.table h.table, hkeeps.collects h.collects⟩
    unfold remaining
    rw [if_neg hdead, if_neg hnotice]
    exact h.netSize

/-- The number of fragments of a new file is the one divisor that can be zero. -/
theorem Inv.noZeroDivisor_iff (h : Inv N s) : s.loop.NoZeroDivisor ↔ ¬ s.SplitsByNone N := by
  rw [h.splitsByNone_iff, not_and]
  constructor
  · intro hdiv hstate
    refine hdiv.1 _ ?_
    unfold MainLoop.divisors
    simp only [hstate]
    exact List.mem_singleton_self _
  · intro hcount
    constructor
    · intro x hx
      unfold MainLoop.divisors at hx
      split at hx
      case h_1 hstate =>
        rw [List.mem_singleton.mp hx]
        exact hcount hstate
      case h_2 hstate =>
        obtain ⟨f, hf, rfl⟩ := Option.map_eq_some_iff.mp (Option.mem_toList.mp hx)
        obtain ⟨fc, -, hfound⟩ := Option.bind_eq_some_iff.mp hf
        rw [XFileNetworkIndex.found_eq] at hfound
        have hle := h.table f (Keyed.mem_of_get hfound)
        unfold REDUNDANCY at hle ⊢
        omega
      case h_3 hstate =>
        obtain ⟨hpos, hle⟩ := h.collects hstate
        split_ifs at hx with hmissing
        · rw [List.mem_singleton.mp hx]
          omega
        · cases hx
      case h_4 => cases hx
    · rintro ⟨hstate, hnet, hmin⟩
      have hne := hcount hstate
      rw [fragcountOf, if_neg (not_or.mpr ⟨hnet.not_ge, hmin.not_ge⟩)] at hne
      by_contra hzero
      rw [Nat.lt_one_iff.mp (not_le.mp hzero)] at hne
      exact hne rfl

end CountedLoop

/-- No pass of a run of a node divides by zero, exactly as long as no file that is to be split
comes when the notices, and twice the deaths that the node found, are as many as the nodes. -/
theorem no_zero_divisor_iff (c : Cluster) (n : ℕ) (index : XPeerConnection) (st : MainLoop)
    (ios : List PassIo) :
    Along CountedLoop.step (fun _ s => s.loop.NoZeroDivisor) (CountedLoop.started c n index st) ios ↔
      Along CountedLoop.step (fun _ s => ¬ s.SplitsByNone c.N) (CountedLoop.started c n index st) ios :=
  along_iff (C := fun _ _ => True) (fun _ _ h _ => h.noZeroDivisor_iff)
    (fun _ _ _ h _ hnot hstep => h.step hnot hstep) (CountedLoop.inv_started c n index st)
    (along_of_forall (fun _ _ => trivial) _ _)

/-! ## Two nodes -/

def Cluster.two : Cluster := Cluster.boot 2 (by decide) (by decide)

/-- What node 1 sends the index when it stores nothing. -/
def firstReport : List Recv :=
  (xpacketPresentation (Cluster.two.bootedServer 1) ::
    (reportPackets (Cluster.two.bootedServer 1) xfileserverInit ++
      [xpacketOk (Cluster.two.bootedServer 1)])).map some

/-- Node 2 starts and takes the report of node 1, which dies and is started again. A client
stores 101 bytes. -/
def splitByNoneIos : List PassIo :=
  [passIo false none none none, passIo false none none (some 5), passIo false none none none,
    passIo false none none none, connectionIo 6 firstReport, passIo true none none none,
    passIo false none none (some 7), connectionIo 9 [some (clientPacket TYPE_PRESENT_ITSELF [])],
    passIo false none (some (some (clientPacket TYPE_CREATE_FILE
      (XRequestFileCreation.bytes ⟨char200 [97], 101⟩)))) none,
    passIo false none none none, connectionIo 9 [some (List.replicate 101 7)],
    passIo false none none none]

/-- The index has counted itself out, and divides the 101 bytes by zero. -/
theorem not_no_zero_divisor :
    ¬ ∀ (c : Cluster) (n : ℕ) (index : XPeerConnection) (st : MainLoop) (ios : List PassIo),
      Along CountedLoop.step (fun _ s => s.loop.NoZeroDivisor) (CountedLoop.started c n index st) ios := by
  intro hall
  have hrun : ¬ Along CountedLoop.step (fun _ s => s.loop.NoZeroDivisor)
      (CountedLoop.started Cluster.two 2 ⟨0, Address.zero, none, false⟩ servingNode) splitByNoneIos := by
    decide +kernel
  exact hrun (hall _ _ _ _ _)

end DSS
