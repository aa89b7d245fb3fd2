import DistStore.Proofs.BackwardPeer
import DistStore.Proofs.Failover
import DistStore.Proofs.IndexRun
import DistStore.Proofs.PendingRepair

/-! What the handlers do to the peer table and to the ids in the file table: the one keeps
its length and its known peers, the other gets no id after the last it may name. -/

namespace DSS

/-! ## Passes that leave the table -/

/-- The table stays as long, with as many known peers. -/
structure SameTable (sv sv' : Server) : Prop where
  me : sv'.me = sv.me
  peerB : sv'.peerB.nodeId = sv.peerB.nodeId
  table : ∀ d', sv'.indexData = some d' → ∃ d, sv.indexData = some d ∧
    d'.peerIps.length = d.peerIps.length ∧ d'.knownPeers = d.knownPeers

theorem SameTable.of_eq {sv sv' : Server} (hme : sv'.me = sv.me)
    (hpeerB : sv'.peerB.nodeId = sv.peerB.nodeId) (htable : sv'.indexData = sv.indexData) :
    SameTable sv sv' :=
  ⟨hme, hpeerB, fun d' hd' => ⟨d', htable ▸ hd', rfl, rfl⟩⟩

theorem SameTable.refl (sv : Server) : SameTable sv sv := .of_eq rfl rfl rfl

theorem SameTable.trans {a b c : Server} (hab : SameTable a b) (hbc : SameTable b c) :
    SameTable a c := by
  refine ⟨hbc.me.trans hab.me, hbc.peerB.trans hab.peerB, fun d'' hd'' => ?_⟩
  obtain ⟨d', hd', hlen', hknown'⟩ := hbc.table d'' hd''
  obtain ⟨d, hd, hlen, hknown⟩ := hab.table d' hd'
  exact ⟨d, hd, hlen'.trans hlen, hknown'.trans hknown⟩

theorem SameTable.setState {sv sv' : Server} (h : SameTable sv sv') (state : EServerState) :
    SameTable sv (serverSetState sv' state) := h.trans (.of_eq rfl rfl rfl)

theorem sameTable_forgetPeer (sv : Server) (id : ℕ) :
    SameTable sv { sv with indexData := sv.indexData.map (forgetPeer id) } := by
  refine ⟨rfl, rfl, fun d' hd' => ?_⟩
  obtain ⟨d, hd, rfl⟩ := Option.map_eq_some_iff.mp hd'
  exact ⟨d, hd, List.length_set .., rfl⟩

theorem sameTable_healthcheck (peekZero : Bool) (sv : Server) :
    SameTable sv (MainLoop.serverHealthcheck peekZero sv) := by
  rw [MainLoop.serverHealthcheck]
  split_ifs
  · rw [serverHealthcheckDead_eq]
    split_ifs
    · exact (sameTable_forgetPeer sv _).trans (.of_eq rfl rfl rfl)
    · exact .of_eq rfl rfl rfl
  · exact .refl sv

theorem sameTable_checkPeerB {dial : Address → Option ℕ} {r : Recv} {sv sv' : Server}
    (h : MainLoop.checkPeerB dial r sv = some sv') : SameTable sv sv' := by
  have hindex (sv1 : Server) (id : ℕ) : SameTable sv1 (peerDiedIndex sv1 id) := by
    rw [peerDiedIndex]
    split_ifs
    · exact sameTable_forgetPeer sv1 id
    · exact .of_eq rfl rfl rfl
    · exact .refl sv1
  have hnotice {p : XPacket} {hd : Handled} (hhd : xprocedureCheckPeerB dial sv p = some hd) :
      SameTable sv hd.sv := by
    rw [xprocedureCheckPeerB] at hhd
    split_ifs at hhd
    · obtain ⟨r, hr, hhd⟩ := Option.bind_eq_some_iff.mp hhd
      obtain rfl := Option.some.inj hhd
      obtain ⟨hme, hpeerB, -, -, -, hdata⟩ := peerDiedNeighbour_frame hr
      exact SameTable.trans (.of_eq hme (by rw [hpeerB]) hdata) (hindex _ _)
    · exact Option.some.inj hhd ▸ .refl sv
  simp only [MainLoop.checkPeerB] at h
  split_ifs at h
  · rcases r with _ | _ | ⟨b, bs⟩
    · exact Option.some.inj h ▸ .refl sv
    · exact Option.some.inj h ▸ .refl sv
    · obtain ⟨hd, hhd, rfl⟩ := Option.map_eq_some_iff.mp h
      exact hnotice hhd
  · exact Option.some.inj h ▸ .refl sv

theorem peerAfter_nodeId (accept : Option ℕ) (peer : XPeerConnection) :
    (peerAfter accept peer).nodeId = peer.nodeId := by
  simp only [peerAfter]
  split_ifs
  · rfl
  · cases accept <;> rfl

theorem sameTable_serverConnecting (accept : Option ℕ) (dial : Address → Option ℕ) (sv : Server) :
    SameTable sv (serverConnecting accept dial sv) ∧
      ((serverConnecting accept dial sv).state = sv.state ∨
        (serverConnecting accept dial sv).state = .beginOperation) := by
  rw [serverConnecting_eq]
  split_ifs
  · exact ⟨.of_eq rfl (peerAfter_nodeId ..) rfl, .inr rfl⟩
  · exact ⟨.of_eq rfl (peerAfter_nodeId ..) rfl, .inl rfl⟩

theorem sameTable_serverWaitingNewPeer (accept : Option ℕ) (sv : Server) :
    SameTable sv (serverWaitingNewPeer accept sv) ∧
      ((serverWaitingNewPeer accept sv).state = sv.state ∨
        (serverWaitingNewPeer accept sv).state = .beginOperation ∨
        (serverWaitingNewPeer accept sv).state = .idle) := by
  simp only [serverWaitingNewPeer]
  split_ifs
  · exact ⟨.refl sv, .inl rfl⟩
  · cases accept with
    | none => exact ⟨.refl sv, .inl rfl⟩
    | some client =>
      simp only [serverNewPeer]
      split_ifs
      · exact ⟨.of_eq rfl rfl rfl, .inr (.inl rfl)⟩
      · exact ⟨.of_eq rfl rfl rfl, .inr (.inr rfl)⟩

theorem sameTable_serverDialIndex {dial : Address → Option ℕ} {sv sv' : Server}
    (h : MainLoop.serverDialIndex dial sv = some sv') : SameTable sv sv' := by
  obtain ⟨fd, -, rfl⟩ := Option.map_eq_some_iff.mp h
  exact .of_eq rfl rfl rfl

/-! ## The ids in the file table -/

/-- No entry names a node after `n`. -/
def EntriesUpTo (n : ℕ) (net : XFileNetworkIndex) : Prop :=
  ∀ f ∈ net.files, ∀ e ∈ f.fragments, e.nodeId ≤ n

section entries

variable {n : ℕ}

theorem setEntry_upTo {l l' : List XFragmentNetworkPointer} {i : ℕ} {e : XFragmentNetworkPointer}
    (hl : ∀ x ∈ l, x.nodeId ≤ n) (he : e.nodeId ≤ n) (h : setEntry l i e = some l') :
    ∀ x ∈ l', x.nodeId ≤ n := by
  rw [setEntry] at h
  split_ifs at h
  obtain rfl := Option.some.inj h
  intro x hx
  rcases List.mem_or_eq_of_mem_set hx with hx | rfl
  · exact hl x hx
  · exact he

theorem setEntry_setEntry_upTo {l l' : List XFragmentNetworkPointer} {i j : ℕ}
    {e e' : XFragmentNetworkPointer} (hl : ∀ x ∈ l, x.nodeId ≤ n) (he : e.nodeId ≤ n)
    (he' : e'.nodeId ≤ n) (h : ((setEntry l i e).bind fun t => setEntry t j e') = some l') :
    ∀ x ∈ l', x.nodeId ≤ n := by
  obtain ⟨t, ht, h⟩ := Option.bind_eq_some_iff.mp h
  exact setEntry_upTo (setEntry_upTo hl he ht) he' h

def ReportUpTo (n : ℕ) (r : XReportFileKnowledge) : Prop :=
  r.fragments0.nodeId ≤ n ∧ r.fragments1.nodeId ≤ n

instance (n : ℕ) (r : XReportFileKnowledge) : Decidable (ReportUpTo n r) :=
  inferInstanceAs (Decidable (_ ∧ _))

theorem saveEntries_upTo {r : XReportFileKnowledge} {l l' : List XFragmentNetworkPointer}
    (hr : ReportUpTo n r) (hl : ∀ x ∈ l, x.nodeId ≤ n) (h : saveEntries r l = some l') :
    ∀ x ∈ l', x.nodeId ≤ n := by
  obtain ⟨h0, h1⟩ := hr
  have hfirst : (l.getD 0 .zero).nodeId ≤ n := by
    cases l with
    | nil => exact Nat.zero_le n
    | cons a l => exact hl a (by simp)
  simp only [saveEntries, Option.bind_eq_bind] at h
  split_ifs at h
  · exact setEntry_upTo hl h0 h
  · exact setEntry_setEntry_upTo hl hfirst h0 h
  · exact setEntry_upTo hl h0 h
  · exact setEntry_setEntry_upTo hl h0 h1 h
  · exact setEntry_setEntry_upTo hl h0 h1 h
  · exact setEntry_setEntry_upTo hl h0 h1 h

theorem EntriesUpTo.addFile {net : XFileNetworkIndex} (h : EntriesUpTo n net) {f : XFileInNetwork}
    (hf : ∀ e ∈ f.fragments, e.nodeId ≤ n) : EntriesUpTo n (xfilenetindexAddFile net f) := by
  intro g hg
  rcases List.mem_append.mp hg with hg | hg
  · exact h g hg
  · rw [List.mem_singleton.mp hg]
    exact hf

theorem EntriesUpTo.update {net : XFileNetworkIndex} (h : EntriesUpTo n net) (slot : ℕ)
    {l : List XFragmentNetworkPointer} (hl : ∀ e ∈ l, e.nodeId ≤ n) :
    EntriesUpTo n (net.update slot fun f => { f with fragments := l }) := by
  intro g hg
  obtain ⟨i, hi⟩ := List.mem_iff_getElem?.mp hg
  rw [XFileNetworkIndex.update, List.getElem?_modify] at hi
  split_ifs at hi
  · obtain ⟨f, -, rfl⟩ := Option.map_eq_some_iff.mp hi
    exact hl
  · rw [id_map'] at hi
    exact h g (List.mem_of_getElem? hi)

theorem replicate_zero_upTo (k : ℕ) :
    ∀ e ∈ List.replicate k XFragmentNetworkPointer.zero, e.nodeId ≤ n := by
  intro e he
  rw [List.eq_of_mem_replicate he]
  exact Nat.zero_le n

theorem EntriesUpTo.saveFile {fs fs' : XFileServer} {net net' : XFileNetworkIndex}
    {r : XReportFileKnowledge} (h : EntriesUpTo n net) (hr : ReportUpTo n r)
    (hsave : xprocedureSaveFileToIndex fs net r = some (fs', net')) : EntriesUpTo n net' := by
  simp only [xprocedureSaveFileToIndex, Option.bind_eq_bind, Option.bind_eq_some_iff,
    Option.pure_def, Option.some.injEq, Prod.mk.injEq] at hsave
  obtain ⟨slot, -, fni, hfni, l, hl, -, rfl⟩ := hsave
  have hnet : EntriesUpTo n (if xfilenetindexFindFile net r.fileId = none then
      xfilenetindexAddFile net (xfilenetindexNewFile r.fileId (r.fragCount * REDUNDANCY)) else net) := by
    split_ifs
    · exact h.addFile (replicate_zero_upTo _)
    · exact h
  exact hnet.update slot (saveEntries_upTo hr (hnet fni (List.mem_of_getElem? hfni)) hl)

theorem EntriesUpTo.saveReports {rs : List XReportFileKnowledge} (hrs : ∀ r ∈ rs, ReportUpTo n r)
    {st st' : XFileServer × XFileNetworkIndex} (h : EntriesUpTo n st.2)
    (hsave : DSS.saveReports st rs = some st') : EntriesUpTo n st'.2 := by
  have hstep : ∀ (t : XFileServer × XFileNetworkIndex) (r : XReportFileKnowledge)
      (t' : XFileServer × XFileNetworkIndex), EntriesUpTo n t.2 → ReportUpTo n r →
      xprocedureSaveFileToIndex t.1 t.2 r = some t' → EntriesUpTo n t'.2 :=
    fun _ _ _ ht hr hsave => ht.saveFile hr hsave
  exact Transition.run_invariant hstep h hrs hsave

theorem reportOf_own (n : ℕ) (f : XFileContainer) :
    ∀ e ∈ [(reportOf n f).fragments0, (reportOf n f).fragments1], e.nodeId = 0 ∨ e.nodeId = n := by
  intro e he
  simp only [reportOf, List.mem_cons, List.not_mem_nil, or_false] at he
  rcases he with rfl | rfl
  · split_ifs
    · exact .inr rfl
    · exact .inl rfl
  · split_ifs
    · exact .inr rfl
    · exact .inl rfl

theorem reportOf_upTo (f : XFileContainer) : ReportUpTo n (reportOf n f) := by
  have hle : ∀ e ∈ [(reportOf n f).fragments0, (reportOf n f).fragments1], e.nodeId ≤ n := by
    intro e he
    rcases reportOf_own n f e he with h | h <;> omega
  exact ⟨hle _ (by simp), hle _ (by simp)⟩

theorem EntriesUpTo.ownFiles {files : List XFileContainer} {fs fs' : XFileServer}
    {net net' : XFileNetworkIndex} (h : EntriesUpTo n net)
    (hsave : files.foldlM (fun st f => xprocedureSaveFileToIndex st.1 st.2 (reportOf n f)) (fs, net) =
      some (fs', net')) : EntriesUpTo n net' := by
  rw [← saveReports_ownFiles] at hsave
  refine EntriesUpTo.saveReports (fun r hr => ?_) h hsave
  obtain ⟨f, -, rfl⟩ := List.mem_map.mp hr
  exact reportOf_upTo f

/-- A node that counts as valid is no later than the last of the table. -/
theorem le_of_isValidNode {sv : Server} (hme : sv.me.nodeId = n)
    (hlen : ∀ d, sv.indexData = some d → d.peerIps.length = n) {m : ℕ}
    (h : serverIsValidNode sv m = true) : m ≤ n := by
  rw [serverIsValidNode] at h
  split_ifs at h with h0 hself
  · omega
  · rcases hd : sv.indexData with _ | d
    · simp [hd] at h
    · by_contra hgt
      have hout : d.peerIp m = Address.zero :=
        List.getD_eq_default _ _ (by rw [hlen d hd]; omega)
      simp [hd, hout, Address.zero] at h

theorem placeReplicas_upTo {sv : Server} (hme : sv.me.nodeId = n)
    (hlen : ∀ d, sv.indexData = some d → d.peerIps.length = n) (i node : ℕ) (fragmentsz : ℤ)
    (r tries j : ℕ) {l : List XFragmentNetworkPointer} (hl : ∀ e ∈ l, e.nodeId ≤ n) :
    ∀ e ∈ placeReplicas sv i node fragmentsz r tries j l, e.nodeId ≤ n := by
  induction r generalizing tries j l with
  | zero => exact hl
  | succ r ih =>
    rw [placeReplicas]
    dsimp only
    split_ifs with hj hvalid
    · refine ih _ _ fun e he => ?_
      rcases List.mem_or_eq_of_mem_set he with he | rfl
      · exact hl e he
      · exact le_of_isValidNode hme hlen hvalid
    · exact ih _ _ hl
    · exact hl

theorem foldl_placeFragment_upTo {sv : Server} (hme : sv.me.nodeId = n)
    (hlen : ∀ d, sv.indexData = some d → d.peerIps.length = n) (d : XIndexData) (fragcount : ℕ)
    (fragsz remain : ℤ) (is : List ℕ) (st : ℕ × List XFragmentNetworkPointer)
    (hl : ∀ e ∈ st.2, e.nodeId ≤ n) :
    ∀ e ∈ (is.foldl (placeFragment sv d fragcount fragsz remain) st).2, e.nodeId ≤ n := by
  induction is generalizing st with
  | nil => exact hl
  | cons i is ih => exact ih _ (placeReplicas_upTo hme hlen _ _ _ _ _ _ hl)

theorem EntriesUpTo.handleNewFile {sv : Server} {fs fs' : XFileServer}
    {net net' : XFileNetworkIndex} {fc : XRequestFileCreation} {sz file : ℕ}
    (hme : sv.me.nodeId = n) (hlen : ∀ d, sv.indexData = some d → d.peerIps.length = n)
    (h : EntriesUpTo n net)
    (hnew : serverIndexHandleNewFile sv fs net fc sz = some (fs', net', file)) :
    EntriesUpTo n net' := by
  simp only [serverIndexHandleNewFile, Option.bind_eq_bind, Option.bind_eq_some_iff,
    Option.pure_def, Option.some.injEq, Prod.mk.injEq] at hnew
  obtain ⟨d, -, placed, hplaced, -, rfl, -⟩ := hnew
  rw [← placeFragments_eq_some hplaced]
  exact h.addFile (foldl_placeFragment_upTo hme hlen d _ _ _ _ _ (replicate_zero_upTo _))

end entries

end DSS
