import DistStore.Model.FanoutIO
import DistStore.Model.Network

/-! What the index's table says after a fan-out in which connections failed. -/

namespace DSS

/-- When every dial succeeds the requests are the transmissions of the fan-out. -/
theorem fanoutRound_dialed (sv : Server) (d : XIndexData) (base : ℤ) (buffer : List UInt8)
    (io : ℕ → FanoutAnswers) (hio : ∀ i, (io i).fd ≠ none) (fc : XFileContainer)
    (qs : List StoreRequest) (entry : XFragmentNetworkPointer × ℕ) :
    (fanoutRound io sv d base buffer (fc, qs) entry).map
        (fun st => (st.1, st.2.filterMap StoreRequest.sent)) =
      fanoutFragment sv d base buffer (fc, qs.filterMap StoreRequest.sent) entry := by
  obtain ⟨frag, i⟩ := entry
  obtain ⟨fd, hfd⟩ := Option.ne_none_iff_exists'.mp (hio i)
  simp only [fanoutRound, fanoutFragment, fanoutEntry, storeRequest, hfd]
  split_ifs
  · cases readBuffer buffer (base * ((frag.fragment : ℤ) - 1)) frag.size <;> rfl
  · cases readBuffer buffer (base * ((frag.fragment : ℤ) - 1)) (cInt frag.size).toNat with
    | none => rfl
    | some raw => simp

theorem foldlM_fanoutRound_dialed (sv : Server) (d : XIndexData) (base : ℤ) (buffer : List UInt8)
    (io : ℕ → FanoutAnswers) (hio : ∀ i, (io i).fd ≠ none)
    (ps : List (XFragmentNetworkPointer × ℕ)) (fc : XFileContainer) (qs : List StoreRequest) :
    (ps.foldlM (fanoutRound io sv d base buffer) (fc, qs)).map
        (fun st => (st.1, st.2.filterMap StoreRequest.sent)) =
      ps.foldlM (fanoutFragment sv d base buffer) (fc, qs.filterMap StoreRequest.sent) := by
  induction ps generalizing fc qs with
  | nil => rfl
  | cons p ps ih =>
    rw [List.foldlM_cons, List.foldlM_cons, ← fanoutRound_dialed sv d base buffer io hio]
    cases fanoutRound io sv d base buffer (fc, qs) p with
    | none => rfl
    | some st => exact ih st.1 st.2

theorem serverIndexFanoutIo_dialed (sv : Server) (fs : XFileServer) (net : XFileNetworkIndex)
    (file : ℕ) (buffer : List UInt8) (io : ℕ → FanoutAnswers) (hio : ∀ i, (io i).fd ≠ none) :
    (serverIndexFanoutIo sv fs net file buffer io).map
        (fun out => (out.fs, out.requests.filterMap StoreRequest.sent)) =
      serverIndexFanoutFragments sv fs net file buffer := by
  simp only [serverIndexFanoutIo, serverIndexFanoutFragments, serverIndexFanout, Option.bind_eq_bind,
    Option.map_bind]
  cases sv.indexData with
  | none => rfl
  | some d =>
    cases fs.files[file]? with
    | none => rfl
    | some fc =>
      simp only [Option.bind_some]
      cases net.found fc.fileId with
      | none => rfl
      | some f =>
        have hloop := foldlM_fanoutRound_dialed sv d
          (cInt (fc.size / (f.totalFragments / REDUNDANCY))) buffer io hio f.fragments.zipIdx fc []
        rw [List.filterMap_nil] at hloop
        simp only [fanoutRound, fanoutFragment] at hloop
        simp only [Function.comp_apply, Option.bind_some, ← hloop]
        cases f.fragments.zipIdx.foldlM (fanoutEntry (storeRequest io) sv d
          (cInt (fc.size / (f.totalFragments / REDUNDANCY))) buffer) (fc, []) <;> rfl

/-! ## The loop -/

section loop

variable {sv : Server} {d : XIndexData} {base : ℤ} {buffer : List UInt8} {io : ℕ → FanoutAnswers}

def pieceAt (base : ℤ) (buffer : List UInt8) (e : XFragmentNetworkPointer) :
    Option (List UInt8) := readBuffer buffer (base * ((e.fragment : ℤ) - 1)) e.size

def ownEntries (me : ℕ) (table : List XFragmentNetworkPointer) : List XFragmentNetworkPointer :=
  table.filter fun e => e.nodeId = me

def keepFragment (base : ℤ) (buffer : List UInt8) (fc : XFileContainer)
    (e : XFragmentNetworkPointer) : XFileContainer :=
  storeOwnFragment e ((pieceAt base buffer e).getD []) fc

/-- The loop keeps the own entries, which all lie inside the buffer, and makes one
request for each other entry. -/
theorem foldlM_fanoutRound {ps : List (XFragmentNetworkPointer × ℕ)} {fc fc' : XFileContainer}
    {qs qs' : List StoreRequest}
    (h : ps.foldlM (fanoutRound io sv d base buffer) (fc, qs) = some (fc', qs')) :
    fc' = (ownEntries sv.me.nodeId (ps.map Prod.fst)).foldl (keepFragment base buffer) fc ∧
      (∀ e ∈ ownEntries sv.me.nodeId (ps.map Prod.fst), (pieceAt base buffer e).isSome) ∧
      qs'.map (fun q => (q.entry, q.read)) = qs.map (fun q => (q.entry, q.read)) ++
        (ps.filter fun p => p.1.nodeId ≠ sv.me.nodeId).map fun p => (p.1, (io p.2).read) := by
  induction ps generalizing fc qs with
  | nil =>
    obtain ⟨rfl, rfl⟩ := Prod.mk.injEq .. ▸ Option.some.inj h
    simp [ownEntries]
  | cons p ps ih =>
    obtain ⟨frag, i⟩ := p
    rw [List.foldlM_cons, Option.bind_eq_bind, Option.bind_eq_some_iff] at h
    obtain ⟨⟨fc1, qs1⟩, hround, hrest⟩ := h
    obtain ⟨hfc, hown, hqs⟩ := ih hrest
    by_cases hme : frag.nodeId = sv.me.nodeId
    · simp only [fanoutRound, fanoutEntry, storeRequest, if_pos hme, Option.bind_eq_bind, Option.bind_eq_some_iff,
        Option.pure_def, Option.some.injEq, Prod.mk.injEq] at hround
      obtain ⟨buf, hbuf, rfl, rfl⟩ := hround
      have hpiece : pieceAt base buffer frag = some buf := hbuf
      refine ⟨?_, ?_, ?_⟩
      · rw [hfc]
        simp [ownEntries, hme, keepFragment, hpiece]
      · simp only [List.map_cons, ownEntries, hme, decide_true, List.filter_cons_of_pos,
          List.forall_mem_cons, hpiece, Option.isSome_some, true_and]
        exact hown
      · rw [hqs]
        simp [hme]
    · simp only [fanoutRound, fanoutEntry, storeRequest, if_neg hme, Option.bind_eq_bind, Option.bind_eq_some_iff,
        Option.pure_def, Option.some.injEq, Prod.mk.injEq] at hround
      obtain ⟨buf, -, rfl, rfl⟩ := hround
      refine ⟨?_, ?_, ?_⟩
      · rw [hfc]
        simp [ownEntries, hme]
      · simpa [ownEntries, hme] using hown
      · rw [hqs]
        simp [hme]

/-- What a slot holds once an entry is kept in it. -/
def fragmentOf (base : ℤ) (buffer : List UInt8) (e : XFragmentNetworkPointer) : XFileFragment :=
  ⟨u8 e.fragment, (pieceAt base buffer e).getD [], e.size⟩

theorem keepFragment_eq (fc : XFileContainer) (e : XFragmentNetworkPointer) :
    keepFragment base buffer fc e =
      if fc.fragments0.fragmentId = 0 then { fc with fragments0 := fragmentOf base buffer e }
      else { fc with fragments1 := fragmentOf base buffer e } := rfl

theorem foldl_keepFragment_frame (base : ℤ) (buffer : List UInt8) (fc : XFileContainer)
    (l : List XFragmentNetworkPointer) :
    (l.foldl (keepFragment base buffer) fc).fileId = fc.fileId ∧
      (l.foldl (keepFragment base buffer) fc).fileName = fc.fileName := by
  induction l generalizing fc with
  | nil => exact ⟨rfl, rfl⟩
  | cons e l ih =>
    rw [List.foldl_cons, keepFragment_eq]
    split_ifs
    · exact ih _
    · exact ih _

theorem foldl_keepFragment_taken (base : ℤ) (buffer : List UInt8) {fc : XFileContainer}
    (h : fc.fragments0.fragmentId ≠ 0) (l : List XFragmentNetworkPointer) :
    (l.foldl (keepFragment base buffer) fc).fragments0 = fc.fragments0 ∧
      (l.foldl (keepFragment base buffer) fc).fragments1 =
        (l.getLast?.map (fragmentOf base buffer)).getD fc.fragments1 := by
  induction l using List.reverseRecOn with
  | nil => simp
  | append_singleton l e ih =>
    rw [List.foldl_append, List.foldl_cons, List.foldl_nil, keepFragment_eq, ih.1, if_neg h,
      List.getLast?_concat]
    exact ⟨rfl, rfl⟩

/-- A fresh container ends with the first entry in one slot and the last in the other. -/
theorem foldl_keepFragment_fresh (base : ℤ) (buffer : List UInt8) {fc : XFileContainer}
    (h0 : fc.fragments0 = .zero) (h1 : fc.fragments1 = .zero) {e : XFragmentNetworkPointer} (hpos : 0 < e.fragment)
    (hlt : e.fragment < 256) (l : List XFragmentNetworkPointer) :
    ((e :: l).foldl (keepFragment base buffer) fc).fragments0 = fragmentOf base buffer e ∧
      ((e :: l).foldl (keepFragment base buffer) fc).fragments1 =
        (l.getLast?.map (fragmentOf base buffer)).getD .zero := by
  have htaken : (fragmentOf base buffer e).fragmentId ≠ 0 := by
    rw [fragmentOf, u8_of_lt hlt]
    exact hpos.ne'
  rw [List.foldl_cons, keepFragment_eq, if_pos (by rw [h0]; rfl), ← h1]
  exact foldl_keepFragment_taken base buffer htaken l

theorem foldl_keepFragment_lt (base : ℤ) (buffer : List UInt8) {fc : XFileContainer}
    (h0 : fc.fragments0.fragmentId < 256) (h1 : fc.fragments1.fragmentId < 256) (l : List XFragmentNetworkPointer) :
    (l.foldl (keepFragment base buffer) fc).fragments0.fragmentId < 256 ∧
      (l.foldl (keepFragment base buffer) fc).fragments1.fragmentId < 256 := by
  induction l generalizing fc with
  | nil => exact ⟨h0, h1⟩
  | cons e l ih =>
    have hbyte : (fragmentOf base buffer e).fragmentId < 256 := Nat.mod_lt _ (by norm_num)
    rw [List.foldl_cons, keepFragment_eq]
    split_ifs
    · exact ih hbyte h1
    · exact ih h0 hbyte

def HoldsFragment (base : ℤ) (buffer : List UInt8) (fc : XFileContainer)
    (e : XFragmentNetworkPointer) : Prop :=
  e.fragment ≠ 0 ∧ ∃ fr, (fr = fc.fragments0 ∨ fr = fc.fragments1) ∧ fr.fragmentId = e.fragment ∧
    fr.fragmentSize = e.size ∧ pieceAt base buffer e = some fr.fragmentBytes

theorem holdsFragment_of_slot {fc : XFileContainer} {e : XFragmentNetworkPointer}
    (hpos : 0 < e.fragment) (hlt : e.fragment < 256) (hpiece : (pieceAt base buffer e).isSome)
    (hslot : fragmentOf base buffer e = fc.fragments0 ∨ fragmentOf base buffer e = fc.fragments1) :
    HoldsFragment base buffer fc e := by
  obtain ⟨piece, hp⟩ := Option.isSome_iff_exists.mp hpiece
  exact ⟨hpos.ne', _, hslot, u8_of_lt hlt, rfl, by rw [fragmentOf, hp, Option.getD_some]⟩

theorem eq_of_fragmentOf {e e' : XFragmentNetworkPointer} (hlt : e'.fragment < 256)
    (hnode : e.nodeId = e'.nodeId) (hid : (fragmentOf base buffer e').fragmentId = e.fragment)
    (hsize : (fragmentOf base buffer e').fragmentSize = e.size) : e' = e := by
  obtain ⟨k, s, n⟩ := e
  obtain ⟨k', s', n'⟩ := e'
  simp only [fragmentOf] at hid hsize hnode hlt
  rw [u8_of_lt hlt] at hid
  simp [hid, hsize, hnode]

/-- A fresh container keeps the first and the last of the own entries. -/
theorem holds_own_iff (base : ℤ) (buffer : List UInt8) {fc : XFileContainer} (h0 : fc.fragments0 = .zero) (h1 : fc.fragments1 = .zero)
    {me : ℕ} {l : List XFragmentNetworkPointer} (hme : ∀ e ∈ l, e.nodeId = me)
    (hpiece : ∀ e ∈ l, (pieceAt base buffer e).isSome) :
    (∀ e ∈ l, HoldsFragment base buffer (l.foldl (keepFragment base buffer) fc) e) ↔
      ∀ e ∈ l, 0 < e.fragment ∧ e.fragment < 256 ∧ (l.head? = some e ∨ l.getLast? = some e) := by
  cases l with
  | nil => simp
  | cons e0 l =>
    constructor
    · intro hall
      have hbyte : ∀ e ∈ e0 :: l, 0 < e.fragment ∧ e.fragment < 256 := by
        intro e he
        obtain ⟨hne, fr, hfr, hid, -⟩ := hall e he
        have hlt := foldl_keepFragment_lt base buffer (show fc.fragments0.fragmentId < 256 by
          rw [h0]; decide) (by rw [h1]; decide) (e0 :: l)
        rcases hfr with rfl | rfl
        · exact ⟨by omega, by omega⟩
        · exact ⟨by omega, by omega⟩
      obtain ⟨hs0, hs1⟩ := foldl_keepFragment_fresh base buffer h0 h1
        (hbyte e0 (by simp)).1 (hbyte e0 (by simp)).2 l
      intro e he
      obtain ⟨hne, fr, hfr, hid, hsize, -⟩ := hall e he
      refine ⟨(hbyte e he).1, (hbyte e he).2, ?_⟩
      rcases hfr with rfl | rfl
      · rw [hs0] at hid hsize
        left
        rw [List.head?_cons, eq_of_fragmentOf (hbyte e0 (by simp)).2
          (by rw [hme e he, hme e0 (by simp)]) hid hsize]
      · right
        rw [hs1] at hid hsize
        cases hl : l.getLast? with
        | none =>
          rw [hl] at hid
          exact absurd hid.symm hne
        | some z =>
          rw [hl] at hid hsize
          have hz : z ∈ l := List.mem_of_getLast? hl
          rw [List.getLast?_cons, hl, Option.getD_some, eq_of_fragmentOf
            (hbyte z (by simp [hz])).2 (by rw [hme e he, hme z (by simp [hz])]) hid hsize]
    · intro hall e he
      obtain ⟨hpos, hlt, hend⟩ := hall e he
      obtain ⟨hs0, hs1⟩ := foldl_keepFragment_fresh base buffer h0 h1
        (hall e0 (by simp)).1 (hall e0 (by simp)).2.1 l
      refine holdsFragment_of_slot hpos hlt (hpiece e he) ?_
      rcases hend with hhead | hlast
      · rw [List.head?_cons, Option.some.injEq] at hhead
        exact .inl (by rw [hs0, hhead])
      · rw [List.getLast?_cons, Option.some.injEq] at hlast
        cases hl : l.getLast? with
        | none =>
          rw [hl, Option.getD_none] at hlast
          exact .inl (by rw [hs0, hlast])
        | some z =>
          rw [hl, Option.getD_some] at hlast
          exact .inr (by rw [hs1, hl, hlast]; rfl)

end loop

/-! ## The table afterwards -/

def baseoffsetOf (fc : XFileContainer) (f : XFileInNetwork) : ℤ :=
  cInt (fc.size / (f.totalFragments / REDUNDANCY))

theorem handleNewFile_container {sv : Server} {fs fs' : XFileServer} {net net' : XFileNetworkIndex}
    {req : XRequestFileCreation} {sz file : ℕ}
    (h : serverIndexHandleNewFile sv fs net req sz = some (fs', net', file)) :
    ∃ size count, fs'.files[file]? =
      some (freshContainer req.name (fs.fileCount + 1) size count) := by
  simp only [serverIndexHandleNewFile, Option.bind_eq_bind, Option.bind_eq_some_iff,
    Option.pure_def, Option.some.injEq, Prod.mk.injEq] at h
  obtain ⟨d, -, placed, -, rfl, -, rfl⟩ := h
  exact ⟨sz, toU64 (fragcountOf sv.netSize sz), by simp [xfileserverAddFile, XFileServer.fileCount]⟩

theorem serverIndexFanoutIo_eq_some {sv : Server} {fs : XFileServer} {net : XFileNetworkIndex}
    {file : ℕ} {buffer : List UInt8} {io : ℕ → FanoutAnswers} {out : FannedOut} {fc : XFileContainer}
    (hfc : fs.files[file]? = some fc) (h : serverIndexFanoutIo sv fs net file buffer io = some out) :
    ∃ d f fc' qs, net.found fc.fileId = some f ∧
      f.fragments.zipIdx.foldlM (fanoutRound io sv d (baseoffsetOf fc f) buffer) (fc, []) =
        some (fc', qs) ∧
      out = ⟨serverSetState sv .idle, fs.update file fun _ => fc', net, qs⟩ := by
  obtain ⟨⟨fs', qs⟩, hfanout, rfl⟩ := Option.map_eq_some_iff.mp h
  simp only [serverIndexFanout, hfc, Option.bind_eq_bind, Option.bind_some, Option.bind_eq_some_iff,
    Option.pure_def, Option.some.injEq, Prod.mk.injEq] at hfanout
  obtain ⟨d, -, f, hf, ⟨fc', qs'⟩, hloop, rfl, rfl⟩ := hfanout
  exact ⟨d, f, fc', qs', hf, hloop, rfl⟩

/-- Every entry of the file's table names the index, which holds the fragment, or a node
that answered the store request for it. -/
def ListsReplicas (me : ℕ) (base : ℤ) (buffer : List UInt8) (file : ℕ)
    (table : List XFragmentNetworkPointer) (out : FannedOut) : Prop :=
  ∀ e ∈ table,
    (e.nodeId = me ∧ ∃ fc, out.fs.files[file]? = some fc ∧ HoldsFragment base buffer fc e) ∨
    ∃ q ∈ out.requests, q.entry = e ∧ serverWaitOk q.read

/-- The index lists replicas that exist exactly when every store request was answered by
`TYPE_OK`, and its own entries are the first and the last one it has. -/
theorem listsReplicas_iff {sv0 sv : Server} {fs0 fs : XFileServer} {net0 net : XFileNetworkIndex}
    {req : XRequestFileCreation} {sz file : ℕ} {buffer : List UInt8} {io : ℕ → FanoutAnswers}
    {out : FannedOut} {fc : XFileContainer} {f : XFileInNetwork}
    (hnew : serverIndexHandleNewFile sv0 fs0 net0 req sz = some (fs, net, file))
    (hout : serverIndexFanoutIo sv fs net file buffer io = some out)
    (hfc : fs.files[file]? = some fc) (hf : out.fnetidx.found fc.fileId = some f) :
    ListsReplicas sv.me.nodeId (baseoffsetOf fc f) buffer file f.fragments out ↔
      (∀ e ∈ f.fragments, e.nodeId ≠ sv.me.nodeId →
        ∃ i, f.fragments[i]? = some e ∧ (io i).acknowledged) ∧
      ∀ e ∈ ownEntries sv.me.nodeId f.fragments, 0 < e.fragment ∧ e.fragment < 256 ∧
        ((ownEntries sv.me.nodeId f.fragments).head? = some e ∨
          (ownEntries sv.me.nodeId f.fragments).getLast? = some e) := by
  obtain ⟨size, count, hfresh⟩ := handleNewFile_container hnew
  rw [hfc, Option.some.injEq] at hfresh
  obtain ⟨d, f', fc', qs, hf', hloop, rfl⟩ := serverIndexFanoutIo_eq_some hfc hout
  obtain rfl : f = f' := Option.some.inj (hf.symm.trans hf')
  obtain ⟨hfc', hown, hqs⟩ := foldlM_fanoutRound hloop
  rw [List.zipIdx_map_fst] at hfc' hown
  have hslot : (fs.update file fun _ => fc').files[file]? = some fc' := by
    simp [XFileServer.update, hfc]
  have hreq : ∀ e, (∃ q ∈ qs, q.entry = e ∧ serverWaitOk q.read) ↔
      e.nodeId ≠ sv.me.nodeId ∧ ∃ i, f.fragments[i]? = some e ∧ (io i).acknowledged := by
    intro e
    have hmem : (∃ q ∈ qs, q.entry = e ∧ serverWaitOk q.read) ↔
        ∃ x ∈ qs.map fun q => (q.entry, q.read), x.1 = e ∧ serverWaitOk x.2 := by simp
    rw [hmem, hqs]
    simp only [List.map_nil, List.nil_append, List.mem_map, List.mem_filter,
      List.mem_zipIdx_iff_getElem?, FanoutAnswers.acknowledged]
    constructor
    · rintro ⟨_, ⟨⟨e', i⟩, ⟨hi, hne⟩, rfl⟩, rfl, hok⟩
      exact ⟨by simpa using hne, i, hi, hok⟩
    · rintro ⟨hne, i, hi, hok⟩
      exact ⟨_, ⟨⟨e, i⟩, ⟨hi, by simpa using hne⟩, rfl⟩, rfl, hok⟩
  have hme : ∀ e ∈ ownEntries sv.me.nodeId f.fragments, e.nodeId = sv.me.nodeId := fun e he => by
    simpa using (List.mem_filter.mp he).2
  have h0 : fc.fragments0 = .zero := by rw [hfresh]; rfl
  have h1 : fc.fragments1 = .zero := by rw [hfresh]; rfl
  rw [← holds_own_iff _ buffer h0 h1 hme hown, ← hfc']
  simp only [ListsReplicas, hslot, hreq, Option.some.injEq, exists_eq_left']
  constructor
  · intro h
    refine ⟨fun e he hne => ?_, fun e he => ?_⟩
    · exact ((h e he).resolve_left fun h => hne h.1).2
    · exact ((h e (List.mem_of_mem_filter he)).resolve_right fun h => h.1 (hme e he)).2
  · rintro ⟨hother, hheld⟩ e he
    by_cases hmine : e.nodeId = sv.me.nodeId
    · exact .inl ⟨hmine, hheld e (List.mem_filter.mpr ⟨he, by simpa using hmine⟩)⟩
    · exact .inr ⟨hmine, hother e he hmine⟩

/-- The index of three nodes after it placed a file of ten bytes. -/
def smallStore : XFileServer := ⟨[freshContainer [97] 1 10 1]⟩

def smallEntry : XFileInNetwork := ⟨1, 2, [⟨1, 10, 1⟩, ⟨1, 10, 2⟩]⟩

theorem smallStore_placed :
    serverIndexHandleNewFile Cluster.three.readyIndex xfileserverInit
      xfilenetindexInit ⟨[97], 10⟩ 10 = some (smallStore, ⟨[smallEntry], 1⟩, 0) := by
  decide +kernel

def smallFanout (io : ℕ → FanoutAnswers) : Option FannedOut :=
  serverIndexFanoutIo Cluster.three.readyIndex smallStore
    ⟨[smallEntry], 1⟩ 0 (List.replicate 10 7) io

def allAnswer : ℕ → FanoutAnswers :=
  fun _ => ⟨some 9, xpacketOk Cluster.three.readyIndex,
    xpacketOk Cluster.three.readyIndex⟩

def noneDialed : ℕ → FanoutAnswers := fun _ => ⟨none, [], []⟩

theorem listsReplicas_all_answer :
    ListsReplicas 3 (baseoffsetOf (freshContainer [97] 1 10 1) smallEntry) (List.replicate 10 7) 0
      smallEntry.fragments ((smallFanout allAnswer).get (by decide +kernel)) := by
  have hout : smallFanout allAnswer = some ((smallFanout allAnswer).get (by decide +kernel)) :=
    (Option.some_get _).symm
  have hf : ((smallFanout allAnswer).get (by decide +kernel)).fnetidx.found 1 = some smallEntry := by
    decide +kernel
  have hok : (allAnswer 0).acknowledged = true := by decide +kernel
  refine (listsReplicas_iff smallStore_placed hout rfl hf).mpr ⟨fun e he _ => ?_, by decide +kernel⟩
  obtain ⟨i, hi⟩ := List.mem_iff_getElem?.mp he
  exact ⟨i, hi, hok⟩

/-- No node could be reached, and the table lists two replicas. -/
theorem not_listsReplicas_none_dialed :
    ¬ ListsReplicas 3 (baseoffsetOf (freshContainer [97] 1 10 1) smallEntry) (List.replicate 10 7) 0
      smallEntry.fragments ((smallFanout noneDialed).get (by decide +kernel)) := by
  intro h
  rcases h ⟨1, 10, 1⟩ (by decide) with ⟨hme, -⟩ | ⟨q, hq, -, hok⟩
  · exact absurd hme (by decide)
  · have hno : ∀ q ∈ ((smallFanout noneDialed).get (by decide +kernel)).requests,
        serverWaitOk q.read = false := by decide +kernel
    rw [hno q hq] at hok
    exact absurd hok (by decide)

end DSS
