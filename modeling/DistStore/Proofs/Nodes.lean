import DistStore.Model.ClientCommands
import DistStore.Model.Nodes
import DistStore.Proofs.ClientCommands
import DistStore.Proofs.Downloads
import DistStore.Proofs.GatewayAnswer
import DistStore.Proofs.PassCases
import DistStore.Proofs.PendingRepair
import DistStore.Proofs.QuietIndex
import DistStore.Proofs.RawTransfer

/-! The main loops do what the network does: an upload is `Network.upload` on what the nodes store, and
a request brings the gateway's client what the orders of the index come to. -/

namespace DSS

open Bytes MainLoop

section passes

theorem MainLoop.passes_cons {st st' : MainLoop} {io : PassIo} {ios : List PassIo} {r : Option MainLoop}
    (h : MainLoop.pass io st = some st') (hrest : st'.passes ios = r) : st.passes (io :: ios) = r := by
  rw [passes, Transition.run, List.foldlM_cons, h]
  exact hrest

variable (mem : ℕ → UInt8) (fd : ℕ) {st : MainLoop}

/-! ## One pass -/

/-- The size of a node's id makes it an identification, and not a client's. -/
structure NodeId (sv : Server) : Prop where
  pos : 1 ≤ sv.me.nodeId
  lt : sv.me.nodeId < 2 ^ 31

theorem NodeId.presentation {sv : Server} (h : NodeId sv) :
    serverWaitClientPresentation (serverWaitFromSocket (some (xpacketPresentation sv))) =
      sv.me.nodeId := by
  have hlen : (xpacketPresentation sv).length ≠ 0 := fun h0 =>
    commPacket_ne_nil _ _ _ _ _ (List.length_eq_zero_iff.mp h0)
  have htype : commType (xpacketPresentation sv) = TYPE_PRESENT_ITSELF := commType_xpacketSized ..
  have hsender : commSenderId (xpacketPresentation sv) = sv.me.nodeId := by
    rw [xpacketPresentation, xpacketSized, commSenderId_commPacket]
    have := h.lt
    omega
  rw [serverWaitFromSocket, Option.getD_some, serverWaitClientPresentation, if_neg hlen,
    if_neg (not_not.mpr htype), hsender]

theorem NodeId.ne_client {sv : Server} (h : NodeId sv) : sv.me.nodeId ≠ CLIENT_NODE_ID := by
  have := h.lt
  rw [CLIENT_NODE_ID]
  omega

theorem checkPeerB_quiet (dial : Address → Option ℕ) (sv : Server) :
    checkPeerB dial none sv = some sv := by
  simp [checkPeerB]

theorem serverHealthcheck_quiet (sv : Server) : serverHealthcheck false sv = sv := by
  simp [serverHealthcheck]

theorem pass_idle_accepts (hidle : st.sv.state = .idle) (ps : List XPacket) :
    MainLoop.pass (.accepts mem fd ps) st = idleAccepted (.accepts mem fd ps) st fd := by
  rw [MainLoop.pass, hidle]
  simp only [serverIdle, PassIo.accepts, PassIo.quiet, serverHealthcheck_quiet, checkPeerB_quiet,
    Option.bind_eq_bind, Option.bind_some]
  change idleServe _ st = _
  rw [idleServe]
  cases st.sv.clientFd <;> rfl

/-- The idle node takes a connection, and the packet after the identification. -/
theorem pass_accepts (hidle : st.sv.state = .idle) {peer : Server} (hpeer : NodeId peer)
    {p : XPacket} (hp : p ≠ []) (ps : List XPacket) :
    MainLoop.pass (.accepts mem fd (xpacketPresentation peer :: p :: ps)) st = some (st.receive fd p) := by
  have hpos := hpeer.pos
  rw [pass_idle_accepts mem fd hidle, idleAccepted]
  simp only [PassIo.accepts, List.map_cons, hpeer.presentation]
  rw [if_neg (by omega), if_neg hpeer.ne_client]
  simp [hp, serverWaitFromSocket]

/-- The idle node takes what its client sent. -/
theorem pass_fromClient (hidle : st.sv.state = .idle) {client : ℕ} (hclient : st.sv.clientFd = some client)
    {p : XPacket} (hp : p ≠ []) :
    MainLoop.pass (.fromClient mem fd p) st = some (st.receive client p) := by
  rw [MainLoop.pass, hidle]
  simp only [serverIdle, PassIo.fromClient, PassIo.quiet, serverHealthcheck_quiet, checkPeerB_quiet,
    Option.bind_eq_bind, Option.bind_some]
  show idleServe _ st = _
  rw [idleServe]
  simp [hclient, hp, serverWaitFromSocket]

theorem receiveLoop_complete (forward : Bool) {buffer : List UInt8} {chunks : List XPacket}
    (h : buffer.length = chunks.flatten.length) :
    receiveLoop forward chunks.length ⟨buffer, 0, []⟩ (chunks.map some) =
      .done ⟨chunks.flatten, chunks.flatten.length, if forward then chunks else []⟩ [] := by
  have hloop := receiveLoop_data forward [] [] h.ge []
  rw [List.drop_of_length_le h.le] at hloop
  simpa only [List.nil_append, List.append_nil, List.length_nil, List.map_nil] using hloop

/-- Raw packets that come as many as the node counts. -/
theorem waitingRawPackets_complete {sv : Server} {raw : StateRawPackets} {chunks : List XPacket}
    (hsize : raw.totalSize = chunks.flatten.length) (h31 : chunks.flatten.length < 2 ^ 31)
    (hcount : chunks.length = rawReceives raw) :
    serverWaitingRawPackets mem sv raw (chunks.map some) =
      .done ⟨chunks.flatten, chunks.flatten.length,
        if raw.triggerPkt = TYPE_CREATE_FILE && !serverIsIndex sv then chunks else []⟩ [] := by
  rw [serverWaitingRawPackets, ← hcount]
  apply receiveLoop_complete
  rw [malloc_length, hsize, cInt_of_lt h31, Int.toNat_natCast]

theorem serverSetState_serverSetState (sv : Server) {a : EServerState}
    (h : a ≠ .indexWaitingPeersKnowledge) (b : EServerState) :
    serverSetState (serverSetState sv a) b = serverSetState sv b := by
  simp [serverSetState, h]

theorem serverSetState_self {sv : Server} (h : sv.state = .idle) : serverSetState sv .idle = sv := by
  rw [serverSetState, if_neg (by decide), ← h]

/-- A node that is idle again is as it was. -/
theorem serverSetState_idle {sv : Server} (hidle : sv.state = .idle) {a : EServerState}
    (h : a ≠ .indexWaitingPeersKnowledge) : serverSetState (serverSetState sv a) .idle = sv := by
  rw [serverSetState_serverSetState sv h, serverSetState_self hidle]

theorem receive_idle (hidle : st.sv.state = .idle) (n : ℕ) (p : XPacket) :
    ((st.receive n p).setState .idle).node = st.node := by
  change (⟨serverSetState (serverSetState st.sv .receivedPacket) .idle, st.node.fs,
    st.node.fnetidx⟩ : Node) = _
  rw [serverSetState_idle hidle (by decide)]
  rfl

theorem pass_raw (hstate : st.sv.state = .waitingRawPackets) {chunks : List XPacket}
    (hsize : st.raw.totalSize = chunks.flatten.length) (h31 : chunks.flatten.length < 2 ^ 31)
    (hcount : chunks.length = rawReceives st.raw) :
    MainLoop.pass (.receives mem fd chunks) st =
      some { st.setState (rawPacketsDone st.sv st.raw.triggerPkt) with buffer := chunks.flatten } := by
  rw [MainLoop.pass, hstate]
  simp only [waitingRawPackets, PassIo.receives, PassIo.quiet]
  rw [waitingRawPackets_complete mem hsize h31 hcount]

/-! ## A fragment is stored -/

theorem length_largeBuffer_of_not_dvd {raw : List UInt8} (h : ¬ SERVER_BUCKET_SIZE ∣ raw.length) :
    (serverSendLargeBufferTo raw).length = nPackets raw.length := by
  rw [length_serverSendLargeBufferTo, nPackets_eq_ceil_iff]
  exact fun h0 => h (Nat.dvd_of_mod_eq_zero h0)

theorem flatten_serverSendLargeBufferTo (raw : List UInt8) :
    (serverSendLargeBufferTo raw).flatten = raw := by
  rw [serverSendLargeBufferTo, flatten_tcpSends, flatten_largeBufferPackets]

theorem xpacketSendFragment_ne_nil (sv : Server) (frag : XRequestFragmentCreation) :
    xpacketSendFragment sv frag ≠ [] := commPacket_ne_nil _ _ _ _ _

theorem pass_storeFragment (hstate : st.sv.state = .receivedPacket)
    (htype : commType st.packet = TYPE_STORE_FRAGMENT) (io : PassIo) :
    MainLoop.pass io st = some (receivedStoreFragment st) := by
  rw [MainLoop.pass, hstate]
  simp only
  rw [serverReceivedPacket, htype, if_neg (by decide), if_pos rfl]

theorem pass_receivedFragment (hstate : st.sv.state = .receivedFragment) (io : PassIo) :
    MainLoop.pass io st = some (receivedFragment st) := by
  rw [MainLoop.pass, hstate]

/-- A node that is sent a fragment stores it and is idle again. -/
theorem storesFragment_eq (hidle : st.sv.state = .idle) {peer : Server} (hpeer : NodeId peer)
    (sender : Server) {frag : XRequestFragmentCreation} (hfits : frag.Fits) {raw : List UInt8}
    (hsize : frag.fragSize = raw.length) (h31 : raw.length < 2 ^ 31)
    (hdvd : ¬ SERVER_BUCKET_SIZE ∣ raw.length) (dest : Address) :
    ∃ st', storesFragment mem fd peer ⟨dest, xpacketSendFragment sender frag, raw⟩ st = some st' ∧
      st'.node = ⟨st.sv, receiveTransmission st.node.fs (xpacketSendFragment sender frag) raw,
        st.node.fnetidx⟩ := by
  obtain ⟨p, hp⟩ : ∃ p, p = xpacketSendFragment sender frag := ⟨_, rfl⟩
  rw [← hp]
  have htype : commType p = TYPE_STORE_FRAGMENT := hp ▸ commType_xpacketSized ..
  have hraw : (typeStoreFragment st.node.fs p).2 = frag := by
    rw [typeStoreFragment_snd, hp, typeStoreFragment_decode sender hfits]
  have hflat := flatten_serverSendLargeBufferTo raw
  have haccepts := pass_accepts mem fd hidle hpeer
    (hp ▸ xpacketSendFragment_ne_nil sender frag) []
  obtain ⟨st2, hst2⟩ : ∃ st2, receivedStoreFragment (st.receive fd p) = st2 := ⟨_, rfl⟩
  have hannounced : MainLoop.pass (.quiet mem fd) (st.receive fd p) = some st2 :=
    (pass_storeFragment rfl htype _).trans (congrArg some hst2)
  obtain ⟨htrigger, htotal, hcount, hfragc⟩ : st2.raw.triggerPkt = TYPE_STORE_FRAGMENT ∧
      st2.raw.totalSize = raw.length ∧ st2.raw.nPkts = nPackets raw.length ∧ st2.raw.fragc = frag := by
    rw [← hsize, ← hraw, ← hst2]
    exact ⟨rfl, rfl, rfl, rfl⟩
  have hnode : st2.node = ⟨serverSetState st.sv .waitingRawPackets,
      (typeStoreFragment st.node.fs p).1, st.node.fnetidx⟩ := by
    rw [← hst2, ← serverSetState_serverSetState st.sv (a := .receivedPacket) nofun]
    rfl
  have hcame : MainLoop.pass (.receives mem fd (serverSendLargeBufferTo raw)) st2 =
      some { st2.setState .receivedFragment with buffer := raw } := by
    have h := pass_raw mem fd (show st2.sv.state = .waitingRawPackets by rw [MainLoop.sv, hnode]; rfl)
      (htotal.trans (congrArg List.length hflat.symm)) (hflat.symm ▸ h31)
      (by rw [length_largeBuffer_of_not_dvd hdvd, rawReceives_of_lt (hcount ▸ nPackets_lt h31), hcount])
    rw [hflat, htrigger] at h
    exact h
  refine ⟨_, passes_cons haccepts (passes_cons hannounced (passes_cons hcame
    (passes_cons (pass_receivedFragment rfl _) rfl))), ?_⟩
  change (⟨serverSetState (serverSetState st2.node.sv .receivedFragment) .idle,
    serverReceivedFragment st2.node.fs st2.raw.fragc raw, st2.node.fnetidx⟩ : Node) = _
  simp (disch := decide) only [hnode, hfragc, serverSetState_serverSetState]
  rw [serverSetState_self hidle, receiveTransmission, ← hraw]

/-! ## A file is relayed -/

theorem pass_createFile (hstate : st.sv.state = .receivedPacket)
    (htype : commType st.packet = TYPE_CREATE_FILE) (io : PassIo) :
    MainLoop.pass io st = receivedCreateFile io st := by
  rw [MainLoop.pass, hstate]
  simp only
  rw [serverReceivedPacket, if_pos htype]

/-- What the client sends is a declaration of a file, and the file in the raw packets a node counts. -/
structure Declares (p : XPacket) (chunks : List XPacket) (name : List UInt8) (bytes : List UInt8) :
    Prop where
  ne_nil : p ≠ []
  type : commType p = TYPE_CREATE_FILE
  content : XRequestFileCreation.ofContent (content p) = ⟨char200 name, bytes.length⟩
  flatten : chunks.flatten = bytes
  length : chunks.length = nPackets bytes.length
  size_lt : bytes.length < 2 ^ 31

variable {p : XPacket} {chunks : List XPacket} {name bytes : List UInt8}

def MainLoop.awaitsRaw (sv : Server) (raw : StateRawPackets) (st : MainLoop) : MainLoop :=
  { (st.withServer sv).setState .waitingRawPackets with raw := raw }

theorem receivedCreateFile_gateway (h : serverIsIndex st.sv = false) :
    receivedCreateFile (.quiet mem fd) st = some (st.awaitsRaw (st.dialed fd).sv
      (typeCreateFile st.sv st.raw st.packet st.fromFd).1) := by
  rw [receivedCreateFile, h]
  rfl

theorem receivedCreateFile_index (h : serverIsIndex st.sv = true) (io : PassIo) :
    receivedCreateFile io st =
      some (st.awaitsRaw st.sv (typeCreateFile st.sv st.raw st.packet st.fromFd).1) := by
  rw [receivedCreateFile, if_pos h]
  rfl

theorem Declares.raw (h : Declares p chunks name bytes) {raw old : StateRawPackets} {sv : Server} {n : ℕ}
    (hraw : raw = (typeCreateFile sv old p n).1) :
    raw.triggerPkt = TYPE_CREATE_FILE ∧ raw.fc = ⟨char200 name, bytes.length⟩ ∧
      raw.totalSize = chunks.flatten.length ∧ chunks.flatten.length < 2 ^ 31 ∧
      chunks.length = rawReceives raw := by
  have hfc : raw.fc = ⟨char200 name, bytes.length⟩ := by rw [hraw, typeCreateFile, ← h.content]
  have hcount : raw.nPkts = nPackets bytes.length := by rw [hraw, typeCreateFile, h.content]
  refine ⟨by rw [hraw, typeCreateFile], hfc, ?_, by rw [h.flatten]; exact h.size_lt, ?_⟩
  · rw [hraw, typeCreateFile, h.content, h.flatten]
  · rw [rawReceives_of_lt (hcount ▸ nPackets_lt h.size_lt), hcount, h.length]

/-- A gateway sends the index all it got from its client, and is idle again. -/
theorem relaysFile_eq (hidle : st.sv.state = .idle) (hgateway : serverIsIndex st.sv = false)
    {client : ℕ} (hclient : st.sv.clientFd = some client) (h : Declares p chunks name bytes) :
    ∃ st', relaysFile mem fd p chunks st = some (st', xpacketPresentation st.sv :: p :: chunks) ∧
      st'.node = (st.dialed fd).node := by
  have hcame := pass_fromClient mem fd hidle hclient h.ne_nil
  obtain ⟨st1, hst1⟩ : ∃ st1, st.receive client p = st1 := ⟨_, rfl⟩
  rw [hst1] at hcame
  have hgateway1 : serverIsIndex st1.sv = false := hst1 ▸ hgateway
  have hannounced : (typeCreateFile st1.sv st1.raw st1.packet st1.fromFd).2 =
      [xpacketPresentation st.sv, p] := by
    rw [typeCreateFile, hgateway1, ← hst1]
    rfl
  obtain ⟨st2, hst2⟩ : ∃ st2, st1.awaitsRaw (st1.dialed fd).sv
    (typeCreateFile st1.sv st1.raw st1.packet st1.fromFd).1 = st2 := ⟨_, rfl⟩
  have hdialled : MainLoop.pass (.quiet mem fd) st1 = some st2 := by
    rw [pass_createFile (hst1 ▸ rfl) (hst1 ▸ h.type), receivedCreateFile_gateway mem fd hgateway1, hst2]
  have hraw : st2.raw = (typeCreateFile st1.sv st1.raw p client).1 := by
    rw [← hst2, ← hst1]
    rfl
  obtain ⟨htrigger, -, htotal, h31, hcount⟩ := h.raw hraw
  have hgateway2 : serverIsIndex st2.sv = false := hst2 ▸ hgateway1
  have hforwards : forwards mem chunks st2 = some chunks := by
    rw [forwards, waitingRawPackets_complete mem htotal h31 hcount, htrigger, hgateway2]
    rfl
  have hrelayed := pass_raw mem fd (show st2.sv.state = .waitingRawPackets from hst2 ▸ rfl) htotal h31 hcount
  rw [htrigger, rawPacketsDone, if_pos rfl, hgateway2] at hrelayed
  obtain ⟨st3, hst3⟩ : ∃ st3, { st2.setState .idle with buffer := chunks.flatten } = st3 := ⟨_, rfl⟩
  refine ⟨st3, ?_, ?_⟩
  · simp only [relaysFile, hcame, hdialled, hforwards, Option.bind_eq_bind, Option.bind_some, hannounced]
    rw [hrelayed, ← hst3]
    rfl
  · rw [← hst3, ← hst2, ← hst1]
    change (⟨serverSetState (serverSetState (serverSetState (st.dialed fd).sv .receivedPacket)
      .waitingRawPackets) .idle, st.node.fs, st.node.fnetidx⟩ : Node) = _
    simp (disch := decide) only [serverSetState_serverSetState]
    rw [serverSetState_self (show (st.dialed fd).sv.state = .idle from hidle)]
    rfl

theorem placeReplicas_setState (sv : Server) (state : EServerState) (i node : ℕ) (fragmentsz : ℤ)
    (r tries j : ℕ) (fragments : List XFragmentNetworkPointer) :
    placeReplicas (serverSetState sv state) i node fragmentsz r tries j fragments =
      placeReplicas sv i node fragmentsz r tries j fragments := by
  induction r generalizing tries j fragments with
  | zero => rfl
  | succ r ih =>
    simp only [placeReplicas, ih]
    rfl

/-- Neither the placement nor the fan-out looks at the state. -/
theorem handleNewFile_setState (sv : Server) (state : EServerState) (fs : XFileServer)
    (net : XFileNetworkIndex) (fc : XRequestFileCreation) (size : ℕ) :
    serverIndexHandleNewFile (serverSetState sv state) fs net fc size =
      serverIndexHandleNewFile sv fs net fc size := by
  have hplace : placeFragment (serverSetState sv state) = placeFragment sv := by
    funext d fragcount fragsz remain st i
    rw [placeFragment, placeFragment, placeReplicas_setState]
  simp only [serverIndexHandleNewFile, placeFragments, hplace]
  rfl

theorem fanoutFragments_setState (sv : Server) (state : EServerState) (fs : XFileServer)
    (net : XFileNetworkIndex) (slot : ℕ) (buffer : List UInt8) :
    serverIndexFanoutFragments (serverSetState sv state) fs net slot buffer =
      serverIndexFanoutFragments sv fs net slot buffer := rfl

theorem pass_handleNewFile {sv : Server} (hsv : st.sv = serverSetState sv .indexHandleNewFile)
    {fs : XFileServer} {net : XFileNetworkIndex} {slot : ℕ}
    (hplaced : serverIndexHandleNewFile sv st.node.fs st.node.fnetidx st.raw.fc st.raw.totalSize =
      some (fs, net, slot)) (io : PassIo) :
    MainLoop.pass io st =
      some { st with node := ⟨serverSetState sv .indexFanoutFragments, fs, net⟩, file := slot } := by
  have hstate : st.sv.state = .indexHandleNewFile := by
    rw [hsv]
    rfl
  have hnext : serverSetState st.sv .indexFanoutFragments = serverSetState sv .indexFanoutFragments := by
    rw [hsv, serverSetState_serverSetState _ (by decide)]
  rw [← handleNewFile_setState sv .indexHandleNewFile, ← hsv] at hplaced
  rw [MainLoop.pass, hstate, ← hnext]
  simp only [handleNewFile, hplaced, Option.bind_eq_bind, Option.bind_some]
  rfl

theorem pass_fansOut {sv : Server} (hsv : st.sv = serverSetState sv .indexFanoutFragments)
    (hidle : sv.state = .idle) {answers : ℕ → FanoutAnswers} (hanswers : ∀ i, (answers i).fd ≠ none)
    {fs : XFileServer} {sent : List FragmentTransmission}
    (hfan : serverIndexFanoutFragments sv st.node.fs st.node.fnetidx st.file st.buffer = some (fs, sent)) :
    ∃ out st', serverIndexFanoutIo st.sv st.node.fs st.node.fnetidx st.file st.buffer answers = some out ∧
      out.requests.filterMap StoreRequest.sent = sent ∧
      MainLoop.pass { PassIo.quiet mem fd with fanout := answers } st = some st' ∧
      st'.node = ⟨sv, fs, st.node.fnetidx⟩ := by
  have hstate : st.sv.state = .indexFanoutFragments := by
    rw [hsv]
    rfl
  obtain ⟨out, hout, hsent⟩ : ∃ out,
      serverIndexFanoutIo st.sv st.node.fs st.node.fnetidx st.file st.buffer answers = some out ∧
        (out.fs, out.requests.filterMap StoreRequest.sent) = (fs, sent) := by
    apply Option.map_eq_some_iff.mp
    rw [serverIndexFanoutIo_dialed _ _ _ _ _ _ hanswers, hsv, fanoutFragments_setState, hfan]
  obtain ⟨hfs, hsent⟩ := Prod.mk.inj hsent
  obtain ⟨st', hst'⟩ : ∃ st', { st with node := ⟨out.sv, out.fs, out.fnetidx⟩ } = st' := ⟨_, rfl⟩
  have hfanned : fanoutFragments { PassIo.quiet mem fd with fanout := answers } st = some st' := by
    simp only [fanoutFragments, hout, Option.bind_eq_bind, Option.bind_some]
    rw [← hst']
    rfl
  refine ⟨out, st', hout, hsent, ?_, ?_⟩
  · rw [MainLoop.pass, hstate]
    exact hfanned
  · obtain ⟨fs', hcases⟩ := fanoutFragments_cases hfanned
    have hfs' : fs' = fs := by rw [← hfs, show out.fs = st'.node.fs by rw [← hst'], hcases]
    rw [hcases, hfs']
    dsimp only
    rw [hsv, serverSetState_idle hidle (by decide)]

/-- The index places the file and fans it out, and is idle again. -/
theorem placesFile_eq (hidle : st.sv.state = .idle) (hindex : serverIsIndex st.sv = true)
    {peer : Server} (hpeer : NodeId peer) (h : Declares p chunks name bytes) {answers : ℕ → FanoutAnswers}
    (hanswers : ∀ i, (answers i).fd ≠ none) {fs1 fs2 : XFileServer} {net : XFileNetworkIndex} {slot : ℕ}
    {sent : List FragmentTransmission}
    (hplaced : serverIndexHandleNewFile st.sv st.node.fs st.node.fnetidx ⟨char200 name, bytes.length⟩
      bytes.length = some (fs1, net, slot))
    (hfan : serverIndexFanoutFragments st.sv fs1 net slot bytes = some (fs2, sent)) :
    ∃ st', placesFile mem fd answers (xpacketPresentation peer :: p :: chunks) st = some (st', sent) ∧
      st'.node = ⟨st.sv, fs2, net⟩ := by
  have haccepts := pass_accepts mem fd hidle hpeer h.ne_nil []
  obtain ⟨st1, hst1⟩ : ∃ st1, st.receive fd p = st1 := ⟨_, rfl⟩
  rw [hst1] at haccepts
  obtain ⟨st2, hst2⟩ : ∃ st2, st1.awaitsRaw st1.sv
    (typeCreateFile st1.sv st1.raw st1.packet st1.fromFd).1 = st2 := ⟨_, rfl⟩
  have hannounced : MainLoop.pass (.quiet mem fd) st1 = some st2 := by
    rw [pass_createFile (hst1 ▸ rfl) (hst1 ▸ h.type), receivedCreateFile_index (hst1 ▸ hindex), hst2]
  have hraw : st2.raw = (typeCreateFile st1.sv st1.raw p fd).1 := by
    rw [← hst2, ← hst1]
    rfl
  obtain ⟨htrigger, hfc, htotal, h31, hcount⟩ := h.raw hraw
  have hindex2 : serverIsIndex st2.sv = true := by
    rw [← hst2, ← hst1]
    exact hindex
  have hcame := pass_raw mem fd (show st2.sv.state = .waitingRawPackets from hst2 ▸ rfl) htotal h31 hcount
  rw [htrigger, rawPacketsDone, if_pos rfl, hindex2, if_pos rfl, h.flatten] at hcame
  obtain ⟨st3, hst3⟩ : ∃ st3, { st2.setState .indexHandleNewFile with buffer := bytes } = st3 := ⟨_, rfl⟩
  rw [hst3] at hcame
  have hsv3 : st3.sv = serverSetState st.sv .indexHandleNewFile := by
    rw [← hst3, ← hst2, ← hst1]
    change serverSetState (serverSetState (serverSetState st.sv .receivedPacket) .waitingRawPackets)
      .indexHandleNewFile = _
    simp (disch := decide) only [serverSetState_serverSetState]
  have hplaced3 : serverIndexHandleNewFile st.sv st3.node.fs st3.node.fnetidx st3.raw.fc
      st3.raw.totalSize = some (fs1, net, slot) := by
    rw [show st3.raw = st2.raw by rw [← hst3]; rfl, hfc, htotal, h.flatten, ← hplaced, ← hst3, ← hst2,
      ← hst1]
    rfl
  have hhandled := pass_handleNewFile hsv3 hplaced3 (.quiet mem fd)
  obtain ⟨st4, hst4⟩ : ∃ st4, { st3 with
    node := ⟨serverSetState st.sv .indexFanoutFragments, fs1, net⟩, file := slot } = st4 := ⟨_, rfl⟩
  rw [hst4] at hhandled
  have hfan4 : serverIndexFanoutFragments st.sv st4.node.fs st4.node.fnetidx st4.file st4.buffer =
      some (fs2, sent) := by
    rw [← hst4, ← hst3]
    exact hfan
  obtain ⟨out, st5, hout, hsent, hfanned, hnode⟩ :=
    pass_fansOut mem fd (show st4.sv = _ from hst4 ▸ rfl) hidle hanswers hfan4
  have hpasses : st.passes [.accepts mem fd [xpacketPresentation peer, p], .quiet mem fd,
      .receives mem fd chunks, .quiet mem fd] = some st4 :=
    passes_cons haccepts (passes_cons hannounced (passes_cons hcame (passes_cons hhandled rfl)))
  refine ⟨st5, ?_, by rw [hnode, ← hst4]⟩
  simp only [placesFile, List.take_succ_cons, List.take_zero, List.drop_succ_cons, List.drop_zero,
    hpasses, hout, hfanned, Option.bind_eq_bind, Option.bind_some]
  rw [← hsent]
  rfl

/-! ## What a client writes -/

/-- What a client writes for a file is what a node takes, unless the last packet would be full. -/
theorem declares_of_uploadable {file : Upload} (h : Uploadable file)
    (hdvd : ¬ SERVER_BUCKET_SIZE ∣ file.2.length) :
    Declares (goPacket CreateFilePacket (⟨toFixed200 file.1, UInt64.ofNat file.2.length,
        char200_length _⟩ : FileDeclarationPacket)).serialize
      (handleFileTransmission file.2) file.1 file.2 := by
  have hlen : (Serializable.serialize (⟨toFixed200 file.1, UInt64.ofNat file.2.length,
      char200_length _⟩ : FileDeclarationPacket)).length = 208 := by
    show (toFixed200 file.1 ++ le 8 _).length = 208
    rw [List.length_append, le_length, toFixed200, char200_length]
  have hceil : (file.2.length + (SERVER_BUCKET_SIZE - 1)) / SERVER_BUCKET_SIZE =
      nPackets file.2.length :=
    (nPackets_eq_ceil_iff _).mpr fun h0 => hdvd (Nat.dvd_of_mod_eq_zero h0)
  refine ⟨?_, ?_, ?_, ?_, ?_, h.size_lt⟩
  · apply List.ne_nil_of_length_pos
    rw [length_serialize]
    omega
  · exact (nodeReads_serialize _ (by rw [goPacket, hlen]; norm_num)).type
  · have hbytes : Serializable.serialize (⟨toFixed200 file.1, UInt64.ofNat file.2.length,
        char200_length _⟩ : FileDeclarationPacket) =
          XRequestFileCreation.bytes ⟨char200 file.1, file.2.length⟩ ++ [] := by
      rw [XRequestFileCreation.bytes, char200_of_length (char200_length _), List.append_nil]
      show toFixed200 file.1 ++ le 8 _ = _
      rw [UInt64.toNat_ofNat', Nat.mod_eq_of_lt (lt_trans h.size_lt (by norm_num))]
      rfl
    rw [content_serialize, goPacket, hbytes, XRequestFileCreation.ofContent_bytes,
      char200_of_length (char200_length _), u64_of_lt (lt_trans h.size_lt (by norm_num))]
  · rw [handleFileTransmission, Chunks.flatten_chunks]
    apply List.take_of_length_le
    rw [hceil, nPackets, SERVER_BUCKET_SIZE]
    omega
  · rw [handleFileTransmission, Chunks.chunks, List.length_map, List.length_range, hceil]

theorem pass_presents (hidle : st.sv.state = .idle) :
    MainLoop.pass (.accepts mem fd [(goPacket PresentItself (⟨⟩ : Empty)).serialize]) st =
      some (st.withServer { st.sv with clientFd := some fd }) := by
  have hreads := nodeReads_serialize (goPacket PresentItself (⟨⟩ : Empty)) (by decide)
  have hpresented : serverWaitClientPresentation (serverWaitFromSocket
      (some (goPacket PresentItself (⟨⟩ : Empty)).serialize)) = CLIENT_NODE_ID := by
    rw [serverWaitFromSocket, Option.getD_some, serverWaitClientPresentation,
      if_neg (by rw [length_serialize]; omega), hreads.type, hreads.sender]
    rfl
  rw [pass_idle_accepts mem fd hidle, idleAccepted]
  simp only [PassIo.accepts, List.map_cons, hpresented]
  rw [if_neg (by decide), if_pos trivial]

theorem checkPeerB_notified {dial : Address → Option ℕ} {sv : Server} (hopen : sv.peerB.statusOpen = true)
    {p : XPacket} (hp : p ≠ []) {r : Handled} (hr : xprocedureCheckPeerB dial sv p = some r) :
    checkPeerB dial (some p) sv = some r.sv := by
  obtain ⟨b, bs, rfl⟩ := List.exists_cons_of_ne_nil hp
  rw [checkPeerB, if_pos hopen, hr]
  rfl

theorem pass_notified (hidle : st.sv.state = .idle) (hopen : st.sv.peerB.statusOpen = true) {p : XPacket}
    (hp : p ≠ []) {dial : Address → Option ℕ} {r : Handled}
    (hr : xprocedureCheckPeerB dial st.sv p = some r) :
    MainLoop.pass (.notified mem fd dial p) st = some (st.withServer r.sv) := by
  rw [MainLoop.pass, hidle]
  simp only [serverIdle, PassIo.notified, PassIo.quiet, serverHealthcheck_quiet,
    checkPeerB_notified hopen hp hr, Option.bind_eq_bind, Option.bind_some]
  rw [idleServe]
  cases (st.withServer r.sv).sv.clientFd <;> rfl

theorem xprocedureCheckPeerB_peerB {dial : Address → Option ℕ} {sv : Server} {p : XPacket} {r : Handled}
    (h : xprocedureCheckPeerB dial sv p = some r) : r.sv.peerB = sv.peerB := by
  rw [xprocedureCheckPeerB] at h
  split_ifs at h
  · obtain ⟨r', hr', h⟩ := Option.bind_eq_some_iff.mp h
    obtain rfl := Option.some.inj h
    exact (peerDiedIndex_frame ..).2.2.1.trans (peerDiedNeighbour_frame hr').2.1
  · obtain rfl := Option.some.inj h
    rfl

end passes

/-! ## All nodes -/

namespace Cluster

variable {c : Cluster} (mem : ℕ → UInt8) (fd : ℕ) {loops : ℕ → MainLoop}

def storedBy (loops : ℕ → MainLoop) (n : ℕ) : XFileServer := (loops n).node.fs

theorem storedBy_update (loops : ℕ → MainLoop) (n : ℕ) (st : MainLoop) :
    storedBy (Function.update loops n st) = Function.update (storedBy loops) n st.node.fs := by
  funext m
  rw [storedBy, Function.update_apply, Function.update_apply]
  split_ifs <;> rfl

/-- The fragments of a file reach the nodes, and nothing else changes. -/
theorem storesFragments_eq {peer : Server} (hpeer : NodeId peer) {sv : Server} {f : StoredFile}
    {sent : List FragmentTransmission} (hsent : ∀ t ∈ sent, f.Sends c sv t)
    (hsizes : ∀ i < f.count, f.pieceSize i < 2 ^ 31 ∧ ¬ SERVER_BUCKET_SIZE ∣ f.pieceSize i)
    (hidle : ∀ n ∈ f.nodes, (loops n).sv.state = .idle) :
    ∃ loops', c.storesFragments mem fd peer loops sent = some loops' ∧ ∀ n, (loops' n).node =
      ⟨(loops n).sv, sent.foldl (Network.deliver c) (storedBy loops) n, (loops n).node.fnetidx⟩ := by
  induction sent generalizing loops with
  | nil => exact ⟨loops, rfl, fun n => rfl⟩
  | cons t sent ih =>
    obtain ⟨⟨frag, hpacket, hfits, hsize⟩, ⟨n, hn, hat⟩, i, hi, hraw⟩ := hsent t List.mem_cons_self
    obtain ⟨h31, hdvd⟩ := hsizes i hi
    rw [← hraw] at h31 hdvd
    obtain ⟨st, hst, hnode⟩ := storesFragment_eq mem fd (hidle n hn) hpeer sv hfits
      hsize h31 hdvd t.dest
    rw [← hpacket] at hst hnode
    have hidle' : ∀ m ∈ f.nodes, (Function.update loops n st m).sv.state = .idle := by
      intro m hm
      by_cases hmn : m = n
      · rw [hmn, Function.update_self, MainLoop.sv, hnode]
        exact hidle n hn
      · rw [Function.update_of_ne hmn]
        exact hidle m hm
    obtain ⟨loops', hrest, hloops'⟩ := ih (fun t' ht' => hsent t' (List.mem_cons_of_mem _ ht')) hidle'
    refine ⟨loops', ?_, fun m => ?_⟩
    · rw [storesFragments, List.foldlM_cons, hat]
      simp only [Option.bind_eq_bind, Option.bind_some, hst]
      exact hrest
    · have hdeliver : Network.deliver c (storedBy loops) t = storedBy (Function.update loops n st) := by
        rw [storedBy_update, hnode, Network.deliver, hat]
        rfl
      rw [hloops' m, List.foldl_cons, hdeliver]
      by_cases hmn : m = n
      · rw [hmn, Function.update_self, MainLoop.sv, hnode]
      · rw [Function.update_of_ne hmn]

theorem foldl_deliver_congr {fs fs' : ℕ → XFileServer} {n : ℕ} (h : fs n = fs' n)
    (sent : List FragmentTransmission) :
    sent.foldl (Network.deliver c) fs n = sent.foldl (Network.deliver c) fs' n := by
  induction sent generalizing fs fs' with
  | nil => exact h
  | cons t sent ih =>
    apply ih
    rw [Network.deliver, Network.deliver]
    cases c.nodeAt t.dest with
    | none => exact h
    | some m =>
      show Function.update fs m _ n = Function.update fs' m _ n
      by_cases hnm : n = m
      · rw [hnm, Function.update_self, Function.update_self, ← hnm, h]
      · rw [Function.update_of_ne hnm, Function.update_of_ne hnm, h]

structure Resting (c : Cluster) (n : ℕ) (sv : Server) : Prop where
  idle : sv.state = .idle
  nodeId : sv.me.nodeId = n
  index : sv.index.nodeId = c.N

/-- The nodes that are left rest, the gateways `clients` have a client, and the nodes store what the
network stores. -/
structure AtRest (c : Cluster) (alive clients : List ℕ) (nw : Network) (loops : ℕ → MainLoop) :
    Prop where
  resting : ∀ n ∈ alive, c.Resting n (loops n).sv
  fs : ∀ n ∈ alive, (loops n).node.fs = nw.fs n
  client : ∀ g ∈ clients, (loops g).sv.clientFd ≠ none
  index : (loops c.N).sv = nw.index
  fnetidx : (loops c.N).node.fnetidx = nw.fnetidx
  notified : nw.index.peerB.statusOpen = true

namespace Resting

variable {n : ℕ} {sv : Server}

theorem nodeId_of (h : c.Resting n sv) (h1 : 1 ≤ n) (hn : n ≤ c.N) : NodeId sv where
  pos := h.nodeId ▸ h1
  lt := by
    have := c.N_lt
    rw [h.nodeId]
    omega

theorem isIndex (h : c.Resting n sv) : serverIsIndex sv = decide (n = c.N) := by
  rw [serverIsIndex, h.index, h.nodeId]
  exact decide_eq_decide.mpr eq_comm

end Resting

/-- What a node keeps from one operation to the next. -/
structure SameRole (sv sv' : Server) : Prop where
  state : sv'.state = sv.state
  nodeId : sv'.me.nodeId = sv.me.nodeId
  index : sv'.index.nodeId = sv.index.nodeId
  client : sv.clientFd ≠ none → sv'.clientFd ≠ none

theorem SameRole.refl (sv : Server) : SameRole sv sv := ⟨rfl, rfl, rfl, id⟩

theorem SameRole.update {loops' : ℕ → MainLoop} (h : ∀ n, SameRole (loops n).sv (loops' n).sv) {g : ℕ}
    {st : MainLoop} (hst : SameRole (loops g).sv st.sv) (n : ℕ) :
    SameRole (loops n).sv (Function.update loops' g st n).sv :=
  (Function.forall_update_iff loops' fun n st => SameRole (loops n).sv st.sv).mpr
    ⟨hst, fun n _ => h n⟩ n

theorem fs_update {g : ℕ} {st : MainLoop} (hst : st.node.fs = (loops g).node.fs) (n : ℕ) :
    (Function.update loops g st n).node.fs = (loops n).node.fs :=
  (Function.forall_update_iff loops fun n st => st.node.fs = (loops n).node.fs).mpr
    ⟨hst, fun _ _ => rfl⟩ n

/-- Nodes that keep their roles rest if they did before. -/
theorem AtRest.keep {alive alive' clients : List ℕ} {nw nw' : Network}
    (hrest : c.AtRest alive clients nw loops) (halive : ∀ n ∈ alive', n ∈ alive) {loops' : ℕ → MainLoop}
    (hrole : ∀ n, SameRole (loops n).sv (loops' n).sv)
    (hfs : ∀ n ∈ alive', (loops' n).node.fs = nw'.fs n) (hindex : (loops' c.N).sv = nw'.index)
    (hfnetidx : (loops' c.N).node.fnetidx = nw'.fnetidx)
    (hnotified : nw'.index.peerB.statusOpen = true) : c.AtRest alive' clients nw' loops' where
  resting n hn := by
    obtain ⟨hidle, hid, hidx⟩ := hrest.resting n (halive n hn)
    obtain ⟨hstate, hnodeId, hindexId, -⟩ := hrole n
    exact ⟨hstate.trans hidle, hnodeId.trans hid, hindexId.trans hidx⟩
  fs := hfs
  client g hg := (hrole g).client (hrest.client g hg)
  index := hindex
  fnetidx := hfnetidx
  notified := hnotified

/-- A file is stored on every node that is left as the network has it. -/
theorem AtRest.send {s : FileStore} {nw : Network} {clients : List ℕ}
    (hrest : c.AtRest s.alive clients nw loops) (h : c.Stored s nw) (hN : c.N ≤ 254)
    {answers : ℕ → FanoutAnswers} (hanswers : ∀ i, (answers i).fd ≠ none) {file : Upload}
    (harrives : StoredFile.Arrives ⟨file.1, file.2, s.alive⟩) (hid16 : s.files.length + 1 < 2 ^ 16)
    {g : ℕ} (hg : g ∈ s.alive) (hgN : g ≠ c.N) (hclient : g ∈ clients) (path : List UInt8) :
    ∃ loops' nw', c.nodesStep mem fd answers loops (.send g path file) = some loops' ∧
      nw.upload c file = some nw' ∧ c.AtRest s.alive clients nw' loops' := by
  have hu : Uploadable file := harrives.uploadable
  have hdeclares := declares_of_uploadable hu harrives.whole
  have hwritten := writtenFile_eq path (hu.name_le.trans (by norm_num))
  obtain ⟨client, hclientFd⟩ := Option.ne_none_iff_exists'.mp (hrest.client g hclient)
  have hrestg := hrest.resting g hg
  have hrestN := hrest.resting c.N h.left.index
  obtain ⟨hg1, hgle⟩ := h.left.bounds hg
  obtain ⟨stg, hrelays, hnodeg⟩ := relaysFile_eq mem fd hrestg.idle
    (by rw [hrestg.isIndex, decide_eq_false hgN]) hclientFd hdeclares
  obtain ⟨fs1, net, slot, fs2, sent, hplaced, hfan, hsent⟩ := h.sentOut hN hu hid16 rfl
  obtain ⟨stN, hplaces, hnodeN⟩ := placesFile_eq mem fd hrestN.idle
    (by rw [hrestN.isIndex, decide_eq_true rfl]) (hrestg.nodeId_of hg1 hgle) hdeclares hanswers
    (by rw [hrest.index, hrest.fs _ h.left.index, hrest.fnetidx]; exact hplaced)
    (by rw [hrest.index]; exact hfan)
  obtain ⟨loops1, hloops1⟩ : ∃ l, Function.update (Function.update loops g stg) c.N stN = l := ⟨_, rfl⟩
  have hkept : ∀ n, SameRole (loops n).sv (loops1 n).sv := by
    rw [← hloops1]
    apply SameRole.update
    · apply SameRole.update fun n => .refl _
      rw [MainLoop.sv, MainLoop.sv, hnodeg]
      exact ⟨rfl, rfl, rfl, id⟩
    · rw [MainLoop.sv, MainLoop.sv, hnodeN]
      exact .refl _
  have hstN : stN.sv = nw.index := by rw [MainLoop.sv, hnodeN, hrest.index]
  have hpeer : NodeId stN.sv := by
    rw [hstN, ← hrest.index]
    exact hrestN.nodeId_of (h.left.bounds h.left.index).1 le_rfl
  have hpiece : ∀ i < (⟨file.1, file.2, s.alive⟩ : StoredFile).count,
      (⟨file.1, file.2, s.alive⟩ : StoredFile).pieceSize i < 2 ^ 31 := fun i hi =>
    lt_of_le_of_lt ((Nat.le_add_left ..).trans (fragment_inside hu.size_lt hi)) hu.size_lt
  obtain ⟨loops', hstores, hnode⟩ := storesFragments_eq mem fd hpeer hsent
    (fun i hi => ⟨hpiece i hi, harrives.fragment i hi⟩) fun n hn => (hkept n).state.trans (hrest.resting n hn).idle
  refine ⟨loops', _, ?_, Network.upload_eq_some hplaced hfan, ?_⟩
  · rw [nodesStep, hwritten]
    simp only [sendFile, hrelays, hplaces, Option.bind_eq_bind, Option.bind_some, hloops1, hstores]
  · have hsv : ∀ n, (loops' n).sv = (loops1 n).sv := fun n => by rw [MainLoop.sv, hnode]
    have hindex : (loops1 c.N).node = ⟨nw.index, fs2, net⟩ := by
      rw [← hloops1, Function.update_self, hnodeN, hrest.index]
    refine hrest.keep (fun _ hn => hn) (fun n => ?_) (fun n hn => ?_) ?_ ?_ hrest.notified
    · rw [hsv]
      exact hkept n
    · rw [hnode]
      apply foldl_deliver_congr
      rw [storedBy, ← hloops1]
      by_cases hnN : n = c.N
      · rw [hnN, Function.update_self, Function.update_self, hnodeN]
      · rw [Function.update_of_ne hnN, Function.update_of_ne hnN, ← hrest.fs n hn]
        apply fs_update
        rw [hnodeg]
        rfl
    · rw [hsv, MainLoop.sv, hindex]
    · rw [hnode, hindex]

theorem AtRest.present {alive clients : List ℕ} {nw : Network} (hrest : c.AtRest alive clients nw loops)
    (answers : ℕ → FanoutAnswers) {g : ℕ} (hg : g ∈ alive) (h1 : 1 ≤ g) (hgN : g < c.N) :
    ∃ loops', c.nodesStep mem fd answers loops (.present g) = some loops' ∧
      c.AtRest alive (g :: clients) nw loops' := by
  have hrestg := hrest.resting g hg
  refine ⟨Function.update loops g ((loops g).withServer { (loops g).sv with clientFd := some fd }), ?_, ?_⟩
  · rw [nodesStep, writtenAuth_eq (lt_trans (hrestg.nodeId_of h1 hgN.le).lt (by norm_num)),
      pass_presents mem fd hrestg.idle]
    rfl
  obtain ⟨st, hst⟩ : ∃ st, (loops g).withServer { (loops g).sv with clientFd := some fd } = st := ⟨_, rfl⟩
  have hrole : SameRole (loops g).sv st.sv := hst ▸ ⟨rfl, rfl, rfl, fun _ => Option.some_ne_none fd⟩
  have hfs : st.node.fs = (loops g).node.fs := hst ▸ rfl
  rw [hst]
  have hpresented := hrest.keep (fun _ hn => hn) (SameRole.update (fun n => .refl _) hrole)
    (fun n hn => (fs_update hfs n).trans (hrest.fs n hn))
    (by rw [Function.update_of_ne hgN.ne', hrest.index])
    (by rw [Function.update_of_ne hgN.ne', hrest.fnetidx]) hrest.notified
  refine { hpresented with client := fun n hn => ?_ }
  rcases List.mem_cons.mp hn with rfl | hn
  · rw [Function.update_self, ← hst]
    exact Option.some_ne_none fd
  · exact hpresented.client n hn

theorem AtRest.notice {s : FileStore} {nw : Network} {clients : List ℕ}
    (hrest : c.AtRest s.alive clients nw loops) (h : c.Stored s nw) (answers : ℕ → FanoutAnswers)
    {dial : Address → Option ℕ} {p : XPacket} (hop : c.Allowed (.notice dial p) s) :
    ∃ loops' nw', c.nodesStep mem fd answers loops (.notice dial p) = some loops' ∧
      nw.step c (.notice dial p) = some nw' ∧
      c.AtRest (s.after (.notice dial p)).alive clients nw' loops' := by
  obtain ⟨nw', hstep, hafter⟩ := h.notice hop
  obtain ⟨r, hr, rfl⟩ := Option.map_eq_some_iff.mp hstep
  have hrestN := hrest.resting c.N h.left.index
  have hrN := hr
  rw [← hrest.index] at hrN
  have hopen : (loops c.N).sv.peerB.statusOpen = true := by rw [hrest.index]; exact hrest.notified
  obtain ⟨htype, hmem, hne, -, h3⟩ := hop
  have hp : p ≠ [] := by
    rintro rfl
    cases htype
  obtain ⟨hstate, hindex⟩ := xprocedureCheckPeerB_state hrN fun _ => by rw [hrestN.index]; exact hne
  refine ⟨Function.update loops c.N ((loops c.N).withServer r.sv), _, ?_, hstep, ?_⟩
  · rw [nodesStep, pass_notified mem fd hrestN.idle hopen hp hrN]
    rfl
  have hfd : r.sv.clientFd = (loops c.N).sv.clientFd :=
    checkPeerB_clientFd (checkPeerB_notified hopen hp hrN)
  refine hrest.keep (fun n hn => (List.mem_filter.mp hn).1) ?_ (fun n hn => ?_) ?_ ?_ ?_
  · apply SameRole.update fun n => .refl _
    exact ⟨hstate, hafter.index.nodeId.trans hrestN.nodeId.symm, congrArg _ hindex, fun h => hfd ▸ h⟩
  · rw [← hrest.fs n (List.mem_filter.mp hn).1]
    apply fs_update
    rfl
  · rw [Function.update_self]
    rfl
  · rw [Function.update_self]
    exact hrest.fnetidx
  · rw [xprocedureCheckPeerB_peerB hr]
    exact hrest.notified

end Cluster

end DSS
