import DistStore.Proofs.Nodes

/-! A request, pass by pass: the index orders what the store asks for, the nodes deliver it, and the
gateway's client gets the file. -/

namespace DSS

open Bytes MainLoop

/-! ## The request that is passed on -/

theorem drop_setCommSender (id : ℕ) {p : XPacket} (hp : 2 ≤ p.length) :
    (setCommSender id p).drop 10 = p.drop 10 := by
  have hlen : (p.take 2 ++ le 8 id).length = 10 := by
    rw [List.length_append, List.length_take, le_length, min_eq_left hp]
  rw [setCommSender, ← List.append_assoc, List.drop_left' hlen]

theorem content_setCommSender (id : ℕ) {p : XPacket} (hp : 2 ≤ p.length) :
    content (setCommSender id p) = content p := by
  have h := congrArg (List.drop 1) (drop_setCommSender id hp)
  simpa only [List.drop_drop, content, CONTENT] using h

theorem commType_setCommSender (id : ℕ) {p : XPacket} (hp : 2 ≤ p.length) :
    commType (setCommSender id p) = commType p := by
  rw [commType, commType, rd, rd, drop_setCommSender id hp]

theorem commSenderId_setCommSender (id : ℕ) {p : XPacket} (hp : 2 ≤ p.length) :
    commSenderId (setCommSender id p) = id % 2 ^ 64 := by
  have hlen : (p.take 2).length = 2 := by rw [List.length_take, min_eq_left hp]
  rw [commSenderId, setCommSender, rd_append_right 8 _ hlen.le, hlen, Nat.sub_self, rd_le_append]
  rfl

section passes

variable (mem : ℕ → UInt8) (fd : ℕ) {st : MainLoop}

theorem pass_requestIndex (hstate : st.sv.state = .receivedPacket)
    (htype : commType st.packet = TYPE_REQUEST_FILE) (hindex : serverIsIndex st.sv = true) (io : PassIo) :
    MainLoop.pass io st = some (receivedRequestIndex st) := by
  rw [MainLoop.pass, hstate]
  simp only
  rw [serverReceivedPacket, htype, if_neg (by decide), if_neg (by decide), if_pos rfl, if_pos hindex]

theorem pass_requestGateway (hstate : st.sv.state = .receivedPacket)
    (htype : commType st.packet = TYPE_REQUEST_FILE) (hgateway : serverIsIndex st.sv = false)
    (io : PassIo) : MainLoop.pass io st = receivedRequestGateway io st := by
  rw [MainLoop.pass, hstate]
  simp only
  rw [serverReceivedPacket, htype, if_neg (by decide), if_neg (by decide), if_pos rfl, hgateway]
  rfl

/-- A node that is asked for a fragment sends it and is idle again. -/
theorem deliversFragment_eq (hidle : st.sv.state = .idle) {peer : Server} (hpeer : NodeId peer)
    {p : XPacket} (hp : p ≠ []) (htype : commType p = TYPE_REQUEST_FRAG) :
    ∃ st', deliversFragment mem fd peer p st = some (st', typeRequestFrag st.sv st.node.fs p) ∧
      st'.node = st.node := by
  have haccepts := pass_accepts mem fd hidle hpeer hp []
  have hdelivered : MainLoop.pass (.quiet mem fd) (st.receive fd p) =
      some ((st.receive fd p).setState .idle) := by
    show serverReceivedPacket _ _ = _
    rw [serverReceivedPacket, show (st.receive fd p).packet = p from rfl, htype, if_neg (by decide),
      if_neg (by decide), if_neg (by decide)]
  refine ⟨(st.receive fd p).setState .idle, ?_, ?_⟩
  · simp only [deliversFragment, haccepts, hdelivered, Option.bind_eq_bind, Option.bind_some]
    rfl
  · exact receive_idle hidle fd p

/-! ## What reaches a collecting gateway -/

variable {c : Cluster} {f : StoredFile} {id : ℕ}

theorem delivers_ne_nil {fs : XFileServer} {i : ℕ} {a : Arrival} (h : f.Delivers fs id i a) :
    a.packet ≠ [] := by
  rintro hnil
  rcases h with ⟨htype, -⟩ | ⟨htype, -⟩ <;>
  · rw [hnil] at htype
    cases htype

/-- A connection brings what it is said to bring, if its last packet is not empty. -/
theorem collectFrom_eq (hf : f.StoredBy c) {i : ℕ} (hi : i < f.count)
    (hdvd : ¬ SERVER_BUCKET_SIZE ∣ f.pieceSize i) {a : Arrival} (ha : f.Delivers st.node.fs id i a)
    (io : PassIo) :
    collectFrom io st a.packet ((serverSendLargeBufferTo a.raw).map some) =
      serverWaitRequestFragments st.node.fs st.requested a := by
  rw [collectFrom, serverWaitRequestFragments]
  rcases ha with ⟨htype, -⟩ | ⟨htype, hcontent, hraw⟩
  · rw [if_pos htype, if_pos htype]
  · have hsize : a.raw.length = f.pieceSize i := by rw [hraw, hf.part_length hi]
    have hcount : (serverSendLargeBufferTo a.raw).length = largeBufferReceives (a.raw.length : ℕ) := by
      rw [length_largeBuffer_of_not_dvd (hsize ▸ hdvd), largeBufferReceives_natCast]
    have hlocal : commType a.packet ≠ TYPE_DECLARE_USE_LOCAL := by rw [htype]; decide
    have hfrag : cInt (XDeclareFragmentTransport.ofContent (content a.packet)).fragSize =
        (a.raw.length : ℕ) := by
      rw [hcontent, hsize]
      exact cInt_of_lt (hf.pieceSize_lt hi)
    have hroom : (malloc io.mem (a.raw.length : ℕ)).length =
        (serverSendLargeBufferTo a.raw).flatten.length := by
      rw [malloc_length, Int.toNat_natCast, flatten_serverSendLargeBufferTo]
    have hloop := receiveLoop_complete false hroom
    rw [if_neg hlocal, if_neg hlocal]
    simp only [hfrag, serverWaitLargeBufferFrom, ← hcount, hloop, flatten_serverSendLargeBufferTo]

theorem pass_collects (hstate : st.sv.state = .waitRequestFragments)
    (hmissing : st.requested.fragmentCount ≠ st.requested.fragmentFound) (hf : f.StoredBy c) {i : ℕ}
    (hi : i < f.count) (hdvd : ¬ SERVER_BUCKET_SIZE ∣ f.pieceSize i) {a : Server × Arrival}
    (hpeer : NodeId a.1) (ha : f.Delivers st.node.fs id i a.2) :
    MainLoop.pass (collects mem fd a) st =
      (serverWaitRequestFragments st.node.fs st.requested a.2).map fun requested =>
        { st with requested := requested } := by
  have hpos := hpeer.pos
  have hne : (some a.2.packet : Recv) ≠ some [] := fun h => delivers_ne_nil ha (Option.some.inj h)
  rw [MainLoop.pass, hstate, ← collectFrom_eq hf hi hdvd ha (collects mem fd a)]
  simp only [waitRequestFragments, if_pos hmissing]
  simp only [collects, PassIo.accepts, List.map_cons, hpeer.presentation, if_neg hne,
    if_neg (show a.1.me.nodeId ≠ 0 by omega)]
  rfl

/-- Nothing is missing: the client's next packet ends the request. -/
theorem pass_collected (hstate : st.sv.state = .waitRequestFragments) {buffer : List UInt8}
    (hall : bufferToClient st.requested = some buffer) (p : XPacket) :
    MainLoop.pass (.receives mem fd [p]) st = some (st.setState .idle) := by
  have hfound : st.requested.fragmentCount = st.requested.fragmentFound := by
    by_contra h
    rw [bufferToClient, if_neg h] at hall
    cases hall
  rw [MainLoop.pass, hstate]
  simp only [waitRequestFragments, if_neg (not_not.mpr hfound)]
  rfl

/-- What reaches the gateway is taken one connection after another. -/
theorem passes_collects (hstate : st.sv.state = .waitRequestFragments) (hf : f.StoredBy c)
    (hN : c.N ≤ 254) (hid : id < 2 ^ 16) (hdvd : ∀ i < f.count, ¬ SERVER_BUCKET_SIZE ∣ f.pieceSize i)
    {found : ℕ} {buffer : List UInt8} (hb : buffer.length = f.bytes.length)
    (hrequested : st.requested = f.collecting id found buffer) {order : List (Server × Arrival)}
    (horder : ∀ a ∈ order, NodeId a.1 ∧ ∃ i < f.count, f.Delivers st.node.fs id i a.2)
    (hlen : found + order.length ≤ f.count) :
    st.passes (order.map (collects mem fd)) =
      ((order.map Prod.snd).foldlM (serverWaitRequestFragments st.node.fs) st.requested).map
        fun requested => { st with requested := requested } := by
  induction order generalizing st found buffer with
  | nil => rfl
  | cons a order ih =>
    obtain ⟨hpeer, i, hi, ha⟩ := horder a List.mem_cons_self
    have hcollect := hf.collect hN hid hi ha found hb
    rw [List.length_cons] at hlen
    have hmissing : st.requested.fragmentCount ≠ st.requested.fragmentFound := by
      rw [hrequested]
      show ((f.count : ℕ) : ℤ) ≠ (found : ℕ)
      omega
    have hpass := pass_collects mem fd hstate hmissing hf hi (hdvd i hi) hpeer ha
    rw [hrequested, hcollect] at hpass
    have hwrite : (Splice.splice buffer (i * (f.bytes.length / f.count)) (f.part i)).length =
        buffer.length := Splice.splice_length (by rw [hf.part_length hi, hb]; exact hf.part_inside hi)
    rw [List.map_cons, passes_cons hpass rfl, List.map_cons, List.foldlM_cons, hrequested, hcollect]
    have hlen : found + 1 + order.length ≤ f.count := by omega
    exact ih hstate (hwrite.trans hb) rfl (fun b hb => horder b (List.mem_cons_of_mem _ hb)) hlen

end passes

/-! ## The orders are carried out -/

namespace Cluster

variable {c : Cluster} (mem : ℕ → UInt8) (fd : ℕ) {loops : ℕ → MainLoop} {nw : Network}
  {alive clients : List ℕ}

theorem AtRest.congr (hrest : c.AtRest alive clients nw loops) {loops' : ℕ → MainLoop}
    (h : ∀ n, (loops' n).node = (loops n).node) : c.AtRest alive clients nw loops' := by
  have hsv : ∀ n, (loops' n).sv = (loops n).sv := fun n => congrArg Node.sv (h n)
  refine hrest.keep (fun _ hn => hn) (fun n => ?_) (fun n hn => ?_) ?_ ?_ hrest.notified
  · rw [hsv]
    exact .refl _
  · rw [h, hrest.fs n hn]
  · rw [hsv, hrest.index]
  · rw [h, hrest.fnetidx]

/-- What an order needs of the nodes: whoever is asked is left. -/
def Asks (c : Cluster) (alive : List ℕ) : FragmentOrder → Prop
  | .requestFragment dest packet => packet ≠ [] ∧ commType packet = TYPE_REQUEST_FRAG ∧
      ∀ n, c.nodeAt dest = some n → n ∈ alive
  | _ => True

/-- The main loops carry out an order as the network does, and the nodes stay as they were. -/
theorem AtRest.carriesOut (hrest : c.AtRest alive clients nw loops) (hl : c.Left alive)
    {index : MainLoop} {state : EServerState} (hsv : index.sv = serverSetState nw.index state)
    (hfs : index.node.fs = nw.fs c.N) (g : ℕ) {o : FragmentOrder} (ho : c.Asks alive o) :
    ∃ loops' sender, c.carriesOut mem fd index g loops o =
        some (loops', (nw.carryOut c (fun n => (loops n).sv) g o).map (sender, ·)) ∧
      NodeId sender ∧ ∀ n, (loops' n).node = (loops n).node := by
  have hindexId : NodeId index.sv := by
    have h := (hrest.resting c.N hl.index).nodeId_of (hl.bounds hl.index).1 le_rfl
    rw [hrest.index] at h
    rw [hsv]
    exact ⟨h.pos, h.lt⟩
  cases o with
  | useLocal dest packet =>
    refine ⟨loops, index.sv, ?_, hindexId, fun n => rfl⟩
    rw [Cluster.carriesOut, Network.carryOut]
    split_ifs <;> rfl
  | sendFragment fileId fragmentId deliverTo =>
    have hsame : xprocedureSendFragment index.sv index.node.fs fileId fragmentId =
        xprocedureSendFragment nw.index (nw.fs c.N) fileId fragmentId := by
      rw [hsv, hfs]
      rfl
    refine ⟨loops, index.sv, ?_, hindexId, fun n => rfl⟩
    rw [Cluster.carriesOut, Network.carryOut, hsame]
    split_ifs <;> rfl
  | requestFragment dest packet =>
    obtain ⟨hne, htype, halive⟩ := ho
    rcases hat : c.nodeAt dest with _ | n
    · refine ⟨loops, index.sv, ?_, hindexId, fun n => rfl⟩
      rw [Cluster.carriesOut, Network.carryOut, hat]
      rfl
    · have hn := halive n hat
      have hrestn := hrest.resting n hn
      obtain ⟨h1, hnle⟩ := hl.bounds hn
      obtain ⟨st, hst, hnode⟩ := deliversFragment_eq mem fd hrestn.idle hindexId hne htype
      refine ⟨Function.update loops n st, st.sv, ?_, ?_, fun m => ?_⟩
      · rw [Cluster.carriesOut, Network.carryOut, hat]
        simp only [hst, hrest.fs n hn, Option.bind_eq_bind, Option.bind_some]
        split_ifs <;> rfl
      · rw [MainLoop.sv, hnode]
        exact hrestn.nodeId_of h1 hnle
      · by_cases hmn : m = n
        · rw [hmn, Function.update_self, hnode]
        · rw [Function.update_of_ne hmn]

theorem AtRest.carriesOut_from (hrest : c.AtRest alive clients nw loops) (hl : c.Left alive)
    {index : MainLoop} {state : EServerState} (hsv : index.sv = serverSetState nw.index state)
    (hfs : index.node.fs = nw.fs c.N) (g : ℕ) {orders : List FragmentOrder}
    (horders : ∀ o ∈ orders, c.Asks alive o) (acc : List (Server × Arrival)) :
    ∃ loops' arrivals, orders.foldlM (fun st o => do
        let (loops, a) ← c.carriesOut mem fd index g st.1 o
        return (loops, st.2 ++ a.toList)) (loops, acc) = some (loops', acc ++ arrivals) ∧
      arrivals.map Prod.snd = orders.filterMap (nw.carryOut c (fun n => (loops n).sv) g) ∧
      (∀ a ∈ arrivals, NodeId a.1) ∧ ∀ n, (loops' n).node = (loops n).node := by
  induction orders generalizing loops acc with
  | nil => exact ⟨loops, [], by rw [List.append_nil]; rfl, rfl, by simp, fun n => rfl⟩
  | cons o orders ih =>
    obtain ⟨loops1, sender, hcarries, hsender, hnode1⟩ := hrest.carriesOut mem fd hl hsv
      hfs g (horders o List.mem_cons_self)
    obtain ⟨a, ha⟩ : ∃ a, nw.carryOut c (fun n => (loops n).sv) g o = a := ⟨_, rfl⟩
    have hserver : (fun n => (loops1 n).sv) = fun n => (loops n).sv :=
      funext fun n => congrArg Node.sv (hnode1 n)
    obtain ⟨loops', arrivals, hrun, hsnd, hids, hnode⟩ := ih (hrest.congr hnode1)
      (fun o' ho' => horders o' (List.mem_cons_of_mem _ ho')) (acc ++ (a.map (sender, ·)).toList)
    refine ⟨loops', (a.map (sender, ·)).toList ++ arrivals, ?_, ?_, fun x hx => ?_, fun n =>
      (hnode n).trans (hnode1 n)⟩
    · rw [List.foldlM_cons, hcarries, ← List.append_assoc, ha]
      exact hrun
    · rw [List.map_append, hsnd, hserver, List.filterMap_cons, ha]
      cases a <;> rfl
    · rcases List.mem_append.mp hx with hx | hx
      · cases a with
        | none => exact absurd hx List.not_mem_nil
        | some a => rwa [List.mem_singleton.mp hx]
      · exact hids x hx

theorem AtRest.carriesOutAll (hrest : c.AtRest alive clients nw loops) (hl : c.Left alive)
    {index : MainLoop} {state : EServerState} (hsv : index.sv = serverSetState nw.index state)
    (hfs : index.node.fs = nw.fs c.N) (g : ℕ) {orders : List FragmentOrder}
    (horders : ∀ o ∈ orders, c.Asks alive o) :
    ∃ loops' arrivals, c.carriesOutAll mem fd index g loops orders = some (loops', arrivals) ∧
      arrivals.map Prod.snd = orders.filterMap (nw.carryOut c (fun n => (loops n).sv) g) ∧
      (∀ a ∈ arrivals, NodeId a.1) ∧ ∀ n, (loops' n).node = (loops n).node := by
  obtain ⟨loops', arrivals, hrun, hrest⟩ := hrest.carriesOut_from mem fd hl hsv hfs g horders []
  exact ⟨loops', arrivals, hrun, hrest⟩

theorem Stored.asks {s : FileStore} (h : c.Stored s nw) {f : StoredFile} {j : ℕ}
    (hj : s.files[j]? = some f) {d : XIndexData}
    (hips : ∀ n, 1 ≤ n → n < c.N → d.peerIp n = if n ∈ s.alive then c.addr n else Address.zero)
    (g : ℕ) {i : ℕ} (hi : i < f.count) :
    c.Asks s.alive (orderFragment nw.index d (j + 1 : ℕ) g (f.entry i (s.asked f i))) := by
  obtain ⟨h1, hn⟩ := h.asked_bounds hj hi
  simp only [orderFragment, StoredFile.entry, h.index.nodeId]
  split_ifs with hself hidx
  · trivial
  · trivial
  · refine ⟨commPacket_ne_nil _ _ _ _ _, ?_, fun n hat => ?_⟩
    · rw [requestFragmentPacket, xpacketNew, commType_commPacket]
      rfl
    · rw [hips _ h1 (lt_of_le_of_ne hn hidx)] at hat
      split_ifs at hat with halive
      · rw [nodeAt_addr h1 hn] at hat
        exact Option.some.inj hat ▸ halive
      · rw [nodeAt_zero] at hat
        cases hat

/-! ## The index is asked -/

structure Requests (p : XPacket) (name : List UInt8) : Prop where
  length : 2 ≤ p.length
  type : commType p = TYPE_REQUEST_FILE
  content : XRequestFile.ofContent (content p) = ⟨char200 name⟩

variable {g : ℕ} {req : XPacket} {name : List UInt8}

theorem Requests.forwarded (h : Requests req name) (g : ℕ) :
    setCommSender g req ≠ [] ∧ commType (setCommSender g req) = TYPE_REQUEST_FILE ∧
      XRequestFile.ofContent (DSS.content (setCommSender g req)) = ⟨char200 name⟩ := by
  have htype : commType (setCommSender g req) = TYPE_REQUEST_FILE := by
    rw [commType_setCommSender g h.length, h.type]
  refine ⟨?_, htype, by rw [content_setCommSender g h.length, h.content]⟩
  intro hnil
  rw [hnil] at htype
  cases htype

def indexAnswer (nw : Network) (c : Cluster) (p : XPacket) : XPacket :=
  (typeRequestFileIndex nw.index (nw.fs c.N) p).elim (xpacketNotOk nw.index) Prod.snd

theorem AtRest.asksIndex_eq (hrest : c.AtRest alive clients nw loops) (hl : c.Left alive) (hg : g ∈ alive)
    (hgN : g ≠ c.N) (hclient : g ∈ clients) (hreq : Requests req name) :
    ∃ client gateway index io, gateway = (loops g).receive client req ∧
      index = (loops c.N).receive fd (setCommSender g req) ∧
      io = .answered mem fd nw.index (indexAnswer nw c (setCommSender g req)) ∧
      typeRequestFileIndex index.sv index.node.fs index.packet =
        typeRequestFileIndex nw.index (nw.fs c.N) (setCommSender g req) ∧
      ∀ told gateway', requestGatewaySent io gateway = some told →
        receivedRequestGateway io gateway = some gateway' →
        c.asksIndex mem fd loops g req = some (gateway', receivedRequestIndex index, told) := by
  obtain ⟨client, hclientFd⟩ := Option.ne_none_iff_exists'.mp (hrest.client g hclient)
  have hrestg := hrest.resting g hg
  have hrestN := hrest.resting c.N hl.index
  obtain ⟨hg1, hgle⟩ := hl.bounds hg
  obtain ⟨hne, htype, -⟩ := hreq.forwarded g
  have hreqne : req ≠ [] := fun h => by simpa [h] using hreq.length
  obtain ⟨gateway, hgateway⟩ : ∃ st, st = (loops g).receive client req := ⟨_, rfl⟩
  obtain ⟨index, hindex⟩ : ∃ st, st = (loops c.N).receive fd (setCommSender g req) := ⟨_, rfl⟩
  have hsame : typeRequestFileIndex index.sv index.node.fs index.packet =
      typeRequestFileIndex nw.index (nw.fs c.N) (setCommSender g req) := by
    rw [← hrest.index, ← hrest.fs c.N hl.index, hindex]
    rfl
  have hio : .answered mem fd index.sv ((typeRequestFileIndex index.sv index.node.fs index.packet).elim
      (xpacketNotOk index.sv) Prod.snd) =
        PassIo.answered mem fd nw.index (indexAnswer nw c (setCommSender g req)) := by
    rw [hsame, indexAnswer, ← hrest.index, hindex]
    rfl
  refine ⟨client, gateway, index, _, hgateway, hindex, rfl, hsame, fun told gateway' htold hpass => ?_⟩
  have hcame : MainLoop.pass (.fromClient mem fd req) (loops g) = some gateway :=
    hgateway ▸ pass_fromClient mem fd hrestg.idle hclientFd hreqne
  have hsent : setCommSender gateway.sv.me.nodeId gateway.packet = setCommSender g req := by
    rw [hgateway]
    exact congrArg (setCommSender · req) hrestg.nodeId
  have hpresented : xpacketPresentation gateway.sv = xpacketPresentation (loops g).sv := by
    rw [hgateway]
    rfl
  have haccepts : MainLoop.pass (.accepts mem fd [xpacketPresentation (loops g).sv, setCommSender g req])
      (loops c.N) = some index := hindex ▸ pass_accepts mem fd hrestN.idle (hrestg.nodeId_of hg1 hgle) hne []
  have hasked : MainLoop.pass (.quiet mem fd) index = some (receivedRequestIndex index) := by
    apply pass_requestIndex <;> rw [hindex]
    · rfl
    · exact htype
    · exact hrestN.isIndex.trans (decide_eq_true rfl)
  have hanswered : ∀ io, MainLoop.pass io gateway = receivedRequestGateway io gateway := by
    apply pass_requestGateway <;> rw [hgateway]
    · rfl
    · exact hreq.type
    · exact hrestg.isIndex.trans (decide_eq_false hgN)
  simp only [Cluster.asksIndex, hcame, hsent, hpresented, haccepts, hasked, hanswered, hio, htold, hpass,
    Option.bind_eq_bind, Option.bind_some]
  rfl

/-- The index has no such file: the client is refused, and both are idle again. -/
theorem AtRest.asksIndex_refused (hrest : c.AtRest alive clients nw loops) (hl : c.Left alive)
    (hg : g ∈ alive) (hgN : g ≠ c.N) (hclient : g ∈ clients) (hreq : Requests req name)
    (hnone : typeRequestFileIndex nw.index (nw.fs c.N) (setCommSender g req) = none) :
    ∃ gateway index, c.asksIndex mem fd loops g req =
        some (gateway, index, [xpacketNotOk (loops g).sv]) ∧
      gateway.node = ((loops g).dialed fd).node ∧ index.node = (loops c.N).node := by
  obtain ⟨client, gateway, index, io, hgateway, hindex, hio, hsame, hasks⟩ :=
    hrest.asksIndex_eq mem fd hl hg hgN hclient hreq
  have hidle : ((loops g).dialed fd).sv.state = .idle := (hrest.resting g hg).idle
  have hidleN := (hrest.resting c.N hl.index).idle
  have hdial : io.dial gateway.sv.index.ip = some fd := by
    rw [hio]
    rfl
  have hreply : io.index = [some (xpacketOk nw.index), some (xpacketNotOk nw.index)] := by
    rw [hio, indexAnswer, hnone]
    rfl
  obtain ⟨hpass, htold⟩ := requestGateway_refused hdial hreply (commType_xpacketSized ..)
  have hpacket : xpacketNotOk (gateway.dialed fd).sv = xpacketNotOk (loops g).sv := by
    rw [hgateway]
    rfl
  rw [hpacket] at htold
  refine ⟨_, _, hasks _ _ htold hpass, ?_, ?_⟩
  · rw [hgateway]
    exact receive_idle hidle client req
  · have hrefused : receivedRequestIndex index = index.setState .idle := by
      rw [receivedRequestIndex, hsame, hnone]
    rw [hrefused, hindex]
    exact receive_idle hidleN fd _

/-- The index has the file: the client is told of it, the gateway waits for the fragments and the index
is about to order them. -/
theorem AtRest.asksIndex_confirmed (hrest : c.AtRest alive clients nw loops) (hl : c.Left alive)
    (hg : g ∈ alive) (hgN : g ≠ c.N) (hclient : g ∈ clients) (hreq : Requests req name)
    {fc : XFileContainer} {res : XPacket}
    (hsome : typeRequestFileIndex nw.index (nw.fs c.N) (setCommSender g req) = some (fc, res))
    (hres : commType res ≠ TYPE_NOT_OK) :
    ∃ gateway index, c.asksIndex mem fd loops g req = some (gateway, index,
        [xpacketRequestFileResponse (loops g).sv (typeRequestFileGateway res).fileId
          (typeRequestFileGateway res).fileSize (typeRequestFileGateway res).fragmentCount]) ∧
      gateway.node = ⟨serverSetState ((loops g).dialed fd).sv .waitRequestFragments, (loops g).node.fs,
        (loops g).node.fnetidx⟩ ∧
      gateway.requested = typeRequestFileGateway res ∧
      index.node = ⟨serverSetState nw.index .indexRequestFragments, nw.fs c.N, nw.fnetidx⟩ ∧
      index.requested.fileId = fc.fileId ∧ index.requested.fragmentCount = fc.fragmentCountTotal ∧
      index.deliverTo = g := by
  obtain ⟨client, gateway, index, io, hgateway, hindex, hio, hsame, hasks⟩ :=
    hrest.asksIndex_eq mem fd hl hg hgN hclient hreq
  have hdial : io.dial gateway.sv.index.ip = some fd := by
    rw [hio]
    rfl
  have hreply : io.index = [some (xpacketOk nw.index), some res] := by
    rw [hio, indexAnswer, hsome]
    rfl
  obtain ⟨hpass, htold⟩ := requestGateway_confirmed hdial hreply hres
  have hpacket : xpacketRequestFileResponse (gateway.dialed fd).sv =
      xpacketRequestFileResponse (loops g).sv := by
    rw [hgateway]
    rfl
  rw [hpacket] at htold
  have hordered : receivedRequestIndex index = { index.setState .indexRequestFragments with
      requested := { index.requested with
        fileId := fc.fileId
        fileSize := fc.size
        fragmentCount := fc.fragmentCountTotal }
      requestFd := index.fromFd
      deliverTo := commSenderId index.packet } := by
    rw [receivedRequestIndex, hsame, hsome]
  refine ⟨_, _, hasks _ _ htold hpass, ?_, rfl, ?_, by rw [hordered], by rw [hordered], ?_⟩
  · rw [hgateway]
    change (⟨serverSetState (serverSetState ((loops g).dialed fd).sv .receivedPacket)
      .waitRequestFragments, (loops g).node.fs, (loops g).node.fnetidx⟩ : Node) = _
    rw [serverSetState_serverSetState _ (by decide)]
  · rw [hordered, hindex]
    change (⟨serverSetState (serverSetState (loops c.N).sv .receivedPacket) .indexRequestFragments,
      (loops c.N).node.fs, (loops c.N).node.fnetidx⟩ : Node) = _
    rw [serverSetState_serverSetState _ (by decide), hrest.index, hrest.fs c.N hl.index, hrest.fnetidx]
  · have hlt := c.N_lt
    have hle := (hl.bounds hg).2
    have hsender : commSenderId index.packet = g % 2 ^ 64 := by
      rw [hindex]
      exact commSenderId_setCommSender g hreq.length
    rw [hordered, hsender, Nat.mod_eq_of_lt (by omega)]

/-! ## The file comes -/

theorem AtRest.index_node (hrest : c.AtRest alive clients nw loops) (hl : c.Left alive) :
    (loops c.N).node = ⟨nw.index, nw.fs c.N, nw.fnetidx⟩ := by
  rw [← hrest.index, ← hrest.fs c.N hl.index, ← hrest.fnetidx]
  rfl

theorem AtRest.dialed (hrest : c.AtRest alive clients nw loops) (hgN : g ≠ c.N) {loops' : ℕ → MainLoop}
    (hgateway : (loops' g).node = ((loops g).dialed fd).node)
    (h : ∀ n, n ≠ g → (loops' n).node = (loops n).node) : c.AtRest alive clients nw loops' := by
  have hsv : ∀ n, n ≠ g → (loops' n).sv = (loops n).sv := fun n hn => congrArg Node.sv (h n hn)
  have hsvg : (loops' g).sv = ((loops g).dialed fd).sv := congrArg Node.sv hgateway
  refine hrest.keep (fun _ hn => hn) (fun n => ?_) (fun n hn => ?_) ?_ ?_ hrest.notified
  · by_cases hng : n = g
    · rw [hng, hsvg]
      exact ⟨rfl, rfl, rfl, id⟩
    · rw [hsv n hng]
      exact .refl _
  · by_cases hng : n = g
    · rw [← hrest.fs n hn, hng, hgateway]
      rfl
    · rw [h n hng, hrest.fs n hn]
  · rw [hsv _ hgN.symm, hrest.index]
  · rw [h _ hgN.symm, hrest.fnetidx]

theorem AtRest.requestFile_refused (hrest : c.AtRest alive clients nw loops) (hl : c.Left alive)
    (hg : g ∈ alive) (hgN : g ≠ c.N) (hclient : g ∈ clients) (hreq : Requests req name)
    (hnone : typeRequestFileIndex nw.index (nw.fs c.N) (setCommSender g req) = none)
    (arranged : List (Server × Arrival) → List (Server × Arrival)) (ok : XPacket) :
    ∃ loops', c.requestFile mem fd arranged loops g req ok =
        some ⟨loops', [xpacketNotOk (loops g).sv]⟩ ∧ c.AtRest alive clients nw loops' := by
  obtain ⟨gateway, index, hasks, hgateway, hindex⟩ :=
    hrest.asksIndex_refused mem fd hl hg hgN hclient hreq hnone
  have hidle : index.sv.state = .idle := by
    rw [MainLoop.sv, hindex]
    exact (hrest.resting c.N hl.index).idle
  refine ⟨Function.update (Function.update loops g gateway) c.N index, ?_, ?_⟩
  · simp only [requestFile, hasks, Option.bind_eq_bind, Option.bind_some, hidle, if_true]
    rfl
  · refine hrest.dialed fd hgN ?_ fun n hn => ?_
    · rw [Function.update_of_ne hgN, Function.update_self, hgateway]
    · by_cases hnN : n = c.N
      · rw [hnN, Function.update_self, hindex]
      · rw [Function.update_of_ne hnN, Function.update_of_ne hn]

theorem pass_ordersFragments {index : MainLoop}
    (hnode : index.node = ⟨serverSetState nw.index .indexRequestFragments, nw.fs c.N, nw.fnetidx⟩)
    (hidle : nw.index.state = .idle) {frags : List XFragmentNetworkPointer} {orders : List FragmentOrder}
    (horders : serverIndexRequestFragments index.sv index.node.fnetidx index.requested.fileId
      index.requested.fragmentCount (cInt index.deliverTo) = some (frags, orders)) :
    ∃ idle, MainLoop.pass (.quiet mem fd) index = some idle ∧
      idle.node = ⟨nw.index, nw.fs c.N, nw.fnetidx⟩ := by
  refine ⟨index.setState .idle, ?_, ?_⟩
  · rw [MainLoop.pass, show index.sv.state = .indexRequestFragments by rw [MainLoop.sv, hnode]; rfl]
    simp only [requestFragments, horders, Option.bind_eq_bind, Option.bind_some]
    rfl
  · change (⟨serverSetState index.node.sv .idle, index.node.fs, index.node.fnetidx⟩ : Node) = _
    rw [hnode, serverSetState_idle hidle (by decide)]

/-- What the orders come to reaches the gateway. -/
theorem AtRest.gathers {s : FileStore} (hrest : c.AtRest s.alive clients nw loops) (h : c.Stored s nw)
    (hN : c.N ≤ 254) (hg : g ∈ s.alive) (hgN : g ≠ c.N) {f : StoredFile} {j : ℕ}
    (hj : s.files[j]? = some f) {d : XIndexData}
    (hips : ∀ n, 1 ≤ n → n < c.N → d.peerIp n = if n ∈ s.alive then c.addr n else Address.zero)
    {index : MainLoop} {state : EServerState} (hsv : index.sv = serverSetState nw.index state)
    (hfs : index.node.fs = nw.fs c.N) {orders : List FragmentOrder}
    (horders : orders = (List.range f.count).map fun i =>
      orderFragment nw.index d (j + 1 : ℕ) g (f.entry i (s.asked f i))) :
    ∃ loops' arrivals, c.carriesOutAll mem fd index g loops orders = some (loops', arrivals) ∧
      arrivals.map Prod.snd = orders.filterMap (nw.carryOut c (fun n => (loops n).sv) g) ∧
      (∀ a ∈ arrivals, NodeId a.1 ∧ ∃ i < f.count, f.Delivers (nw.fs g) (j + 1) i a.2) ∧
      arrivals.length ≤ f.count ∧ ∀ n, (loops' n).node = (loops n).node := by
  have hasks : ∀ o ∈ orders, c.Asks s.alive o := by
    intro o ho
    obtain ⟨i, hi, rfl⟩ := Stored.mem_orders horders ho
    exact h.asks hj hips g hi
  obtain ⟨loops', arrivals, hcarried, hsnd, hsenders, hnode⟩ :=
    hrest.carriesOutAll mem fd h.left hsv hfs g hasks
  refine ⟨loops', arrivals, hcarried, hsnd, fun a ha => ⟨hsenders a ha, ?_⟩, ?_, hnode⟩
  · obtain ⟨o, ho, hcarry⟩ := List.mem_filterMap.mp (hsnd ▸ List.mem_map_of_mem (f := Prod.snd) ha)
    obtain ⟨i, hi, rfl⟩ := Stored.mem_orders horders ho
    exact ⟨i, hi, h.order_carried hN hj hips hg hgN _ hi hcarry⟩
  · have hfilter := List.length_filterMap_le (nw.carryOut c (fun n => (loops n).sv) g) orders
    rwa [← hsnd, List.length_map, horders, List.length_map, List.length_range] at hfilter

/-- The gateway gets what the orders come to, and the client what the gateway makes of it. -/
theorem AtRest.requestFile_confirmed {s : FileStore} (hrest : c.AtRest s.alive clients nw loops)
    (h : c.Stored s nw) (hN : c.N ≤ 254) (hg : g ∈ s.alive) (hgN : g ≠ c.N) (hclient : g ∈ clients)
    (hreq : Requests req name) {f : StoredFile} {j : ℕ} (hj : s.files[j]? = some f)
    (hdvd : ∀ i < f.count, ¬ SERVER_BUCKET_SIZE ∣ f.pieceSize i) {fc : XFileContainer}
    (hsome : typeRequestFileIndex nw.index (nw.fs c.N) (setCommSender g req) =
      some (fc, xpacketRequestFileResponse nw.index (j + 1 : ℕ) f.bytes.length f.count))
    (hid : fc.fileId = j + 1) (hcount : fc.fragmentCountTotal = f.count)
    {arranged : List (Server × Arrival) → List (Server × Arrival)} (harranged : ∀ l, (arranged l).Perm l)
    (ok : XPacket) :
    ∃ loops', c.requestFile mem fd arranged loops g req ok = some ⟨loops',
        xpacketRequestFileResponse (loops g).sv (j + 1 : ℕ) f.bytes.length f.count ::
          (s.read f).elim [] serverSendLargeBufferTo⟩ ∧
      (s.Readable f → c.AtRest s.alive clients nw loops') ∧
      (s.read f = none → (loops' g).sv.state = .waitRequestFragments) := by
  have hle := h.length_le
  rw [FILE_SERVER_MAX_FILES] at hle
  have hjlen := (List.getElem?_eq_some_iff.mp hj).1
  have hf := h.stored f (List.mem_of_getElem? hj)
  obtain ⟨hg1, hgle⟩ := h.left.bounds hg
  have hNidle : nw.index.state = .idle := hrest.index ▸ (hrest.resting c.N h.left.index).idle
  obtain ⟨gateway, index, hasks, hgateway, hrequested, hindex, hfileId, hfragments, hdeliver⟩ :=
    hrest.asksIndex_confirmed mem fd h.left hg hgN hclient hreq hsome
      (by rw [xpacketRequestFileResponse, commType_xpacketSized]; decide)
  have hcollecting := h.typeRequestFileGateway_eq hN hj
  rw [hcollecting] at hasks hrequested
  -- the orders
  obtain ⟨d, hd, -, hips⟩ := h.index.indexData
  obtain ⟨frags, orders, hreqf, hread⟩ := h.read hN hj hg hgN fun n => (loops n).sv
  obtain ⟨-, horders⟩ := Prod.mk.inj (Option.some.inj (hreqf.symm.trans (h.requestFragments_eq hN hj hd g)))
  have hasked : serverIndexRequestFragments index.sv index.node.fnetidx index.requested.fileId
      index.requested.fragmentCount (cInt index.deliverTo) = some (frags, orders) := by
    rw [MainLoop.sv, hindex, hfileId, hfragments, hdeliver, hid, hcount, cInt_of_lt (by omega)]
    exact hreqf
  obtain ⟨idle, hordered, hidle⟩ := pass_ordersFragments mem fd hindex hNidle hasked
  have hsame : ∀ n, (Function.update loops c.N idle n).node = (loops n).node := by
    intro n
    by_cases hnN : n = c.N
    · rw [hnN, Function.update_self, hidle, hrest.index_node h.left]
    · rw [Function.update_of_ne hnN]
  have hserver : (fun n => (Function.update loops c.N idle n).sv) = fun n => (loops n).sv :=
    funext fun n => congrArg Node.sv (hsame n)
  -- what they come to
  obtain ⟨loops1, arrivals, hcarried, hsnd, hdelivers, hcount', hnode1⟩ := (hrest.congr hsame).gathers
    mem fd h hN hg hgN hj hips (congrArg Node.sv hindex) (congrArg Node.fs hindex) horders
  rw [hserver] at hsnd
  have hperm := harranged arrivals
  have hgatewayfs : gateway.node.fs = nw.fs g := by rw [hgateway, hrest.fs g hg]
  have harrivals : ∀ a ∈ arranged arrivals, NodeId a.1 ∧
      ∃ i < f.count, f.Delivers gateway.node.fs (j + 1) i a.2 := by
    intro a ha
    rw [hgatewayfs]
    exact hdelivers a (hperm.mem_iff.mp ha)
  have hlen : 0 + (arranged arrivals).length ≤ f.count := by
    rw [hperm.length_eq]
    omega
  -- what the gateway makes of it
  obtain ⟨st, hst, hout⟩ := hread ((arranged arrivals).map Prod.snd) (hsnd ▸ hperm.map _)
  have hwaiting : gateway.sv.state = .waitRequestFragments := by
    rw [MainLoop.sv, hgateway]
    rfl
  have hid16 : j + 1 < 2 ^ 16 := by omega
  have hpasses := passes_collects mem fd hwaiting hf hN hid16 hdvd List.length_replicate hrequested
    harrivals hlen
  rw [hgatewayfs, hrequested, ← hcollecting, hst, Option.map_some] at hpasses
  obtain ⟨gateway2, hgateway2⟩ : ∃ st2, { gateway with requested := st } = st2 := ⟨_, rfl⟩
  have hout2 : bufferToClient gateway2.requested = s.read f := hgateway2 ▸ hout
  have hstate : index.sv.state ≠ .idle := by
    rw [MainLoop.sv, hindex]
    change EServerState.indexRequestFragments ≠ .idle
    decide
  rw [hgateway2] at hpasses
  simp only [requestFile, hasks, Option.bind_eq_bind, Option.bind_some, if_neg hstate, hasked, hordered,
    hcarried, hpasses, hout2]
  rcases hread : s.read f with _ | buffer
  · refine ⟨Function.update loops1 g gateway2, rfl, fun hreadable => ?_, fun _ => ?_⟩
    · rw [FileStore.read, if_pos hreadable] at hread
      cases hread
    · rw [Function.update_self, ← hgateway2]
      exact hwaiting
  · have hpass := pass_collected mem fd (show gateway2.sv.state = .waitRequestFragments from
      hgateway2 ▸ hwaiting) (hout2.trans hread) ok
    refine ⟨Function.update loops1 g (gateway2.setState .idle), ?_, fun _ => ?_, fun hnone => ?_⟩
    · simp only [hpass, Option.bind_some]
      rfl
    · have hidleg : ((loops g).dialed fd).sv.state = .idle := (hrest.resting g hg).idle
      refine hrest.dialed fd hgN ?_ fun n hn => ?_
      · rw [Function.update_self, ← hgateway2]
        change (⟨serverSetState gateway.node.sv .idle, gateway.node.fs, gateway.node.fnetidx⟩ : Node) = _
        rw [hgateway, serverSetState_idle hidleg (by decide)]
        rfl
      · rw [Function.update_of_ne hn, hnode1, hsame]
    · cases hnone

/-! ## A run -/

/-- A file that is asked for by a name, at a gateway that is left and has a client. -/
structure Asked (c : Cluster) (s : ServedStore) (g : ℕ) (name : List UInt8)
    (arranged : List (Server × Arrival) → List (Server × Arrival)) : Prop where
  alive : g ∈ s.store.alive
  gateway : g ≠ c.N
  client : g ∈ s.clients
  name_ne_zero : ∀ b ∈ name, b ≠ 0
  name_le : name.length ≤ 199
  perm : ∀ l, (arranged l).Perm l

/-- What a run is made of: a client of a gateway that is left, which sends a file or asks for one that can
be read; a file and a notice as in a run of the network. -/
def NodesAllowed (c : Cluster) (op : NodesOp) (s : ServedStore) : Prop :=
  match op with
  | .present g => g ∈ s.store.alive ∧ g ≠ c.N
  | .send g _ file => c.Allowed (.upload file) s.store ∧ g ∈ s.store.alive ∧ g ≠ c.N ∧ g ∈ s.clients
  | .request g name arranged => c.Asked s g name arranged ∧
      ∀ f, s.store.find name = some f → s.store.Readable f
  | .notice dial p => c.Allowed (.notice dial p) s.store

def NodesAllowedRun (c : Cluster) (ops : List NodesOp) : Prop :=
  Transition.Along (fun s op => some (ServedStore.after s op)) c.NodesAllowed (ServedStore.empty c) ops

/-- The main loops have what the store has. -/
structure KeepsStore (c : Cluster) (s : ServedStore) (nw : Network) (loops : ℕ → MainLoop) : Prop where
  stored : c.Stored s.store nw
  arrives : ∀ f ∈ s.store.files, f.Arrives
  rest : c.AtRest s.store.alive s.clients nw loops

namespace KeepsStore

variable {s : ServedStore} {arranged : List (Server × Arrival) → List (Server × Arrival)}

theorem requests (name : List UInt8) : Requests (requestOf name) name where
  length := by
    rw [requestOf, length_serialize]
    omega
  type := (nodeReads_serialize (goPacket RequestFilePacket (⟨toFixed200 name, char200_length _⟩ :
    FileRequestPacket)) (by show 11 + (char200 name).length < 2 ^ 16; simp)).type
  content := by
    rw [requestOf, content_serialize]
    exact congrArg XRequestFile.mk (char200_of_length (char200_length name))

/-- A request at any gateway: its client gets what the store says, and the nodes rest again; if the file
cannot be read any more, the gateway waits for the rest of it and the client for the file. -/
theorem request (h : c.KeepsStore s nw loops) (hN : c.N ≤ 254) (hasked : c.Asked s g name arranged) :
    ∃ answered, c.requestFile mem fd arranged loops g (requestOf name) goPacketOk.serialize =
        some answered ∧
      (∀ cut : ℕ → Bool, cut 1 = false → ∀ o,
        RequestEnds cut answered.toClient.flatten [goString "file", name] o ↔ s.outcome name = some o) ∧
      (s.outcome name = none → (answered.loops g).sv.state = .waitRequestFragments) ∧
      ((∀ f, s.store.find name = some f → s.store.Readable f) →
        c.AtRest s.store.alive s.clients nw answered.loops) := by
  obtain ⟨hg, hgN, hclient, hname, hlen, hperm⟩ := hasked
  have hreq := requests name
  have hforwarded := congrArg XRequestFile.name (hreq.forwarded g).2.2
  obtain ⟨hg1, hgle⟩ := h.stored.left.bounds hg
  have hid : (loops g).sv.me.nodeId < 2 ^ 64 := by
    rw [(h.rest.resting g hg).nodeId]
    omega
  rcases hfind : s.store.find name with _ | f
  · have hnone : typeRequestFileIndex nw.index (nw.fs c.N) (setCommSender g (requestOf name)) = none := by
      rw [h.stored.typeRequestFileIndex_eq hN hname hlen hforwarded, Keyed.slot_eq_none_iff.mpr hfind]
      rfl
    obtain ⟨loops', hrun, hrest⟩ := h.rest.requestFile_refused mem fd h.stored.left hg hgN
      hclient hreq hnone arranged goPacketOk.serialize
    have hrefused : s.outcome name = some (requestRefused name) := by rw [ServedStore.outcome, hfind]
    refine ⟨_, hrun, fun cut hcut o => ?_, fun hnone => ?_, fun _ => hrest⟩
    · rw [List.flatten_singleton, hrefused]
      exact (handleRequest_refused hid hcut name).iff_eq
    · rw [hrefused] at hnone
      cases hnone
  · obtain ⟨j, fc, hj, hanswer, hfileId, hcount⟩ := h.stored.requested hN hname hlen hforwarded hfind
    have hf := h.stored.stored f (List.mem_of_getElem? hj)
    have hsize : f.bytes.length < 2 ^ 31 := hf.uploadable.size_lt
    have hpos : 0 < f.bytes.length := hf.uploadable.size_pos
    have hle := h.stored.length_le
    rw [FILE_SERVER_MAX_FILES] at hle
    have hjlen := (List.getElem?_eq_some_iff.mp hj).1
    have hcount8 := hf.count_lt hN
    obtain ⟨loops', hrun, hrest, hwaits⟩ := h.rest.requestFile_confirmed mem fd h.stored hN hg hgN
      hclient hreq hj (h.arrives f (List.mem_of_getElem? hj)).fragment hanswer hfileId hcount hperm
      goPacketOk.serialize
    have houtcome : s.outcome name = (s.store.read f).map (requestSaved name) := by
      rw [ServedStore.outcome, hfind]
    refine ⟨_, hrun, fun cut hcut o => ?_, fun hnone => ?_, fun hreadable => hrest (hreadable f rfl)⟩
    · rw [List.flatten_cons, houtcome]
      rcases hread : s.store.read f with _ | bytes
      · have hopen := not_requestEnds hid hcut (show j + 1 < 2 ^ 31 by omega)
          (show f.count ≤ 255 by omega) name hpos (by omega) o
        simpa using hopen
      · have hbytes : bytes = f.bytes := by
          rw [FileStore.read] at hread
          split_ifs at hread
          exact (Option.some.inj hread).symm
        rw [Option.elim_some, flatten_serverSendLargeBufferTo, Option.map_some, hbytes]
        exact (requestEnds_saved hid hcut (by omega) (by omega) (by omega) name).iff_eq
    · rw [houtcome, Option.map_eq_none_iff] at hnone
      exact hwaits hnone

theorem step (h : c.KeepsStore s nw loops) (hN : c.N ≤ 254) {answers : ℕ → FanoutAnswers}
    (hanswers : ∀ i, (answers i).fd ≠ none) {op : NodesOp} (hop : c.NodesAllowed op s) :
    ∃ loops' nw', c.nodesStep mem fd answers loops op = some loops' ∧ c.KeepsStore (s.after op) nw' loops' := by
  cases op with
  | present g =>
    obtain ⟨hg, hgN⟩ := hop
    obtain ⟨hg1, hgle⟩ := h.stored.left.bounds hg
    obtain ⟨loops', hrun, hrest⟩ := h.rest.present mem fd answers hg hg1
      (lt_of_le_of_ne hgle hgN)
    exact ⟨loops', nw, hrun, h.stored, h.arrives, hrest⟩
  | send g path file =>
    obtain ⟨hupload, hg, hgN, hclient⟩ := hop
    have hlen := hupload.2
    rw [FILE_SERVER_MAX_FILES] at hlen
    obtain ⟨loops', nw', hrun, hup, hrest⟩ := h.rest.send mem fd h.stored hN hanswers hupload.1 (by omega)
      hg hgN hclient path
    obtain ⟨nw'', hup', hstored⟩ := h.stored.upload hN hupload.1.uploadable hupload.2
    obtain rfl : nw'' = nw' := Option.some.inj (hup'.symm.trans hup)
    exact ⟨loops', nw'', hrun, hstored, hupload.arrives h.arrives, hrest⟩
  | request g name arranged =>
    obtain ⟨hasked, hreadable⟩ := hop
    obtain ⟨answered, hrun, -, -, hrest⟩ := h.request mem fd hN hasked
    refine ⟨answered.loops, nw, ?_, h.stored, h.arrives, hrest hreadable⟩
    rw [nodesStep, hrun]
    rfl
  | notice dial p =>
    obtain ⟨loops', nw', hrun, hstep, hrest⟩ := h.rest.notice mem fd h.stored answers hop
    obtain ⟨nw'', hstep', hstored⟩ := h.stored.notice hop
    obtain rfl : nw'' = nw' := Option.some.inj (hstep'.symm.trans hstep)
    exact ⟨loops', nw'', hrun, hstored, Allowed.arrives hop h.arrives, hrest⟩

/-- Along any run the main loops do what the store does. -/
theorem run (hN : c.N ≤ 254) {answers : ℕ → FanoutAnswers} (hanswers : ∀ i, (answers i).fd ≠ none)
    {ops : List NodesOp} (h : c.KeepsStore s nw loops)
    (hops : Transition.Along (fun s op => some (ServedStore.after s op)) c.NodesAllowed s ops) :
    ∃ loops' nw', Transition.run (c.nodesStep mem fd answers) loops ops = some loops' ∧
      c.KeepsStore (s.afterAll ops) nw' loops' := by
  induction ops generalizing s nw loops with
  | nil => exact ⟨loops, nw, rfl, h⟩
  | cons op ops ih =>
    obtain ⟨loops1, nw1, hstep, h1⟩ := h.step mem fd hN hanswers hops.1
    obtain ⟨loops2, nw2, hrun, h2⟩ := ih h1 (hops.2 _ rfl)
    exact ⟨loops2, nw2, Transition.run_cons.mpr ⟨loops1, hstep, hrun⟩, h2⟩

end KeepsStore

end Cluster

/-- In any run of clients that connect, send files and ask for them and of deaths the index hears of, on
nodes that start at rest with nothing stored: no main loop stops or faults, and for whoever then asks any
gateway that is left for a file the request is over exactly if the store has an outcome for it, and with
that outcome, in whatever order the fragments reach the gateway and in whatever pieces they reach the
client; else the gateway waits for fragments that do not come, and the client for the file. -/
theorem main_loops_refine_store {c : Cluster} (hN : c.N ≤ 254) {loops : ℕ → MainLoop}
    (hready : c.IndexReady (loops c.N).sv)
    (hrest : c.AtRest c.nodes [] (Network.empty (loops c.N).sv) loops) (mem : ℕ → UInt8) (fd : ℕ)
    {answers : ℕ → FanoutAnswers} (hanswers : ∀ i, (answers i).fd ≠ none) {ops : List NodesOp}
    (hops : c.NodesAllowedRun ops) :
    ∃ loops', Transition.run (c.nodesStep mem fd answers) loops ops = some loops' ∧
      ∀ g name arranged, c.Asked ((ServedStore.empty c).afterAll ops) g name arranged →
        ∃ answered, c.requestFile mem fd arranged loops' g (requestOf name) goPacketOk.serialize =
            some answered ∧
          (∀ cut : ℕ → Bool, cut 1 = false → ∀ o,
            RequestEnds cut answered.toClient.flatten [goString "file", name] o ↔
              ((ServedStore.empty c).afterAll ops).outcome name = some o) ∧
          (((ServedStore.empty c).afterAll ops).outcome name = none →
            (answered.loops g).sv.state = .waitRequestFragments) := by
  have hstart : c.KeepsStore (ServedStore.empty c) (Network.empty (loops c.N).sv) loops :=
    ⟨Cluster.Stored.empty hready, by simp [ServedStore.empty, FileStore.empty], hrest⟩
  obtain ⟨loops', nw', hrun, h⟩ := hstart.run mem fd hN hanswers hops
  refine ⟨loops', hrun, fun g name arranged hasked => ?_⟩
  obtain ⟨answered, hanswered, hclient, hwaits, -⟩ := h.request mem fd hN hasked
  exact ⟨answered, hanswered, hclient, hwaits⟩

namespace Cluster

variable (c : Cluster)

theorem readyLoop_index : (c.readyLoop c.N).sv = c.readyIndex := if_pos rfl

theorem readyLoop_atRest : c.AtRest c.nodes [] (Network.empty (c.readyLoop c.N).sv) c.readyLoop where
  resting n _ := by
    rw [readyLoop, MainLoop.sv]
    split_ifs with hn
    · rw [hn]
      exact ⟨rfl, rfl, rfl⟩
    · exact ⟨rfl, rfl, rfl⟩
  fs _ _ := rfl
  client := by simp
  index := rfl
  fnetidx := rfl
  notified := by
    rw [readyLoop_index]
    rfl

end Cluster

/-- Three nodes: a client of node 1 sends three bytes, and a client of node 2 gets them. -/
theorem main_loops_refine_store_three_nodes :
    let c := Cluster.three
    let answers : ℕ → FanoutAnswers := fun _ => ⟨some 5, [], []⟩
    let ops : List NodesOp := [.present 1, .send 1 [97] ([97], [1, 2, 3]), .present 2]
    ∃ loops answered, Transition.run (c.nodesStep (fun _ => 0) 4 answers) c.readyLoop ops = some loops ∧
      c.requestFile (fun _ => 0) 4 id loops 2 (requestOf [97]) goPacketOk.serialize = some answered ∧
      RequestEnds (fun _ => false) answered.toClient.flatten [goString "file", [97]]
        (requestSaved [97] [1, 2, 3]) := by
  intro c answers ops
  have hanswers : ∀ i, (answers i).fd ≠ none := fun _ => Option.some_ne_none 5
  have hfile : Uploadable ([97], [1, 2, 3]) := ⟨by simp, by simp, by simp, by simp, by simp⟩
  have harrives : (⟨[97], [1, 2, 3], [1, 2, 3]⟩ : StoredFile).Arrives := .of_lt hfile (by decide)
  have hallowed : c.NodesAllowedRun ops := by
    refine ⟨⟨by decide, by decide⟩, fun s hs => ?_⟩
    obtain rfl := Option.some.inj hs
    refine ⟨⟨⟨harrives, by decide⟩, by decide, by decide, by decide⟩, fun s hs => ?_⟩
    obtain rfl := Option.some.inj hs
    exact ⟨⟨by decide, by decide⟩, fun _ _ => trivial⟩
  obtain ⟨f, hf⟩ : ∃ f : StoredFile, f = ⟨[97], [1, 2, 3], [1, 2, 3]⟩ := ⟨_, rfl⟩
  have hstore : (ServedStore.empty c).afterAll ops = ⟨⟨[f], [1, 2, 3]⟩, [2, 1]⟩ := by
    rw [hf]
    rfl
  have hfound : (⟨[f], [1, 2, 3]⟩ : FileStore).find [97] = some f := by
    rw [hf]
    rfl
  have hread : (⟨[f], [1, 2, 3]⟩ : FileStore).read f = some [1, 2, 3] := by
    rw [hf]
    decide
  have hready : c.IndexReady (c.readyLoop c.N).sv := c.readyLoop_index.symm ▸ c.readyIndex_ready
  obtain ⟨loops, hrun, h⟩ := main_loops_refine_store (by decide) hready c.readyLoop_atRest (fun _ => 0) 4
    hanswers hallowed
  obtain ⟨answered, hanswered, hclient, -⟩ := h 2 [97] id ⟨by decide, by decide, by decide, by simp,
    by simp, fun l => List.Perm.refl l⟩
  refine ⟨loops, answered, hrun, hanswered, (hclient _ rfl _).mpr ?_⟩
  simp only [hstore, ServedStore.outcome, hfound, hread, Option.map_some]

end DSS
