import DistStore.Model.Sockets

/-! The sockets a pass leaves open. Under a condition on what it meets, it keeps track of all of
them. -/

namespace DSS

namespace Sockets

variable {io : SocketIo} {s s' : Sockets}

/-! ## The condition -/

/-- The variable holds no open socket. -/
def Free (s : Sockets) (x : Option ℕ) : Prop := ∀ fd ∈ x, fd ∉ s.opened

/-- A new connection, if there is one, is put where no open socket is. -/
def Replaces (s : Sockets) (new old : Option ℕ) : Prop := new.isSome → s.Free old

/-- A client that identifies itself finds no other connected, and a node sends a packet after
its identification. -/
def KeepsAccepted (io : SocketIo) (s : Sockets) : Prop :=
  match io.accept, io.conn with
  | some _, r :: rs =>
    let n := serverWaitClientPresentation (serverWaitFromSocket r)
    (n = CLIENT_NODE_ID → s.Free s.loop.sv.clientFd) ∧
      (n ≠ 0 → n ≠ CLIENT_NODE_ID → rs.head? ≠ some (some []))
  | _, _ => True

def KeepsIdle (io : SocketIo) (s : Sockets) : Prop :=
  let sv := s.loop.sv
  s.Replaces (redialed io.dial io.peerB (MainLoop.serverHealthcheck io.peekZero sv))
      sv.peerF.streamFd ∧
    match sv.clientFd, io.clientData with
    | some fd, some r => r = some [] → fd ∉ s.opened
    | _, _ => KeepsAccepted io s

/-- The procedure ends early only before its dial. -/
def Completes (io : SocketIo) (i : ℕ) (done : Bool) : Prop := (io.dialed i).isSome → done

/-- A request is the client's, unless the index refuses a file it does not have; the index is
dialed when no open socket to it is left, and a fragment asked for is delivered. -/
def KeepsRequest (io : SocketIo) (s : Sockets) : Prop :=
  let st := s.loop
  (commType st.packet = TYPE_REQUEST_FILE ∧ serverIsIndex st.sv ∧
      typeRequestFileIndex st.sv st.node.fs st.packet = none) ∨
    st.sv.clientFd = some st.fromFd ∧
      (commType st.packet = TYPE_CREATE_FILE ∨ commType st.packet = TYPE_REQUEST_FILE →
        ¬ serverIsIndex st.sv → s.Replaces (io.dial st.sv.index.ip) st.sv.index.streamFd) ∧
      (commType st.packet = TYPE_REQUEST_FRAG → Completes io 0
        ((typeRequestFrag st.sv st.node.fs st.packet).2.toOption.isSome && confirmed (io.waits 0) 3))

/-- What the index asks for is delivered. -/
def KeepsOrder (io : SocketIo) (sv : Server) (fs : XFileServer) (order : FragmentOrder × ℕ) : Prop :=
  match order.1 with
  | .sendFragment fileId fragmentId _ => Completes io order.2
      ((xprocedureSendFragment sv fs fileId fragmentId).toOption.isSome &&
        confirmed (io.waits order.2) 3)
  | _ => Completes io order.2 (confirmed (io.waits order.2) 2)

/-- The connection taken for a fragment delivers one. -/
def KeepsDelivery (io : SocketIo) (st : MainLoop) : Prop :=
  st.requested.fragmentCount ≠ st.requested.fragmentFound →
    match io.accept, io.conn with
    | none, _ => True
    | some _, r :: r' :: _ =>
      serverWaitClientPresentation (serverWaitFromSocket r) ≠ 0 ∧ r' ≠ some [] ∧
        commType (serverWaitFromSocket r') ≠ TYPE_DECLARE_USE_LOCAL
    | some _, _ => False

def KeepsFanout (io : SocketIo) (st : MainLoop) : Prop :=
  ∀ f ∈ (st.node.fs.files[st.file]?).bind fun fc => st.node.fnetidx.found fc.fileId,
    ∀ entry ∈ f.fragments.zipIdx, entry.1.nodeId ≠ st.sv.me.nodeId → (io.fanout entry.2).fd = none

def KeepsOrders (io : SocketIo) (st : MainLoop) : Prop :=
  ∀ r ∈ serverIndexRequestFragments st.sv st.node.fnetidx st.requested.fileId
      st.requested.fragmentCount (cInt st.deliverTo),
    ∀ order ∈ r.2.zipIdx, KeepsOrder io st.sv st.node.fs order

def KeepsTrack (io : SocketIo) (s : Sockets) : Prop :=
  match s.loop.sv.state with
  | .idle => KeepsIdle io s
  | .waitingNewPeer => s.Replaces (acceptedPeerB io s.loop.sv) s.loop.sv.peerB.streamFd
  | .reportKnowledgeToIndex => s.Replaces (io.dial s.loop.sv.index.ip) s.loop.sv.index.streamFd
  | .receivedPacket => KeepsRequest io s
  | .waitRequestFragments => KeepsDelivery io s.loop
  | .indexFanoutFragments => KeepsFanout io s.loop
  | .indexRequestFragments => KeepsOrders io s.loop
  | _ => True

section decidable

instance (x : Option ℕ) : Decidable (s.Free x) := inferInstanceAs (Decidable (∀ fd ∈ x, fd ∉ s.opened))

instance (new old : Option ℕ) : Decidable (s.Replaces new old) :=
  inferInstanceAs (Decidable (new.isSome → s.Free old))

instance : Decidable (KeepsAccepted io s) := by
  unfold KeepsAccepted
  split <;> infer_instance

instance : Decidable (KeepsIdle io s) := by
  unfold KeepsIdle
  dsimp only
  split <;> infer_instance

instance (i : ℕ) (done : Bool) : Decidable (Completes io i done) :=
  inferInstanceAs (Decidable ((io.dialed i).isSome → done))

instance : Decidable (KeepsRequest io s) := by
  unfold KeepsRequest
  infer_instance

instance (sv : Server) (fs : XFileServer) (order : FragmentOrder × ℕ) :
    Decidable (KeepsOrder io sv fs order) := by
  unfold KeepsOrder
  split <;> infer_instance

instance (st : MainLoop) : Decidable (KeepsDelivery io st) := by
  unfold KeepsDelivery
  split <;> infer_instance

instance (st : MainLoop) : Decidable (KeepsFanout io st) := by
  unfold KeepsFanout
  infer_instance

instance (st : MainLoop) : Decidable (KeepsOrders io st) := by
  unfold KeepsOrders
  infer_instance

instance : Decidable (KeepsTrack io s) := by
  unfold KeepsTrack
  split <;> infer_instance

end decidable

/-! ## The sockets after a pass -/

theorem mem_opened {o : Finset ℕ} {c fd : ℕ} :
    fd ∈ [SocketEvent.opened c].foldl SocketEvent.apply o ↔ fd ∈ o ∨ fd = c := by
  rw [List.foldl_cons, List.foldl_nil, SocketEvent.apply, Finset.mem_insert, or_comm]

theorem mem_openedBy {o : Finset ℕ} {new : Option ℕ} {fd : ℕ} :
    fd ∈ (openedBy new).foldl SocketEvent.apply o ↔ fd ∈ o ∨ new = some fd := by
  cases new with
  | none => simp [openedBy]
  | some c => rw [openedBy, mem_opened, Option.some.injEq, eq_comm]

def Shrinks (evs : List SocketEvent) : Prop :=
  ∀ o : Finset ℕ, evs.foldl SocketEvent.apply o ⊆ o

theorem shrinks_nil : Shrinks [] := fun o => Finset.Subset.refl o

theorem shrinks_closed (fd : ℕ) : Shrinks [.closed fd] := fun o => Finset.erase_subset fd o

theorem shrinks_opened_closed (fd : ℕ) : Shrinks [.opened fd, .closed fd] := by
  intro o x hx
  rw [List.foldl_cons, List.foldl_cons, List.foldl_nil, SocketEvent.apply, SocketEvent.apply,
    Finset.mem_erase, Finset.mem_insert] at hx
  exact hx.2.resolve_left hx.1

theorem Shrinks.append {evs evs' : List SocketEvent} (h : Shrinks evs) (h' : Shrinks evs') :
    Shrinks (evs ++ evs') := by
  intro o
  rw [List.foldl_append]
  exact (h' _).trans (h o)

theorem shrinks_flatMap {α : Type} {l : List α} {f : α → List SocketEvent}
    (h : ∀ x ∈ l, Shrinks (f x)) : Shrinks (l.flatMap f) := by
  induction l with
  | nil => exact shrinks_nil
  | cons x l ih =>
    rw [List.flatMap_cons]
    exact (h x (List.mem_cons_self ..)).append (ih fun y hy => h y (List.mem_cons_of_mem _ hy))

theorem shrinks_serverCloseSocket (listenerFd : Option ℕ) (fd : ℕ) :
    Shrinks (serverCloseSocket listenerFd fd) := by
  unfold serverCloseSocket
  split_ifs
  · exact shrinks_closed fd
  · exact shrinks_nil

theorem shrinks_procedureEvents {listenerFd fd : Option ℕ} {done : Bool} (hl : listenerFd.isSome)
    (hdone : fd.isSome → done) : Shrinks (procedureEvents listenerFd fd done) := by
  cases fd with
  | none => exact shrinks_nil
  | some c =>
    rw [procedureEvents, hdone rfl, if_pos rfl, serverCloseSocket, if_pos hl]
    exact shrinks_opened_closed c

/-! ## The events of each state -/

theorem mem_receivedRequestGatewayEvents {listenerFd : Option ℕ} {st : MainLoop} {o : Finset ℕ}
    {fd : ℕ}
    (h : fd ∈ (receivedRequestGatewayEvents io listenerFd st).foldl SocketEvent.apply o) :
    fd ∈ o ∨ io.dial st.sv.index.ip = some fd := by
  unfold receivedRequestGatewayEvents at h
  cases hdial : io.dial st.sv.index.ip with
  | none =>
    rw [hdial] at h
    exact .inl h
  | some c =>
    rw [hdial] at h
    dsimp only at h
    rw [← List.singleton_append, List.foldl_append] at h
    have hopened : fd ∈ [SocketEvent.opened c].foldl SocketEvent.apply o := by
      refine (?_ : Shrinks _) _ h
      split
      · split_ifs
        · exact shrinks_serverCloseSocket listenerFd c
        · exact shrinks_nil
      · exact shrinks_nil
    rcases mem_opened.mp hopened with ho | rfl
    · exact .inl ho
    · exact .inr rfl

theorem shrinks_fanoutEvents {st : MainLoop} (h : KeepsFanout io st) :
    Shrinks (fanoutEvents io st) := by
  unfold fanoutEvents
  cases hf : (st.node.fs.files[st.file]?).bind fun fc => st.node.fnetidx.found fc.fileId with
  | none => exact shrinks_nil
  | some f =>
    refine shrinks_flatMap fun entry hentry => ?_
    by_cases hmine : entry.1.nodeId = st.sv.me.nodeId
    · rw [if_pos hmine]
      exact shrinks_nil
    · rw [if_neg hmine, h f hf entry hentry hmine]
      exact shrinks_nil

theorem shrinks_orderEvents {listenerFd : Option ℕ} {sv : Server} {fs : XFileServer}
    {order : FragmentOrder × ℕ} (hl : listenerFd.isSome) (h : KeepsOrder io sv fs order) :
    Shrinks (orderEvents io listenerFd sv fs order) := by
  obtain ⟨o, i⟩ := order
  cases o with
  | useLocal => exact shrinks_procedureEvents hl h
  | sendFragment => exact shrinks_procedureEvents hl h
  | requestFragment => exact shrinks_procedureEvents hl h

theorem shrinks_requestFragmentsEvents {listenerFd : Option ℕ} {st : MainLoop}
    (hl : listenerFd.isSome) (h : KeepsOrders io st) :
    Shrinks (requestFragmentsEvents io listenerFd st) := by
  unfold requestFragmentsEvents
  split
  · exact shrinks_nil
  · next frags orders heq =>
    exact shrinks_flatMap fun order horder => shrinks_orderEvents hl (h _ heq order horder)

theorem shrinks_waitRequestFragmentsEvents {listenerFd : Option ℕ} {st : MainLoop}
    (hl : listenerFd.isSome) (h : KeepsDelivery io st) :
    Shrinks (waitRequestFragmentsEvents io listenerFd st) := by
  unfold waitRequestFragmentsEvents
  split_ifs with hmissing
  · cases haccept : io.accept with
    | none => exact shrinks_nil
    | some c =>
      have h := h hmissing
      rw [haccept] at h
      rcases hconn : io.conn with _ | ⟨r, _ | ⟨r', rs⟩⟩
      · rw [hconn] at h
        exact h.elim
      · rw [hconn] at h
        exact h.elim
      · rw [hconn] at h
        obtain ⟨hknown, hsays, hdelivers⟩ := h
        dsimp only
        rw [if_neg (not_or_intro hknown (not_or_intro hsays hdelivers)), serverCloseSocket, if_pos hl]
        exact shrinks_opened_closed c
  · exact shrinks_nil

theorem shrinks_indexWaitingPeersKnowledgeEvents {listenerFd : Option ℕ} {st st' : MainLoop}
    (hl : listenerFd.isSome)
    (h : MainLoop.indexWaitingPeersKnowledge io.toPassIo st = some st') :
    Shrinks (indexWaitingPeersKnowledgeEvents io listenerFd st) := by
  unfold indexWaitingPeersKnowledgeEvents
  unfold MainLoop.indexWaitingPeersKnowledge at h
  cases hdata : st.sv.indexData with
  | none => exact shrinks_nil
  | some d =>
    cases haccept : io.accept with
    | none => exact shrinks_nil
    | some c =>
      rw [hdata, haccept] at h
      rcases hconn : io.conn with _ | ⟨r, rs⟩
      · rw [hconn] at h
        cases h
      · dsimp only
        rw [serverCloseSocket, if_pos hl]
        split_ifs <;> exact shrinks_opened_closed c

end Sockets

end DSS
