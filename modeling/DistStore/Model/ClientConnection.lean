import DistStore.Model.Sockets

/-! Which of a node's sockets are connections of clients. A descriptor is a number that the
system gives out again once it was closed, so the sockets are followed from event to event. -/

namespace DSS

/-- What an event does to a set of connections: a descriptor that is opened is a new one. -/
def SocketEvent.forget (clients : Finset ℕ) : SocketEvent → Finset ℕ
  | .opened fd => clients.erase fd
  | .closed fd => clients.erase fd

/-- The system does not give out a descriptor that is open. -/
def FreshFds : Finset ℕ → List SocketEvent → Prop
  | _, [] => True
  | held, .opened fd :: evs => fd ∉ held ∧ FreshFds (insert fd held) evs
  | held, .closed fd :: evs => FreshFds (held.erase fd) evs

instance decidableFreshFds : (held : Finset ℕ) → (evs : List SocketEvent) →
    Decidable (FreshFds held evs)
  | _, [] => instDecidableTrue
  | held, .opened fd :: evs =>
    have := decidableFreshFds (insert fd held) evs
    inferInstanceAs (Decidable (fd ∉ held ∧ FreshFds (insert fd held) evs))
  | held, .closed fd :: evs => decidableFreshFds (held.erase fd) evs

/-- The connection that `SERVER_IDLE` accepts and finds presented with `CLIENT_NODE_ID`. -/
def presentedClient (io : PassIo) (st : MainLoop) : Option ℕ :=
  if st.sv.state = .idle ∧ (st.sv.clientFd = none ∨ io.clientData = none) then
    match io.accept, io.conn with
    | some c, r :: _ =>
      if serverWaitClientPresentation (serverWaitFromSocket r) = CLIENT_NODE_ID then some c else none
    | _, _ => none
  else none

/-- A node's sockets, and those that were presented with `CLIENT_NODE_ID`. -/
structure Connections where
  sockets : Sockets
  clients : Finset ℕ

/-- The index is about to refuse a request: it has no file with that name. -/
def Refuses (st : MainLoop) : Prop :=
  st.sv.state = .receivedPacket ∧ commType st.packet = TYPE_REQUEST_FILE ∧
    serverIsIndex st.sv = true ∧
    xfileserverFindFileByName st.node.fs (XRequestFile.ofContent (content st.packet)).name = none

instance (st : MainLoop) : Decidable (Refuses st) :=
  inferInstanceAs (Decidable (_ ∧ _ ∧ _ ∧ _))

namespace Connections

def state (s : Connections) : EServerState := s.sockets.loop.sv.state

def clientFd (s : Connections) : Option ℕ := s.sockets.loop.sv.clientFd

def step (s : Connections) (io : SocketIo) : Option Connections :=
  (s.sockets.step io).map fun sockets =>
    { sockets := sockets
      clients := (s.sockets.events io).foldl SocketEvent.forget s.clients ∪
        (presentedClient io.toPassIo s.sockets.loop).toFinset }

def started (opts : Args) (index : XPeerConnection) (st : MainLoop) : Connections :=
  ⟨Sockets.started opts index st, ∅⟩

/-- `client_fd` is open, and the connection of a client. -/
def ClientLive (s : Connections) : Prop :=
  ∀ fd ∈ s.clientFd, fd ∈ s.sockets.opened ∧ fd ∈ s.clients

def RefusesClient (s : Connections) : Prop :=
  Refuses s.sockets.loop ∧ s.clientFd = some s.sockets.loop.fromFd

instance (s : Connections) : Decidable s.ClientLive :=
  inferInstanceAs (Decidable (∀ fd ∈ s.clientFd, _))

instance (s : Connections) : Decidable s.RefusesClient :=
  inferInstanceAs (Decidable (_ ∧ _))

end Connections

end DSS
