import DistStore.Lib.Calls
import DistStore.Model.Network

/-! The connections between the nodes packet by packet: who dials whom, what each side sends next
and when it waits. A fan-out (`SERVER_INDEX_FANOUT_FRAGMENTS` at the index, `TYPE_STORE_FRAGMENT`
and the raw packets at the others), and a download (`SERVER_INDEX_REQUEST_FRAGMENTS` at the index,
`TYPE_REQUEST_FRAG` at the holders, `SERVER_WAIT_REQUEST_FRAGMENTS` at the gateway). What arrives is
what one `send` wrote; a packet of no bytes never arrives. -/

namespace DSS

open Calls

/-! ## What is said on a connection -/

/-- The caller presents itself, and waits for the `TYPE_OK`. -/
def sayPresentation (sv peer : Server) : List (Bool × XPacket) :=
  [(true, xpacketPresentation sv), (false, xpacketOk peer)]

/-- A packet, and the `TYPE_OK` for it. -/
def sayConfirmed (p : XPacket) (peer : Server) : List (Bool × XPacket) :=
  [(true, p), (false, xpacketOk peer)]

/-- `server_send_large_buffer_to`, and as many rounds of the loop that takes it. -/
def sayRaw (raw : List UInt8) : List (Bool × XPacket) := (largeBufferPackets raw).map (true, ·)

/-- One entry of the table in `SERVER_INDEX_FANOUT_FRAGMENTS`. -/
def sayTransmission (sv peer : Server) (t : FragmentTransmission) : List (Bool × XPacket) :=
  sayPresentation sv peer ++ sayConfirmed t.packet peer ++ sayRaw t.raw

/-- `xprocedure_send_use_local` and `xprocedure_send_request_fragment`. -/
def sayRequest (sv peer : Server) (p : XPacket) : List (Bool × XPacket) :=
  sayPresentation sv peer ++ sayConfirmed p peer

/-- `xprocedure_send_fragment`, once the fragment was found. -/
def sayDelivery (sv peer : Server) (a : Arrival) : List (Bool × XPacket) :=
  sayPresentation sv peer ++ sayConfirmed a.packet peer ++ sayRaw a.raw ++ [(false, xpacketOk peer)]

/-! ## The nodes -/

/-- Who takes part: the index, the gateway that collects, the other nodes. -/
inductive Party (N : ℕ) where
  | index
  | gateway
  | node (n : Fin (N + 1))
  deriving DecidableEq, Repr

def Party.equiv (N : ℕ) : Party N ≃ Option (Option (Fin (N + 1))) where
  toFun
    | .index => none
    | .gateway => some none
    | .node n => some (some n)
  invFun
    | none => .index
    | some none => .gateway
    | some (some n) => .node n
  left_inv a := by cases a <;> rfl
  right_inv a := by rcases a with _ | _ | n <;> rfl

instance (N : ℕ) : Fintype (Party N) := Fintype.ofEquiv _ (Party.equiv N).symm

/-! ## The fan-out -/

section fanout

variable (c : Cluster) (sv : Server) (server : ℕ → Server) (sent : List FragmentTransmission)
  (backlog : ℕ)

/-- The node that listens at the address of a transmission. -/
def receiverOf (i : Fin sent.length) : ℕ := (c.nodeAt (sent.get i).dest).getD 0

def fanoutProtocol : Protocol (Party c.N) (Fin sent.length) XPacket where
  caller _ := .index
  callee i := .node (Fin.ofNat (c.N + 1) (receiverOf c sent i))
  script i := sayTransmission sv (server (receiverOf c sent i)) (sent.get i)
  silent := List.isEmpty
  next _ := []
  backlog := backlog

def fanoutTodo : Party c.N → List (Fin sent.length)
  | .index => List.finRange sent.length
  | _ => []

def storeReceived (fs : XFileServer) : List XPacket → XFileServer
  | _ :: p :: raw => receiveTransmission fs p raw.flatten
  | _ => fs

/-- The stores, once the connections that were served are through. -/
def storesAfter (fs : ℕ → XFileServer)
    (s : Calls.State (Party c.N) (Fin sent.length) XPacket) : ℕ → XFileServer :=
  s.served.foldl (fun fs i => Function.update fs (receiverOf c sent i)
    (storeReceived (fs (receiverOf c sent i)) (s.conn i).got)) fs

end fanout

/-! ## The download -/

section download

variable (c : Cluster) (nw : Network) (server : ℕ → Server) (g : ℕ) (orders : List FragmentOrder)
  (backlog : ℕ)

def FragmentOrder.dialled : FragmentOrder → Address
  | .useLocal dest _ => dest
  | .sendFragment _ _ deliverTo => deliverTo
  | .requestFragment dest _ => dest

def partyAt (a : Address) : Party c.N :=
  match c.nodeAt a with
  | some n =>
    if n = c.N then .index else if n = g then .gateway else .node (Fin.ofNat (c.N + 1) n)
  | none => .node 0

/-- Where the holder of a requested fragment delivers it, and what. -/
def deliveryOf : FragmentOrder → Option (Address × Except ℤ Arrival)
  | .requestFragment dest packet =>
    (c.nodeAt dest).map fun n => typeRequestFrag (server n) (nw.fs n) packet
  | _ => none

/-- `xprocedure_send_fragment` at the node `sv`, once it has dialled: without the fragment it sends
nothing, and leaves the connection open. -/
def sayFragment (sv : Server) : Except ℤ Arrival → List (Bool × XPacket)
  | .ok a => sayDelivery sv (server g) a
  | .error _ => [(true, [])]

/-- The call `(false, i)` is the one the index makes for its order `i`, the call `(true, i)` the
delivery by the node it asked. -/
abbrev DownloadCall (orders : List FragmentOrder) := Bool × Fin orders.length

def downloadScript : DownloadCall orders → List (Bool × XPacket)
  | (false, i) =>
    match orders.get i with
    | .useLocal _ packet => sayRequest nw.index (server g) packet
    | .sendFragment fileId fragmentId _ =>
      sayFragment server g nw.index (xprocedureSendFragment nw.index (nw.fs c.N) fileId fragmentId)
    | .requestFragment dest packet =>
      sayRequest nw.index (server ((c.nodeAt dest).getD 0)) packet
  | (true, i) =>
    match deliveryOf c nw server (orders.get i) with
    | some (_, delivery) =>
      sayFragment server g (server ((c.nodeAt (orders.get i).dialled).getD 0)) delivery
    | none => []

/-- A node that is asked confirms the request, and then delivers. -/
def downloadProtocol : Protocol (Party c.N) (DownloadCall orders) XPacket where
  caller
    | (false, _) => .index
    | (true, i) =>
      match orders.get i with
      | .requestFragment dest _ => partyAt c g dest
      | _ => .index
  callee
    | (false, i) => partyAt c g (orders.get i).dialled
    | (true, i) =>
      match deliveryOf c nw server (orders.get i) with
      | some (deliverTo, _) => partyAt c g deliverTo
      | none => .gateway
  script := downloadScript c nw server g orders
  silent := List.isEmpty
  next
    | (false, i) =>
      match deliveryOf c nw server (orders.get i) with
      | some (deliverTo, _) => if (c.nodeAt deliverTo).isSome then [(true, i)] else []
      | none => []
    | (true, _) => []
  backlog := backlog

/-- The index goes through the fragments. Where nobody answers the dial, it goes on. -/
def downloadTodo : Party c.N → List (DownloadCall orders)
  | .index => ((List.finRange orders.length).filter
      fun i => (c.nodeAt (orders.get i).dialled).isSome).map (false, ·)
  | _ => []

/-- What the gateway takes from a connection. -/
def arrivalOf : List XPacket → Option Arrival
  | _ :: p :: raw => some ⟨p, raw.flatten⟩
  | _ => none

/-- What has reached the gateway, in that order. -/
def arrivalsOf (s : Calls.State (Party c.N) (DownloadCall orders) XPacket) : List Arrival :=
  s.served.filterMap fun k =>
    if (downloadProtocol c nw server g orders backlog).callee k = .gateway then
      arrivalOf (s.conn k).got
    else none

end download

end DSS
