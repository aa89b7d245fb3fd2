import DistStore.Model.Procedures

/-! The network at rest between operations: the index, what every node stores, and
the index's table. Packets and raw buffers are delivered whole, to the node that
listens at the address they are sent to: each send is one receive. The receives of a raw
buffer are counted in `Model/RawTransfer`. -/

namespace DSS

/-- The nodes `1..N` and the addresses they listen at. -/
structure Cluster where
  N : ℕ
  addr : ℕ → Address
  two_le : 2 ≤ N
  N_lt : N < 2 ^ 31
  addr_inj : ∀ m n, 1 ≤ m → m ≤ N → 1 ≤ n → n ≤ N → addr m = addr n → m = n
  port_ne_zero : ∀ n, 1 ≤ n → n ≤ N → (addr n).port ≠ 0

namespace Cluster

variable (c : Cluster)

def nodes : List ℕ := List.range' 1 c.N

def nodeAt (a : Address) : Option ℕ := c.nodes.find? fun n => c.addr n = a

/-- The options of node `n`: its forward peer is the next node of the ring. -/
def args (n : ℕ) : Args := ⟨n, c.addr n, n % c.N + 1, c.addr (n % c.N + 1), c.N⟩

theorem backwardId_eq_if {n : ℕ} (h1 : 1 ≤ n) (hn : n ≤ c.N) :
    backwardId n c.N = if n = 1 then c.N else n - 1 := by
  have hN := c.N_lt
  rw [backwardId_eq h1 hn (by omega)]
  split_ifs with h
  · rw [h, Nat.mod_eq_of_lt (by omega)]
    omega
  · rw [show n + c.N - 2 = n - 2 + c.N by omega, Nat.add_mod_right, Nat.mod_eq_of_lt (by omega)]
    omega

/-- `sv` is node `N` as index, no node has died, and it knows every other node. -/
structure IndexReady (sv : Server) : Prop where
  nodeId : sv.me.nodeId = c.N
  peerF : sv.peerF.nodeId = 1
  peerB : sv.peerB.nodeId = c.N - 1
  netSize : sv.netSize = c.N
  deathCount : sv.deathCount = 0
  index : sv.index.nodeId = c.N
  indexData : ∃ d, sv.indexData = some d ∧ d.knownPeers = c.N - 1 ∧ d.peerIps.length = c.N ∧
    ∀ n, 1 ≤ n → n < c.N → d.peerIp n = c.addr n

end Cluster

/-- `boot.sh`: all nodes on one machine, on consecutive ports from 52000. -/
def Cluster.boot (n : ℕ) (h2 : 2 ≤ n) (hn : n ≤ 10000) : Cluster where
  N := n
  addr i := ⟨⟨127, 0, 0, 1⟩, UInt16.ofNat (52000 + i - 1)⟩
  two_le := h2
  N_lt := by omega
  addr_inj i j hi hi' hj hj' h := by
    have hport := congrArg (fun a => a.port.toNat) h
    simp only [UInt16.toNat_ofNat'] at hport
    omega
  port_ne_zero i hi hi' h := by
    have hport := congrArg UInt16.toNat h
    simp only [UInt16.toNat_ofNat'] at hport
    have h0 : UInt16.toNat 0 = 0 := rfl
    omega

def Cluster.three : Cluster := Cluster.boot 3 (by decide) (by decide)

/-- Node `N` once every node has reported to it. -/
def Cluster.readyIndex (c : Cluster) : Server :=
  { serverInit (c.args c.N) ⟨c.N, c.addr c.N, none, true⟩ with
    peerB := ⟨c.N - 1, Address.zero, none, true⟩
    state := .idle
    connected := c.N - 1
    indexData := some ⟨(List.range c.N).map fun i => if i + 1 < c.N then c.addr (i + 1) else .zero,
      c.N - 1⟩ }

theorem Cluster.readyIndex_ready (c : Cluster) : c.IndexReady c.readyIndex := by
  refine ⟨rfl, ?_, rfl, rfl, rfl, rfl, _, rfl, rfl, by simp, fun n h1 hn => ?_⟩
  · simp [readyIndex, serverInit, args]
  · simp only [XIndexData.peerIp, List.getD_eq_getElem?_getD, List.getElem?_map]
    rw [List.getElem?_range (by omega)]
    simp [Nat.sub_add_cancel h1, hn]

/-- `SERVER_INDEX_HANDLE_NEW_FILE` for one file after another: what the client asked
for and the size that arrived. -/
def placeFiles (sv : Server) (files : List (XRequestFileCreation × ℕ)) :
    Option (XFileServer × XFileNetworkIndex) :=
  files.foldlM (fun st f => (serverIndexHandleNewFile sv st.1 st.2 f.1 f.2).map fun r => (r.1, r.2.1))
    (xfileserverInit, xfilenetindexInit)

/-- The index after it processed the death of node `d`: through its own healthcheck
when it is the successor of `d`, else through a notice that names `d`. -/
def Cluster.IndexSawDeath (c : Cluster) (sv : Server) (d : ℕ) (sv' : Server) : Prop :=
  if d = c.N - 1 then sv' = (serverHealthcheckDead sv).sv
  else ∃ dial p sent, commType p = TYPE_PEER_DIED ∧ (XPeerDied.ofContent (content p)).peerId = d ∧
    xprocedureCheckPeerB dial sv p = some ⟨sv', sent⟩

structure Network where
  index : Server
  fs : ℕ → XFileServer
  fnetidx : XFileNetworkIndex

namespace Network

def empty (index : Server) : Network := ⟨index, fun _ => xfileserverInit, xfilenetindexInit⟩

/-- A transmission of the fan-out reaches the node at its address, and its receives come to an end: they
do unless the fragment is a multiple of the bucket's size. -/
def deliver (c : Cluster) (fs : ℕ → XFileServer) (t : FragmentTransmission) : ℕ → XFileServer :=
  match c.nodeAt t.dest with
  | some n => Function.update fs n (receiveTransmission (fs n) t.packet t.raw)
  | none => fs

/-- An upload that has reached the index: placed, fanned out and stored. -/
def upload (c : Cluster) (nw : Network) (file : List UInt8 × List UInt8) : Option Network := do
  let (name, buffer) := file
  let fc : XRequestFileCreation := ⟨char200 name, buffer.length⟩
  let (fs1, net, slot) ←
    serverIndexHandleNewFile nw.index (nw.fs c.N) nw.fnetidx fc buffer.length
  let (fs2, sent) ← serverIndexFanoutFragments nw.index fs1 net slot buffer
  return ⟨nw.index, sent.foldl (deliver c) (Function.update nw.fs c.N fs2), net⟩

def uploads (c : Cluster) (index : Server) (files : List (List UInt8 × List UInt8)) :
    Option Network := files.foldlM (upload c) (empty index)

/-- What an order of the index makes reach the gateway `g`: the packet it declares,
and the outcome of `xprocedure_send_fragment` at the node that was asked. -/
def carryOut (c : Cluster) (nw : Network) (server : ℕ → Server) (g : ℕ) :
    FragmentOrder → Option Arrival
  | .useLocal dest packet => if c.nodeAt dest = some g then some ⟨packet, []⟩ else none
  | .sendFragment fileId fragmentId deliverTo =>
    if c.nodeAt deliverTo = some g then
      (xprocedureSendFragment nw.index (nw.fs c.N) fileId fragmentId).toOption
    else none
  | .requestFragment dest packet => do
    let n ← c.nodeAt dest
    let (deliverTo, sent) := typeRequestFrag (server n) (nw.fs n) packet
    if c.nodeAt deliverTo = some g then sent.toOption else none

end Network

end DSS
