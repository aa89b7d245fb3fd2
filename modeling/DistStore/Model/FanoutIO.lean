import DistStore.Model.IndexFiles

/-! `SERVER_INDEX_FANOUT_FRAGMENTS` with what it meets on its connections. It reads
two answers on each, prints their types and goes on in any case. -/

namespace DSS

/-- The connection for one entry: what `tcp_open` returns, and what the two receives
return. A receive on `-1` fails and leaves the cleared packet. -/
structure FanoutAnswers where
  fd : Option ℕ
  presentation : XPacket
  store : XPacket
  deriving DecidableEq, Repr

/-- The second `read`, after the store request. -/
def FanoutAnswers.read (io : FanoutAnswers) : XPacket := if io.fd = none then [] else io.store

def FanoutAnswers.acknowledged (io : FanoutAnswers) : Bool := serverWaitOk io.read

/-- One entry that names another node. Nothing leaves the index if the dial failed. -/
structure StoreRequest where
  entry : XFragmentNetworkPointer
  sent : Option FragmentTransmission
  read : XPacket
  deriving DecidableEq, Repr

def storeRequest (io : ℕ → FanoutAnswers) (frag : XFragmentNetworkPointer) (i : ℕ)
    (t : FragmentTransmission) : StoreRequest := ⟨frag, (io i).fd.map fun _ => t, (io i).read⟩

/-- One round of the loop over `f->fragments`. -/
def fanoutRound (io : ℕ → FanoutAnswers) := fanoutEntry (storeRequest io)

structure FannedOut where
  sv : Server
  fs : XFileServer
  fnetidx : XFileNetworkIndex
  requests : List StoreRequest
  deriving DecidableEq, Repr

def serverIndexFanoutIo (sv : Server) (fs : XFileServer) (fnetidx : XFileNetworkIndex)
    (file : ℕ) (buffer : List UInt8) (io : ℕ → FanoutAnswers) : Option FannedOut :=
  (serverIndexFanout (storeRequest io) sv fs fnetidx file buffer).map fun r =>
    ⟨serverSetState sv .idle, r.1, fnetidx, r.2⟩

end DSS
