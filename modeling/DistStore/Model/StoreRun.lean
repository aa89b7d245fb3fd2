import DistStore.Lib.Transition
import DistStore.Model.Network

/-! The network over a run of uploads and deaths, and what it is for: a store that finds files by
name, and reads each of them from the nodes that were there when it was stored. -/

namespace DSS

/-! ## The network -/

inductive NetworkOp where
  /-- A client's file, its name and its content, reaches the index. -/
  | upload (file : List UInt8 × List UInt8)
  /-- The index takes the notice `p` of a death from `peer_b`. -/
  | notice (dial : Address → Option ℕ) (p : XPacket)

def noticeOf (p : XPacket) : ℕ := (XPeerDied.ofContent (content p)).peerId

/-- `xprocedure_check_peer_b` at the index. The death of its own predecessor does not come this way: it
is found by `server_healthcheck`. -/
def Network.takeNotice (nw : Network) (dial : Address → Option ℕ) (p : XPacket) : Option Network :=
  (xprocedureCheckPeerB dial nw.index p).map fun h => { nw with index := h.sv }

def Network.step (c : Cluster) (nw : Network) : NetworkOp → Option Network
  | .upload file => nw.upload c file
  | .notice dial p => nw.takeNotice dial p

/-! ## What it is for -/

/-- A file, and the nodes that were there when it was stored: its fragments lie on them in a
circle, each on one node and on the next. -/
structure StoredFile where
  name : List UInt8
  bytes : List UInt8
  nodes : List ℕ
  deriving DecidableEq, Repr

namespace StoredFile

def count (f : StoredFile) : ℕ :=
  if f.bytes.length ≤ f.nodes.length ∨ f.bytes.length ≤ MINIMAL_SIZE_FOR_SPLIT then 1
  else f.nodes.length

/-- The node that is asked for fragment `i + 1` first. -/
def holder (f : StoredFile) (i : ℕ) : ℕ := f.nodes.getD i 0

/-- The other node that has it. -/
def backup (f : StoredFile) (i : ℕ) : ℕ := f.nodes.getD ((i + 1) % f.nodes.length) 0

end StoredFile

structure FileStore where
  files : List StoredFile
  alive : List ℕ
  deriving DecidableEq, Repr

namespace FileStore

def empty (c : Cluster) : FileStore := ⟨[], c.nodes⟩

def after (s : FileStore) : NetworkOp → FileStore
  | .upload file => { s with files := s.files ++ [⟨file.1, file.2, s.alive⟩] }
  | .notice _ p => { s with alive := s.alive.filter (· ≠ noticeOf p) }

def afterAll (s : FileStore) (ops : List NetworkOp) : FileStore := ops.foldl after s

def find (s : FileStore) (name : List UInt8) : Option StoredFile := s.files.find? (·.name = name)

/-- A file of twice as many fragments as nodes are left is taken for one stored later: only the
first node is asked for a fragment. -/
def Mistaken (s : FileStore) (f : StoredFile) : Prop := f.count = 2 * s.alive.length

instance (s : FileStore) (f : StoredFile) : Decidable (s.Mistaken f) :=
  inferInstanceAs (Decidable (_ = _))

def asked (s : FileStore) (f : StoredFile) (i : ℕ) : ℕ :=
  if s.Mistaken f ∨ f.holder i ∈ s.alive then f.holder i else f.backup i

/-- Every fragment is asked of a node that is there. -/
def Readable (s : FileStore) (f : StoredFile) : Prop := ∀ i < f.count, s.asked f i ∈ s.alive

instance (s : FileStore) (f : StoredFile) : Decidable (s.Readable f) :=
  inferInstanceAs (Decidable (∀ i < _, _))

/-- What a client gets that asks for the file: its bytes, or no answer at all. -/
def read (s : FileStore) (f : StoredFile) : Option (List UInt8) :=
  if s.Readable f then some f.bytes else none

end FileStore

end DSS
