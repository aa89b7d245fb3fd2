import DistStore.Lib.Chain
import DistStore.Model.IndexFiles
import DistStore.Model.Procedures

/-! The network index in memory: every entry points at the next, and `TAIL` at the last.
With it the index's own store, and what writes to both. -/

namespace DSS

/-- `xFileNetworkIndex`: `chain` is the list from `files` on, with `TAIL`. -/
structure NetworkList where
  chain : Chain XFileInNetwork
  fileCount : ℕ
  deriving DecidableEq, Repr

namespace NetworkList

def init : NetworkList := ⟨Chain.empty, 0⟩

/-- `xfilenetindex_add_file` on an entry from `xfilenetindex_new_file`, and the pointer to it. -/
def addFile (net : NetworkList) (file : XFileInNetwork) : Option (NetworkList × ℕ) := do
  let (chain, ptr) ← net.chain.append file
  return (⟨chain, u16 (net.fileCount + 1)⟩, ptr)

def findFile (net : NetworkList) (fileId : ℕ) : Option ℕ :=
  net.chain.find fun f => f.fileId = u16 fileId

def ids (net : NetworkList) : List ℕ := net.chain.toList.map XFileInNetwork.fileId

def findOrAdd (net : NetworkList) (r : XReportFileKnowledge) : Option (NetworkList × ℕ) :=
  match net.findFile r.fileId with
  | some fni => some (net, fni)
  | none => net.addFile (xfilenetindexNewFile r.fileId (r.fragCount * REDUNDANCY))

def saveFile (fs : XFileServer) (net : NetworkList) (r : XReportFileKnowledge) :
    Option (XFileServer × NetworkList) := do
  let (net, fni) ← net.findOrAdd r
  let fs :=
    if xfileserverFindFile fs r.fileId = none then
      (xfileserverAddFile fs r.fileName r.fileId r.fileSize r.fragCount).1
    else fs
  let f ← net.chain.get fni
  let fragments ← saveEntries r f.fragments
  return (fs, { net with chain := net.chain.update fni fun f => { f with fragments := fragments } })

def handleNewFile (sv : Server) (fs : XFileServer) (net : NetworkList) (fc : XRequestFileCreation)
    (sz : ℕ) : Option (XFileServer × NetworkList) := do
  let d ← sv.indexData
  let fragcount := fragcountOf sv.netSize sz
  let id := fs.fileCount + 1
  let (fs', _) := xfileserverAddFile fs fc.name id sz (toU64 fragcount)
  let f := xfilenetindexNewFile id (toU64 (fragcount * REDUNDANCY))
  let fragsz := cInt (sz / toU64 fragcount)
  let remain := cInt (sz % toU64 fragcount)
  let placed ← placeFragments sv d fragcount.toNat fragsz remain f.fragments
  let (net', _) ← net.addFile { f with fragments := placed }
  return (fs', net')

end NetworkList

structure IndexStores where
  fs : XFileServer
  net : NetworkList
  deriving DecidableEq, Repr

inductive IndexWrite where
  /-- `SERVER_INDEX_HANDLE_NEW_FILE` -/
  | newFile (sv : Server) (fc : XRequestFileCreation) (sz : ℕ)
  /-- `TYPE_REPORT_FILE` -/
  | report (p : XPacket)
  /-- A round of the loop of `SERVER_BEGIN_OPERATION` at node `nodeId`. -/
  | own (nodeId : ℕ) (f : XFileContainer)
  /-- The bytes of fragments, stored in the container at `slot`. -/
  | store (slot : ℕ) (fragments0 fragments1 : XFileFragment)

def IndexStores.step (m : IndexStores) : IndexWrite → Option IndexStores
  | .newFile sv fc sz => do
    let (fs, net) ← NetworkList.handleNewFile sv m.fs m.net fc sz
    return ⟨fs, net⟩
  | .report p => do
    let (fs, net) ← NetworkList.saveFile m.fs m.net (XReportFileKnowledge.ofContent (content p))
    return ⟨fs, net⟩
  | .own nodeId f => do
    let (fs, net) ← NetworkList.saveFile m.fs m.net (reportOf nodeId f)
    return ⟨fs, net⟩
  | .store slot fragments0 fragments1 =>
    some { m with fs := m.fs.update slot fun fc =>
      { fc with fragments0 := fragments0, fragments1 := fragments1 } }

/-- The writes of `SERVER_BEGIN_OPERATION` at a node with the store `own`. -/
def ownWrites (nodeId : ℕ) (own : XFileServer) : List IndexWrite := own.files.map (.own nodeId)

/-- The lookup in the table, for the container at `slot`: of a file just placed, at the start of
`SERVER_INDEX_FANOUT_FRAGMENTS`, or of one a client named, at the start of
`SERVER_INDEX_REQUEST_FRAGMENTS`. `some none` is the null pointer. -/
def IndexStores.lookup (m : IndexStores) (slot : ℕ) : Option (Option ℕ) :=
  m.fs.files[slot]?.map fun fc => m.net.findFile fc.fileId

end DSS
