import DistStore.Lib.Transition
import DistStore.Model.FanoutIO
import DistStore.Model.Procedures

/-! The index at work: new files and reports of files in any order, on its store and its
table, and the lookups a request goes through. -/

namespace DSS

def toFixed200 (b : List UInt8) : List UInt8 := char200 b

/-- A file name the client's `HandleFileTransmission` accepts. -/
structure AcceptedName (name : List UInt8) : Prop where
  ne_nil : name ≠ []
  length_le : name.length ≤ 255
  no_nul : ∀ b ∈ name, b ≠ 0

/-- A file that reaches `SERVER_INDEX_HANDLE_NEW_FILE`, the index as it is then, and what
the fan-out meets. -/
structure NewFile where
  sv : Server
  fc : XRequestFileCreation
  size : ℕ
  buffer : List UInt8
  io : ℕ → FanoutAnswers

structure IndexFiles where
  fs : XFileServer
  fnetidx : XFileNetworkIndex
  deriving DecidableEq, Repr

def IndexFiles.empty : IndexFiles := ⟨xfileserverInit, xfilenetindexInit⟩

/-- `SERVER_INDEX_HANDLE_NEW_FILE`, with the slot of the new container. -/
def IndexFiles.place (st : IndexFiles) (u : NewFile) :
    Option (XFileServer × XFileNetworkIndex × ℕ) :=
  serverIndexHandleNewFile u.sv st.fs st.fnetidx u.fc u.size

def IndexFiles.newFile (st : IndexFiles) (u : NewFile) : Option IndexFiles := do
  let (fs, fnetidx, file) ← st.place u
  let out ← serverIndexFanoutIo u.sv fs fnetidx file u.buffer u.io
  return ⟨out.fs, out.fnetidx⟩

/-- `TYPE_REPORT_FILE`. -/
def IndexFiles.report (st : IndexFiles) (p : XPacket) : Option IndexFiles := do
  let (fs, fnetidx) ←
    xprocedureSaveFileToIndex st.fs st.fnetidx (XReportFileKnowledge.ofContent (content p))
  return ⟨fs, fnetidx⟩

inductive IndexAct where
  | newFile (u : NewFile)
  | report (p : XPacket)

def IndexFiles.step (st : IndexFiles) : IndexAct → Option IndexFiles
  | .newFile u => st.newFile u
  | .report p => st.report p

/-- `SERVER_BEGIN_OPERATION`: a node's own files enter its empty table. -/
def indexOwnFiles (nodeId : ℕ) (fs : XFileServer) : Option IndexFiles := do
  let (fs, fnetidx) ← fs.files.foldlM
    (fun st f => xprocedureSaveFileToIndex st.1 st.2 (reportOf nodeId f)) (fs, xfilenetindexInit)
  return ⟨fs, fnetidx⟩

/-- `TYPE_REQUEST_FILE`: the positions of the container and of the entry it leads to. -/
def IndexFiles.resolve (st : IndexFiles) (f : XRequestFile) : Option (ℕ × ℕ) := do
  let slot ← xfileserverFindFileByName st.fs f.name
  let fc ← st.fs.files[slot]?
  let entry ← xfilenetindexFindFile st.fnetidx fc.fileId
  return (slot, entry)

end DSS
