import Mathlib.Logic.Function.Basic
import DistStore.Model.Gateway

/-! The array behind `xFileServer`. `xfileserver_init` allocates `FILE_SERVER_MAX_FILES`
containers; what adds one goes by `file_count` alone. -/

namespace DSS

/-- The memory from `files` on, container by container, also past the end of the array. -/
structure FileTable where
  slots : ℕ → XFileContainer
  fileCount : ℕ

namespace FileTable

/-- `xfileserver_init`, with what the memory held. -/
def init (mem : ℕ → XFileContainer) : FileTable := ⟨mem, 0⟩

/-- `xfileserver_add_file`: the table, and the slot it wrote to. `file_count` is a `uint16_t`. -/
def addFile (index : FileTable) (fileName : List UInt8) (fileId totalSize fragmentCountTotal : ℕ) :
    FileTable × ℕ :=
  (⟨Function.update index.slots index.fileCount
      (freshContainer fileName fileId totalSize fragmentCountTotal), u16 (index.fileCount + 1)⟩,
    index.fileCount)

def findFile (idx : FileTable) (id : ℕ) : Option ℕ :=
  (List.range idx.fileCount).find? fun i => (idx.slots i).fileId = id

def stored (t : FileTable) : XFileServer := ⟨(List.range t.fileCount).map t.slots⟩

end FileTable

inductive TableOp where
  /-- `SERVER_INDEX_HANDLE_NEW_FILE` -/
  | handleNewFile (fc : XRequestFileCreation) (sz netSize : ℕ)
  /-- `TYPE_STORE_FRAGMENT` -/
  | storeFragment (p : XPacket)
  /-- `xprocedure_save_file_to_index` -/
  | saveFileToIndex (r : XReportFileKnowledge)
  deriving DecidableEq, Repr

structure AddCall where
  fileName : List UInt8
  fileId : ℕ
  totalSize : ℕ
  fragmentCountTotal : ℕ
  deriving DecidableEq, Repr

namespace FileTable

def add (t : FileTable) (c : AddCall) : FileTable × ℕ :=
  t.addFile c.fileName c.fileId c.totalSize c.fragmentCountTotal

/-- The call an operation makes: an upload always, the others for an id that is not found. -/
def call (t : FileTable) : TableOp → Option AddCall
  | .handleNewFile fc sz netSize =>
    some ⟨fc.name, t.fileCount + 1, sz, toU64 (fragcountOf netSize sz)⟩
  | .storeFragment p =>
    let fragc := XRequestFragmentCreation.ofContent (content p)
    if t.findFile fragc.fileId = none then
      some ⟨fragc.fileName, fragc.fileId, fragc.fileSize, fragc.fragmentCountTotal⟩
    else none
  | .saveFileToIndex r =>
    if t.findFile r.fileId = none then some ⟨r.fileName, r.fileId, r.fileSize, r.fragCount⟩
    else none

/-- The table afterwards. No operation looks at its size. -/
def after (t : FileTable) (op : TableOp) : FileTable :=
  (t.call op).elim t fun c => (t.add c).1

def step (t : FileTable) (op : TableOp) : Option FileTable := some (t.after op)

/-- The call stays in the array, and what is stored stays as it is. -/
def AddsInside (op : TableOp) (t : FileTable) : Prop :=
  ∀ c ∈ t.call op, (t.add c).2 < FILE_SERVER_MAX_FILES ∧
    (t.add c).1.fileCount ≤ FILE_SERVER_MAX_FILES ∧
    ∀ i < t.fileCount, (t.add c).1.slots i = t.slots i

end FileTable

end DSS
