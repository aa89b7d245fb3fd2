import DistStore.Lib.Keyed
import DistStore.Model.Types

/-! `lib/fileserver`: the containers a node stores fragments in, and the table
the index keeps of which node holds which fragment. A pointer into an array or
a list is the position it points at. -/

namespace DSS

structure XFileFragment where
  fragmentId : ℕ
  fragmentBytes : List UInt8
  fragmentSize : ℕ
  deriving DecidableEq, Repr

def XFileFragment.zero : XFileFragment := ⟨0, [], 0⟩

/-- `fragments[2]` is the pair of fields `fragments0`, `fragments1`. -/
structure XFileContainer where
  fileName : List UInt8
  fileId : ℕ
  size : ℕ
  fragmentCountTotal : ℕ
  fragments0 : XFileFragment
  fragments1 : XFileFragment
  deriving DecidableEq, Repr

structure XFileServer where
  files : List XFileContainer
  deriving DecidableEq, Repr

def XFileServer.fileCount (fs : XFileServer) : ℕ := fs.files.length

def xfileserverInit : XFileServer := ⟨[]⟩

/-- `strncpy(dst, s, 199)` into a cleared `char[200]`. -/
def strncpy199 (s : List UInt8) : List UInt8 := char200 ((cstr s).take 199)

/-- The container `xfileserver_add_file` sets up: no fragment, ids narrowed. -/
def freshContainer (fileName : List UInt8) (fileId totalSize fragmentCountTotal : ℕ) :
    XFileContainer :=
  { fileName := strncpy199 fileName
    fileId := u16 fileId
    size := u64 totalSize
    fragmentCountTotal := u8 fragmentCountTotal
    fragments0 := .zero
    fragments1 := .zero }

def xfileserverAddFile (index : XFileServer) (fileName : List UInt8)
    (fileId totalSize fragmentCountTotal : ℕ) : XFileServer × ℕ :=
  (⟨index.files ++ [freshContainer fileName fileId totalSize fragmentCountTotal]⟩,
   index.fileCount)

inductive EFileAddFragStatus where
  | ok | errInvalidFile | errInvalidIndex | errInvalidBytes
  deriving DecidableEq, Repr

/-- `malloc` tells whether the allocation succeeds. The id is overwritten before
the allocation is checked. -/
def xfileserverAddFragment (malloc : Bool) (file : XFileContainer) (fragmentId : ℕ)
    (data : List UInt8) (size : ℕ) : EFileAddFragStatus × XFileContainer :=
  let old := if file.fragments0.fragmentId = 0 then file.fragments0 else file.fragments1
  let frag : XFileFragment :=
    if malloc then ⟨u8 fragmentId, data.take size, u64 size⟩
    else ⟨u8 fragmentId, [], old.fragmentSize⟩
  (if malloc then .ok else .errInvalidBytes,
   if file.fragments0.fragmentId = 0 then { file with fragments0 := frag }
   else { file with fragments1 := frag })

/-- What a caller passes: an id that is not zero and `size` bytes. `malloc` as above. -/
structure FragmentCall where
  fragmentId : ℕ
  data : List UInt8
  malloc : Bool
  fragmentId_pos : 0 < fragmentId
  fragmentId_lt : fragmentId < 2 ^ 8
  size_lt : data.length < 2 ^ 64
  deriving DecidableEq

/-- A container, and which of its `fragment_bytes` are not `NULL`. -/
structure ContainerMemory where
  file : XFileContainer
  held0 : Bool
  held1 : Bool
  deriving DecidableEq, Repr

def ContainerMemory.fresh (fileName : List UInt8) (fileId totalSize fragmentCountTotal : ℕ) :
    ContainerMemory :=
  ⟨freshContainer fileName fileId totalSize fragmentCountTotal, false, false⟩

/-- `xfileserver_add_fragment` with its pointers. -/
def ContainerMemory.addFragment (m : ContainerMemory) (call : FragmentCall) :
    EFileAddFragStatus × ContainerMemory :=
  let (status, file) :=
    xfileserverAddFragment call.malloc m.file call.fragmentId call.data call.data.length
  (status,
   if m.file.fragments0.fragmentId = 0 then ⟨file, call.malloc, m.held1⟩
   else ⟨file, m.held0, call.malloc⟩)

/-- The first slot with the id, as `xprocedure_send_fragment` looks for it. -/
def XFileContainer.fragment (fc : XFileContainer) (fragmentId : ℕ) : Option XFileFragment :=
  [fc.fragments0, fc.fragments1].find? fun fr => fr.fragmentId = fragmentId

def xfileserverFindFile (idx : XFileServer) (id : ℕ) : Option ℕ :=
  idx.files.findIdx? (·.fileId = id)

def XFileServer.found (idx : XFileServer) (id : ℕ) : Option XFileContainer :=
  (xfileserverFindFile idx id).bind fun slot => idx.files[slot]?

def strEq (a b : List UInt8) : Bool := cstr a = cstr b

def xfileserverFindFileByName (idx : XFileServer) (name : List UInt8) : Option ℕ :=
  idx.files.findIdx? (fun f => strEq f.fileName (name.set 199 0))

/-- What a write through a container pointer does to the store. -/
def XFileServer.update (fs : XFileServer) (slot : ℕ) (f : XFileContainer → XFileContainer) :
    XFileServer := ⟨fs.files.modify slot f⟩

structure XFragmentNetworkPointer where
  fragment : ℕ
  size : ℕ
  nodeId : ℕ
  deriving DecidableEq, Repr

/-- The entry `calloc` leaves behind. -/
def XFragmentNetworkPointer.zero : XFragmentNetworkPointer := ⟨0, 0, 0⟩

structure XFileInNetwork where
  fileId : ℕ
  totalFragments : ℕ
  fragments : List XFragmentNetworkPointer
  deriving DecidableEq, Repr

/-- The linked list from `files` on, and its counter. -/
structure XFileNetworkIndex where
  files : List XFileInNetwork
  fileCount : ℕ
  deriving DecidableEq, Repr

def xfilenetindexInit : XFileNetworkIndex := ⟨[], 0⟩

def xfilenetindexNewFile (fileId fragmentCount : ℕ) : XFileInNetwork :=
  ⟨u16 fileId, u64 fragmentCount, List.replicate (u64 fragmentCount) .zero⟩

def xfilenetindexAddFile (net : XFileNetworkIndex) (file : XFileInNetwork) : XFileNetworkIndex :=
  ⟨net.files ++ [file], u16 (net.fileCount + 1)⟩

def xfilenetindexFindFile (net : XFileNetworkIndex) (fileId : ℕ) : Option ℕ :=
  net.files.findIdx? (·.fileId = u16 fileId)

def XFileNetworkIndex.found (net : XFileNetworkIndex) (fileId : ℕ) : Option XFileInNetwork :=
  (xfilenetindexFindFile net fileId).bind fun slot => net.files[slot]?

def XFileNetworkIndex.update (net : XFileNetworkIndex) (slot : ℕ)
    (f : XFileInNetwork → XFileInNetwork) : XFileNetworkIndex :=
  { net with files := net.files.modify slot f }

/-! ## Lookups -/

theorem XFileServer.found_eq (fs : XFileServer) (id : ℕ) :
    fs.found id = Keyed.get XFileContainer.fileId fs.files id :=
  Keyed.slot_bind_getElem? _ fs.files id

theorem xfileserverFindFile_eq_none_iff {fs : XFileServer} {id : ℕ} :
    xfileserverFindFile fs id = none ↔ fs.found id = none := by
  rw [XFileServer.found_eq]
  exact Keyed.slot_eq_none_iff

theorem XFileServer.exists_slot {fs : XFileServer} {id : ℕ} {fc : XFileContainer}
    (h : fs.found id = some fc) :
    ∃ slot, xfileserverFindFile fs id = some slot ∧ fs.files[slot]? = some fc :=
  Option.bind_eq_some_iff.mp h

theorem XFileServer.found_addFile (fs : XFileServer) (name : List UInt8) (id size count k : ℕ) :
    (xfileserverAddFile fs name id size count).1.found k =
      (fs.found k).or (if u16 id = k then some (freshContainer name id size count) else none) := by
  rw [XFileServer.found_eq, XFileServer.found_eq, xfileserverAddFile, Keyed.get_append_single]
  rfl

theorem XFileServer.found_update {fs : XFileServer} {id slot : ℕ}
    (h : xfileserverFindFile fs id = some slot) {f : XFileContainer → XFileContainer}
    (hf : ∀ c, (f c).fileId = c.fileId) (k : ℕ) :
    (fs.update slot f).found k = if k = id then (fs.found id).map f else fs.found k := by
  simp only [XFileServer.found_eq]
  exact Keyed.get_modify h hf k

theorem XFileNetworkIndex.found_eq (net : XFileNetworkIndex) (id : ℕ) :
    net.found id = Keyed.get XFileInNetwork.fileId net.files (u16 id) :=
  Keyed.slot_bind_getElem? _ net.files (u16 id)

theorem xfilenetindexFindFile_eq_none_iff {net : XFileNetworkIndex} {id : ℕ} :
    xfilenetindexFindFile net id = none ↔ net.found id = none := by
  rw [XFileNetworkIndex.found_eq]
  exact Keyed.slot_eq_none_iff

theorem XFileNetworkIndex.exists_slot {net : XFileNetworkIndex} {id : ℕ} {f : XFileInNetwork}
    (h : net.found id = some f) :
    ∃ slot, xfilenetindexFindFile net id = some slot ∧ net.files[slot]? = some f :=
  Option.bind_eq_some_iff.mp h

theorem XFileNetworkIndex.found_addFile (net : XFileNetworkIndex) (f : XFileInNetwork) (k : ℕ) :
    (xfilenetindexAddFile net f).found k =
      (net.found k).or (if f.fileId = u16 k then some f else none) := by
  rw [XFileNetworkIndex.found_eq, XFileNetworkIndex.found_eq, xfilenetindexAddFile,
    Keyed.get_append_single]

theorem XFileNetworkIndex.found_update {net : XFileNetworkIndex} {id slot : ℕ}
    (h : xfilenetindexFindFile net id = some slot) {f : XFileInNetwork → XFileInNetwork}
    (hf : ∀ c, (f c).fileId = c.fileId) (k : ℕ) :
    (net.update slot f).found k =
      if u16 k = u16 id then (net.found id).map f else net.found k := by
  simp only [XFileNetworkIndex.found_eq]
  exact Keyed.get_modify h hf (u16 k)

end DSS
