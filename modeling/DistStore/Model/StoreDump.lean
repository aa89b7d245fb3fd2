import DistStore.Lib.Counter
import DistStore.Model.FileTable

/-! `xfileserver_debug`, which prints the store: its loops over the containers and over the
numbers of a file's fragments, each with a counter as wide as the count it is compared with. -/

namespace DSS

/-- In the C locale. -/
def isprint (c : UInt8) : Bool := 32 ≤ c.toNat && c.toNat ≤ 126

/-- The line of a fragment number. -/
inductive DumpedFragment where
  | elsewhere (f : ℕ)
  | here (fragmentId fragmentSize : ℕ) (preview : List UInt8)
  deriving DecidableEq, Repr

def DumpedFragment.number : DumpedFragment → ℕ
  | .elsewhere f => f
  | .here fragmentId _ _ => fragmentId

structure DumpedFile where
  index : ℕ
  fileName : List UInt8
  fileId : ℕ
  size : ℕ
  fragmentCountTotal : ℕ
  fragments : List DumpedFragment
  deriving DecidableEq, Repr

structure StoreDump where
  totalFiles : ℕ
  files : List DumpedFile
  deriving DecidableEq, Repr

/-- The slot with that number; of two, the second. -/
def XFileContainer.lastFragment (file : XFileContainer) (f : ℕ) : Option XFileFragment :=
  [file.fragments0, file.fragments1].foldl
    (fun frag fr => if fr.fragmentId = f then some fr else frag) none

/-- One round of the inner loop. A preview that reads outside of `fragment_bytes` is `none`. -/
def dumpFragment (file : XFileContainer) (f : ℕ) : Option DumpedFragment :=
  match file.lastFragment f with
  | none => some (.elsewhere f)
  | some frag => do
    let previewLen := if frag.fragmentSize < 10 then frag.fragmentSize else 10
    let bytes ← readBuffer frag.fragmentBytes 0 previewLen
    return .here frag.fragmentId frag.fragmentSize (bytes.map fun c => if isprint c then c else 46)

/-- One round of the outer loop. `f` is a `uint8_t`. -/
def dumpFile (fuel : ℕ) (fs : FileTable) (i : ℕ) : Option DumpedFile := do
  let file := fs.slots i
  let fragments ← Counter.loop 8 (· ≤ file.fragmentCountTotal) (dumpFragment file) fuel 1
  return ⟨i, cstr file.fileName, file.fileId, file.size, file.fragmentCountTotal, fragments⟩

/-- `xfileserver_debug`, if `fuel` tests are enough for each loop. `i` is a `uint16_t`. -/
def xfileserverDebug (fuel : ℕ) (fs : FileTable) : Option StoreDump := do
  let files ← Counter.loop 16 (· < fs.fileCount) (dumpFile fuel fs) fuel 0
  return ⟨fs.fileCount, files⟩

inductive StoreOp where
  | add (op : TableOp)
  /-- A call of `xfileserver_add_fragment` that stores the fragment, or the like in
  `SERVER_INDEX_FANOUT_FRAGMENTS`. -/
  | addFragment (slot fragmentId : ℕ) (data : List UInt8)
  deriving DecidableEq, Repr

namespace FileTable

def afterStore (t : FileTable) : StoreOp → FileTable
  | .add op => t.after op
  | .addFragment slot fragmentId data =>
    let file := (xfileserverAddFragment true (t.slots slot) fragmentId data data.length).2
    ⟨Function.update t.slots slot file, t.fileCount⟩

def storeStep (t : FileTable) (op : StoreOp) : Option FileTable := some (t.afterStore op)

/-- The dump ends, and has visited each container and each of its fragment numbers once. -/
def DumpsOnce (t : FileTable) : Prop :=
  ∃ fuel d, xfileserverDebug fuel t = some d ∧ d.files.map (·.index) = List.range t.fileCount ∧
    ∀ file ∈ d.files, file.fragments.map (·.number) =
      List.range' 1 (t.slots file.index).fragmentCountTotal

/-- The operation adds a container of 255 fragments. (The container after number 65534 would
set `file_count` back to 0.) -/
def Adds255 (op : StoreOp) (t : FileTable) : Prop :=
  match op with
  | .add op => ∃ c ∈ t.call op, u8 c.fragmentCountTotal = 255 ∧ t.fileCount + 1 < 2 ^ 16
  | .addFragment _ _ _ => False

end FileTable

end DSS
