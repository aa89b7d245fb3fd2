import DistStore.Lib.Counter
import DistStore.Model.FileServer

/-! `xfileserver_free_file`, on a container with its pointers. -/

namespace DSS

def XFileContainer.zero : XFileContainer := ⟨char200 [], 0, 0, 0, .zero, .zero⟩

/-- A container with the pointers `fragment_bytes` of its two slots, and the buffers that were
allocated for it, oldest first. -/
structure ContainerHeap where
  file : XFileContainer
  bytes0 : Option ℕ
  bytes1 : Option ℕ
  buffers : List ℕ
  deriving DecidableEq, Repr

namespace ContainerHeap

def addFile (fileName : List UInt8) (fileId totalSize fragmentCountTotal : ℕ) : ContainerHeap :=
  ⟨freshContainer fileName fileId totalSize fragmentCountTotal, none, none, []⟩

structure Fragment where
  fragmentId : ℕ
  data : List UInt8
  deriving DecidableEq, Repr

/-- `xfileserver_add_fragment` where `malloc` gives a buffer, with a new name. -/
def addFragment (m : ContainerHeap) (frag : Fragment) : ContainerHeap :=
  let (_, file) := xfileserverAddFragment true m.file frag.fragmentId frag.data frag.data.length
  let buffer := m.buffers.length
  if m.file.fragments0.fragmentId = 0 then ⟨file, some buffer, m.bytes1, m.buffers ++ [buffer]⟩
  else ⟨file, m.bytes0, some buffer, m.buffers ++ [buffer]⟩

/-- `fragments[i].fragment_bytes`: `none` outside of the array. -/
def fragmentBytes (m : ContainerHeap) (i : ℕ) : Option (Option ℕ) := [m.bytes0, m.bytes1][i]?

/-- `xfileserver_free_file`: what it gives to `free`, and the container afterwards. `i` is a
`uint8_t`, which takes fewer than 256 values. -/
def freeFile (m : ContainerHeap) : Option (List (Option ℕ) × ContainerHeap) := do
  let freed ← Counter.loop 8 (· < m.file.fragmentCountTotal) m.fragmentBytes (2 ^ 8) 0
  return (freed, ⟨.zero, none, none, m.buffers⟩)

/-- No slot outside of the array is read, each buffer is freed once, and the container is
cleared. (`free(NULL)` does nothing.) -/
def FreesExactly (m : ContainerHeap) : Prop :=
  ∃ freed m', m.freeFile = some (freed, m') ∧ (freed.filterMap id).Perm m.buffers ∧
    m'.file = .zero ∧ m'.bytes0 = none ∧ m'.bytes1 = none

def filled (fileName : List UInt8) (fileId totalSize fragmentCountTotal : ℕ)
    (frags : List Fragment) : ContainerHeap :=
  frags.foldl addFragment (addFile fileName fileId totalSize fragmentCountTotal)

end ContainerHeap

end DSS
