import DistStore.Model.MainLoop

/-! The divisors of the main loop: the number of fragments of a new file, of a file that is
fanned out, and of one that is collected. -/

namespace DSS

namespace MainLoop

def divisors (st : MainLoop) : List ℤ :=
  match st.sv.state with
  | .indexHandleNewFile => [fragcountOf st.sv.netSize st.raw.totalSize]
  | .indexFanoutFragments =>
    ((st.node.fs.files[st.file]?.bind fun fc => st.node.fnetidx.found fc.fileId).map
      fun f => (f.totalFragments / REDUNDANCY : ℤ)).toList
  | .waitRequestFragments =>
    if st.requested.fragmentCount ≠ st.requested.fragmentFound then [st.requested.fragmentCount]
    else []
  | _ => []

/-- A file is about to be cut into `net_size` fragments. -/
def SplitsFile (st : MainLoop) : Prop :=
  st.sv.state = .indexHandleNewFile ∧ st.sv.netSize < st.raw.totalSize ∧
    MINIMAL_SIZE_FOR_SPLIT < st.raw.totalSize

instance (st : MainLoop) : Decidable st.SplitsFile := inferInstanceAs (Decidable (_ ∧ _ ∧ _))

/-- The divisors are not zero, and a file that is split finds a node. -/
def NoZeroDivisor (st : MainLoop) : Prop :=
  (∀ x ∈ st.divisors, x ≠ 0) ∧ (st.SplitsFile → 1 ≤ st.sv.netSize)

instance (st : MainLoop) : Decidable st.NoZeroDivisor := inferInstanceAs (Decidable (_ ∧ _))

end MainLoop

end DSS
