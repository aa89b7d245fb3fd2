import DistStore.Proofs.RawTransfer

/-! The copies of the receiving loops. A loop copies what each `recv` brings behind what it
has, without a look at the size of its buffer or at an error. -/

namespace DSS

/-- The `memcpy` of one round: `p.size` bytes to `file_buffer + populated`. -/
structure Memcpy where
  offset : ℤ
  length : ℤ
  deriving DecidableEq, Repr

def Memcpy.Inside (c : Memcpy) (allocated : ℕ) : Prop :=
  0 ≤ c.offset ∧ 0 ≤ c.length ∧ c.offset + c.length ≤ allocated

instance (c : Memcpy) (allocated : ℕ) : Decidable (c.Inside allocated) :=
  inferInstanceAs (Decidable (_ ∧ _))

def recvSize : Recv → ℤ
  | none => -1
  | some bs => bs.length

/-- The copies of a loop of `n` rounds. `populated` is an `int`: it could wrap only after a copy
that is already outside of every buffer. -/
def receiveMemcpys : ℕ → ℤ → List Recv → List Memcpy
  | 0, _, _ => []
  | _ + 1, _, [] => []
  | n + 1, populated, r :: rs =>
    ⟨populated, recvSize r⟩ :: receiveMemcpys n (populated + recvSize r) rs

variable {n : ℕ} {rs : List Recv} {forward : Bool} {st : RawLoop}

theorem bytesReceived_cons (bs : XPacket) (rs : List Recv) :
    bytesReceived (some bs :: rs) = bs.length + bytesReceived rs := by
  show (bs :: rs.filterMap id).flatten.length = _
  rw [List.flatten_cons, List.length_append, bytesReceived]

theorem not_inside_error (off : ℤ) (allocated : ℕ) :
    ¬ (⟨off, recvSize none⟩ : Memcpy).Inside allocated := by
  rintro ⟨-, hneg, -⟩
  change 0 ≤ (-1 : ℤ) at hneg
  omega

theorem inside_some_iff {off allocated : ℕ} {bs : XPacket} :
    (⟨off, recvSize (some bs)⟩ : Memcpy).Inside allocated ↔ off + bs.length ≤ allocated := by
  show 0 ≤ (off : ℤ) ∧ 0 ≤ (bs.length : ℤ) ∧ (off : ℤ) + bs.length ≤ allocated ↔ _
  omega

/-- The copies are inside exactly if no result is an error and together they fit. -/
theorem receiveMemcpys_inside_iff {allocated populated : ℕ} (h : populated ≤ allocated) :
    (∀ c ∈ receiveMemcpys n populated rs, c.Inside allocated) ↔
      none ∉ rs.take n ∧ populated + bytesReceived (rs.take n) ≤ allocated := by
  induction n generalizing populated rs with
  | zero => simpa [receiveMemcpys, bytesReceived] using h
  | succ n ih =>
    cases rs with
    | nil => simpa [receiveMemcpys, bytesReceived] using h
    | cons r rs =>
      rw [receiveMemcpys, List.forall_mem_cons, List.take_succ_cons, List.mem_cons, not_or]
      cases r with
      | none =>
        refine iff_of_false (fun hin => not_inside_error _ _ hin.1) ?_
        rintro ⟨⟨herr, -⟩, -⟩
        exact herr rfl
      | some bs =>
        rw [bytesReceived_cons, inside_some_iff, recvSize, ← Nat.cast_add]
        constructor
        · rintro ⟨hfit, hrest⟩
          obtain ⟨herr, hle⟩ := (ih hfit).mp hrest
          exact ⟨⟨(Option.some_ne_none bs).symm, herr⟩, by omega⟩
        · rintro ⟨⟨-, herr⟩, hle⟩
          have hfit : populated + bs.length ≤ allocated := by omega
          exact ⟨hfit, (ih hfit).mpr ⟨herr, by omega⟩⟩

/-- The copies of both receivers are inside what was allocated for the announced size exactly
if none of the results they take is an error and together they are not longer than that. -/
theorem receivers_inside_iff (mem : ℕ → UInt8) (raw : StateRawPackets) (bufferSize : ℕ)
    (rs : List Recv) :
    ((∀ c ∈ receiveMemcpys (rawReceives raw) 0 rs,
        c.Inside (malloc mem (cInt raw.totalSize)).length) ↔
      none ∉ rs.take (rawReceives raw) ∧
        bytesReceived (rs.take (rawReceives raw)) ≤ (cInt raw.totalSize).toNat) ∧
    ((∀ c ∈ receiveMemcpys (largeBufferReceives (cInt bufferSize)) 0 rs,
        c.Inside (malloc mem (cInt bufferSize)).length) ↔
      none ∉ rs.take (largeBufferReceives (cInt bufferSize)) ∧
        bytesReceived (rs.take (largeBufferReceives (cInt bufferSize))) ≤
          (cInt bufferSize).toNat) := by
  have h : ∀ n size, (∀ c ∈ receiveMemcpys n ((0 : ℕ) : ℤ) rs, c.Inside size) ↔ _ :=
    fun n size => receiveMemcpys_inside_iff (Nat.zero_le size)
  rw [malloc_length, malloc_length]
  simp only [Nat.cast_zero, Nat.zero_add] at h
  exact ⟨h _ _, h _ _⟩

/-- Ten bytes are announced: eleven come, or the connection is reset. -/
theorem not_receivers_inside :
    (¬ ∀ c ∈ receiveMemcpys (rawReceives (storingState 10)) 0 [some (List.replicate 11 7)],
      c.Inside (malloc (fun _ => 0) (cInt (storingState 10).totalSize)).length) ∧
    (¬ ∀ c ∈ receiveMemcpys (largeBufferReceives (cInt 10)) 0 [none],
      c.Inside (malloc (fun _ => 0) (cInt 10)).length) := by
  constructor
  · decide +kernel
  · decide +kernel

end DSS
