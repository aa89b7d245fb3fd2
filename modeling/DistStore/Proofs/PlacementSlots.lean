import DistStore.Model.PeerTable
import Mathlib.Data.List.Count

/-! The positions of the peer table that placing a file computes. The round of fragment `i`
starts at the `i`-th peer that has an address, and past the known peers when there is none. -/

namespace DSS

/-- The peers with an address among the first `k` positions. -/
def openPeers (d : XIndexData) (k : ℕ) : ℕ :=
  (List.range k).countP fun x => (d.peerIps.getD x Address.zero).port ≠ 0

theorem openPeers_succ (d : XIndexData) (k : ℕ) :
    openPeers d (k + 1) =
      openPeers d k + if (d.peerIps.getD k Address.zero).port ≠ 0 then 1 else 0 := by
  simp [openPeers, List.range_succ, List.countP_append, List.countP_cons]

theorem openPeers_mono (d : XIndexData) {a b : ℕ} (h : a ≤ b) : openPeers d a ≤ openPeers d b := by
  induction b, h using Nat.le_induction with
  | base => exact le_rfl
  | succ b _ ih =>
    rw [openPeers_succ]
    exact ih.trans (Nat.le_add_right ..)

theorem openPeers_closed {d : XIndexData} {a b : ℕ} (h : a ≤ b)
    (hclosed : ∀ x, a ≤ x → x < b → (d.peerIps.getD x Address.zero).port = 0) :
    openPeers d b = openPeers d a := by
  induction b, h using Nat.le_induction with
  | base => rfl
  | succ b hab ih =>
    rw [openPeers_succ, ih fun x hx hxb => hclosed x hx (by omega), hclosed b hab (by omega)]
    simp

/-! ## Where a round starts -/

/-- The walk past closed ports ends at an open one, or where the known peers end. -/
theorem skipDeadPeers_spec (d : XIndexData) (i r off : ℕ) :
    off ≤ skipDeadPeers d i r off ∧ skipDeadPeers d i r off ≤ off + r ∧
      (∀ x, i + off ≤ x → x < i + skipDeadPeers d i r off →
        (d.peerIps.getD x Address.zero).port = 0) ∧
      (skipDeadPeers d i r off < off + r →
        (d.peerIps.getD (i + skipDeadPeers d i r off) Address.zero).port ≠ 0) := by
  induction r generalizing off with
  | zero =>
    rw [skipDeadPeers]
    exact ⟨le_rfl, le_rfl, fun x h1 h2 => by omega, fun h => by omega⟩
  | succ r ih =>
    rw [skipDeadPeers]
    split_ifs with h
    · obtain ⟨hle, hlt, hclosed, hopen⟩ := ih (off + 1)
      refine ⟨by omega, by omega, fun x h1 h2 => ?_, fun hr => hopen (by omega)⟩
      rcases Nat.eq_or_lt_of_le h1 with rfl | h1
      · exact h
      · exact hclosed x (by omega) h2
    · exact ⟨le_rfl, by omega, fun x h1 h2 => by omega, fun _ => h⟩

theorem mem_skipSlots {d : XIndexData} {i r off : ℕ} {s : ℤ} (h : s ∈ skipSlots d i r off) :
    ∃ x : ℕ, s = x ∧ x < i + off + r ∧ 0 < r := by
  induction r generalizing off with
  | zero => simp [skipSlots] at h
  | succ r ih =>
    rw [skipSlots, List.mem_cons] at h
    rcases h with rfl | h
    · exact ⟨i + off, rfl, by omega, r.succ_pos⟩
    · split_ifs at h
      · obtain ⟨x, hx, hlt, -⟩ := ih h
        exact ⟨x, hx, by omega, r.succ_pos⟩
      · exact absurd h (List.not_mem_nil)

theorem startNode_eq (d : XIndexData) (i : ℕ) :
    startNode d i = i + skipDeadPeers d i (d.knownPeers - (i + offsetBefore d i)) (offsetBefore d i) :=
  rfl

/-- Round `i` begins with `i` open ports behind it, as long as there are so many. -/
theorem openPeers_offsetBefore {d : XIndexData} {i : ℕ} (h : i ≤ openPeers d d.knownPeers) :
    i + offsetBefore d i ≤ d.knownPeers ∧ openPeers d (i + offsetBefore d i) = i := by
  induction i with
  | zero => exact ⟨Nat.zero_le _, rfl⟩
  | succ i ih =>
    obtain ⟨hle, hcount⟩ := ih (by omega)
    obtain ⟨hoff, hbound, hclosed, hopen⟩ :=
      skipDeadPeers_spec d i (d.knownPeers - (i + offsetBefore d i)) (offsetBefore d i)
    rw [offsetBefore]
    generalize hq : skipDeadPeers d i (d.knownPeers - (i + offsetBefore d i)) (offsetBefore d i) = q
      at hoff hbound hclosed hopen
    have hbefore : openPeers d (i + q) = i := by
      rw [openPeers_closed (by omega) hclosed, hcount]
    have hlt : i + q < d.knownPeers := by
      rcases Nat.lt_or_ge (i + q) d.knownPeers with hlt | hge
      · exact hlt
      · have hend : i + q = d.knownPeers := by omega
        rw [hend] at hbefore
        omega
    refine ⟨by omega, ?_⟩
    rw [show i + 1 + q = i + q + 1 by omega, openPeers_succ, hbefore, if_pos (hopen (by omega))]

/-- Fragment `i` starts at an open port if there are more than `i`. -/
theorem startNode_open {d : XIndexData} {i : ℕ} (h : i < openPeers d d.knownPeers) :
    startNode d i < d.knownPeers ∧ (d.peerIps.getD (startNode d i) Address.zero).port ≠ 0 := by
  obtain ⟨hle, hcount⟩ := openPeers_offsetBefore (Nat.le_of_lt h)
  obtain ⟨hle', hcount'⟩ := openPeers_offsetBefore (show i + 1 ≤ openPeers d d.knownPeers from h)
  obtain ⟨hoff, hbound, hclosed, hopen⟩ :=
    skipDeadPeers_spec d i (d.knownPeers - (i + offsetBefore d i)) (offsetBefore d i)
  rw [offsetBefore] at hle'
  rw [startNode_eq]
  exact ⟨by omega, hopen (by omega)⟩

/-- The first fragment without an open port of its own starts past the known peers. -/
theorem startNode_last (d : XIndexData) :
    startNode d (openPeers d d.knownPeers) = d.knownPeers := by
  obtain ⟨hle, hcount⟩ := openPeers_offsetBefore (le_refl (openPeers d d.knownPeers))
  generalize hL : openPeers d d.knownPeers = L at hle hcount
  obtain ⟨hoff, hbound, hclosed, hopen⟩ :=
    skipDeadPeers_spec d L (d.knownPeers - (L + offsetBefore d L)) (offsetBefore d L)
  rw [startNode_eq]
  generalize hq : skipDeadPeers d L (d.knownPeers - (L + offsetBefore d L)) (offsetBefore d L) = q
    at hoff hbound hclosed hopen
  by_contra hne
  have hlt : L + q < d.knownPeers := by omega
  have hbefore : openPeers d (L + q) = L := by
    rw [openPeers_closed (by omega) hclosed, hcount]
  have hmore := openPeers_mono d (show L + q + 1 ≤ d.knownPeers from hlt)
  rw [openPeers_succ, hbefore, if_pos (hopen (by omega)), hL] at hmore
  omega

/-! ## The nodes a round tries -/

def InTable (n : ℕ) (s : ℤ) : Prop := 0 ≤ s ∧ s < n

theorem peerSlot_eq {m : ℕ} (h1 : 1 ≤ m) (hm : m ≤ 2 ^ 31) : peerSlot m = m - 1 := by
  rw [peerSlot, dec64_of_pos (by omega) (by omega), cInt_of_lt (by omega)]
  omega

theorem inTable_peerSlot {m n : ℕ} (h1 : 1 ≤ m) (hm : m ≤ 2 ^ 31) :
    InTable n (peerSlot m) ↔ m ≤ n := by
  rw [peerSlot_eq h1 hm, InTable]
  omega

section replicas

variable {sv : Server} {n node : ℕ}

theorem inTable_validNodeSlots (hn : n < 2 ^ 31) {m : ℕ} (hm : m ≤ n) {s : ℤ}
    (hs : s ∈ validNodeSlots sv m) : InTable n s := by
  rw [validNodeSlots] at hs
  split_ifs at hs with h
  · exact absurd hs List.not_mem_nil
  · rw [List.mem_singleton] at hs
    rw [hs, inTable_peerSlot (by omega) (by omega)]
    exact hm

theorem replicaSlots_done {r tries j : ℕ} (hj : REDUNDANCY ≤ j) :
    replicaSlots sv node r tries j = [] := by
  cases r with
  | zero => rfl
  | succ r => rw [replicaSlots, if_neg (by omega)]

/-- Once one replica is placed, the index itself ends the search at the latest. -/
theorem inTable_replicaSlots_second (hme : sv.me.nodeId = n) (hn : n < 2 ^ 31)
    (hsum : n ≤ u64 (sv.netSize + sv.deathCount)) {r tries j : ℕ} (hj : 1 ≤ j)
    (hlt : node + tries < n) {s : ℤ} (hs : s ∈ replicaSlots sv node r tries j) : InTable n s := by
  induction r generalizing tries j with
  | zero => exact absurd hs List.not_mem_nil
  | succ r ih =>
    rw [replicaSlots] at hs
    split_ifs at hs with hgo
    · rw [Nat.mod_eq_of_lt (by omega), List.mem_append] at hs
      rcases hs with hs | hs
      · exact inTable_validNodeSlots hn (by omega) hs
      · split_ifs at hs with hvalid
        · rw [replicaSlots_done (by simp only [REDUNDANCY]; omega)] at hs
          exact absurd hs List.not_mem_nil
        · have hnot : node + tries + 1 ≠ n := by
            intro h
            rw [serverIsValidNode, if_neg (by omega), if_pos (by omega)] at hvalid
            exact hvalid rfl
          exact ih hj (by omega) hs
    · exact absurd hs List.not_mem_nil

/-- A round that starts at an open port stays in the table. -/
theorem inTable_replicaSlots_open (hme : sv.me.nodeId = n) (hn : n < 2 ^ 31) {d : XIndexData}
    (hd : sv.indexData = some d) (hsum : n ≤ u64 (sv.netSize + sv.deathCount)) (hnode : node + 1 < n)
    (hopen : (d.peerIps.getD node Address.zero).port ≠ 0) {r : ℕ} {s : ℤ}
    (hs : s ∈ replicaSlots sv node r 0 0) : InTable n s := by
  have hvalid : serverIsValidNode sv (node + 1) = true := by
    rw [serverIsValidNode, if_neg (by omega), if_neg (by omega), hd]
    simpa [XIndexData.peerIp] using hopen
  cases r with
  | zero => exact absurd hs List.not_mem_nil
  | succ r =>
    rw [replicaSlots, Nat.add_zero, Nat.mod_eq_of_lt (by omega)] at hs
    split_ifs at hs with hgo
    · simp only [hvalid, if_true, List.mem_append] at hs
      rcases hs with hs | hs
      · exact inTable_validNodeSlots hn (by omega) hs
      · exact inTable_replicaSlots_second hme hn hsum le_rfl (by omega) hs
    · exact absurd hs List.not_mem_nil

/-- With no more node numbers than the table has addresses, every round stays in it. -/
theorem inTable_replicaSlots_small (hn : n < 2 ^ 31)
    (hsum : u64 (sv.netSize + sv.deathCount) ≤ n) {r tries j : ℕ} {s : ℤ}
    (hs : s ∈ replicaSlots sv node r tries j) : InTable n s := by
  induction r generalizing tries j with
  | zero => exact absurd hs List.not_mem_nil
  | succ r ih =>
    rw [replicaSlots] at hs
    split_ifs at hs with hgo
    · rw [List.mem_append] at hs
      rcases hs with hs | hs
      · have hmod := Nat.mod_lt (node + tries) (Nat.pos_of_ne_zero hgo.2)
        exact inTable_validNodeSlots hn (by omega) hs
      · exact ih hs
    · exact absurd hs List.not_mem_nil

/-- A round that starts at the index itself goes on to the number after it. -/
theorem not_inTable_replicaSlots_last (hme : sv.me.nodeId = n) (hn : n < 2 ^ 31) (h2 : 2 ≤ n)
    (hsum : n < u64 (sv.netSize + sv.deathCount)) :
    ∃ s ∈ replicaSlots sv (n - 1) n 0 0, ¬ InTable n s := by
  obtain ⟨r, rfl⟩ := Nat.exists_eq_add_of_le h2
  have hself : serverIsValidNode sv (2 + r) = true := by
    rw [serverIsValidNode, if_neg (by omega), if_pos hme.symm]
  refine ⟨peerSlot (2 + r + 1), ?_, ?_⟩
  · have hslot : validNodeSlots sv (2 + r + 1) = [peerSlot (2 + r + 1)] := by
      rw [validNodeSlots, if_neg (by omega)]
    -- the first try is the index itself, the second the number after it
    have hsecond : peerSlot (2 + r + 1) ∈ replicaSlots sv (2 + r - 1) (r + 1) 1 1 := by
      rw [replicaSlots, if_pos ⟨by decide, by omega⟩, Nat.mod_eq_of_lt (by omega),
        show 2 + r - 1 + 1 + 1 = 2 + r + 1 by omega]
      dsimp only
      rw [hslot]
      simp
    rw [show replicaSlots sv (2 + r - 1) (2 + r) 0 0 = replicaSlots sv (2 + r - 1) (r + 1 + 1) 0 0 by
      rw [show 2 + r = r + 1 + 1 by omega], replicaSlots, if_pos ⟨by decide, by omega⟩,
      Nat.mod_eq_of_lt (by omega), show 2 + r - 1 + 0 + 1 = 2 + r by omega]
    dsimp only
    rw [hself, if_pos rfl]
    exact List.mem_append_right _ hsecond
  · rw [inTable_peerSlot (by omega) (by omega)]
    omega

end replicas

/-! ## A whole file -/

/-- Placing a file of `fragcount` fragments is within the peers that have an address. -/
def FitsPeers (sv : Server) (d : XIndexData) (fragcount : ℕ) : Prop :=
  u64 (sv.netSize + sv.deathCount) ≤ sv.me.nodeId ∨ fragcount ≤ openPeers d d.knownPeers ∨
    (sv.me.nodeId = 1 ∧ fragcount ≤ 1)

instance (sv : Server) (d : XIndexData) (fragcount : ℕ) : Decidable (FitsPeers sv d fragcount) :=
  inferInstanceAs (Decidable (_ ∨ _ ∨ _))

theorem offsetBefore_zero {d : XIndexData} (h : d.knownPeers = 0) (i : ℕ) : offsetBefore d i = 0 := by
  induction i with
  | zero => rfl
  | succ i ih => rw [offsetBefore, ih, h, Nat.zero_sub, skipDeadPeers]

/-- The index knows all nodes before it: placing a file stays in the table exactly when it
fits the peers. -/
theorem newFileSlots_inTable_iff {sv : Server} {n : ℕ} (hme : sv.me.nodeId = n) (h1 : 1 ≤ n)
    (hn : n < 2 ^ 31) {d : XIndexData} (hd : sv.indexData = some d) (hknown : d.knownPeers = n - 1)
    (fragcount : ℕ) :
    (∀ s ∈ newFileSlots sv d fragcount, InTable n s) ↔ FitsPeers sv d fragcount := by
  simp only [newFileSlots, List.mem_flatMap, List.mem_append, List.mem_range]
  constructor
  · intro h
    by_contra hno
    simp only [FitsPeers, hme, not_or, not_le, not_and] at hno
    obtain ⟨hsum, hopen, hone⟩ := hno
    rcases Nat.lt_or_ge 1 n with h2 | h2
    · obtain ⟨s, hs, hout⟩ := not_inTable_replicaSlots_last hme hn h2 hsum
      refine hout (h s ⟨_, hopen, .inr ?_⟩)
      rw [startNode_last, hknown, Nat.sub_add_cancel h1]
      exact hs
    · obtain rfl : n = 1 := by omega
      have hk : d.knownPeers = 0 := hknown
      have hmem : peerSlot 2 ∈ replicaSlots sv 1 1 0 0 := by
        rw [replicaSlots, if_pos ⟨by decide, by omega⟩, Nat.add_zero, Nat.mod_eq_of_lt (by omega)]
        dsimp only
        rw [validNodeSlots, if_neg (by omega)]
        simp
      have hin := h (peerSlot 2) ⟨1, hone rfl, .inr (by
        rwa [startNode, offsetBefore_zero hk, hk])⟩
      rw [inTable_peerSlot (by omega) (by omega)] at hin
      omega
  · rintro hfits s ⟨i, hi, hs | hs⟩
    · obtain ⟨x, rfl, hx, hpos⟩ := mem_skipSlots hs
      exact ⟨by omega, by omega⟩
    · rcases Nat.lt_or_ge n (u64 (sv.netSize + sv.deathCount)) with hsum | hsum
      · rcases hfits with hsmall | hfew | ⟨hone, hle⟩
        · omega
        · obtain ⟨hlt, hport⟩ := startNode_open (hi.trans_le hfew)
          exact inTable_replicaSlots_open hme hn hd hsum.le (by omega) hport hs
        · have hk : d.knownPeers = 0 := by omega
          obtain rfl : i = 0 := by omega
          rw [startNode, offsetBefore_zero hk, hk, replicaSlots] at hs
          split_ifs at hs
          · rw [Nat.mod_eq_of_lt (by omega)] at hs
            dsimp only at hs
            rw [validNodeSlots, if_pos (.inr (by omega)), List.nil_append, replicaSlots] at hs
            exact absurd hs List.not_mem_nil
          · exact absurd hs List.not_mem_nil
      · exact inTable_replicaSlots_small hn hsum hs

end DSS
