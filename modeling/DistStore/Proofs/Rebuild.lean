import DistStore.Proofs.Placement

/-! Rebuilding the table of a file from the reports of its holders. A holder's two
fragment ids tell where its entries go; whatever subset of the holders reports,
and in whatever order, each fragment gets back the entries of those that did. -/

namespace DSS

open Pairs

/-! ## What a holder stores -/

/-- The container after `entries` were stored in it in order. -/
def fillContainer (data : XFragmentNetworkPointer → List UInt8) (c : XFileContainer)
    (entries : List XFragmentNetworkPointer) : XFileContainer :=
  entries.foldl (fun c e => (xfileserverAddFragment true c e.fragment (data e) e.size).2) c

def storedFragment (data : XFragmentNetworkPointer → List UInt8) (e : XFragmentNetworkPointer) :
    XFileFragment := ⟨u8 e.fragment, (data e).take e.size, u64 e.size⟩

section fill

variable {data : XFragmentNetworkPointer → List UInt8} {c : XFileContainer}

theorem fillContainer_one (hc : c.fragments0.fragmentId = 0) (a : XFragmentNetworkPointer) :
    fillContainer data c [a] = { c with fragments0 := storedFragment data a } := by
  simp [fillContainer, xfileserverAddFragment, hc, storedFragment]

theorem fillContainer_two (hc : c.fragments0.fragmentId = 0) {a : XFragmentNetworkPointer}
    (ha : u8 a.fragment ≠ 0) (b : XFragmentNetworkPointer) :
    fillContainer data c [a, b] =
      { c with fragments0 := storedFragment data a, fragments1 := storedFragment data b } := by
  simp [fillContainer, xfileserverAddFragment, storedFragment, hc, ha]

end fill

/-- An entry whose number and size fit the narrower fields of a container. -/
structure Storable (e : XFragmentNetworkPointer) : Prop where
  pos : e.fragment ≠ 0
  fragment : e.fragment < 2 ^ 8
  size : e.size < 2 ^ 64

theorem Storable.u8_ne_zero {e : XFragmentNetworkPointer} (h : Storable e) : u8 e.fragment ≠ 0 := by
  rw [u8_of_lt h.fragment]
  exact h.pos

theorem reportOf_one {data : XFragmentNetworkPointer → List UInt8} {c : XFileContainer}
    {e : XFragmentNetworkPointer} (h : Storable e) (h0 : c.fragments0.fragmentId = 0)
    (h1 : c.fragments1.fragmentId = 0) :
    reportOf e.nodeId (fillContainer data c [e]) =
      ⟨c.fileName, c.size, c.fileId, c.fragmentCountTotal, e, .zero⟩ := by
  rw [fillContainer_one h0]
  simp [reportOf, storedFragment, u8_of_lt h.fragment, u64_of_lt h.size, h.pos, h1]

theorem reportOf_two {data : XFragmentNetworkPointer → List UInt8} {c : XFileContainer}
    {e e' : XFragmentNetworkPointer} (h : Storable e) (h' : Storable e')
    (hn : e'.nodeId = e.nodeId) (h0 : c.fragments0.fragmentId = 0) :
    reportOf e.nodeId (fillContainer data c [e, e']) =
      ⟨c.fileName, c.size, c.fileId, c.fragmentCountTotal, e, e'⟩ := by
  rw [fillContainer_two h0 h.u8_ne_zero]
  obtain ⟨k', s', n'⟩ := e'
  obtain rfl : n' = e.nodeId := hn
  simp [reportOf, storedFragment, u8_of_lt h.fragment, u64_of_lt h.size, h.pos,
    u8_of_lt h'.fragment, u64_of_lt h'.size, h'.pos]

/-! ## One file placed over the live nodes -/

structure PlacedFile where
  fileName : List UInt8
  fileId : ℕ
  fileSize : ℕ
  /-- The number of fragments. -/
  fc : ℕ
  /-- The size of fragment `i + 1`. -/
  size : ℕ → ℕ
  /-- The bytes an entry stands for. -/
  data : XFragmentNetworkPointer → List UInt8

/-- `f` is a file placed over the live nodes `l`. -/
structure PlacedFile.Over (f : PlacedFile) (l : List ℕ) : Prop where
  sorted : l.Pairwise (· < ·)
  two_le : 2 ≤ l.length
  length_le : l.length ≤ 254
  fileId : f.fileId < 2 ^ 16
  fileSize : f.fileSize < 2 ^ 64
  fc : f.fc = 1 ∨ f.fc = l.length
  size : ∀ i, f.size i < 2 ^ 64

namespace PlacedFile

variable {f : PlacedFile} {l : List ℕ}

def table (f : PlacedFile) (l : List ℕ) : List XFragmentNetworkPointer := placedTable l f.size f.fc

def container (f : PlacedFile) (l : List ℕ) (n : ℕ) : XFileContainer :=
  fillContainer f.data (freshContainer f.fileName f.fileId f.fileSize f.fc)
    (heldEntries (f.table l) n)

def report (f : PlacedFile) (l : List ℕ) (n : ℕ) : XReportFileKnowledge :=
  reportOf n (f.container l n)

def holders (f : PlacedFile) (l : List ℕ) : List ℕ :=
  l.filter fun n => heldEntries (f.table l) n ≠ []

/-- The table with only the entries of the nodes in `rs`. -/
def tableOf (f : PlacedFile) (l rs : List ℕ) : List XFragmentNetworkPointer :=
  pairs (fun i => if l.getD i 0 ∈ rs then primaryEntry l f.size i else .zero)
    (fun i => if l.getD ((i + 1) % l.length) 0 ∈ rs then secondaryEntry l f.size i else .zero) f.fc

def reportWith (f : PlacedFile) (e e' : XFragmentNetworkPointer) : XReportFileKnowledge :=
  ⟨strncpy199 f.fileName, f.fileSize, f.fileId, f.fc, e, e'⟩

namespace Over

theorem nodup (h : f.Over l) : l.Nodup := h.sorted.imp fun h => h.ne

theorem fc_lt (h : f.Over l) : f.fc < 2 ^ 8 := by
  rcases h.fc with h1 | h1 <;> have := h.length_le <;> omega

theorem storable_primary (h : f.Over l) {i : ℕ} (hi : i < l.length) :
    Storable (primaryEntry l f.size i) :=
  ⟨Nat.succ_ne_zero i, by have := h.length_le; simp only [primaryEntry]; omega, h.size i⟩

theorem storable_secondary (h : f.Over l) {i : ℕ} (hi : i < l.length) :
    Storable (secondaryEntry l f.size i) :=
  ⟨Nat.succ_ne_zero i, by have := h.length_le; simp only [secondaryEntry]; omega, h.size i⟩

theorem report_one (h : f.Over l) {e : XFragmentNetworkPointer} (he : Storable e)
    (hn : heldEntries (f.table l) e.nodeId = [e]) :
    f.report l e.nodeId = f.reportWith e .zero := by
  rw [report, container, hn, reportOf_one he rfl rfl]
  simp [freshContainer, reportWith, u16_of_lt h.fileId, u64_of_lt h.fileSize,
    u8_of_lt h.fc_lt]

theorem report_two (h : f.Over l) {e e' : XFragmentNetworkPointer} (he : Storable e)
    (he' : Storable e') (hnn : e'.nodeId = e.nodeId)
    (hn : heldEntries (f.table l) e.nodeId = [e, e']) :
    f.report l e.nodeId = f.reportWith e e' := by
  rw [report, container, hn, reportOf_two he he' hnn rfl]
  simp [freshContainer, reportWith, u16_of_lt h.fileId, u64_of_lt h.fileSize,
    u8_of_lt h.fc_lt]

theorem report_split_first (h : f.Over l) (hfc : f.fc = l.length) :
    f.report l (l.getD 0 0) =
      f.reportWith (primaryEntry l f.size 0) (secondaryEntry l f.size (l.length - 1)) := by
  have h2 := h.two_le
  have hlast : (l.length - 1 + 1) % l.length = 0 := by
    rw [Nat.sub_add_cancel (by omega), Nat.mod_self]
  refine h.report_two (h.storable_primary (by omega)) (h.storable_secondary (by omega)) ?_ ?_
  · simp only [secondaryEntry, primaryEntry, hlast]
  · rw [table, hfc]
    exact heldEntries_split_first h.nodup h.two_le

theorem report_split_next (h : f.Over l) (hfc : f.fc = l.length) {j : ℕ} (h1 : 1 ≤ j)
    (hj : j < l.length) :
    f.report l (l.getD j 0) =
      f.reportWith (secondaryEntry l f.size (j - 1)) (primaryEntry l f.size j) := by
  have hprev : (j - 1 + 1) % l.length = j := by
    rw [Nat.sub_add_cancel h1, Nat.mod_eq_of_lt hj]
  have hnode : (secondaryEntry l f.size (j - 1)).nodeId = l.getD j 0 := by
    simp only [secondaryEntry, hprev]
  rw [← hnode]
  refine h.report_two (h.storable_secondary (by omega)) (h.storable_primary hj) hnode.symm ?_
  rw [hnode, table, hfc]
  exact heldEntries_split_next h.nodup h1 hj

theorem mem_holders_single (h : f.Over l) (hfc : f.fc = 1) {n : ℕ} (hn : n ∈ f.holders l) :
    n = l.getD 0 0 ∨ n = l.getD 1 0 := by
  obtain ⟨hl, hne⟩ := List.mem_filter.mp hn
  obtain ⟨j, hj, rfl⟩ := List.mem_iff_getElem.mp hl
  rw [← List.getD_eq_getElem l 0 hj] at hne ⊢
  rcases (show j = 0 ∨ j = 1 ∨ 2 ≤ j by omega) with rfl | rfl | h2
  · exact .inl rfl
  · exact .inr rfl
  · rw [table, hfc, heldEntries_single_other h.nodup h2 hj] at hne
    simp at hne

theorem report_single_first (h : f.Over l) (hfc : f.fc = 1) :
    f.report l (l.getD 0 0) = f.reportWith (primaryEntry l f.size 0) .zero := by
  refine h.report_one (h.storable_primary (by have := h.two_le; omega)) ?_
  rw [table, hfc]
  exact heldEntries_single_first h.nodup h.two_le

theorem report_single_second (h : f.Over l) (hfc : f.fc = 1) :
    f.report l (l.getD 1 0) = f.reportWith (secondaryEntry l f.size 0) .zero := by
  have h2 := h.two_le
  have hnode : (secondaryEntry l f.size 0).nodeId = l.getD 1 0 := by
    simp only [secondaryEntry, Nat.mod_eq_of_lt (show 0 + 1 < l.length by omega)]
  rw [← hnode]
  refine h.report_one (h.storable_secondary (by omega)) ?_
  rw [hnode, table, hfc]
  exact heldEntries_single_second h.nodup h.two_le

theorem report_ids (h : f.Over l) {n : ℕ} (hn : n ∈ f.holders l) :
    (f.report l n).fileId = f.fileId ∧ (f.report l n).fragCount = f.fc := by
  rcases h.fc with h1 | h1
  · rcases h.mem_holders_single h1 hn with rfl | rfl
    · rw [h.report_single_first h1]
      exact ⟨rfl, rfl⟩
    · rw [h.report_single_second h1]
      exact ⟨rfl, rfl⟩
  · obtain ⟨j, hj, rfl⟩ := List.mem_iff_getElem.mp (List.mem_filter.mp hn).1
    rw [← List.getD_eq_getElem l 0 hj]
    rcases Nat.eq_zero_or_pos j with rfl | h0
    · rw [h.report_split_first h1]
      exact ⟨rfl, rfl⟩
    · rw [h.report_split_next h1 h0 hj]
      exact ⟨rfl, rfl⟩

/-- A node holds no entry, one, or two of different fragments. -/
theorem held_cases (h : f.Over l) {n : ℕ} (hn : n ∈ l) :
    heldEntries (f.table l) n = [] ∨
    (∃ a, Storable a ∧ heldEntries (f.table l) n = [a]) ∨
    ∃ a b, Storable a ∧ Storable b ∧ a.fragment ≠ b.fragment ∧
      heldEntries (f.table l) n = [a, b] := by
  have h2 := h.two_le
  obtain ⟨j, hj, rfl⟩ := List.mem_iff_getElem.mp hn
  rw [← List.getD_eq_getElem l 0 hj]
  rcases h.fc with h1 | h1
  · rcases (show j = 0 ∨ j = 1 ∨ 2 ≤ j by omega) with rfl | rfl | hj2
    · exact .inr (.inl ⟨_, h.storable_primary hj, by
        rw [table, h1]; exact heldEntries_single_first h.nodup h2⟩)
    · exact .inr (.inl ⟨_, h.storable_secondary (i := 0) (by omega), by
        rw [table, h1]; exact heldEntries_single_second h.nodup h2⟩)
    · exact .inl (by rw [table, h1]; exact heldEntries_single_other h.nodup hj2 hj)
  · refine .inr (.inr ?_)
    rcases Nat.eq_zero_or_pos j with rfl | h0
    · exact ⟨_, _, h.storable_primary hj, h.storable_secondary (i := l.length - 1) (by omega),
        by simp only [primaryEntry, secondaryEntry]; omega,
        by rw [table, h1]; exact heldEntries_split_first h.nodup h2⟩
    · exact ⟨_, _, h.storable_secondary (i := j - 1) (by omega), h.storable_primary hj,
        by simp only [primaryEntry, secondaryEntry]; omega,
        by rw [table, h1]; exact heldEntries_split_next h.nodup h0 hj⟩

/-- The slot a search for a held fragment ends at, first slot first. -/
theorem slot_of_held (h : f.Over l) {n : ℕ} (hn : n ∈ l) {e : XFragmentNetworkPointer}
    (he : e ∈ heldEntries (f.table l) n) :
    Storable e ∧ (if (f.container l n).fragments0.fragmentId ≠ e.fragment then
      (f.container l n).fragments1 else (f.container l n).fragments0) =
        ⟨e.fragment, (f.data e).take e.size, e.size⟩ := by
  have hstored : ∀ a, Storable a → storedFragment f.data a =
      ⟨a.fragment, (f.data a).take a.size, a.size⟩ := fun a ha => by
    rw [storedFragment, u8_of_lt ha.fragment, u64_of_lt ha.size]
  rw [container]
  rcases h.held_cases hn with hnil | ⟨a, ha, hone⟩ | ⟨a, b, ha, hb, hne, htwo⟩
  · rw [hnil] at he
    exact absurd he (List.not_mem_nil)
  · rw [hone, List.mem_singleton] at he
    subst he
    rw [hone, fillContainer_one rfl, hstored _ ha]
    exact ⟨ha, by simp⟩
  · rw [htwo] at he
    rw [htwo, fillContainer_two rfl ha.u8_ne_zero, hstored _ ha, hstored _ hb]
    rcases List.mem_pair.mp he with rfl | rfl
    · exact ⟨ha, by simp⟩
    · exact ⟨hb, by simp [hne]⟩

end Over

end PlacedFile

/-! ## Where a report is written -/

section save

variable {p s : ℕ → XFragmentNetworkPointer} {fc : ℕ}

theorem setEntry_even {i : ℕ} (h : i < fc) (e : XFragmentNetworkPointer) :
    setEntry (pairs p s fc) (2 * i) e = some (pairs (Function.update p i e) s fc) := by
  rw [setEntry, if_pos (by rw [pairs_length]; omega), pairs_set_even]

theorem setEntry_odd {i : ℕ} (h : i < fc) (e : XFragmentNetworkPointer) :
    setEntry (pairs p s fc) (2 * i + 1) e = some (pairs p (Function.update s i e) fc) := by
  rw [setEntry, if_pos (by rw [pairs_length]; omega), pairs_set_odd]

/-- Fragment ids more than one apart: the first node of the ring. -/
theorem saveEntries_border {r : XReportFileKnowledge} (hr : r.fragCount = fc) (h2 : 2 ≤ fc)
    (hlt : fc < 2 ^ 8)
    (hd : 1 < (r.fragments1.fragment : ℤ) - r.fragments0.fragment) :
    saveEntries r (pairs p s fc) =
      some (pairs (Function.update p 0 r.fragments0) (Function.update s (fc - 1) r.fragments1) fc) := by
  have hlast : toU64 ((r.fragCount : ℤ) * (REDUNDANCY : ℕ) - 1) = 2 * (fc - 1) + 1 := by
    rw [hr, toU64, REDUNDANCY]
    omega
  have hfirst := setEntry_even (p := p) (s := s) (show 0 < fc by omega) r.fragments0
  simp only [saveEntries]
  rw [if_neg (by omega), if_pos hd, hlast]
  simp only [Nat.mul_zero] at hfirst
  simp only [hfirst, Option.bind_eq_bind, Option.bind_some]
  exact setEntry_odd (by omega) _

/-- Consecutive fragment ids `j`, `j + 1`: the node at position `j`. -/
theorem saveEntries_inner {r : XReportFileKnowledge} {j : ℕ} (hr : r.fragCount = fc)
    (hlt : fc < 2 ^ 8) (h1 : 1 ≤ j) (hj : j < fc) (h0 : r.fragments0.fragment = j)
    (h1' : r.fragments1.fragment = j + 1) (hn : ¬ (fc = 2 ∧ (p 0).fragment = 0)) :
    saveEntries r (pairs p s fc) =
      some (pairs (Function.update p j r.fragments1) (Function.update s (j - 1) r.fragments0) fc) := by
  have hfirst : (pairs p s fc).getD 0 .zero = p 0 := by
    have h := getElem?_pairs_even p s (show 0 < fc by omega)
    rw [Nat.mul_zero] at h
    rw [List.getD_eq_getElem?_getD, h, Option.getD_some]
  have hplace : toU64 (((r.fragments1.fragment : ℤ) - 1) * (REDUNDANCY : ℕ)) = 2 * j := by
    rw [h1', toU64, REDUNDANCY]
    omega
  have hprev : toU64 (((2 * j : ℕ) : ℤ) - 1) = 2 * (j - 1) + 1 := by
    rw [toU64]
    omega
  simp only [saveEntries]
  rw [if_neg (by omega), if_neg (by omega), hfirst, hr, if_neg hn, hplace, hprev]
  simp only [setEntry_odd (p := p) (s := s) (show j - 1 < fc by omega), Option.bind_eq_bind,
    Option.bind_some]
  exact setEntry_even hj _

end save

namespace PlacedFile

variable {f : PlacedFile} {l : List ℕ}

theorem tableOf_congr {rs rs' : List ℕ} (h : ∀ n, n ∈ rs ↔ n ∈ rs') :
    f.tableOf l rs = f.tableOf l rs' := by
  simp only [tableOf, h]

theorem tableOf_nil : f.tableOf l [] = List.replicate (2 * f.fc) .zero := by
  simp only [tableOf, List.not_mem_nil, if_false]
  exact pairs_const ..

/-- A report of the node at `j` adds its two entries. -/
theorem Over.tableOf_cons (h : f.Over l) (hfc : f.fc = l.length) {j i : ℕ} (hj : j < l.length)
    (hi : i < l.length) (hij : (i + 1) % l.length = j) (rs : List ℕ) :
    pairs
      (Function.update (fun i => if l.getD i 0 ∈ rs then primaryEntry l f.size i else .zero) j
        (primaryEntry l f.size j))
      (Function.update (fun i => if l.getD ((i + 1) % l.length) 0 ∈ rs then
        secondaryEntry l f.size i else .zero) i (secondaryEntry l f.size i)) f.fc =
      f.tableOf l (l.getD j 0 :: rs) := by
  refine pairs_congr (fun k hk => ?_) fun k hk => ?_
  · by_cases hkj : k = j
    · subst hkj
      simp
    · have hne : l.getD k 0 ≠ l.getD j 0 := fun e => hkj (getD_inj h.nodup (by omega) hj e)
      simp only [Function.update_of_ne hkj, List.mem_cons, hne, false_or]
  · by_cases hki : k = i
    · subst hki
      simp [hij]
    · have hne : l.getD ((k + 1) % l.length) 0 ≠ l.getD j 0 := fun e => by
        have hmod := getD_inj h.nodup (Nat.mod_lt _ (by omega)) hj e
        rw [← hij] at hmod
        -- both successors wrap around, or neither does
        by_cases h1 : k + 1 = l.length <;> by_cases h3 : i + 1 = l.length
        · omega
        · rw [h1, Nat.mod_self, Nat.mod_eq_of_lt (by omega)] at hmod
          omega
        · rw [h3, Nat.mod_self, Nat.mod_eq_of_lt (by omega)] at hmod
          omega
        · rw [Nat.mod_eq_of_lt (by omega), Nat.mod_eq_of_lt (by omega)] at hmod
          omega
      simp only [Function.update_of_ne hki, List.mem_cons, hne, false_or]

/-- One report of a file split over three nodes or more. -/
theorem Over.saveEntries_split (h : f.Over l) (hfc : f.fc = l.length) (h3 : 3 ≤ l.length) {n : ℕ}
    (hn : n ∈ l) (rs : List ℕ) :
    saveEntries (f.report l n) (f.tableOf l rs) = some (f.tableOf l (n :: rs)) := by
  obtain ⟨j, hj, rfl⟩ := List.mem_iff_getElem.mp hn
  rw [← List.getD_eq_getElem l 0 hj]
  have hlt := h.fc_lt
  by_cases h0 : j = 0
  · subst h0
    have hlast : (l.length - 1 + 1) % l.length = 0 := by
      rw [Nat.sub_add_cancel (by omega), Nat.mod_self]
    rw [h.report_split_first hfc, ← h.tableOf_cons hfc hj (by omega) hlast, tableOf,
      saveEntries_border (show (f.reportWith _ _).fragCount = f.fc from rfl) (by omega) hlt]
    · simp only [reportWith, hfc]
    · simp only [reportWith, primaryEntry, secondaryEntry]
      omega
  · have hprev : (j - 1 + 1) % l.length = j := by
      rw [Nat.sub_add_cancel (by omega), Nat.mod_eq_of_lt hj]
    rw [h.report_split_next hfc (by omega) hj, ← h.tableOf_cons hfc hj (by omega) hprev, tableOf,
      saveEntries_inner (j := j) (show (f.reportWith _ _).fragCount = f.fc from rfl) hlt (by omega)
        (by omega)]
    · simp only [reportWith]
    · simp only [reportWith, secondaryEntry]
      omega
    · simp only [reportWith, primaryEntry]
    · omega

theorem Over.foldlM_split (h : f.Over l) (hfc : f.fc = l.length) (h3 : 3 ≤ l.length) (rs : List ℕ)
    (hrs : ∀ n ∈ rs, n ∈ l) (reported : List ℕ) :
    rs.foldlM (fun t n => saveEntries (f.report l n) t) (f.tableOf l reported) =
      some (f.tableOf l (rs.reverse ++ reported)) := by
  induction rs generalizing reported with
  | nil => rfl
  | cons n rs ih =>
    rw [List.foldlM_cons, h.saveEntries_split hfc h3 (hrs n (by simp)) reported,
      Option.bind_eq_bind, Option.bind_some, ih (fun m hm => hrs m (by simp [hm]))]
    simp

/-! ## Files on two nodes -/

theorem orders_of_two {a b : ℕ} {rs : List ℕ} (hnd : rs.Nodup) (h : ∀ n ∈ rs, n = a ∨ n = b) :
    rs = [] ∨ rs = [a] ∨ rs = [b] ∨ rs = [a, b] ∨ rs = [b, a] := by
  rcases rs with _ | ⟨x, _ | ⟨y, _ | ⟨z, rs⟩⟩⟩
  · exact .inl rfl
  · rcases h x (by simp) with rfl | rfl <;> simp
  · have hxy : x ≠ y := by
      rw [List.nodup_cons] at hnd
      rintro rfl
      simp at hnd
    rcases h x (by simp) with rfl | rfl <;> rcases h y (by simp) with rfl | rfl <;> simp_all
  · have hx := h x (by simp)
    have hy := h y (by simp)
    have hz := h z (by simp)
    simp only [List.nodup_cons, List.mem_cons, not_or] at hnd
    omega

/-- What reports of `rs` leave of fragment `i + 1`. -/
def entriesOf (f : PlacedFile) (l rs : List ℕ) (i : ℕ) : List XFragmentNetworkPointer :=
  [if l.getD i 0 ∈ rs then primaryEntry l f.size i else .zero,
   if l.getD ((i + 1) % l.length) 0 ∈ rs then secondaryEntry l f.size i else .zero]

/-- The two positions of every fragment hold `entriesOf`, in some order. -/
def Rebuilt (f : PlacedFile) (l rs : List ℕ) (t : List XFragmentNetworkPointer) : Prop :=
  t.length = 2 * f.fc ∧
    ∀ i < f.fc, [t.getD (2 * i) .zero, t.getD (2 * i + 1) .zero].Perm (f.entriesOf l rs i)

theorem rebuilt_tableOf (rs : List ℕ) : f.Rebuilt l rs (f.tableOf l rs) := by
  refine ⟨pairs_length .., fun i hi => ?_⟩
  rw [List.getD_eq_getElem?_getD, List.getD_eq_getElem?_getD, tableOf, getElem?_pairs_even _ _ hi,
    getElem?_pairs_odd _ _ hi]
  rfl

/-- An unsplit file: the second report goes behind the first unless its node comes before. -/
theorem Over.foldlM_single (h : f.Over l) (hfc : f.fc = 1) {rs : List ℕ} (hnd : rs.Nodup)
    (hrs : ∀ n ∈ rs, n ∈ f.holders l) :
    ∃ t, rs.foldlM (fun t n => saveEntries (f.report l n) t) (List.replicate (2 * f.fc) .zero) =
      some t ∧ f.Rebuilt l rs t := by
  have hfirst := h.report_single_first hfc
  have hsecond := h.report_single_second hfc
  obtain ⟨a, b, l, rfl⟩ : ∃ a b l', l = a :: b :: l' := by
    rcases l with _ | ⟨a, _ | ⟨b, l⟩⟩
    · exact absurd h.two_le (by simp)
    · exact absurd h.two_le (by simp)
    · exact ⟨a, b, l, rfl⟩
  have hab : a < b := (List.pairwise_cons.mp h.sorted).1 b (by simp)
  have hsmall : (0 + 1) % (a :: b :: l).length = 1 := Nat.mod_eq_of_lt (by simp)
  have hall : ∀ n ∈ rs, n = a ∨ n = b := fun n hn => h.mem_holders_single hfc (hrs n hn)
  simp only [primaryEntry, secondaryEntry, hsmall, List.getD_cons_zero, List.getD_cons_succ]
    at hfirst hsecond
  have hentries : f.entriesOf (a :: b :: l) rs 0 =
      [if a ∈ rs then ⟨1, f.size 0, a⟩ else .zero, if b ∈ rs then ⟨1, f.size 0, b⟩ else .zero] := by
    simp only [entriesOf, primaryEntry, secondaryEntry, hsmall, List.getD_cons_zero,
      List.getD_cons_succ]
  simp only [Rebuilt, hfc, Nat.lt_one_iff, forall_eq, hentries]
  rcases orders_of_two hnd hall with rfl | rfl | rfl | rfl | rfl
  · exact ⟨[.zero, .zero], rfl, rfl, by simp⟩
  · refine ⟨[⟨1, f.size 0, a⟩, .zero], ?_, rfl, by simp [hab.ne']⟩
    simp [hfirst, saveEntries, setEntry, reportWith, hfc, XFragmentNetworkPointer.zero]
  · refine ⟨[⟨1, f.size 0, b⟩, .zero], ?_, rfl, by simp [hab.ne, List.Perm.swap]⟩
    simp [hsecond, saveEntries, setEntry, reportWith, hfc, XFragmentNetworkPointer.zero]
  · refine ⟨[⟨1, f.size 0, a⟩, ⟨1, f.size 0, b⟩], ?_, rfl, by simp⟩
    simp [hfirst, hsecond, saveEntries, setEntry, reportWith, hfc, XFragmentNetworkPointer.zero, hab]
  · refine ⟨[⟨1, f.size 0, a⟩, ⟨1, f.size 0, b⟩], ?_, rfl, by simp⟩
    simp [hfirst, hsecond, saveEntries, setEntry, reportWith, hfc, XFragmentNetworkPointer.zero,
      hab.not_gt]

/-- A file split over two nodes: the first report takes the outer positions. -/
theorem Over.foldlM_two (h : f.Over l) (hfc : f.fc = l.length) (h2 : l.length = 2) {rs : List ℕ}
    (hnd : rs.Nodup) (hrs : ∀ n ∈ rs, n ∈ l) :
    ∃ t, rs.foldlM (fun t n => saveEntries (f.report l n) t) (List.replicate (2 * f.fc) .zero) =
      some t ∧ f.Rebuilt l rs t := by
  have hfirst := h.report_split_first hfc
  have hnext := h.report_split_next hfc (le_refl 1) (by omega)
  obtain ⟨a, b, rfl⟩ := List.length_eq_two.mp h2
  have hab : a < b := (List.pairwise_cons.mp h.sorted).1 b (by simp)
  have hfc2 : f.fc = 2 := by simpa using hfc
  have hall : ∀ n ∈ rs, n = a ∨ n = b := fun n hn => by simpa using hrs n hn
  simp only [primaryEntry, secondaryEntry, List.length_cons, List.length_nil, zero_add,
    Nat.reduceAdd, Nat.reduceSub, Nat.reduceMod, List.getD_cons_zero, List.getD_cons_succ]
    at hfirst hnext
  have hentries0 : f.entriesOf [a, b] rs 0 =
      [if a ∈ rs then ⟨1, f.size 0, a⟩ else .zero, if b ∈ rs then ⟨1, f.size 0, b⟩ else .zero] := by
    simp [entriesOf, primaryEntry, secondaryEntry]
  have hentries1 : f.entriesOf [a, b] rs 1 =
      [if b ∈ rs then ⟨2, f.size 1, b⟩ else .zero, if a ∈ rs then ⟨2, f.size 1, a⟩ else .zero] := by
    simp [entriesOf, primaryEntry, secondaryEntry]
  have hsplit : ∀ P : ℕ → Prop, (∀ i < 2, P i) ↔ P 0 ∧ P 1 := fun P =>
    ⟨fun h => ⟨h 0 (by omega), h 1 (by omega)⟩, fun h i hi => by
      rcases (show i = 0 ∨ i = 1 by omega) with rfl | rfl
      exacts [h.1, h.2]⟩
  simp only [Rebuilt, hfc2, hsplit, hentries0, hentries1]
  rcases orders_of_two hnd hall with rfl | rfl | rfl | rfl | rfl
  · exact ⟨[.zero, .zero, .zero, .zero], rfl, rfl, by simp⟩
  · refine ⟨[⟨1, f.size 0, a⟩, .zero, .zero, ⟨2, f.size 1, a⟩], ?_, rfl, by simp [hab.ne']⟩
    simp [hfirst, saveEntries, setEntry, reportWith, hfc2, XFragmentNetworkPointer.zero, REDUNDANCY,
      toU64, List.replicate]
  · refine ⟨[⟨1, f.size 0, b⟩, .zero, .zero, ⟨2, f.size 1, b⟩], ?_, rfl,
      by simp [hab.ne, List.Perm.swap]⟩
    simp [hnext, saveEntries, setEntry, reportWith, hfc2, XFragmentNetworkPointer.zero, REDUNDANCY,
      toU64, List.replicate]
  · refine ⟨[⟨1, f.size 0, a⟩, ⟨1, f.size 0, b⟩, ⟨2, f.size 1, b⟩, ⟨2, f.size 1, a⟩], ?_, rfl,
      by simp⟩
    simp [hfirst, hnext, saveEntries, setEntry, reportWith, hfc2, XFragmentNetworkPointer.zero,
      REDUNDANCY, toU64, List.replicate]
  · refine ⟨[⟨1, f.size 0, b⟩, ⟨1, f.size 0, a⟩, ⟨2, f.size 1, a⟩, ⟨2, f.size 1, b⟩], ?_, rfl,
      by simp [List.Perm.swap]⟩
    simp [hfirst, hnext, saveEntries, setEntry, reportWith, hfc2, XFragmentNetworkPointer.zero,
      REDUNDANCY, toU64, List.replicate]

/-- Any order of reports of any set of holders, into an empty table. -/
theorem Over.foldlM_saveEntries (h : f.Over l) {rs : List ℕ} (hnd : rs.Nodup)
    (hrs : ∀ n ∈ rs, n ∈ f.holders l) :
    ∃ t, rs.foldlM (fun t n => saveEntries (f.report l n) t) (List.replicate (2 * f.fc) .zero) =
      some t ∧ f.Rebuilt l rs t := by
  by_cases h1 : f.fc = 1
  · exact h.foldlM_single h1 hnd hrs
  have hfc : f.fc = l.length := h.fc.resolve_left h1
  have hl : ∀ n ∈ rs, n ∈ l := fun n hn => (List.mem_filter.mp (hrs n hn)).1
  by_cases h2 : l.length = 2
  · exact h.foldlM_two hfc h2 hnd hl
  · have h3 : 3 ≤ l.length := by have := h.two_le; omega
    refine ⟨f.tableOf l rs, ?_, rebuilt_tableOf rs⟩
    rw [← tableOf_nil, h.foldlM_split hfc h3 rs hl]
    exact congrArg some (tableOf_congr fun n => by simp)

end PlacedFile

/-! ## The index that takes the reports -/

/-- The record a report of file `id` is written to, new if the file is unknown. -/
def XFileNetworkIndex.known (net : XFileNetworkIndex) (id count : ℕ) : XFileInNetwork :=
  (net.found id).getD (xfilenetindexNewFile id (count * REDUNDANCY))

theorem known_init {id count : ℕ} (hid : id < 2 ^ 16) (hcount : count < 2 ^ 8) :
    xfilenetindexInit.known id count = ⟨id, 2 * count, List.replicate (2 * count) .zero⟩ := by
  have h64 : u64 (count * REDUNDANCY) = 2 * count := by
    rw [REDUNDANCY, u64_of_lt (by omega), Nat.mul_comm]
  simp only [XFileNetworkIndex.known, XFileNetworkIndex.found_eq, xfilenetindexInit, Keyed.get,
    List.find?_nil, Option.getD_none, xfilenetindexNewFile, u16_of_lt hid, h64]

def reportContainer (r : XReportFileKnowledge) : XFileContainer :=
  freshContainer r.fileName r.fileId r.fileSize r.fragCount

theorem xprocedureSaveFileToIndex_spec (fs : XFileServer) {net : XFileNetworkIndex}
    {r : XReportFileKnowledge} {t : List XFragmentNetworkPointer}
    (h : saveEntries r (net.known r.fileId r.fragCount).fragments = some t) :
    ∃ fs' net', xprocedureSaveFileToIndex fs net r = some (fs', net') ∧
      net'.found r.fileId = some { net.known r.fileId r.fragCount with fragments := t } ∧
      (∀ k, u16 k ≠ u16 r.fileId → net'.found k = net.found k) ∧
      fs' = if fs.found r.fileId = none then ⟨fs.files ++ [reportContainer r]⟩ else fs := by
  obtain ⟨net1, hnet1, hfound, hframe⟩ : ∃ net1,
      net1 = (if xfilenetindexFindFile net r.fileId = none then
        xfilenetindexAddFile net (xfilenetindexNewFile r.fileId (r.fragCount * REDUNDANCY))
        else net) ∧
      net1.found r.fileId = some (net.known r.fileId r.fragCount) ∧
      ∀ k, u16 k ≠ u16 r.fileId → net1.found k = net.found k := by
    refine ⟨_, rfl, ?_⟩
    simp only [xfilenetindexFindFile_eq_none_iff, XFileNetworkIndex.known]
    by_cases hn : net.found r.fileId = none
    · rw [if_pos hn, XFileNetworkIndex.found_addFile, hn]
      refine ⟨by simp [xfilenetindexNewFile], fun k hk => ?_⟩
      have hne : (xfilenetindexNewFile r.fileId (r.fragCount * REDUNDANCY)).fileId ≠ u16 k :=
        fun e => hk e.symm
      rw [XFileNetworkIndex.found_addFile, if_neg hne, Option.or_none]
    · obtain ⟨f, hf⟩ := Option.ne_none_iff_exists'.mp hn
      rw [if_neg hn, hf]
      exact ⟨rfl, fun _ _ => rfl⟩
  obtain ⟨slot, hslot, hget⟩ := XFileNetworkIndex.exists_slot hfound
  have hupd := fun k => XFileNetworkIndex.found_update hslot
    (f := fun f => { f with fragments := t }) (fun _ => rfl) k
  refine ⟨if fs.found r.fileId = none then ⟨fs.files ++ [reportContainer r]⟩ else fs,
    net1.update slot fun f => { f with fragments := t }, ?_, ?_, ?_, rfl⟩
  · simp only [xprocedureSaveFileToIndex, ← hnet1, hslot, hget, h, Option.bind_eq_bind,
      Option.bind_some, xfileserverFindFile_eq_none_iff]
    exact rfl
  · rw [hupd, if_pos rfl, hfound]
    rfl
  · intro k hk
    rw [hupd, if_neg hk, hframe k hk]

def saveReports (st : XFileServer × XFileNetworkIndex) (reports : List XReportFileKnowledge) :
    Option (XFileServer × XFileNetworkIndex) :=
  reports.foldlM (fun st r => xprocedureSaveFileToIndex st.1 st.2 r) st

/-- Reports of different files do not disturb each other: each table is what the
reports of its own file make of it, and the store gains one container a file. -/
theorem saveReports_spec (count : ℕ → ℕ) (fs : XFileServer) (net : XFileNetworkIndex)
    (t : ℕ → List XFragmentNetworkPointer) {reports : List XReportFileKnowledge}
    (hr : ∀ r ∈ reports, r.fileId < 2 ^ 16 ∧ r.fragCount = count r.fileId)
    (ht : ∀ id < 2 ^ 16, (reports.filter (·.fileId = id)).foldlM (fun t r => saveEntries r t)
      (net.known id (count id)).fragments = some (t id)) :
    ∃ fs' net', saveReports (fs, net) reports = some (fs', net') ∧
      (∀ id < 2 ^ 16, net'.known id (count id) = { net.known id (count id) with fragments := t id }) ∧
      (∀ id < 2 ^ 16, (net.found id ≠ none ∨ ∃ r ∈ reports, r.fileId = id) →
        net'.found id = some { net.known id (count id) with fragments := t id }) ∧
      (∀ c ∈ fs'.files, c ∈ fs.files ∨ ∃ r ∈ reports, c = reportContainer r) ∧
      (∀ k c, fs.found k = some c → fs'.found k = some c) ∧
      ∀ r ∈ reports, fs'.found r.fileId ≠ none := by
  induction reports generalizing fs net with
  | nil =>
    have htid : ∀ id < 2 ^ 16, t id = (net.known id (count id)).fragments := fun id hid => by
      simpa using (ht id hid).symm
    refine ⟨fs, net, rfl, fun id hid => by rw [htid id hid], fun id hid h => ?_,
      fun c hc => .inl hc, fun k c h => h, by simp⟩
    obtain ⟨f, hf⟩ := Option.ne_none_iff_exists'.mp (h.resolve_right (by simp))
    rw [htid id hid]
    simp [XFileNetworkIndex.known, hf]
  | cons r reports ih =>
    obtain ⟨hid, hcount⟩ := hr r (by simp)
    obtain ⟨t1, h1, hrest⟩ : ∃ t1, saveEntries r (net.known r.fileId r.fragCount).fragments = some t1 ∧
        (reports.filter (·.fileId = r.fileId)).foldlM (fun t r => saveEntries r t) t1 =
          some (t r.fileId) := by
      have h := ht r.fileId hid
      rw [List.filter_cons_of_pos (by simp), List.foldlM_cons, ← hcount] at h
      exact Option.bind_eq_some_iff.mp h
    obtain ⟨fs1, net1, hstep, hfound, hframe, hfs⟩ :=
      xprocedureSaveFileToIndex_spec fs h1
    have hu16 : ∀ k < 2 ^ 16, u16 k = k := fun k hk => u16_of_lt hk
    have hknown : ∀ id < 2 ^ 16, net1.known id (count id) =
        if id = r.fileId then { net.known id (count id) with fragments := t1 }
        else net.known id (count id) := by
      intro id hid'
      by_cases he : id = r.fileId
      · subst he
        rw [if_pos rfl, ← hcount, XFileNetworkIndex.known, hfound, Option.getD_some]
      · rw [if_neg he, XFileNetworkIndex.known, XFileNetworkIndex.known,
          hframe id (by rwa [hu16 id hid', hu16 _ hid])]
    obtain ⟨fs', net', hrun, hk, hf, hmem, hkeep, hnew⟩ := ih fs1 net1
      (fun r' h' => hr r' (by simp [h'])) (fun id hid' => by
        rw [hknown id hid']
        by_cases he : id = r.fileId
        · subst he
          rw [if_pos rfl]
          exact hrest
        · rw [if_neg he, ← ht id hid', List.filter_cons_of_neg (by simpa using Ne.symm he)])
    have hreset : ∀ id < 2 ^ 16, { net1.known id (count id) with fragments := t id } =
        { net.known id (count id) with fragments := t id } := fun id hid' => by
      rw [hknown id hid']
      split_ifs <;> rfl
    refine ⟨fs', net', ?_, fun id hid' => (hk id hid').trans (hreset id hid'),
      fun id hid' h => ?_, fun c hc => ?_, fun k c h => hkeep k c ?_, fun r' hr' => ?_⟩
    · rw [saveReports, List.foldlM_cons, hstep]
      exact hrun
    · refine (hf id hid' ?_).trans (congrArg some (hreset id hid'))
      by_cases he : id = r.fileId
      · subst he
        exact .inl (by simp [hfound])
      · rw [hframe id (by rwa [hu16 id hid', hu16 _ hid])]
        refine h.imp_right fun ⟨r', hr', h'⟩ => ?_
        rcases List.mem_cons.mp hr' with rfl | hr'
        · exact absurd h'.symm he
        · exact ⟨r', hr', h'⟩
    · rcases hmem c hc with h' | ⟨r', hr', h'⟩
      · rw [hfs] at h'
        split_ifs at h' with hnone
        · rcases List.mem_append.mp h' with h' | h'
          · exact .inl h'
          · exact .inr ⟨r, by simp, by simpa using h'⟩
        · exact .inl h'
      · exact .inr ⟨r', by simp [hr'], h'⟩
    · rw [hfs]
      split_ifs
      · rw [XFileServer.found_eq] at h ⊢
        rw [Keyed.get_append_single, h, Option.some_or]
      · exact h
    · rcases List.mem_cons.mp hr' with rfl | hr'
      · have hsome : fs1.found r'.fileId ≠ none := by
          rw [hfs]
          split_ifs with hnone
          · rw [XFileServer.found_eq] at hnone ⊢
            rw [Keyed.get_append_single, hnone]
            simp [reportContainer, freshContainer, u16_of_lt hid]
          · exact hnone
        obtain ⟨c, hc⟩ := Option.ne_none_iff_exists'.mp hsome
        simp [hkeep _ _ hc]
      · exact hnew r' hr'

/-- Whichever holders report a file, and in whichever order, the rebuilt table has
for each fragment the entries of its original holders that reported. -/
theorem rebuild_any_order {f : PlacedFile} {l rs : List ℕ} (h : f.Over l) (hnd : rs.Nodup)
    (hrs : ∀ n ∈ rs, n ∈ f.holders l) (fs : XFileServer) :
    ∃ fs' net', saveReports (fs, xfilenetindexInit) (rs.map (f.report l)) = some (fs', net') ∧
      (rs = [] → net' = xfilenetindexInit) ∧
      (rs ≠ [] → ∃ t, net'.found f.fileId = some ⟨f.fileId, 2 * f.fc, t⟩ ∧
        t.length = 2 * f.fc ∧
        ∀ k, 1 ≤ k → k ≤ f.fc →
          [t.getD (2 * (k - 1)) .zero, t.getD (2 * (k - 1) + 1) .zero].Perm
            [if l.getD (k - 1) 0 ∈ rs then ⟨k, f.size (k - 1), l.getD (k - 1) 0⟩ else .zero,
             if l.getD (k % l.length) 0 ∈ rs then ⟨k, f.size (k - 1), l.getD (k % l.length) 0⟩
             else .zero]) := by
  have hfc := h.fc_lt
  have hknown := known_init h.fileId hfc
  have hreport : ∀ n ∈ rs, (f.report l n).fileId = f.fileId ∧ (f.report l n).fragCount = f.fc :=
    fun n hn => h.report_ids (hrs n hn)
  obtain ⟨t, ht, hlen, hperm⟩ := h.foldlM_saveEntries hnd hrs
  obtain ⟨fs', net', hrun, -, hfound, -⟩ := saveReports_spec (fun _ => f.fc) fs
    xfilenetindexInit
    (fun id => if id = f.fileId then t else (xfilenetindexInit.known id f.fc).fragments)
    (show ∀ r ∈ rs.map (f.report l), r.fileId < 2 ^ 16 ∧ r.fragCount = f.fc by
      simp only [List.mem_map, forall_exists_index, and_imp, forall_apply_eq_imp_iff₂]
      exact fun n hn => ⟨(hreport n hn).1 ▸ h.fileId, (hreport n hn).2⟩)
    (fun id hid => by
      by_cases he : id = f.fileId
      · subst he
        rw [if_pos rfl, List.filter_eq_self.mpr, List.foldlM_map, hknown]
        · exact ht
        · simp only [List.mem_map, forall_exists_index, and_imp, forall_apply_eq_imp_iff₂,
            decide_eq_true_eq]
          exact fun n hn => (hreport n hn).1
      · rw [if_neg he, List.filter_eq_nil_iff.mpr]
        · rfl
        · simp only [List.mem_map, forall_exists_index, and_imp, forall_apply_eq_imp_iff₂,
            decide_eq_true_eq]
          exact fun n hn e => he (e.symm.trans (hreport n hn).1))
  refine ⟨fs', net', hrun, fun hnil => ?_, fun hne => ⟨t, ?_, hlen, fun k h1 hk => ?_⟩⟩
  · subst hnil
    exact (Prod.mk.injEq .. ▸ Option.some.inj hrun).2.symm
  · obtain ⟨n, hn⟩ := List.exists_mem_of_ne_nil rs hne
    rw [hfound f.fileId h.fileId
      (.inr ⟨_, List.mem_map_of_mem hn, (hreport n hn).1⟩), hknown, if_pos rfl]
  · have hk' := hperm (k - 1) (by omega)
    rw [PlacedFile.entriesOf, primaryEntry, secondaryEntry, Nat.sub_add_cancel h1] at hk'
    exact hk'

/-- Nodes 1, 2 and 5 live, and 5 reports before 1. -/
theorem rebuild_any_order_three_nodes :
    let f : PlacedFile := ⟨[97], 1, 302, 3, fun i => if i = 2 then 102 else 100, fun _ => []⟩
    ∃ fs' net', saveReports (xfileserverInit, xfilenetindexInit)
        ([5, 1].map (f.report [1, 2, 5])) = some (fs', net') ∧
      ∃ t, net'.found 1 = some ⟨1, 6, t⟩ ∧
        [t.getD 4 .zero, t.getD 5 .zero].Perm [⟨3, 102, 5⟩, ⟨3, 102, 1⟩] := by
  intro f
  have hover : f.Over [1, 2, 5] :=
    ⟨by decide, by decide, by decide, by decide, by decide, .inr rfl,
      fun i => by simp only [f]; split_ifs <;> norm_num⟩
  obtain ⟨fs', net', hrun, -, h⟩ :=
    rebuild_any_order (l := [1, 2, 5]) hover (by decide : [5, 1].Nodup) (by decide) xfileserverInit
  obtain ⟨t, ht, -, hperm⟩ := h (by simp)
  exact ⟨fs', net', hrun, t, ht, hperm 3 (by decide) (by decide)⟩

end DSS
