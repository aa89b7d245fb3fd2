import DistStore.Lib.Transition
import DistStore.Model.IndexStores
import DistStore.Proofs.FreshIds

/-! The index's store and its linked list name the same files. The list in memory is the list
that the other modules work on; on it every write adds an id to both or to none. -/

namespace DSS

open Transition

/-! ## The list in memory -/

def NetworkList.Represents (net : NetworkList) (table : XFileNetworkIndex) : Prop :=
  ∃ xs, net.chain.Holds xs ∧ xs.map Prod.snd = table.files ∧ net.fileCount = table.fileCount

namespace NetworkList

variable {net : NetworkList} {table : XFileNetworkIndex} {fs : XFileServer}

theorem represents_init : Represents init xfilenetindexInit := ⟨[], Chain.holds_empty, rfl, rfl⟩

theorem Represents.ids_eq (h : net.Represents table) : net.ids = table.ids := by
  obtain ⟨xs, hxs, hfiles, -⟩ := h
  rw [ids, hxs.toList_eq, hfiles]
  rfl

theorem Represents.addFile (h : net.Represents table) (file : XFileInNetwork) :
    ∃ net' ptr xs, net.addFile file = some (net', ptr) ∧ net'.chain.Holds (xs ++ [(ptr, file)]) ∧
      xs.map Prod.snd = table.files ∧ net'.fileCount = (xfilenetindexAddFile table file).fileCount := by
  obtain ⟨xs, hxs, hfiles, hcount⟩ := h
  obtain ⟨chain, happend, hholds⟩ := hxs.append file
  refine ⟨⟨chain, u16 (net.fileCount + 1)⟩, net.chain.cells.length, xs, ?_, hholds, hfiles, ?_⟩
  · rw [NetworkList.addFile, happend]
    rfl
  · rw [hcount]
    rfl

theorem represents_of_append {net' : NetworkList} {xs : List (ℕ × XFileInNetwork)} {ptr : ℕ}
    {file : XFileInNetwork} (hholds : net'.chain.Holds (xs ++ [(ptr, file)]))
    (hfiles : xs.map Prod.snd = table.files)
    (hcount : net'.fileCount = (xfilenetindexAddFile table file).fileCount) :
    net'.Represents (xfilenetindexAddFile table file) := by
  refine ⟨_, hholds, ?_, hcount⟩
  rw [List.map_append, hfiles]
  rfl

theorem Represents.findFile (h : net.Represents table) (fileId : ℕ) :
    net.findFile fileId = none ↔ xfilenetindexFindFile table fileId = none := by
  obtain ⟨xs, hxs, hfiles, -⟩ := h
  have hrel := hxs.find_findIdx? fun f => f.fileId = u16 fileId
  rw [hfiles] at hrel
  change Option.Rel _ (net.findFile fileId) (xfilenetindexFindFile table fileId) at hrel
  revert hrel
  generalize net.findFile fileId = a
  generalize xfilenetindexFindFile table fileId = b
  intro hrel
  cases hrel with
  | none => exact iff_of_true rfl rfl
  | some => exact iff_of_false (Option.some_ne_none _) (Option.some_ne_none _)

/-- What `xprocedure_save_file_to_index` has found or made: a pointer, and in the table the
position of the same entry. -/
theorem Represents.locate (h : net.Represents table) (r : XReportFileKnowledge) :
    ∃ net' fni slot xs f,
      net.findOrAdd r = some (net', fni) ∧ net'.chain.Holds xs ∧ xs[slot]? = some (fni, f) ∧
      let table' := if xfilenetindexFindFile table r.fileId = none then
          xfilenetindexAddFile table (xfilenetindexNewFile r.fileId (r.fragCount * REDUNDANCY))
        else table
      xs.map Prod.snd = table'.files ∧ net'.fileCount = table'.fileCount ∧
        xfilenetindexFindFile table' r.fileId = some slot := by
  have hnone := h.findFile r.fileId
  rw [findOrAdd]
  cases hfind : net.findFile r.fileId with
  | none =>
    have htable := hnone.mp hfind
    obtain ⟨net', ptr, xs, hadd, hholds, hfiles, hcount⟩ :=
      h.addFile (xfilenetindexNewFile r.fileId (r.fragCount * REDUNDANCY))
    refine ⟨net', ptr, xs.length, _, _, hadd, hholds, List.getElem?_concat_length, ?_⟩
    rw [if_pos htable]
    refine ⟨?_, hcount, ?_⟩
    · rw [List.map_append, hfiles]
      rfl
    · have hlen : table.files.length = xs.length := by rw [← hfiles, List.length_map]
      rw [xfilenetindexFindFile] at htable ⊢
      rw [xfilenetindexAddFile, List.findIdx?_append, htable, hlen]
      simp [xfilenetindexNewFile]
  | some fni =>
    have htable : xfilenetindexFindFile table r.fileId ≠ none := by
      rw [ne_eq, ← hnone, hfind]
      exact Option.some_ne_none fni
    obtain ⟨xs, hxs, hfiles, hcount⟩ := h
    have hrel := hxs.find_findIdx? fun f => f.fileId = u16 r.fileId
    rw [hfiles] at hrel
    change Option.Rel _ (net.findFile r.fileId) (xfilenetindexFindFile table r.fileId) at hrel
    rw [hfind] at hrel
    rcases hslot : xfilenetindexFindFile table r.fileId with _ | slot
    · exact absurd hslot htable
    · rw [hslot] at hrel
      cases hrel with
      | some hptr =>
        obtain ⟨⟨ptr, f⟩, hx, rfl⟩ := Option.map_eq_some_iff.mp hptr
        refine ⟨net, ptr, slot, xs, f, rfl, hxs, hx, ?_⟩
        rw [if_neg (Option.some_ne_none slot)]
        exact ⟨hfiles, hcount, hslot⟩

def Refines (a : XFileServer × NetworkList) (b : XFileServer × XFileNetworkIndex) : Prop :=
  a.1 = b.1 ∧ a.2.Represents b.2

theorem Represents.saveFile (h : net.Represents table) (r : XReportFileKnowledge) :
    Option.Rel Refines (saveFile fs net r) (xprocedureSaveFileToIndex fs table r) := by
  obtain ⟨net', fni, slot, xs, f, hlocate, hholds, hx, hfiles, hcount, hslot⟩ := h.locate r
  have hget : net'.chain.get fni = some f := hholds.get (List.mem_of_getElem? hx)
  have hfile : ∀ l : List XFileInNetwork, xs.map Prod.snd = l → l[slot]? = some f := by
    rintro l rfl
    rw [List.getElem?_map, hx]
    rfl
  rw [NetworkList.saveFile, hlocate, Option.bind_eq_bind, Option.bind_some, xprocedureSaveFileToIndex]
  simp only [hslot, hget, hfile _ hfiles, Option.bind_eq_bind, Option.bind_some]
  cases saveEntries r f.fragments with
  | none => exact .none
  | some fragments =>
    have hupdate := hholds.update fni fun f => { f with fragments := fragments }
    have hfst : xs[slot]?.map Prod.fst = some fni := by
      rw [hx]
      rfl
    have hmodify := Chain.map_snd_update hholds.nodup hfst
      fun f => { f with fragments := fragments }
    rw [hfiles] at hmodify
    exact .some ⟨rfl, _, hupdate, hmodify, hcount⟩

theorem Represents.handleNewFile (h : net.Represents table) (sv : Server)
    (fc : XRequestFileCreation) (sz : ℕ) :
    Option.Rel (fun a b => a.1 = b.1 ∧ a.2.Represents b.2.1) (handleNewFile sv fs net fc sz)
      (serverIndexHandleNewFile sv fs table fc sz) := by
  rw [NetworkList.handleNewFile, serverIndexHandleNewFile]
  cases sv.indexData with
  | none => exact .none
  | some d =>
    simp only [Option.bind_eq_bind, Option.bind_some]
    rcases placeFragments sv d _ _ _ _ with _ | placed
    · exact .none
    obtain ⟨net', ptr, xs, hadd, hholds, hfiles, hcount⟩ := h.addFile _
    simp only [Option.bind_some]
    rw [hadd]
    exact .some ⟨rfl, represents_of_append hholds hfiles hcount⟩

end NetworkList

namespace IndexStores

/-! ## The writes on the table -/

/-- A write on the store and the table. -/
def onTable (st : IndexFiles) : IndexWrite → Option IndexFiles
  | .newFile sv fc sz => do
    let (fs, fnetidx, _) ← serverIndexHandleNewFile sv st.fs st.fnetidx fc sz
    return ⟨fs, fnetidx⟩
  | .report p => st.report p
  | .own nodeId f => do
    let (fs, fnetidx) ← xprocedureSaveFileToIndex st.fs st.fnetidx (reportOf nodeId f)
    return ⟨fs, fnetidx⟩
  | .store slot fragments0 fragments1 =>
    some { st with fs := st.fs.update slot fun fc =>
      { fc with fragments0 := fragments0, fragments1 := fragments1 } }

structure Represents (m : IndexStores) (st : IndexFiles) : Prop where
  fs : m.fs = st.fs
  net : m.net.Represents st.fnetidx

variable {m m' : IndexStores} {st st' : IndexFiles} {w : IndexWrite} {ws : List IndexWrite}

theorem rel_bind {α β γ δ : Type} {R : α → β → Prop} {S : γ → δ → Prop} {a : Option α}
    {b : Option β} {f : α → Option γ} {g : β → Option δ} (h : Option.Rel R a b)
    (hfg : ∀ x y, R x y → Option.Rel S (f x) (g y)) : Option.Rel S (a.bind f) (b.bind g) := by
  cases h with
  | none => exact .none
  | some hr => exact hfg _ _ hr

/-- In memory a write does what it does to the table. -/
theorem Represents.step (h : m.Represents st) (w : IndexWrite) :
    Option.Rel Represents (m.step w) (onTable st w) := by
  obtain ⟨fs, net⟩ := m
  obtain ⟨rfl, hnet⟩ := h
  cases w with
  | newFile sv fc sz =>
    exact rel_bind (hnet.handleNewFile sv fc sz) fun a b hab => .some ⟨hab.1, hab.2⟩
  | report p => exact rel_bind (hnet.saveFile _) fun a b hab => .some ⟨hab.1, hab.2⟩
  | own nodeId f => exact rel_bind (hnet.saveFile _) fun a b hab => .some ⟨hab.1, hab.2⟩
  | store slot fragments0 fragments1 => exact .some ⟨rfl, hnet⟩

theorem Represents.step_some (h : m.Represents st) (hstep : m.step w = some m') :
    ∃ st', onTable st w = some st' ∧ m'.Represents st' := by
  have hrel := h.step w
  rw [hstep] at hrel
  cases hst : onTable st w with
  | none =>
    rw [hst] at hrel
    cases hrel
  | some st₁ =>
    rw [hst] at hrel
    cases hrel with
    | some hr => exact ⟨st₁, rfl, hr⟩

theorem Represents.run (h : m.Represents st) (hrun : run IndexStores.step m ws = some m') :
    ∃ st', Transition.run onTable st ws = some st' ∧ m'.Represents st' := by
  induction ws generalizing m st with
  | nil => exact ⟨st, rfl, Option.some.inj hrun ▸ h⟩
  | cons w ws ih =>
    obtain ⟨m₁, hstep, hrest⟩ := run_cons.mp hrun
    obtain ⟨st₁, hst₁, h₁⟩ := h.step_some hstep
    obtain ⟨st', hrun', hrep⟩ := ih h₁ hrest
    exact ⟨st', run_cons.mpr ⟨st₁, hst₁, hrun'⟩, hrep⟩

/-! ## The same files in both -/

/-- Store and table have the same ids, and the table's counter is its length in 16 bits. -/
structure SameFiles (st : IndexFiles) : Prop where
  ids : ∀ id, id ∈ st.fs.ids ↔ id ∈ st.fnetidx.ids
  lt : ∀ id ∈ st.fs.ids, id < 2 ^ 16
  length_le : st.fnetidx.ids.length ≤ st.fs.ids.length
  fileCount : st.fnetidx.fileCount = u16 st.fnetidx.ids.length

def Fits : IndexWrite → Prop
  | .own _ f => f.fileId < 2 ^ 16
  | _ => True

theorem save_fileCount {fs fs' : XFileServer} {table table' : XFileNetworkIndex}
    {r : XReportFileKnowledge} (h : xprocedureSaveFileToIndex fs table r = some (fs', table')) :
    table'.fileCount = if xfilenetindexFindFile table r.fileId = none then u16 (table.fileCount + 1)
      else table.fileCount := by
  obtain ⟨slot, -, h⟩ := Option.bind_eq_some_iff.mp h
  obtain ⟨fni, -, h⟩ := Option.bind_eq_some_iff.mp h
  obtain ⟨fragments, -, h⟩ := Option.bind_eq_some_iff.mp h
  cases h
  show (ite _ _ _ : XFileNetworkIndex).fileCount = _
  split_ifs <;> rfl

theorem save_counted {fs fs' : XFileServer} {table table' : XFileNetworkIndex}
    {r : XReportFileKnowledge} (hr : r.fileId < 2 ^ 16)
    (h : xprocedureSaveFileToIndex fs table r = some (fs', table'))
    (hcount : table.fileCount = u16 table.ids.length) :
    table'.fileCount = u16 table'.ids.length := by
  rw [save_fileCount h, (save_ids hr h).2, hcount]
  simp only [xfilenetindexFindFile_eq_none hr]
  by_cases hin : r.fileId ∈ table.ids
  · rw [if_neg (not_not_intro hin), if_pos hin]
  · rw [if_pos hin, if_neg hin, List.length_append, List.length_singleton, u16, u16, u16]
    omega

theorem SameFiles.save {fs fs' : XFileServer} {table table' : XFileNetworkIndex}
    {r : XReportFileKnowledge} (hst : SameFiles ⟨fs, table⟩) (hr : r.fileId < 2 ^ 16)
    (h : xprocedureSaveFileToIndex fs table r = some (fs', table')) : SameFiles ⟨fs', table'⟩ := by
  obtain ⟨hfs, htable⟩ := save_ids hr h
  have hle : table.ids.length ≤ fs.ids.length := hst.length_le
  have hsame : ∀ id, id ∈ fs.ids ↔ id ∈ table.ids := hst.ids
  refine ⟨fun id => ?_, ?_, ?_, save_counted hr h hst.fileCount⟩
  · show id ∈ fs'.ids ↔ id ∈ table'.ids
    rw [hfs, htable]
    simp only [hsame]
    split_ifs <;> simp [hsame]
  · show ∀ id ∈ fs'.ids, id < 2 ^ 16
    rw [hfs]
    split_ifs
    · exact hst.lt
    · exact List.forall_mem_append.mpr ⟨hst.lt, List.forall_mem_singleton.mpr hr⟩
  · show table'.ids.length ≤ fs'.ids.length
    rw [hfs, htable]
    simp only [hsame]
    split_ifs
    · exact hle
    · simpa using hle

theorem SameFiles.newFile {fs fs' : XFileServer} {table table' : XFileNetworkIndex} {sv : Server}
    {fc : XRequestFileCreation} {sz file : ℕ} (hst : SameFiles ⟨fs, table⟩)
    (h : serverIndexHandleNewFile sv fs table fc sz = some (fs', table', file)) :
    SameFiles ⟨fs', table'⟩ := by
  have hplace : (IndexFiles.mk fs table).place ⟨sv, fc, sz, [], fun _ => ⟨none, [], []⟩⟩ =
    some (fs', table', file) := h
  obtain ⟨hfs, htable, -⟩ := place_ids hplace
  have hle : table.ids.length ≤ fs.ids.length := hst.length_le
  have hcount : table'.fileCount = u16 (table.fileCount + 1) := by
    obtain ⟨d, -, h⟩ := Option.bind_eq_some_iff.mp h
    obtain ⟨placed, -, h⟩ := Option.bind_eq_some_iff.mp h
    cases h
    rfl
  refine ⟨fun id => ?_, ?_, ?_, ?_⟩
  · show id ∈ fs'.ids ↔ id ∈ table'.ids
    rw [hfs, htable, List.mem_append, List.mem_append]
    exact or_congr_left (hst.ids id)
  · show ∀ id ∈ fs'.ids, id < 2 ^ 16
    rw [hfs]
    exact List.forall_mem_append.mpr
      ⟨hst.lt, List.forall_mem_singleton.mpr (Nat.mod_lt _ (by decide))⟩
  · show table'.ids.length ≤ fs'.ids.length
    rw [hfs, htable, List.length_append, List.length_append]
    exact Nat.add_le_add_right hle 1
  · show table'.fileCount = u16 table'.ids.length
    rw [hcount, show table.fileCount = _ from hst.fileCount, htable, List.length_append]
    exact Nat.mod_add_mod _ _ _

/-- Every write keeps the two alike. -/
theorem SameFiles.step (hst : SameFiles st) (hw : Fits w) (h : onTable st w = some st') :
    SameFiles st' := by
  cases w with
  | newFile sv fc sz =>
    obtain ⟨⟨fs, table, file⟩, hplace, h⟩ := Option.bind_eq_some_iff.mp h
    cases h
    exact hst.newFile hplace
  | report p =>
    obtain ⟨⟨fs, table⟩, hsave, h⟩ := Option.bind_eq_some_iff.mp h
    cases h
    exact hst.save (Bytes.rd_lt 208 2 (content p)) hsave
  | own nodeId f =>
    obtain ⟨⟨fs, table⟩, hsave, h⟩ := Option.bind_eq_some_iff.mp h
    cases h
    exact hst.save (r := reportOf nodeId f) hw hsave
  | store slot fragments0 fragments1 =>
    cases h
    have hids : (st.fs.update slot fun fc =>
        { fc with fragments0 := fragments0, fragments1 := fragments1 }).ids = st.fs.ids :=
      map_modify_keep (f := fun fc : XFileContainer =>
        { fc with fragments0 := fragments0, fragments1 := fragments1 }) (fun _ => rfl) _ slot
    refine ⟨fun id => ?_, ?_, ?_, hst.fileCount⟩
    · show id ∈ (XFileServer.update _ _ _).ids ↔ _
      rw [hids]
      exact hst.ids id
    · show ∀ id ∈ (XFileServer.update _ _ _).ids, _
      rw [hids]
      exact hst.lt
    · show _ ≤ (XFileServer.update _ _ _).ids.length
      rw [hids]
      exact hst.length_le

/-- The files of a node that takes over: after the loop the table has their ids, and no others. -/
theorem own_run {nodeId : ℕ} {l : List XFileContainer}
    (hl : ∀ f ∈ l, f.fileId < 2 ^ 16 ∧ f.fileId ∈ st.fs.ids)
    (hcount : st.fnetidx.fileCount = u16 st.fnetidx.ids.length)
    (hrun : run onTable st (l.map (.own nodeId)) = some st') :
    st'.fs.ids = st.fs.ids ∧
      (∀ id, id ∈ st'.fnetidx.ids ↔ id ∈ st.fnetidx.ids ∨ id ∈ l.map XFileContainer.fileId) ∧
      st'.fnetidx.ids.length ≤ st.fnetidx.ids.length + l.length ∧
      st'.fnetidx.fileCount = u16 st'.fnetidx.ids.length := by
  induction l generalizing st with
  | nil =>
    obtain rfl := Option.some.inj hrun
    exact ⟨rfl, fun id => by simp, Nat.le_add_right .., hcount⟩
  | cons f l ih =>
    obtain ⟨t, hstep, hrest⟩ := run_cons.mp hrun
    obtain ⟨⟨fs, table⟩, hsave, h⟩ := Option.bind_eq_some_iff.mp hstep
    cases h
    obtain ⟨⟨hf, hin⟩, hl⟩ := List.forall_mem_cons.mp hl
    obtain ⟨hfs, htable⟩ := save_ids (r := reportOf nodeId f) hf hsave
    have hfs' : fs.ids = st.fs.ids := hfs.trans (if_pos hin)
    have htable' : table.ids =
        if f.fileId ∈ st.fnetidx.ids then st.fnetidx.ids else st.fnetidx.ids ++ [f.fileId] := htable
    have hl' : ∀ g ∈ l, g.fileId < 2 ^ 16 ∧ g.fileId ∈ (IndexFiles.mk fs table).fs.ids := by
      intro g hg
      exact hfs' ▸ hl g hg
    obtain ⟨h1, h2, h3, h4⟩ := ih hl' (save_counted (r := reportOf nodeId f) hf hsave hcount) hrest
    refine ⟨h1.trans hfs', fun id => ?_, ?_, h4⟩
    · rw [h2, List.map_cons, List.mem_cons, htable', ← or_assoc]
      refine or_congr_left ?_
      split_ifs with hknown
      · constructor
        · exact .inl
        · rintro (h | rfl)
          · exact h
          · exact hknown
      · rw [List.mem_append, List.mem_singleton]
    · refine h3.trans ?_
      rw [htable', List.length_cons]
      split_ifs
      · omega
      · rw [List.length_append, List.length_singleton]
        omega

/-! ## Whole runs -/

theorem sameFiles_own {own : XFileServer} {nodeId : ℕ} (hown : ∀ f ∈ own.files, f.fileId < 2 ^ 16)
    (hrun : run onTable ⟨own, xfilenetindexInit⟩ (ownWrites nodeId own) = some st) :
    SameFiles st := by
  obtain ⟨hfs, hids, hle, hcount⟩ := own_run
    (fun f hf => ⟨hown f hf, List.mem_map_of_mem hf⟩) rfl hrun
  refine ⟨fun id => ?_, ?_, ?_, hcount⟩
  · rw [hids, hfs]
    exact ⟨.inr, fun h => h.elim (fun h => absurd h List.not_mem_nil) fun h => h⟩
  · rw [hfs]
    exact List.forall_mem_map.mpr hown
  · rw [hfs]
    exact hle.trans_eq ((Nat.zero_add _).trans (List.length_map ..).symm)

theorem SameFiles.run (hst : SameFiles st) (hws : ∀ w ∈ ws, Fits w)
    (hrun : run onTable st ws = some st') : SameFiles st' :=
  run_invariant (fun _ _ _ hst hw h => hst.step hw h) hst hws hrun

/-- The two stores, as the code finds them. -/
structure Agree (m : IndexStores) : Prop where
  ids : ∀ id, id ∈ m.fs.ids ↔ id ∈ m.net.ids
  /-- `next` leads through as many entries as are counted, no one twice, and ends at `TAIL`. -/
  visits : ∃ xs, m.net.chain.Holds xs ∧ m.net.chain.ptrs = xs.map Prod.fst ∧
    xs.length = m.net.fileCount
  found : ∀ slot, m.lookup slot ≠ some none

theorem Represents.agree (h : m.Represents st) (hst : SameFiles st)
    (hcount : m.fs.fileCount ≤ FILE_SERVER_MAX_FILES) :
    Agree m := by
  obtain ⟨fs, net⟩ := m
  obtain ⟨rfl, hnet⟩ := h
  have hids : ∀ id, id ∈ st.fs.ids ↔ id ∈ net.ids := by
    intro id
    rw [hnet.ids_eq]
    exact hst.ids id
  refine ⟨hids, ?_, ?_⟩
  · obtain ⟨xs, hxs, hfiles, hfileCount⟩ := hnet
    refine ⟨xs, hxs, hxs.ptrs_eq, ?_⟩
    have hlen : xs.length = st.fnetidx.ids.length := by
      rw [XFileNetworkIndex.ids, ← hfiles, List.length_map, List.length_map]
    have hle := hst.length_le
    rw [XFileServer.ids_length] at hle
    show _ = net.fileCount
    rw [hlen, hfileCount, hst.fileCount, u16_of_lt]
    exact (hle.trans hcount).trans_lt (by decide)
  · intro slot hnone
    obtain ⟨fc, hfc, hfind⟩ := Option.map_eq_some_iff.mp hnone
    have hmem : fc.fileId ∈ st.fs.ids := List.mem_map_of_mem (List.mem_of_getElem? hfc)
    rw [hnet.findFile, xfilenetindexFindFile_eq_none (hst.lt _ hmem)] at hfind
    exact hfind ((hst.ids _).mp hmem)

/-- After any run of an index that starts empty or with files of its own: both stores name the
same files, the list is whole, and no lookup meets a null pointer. -/
theorem index_stores_agree {own : XFileServer} (hown : ∀ f ∈ own.files, f.fileId < 2 ^ 16)
    {nodeId : ℕ} {m₀ m : IndexStores}
    (h₀ : Transition.run IndexStores.step ⟨own, NetworkList.init⟩ (ownWrites nodeId own) = some m₀)
    {ws : List IndexWrite} (hws : ∀ w ∈ ws, Fits w)
    (hrun : Transition.run IndexStores.step m₀ ws = some m)
    (hcount : m.fs.fileCount ≤ FILE_SERVER_MAX_FILES) : Agree m := by
  have hinit : Represents ⟨own, NetworkList.init⟩ ⟨own, xfilenetindexInit⟩ :=
    ⟨rfl, NetworkList.represents_init⟩
  obtain ⟨st₀, hst₀, hrep₀⟩ := hinit.run h₀
  obtain ⟨st, hst, hrep⟩ := hrep₀.run hrun
  exact hrep.agree ((sameFiles_own hown hst₀).run hws hst) hcount

def reportAndUpload : List IndexWrite :=
  [.report (xpacketReportFile (oneByte [99]).sv (reportOf 2 { freshContainer [98] 3 1 1 with
      fragments0 := ⟨1, [7], 1⟩ })), .newFile (oneByte [99]).sv (oneByte [99]).fc 1]

theorem index_stores_agree_four :
    ∃ m₀ m, Transition.run IndexStores.step ⟨ownFiles [1, 2], NetworkList.init⟩
        (ownWrites 3 (ownFiles [1, 2])) = some m₀ ∧
      Transition.run IndexStores.step m₀ reportAndUpload = some m ∧ m.net.ids = [1, 2, 3, 4] ∧
      Agree m := by
  have h₀ := (Option.some_get (show (Transition.run IndexStores.step
    ⟨ownFiles [1, 2], NetworkList.init⟩ (ownWrites 3 (ownFiles [1, 2]))).isSome by
      decide +kernel)).symm
  have hrun := (Option.some_get (show (Transition.run IndexStores.step ((Transition.run
    IndexStores.step ⟨ownFiles [1, 2], NetworkList.init⟩ (ownWrites 3 (ownFiles [1, 2]))).get
      (by decide +kernel)) reportAndUpload).isSome by decide +kernel)).symm
  refine ⟨_, _, h₀, hrun, by decide +kernel, ?_⟩
  have hws : ∀ w ∈ reportAndUpload, Fits w := by
    intro w hw
    rcases List.mem_pair.mp hw with rfl | rfl <;> exact trivial
  exact index_stores_agree (by decide) h₀ hws hrun (by decide +kernel)

end IndexStores

end DSS
