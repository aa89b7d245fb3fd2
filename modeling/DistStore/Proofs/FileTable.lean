import DistStore.Lib.Transition
import DistStore.Model.FileTable
import DistStore.Model.Procedures

/-! The file table: with room in it, it is the list of containers that the other modules
work on; without, the next container is written behind it. -/

namespace DSS.FileTable

open Transition

variable {t t' : FileTable} {op : TableOp} {ops : List TableOp}

/-! ## The table as a list -/

def calls (t : FileTable) (ops : List TableOp) : List AddCall :=
  record step (fun t op => (t.call op).toList) t ops

/-- There is a slot left for the container the operation may add. -/
def HasRoom (op : TableOp) (t : FileTable) : Prop :=
  (t.call op).isSome = true → t.fileCount < FILE_SERVER_MAX_FILES

theorem add_fileCount (h : t.fileCount < FILE_SERVER_MAX_FILES) (c : AddCall) :
    (t.add c).1.fileCount = t.fileCount + 1 := by
  rw [FILE_SERVER_MAX_FILES] at h
  exact u16_of_lt (by omega)

theorem add_slots (t : FileTable) (c : AddCall) {i : ℕ} (h : i < t.fileCount) :
    (t.add c).1.slots i = t.slots i := Function.update_of_ne h.ne _ _

theorem stored_fileCount (t : FileTable) : t.stored.fileCount = t.fileCount := by
  rw [XFileServer.fileCount, stored, List.length_map, List.length_range]

theorem findFile_eq_none_iff {id : ℕ} :
    t.findFile id = none ↔ xfileserverFindFile t.stored id = none := by
  rw [findFile, xfileserverFindFile, stored, List.findIdx?_eq_none_iff, List.find?_eq_none,
    List.forall_mem_map]
  simp only [Bool.not_eq_true]

theorem stored_add (h : t.fileCount < FILE_SERVER_MAX_FILES) (c : AddCall) :
    (t.add c).1.stored =
      (xfileserverAddFile t.stored c.fileName c.fileId c.totalSize c.fragmentCountTotal).1 := by
  have hold : (List.range t.fileCount).map (t.add c).1.slots = (List.range t.fileCount).map t.slots :=
    List.map_congr_left fun i hi => add_slots t c (List.mem_range.mp hi)
  rw [stored, add_fileCount h, List.range_succ, List.map_append, hold, List.map_singleton]
  show (⟨_ ++ [Function.update t.slots t.fileCount _ t.fileCount]⟩ : XFileServer) = _
  rw [Function.update_self]
  rfl

/-- What the other modules make of an operation. -/
def onList (fs : XFileServer) : TableOp → XFileServer
  | .handleNewFile fc sz netSize =>
    (xfileserverAddFile fs fc.name (fs.fileCount + 1) sz (toU64 (fragcountOf netSize sz))).1
  | .storeFragment p => (typeStoreFragment fs p).1
  | .saveFileToIndex r =>
    if xfileserverFindFile fs r.fileId = none then
      (xfileserverAddFile fs r.fileName r.fileId r.fileSize r.fragCount).1
    else fs

theorem onList_handleNewFile {sv : Server} {fs fs' : XFileServer} {net net' : XFileNetworkIndex}
    {fc : XRequestFileCreation} {sz file : ℕ}
    (h : serverIndexHandleNewFile sv fs net fc sz = some (fs', net', file)) :
    fs' = onList fs (.handleNewFile fc sz sv.netSize) := by
  obtain ⟨d, -, h⟩ := Option.bind_eq_some_iff.mp h
  obtain ⟨placed, -, h⟩ := Option.bind_eq_some_iff.mp h
  cases h
  rfl

theorem onList_saveFileToIndex {fs fs' : XFileServer} {net net' : XFileNetworkIndex}
    {r : XReportFileKnowledge} (h : xprocedureSaveFileToIndex fs net r = some (fs', net')) :
    fs' = onList fs (.saveFileToIndex r) := by
  obtain ⟨slot, -, h⟩ := Option.bind_eq_some_iff.mp h
  obtain ⟨fni, -, h⟩ := Option.bind_eq_some_iff.mp h
  obtain ⟨fragments, -, h⟩ := Option.bind_eq_some_iff.mp h
  cases h
  rfl

theorem typeStoreFragment_fst (fs : XFileServer) (p : XPacket) :
    (typeStoreFragment fs p).1 =
      let fragc := XRequestFragmentCreation.ofContent (content p)
      if xfileserverFindFile fs fragc.fileId = none then
        (xfileserverAddFile fs fragc.fileName fragc.fileId fragc.fileSize
          fragc.fragmentCountTotal).1
      else fs := by
  rw [typeStoreFragment]
  cases hfind : xfileserverFindFile fs (XRequestFragmentCreation.ofContent (content p)).fileId with
  | none => simp only [hfind, if_true]
  | some slot => simp only [hfind, reduceCtorEq, if_false]

theorem stored_after (h : HasRoom op t) : (t.after op).stored = onList t.stored op := by
  cases op with
  | handleNewFile fc sz netSize =>
    have hadd := stored_add (h rfl)
      ⟨fc.name, t.fileCount + 1, sz, toU64 (fragcountOf netSize sz)⟩
    rw [onList, stored_fileCount]
    exact hadd
  | storeFragment p =>
    rw [onList, typeStoreFragment_fst]
    by_cases hfind : t.findFile (XRequestFragmentCreation.ofContent (content p)).fileId = none
    · rw [HasRoom, call, if_pos hfind] at h
      rw [after, call, if_pos hfind, if_pos (findFile_eq_none_iff.mp hfind)]
      exact stored_add (h rfl) _
    · rw [after, call, if_neg hfind, if_neg (findFile_eq_none_iff.not.mp hfind)]
      rfl
  | saveFileToIndex r =>
    rw [onList]
    by_cases hfind : t.findFile r.fileId = none
    · rw [HasRoom, call, if_pos hfind] at h
      rw [after, call, if_pos hfind, if_pos (findFile_eq_none_iff.mp hfind)]
      exact stored_add (h rfl) _
    · rw [after, call, if_neg hfind, if_neg (findFile_eq_none_iff.not.mp hfind)]
      rfl

/-- While there is room the table is the list. -/
theorem stored_run (h : Along step HasRoom t ops) (hrun : run step t ops = some t') :
    t'.stored = ops.foldl onList t.stored := by
  induction ops generalizing t with
  | nil => exact Option.some.inj hrun ▸ rfl
  | cons op ops ih =>
    obtain ⟨u, hu, hrun⟩ := run_cons.mp hrun
    obtain rfl := Option.some.inj hu
    rw [List.foldl_cons, ← stored_after h.1]
    exact ih (h.2 _ rfl) hrun

/-! ## The end of the table -/

theorem addsInside_iff_hasRoom : AddsInside op t ↔ HasRoom op t := by
  rw [AddsInside, HasRoom]
  cases t.call op with
  | none => simp
  | some c =>
    constructor
    · intro h _
      exact (h c rfl).1
    · intro h c' _
      refine ⟨h rfl, ?_, fun i hi => add_slots t c' hi⟩
      rw [add_fileCount (h rfl)]
      exact h rfl

/-- There is room all along a run that calls `xfileserver_add_file` no more often than there
are slots. -/
theorem along_hasRoom_iff (h : t.fileCount ≤ FILE_SERVER_MAX_FILES) :
    Along step HasRoom t ops ↔ t.fileCount + (t.calls ops).length ≤ FILE_SERVER_MAX_FILES := by
  induction ops generalizing t with
  | nil => exact iff_of_true trivial h
  | cons op ops ih =>
    have hstep : step t op = some (t.after op) := rfl
    rw [calls, record_cons _ hstep, List.length_append, ← calls, Along, hstep]
    simp only [Option.mem_some_iff, forall_eq']
    cases hcall : t.call op with
    | none =>
      have hafter : t.after op = t := by rw [after, hcall, Option.elim_none]
      rw [HasRoom, hcall, hafter, ih h, Option.toList_none, List.length_nil, Nat.zero_add]
      simp
    | some c =>
      have hafter : t.after op = (t.add c).1 := by rw [after, hcall, Option.elim_some]
      rw [HasRoom, hcall, hafter, Option.toList_some, List.length_singleton]
      constructor
      · rintro ⟨hroom, hrest⟩
        have hcount := add_fileCount (hroom rfl) c
        rw [ih (hcount ▸ hroom rfl), hcount] at hrest
        omega
      · intro hle
        have hroom : t.fileCount < FILE_SERVER_MAX_FILES := by omega
        have hcount := add_fileCount hroom c
        refine ⟨fun _ => hroom, ?_⟩
        rw [ih (hcount ▸ hroom), hcount]
        omega

/-- Every call writes to a slot of the table and leaves the stored containers as they are,
exactly as long as one that adds a container finds fewer than `FILE_SERVER_MAX_FILES`: in the runs
with at most that many calls. -/
theorem file_table_inside_iff (mem : ℕ → XFileContainer) (ops : List TableOp) :
    (Along step AddsInside (init mem) ops ↔ Along step HasRoom (init mem) ops) ∧
      (Along step AddsInside (init mem) ops ↔
        ((init mem).calls ops).length ≤ FILE_SERVER_MAX_FILES) := by
  have hsame : AddsInside = HasRoom := by
    funext op t
    exact propext addsInside_iff_hasRoom
  have hcount : (init mem).fileCount = 0 := rfl
  rw [hsame, along_hasRoom_iff (hcount ▸ Nat.zero_le _), hcount, Nat.zero_add]
  exact ⟨Iff.rfl, Iff.rfl⟩

theorem run_handleNewFile (mem : ℕ → XFileContainer) (fc : XRequestFileCreation) (sz netSize : ℕ)
    {n : ℕ} (hn : n ≤ FILE_SERVER_MAX_FILES) :
    ∃ t, run step (init mem) (List.replicate n (.handleNewFile fc sz netSize)) = some t ∧
      t.fileCount = n := by
  induction n with
  | zero => exact ⟨init mem, rfl, rfl⟩
  | succ n ih =>
    obtain ⟨t, hrun, hcount⟩ := ih (Nat.le_of_succ_le hn)
    refine ⟨t.after (.handleNewFile fc sz netSize), ?_, ?_⟩
    · rw [List.replicate_succ']
      exact run_append.mpr ⟨t, hrun, rfl⟩
    · rw [← hcount] at hn ⊢
      exact add_fileCount hn _

/-- A hundred small files and one more. -/
theorem not_file_table_inside :
    ¬ Along step AddsInside (init fun _ => freshContainer [] 0 0 0)
      (List.replicate 101 (.handleNewFile ⟨[97], 1⟩ 1 2)) := by
  intro h
  obtain ⟨t, hrun, hcount⟩ := run_handleNewFile (fun _ => freshContainer [] 0 0 0) ⟨[97], 1⟩ 1 2
    (n := 100) le_rfl
  have hlast : Along step AddsInside t [.handleNewFile ⟨[97], 1⟩ 1 2] := along_append h hrun
  have hinside := hlast.1 _ rfl
  have hslot : t.fileCount < FILE_SERVER_MAX_FILES := hinside.1
  rw [hcount] at hslot
  exact absurd hslot (by decide)

end DSS.FileTable
