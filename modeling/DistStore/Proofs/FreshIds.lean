import DistStore.Model.Failover
import DistStore.Proofs.IndexRun

/-! The ids of new files at an index that starts with files of its own and hears of
others: the next id is the number of files, whatever ids came from outside. -/

namespace DSS

open Transition

/-! ## Ids of one step -/

theorem xfileserverFindFile_eq_none {fs : XFileServer} {id : ℕ} :
    xfileserverFindFile fs id = none ↔ id ∉ fs.ids := by
  simp [xfileserverFindFile, XFileServer.ids]

theorem xfilenetindexFindFile_eq_none {net : XFileNetworkIndex} {id : ℕ} (h : id < 2 ^ 16) :
    xfilenetindexFindFile net id = none ↔ id ∉ net.ids := by
  simp [xfilenetindexFindFile, XFileNetworkIndex.ids, u16_of_lt h]

theorem ids_update {net : XFileNetworkIndex} {f : XFileInNetwork → XFileInNetwork}
    (hf : ∀ e, (f e).fileId = e.fileId) (slot : ℕ) : (net.update slot f).ids = net.ids :=
  map_modify_keep hf net.files slot

/-- A report adds its id to the store and to the table, where it is not known yet. -/
theorem save_ids {fs fs' : XFileServer} {net net' : XFileNetworkIndex} {r : XReportFileKnowledge}
    (hr : r.fileId < 2 ^ 16) (h : xprocedureSaveFileToIndex fs net r = some (fs', net')) :
    fs'.ids = (if r.fileId ∈ fs.ids then fs.ids else fs.ids ++ [r.fileId]) ∧
      net'.ids = (if r.fileId ∈ net.ids then net.ids else net.ids ++ [r.fileId]) := by
  simp only [xprocedureSaveFileToIndex, Option.bind_eq_bind, Option.bind_eq_some_iff,
    Option.pure_def, Option.some.injEq, Prod.mk.injEq] at h
  obtain ⟨slot, -, fni, -, t, -, rfl, rfl⟩ := h
  refine ⟨?_, ?_⟩
  · simp only [xfileserverFindFile_eq_none, ite_not]
    split_ifs
    · rfl
    · rw [XFileServer.ids, xfileserverAddFile, List.map_append]
      simp [freshContainer, u16_of_lt hr, XFileServer.ids]
  · refine (ids_update (f := fun e => { e with fragments := t }) (fun _ => rfl) slot).trans ?_
    simp only [xfilenetindexFindFile_eq_none hr, ite_not]
    split_ifs
    · rfl
    · rw [XFileNetworkIndex.ids, xfilenetindexAddFile, List.map_append]
      simp [xfilenetindexNewFile, u16_of_lt hr, XFileNetworkIndex.ids]

/-! ## The invariant -/

/-- Store and table hold the same ids, no id twice, and an id that did not come from
outside is at most the number of files. -/
structure CountedIds (outside : List ℕ) (st : IndexFiles) : Prop where
  same : st.fnetidx.ids = st.fs.ids
  nodup : st.fs.ids.Nodup
  lt : ∀ id ∈ st.fs.ids, id < 2 ^ 16
  counted : ∀ id ∈ st.fs.ids, id ∈ outside ∨ id ≤ st.fs.fileCount

/-- The files a node starts with enter its table in their order. -/
theorem foldlM_own_ids (nodeId : ℕ) {l : List XFileContainer} {fs fs' : XFileServer}
    {net net' : XFileNetworkIndex} (hlt : ∀ f ∈ l, f.fileId < 2 ^ 16)
    (hin : ∀ f ∈ l, f.fileId ∈ fs.ids) (hnew : (net.ids ++ l.map XFileContainer.fileId).Nodup)
    (h : l.foldlM (fun st f => xprocedureSaveFileToIndex st.1 st.2 (reportOf nodeId f)) (fs, net) =
      some (fs', net')) :
    fs'.ids = fs.ids ∧ net'.ids = net.ids ++ l.map XFileContainer.fileId := by
  induction l generalizing fs net with
  | nil =>
    obtain ⟨rfl, rfl⟩ := Prod.mk.injEq .. ▸ Option.some.inj h
    simp
  | cons f l ih =>
    rw [List.foldlM_cons, Option.bind_eq_bind, Option.bind_eq_some_iff] at h
    obtain ⟨⟨fs1, net1⟩, hsave, hrest⟩ := h
    obtain ⟨hfs, hnet⟩ := save_ids (hlt f (by simp)) hsave
    have hmem : (reportOf nodeId f).fileId ∈ fs.ids := hin f (by simp)
    have hfresh : (reportOf nodeId f).fileId ∉ net.ids := fun hin =>
      (List.nodup_append.mp hnew).2.2 _ hin f.fileId (by simp) rfl
    rw [if_pos hmem] at hfs
    rw [if_neg hfresh] at hnet
    have hnet' : net1.ids = net.ids ++ [f.fileId] := hnet
    obtain ⟨h1, h2⟩ := ih (fun g hg => hlt g (List.mem_cons_of_mem _ hg))
      (fun g hg => hfs ▸ hin g (List.mem_cons_of_mem _ hg))
      (by simpa [hnet', List.append_assoc] using hnew) hrest
    exact ⟨h1.trans hfs, by rw [h2, hnet', List.append_assoc]; rfl⟩

def reportedIds : List IndexAct → List ℕ
  | [] => []
  | .newFile _ :: as => reportedIds as
  | .report p :: as => (XReportFileKnowledge.ofContent (content p)).fileId :: reportedIds as

theorem reportedIds_append (as bs : List IndexAct) :
    reportedIds (as ++ bs) = reportedIds as ++ reportedIds bs := by
  induction as with
  | nil => rfl
  | cons a as ih => cases a <;> simp [reportedIds, ih]

theorem indexOwnFiles_ids {nodeId : ℕ} {fs : XFileServer} {st : IndexFiles} (hnd : fs.ids.Nodup)
    (hlt : ∀ id ∈ fs.ids, id < 2 ^ 16) (h : indexOwnFiles nodeId fs = some st) :
    st.fs.ids = fs.ids ∧ st.fnetidx.ids = fs.ids := by
  simp only [indexOwnFiles, Option.bind_eq_bind, Option.bind_eq_some_iff, Option.pure_def,
    Option.some.injEq] at h
  obtain ⟨⟨fs', net'⟩, hfold, rfl⟩ := h
  have hnew : (xfilenetindexInit.ids ++ fs.files.map XFileContainer.fileId).Nodup := hnd
  exact foldlM_own_ids nodeId (fun f hf => hlt _ (List.mem_map_of_mem hf))
    (fun f hf => List.mem_map_of_mem hf) hnew hfold

theorem countedIds_own {nodeId : ℕ} {fs : XFileServer} {st : IndexFiles} (hnd : fs.ids.Nodup)
    (hlt : ∀ id ∈ fs.ids, id < 2 ^ 16) (h : indexOwnFiles nodeId fs = some st) :
    CountedIds fs.ids st := by
  obtain ⟨hfs, hnet⟩ := indexOwnFiles_ids hnd hlt h
  exact ⟨hnet.trans hfs.symm, hfs ▸ hnd, fun id hid => hlt id (hfs ▸ hid),
    fun id hid => .inl (hfs ▸ hid)⟩

theorem CountedIds.report {outside : List ℕ} {st st' : IndexFiles} {p : XPacket}
    (hst : CountedIds outside st) (h : st.report p = some st') :
    CountedIds (outside ++ [(XReportFileKnowledge.ofContent (content p)).fileId]) st' := by
  have hr : (XReportFileKnowledge.ofContent (content p)).fileId < 2 ^ 16 :=
    Bytes.rd_lt 208 2 (content p)
  simp only [IndexFiles.report, Option.bind_eq_bind, Option.bind_eq_some_iff, Option.pure_def,
    Option.some.injEq] at h
  obtain ⟨⟨fs', net'⟩, hsave, rfl⟩ := h
  obtain ⟨hfs, hnet⟩ := save_ids hr hsave
  rw [hst.same] at hnet
  by_cases hin : (XReportFileKnowledge.ofContent (content p)).fileId ∈ st.fs.ids
  · rw [if_pos hin] at hfs hnet
    have hcount : fs'.fileCount = st.fs.fileCount := by
      rw [← XFileServer.ids_length, hfs, XFileServer.ids_length]
    refine ⟨hnet.trans hfs.symm, hfs ▸ hst.nodup, fun id hid => hst.lt id (hfs ▸ hid),
      fun id hid => ?_⟩
    rw [hcount]
    exact (hst.counted id (hfs ▸ hid)).imp (List.mem_append_left _) fun h => h
  · rw [if_neg hin] at hfs hnet
    have hcount : fs'.fileCount = st.fs.fileCount + 1 := by
      rw [← XFileServer.ids_length, hfs, List.length_append, XFileServer.ids_length]
      rfl
    refine ⟨hnet.trans hfs.symm, ?_, fun id hid => ?_, fun id hid => ?_⟩
    · rw [hfs]
      exact List.nodup_append.mpr ⟨hst.nodup, List.nodup_singleton _, fun a ha b hb => by
        rw [List.mem_singleton.mp hb]
        exact fun hab => hin (hab ▸ ha)⟩
    · rw [hfs, List.mem_append, List.mem_singleton] at hid
      rcases hid with hid | rfl
      · exact hst.lt id hid
      · exact hr
    · rw [hfs, List.mem_append, List.mem_singleton] at hid
      rw [hcount]
      rcases hid with hid | rfl
      · exact (hst.counted id hid).imp (List.mem_append_left _) (by omega)
      · exact .inl (by simp)

/-- The number an upload takes is no id from outside. -/
structure CleanUpload (outside : List ℕ) (st : IndexFiles) : Prop where
  lt : st.fs.fileCount + 1 < 2 ^ 16
  not_outside : st.fs.fileCount + 1 ∉ outside

theorem CountedIds.next_fresh {outside : List ℕ} {st : IndexFiles} (hst : CountedIds outside st)
    (hclean : CleanUpload outside st) : st.fs.fileCount + 1 ∉ st.fs.ids := by
  intro hin
  rcases hst.counted _ hin with h | h
  · exact hclean.not_outside h
  · omega

theorem CountedIds.newFile {outside : List ℕ} {st st' : IndexFiles} {u : NewFile}
    (hst : CountedIds outside st) (hclean : CleanUpload outside st) (h : st.newFile u = some st') :
    CountedIds outside st' := by
  obtain ⟨hfs, hnet, -⟩ := newFile_lists h
  rw [u16_of_lt hclean.lt] at hfs hnet
  have hcount : st'.fs.fileCount = st.fs.fileCount + 1 := by
    rw [← XFileServer.ids_length, hfs, List.length_append, XFileServer.ids_length]
    rfl
  refine ⟨by rw [hnet, hfs, hst.same], ?_, fun id hid => ?_, fun id hid => ?_⟩
  · rw [hfs]
    exact List.nodup_append.mpr ⟨hst.nodup, List.nodup_singleton _, fun a ha b hb => by
      rw [List.mem_singleton.mp hb]
      exact fun hab => hst.next_fresh hclean (hab ▸ ha)⟩
  · rw [hfs, List.mem_append, List.mem_singleton] at hid
    rcases hid with hid | rfl
    · exact hst.lt id hid
    · exact hclean.lt
  · rw [hfs, List.mem_append, List.mem_singleton] at hid
    rw [hcount]
    rcases hid with hid | rfl
    · exact (hst.counted id hid).imp (fun h => h) (by omega)
    · exact .inr le_rfl

/-! ## Runs -/

/-- Every upload of the run `acts` from `s0` has `P`, given the acts before it and the
state it finds. -/
def AtUploads (s0 : IndexFiles) (acts : List IndexAct)
    (P : List IndexAct → IndexFiles → NewFile → Prop) : Prop :=
  ∀ as u bs t, acts = as ++ .newFile u :: bs → run IndexFiles.step s0 as = some t → P as t u

theorem countedIds_run {own : List ℕ} {s0 s : IndexFiles} (h0 : CountedIds own s0)
    {acts : List IndexAct} (hrun : run IndexFiles.step s0 acts = some s)
    (hclean : AtUploads s0 acts fun as t _ => CleanUpload (own ++ reportedIds as) t) :
    CountedIds (own ++ reportedIds acts) s := by
  induction acts using List.reverseRecOn generalizing s with
  | nil =>
    obtain rfl := Option.some.inj hrun
    simpa [reportedIds] using h0
  | append_singleton acts a ih =>
    obtain ⟨t, ht, hstep⟩ := run_append.mp hrun
    obtain ⟨s', hs', hs⟩ := run_cons.mp hstep
    obtain rfl := Option.some.inj hs
    have hbefore := ih ht fun as u bs r hsplit hr =>
      hclean as u (bs ++ [a]) r (by rw [hsplit, List.append_assoc]; rfl) hr
    rw [reportedIds_append, ← List.append_assoc]
    cases a with
    | newFile u =>
      rw [reportedIds, reportedIds, List.append_nil]
      exact hbefore.newFile (hclean acts u [] t rfl ht) hs'
    | report p => exact hbefore.report hs'

/-- An id once known stays. -/
theorem outside_known {own : List ℕ} {s0 s : IndexFiles} (h0 : ∀ id ∈ own, id ∈ s0.fs.ids)
    {acts : List IndexAct} (hrun : run IndexFiles.step s0 acts = some s) :
    ∀ id ∈ own ++ reportedIds acts, id ∈ s.fs.ids := by
  induction acts using List.reverseRecOn generalizing s with
  | nil =>
    obtain rfl := Option.some.inj hrun
    simpa [reportedIds] using h0
  | append_singleton acts a ih =>
    obtain ⟨t, ht, hstep⟩ := run_append.mp hrun
    obtain ⟨s', hs', hs⟩ := run_cons.mp hstep
    obtain rfl := Option.some.inj hs
    rw [reportedIds_append, ← List.append_assoc]
    cases a with
    | newFile u =>
      rw [reportedIds, reportedIds, List.append_nil]
      intro id hid
      rw [(newFile_lists hs').1]
      exact List.mem_append_left _ (ih ht id hid)
    | report p =>
      have hr : (XReportFileKnowledge.ofContent (content p)).fileId < 2 ^ 16 :=
        Bytes.rd_lt 208 2 (content p)
      simp only [IndexFiles.step, IndexFiles.report, Option.bind_eq_bind, Option.bind_eq_some_iff,
        Option.pure_def, Option.some.injEq] at hs'
      obtain ⟨⟨fs', net'⟩, hsave, rfl⟩ := hs'
      intro id hid
      show id ∈ fs'.ids
      rw [(save_ids hr hsave).1]
      rw [List.mem_append] at hid
      split_ifs with hin
      · rcases hid with hid | hid
        · exact ih ht id hid
        · rwa [List.mem_singleton.mp hid]
      · exact hid.elim (fun h => List.mem_append_left _ (ih ht id h)) (List.mem_append_right _)

/-- The upload `u` gets the number after the last file as its id; no container and no entry
has it, and the fan-out finds the entry just made. -/
def FreshUpload (t : IndexFiles) (u : NewFile) : Prop :=
  ∀ fs net file, t.place u = some (fs, net, file) →
    (fs.files[file]?.map XFileContainer.fileId = some (t.fs.fileCount + 1)) ∧
      t.fs.fileCount + 1 ∉ t.fs.ids ∧ t.fs.fileCount + 1 ∉ t.fnetidx.ids ∧
      fs.ids.Nodup ∧ net.ids.Nodup ∧
      xfilenetindexFindFile net (t.fs.fileCount + 1) = some t.fnetidx.files.length

theorem place_ids {st : IndexFiles} {u : NewFile} {fs : XFileServer} {net : XFileNetworkIndex}
    {file : ℕ} (h : st.place u = some (fs, net, file)) :
    fs.ids = st.fs.ids ++ [u16 (st.fs.fileCount + 1)] ∧
      net.ids = st.fnetidx.ids ++ [u16 (st.fs.fileCount + 1)] ∧
      fs.files[file]?.map XFileContainer.fileId = some (u16 (st.fs.fileCount + 1)) := by
  obtain ⟨rfl, ⟨size, count, hfs⟩, e, he, hnet⟩ := place_eq_some h
  refine ⟨?_, ?_, ?_⟩
  · rw [XFileServer.ids, hfs, List.map_append]
    rfl
  · rw [XFileNetworkIndex.ids, hnet, List.map_append, List.map_singleton, he]
    rfl
  · rw [hfs, XFileServer.fileCount, List.getElem?_concat_length]
    rfl

theorem CountedIds.freshUpload {outside : List ℕ} {st : IndexFiles} (hst : CountedIds outside st)
    (hclean : CleanUpload outside st) (u : NewFile) : FreshUpload st u := by
  intro fs net file hplace
  obtain ⟨hfs, hnet, hid⟩ := place_ids hplace
  rw [u16_of_lt hclean.lt] at hfs hnet hid
  have hfresh := hst.next_fresh hclean
  have hnd : (st.fs.ids ++ [st.fs.fileCount + 1]).Nodup :=
    List.nodup_append.mpr ⟨hst.nodup, List.nodup_singleton _, fun a ha b hb => by
      rw [List.mem_singleton.mp hb]
      exact fun hab => hfresh (hab ▸ ha)⟩
  refine ⟨hid, hfresh, hst.same ▸ hfresh, hfs ▸ hnd, by rw [hnet, hst.same]; exact hnd, ?_⟩
  have hfind : xfilenetindexFindFile net (st.fs.fileCount + 1) =
      net.ids.findIdx? (· = u16 (st.fs.fileCount + 1)) := by
    rw [XFileNetworkIndex.ids, List.findIdx?_map]
    rfl
  have hnone : st.fnetidx.ids.findIdx? (· = st.fs.fileCount + 1) = none := by
    rw [List.findIdx?_eq_none_iff]
    intro x hx
    exact decide_eq_false fun h => hfresh (h ▸ hst.same ▸ hx)
  rw [hfind, u16_of_lt hclean.lt, hnet, List.findIdx?_append, hnone]
  simp [XFileNetworkIndex.ids]

/-- From an index that took over with files of its own, whatever reports come in between:
every upload gets a fresh id exactly when at each the number after the last file is the id
of no own file and of no file reported before. -/
theorem uploads_fresh_iff {nodeId : ℕ} {own : XFileServer} (hnd : own.ids.Nodup)
    (hlt : ∀ id ∈ own.ids, id < 2 ^ 16) {s0 : IndexFiles} (h0 : indexOwnFiles nodeId own = some s0)
    {acts : List IndexAct} {s : IndexFiles} (hrun : run IndexFiles.step s0 acts = some s) :
    (AtUploads s0 acts fun _ t u => FreshUpload t u) ↔
      AtUploads s0 acts fun as t _ => CleanUpload (own.ids ++ reportedIds as) t := by
  constructor
  · intro hfresh as u bs t hsplit ht
    obtain ⟨⟨fs, net, file⟩, hplace⟩ : ∃ r, t.place u = some r := by
      rw [hsplit, run_append] at hrun
      obtain ⟨t', ht', hrest⟩ := hrun
      obtain rfl : t = t' := Option.some.inj (ht.symm.trans ht')
      obtain ⟨t1, hstep, -⟩ := run_cons.mp hrest
      simp only [IndexFiles.step, IndexFiles.newFile, Option.bind_eq_bind,
        Option.bind_eq_some_iff] at hstep
      obtain ⟨r, hr, -⟩ := hstep
      exact ⟨r, hr⟩
    obtain ⟨hid, hnew, -⟩ := hfresh as u bs t hsplit ht fs net file hplace
    refine ⟨?_, fun hin => hnew (outside_known ?_ ht _ hin)⟩
    · rw [(place_ids hplace).2.2, Option.some.injEq] at hid
      rw [← hid]
      exact Nat.mod_lt _ (by norm_num)
    · rw [(indexOwnFiles_ids hnd hlt h0).1]
      exact fun id hid => hid
  · intro hclean as u bs t hsplit ht
    refine (countedIds_run (countedIds_own hnd hlt h0) ht ?_).freshUpload
      (hclean as u bs t hsplit ht) u
    intro as' u' bs' t' hsplit' ht'
    exact hclean as' u' (bs' ++ .newFile u :: bs) t'
      (by rw [hsplit, hsplit', List.append_assoc]; rfl) ht'

def ownFiles (ids : List ℕ) : XFileServer :=
  ⟨ids.map fun id => { freshContainer [97] id 1 1 with fragments0 := ⟨1, [7], 1⟩ }⟩

def reportFrom2 (id : ℕ) : IndexAct :=
  .report (xpacketReportFile (serverInit (Cluster.three.args 2)
    ⟨3, Address.zero, none, false⟩) (reportOf 2 { freshContainer [98] id 1 1 with
      fragments0 := ⟨1, [7], 1⟩ }))

theorem uploads_fresh_after_report :
    AtUploads ((indexOwnFiles 3 (ownFiles [1, 2])).get (by decide +kernel))
      [reportFrom2 3, .newFile (oneByte [99])] fun _ t u => FreshUpload t u := by
  have hnd : (ownFiles [1, 2]).ids.Nodup := by decide
  have hlt : ∀ id ∈ (ownFiles [1, 2]).ids, id < 2 ^ 16 := by decide
  have h0 := (Option.some_get (show (indexOwnFiles 3 (ownFiles [1, 2])).isSome by decide +kernel)).symm
  have hsome : (run IndexFiles.step ((indexOwnFiles 3 (ownFiles [1, 2])).get (by decide +kernel))
      [reportFrom2 3, .newFile (oneByte [99])]).isSome := by decide +kernel
  refine (uploads_fresh_iff hnd hlt h0 (Option.some_get hsome).symm).mpr ?_
  intro as u bs t hsplit ht
  obtain ⟨a, hacts⟩ : ∃ a, as = [a] := by
    rcases as with _ | ⟨a, _ | ⟨b, as⟩⟩
    · exact absurd (List.cons.inj hsplit).1 (by simp [reportFrom2])
    · exact ⟨a, rfl⟩
    · simp at hsplit
  subst hacts
  obtain ⟨rfl, -⟩ := List.cons.inj hsplit
  have hcount : (run IndexFiles.step ((indexOwnFiles 3 (ownFiles [1, 2])).get (by decide +kernel))
      [reportFrom2 3]).map (fun t => t.fs.fileCount) = some 3 := by decide +kernel
  have houtside : (ownFiles [1, 2]).ids ++ reportedIds [reportFrom2 3] = [1, 2, 3] := by
    decide +kernel
  rw [ht, Option.map_some, Option.some.injEq] at hcount
  refine ⟨?_, ?_⟩ <;> rw [hcount]
  · decide
  · rw [houtside]
    decide

/-- The new index holds one file of its own, with id 2: the upload gets id 2 as well, and
the fan-out finds the old entry. -/
theorem not_uploads_fresh :
    (((indexOwnFiles 3 (ownFiles [2])).bind fun t => t.place (oneByte [98])).map fun r =>
      (r.1.ids, r.2.1.ids, xfilenetindexFindFile r.2.1 2)) = some ([2, 2], [2, 2], some 0) ∧
    ¬ AtUploads ((indexOwnFiles 3 (ownFiles [2])).get (by decide +kernel))
      [.newFile (oneByte [98])] fun _ t u => FreshUpload t u := by
  refine ⟨by decide +kernel, fun h => ?_⟩
  have hsome : (((indexOwnFiles 3 (ownFiles [2])).get (by decide +kernel)).place
      (oneByte [98])).isSome := by decide +kernel
  obtain ⟨-, hnew, -⟩ := h [] (oneByte [98]) [] _ rfl rfl _ _ _ (Option.some_get hsome).symm
  revert hnew
  decide +kernel

end DSS
