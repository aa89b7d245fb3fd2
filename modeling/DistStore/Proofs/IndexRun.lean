import DistStore.Model.IndexRun
import DistStore.Proofs.Fanout
import DistStore.Proofs.Uploads

/-! Names and ids in the index's store and table, over runs of new files and reports. -/

namespace DSS

open Transition

/-! ## One step -/

def XFileServer.ids (fs : XFileServer) : List ℕ := fs.files.map XFileContainer.fileId

def XFileNetworkIndex.ids (net : XFileNetworkIndex) : List ℕ := net.files.map XFileInNetwork.fileId

def XFileServer.names (fs : XFileServer) : List (List UInt8) := fs.files.map XFileContainer.fileName

theorem XFileServer.ids_length (fs : XFileServer) : fs.ids.length = fs.fileCount :=
  List.length_map ..

theorem map_modify_keep {α β : Type*} {f : α → α} {key : α → β} (hf : ∀ a, key (f a) = key a)
    (l : List α) (i : ℕ) : (l.modify i f).map key = l.map key := by
  refine List.ext_getElem? fun j => ?_
  rw [List.getElem?_map, List.getElem?_map, List.getElem?_modify]
  split_ifs
  · cases l[j]? <;> simp [hf]
  · simp

theorem map_modify_const {α β : Type*} {l : List α} {i : ℕ} {a b : α} (ha : l[i]? = some a)
    {key : α → β} (hkey : key b = key a) : (l.modify i fun _ => b).map key = l.map key := by
  refine List.ext_getElem? fun j => ?_
  rw [List.getElem?_map, List.getElem?_map, List.getElem?_modify]
  by_cases hij : i = j
  · subst hij
    simp [ha, hkey]
  · simp [hij]

theorem place_eq_some {st : IndexFiles} {u : NewFile} {fs : XFileServer} {net : XFileNetworkIndex}
    {file : ℕ} (h : st.place u = some (fs, net, file)) :
    file = st.fs.fileCount ∧
      (∃ size count, fs.files =
        st.fs.files ++ [freshContainer u.fc.name (st.fs.fileCount + 1) size count]) ∧
      ∃ e, e.fileId = u16 (st.fs.fileCount + 1) ∧ net.files = st.fnetidx.files ++ [e] := by
  simp only [IndexFiles.place, serverIndexHandleNewFile, Option.bind_eq_bind,
    Option.bind_eq_some_iff, Option.pure_def, Option.some.injEq, Prod.mk.injEq] at h
  obtain ⟨d, -, placed, -, rfl, rfl, rfl⟩ := h
  exact ⟨rfl, ⟨u.size, toU64 (fragcountOf u.sv.netSize u.size), rfl⟩, _, rfl, rfl⟩

/-- The fan-out leaves the table alone, and of a container it changes the slots only. -/
theorem serverIndexFanoutIo_frame {sv : Server} {fs : XFileServer} {net : XFileNetworkIndex}
    {file : ℕ} {buffer : List UInt8} {io : ℕ → FanoutAnswers} {out : FannedOut}
    (h : serverIndexFanoutIo sv fs net file buffer io = some out) :
    out.fnetidx = net ∧ out.fs.ids = fs.ids ∧ out.fs.names = fs.names := by
  obtain ⟨fc, hfc⟩ : ∃ fc, fs.files[file]? = some fc := by
    obtain ⟨r, hfanout, -⟩ := Option.map_eq_some_iff.mp h
    simp only [serverIndexFanout, Option.bind_eq_bind, Option.bind_eq_some_iff] at hfanout
    obtain ⟨-, -, fc, hfc, -⟩ := hfanout
    exact ⟨fc, hfc⟩
  obtain ⟨d, f, fc', qs, -, hloop, rfl⟩ := serverIndexFanoutIo_eq_some hfc h
  obtain ⟨rfl, -, -⟩ := foldlM_fanoutRound hloop
  obtain ⟨hid, hname⟩ := foldl_keepFragment_frame (baseoffsetOf fc f) buffer fc
    (ownEntries sv.me.nodeId (f.fragments.zipIdx.map Prod.fst))
  exact ⟨rfl, map_modify_const hfc hid, map_modify_const hfc hname⟩

/-- A new file adds its name and the next id, and nothing else changes. -/
theorem newFile_lists {st st' : IndexFiles} {u : NewFile} (h : st.newFile u = some st') :
    st'.fs.ids = st.fs.ids ++ [u16 (st.fs.fileCount + 1)] ∧
      st'.fnetidx.ids = st.fnetidx.ids ++ [u16 (st.fs.fileCount + 1)] ∧
      st'.fs.names = st.fs.names ++ [strncpy199 u.fc.name] := by
  simp only [IndexFiles.newFile, Option.bind_eq_bind, Option.bind_eq_some_iff, Option.pure_def,
    Option.some.injEq] at h
  obtain ⟨⟨fs, net, file⟩, hplace, out, hout, rfl⟩ := h
  obtain ⟨-, ⟨size, count, hfs⟩, e, he, hnet⟩ := place_eq_some hplace
  obtain ⟨hfnet, hids, hnames⟩ := serverIndexFanoutIo_frame hout
  refine ⟨?_, ?_, ?_⟩
  · rw [hids, XFileServer.ids, hfs, List.map_append]
    rfl
  · rw [hfnet, XFileNetworkIndex.ids, hnet, List.map_append, List.map_singleton, he]
    rfl
  · rw [hnames, XFileServer.names, hfs, List.map_append]
    rfl

/-! ## Runs of new files -/

/-- The run of the files `us` from an empty index. -/
abbrev runFiles (us : List NewFile) : Option IndexFiles :=
  run IndexFiles.step .empty (us.map .newFile)

theorem runFiles_lists {us : List NewFile} (hlen : us.length < 2 ^ 16) {st : IndexFiles}
    (h : runFiles us = some st) :
    st.fs.ids = (List.range us.length).map (· + 1) ∧
      st.fnetidx.ids = (List.range us.length).map (· + 1) ∧
      st.fs.names = us.map fun u => strncpy199 u.fc.name := by
  induction us using List.reverseRecOn generalizing st with
  | nil =>
    obtain rfl := Option.some.inj h
    exact ⟨rfl, rfl, rfl⟩
  | append_singleton us u ih =>
    rw [List.length_append, List.length_singleton] at hlen
    rw [runFiles, List.map_append, run_append] at h
    obtain ⟨s, hs, hstep⟩ := h
    obtain ⟨t, hnew, ht⟩ := run_cons.mp hstep
    obtain rfl := Option.some.inj ht
    obtain ⟨hids, hnet, hnames⟩ := ih (by omega) hs
    obtain ⟨h1, h2, h3⟩ := newFile_lists hnew
    have hcount : s.fs.fileCount = us.length := by
      rw [← XFileServer.ids_length, hids, List.length_map, List.length_range]
    rw [hcount, u16_of_lt hlen] at h1 h2
    rw [List.length_append, List.length_singleton, List.range_succ, List.map_append, List.map_append,
      h1, h2, h3, hids, hnet, hnames]
    exact ⟨rfl, rfl, rfl⟩

/-- The container at `slot` and the entry at `entry` are made by file `i` of `us`. -/
def CreatedBy (us : List NewFile) (i slot entry : ℕ) : Prop :=
  ∃ u s fs net, us[i]? = some u ∧ runFiles (us.take i) = some s ∧ s.place u = some (fs, net, slot) ∧
    s.fnetidx.files.length = entry

theorem createdBy_self {us : List NewFile} (hlen : us.length < 2 ^ 16) {st : IndexFiles}
    (h : runFiles us = some st) {i : ℕ} (hi : i < us.length) : CreatedBy us i i i := by
  have hsplit : us = us.take i ++ us[i] :: us.drop (i + 1) := by
    rw [← List.drop_eq_getElem_cons hi, List.take_append_drop]
  rw [runFiles, hsplit, List.map_append, run_append] at h
  obtain ⟨s, hs, hrest⟩ := h
  obtain ⟨t, hnew, -⟩ := run_cons.mp hrest
  have htake : (us.take i).length = i := by
    rw [List.length_take]
    omega
  obtain ⟨hids, hnet, -⟩ := runFiles_lists (by omega) hs
  have hplace : ∃ r, s.place us[i] = some r := by
    simp only [IndexFiles.step, IndexFiles.newFile, Option.bind_eq_bind,
      Option.bind_eq_some_iff] at hnew
    obtain ⟨r, hr, -⟩ := hnew
    exact ⟨r, hr⟩
  obtain ⟨⟨fs, net, file⟩, hplace⟩ := hplace
  have hfile : file = i := by
    rw [(place_eq_some hplace).1, ← XFileServer.ids_length, hids, List.length_map, List.length_range,
      htake]
  have hentry : s.fnetidx.files.length = i := by
    have hmap := congrArg List.length hnet
    rwa [XFileNetworkIndex.ids, List.length_map, List.length_map, List.length_range, htake] at hmap
  exact ⟨us[i], s, fs, net, List.getElem?_eq_getElem hi, hs, hfile ▸ hplace, hentry⟩

/-! ## Names -/

theorem getElem?_char200 (s : List UInt8) (i : ℕ) :
    (char200 s)[i]? = if i < 200 then some (s.getD i 0) else none := by
  rw [char200, List.getElem?_take]
  split_ifs with hi
  · by_cases hs : i < s.length
    · rw [List.getElem?_append_left hs, List.getD_eq_getElem?_getD, List.getElem?_eq_getElem hs,
        Option.getD_some]
    · rw [List.getElem?_append_right (by omega), List.getElem?_replicate, if_pos (by omega),
        List.getD_eq_default _ _ (by omega)]
  · rfl

theorem set_char200 (n : List UInt8) : (char200 n).set 199 0 = char200 (n.take 199) := by
  refine List.ext_getElem? fun i => ?_
  rw [List.getElem?_set, getElem?_char200, getElem?_char200, char200_length]
  simp only [List.getD_eq_getElem?_getD, List.getElem?_take]
  rcases lt_trichotomy i 199 with hi | rfl | hi
  · rw [if_neg (by omega), if_pos hi]
  · simp
  · rw [if_neg (by omega), if_neg (by omega), if_neg (by omega)]

theorem take_cstr_char200 {m : List UInt8} (hm : ∀ b ∈ m, b ≠ 0) :
    (cstr (char200 m)).take 199 = m.take 199 := by
  by_cases hl : m.length ≤ 199
  · rw [cstr_char200 hm hl]
  · rw [char200, List.take_append_of_le_length (by omega),
      cstr_of_forall fun b hb => hm b (List.mem_of_mem_take hb), List.take_take]
    rfl
/-- A stored name is compared by its first 199 bytes. -/
theorem strEq_stored {m n : List UInt8} (hm : ∀ b ∈ m, b ≠ 0) (hn : ∀ b ∈ n, b ≠ 0) :
    strEq (strncpy199 (toFixed200 m)) ((toFixed200 n).set 199 0) =
      decide (m.take 199 = n.take 199) := by
  have hcstr (s : List UInt8) (hs : ∀ b ∈ s, b ≠ 0) : cstr (char200 (s.take 199)) = s.take 199 :=
    cstr_char200 (fun b hb => hs b (List.mem_of_mem_take hb)) (List.length_take_le ..)
  rw [strEq, strncpy199, toFixed200, toFixed200, take_cstr_char200 hm, set_char200, hcstr m hm,
    hcstr n hn]

theorem findIdx?_congr {α : Type*} {l : List α} {p q : α → Bool} (h : ∀ a ∈ l, p a = q a) :
    l.findIdx? p = l.findIdx? q := by
  induction l with
  | nil => rfl
  | cons a l ih =>
    rw [List.findIdx?_cons, List.findIdx?_cons, h a (by simp),
      ih fun b hb => h b (List.mem_cons_of_mem _ hb)]

theorem findIdx?_counted {k i : ℕ} (hi : i < k) :
    ((List.range k).map (· + 1)).findIdx? (· = i + 1) = some i := by
  rw [List.findIdx?_eq_some_iff_getElem]
  refine ⟨by simpa using hi, by simp, fun j hj => ?_⟩
  simp
  omega

/-- A request ends at the first file whose name begins with the same 199 bytes. -/
theorem resolve_eq {us : List (List UInt8 × NewFile)} (hlen : us.length < 2 ^ 16)
    (hus : ∀ u ∈ us, AcceptedName u.1 ∧ u.2.fc.name = toFixed200 u.1) {st : IndexFiles}
    (hrun : runFiles (us.map Prod.snd) = some st) {n : List UInt8} (hn : ∀ b ∈ n, b ≠ 0) :
    st.resolve ⟨toFixed200 n⟩ =
      ((us.map Prod.fst).findIdx? fun m => m.take 199 = n.take 199).map fun i => (i, i) := by
  have hlen' : (us.map Prod.snd).length = us.length := List.length_map ..
  obtain ⟨hids, hnet, hnames⟩ := runFiles_lists (by omega) hrun
  rw [hlen'] at hids hnet
  have hname : xfileserverFindFileByName st.fs (toFixed200 n) =
      (us.map Prod.fst).findIdx? fun m => m.take 199 = n.take 199 := by
    have hfind : xfileserverFindFileByName st.fs (toFixed200 n) =
        st.fs.names.findIdx? fun m => strEq m ((toFixed200 n).set 199 0) := by
      rw [XFileServer.names, List.findIdx?_map]
      rfl
    rw [hfind, hnames, List.map_map, List.findIdx?_map, List.findIdx?_map]
    refine findIdx?_congr fun u hu => ?_
    simp only [Function.comp_apply, (hus u hu).2, strEq_stored (hus u hu).1.no_nul hn]
  have hentry {i : ℕ} (hi : i < us.length) : xfilenetindexFindFile st.fnetidx (i + 1) = some i := by
    have hfind : xfilenetindexFindFile st.fnetidx (i + 1) =
        st.fnetidx.ids.findIdx? (· = u16 (i + 1)) := by
      rw [XFileNetworkIndex.ids, List.findIdx?_map]
      rfl
    rw [hfind, hnet, u16_of_lt (by omega), findIdx?_counted hi]
  rw [IndexFiles.resolve, hname]
  cases hfind : (us.map Prod.fst).findIdx? fun m => m.take 199 = n.take 199 with
  | none => rfl
  | some i =>
    have hi : i < us.length := by
      obtain ⟨hi, -⟩ := List.findIdx?_eq_some_iff_getElem.mp hfind
      simpa using hi
    obtain ⟨fc, hfc, hid⟩ : ∃ fc, st.fs.files[i]? = some fc ∧ fc.fileId = i + 1 := by
      have hat := congrArg (fun l => l[i]?) hids
      simpa [XFileServer.ids, hi] using hat
    simp only [Option.bind_eq_bind, Option.bind_some, hfc, hid, hentry hi]
    rfl

/-- What a request finds after any new files: the container and the entry of the first
upload under the name, as long as no other uploaded name agrees with it in 199 bytes. -/
theorem request_finds_first {us : List (List UInt8 × NewFile)}
    (hlen : us.length ≤ FILE_SERVER_MAX_FILES)
    (hus : ∀ u ∈ us, AcceptedName u.1 ∧ u.2.fc.name = toFixed200 u.1) {st : IndexFiles}
    (hrun : runFiles (us.map Prod.snd) = some st) :
    (∀ n ∈ us.map Prod.fst, (∀ m ∈ us.map Prod.fst, m.take 199 = n.take 199 → m = n) →
      ∃ slot entry, st.resolve ⟨toFixed200 n⟩ = some (slot, entry) ∧
        CreatedBy (us.map Prod.snd) ((us.map Prod.fst).idxOf n) slot entry) ∧
    ∀ m ∈ us.map Prod.fst, ∀ n ∈ us.map Prod.fst, m.take 199 ≠ n.take 199 →
      st.resolve ⟨toFixed200 m⟩ ≠ st.resolve ⟨toFixed200 n⟩ := by
  have hlt : us.length < 2 ^ 16 := hlen.trans_lt (by decide)
  have hnul : ∀ n ∈ us.map Prod.fst, ∀ b ∈ n, b ≠ 0 := by
    intro n hn
    obtain ⟨u, hu, rfl⟩ := List.mem_map.mp hn
    exact (hus u hu).1.no_nul
  refine ⟨fun n hn huniq => ?_, fun m hm n hn hne heq => ?_⟩
  · have hi := List.idxOf_lt_length_of_mem hn
    rw [List.length_map] at hi
    refine ⟨_, _, ?_, createdBy_self (by rwa [List.length_map]) hrun (by rwa [List.length_map])⟩
    have hfirst : (us.map Prod.fst).findIdx? (fun m => m.take 199 = n.take 199) =
        some ((us.map Prod.fst).idxOf n) := by
      have hcongr : (us.map Prod.fst).findIdx? (fun m => m.take 199 = n.take 199) =
          (us.map Prod.fst).findIdx? (· == n) := by
        refine findIdx?_congr fun m hm => ?_
        rw [Bool.eq_iff_iff, decide_eq_true_iff, beq_iff_eq]
        exact ⟨huniq m hm, fun h => h ▸ rfl⟩
      rw [hcongr]
      exact List.findIdx?_eq_some_of_exists ⟨n, hn, by simp⟩
    rw [resolve_eq hlt hus hrun (hnul n hn), hfirst]
    rfl
  · rw [resolve_eq hlt hus hrun (hnul m hm), resolve_eq hlt hus hrun (hnul n hn)] at heq
    cases hm' : (us.map Prod.fst).findIdx? fun x => x.take 199 = m.take 199 with
    | none =>
      have hno := List.findIdx?_eq_none_iff.mp hm' m hm
      simp at hno
    | some i =>
      rw [hm', Option.map_some, eq_comm, Option.map_eq_some_iff] at heq
      obtain ⟨j, hn', hij⟩ := heq
      obtain rfl : j = i := (Prod.mk.inj hij).1
      obtain ⟨hj, hjm, -⟩ := List.findIdx?_eq_some_iff_getElem.mp hm'
      obtain ⟨hj', hjn, -⟩ := List.findIdx?_eq_some_iff_getElem.mp hn'
      exact hne ((of_decide_eq_true hjm).symm.trans (of_decide_eq_true hjn))

def oneByte (name : List UInt8) : NewFile :=
  ⟨Cluster.three.readyIndex, ⟨toFixed200 name, 1⟩, 1, [7], allAnswer⟩

theorem request_finds_first_two_files :
    ∃ slot entry, ((runFiles [oneByte [97], oneByte [98]]).get (by decide +kernel)).resolve
        ⟨toFixed200 [98]⟩ = some (slot, entry) ∧
      CreatedBy [oneByte [97], oneByte [98]] 1 slot entry := by
  have hus : ∀ u ∈ [([97], oneByte [97]), ([98], oneByte [98])],
      AcceptedName u.1 ∧ u.2.fc.name = toFixed200 u.1 := by
    simp only [List.forall_mem_cons, List.not_mem_nil, IsEmpty.forall_iff, implies_true, and_true]
    exact ⟨⟨⟨by simp, by simp, by simp⟩, rfl⟩, ⟨by simp, by simp, by simp⟩, rfl⟩
  have hrun : runFiles [oneByte [97], oneByte [98]] =
      some ((runFiles [oneByte [97], oneByte [98]]).get (by decide +kernel)) :=
    (Option.some_get _).symm
  exact (request_finds_first (by decide) hus hrun).1 [98] (by decide) (by decide)

/-- A name sent twice: the request finds the first of the two files. -/
theorem not_request_finds_last :
    ((runFiles [oneByte [97], oneByte [97]]).bind fun st => st.resolve ⟨toFixed200 [97]⟩) =
      some (0, 0) := by
  decide +kernel

end DSS
