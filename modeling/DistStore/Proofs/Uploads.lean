import DistStore.Proofs.NewFile
import DistStore.Proofs.Rebuild

/-! An upload on its way: the index fans a new file out, entry by entry of its table, and a node that
is sent a fragment stores it in a container it makes for the first. -/

namespace DSS

open Pairs Splice

/-! ## Names and sizes -/

theorem cstr_char200 {s : List UInt8} (hs : ∀ b ∈ s, b ≠ 0) (hl : s.length ≤ 199) :
    cstr (char200 s) = s := by
  obtain ⟨r, hr⟩ : ∃ r, 200 - s.length = r + 1 := ⟨199 - s.length, by omega⟩
  rw [char200, List.take_append, List.take_of_length_le (by omega), List.take_replicate,
    min_eq_left (by omega), hr, List.replicate_succ, cstr_append_zero hs]

theorem strncpy199_char200 {s : List UInt8} (hs : ∀ b ∈ s, b ≠ 0) (hl : s.length ≤ 199) :
    strncpy199 (char200 s) = char200 s := by
  rw [strncpy199, cstr_char200 hs hl, List.take_of_length_le hl]

theorem fragmentSize_eq {fc sz : ℕ} (hfc : 1 ≤ fc) (hsz : sz < 2 ^ 31) (i : ℕ) :
    fragmentSize fc sz i = if i + 1 = fc then sz / fc + sz % fc else sz / fc := by
  have hmod : sz % fc ≤ sz := Nat.mod_le sz fc
  have hsum : sz / fc + sz % fc ≤ sz := by
    have h := Nat.div_add_mod sz fc
    have hle : sz / fc ≤ fc * (sz / fc) := Nat.le_mul_of_pos_left _ hfc
    omega
  rw [fragmentSize, cInt_of_lt (by omega), cInt_of_lt (by omega)]
  split_ifs
  · rw [← Nat.cast_add]
    exact toU64_natCast (by omega)
  · exact toU64_natCast (by omega)

theorem fragment_inside {fc sz i : ℕ} (hsz : sz < 2 ^ 31) (hi : i < fc) :
    i * (sz / fc) + fragmentSize fc sz i ≤ sz := by
  have h := Nat.div_add_mod sz fc
  rw [fragmentSize_eq (by omega) hsz]
  split_ifs with he
  · subst he
    rw [Nat.add_mul, one_mul] at h
    omega
  · have hle : (i + 1) * (sz / fc) ≤ fc * (sz / fc) := Nat.mul_le_mul_right _ (by omega)
    rw [Nat.add_mul, one_mul] at hle
    omega

/-- The fragments cover the file. -/
theorem fragment_covers {fc sz : ℕ} (hfc : 1 ≤ fc) (hsz : sz < 2 ^ 31) {x : ℕ} (hx : x < sz) :
    ∃ i < fc, i * (sz / fc) ≤ x ∧ x < i * (sz / fc) + fragmentSize fc sz i := by
  have h := Nat.div_add_mod sz fc
  by_cases hlast : (fc - 1) * (sz / fc) ≤ x
  · refine ⟨fc - 1, by omega, hlast, ?_⟩
    rw [fragmentSize_eq hfc hsz, if_pos (by omega), ← add_assoc, ← Nat.succ_mul,
      Nat.succ_eq_add_one, Nat.sub_add_cancel hfc, h]
    exact hx
  · have hpos : 0 < sz / fc := Nat.pos_of_ne_zero fun h0 => by simp [h0] at hlast
    have hdiv : x / (sz / fc) < fc - 1 := by
      rw [Nat.div_lt_iff_lt_mul hpos]
      omega
    refine ⟨x / (sz / fc), by omega, Nat.div_mul_le_self .., ?_⟩
    rw [fragmentSize_eq hfc hsz, if_neg (by omega)]
    have hlt := Nat.lt_div_mul_add hpos (a := x)
    omega

theorem strEq_char200 {s t : List UInt8} (hs : ∀ b ∈ s, b ≠ 0) (hsl : s.length ≤ 199)
    (ht : ∀ b ∈ t, b ≠ 0) (htl : t.length ≤ 199) :
    strEq (char200 s) ((char200 t).set 199 0) = decide (s = t) := by
  have hset : (char200 t).set 199 0 = char200 t := by
    refine List.ext_getElem? fun i => ?_
    rw [List.getElem?_set]
    split_ifs with hi hlt
    · subst hi
      rw [char200, List.getElem?_take_of_lt (by norm_num), List.getElem?_append_right (by omega),
        List.getElem?_replicate, if_pos (by omega)]
    · rw [List.getElem?_eq_none (by omega)]
    · rfl
  rw [strEq, hset, cstr_char200 hs hsl, cstr_char200 ht htl]

/-- A client's file: its name and its content. -/
abbrev Upload := List UInt8 × List UInt8

/-- What an upload may be: a name of 1 to 199 bytes without a NUL, 1 to `2^31 - 4097` bytes. -/
structure Uploadable (u : Upload) : Prop where
  name_ne_zero : ∀ b ∈ u.1, b ≠ 0
  name_pos : 1 ≤ u.1.length
  name_le : u.1.length ≤ 199
  size_pos : 1 ≤ u.2.length
  size_le : u.2.length ≤ 2 ^ 31 - 4097

theorem Uploadable.size_lt {u : Upload} (h : Uploadable u) : u.2.length < 2 ^ 31 := by
  have := h.size_le
  omega

theorem Cluster.nodes_sorted (c : Cluster) : c.nodes.Pairwise (· < ·) := List.pairwise_lt_range'

/-! ## The fan-out -/

def fragmentMessage (sv : Server) (d : XIndexData) (data : XFragmentNetworkPointer → List UInt8)
    (fc : XFileContainer) (p : XFragmentNetworkPointer × ℕ) : FragmentTransmission :=
  ⟨d.peerIp p.1.nodeId, xpacketSendFragment sv (xreqfragcreationNew fc p.1 p.2), data p.1⟩

theorem readBuffer_eq {buffer : List UInt8} {b k len : ℕ} (hk : k ≠ 0)
    (h : (k - 1) * b + len ≤ buffer.length) :
    readBuffer buffer ((b : ℤ) * ((k : ℤ) - 1)) len = some (slice buffer ((k - 1) * b) len) := by
  have hoff : (b : ℤ) * ((k : ℤ) - 1) = ((k - 1) * b : ℕ) := by
    rw [Nat.cast_mul, Nat.cast_sub (by omega), Nat.cast_one]
    ring
  rw [readBuffer, hoff, Int.toNat_natCast, if_pos ⟨Int.natCast_nonneg _, h⟩]

theorem storeOwnFragment_eq {e : XFragmentNetworkPointer} (he : e.size < 2 ^ 64) {bytes : List UInt8}
    (hb : bytes.length = e.size) (fc : XFileContainer) :
    storeOwnFragment e bytes fc = (xfileserverAddFragment true fc e.fragment bytes e.size).2 := by
  rw [storeOwnFragment, xfileserverAddFragment]
  simp only [if_true, u64_of_lt he, List.take_of_length_le hb.le]

theorem xreqfragcreationNew_addFragment (fc : XFileContainer) (k : ℕ) (bytes : List UInt8) (n : ℕ)
    (e : XFragmentNetworkPointer) (i : ℕ) :
    xreqfragcreationNew (xfileserverAddFragment true fc k bytes n).2 e i =
      xreqfragcreationNew fc e i := by
  simp only [xfileserverAddFragment]
  split_ifs <;> rfl

structure FansOut (buffer : List UInt8) (base : ℤ) (data : XFragmentNetworkPointer → List UInt8)
    (e : XFragmentNetworkPointer) : Prop where
  storable : Storable e
  size_lt : e.size < 2 ^ 31
  length : (data e).length = e.size
  read : readBuffer buffer (base * ((e.fragment : ℤ) - 1)) e.size = some (data e)

/-- The loop over the table: the index keeps its own entries and sends the others. -/
theorem foldlM_fansOut {buffer : List UInt8} {base : ℤ}
    {data : XFragmentNetworkPointer → List UInt8} (sv : Server) (d : XIndexData)
    (ps : List (XFragmentNetworkPointer × ℕ)) (hps : ∀ p ∈ ps, FansOut buffer base data p.1)
    (fc : XFileContainer) (sent : List FragmentTransmission) :
    ps.foldlM (fanoutFragment sv d base buffer) (fc, sent) =
      some (fillContainer data fc (heldEntries (ps.map Prod.fst) sv.me.nodeId),
        sent ++ (ps.filter fun p => p.1.nodeId ≠ sv.me.nodeId).map (fragmentMessage sv d data fc)) := by
  induction ps generalizing fc sent with
  | nil => simp [heldEntries, fillContainer]
  | cons p ps ih =>
    have hp := hps p (by simp)
    have hrest := fun q hq => hps q (List.mem_cons_of_mem _ hq)
    rw [List.foldlM_cons, fanoutFragment, fanoutEntry]
    by_cases hme : p.1.nodeId = sv.me.nodeId
    · rw [if_pos hme, hp.read]
      simp only [Option.bind_eq_bind, Option.bind_some]
      refine (ih hrest _ _).trans ?_
      -- what is sent later does not depend on the fragments stored before
      have hmsg : fragmentMessage sv d data
          (xfileserverAddFragment true fc p.1.fragment (data p.1) p.1.size).2 =
            fragmentMessage sv d data fc := by
        funext q
        rw [fragmentMessage, xreqfragcreationNew_addFragment, fragmentMessage]
      rw [storeOwnFragment_eq hp.storable.size hp.length, hmsg]
      simp [heldEntries, hme, fillContainer]
    · rw [if_neg hme, cInt_of_lt hp.size_lt, Int.toNat_natCast, hp.read]
      simp only [Option.bind_eq_bind, Option.bind_some]
      refine (ih hrest _ _).trans ?_
      simp [heldEntries, hme, fragmentMessage]

/-! ## The receiving side -/

/-- The store after `entries` of a new file reached it: the container exists as soon
as the first fragment does. -/
def withEntries (fs : XFileServer) (data : XFragmentNetworkPointer → List UInt8)
    (fresh : XFileContainer) (entries : List XFragmentNetworkPointer) : XFileServer :=
  if entries = [] then fs else ⟨fs.files ++ [fillContainer data fresh entries]⟩

theorem fillContainer_ids (data : XFragmentNetworkPointer → List UInt8) (fresh : XFileContainer)
    (entries : List XFragmentNetworkPointer) :
    (fillContainer data fresh entries).fileId = fresh.fileId ∧
      (fillContainer data fresh entries).fileName = fresh.fileName ∧
      (fillContainer data fresh entries).size = fresh.size ∧
      (fillContainer data fresh entries).fragmentCountTotal = fresh.fragmentCountTotal := by
  induction entries using List.reverseRecOn with
  | nil => simp [fillContainer]
  | append_singleton entries e ih =>
    simp only [fillContainer, List.foldl_append, List.foldl_cons, List.foldl_nil] at ih ⊢
    simp only [xfileserverAddFragment]
    split_ifs <;> exact ih

theorem typeStoreFragment_decode (sv : Server) {cr : XRequestFragmentCreation} (h : cr.Fits) :
    XRequestFragmentCreation.ofContent (content (xpacketSendFragment sv cr)) = cr := by
  rw [xpacketSendFragment, xpacketSized, content_commPacket,
    XRequestFragmentCreation.ofContent_bytes h]

theorem findFile_append {fs : XFileServer} {x : XFileContainer}
    (hnew : ∀ y ∈ fs.files, y.fileId ≠ x.fileId) :
    xfileserverFindFile ⟨fs.files ++ [x]⟩ x.fileId = some fs.files.length := by
  have hnone : fs.files.findIdx? (fun y => decide (y.fileId = x.fileId)) = none := by
    rw [List.findIdx?_eq_none_iff]
    exact fun y hy => decide_eq_false (hnew y hy)
  rw [xfileserverFindFile, List.findIdx?_append, hnone]
  simp [List.findIdx?_cons]

theorem update_append (fs : XFileServer) (x : XFileContainer) (f : XFileContainer → XFileContainer) :
    (⟨fs.files ++ [x]⟩ : XFileServer).update fs.files.length f = ⟨fs.files ++ [f x]⟩ := by
  rw [XFileServer.update, List.modify_eq_take_cons_drop (by simp)]
  simp

theorem receiveTransmission_step {sv : Server} {fs : XFileServer} {fresh : XFileContainer}
    {data : XFragmentNetworkPointer → List UInt8} (hnew : ∀ y ∈ fs.files, y.fileId ≠ fresh.fileId)
    (e : XFragmentNetworkPointer) (i : ℕ) (hfits : (xreqfragcreationNew fresh e i).Fits)
    (hfresh : freshContainer fresh.fileName fresh.fileId fresh.size fresh.fragmentCountTotal = fresh)
    (entries : List XFragmentNetworkPointer) :
    receiveTransmission (withEntries fs data fresh entries)
        (xpacketSendFragment sv (xreqfragcreationNew fresh e i)) (data e) =
      withEntries fs data fresh (entries ++ [e]) := by
  have hsnoc : ∀ x, (xfileserverAddFragment true x (xreqfragcreationNew fresh e i).fragId (data e)
      (xreqfragcreationNew fresh e i).fragSize).2 = fillContainer data x [e] := fun x => rfl
  have hfill : fillContainer data fresh (entries ++ [e]) =
      fillContainer data (fillContainer data fresh entries) [e] := List.foldl_append ..
  rw [receiveTransmission, typeStoreFragment, typeStoreFragment_decode sv hfits]
  have hid : (xreqfragcreationNew fresh e i).fileId = fresh.fileId := rfl
  rw [hid]
  by_cases hnil : entries = []
  · subst hnil
    have hnone : xfileserverFindFile fs fresh.fileId = none := by
      rw [xfileserverFindFile, List.findIdx?_eq_none_iff]
      exact fun y hy => decide_eq_false (hnew y hy)
    have hadd : (xfileserverAddFile fs (xreqfragcreationNew fresh e i).fileName fresh.fileId
        (xreqfragcreationNew fresh e i).fileSize
        (xreqfragcreationNew fresh e i).fragmentCountTotal).1 = ⟨fs.files ++ [fresh]⟩ := by
      rw [xfileserverAddFile, show freshContainer (xreqfragcreationNew fresh e i).fileName fresh.fileId
        (xreqfragcreationNew fresh e i).fileSize (xreqfragcreationNew fresh e i).fragmentCountTotal =
          fresh from hfresh]
    simp only [withEntries, if_true, hnone, List.nil_append, List.cons_ne_nil, if_false, hadd]
    rw [serverReceivedFragment, hid, findFile_append hnew]
    simp only [update_append, hsnoc]
  · have hx := (fillContainer_ids data fresh entries).1
    have hfind : xfileserverFindFile ⟨fs.files ++ [fillContainer data fresh entries]⟩ fresh.fileId =
        some fs.files.length := by
      rw [← hx]
      exact findFile_append fun y hy => by rw [hx]; exact hnew y hy
    simp only [withEntries, hnil, if_false, hfind, List.append_eq_nil_iff, List.cons_ne_nil,
      and_false]
    rw [serverReceivedFragment, hid, hfind]
    simp only [update_append, hsnoc, hfill]

/-! ## Delivery to the nodes -/

theorem heldEntries_others (ps : List (XFragmentNetworkPointer × ℕ)) {m n : ℕ} (h : n ≠ m) :
    heldEntries ((ps.filter fun p => p.1.nodeId ≠ m).map Prod.fst) n =
      heldEntries (ps.map Prod.fst) n := by
  simp only [heldEntries, List.filter_map, List.filter_filter]
  congr 1
  refine List.filter_congr fun p _ => ?_
  by_cases hp : p.1.nodeId = n <;> simp [hp, h]

/-- Every node ends with its own entries, in the order of the table. -/
theorem foldl_deliver_fresh {c : Cluster} {fresh : XFileContainer}
    {data : XFragmentNetworkPointer → List UInt8} (sv : Server) {d : XIndexData}
    (hfresh : freshContainer fresh.fileName fresh.fileId fresh.size fresh.fragmentCountTotal = fresh)
    (fs : ℕ → XFileServer) (qs : List (XFragmentNetworkPointer × ℕ))
    (hfits : ∀ q ∈ qs, (xreqfragcreationNew fresh q.1 q.2).Fits)
    (hat : ∀ q ∈ qs, c.nodeAt (d.peerIp q.1.nodeId) = some q.1.nodeId)
    (hnew : ∀ q ∈ qs, ∀ y ∈ (fs q.1.nodeId).files, y.fileId ≠ fresh.fileId) (n : ℕ) :
    (qs.map (fragmentMessage sv d data fresh)).foldl (Network.deliver c) fs n =
      withEntries (fs n) data fresh (heldEntries (qs.map Prod.fst) n) := by
  induction qs using List.reverseRecOn generalizing n with
  | nil => rfl
  | append_singleton qs q ih =>
    have hlast : q ∈ qs ++ [q] := by simp
    have ih := ih (fun q' hq' => hfits q' (List.mem_append_left _ hq'))
      (fun q' hq' => hat q' (List.mem_append_left _ hq'))
      (fun q' hq' => hnew q' (List.mem_append_left _ hq'))
    rw [List.map_append, List.foldl_append, List.map_singleton, List.foldl_cons, List.foldl_nil,
      Network.deliver]
    simp only [fragmentMessage, hat q hlast]
    by_cases hn : n = q.1.nodeId
    · subst hn
      rw [Function.update_self, ih, receiveTransmission_step (hnew q hlast) q.1 q.2
        (hfits q hlast) hfresh]
      simp [heldEntries]
    · rw [Function.update_of_ne hn, ih]
      simp [heldEntries, Ne.symm hn]

end DSS
