import DistStore.Proofs.QuietIndex

/-! One index at a time, in runs where the index dies at most once before the others
are too few, and dies first. -/

namespace DSS

namespace RingNet

variable {c : Cluster} {d k j n : ℕ} {s s' : RingNet} {a : RingAct}

/-! ## Who votes how -/

/-- A node at place `j` has left `SERVER_BEGIN_OPERATION`. -/
def Begun (j k : ℕ) (sv : Server) : Prop :=
  j < k ∧ sv.state ≠ .waitingNewPeer ∧ sv.state ≠ .beginOperation

instance (j k : ℕ) (sv : Server) : Decidable (Begun j k sv) := inferInstanceAs (Decidable (_ ∧ _))

/-- How often it did. -/
def voted (j k : ℕ) (sv : Server) : ℕ := if Begun j k sv then 1 else 0

theorem voted_congr {k' : ℕ} {sv sv' : Server} (h : Begun j k sv ↔ Begun j k' sv') :
    voted j k sv = voted j k' sv' := if_congr h rfl rfl

/-- Every node that left `SERVER_BEGIN_OPERATION` did so once: node `N - 1` as the index,
the others as followers. -/
structure Votes (c : Cluster) (k : ℕ) (s : RingNet) : Prop where
  leads : ∀ j < c.N - 1, s.trace.count (.leads (c.pos c.N j)) =
    if j + 2 = c.N then voted j k (s.server (c.pos c.N j)) else 0
  follows : ∀ j < c.N - 1, s.trace.count (.follows (c.pos c.N j)) =
    if j + 2 = c.N then 0 else voted j k (s.server (c.pos c.N j))
  only : ∀ n, (∀ j < c.N - 1, n ≠ c.pos c.N j) →
    s.trace.count (.leads n) = 0 ∧ s.trace.count (.follows n) = 0

/-- A step of the notice: the node it is about has not begun. -/
theorem Votes.notice (h : Votes c k s) {k' : ℕ} (hn : NoticeStep c c.N k' j s s') (hj : j < c.N - 1)
    (hk : ∀ i < c.N - 1, i ≠ j → (i < k' ↔ i < k)) (hold : ¬ Begun j k (s.server (c.pos c.N j)))
    (hnew : ¬ Begun j k' (s'.server (c.pos c.N j))) : Votes c k' s' := by
  have hbegun : ∀ i < c.N - 1, (Begun i k' (s'.server (c.pos c.N i)) ↔
      Begun i k (s.server (c.pos c.N i))) := fun i hi => by
    by_cases hij : i = j
    · subst hij
      exact iff_of_false hnew hold
    · rw [hn.other (by omega) (by omega) hij, Begun, Begun, hk i hi hij]
  exact ⟨fun i hi => by rw [hn.leads, h.leads i hi, voted_congr (hbegun i hi)],
    fun i hi => by rw [hn.follows, h.follows i hi, voted_congr (hbegun i hi)],
    fun n hout => by rw [hn.leads, hn.follows]; exact h.only n hout⟩

/-- A step of a busy node that is past its vote. -/
theorem Votes.update (h : Votes c k s) (hj : j < c.N - 1) {sv : Server}
    (hserver : s'.server = Function.update s.server (c.pos c.N j) sv)
    (hbegun : Begun j k sv ↔ Begun j k (s.server (c.pos c.N j)))
    (hleads : ∀ m, s'.trace.count (.leads m) = s.trace.count (.leads m))
    (hfollows : ∀ m, s'.trace.count (.follows m) = s.trace.count (.follows m)) : Votes c k s' := by
  have hsame : ∀ i < c.N - 1, (Begun i k (s'.server (c.pos c.N i)) ↔
      Begun i k (s.server (c.pos c.N i))) := fun i hi => by
    by_cases hij : i = j
    · subst hij
      rw [hserver, Function.update_self]
      exact hbegun
    · rw [hserver, Function.update_of_ne fun he => hij (c.pos_inj (by omega) (by omega) he)]
  exact ⟨fun i hi => by rw [hleads, h.leads i hi, voted_congr (hsame i hi)],
    fun i hi => by rw [hfollows, h.follows i hi, voted_congr (hsame i hi)],
    fun n hout => by rw [hleads, hfollows]; exact h.only n hout⟩

theorem Votes.begin (h : Votes c k s) (he : Electing c k s) (h4 : 4 ≤ c.N) (hj : j < c.N - 1)
    (hjk : j < k) (hstep : s.step c (.begin (c.pos c.N j)) = some s') : Votes c k s' := by
  obtain ⟨-, hstate, rfl⟩ := step_begin hstep
  have hleads := (he.node j hj).leads_iff h4 hj hjk
  have hold : voted j k (s.server (c.pos c.N j)) = 0 := if_neg fun hb => hb.2.2 hstate
  have hnew : voted j k (beginServer 0 (s.server (c.pos c.N j))) = 1 := by
    refine if_pos ⟨hjk, ?_⟩
    rw [beginServer]
    split_ifs <;> simp [serverSetState]
  have hself : Function.update s.server (c.pos c.N j) (beginServer 0 (s.server (c.pos c.N j)))
      (c.pos c.N j) = beginServer 0 (s.server (c.pos c.N j)) := Function.update_self ..
  have hother : ∀ i < c.N - 1, i ≠ j → c.pos c.N i ≠ c.pos c.N j ∧
      Function.update s.server (c.pos c.N j) (beginServer 0 (s.server (c.pos c.N j))) (c.pos c.N i) =
        s.server (c.pos c.N i) := fun i hi hij => by
    have hne : c.pos c.N i ≠ c.pos c.N j := fun he => hij (c.pos_inj (by omega) (by omega) he)
    exact ⟨hne, Function.update_of_ne hne _ _⟩
  refine ⟨fun i hi => ?_, fun i hi => ?_, fun n hout => ?_⟩
  rotate_left 2
  · obtain ⟨h1, h2⟩ := h.only n hout
    have hne := (hout j hj).symm
    rw [addEvent_trace, setServer_trace, setServing_trace, List.count_append, List.count_append, h1, h2]
    split_ifs <;> simp [hne]
  all_goals
    rw [addEvent_trace, addEvent_server, setServer_server, setServer_trace, setServing_trace,
      setServing_server, List.count_append]
    by_cases hij : i = j
  · subst hij
    rw [h.leads i hi, hself, hold, hnew]
    by_cases hlast : i + 2 = c.N
    · simp [hleads.mpr hlast, hlast]
    · simp [mt hleads.mp hlast, hlast]
  · obtain ⟨hne, hsv⟩ := hother i hi hij
    rw [h.leads i hi, hsv, List.count_eq_zero.mpr, Nat.add_zero]
    split_ifs <;> simp [hne]
  · subst hij
    rw [h.follows i hi, hself, hold, hnew]
    by_cases hlast : i + 2 = c.N
    · simp [hleads.mpr hlast, hlast]
    · simp [mt hleads.mp hlast, hlast]
  · obtain ⟨hne, hsv⟩ := hother i hi hij
    rw [h.follows i hi, hsv, List.count_eq_zero.mpr, Nat.add_zero]
    split_ifs <;> simp [hne]

theorem count_write (s : RingNet) (n : ℕ) (p : XPacket) {e : RingEvent} (he : ∀ x y, e ≠ .wrote x y) :
    (s.write n p).trace.count e = s.trace.count e := by
  rw [write]
  split
  · rw [List.count_append, List.count_eq_zero.mpr fun h => he _ _ (List.mem_singleton.mp h),
      Nat.add_zero]
  · rfl

theorem count_writeOpt (s : RingNet) (n : ℕ) (o : Option XPacket) {e : RingEvent}
    (he : ∀ x y, e ≠ .wrote x y) : (s.writeOpt n o).trace.count e = s.trace.count e := by
  rcases o with _ | p
  · rfl
  · exact count_write s n p he

/-- The election and its votes go on together. -/
theorem Votes.step (h : Votes c k s) (he : Electing c k s) (h4 : 4 ≤ c.N) (ha : a.Orderly s)
    (hstep : s.step c a = some s') : ∃ k', Electing c k' s' ∧ Votes c k' s' := by
  have hpast : ∀ {j st}, j < k → (s.server (c.pos c.N j)).state = st → st ≠ .waitingNewPeer →
      st ≠ .beginOperation → Begun j k (s.server (c.pos c.N j)) := fun hjk hs h1 h2 =>
    ⟨hjk, by rw [hs]; exact h1, by rw [hs]; exact h2⟩
  rcases (he.carried h4).cases (by omega) (by omega) (le_refl _) ha.1 (patient_of_orderly ha) hstep with
    ⟨rfl, hn, hwire, hstate⟩ | ⟨h1, hk, hn, hwire, hstate⟩ | ⟨hk, hn, hwire, hstate⟩ |
    ⟨j, hj, hjk, hbusy, hb⟩
  · refine ⟨1, he.notice hn (by omega) rfl rfl (by omega) hwire (by rw [hstate, if_pos rfl]),
      h.notice hn (by omega) (by omega) (fun hb => absurd hb.1 (Nat.lt_irrefl 0)) fun hb => hb.2.1 hstate⟩
  · rw [if_pos rfl] at hstate
    exact ⟨k + 1, he.notice hn (by omega) rfl rfl hk hwire (by rw [hstate, if_neg (by omega)]),
      h.notice hn (by omega) (by omega) (fun hb => absurd hb.1 (Nat.lt_irrefl k)) fun hb => hb.2.2 hstate⟩
  · rw [if_pos rfl] at hstate
    exact ⟨c.N, he.close h4 hk hn hwire hstate,
      h.notice hn (by omega) (by omega) (fun hb => hb.2.1 (he.closed (by omega) (by omega)))
        fun hb => hb.2.2 hstate⟩
  · refine ⟨k, ?_⟩
    rcases hbusy with rfl | rfl | rfl | rfl
    · exact ⟨he.begin h4 hj hjk hb hstep, h.begin he h4 hj hjk hstep⟩
    · refine ⟨he.present h4 hj hjk hb hstep, ?_⟩
      obtain ⟨-, hstate, rfl⟩ := step_present hstep
      refine h.update hj (write_server ..) ?_ (fun m => count_write _ _ _ (by simp))
        fun m => count_write _ _ _ (by simp)
      exact iff_of_true ⟨hjk, by simp [serverIndexPresentItself, serverSetState]⟩
        (hpast hjk hstate (by decide) (by decide))
    · refine ⟨he.follow h4 hj hjk hb hstep, ?_⟩
      obtain ⟨-, hstate, f, p, rest, -, -, rfl⟩ := step_gossip hstep
      refine h.update hj (writeOpt_server ..) ?_ (fun m => count_writeOpt _ _ _ (by simp))
        fun m => count_writeOpt _ _ _ (by simp)
      exact iff_of_true ⟨hjk, by simp [serverWaitIndexGossip, serverSetState]⟩
        (hpast hjk hstate (by decide) (by decide))
    · refine ⟨he.report hj hjk hstep, ?_⟩
      obtain ⟨-, hstate, i, -, halive, hwait, -, rfl⟩ := step_report hstep
      obtain ⟨m, hm, rfl⟩ := (he.toBase.alive_iff (by omega) (le_refl _)).mp halive
      have hmk := (he.carried h4).lt hm (by simp [hwait])
      have hne : c.pos c.N m ≠ c.pos c.N j := fun he => by
        rw [he, hstate] at hwait
        exact absurd hwait (by decide)
      have h1 : Votes c k (s.setServer (c.pos c.N j) (reported (s.server (c.pos c.N j)))) := by
        refine h.update hj rfl ?_ (fun _ => rfl) fun _ => rfl
        exact iff_of_true ⟨hjk, by simp [reported, serverSetState]⟩
          (hpast hjk hstate (by decide) (by decide))
      refine h1.update hm rfl ?_ (fun _ => rfl) fun _ => rfl
      rw [setServer_server, Function.update_of_ne hne]
      refine iff_of_true ⟨hmk, ?_⟩ (hpast hmk hwait (by decide) (by decide))
      rw [indexClientDone]
      split_ifs
      · simp [serverSetState]
      · simp [countReportedPeer, serverIndexSaveReportedPeer, hwait]

/-! ## The eras of a run -/

/-- The states of runs in which every death is processed before the next and the index,
unless it leaves at most one survivor, dies only first and among four or more nodes; node 1
accepts nothing in the pass in which it finds it dead. -/
inductive FirstIndexDeath (c : Cluster) : RingNet → Prop
  | booted : FirstIndexDeath c c.booted
  | step {s s' : RingNet} {a : RingAct} (h : FirstIndexDeath c s) (ha : a.Orderly s)
    (hstep : s.step c a = some s') : FirstIndexDeath c s'
  | die {s s' : RingNet} {n : ℕ} (h : FirstIndexDeath c s) (hs : s.Settled c)
    (hstep : s.step c (.die n) = some s')
    (hfirst : serverIsIndex (s.server n) → 2 ≤ (s'.survivors c).length → s.deaths = [] ∧ 4 ≤ c.N) :
    FirstIndexDeath c s'

theorem FirstIndexDeath.reachable (h : FirstIndexDeath c s) : c.Reachable s := by
  induction h with
  | booted => exact .booted
  | step _ ha hstep ih => exact .step ih ha.1 hstep
  | die _ hs hstep _ ih => exact .die ih hs hstep

/-- The index lives, or died first, or has at most one survivor. -/
inductive Era (c : Cluster) (s : RingNet) : Prop
  | quiet (I : ℕ) (h : Quiet c I s)
  | electing (k : ℕ) (h4 : 4 ≤ c.N) (h : Electing c k s) (hv : Votes c k s)
  | lone (h : (s.survivors c).length ≤ 1)

theorem votes_of_die (hstep : c.booted.step c (.die c.N) = some s) : Votes c 0 s := by
  obtain ⟨-, rfl⟩ := step_die hstep
  have hnone : ∀ j (sv : Server), voted j 0 sv = 0 := fun j sv =>
    if_neg fun hb => absurd hb.1 (Nat.not_lt_zero j)
  exact ⟨fun j _ => by rw [hnone, ite_self]; rfl, fun j _ => by rw [hnone, ite_self]; rfl,
    fun _ _ => ⟨rfl, rfl⟩⟩

/-- When every node is idle again, the notice has come around. -/
theorem Electing.settled (h : Electing c k s) (h4 : 4 ≤ c.N) (hs : s.Settled c) : k = c.N := by
  by_contra hk
  have hle := h.le
  obtain ⟨hidle, -, f, hf, -, hdial⟩ := hs (c.pos c.N 0)
    ((h.toBase.alive_iff (by omega) (le_refl _)).mpr ⟨0, by omega, rfl⟩)
  rcases Nat.eq_zero_or_pos k with rfl | h1
  · -- the stream of the successor is the dead node's
    have hfd := (h.node 0 (by omega)).streamFd
    rw [if_pos rfl, if_neg (by omega)] at hfd
    rw [peerB] at hf
    split_ifs at hf
    · obtain rfl := Option.some.inj (hfd.symm.trans hf)
      rw [h.dialer c.N (le_refl _), h.deaths] at hdial
      exact hdial (List.mem_singleton_self _)
    · exact absurd hf (by simp)
  · exact absurd (hidle.2.1.symm.trans (h.closed h1 (by omega))) (by decide)

/-- Once the election is over, node `N - 1` is the index of all. -/
theorem Electing.quiet (h : Electing c k s) (h4 : 4 ≤ c.N) (hs : s.Settled c) :
    Quiet c (c.N - 1) s := by
  obtain rfl := h.settled h4 hs
  have hN := c.N_lt
  have hb := h.toBase
  have hpos : ∀ n, Alive c s n → ∃ j < c.N - 1, n = c.pos c.N j := fun n hn =>
    (hb.alive_iff (by omega) (le_refl _)).mp hn
  have hlast : c.N - 1 = c.pos c.N (c.N - 2) := by
    rw [c.pos_N]
    omega
  have hfirst : c.pos c.N 0 = 1 := c.pos_N 0
  refine ⟨?_, fun n hn => .inl (hs n hn).1.2.1, fun n hn => ?_, fun n hn hne => ?_, fun hn => ?_,
    fun n hn f hf p hp => ?_⟩
  · exact (hb.alive_iff (by omega) (le_refl _)).mpr ⟨c.N - 2, by omega, hlast⟩
  · obtain ⟨j, hj, rfl⟩ := hpos n hn
    rw [h.index j hj, if_pos ⟨by omega, .inr (.inr (hs _ hn).1.2.1)⟩]
  · obtain ⟨j, hj, rfl⟩ := hpos n hn
    rw [c.pos_N] at hne ⊢
    rw [c.backwardId_eq_if (by omega) (by omega), if_neg hne, u64_of_lt (by omega)]
    omega
  · have hpeer := (hb.peerB (show 0 < c.N - 1 by omega) fun _ => rfl).1
    rw [hfirst] at hpeer
    exact ⟨_, hpeer, (hb.redial (by omega)).1.trans hlast.symm⟩
  · obtain ⟨-, hback, g, hg, hwire, -⟩ := hs n hn
    rcases hf with hf | hf
    · rw [peerB] at hg
      split_ifs at hg
      · obtain rfl := Option.some.inj (hf.symm.trans hg)
        rw [hwire] at hp
        exact absurd hp List.not_mem_nil
      · exact absurd hg (by simp)
    · rw [hback] at hf
      exact absurd hf List.not_mem_nil

/-- When nobody can step any more, or everybody is idle, all have voted. -/
theorem Electing.begun (h : Electing c k s) (h4 : 4 ≤ c.N)
    (hend : Transition.Quiescent (RingNet.step c) RingAct.Survivor s ∨ s.Settled c) :
    k = c.N ∧ ∀ j < c.N - 1, Begun j k (s.server (c.pos c.N j)) := by
  have hle := h.le
  have halive : ∀ j < c.N - 1, Alive c s (c.pos c.N j) := fun j hj =>
    (h.toBase.alive_iff (by omega) (le_refl _)).mpr ⟨j, hj, rfl⟩
  rcases hend with hquiet | hs
  · obtain rfl : k = c.N := by
      by_contra hk
      obtain ⟨a, ha, hnone⟩ := (h.carried h4).enabled (by omega) (by omega) (le_refl _) (by omega)
      exact hnone (hquiet a ha)
    refine ⟨rfl, fun j hj => ⟨by omega, fun hs => ?_, fun hs => ?_⟩⟩
    · have helects := h.elects j hj (by omega) fun _ => rfl
      rw [hs, Elects] at helects
      split_ifs at helects <;> simp at helects
    · exact begin_eq_none (halive j hj) (h.admitted _) (hquiet (.begin _) fun n => by simp) hs
  · obtain rfl := h.settled h4 hs
    refine ⟨rfl, fun j hj => ⟨by omega, ?_⟩⟩
    rw [(hs _ (halive j hj)).1.2.1]
    exact ⟨by decide, by decide⟩

theorem survivors_congr (hd : s'.deaths = s.deaths) : survivors c s' = survivors c s :=
  List.filter_congr fun n _ => decide_eq_decide.mpr (by rw [Alive, Alive, hd])

theorem Era.step (h : Era c s) (hr : c.Reachable s) (ha : a.Orderly s) (hstep : s.step c a = some s') :
    Era c s' := by
  rcases h with ⟨I, h⟩ | ⟨k, h4, h, hv⟩ | h
  · exact .quiet I (h.step (streams_of_reachable hr) (dry_of_reachable hr) ha.1 hstep)
  · obtain ⟨k', h', hv'⟩ := hv.step h h4 ha hstep
    exact .electing k' h4 h' hv'
  · exact .lone (survivors_congr (step_streams ha.1 hstep).deaths ▸ h)

theorem survivors_die (hstep : s.step c (.die n) = some s') :
    (survivors c s').length ≤ (survivors c s).length := by
  obtain ⟨-, rfl⟩ := step_die hstep
  refine (List.monotone_filter_right _ fun m hm => ?_).length_le
  have hm := of_decide_eq_true hm
  exact decide_eq_true ⟨hm.1, hm.2.1, fun hd => hm.2.2 (List.mem_append_left _ hd)⟩

theorem Era.die (h : Era c s) (hr : c.Reachable s) (hs : s.Settled c)
    (hstep : s.step c (.die n) = some s')
    (hfirst : serverIsIndex (s.server n) → 2 ≤ (s'.survivors c).length → s.deaths = [] ∧ 4 ≤ c.N) :
    Era c s' := by
  by_cases hfew : (survivors c s').length ≤ 1
  · exact .lone hfew
  have hn := (step_die hstep).1
  have hme := (streams_of_reachable hr).me n
  have hfirst' : (s.server n).index.nodeId = n → s.deaths = [] ∧ 4 ≤ c.N := fun hi =>
    hfirst (decide_eq_true (hi.trans hme.symm)) (by omega)
  have hquiet : ∀ I, Quiet c I s → Era c s' := fun I h => by
    by_cases hne : n = I
    · subst hne
      obtain ⟨hnone, h4⟩ := hfirst' (h.index n hn)
      obtain rfl := eq_booted_of_no_death hr hnone
      obtain rfl : c.N = n := ((c.bootedServer_facts n).2.2.2).symm.trans (h.index n hn)
      exact .electing 0 h4 (electing_of_die h4 hstep) (votes_of_die hstep)
    · exact .quiet I (h.die hstep hne)
  rcases h with ⟨I, h⟩ | ⟨k, h4, h, -⟩ | h
  · exact hquiet I h
  · exact hquiet _ (h.quiet h4 hs)
  · exact absurd ((survivors_die hstep).trans h) hfew

theorem FirstIndexDeath.era (h : FirstIndexDeath c s) (h3 : 3 ≤ c.N) : Era c s := by
  induction h with
  | booted => exact .quiet c.N (quiet_booted h3)
  | step h ha hstep ih => exact ih.step h.reachable ha hstep
  | die h hs hstep hfirst ih => exact ih.die h.reachable hs hstep hfirst

/-- Nobody considers itself the index beside another. -/
theorem Era.unique (h : Era c s) (hr : c.Reachable s) {m : ℕ} (hm : Alive c s m) (hn : Alive c s n)
    (hmi : serverIsIndex (s.server m)) (hni : serverIsIndex (s.server n)) : m = n := by
  have hst := streams_of_reachable hr
  have hmi : (s.server m).index.nodeId = m := (of_decide_eq_true hmi).trans (hst.me m)
  have hni : (s.server n).index.nodeId = n := (of_decide_eq_true hni).trans (hst.me n)
  rcases h with ⟨I, h⟩ | ⟨k, h4, h, -⟩ | h
  · rw [← hmi, ← hni, h.index m hm, h.index n hn]
  · have hone : ∀ i, Alive c s i → (s.server i).index.nodeId = i → i = c.N - 1 := fun i hi hii => by
      obtain ⟨j, hj, rfl⟩ := (h.toBase.alive_iff (by omega) (le_refl _)).mp hi
      rw [h.index j hj, c.pos_N] at hii
      rw [c.pos_N]
      split_ifs at hii <;> omega
    rw [hone m hm hmi, hone n hn hni]
  · by_contra hne
    have hmem : ∀ i, Alive c s i → i ∈ survivors c s := fun i hi =>
      List.mem_filter.mpr ⟨Cluster.mem_nodes.mpr ⟨hi.1, hi.2.1⟩, decide_eq_true hi⟩
    obtain ⟨x, hx⟩ : ∃ x, survivors c s = [x] := by
      rcases hl : survivors c s with _ | ⟨x, _ | ⟨y, l⟩⟩
      · have := hmem m hm
        rw [hl] at this
        exact absurd this List.not_mem_nil
      · exact ⟨x, rfl⟩
      · rw [hl, List.length_cons, List.length_cons] at h
        omega
    have h1 := hmem m hm
    have h2 := hmem n hn
    rw [hx, List.mem_singleton] at h1 h2
    exact hne (h1.trans h2.symm)

end RingNet

open RingNet Transition

/-- One survivor is the index, and the others follow it. -/
structure Elected (c : Cluster) (s : RingNet) (l : ℕ) : Prop where
  alive : Alive c s l
  leads : s.trace.count (.leads l) = 1
  follows : ∀ n, Alive c s n → n ≠ l → s.trace.count (.follows n) = 1
  leader : ∀ n, RingEvent.leads n ∈ s.trace → n = l
  follower : ∀ n, RingEvent.follows n ∈ s.trace → n ≠ l

end DSS
