import DistStore.Proofs.BootGossip
import DistStore.Proofs.UniqueIndex

/-! The presentation of a new index reaches every other node once: in the ring that comes up
and in the ring whose index died. -/

namespace DSS

def RingAct.node : RingAct → ℕ
  | .health n | .check n | .accept n | .identify n | .newPeer n | .begin n | .present n | .gossip n
  | .report n | .die n => n

def RingAct.ofNode (n : ℕ) : List RingAct :=
  [.health n, .check n, .accept n, .identify n, .newPeer n, .begin n, .present n, .gossip n, .report n]

theorem RingAct.mem_ofNode {a : RingAct} (ha : a.Survivor) : a ∈ RingAct.ofNode a.node := by
  cases a with
  | die n => exact absurd rfl (ha n)
  | _ n => simp [RingAct.ofNode, RingAct.node]

namespace RingNet

variable {c : Cluster} {k j n : ℕ} {sv : Server} {s s' : RingNet} {a : RingAct}
  {log l : List (ℕ × XPacket)}

/-! ## After the death of the index -/

/-- Node `n` is told of index `N - 1`, when `k` nodes know that `N` died. -/
def ElectTold (c : Cluster) (k n : ℕ) (sv : Server) : Prop :=
  ∃ j < c.N - 1, n = c.pos c.N j ∧ Spoken j k sv

theorem electTold_pos (hj : j < c.N - 1) : ElectTold c k (c.pos c.N j) sv ↔ Spoken j k sv := by
  constructor
  · rintro ⟨i, hi, he, hs⟩
    rwa [c.pos_inj (by omega) (by omega) he]
  · intro hs
    exact ⟨j, hj, rfl, hs⟩

/-- Presentations are on streams to followers only. -/
def Ahead (c : Cluster) (s : RingNet) : Prop :=
  ∀ f, ∀ p ∈ s.wire f, IsIndexPresentation p → ∃ j, j + 2 < c.N ∧ f = inFd c c.N j

theorem not_isIndexPresentation_notice (d sender : ℕ) :
    ¬ IsIndexPresentation (c.notice d sender) := by
  intro h
  have hlen : (c.notice d sender).length = SIZEOF_COMM := commPacket_length (by
    rw [XPeerDied.bytes, List.length_append, Bytes.le_length]
    exact (by decide : CONTENT + (8 + 6) ≤ SIZEOF_COMM))
  rw [IsIndexPresentation, hlen] at h
  exact absurd h (by decide)

theorem ahead_carrying (hw : s.wire = carrying c c.N k) : Ahead c s := by
  intro f p hp hpres
  rw [hw, carrying] at hp
  split_ifs at hp
  · rw [List.mem_singleton.mp hp] at hpres
    exact absurd hpres (not_isIndexPresentation_notice _ _)
  · exact absurd hp List.not_mem_nil

theorem Electing.received (he : Electing c k s) (h4 : 4 ≤ c.N) (hstep : s.step c a = some s')
    (ha : ∀ n, a ≠ .gossip n) : ∀ r ∈ s.received a, ¬ IsIndexPresentation r.2 := by
  cases a with
  | check n =>
    obtain ⟨hidle, f, p, rest, r, hf, hw, -⟩ := step_check hstep
    obtain ⟨j, hj, rfl⟩ := (he.toBase.alive_iff (by omega) (le_refl _)).mp hidle.1
    have hp : ¬ IsIndexPresentation p := by
      by_cases hk : k + 2 ≤ c.N
      · rw [he.carry hk, carrying] at hw
        split_ifs at hw
        obtain ⟨rfl, -⟩ := List.cons.inj hw
        exact not_isIndexPresentation_notice _ _
      · rw [(he.carried h4).quiet (by omega) j hj hidle.2.1 f hf] at hw
        cases hw
    intro r hr
    rw [received_check hf hw, List.mem_singleton] at hr
    rw [hr]
    exact hp
  | gossip n => exact absurd rfl (ha n)
  | _ => exact fun r hr => absurd hr List.not_mem_nil

/-- A step of the notice. The node it is about has not spoken. -/
theorem HeardOnce.notice (h : HeardOnce c (c.N - 1) (ElectTold c k) s log) {k' : ℕ}
    (hn : NoticeStep c c.N k' j s s') (hk : ∀ i < c.N - 1, i ≠ j → (i < k' ↔ i < k))
    (hold : ¬ Spoken j k (s.server (c.pos c.N j))) (hnew : ¬ Spoken j k' (s'.server (c.pos c.N j)))
    (hj : j < c.N - 1) (hl : ∀ r ∈ l, ¬ IsIndexPresentation r.2) :
    HeardOnce c (c.N - 1) (ElectTold c k') s' (log ++ l) := by
  have hspoken : ∀ i < c.N - 1, (Spoken i k' (s'.server (c.pos c.N i)) ↔
      Spoken i k (s.server (c.pos c.N i))) := by
    intro i hi
    by_cases hij : i = j
    · subst hij
      exact iff_of_false hnew hold
    · rw [hn.other (by omega) (by omega) hij, Spoken, Spoken, hk i hi hij]
  have hindex : ∀ n, (s'.server n).index = (s.server n).index := by
    intro n
    by_cases hnj : n = c.pos c.N j
    · rw [hnj, hn.index]
    · rw [hn.server, Function.update_of_ne hnj]
  refine h.silent hl (fun n _ => ⟨?_, ?_⟩) fun n _ => ⟨by rw [hindex], by rw [hindex]⟩
  · rintro ⟨i, hi, rfl, hs⟩
    exact ⟨i, hi, rfl, (hspoken i hi).mp hs⟩
  · rintro ⟨i, hi, rfl, hs⟩
    exact ⟨i, hi, rfl, (hspoken i hi).mpr hs⟩

/-- A follower takes the presentation and stores what it names. -/
theorem Electing.heard_gossip (he : Electing c k s) (h : HeardOnce c (c.N - 1) (ElectTold c k) s log)
    (hahead : Ahead c s) (hj : j < c.N - 1) (hjk : j < k)
    (hstep : s.step c (.gossip (c.pos c.N j)) = some s') :
    HeardOnce c (c.N - 1) (ElectTold c k) s' (log ++ s.received (.gossip (c.pos c.N j))) ∧
      Ahead c s' := by
  obtain ⟨-, hstate, f, p, rest, hf, hw, rfl⟩ := step_gossip hstep
  obtain ⟨hlt, -, -, rfl, rfl, rfl⟩ := he.takes hj hjk hstate hf hw
  have hpeer : (s.server (c.pos c.N j)).peerF.nodeId = j + 2 := by
    have hpeer := (he.node j hj).peerF
    rw [if_neg (by omega)] at hpeer
    rw [hpeer.2.2, c.pos_N]
  rw [received_gossip hf hw, serverWaitIndexGossip_presentation c.N_lt, hpeer]
  constructor
  · refine h.take (writeOpt_server ..) ?_ ?_ ?_ rfl rfl
    · rw [c.pos_N]
      omega
    · rw [electTold_pos hj]
      exact not_spoken hstate (.inr (.inl rfl))
    · rw [electTold_pos hj]
      exact ⟨hjk, .inl rfl⟩
  · have hkept : ∀ g, ∀ q ∈ Function.update s.wire (inFd c c.N j) [] g, IsIndexPresentation q →
        ∃ i, i + 2 < c.N ∧ g = inFd c c.N i := by
      intro g q hq
      by_cases hg : g = inFd c c.N j
      · rw [hg, Function.update_self] at hq
        exact absurd hq List.not_mem_nil
      · rw [Function.update_of_ne hg] at hq
        exact hahead g q hq
    intro g q hq hpres
    by_cases hend : c.N - 1 = j + 2
    · rw [if_neg fun hne => hne hend] at hq
      exact hkept g q hq hpres
    · rw [if_pos hend, writeOpt_some] at hq
      rcases mem_write hq with hq | ⟨hg, -⟩
      · exact hkept g q hq hpres
      · rw [setServer_server, Function.update_self] at hg
        obtain ⟨hout, -, -⟩ := he.toBase.stream hj hjk
        rw [nextPos, if_neg hlt.ne] at hout
        exact ⟨j + 1, by omega, Option.some.inj (hg.symm.trans hout)⟩

theorem Electing.heard_step (he : Electing c k s) (h4 : 4 ≤ c.N)
    (h : HeardOnce c (c.N - 1) (ElectTold c k) s log) (hahead : Ahead c s) (ha : a.Orderly s)
    (hstep : s.step c a = some s') :
    ∃ k', Electing c k' s' ∧ HeardOnce c (c.N - 1) (ElectTold c k') s' (log ++ s.received a) ∧
      Ahead c s' := by
  by_cases hg : ∃ n, a = .gossip n
  · obtain ⟨n, rfl⟩ := hg
    obtain ⟨j, hj, hjk, rfl, hb⟩ :=
      (he.carried h4).busy (by omega) (by omega) le_rfl (.inr (.inr (.inl rfl))) hstep
    exact ⟨k, he.follow h4 hj hjk hb hstep, he.heard_gossip h hahead hj hjk hstep⟩
  have hl := he.received h4 hstep fun n hn => hg ⟨n, hn⟩
  rcases (he.carried h4).cases (by omega) (by omega) (le_refl _) ha.1
      (patient_of_orderly ha) hstep with
    ⟨rfl, hn, hwire, hstate⟩ | ⟨h1, hk, hn, hwire, hstate⟩ | ⟨hk, hn, hwire, hstate⟩ |
    ⟨j, hj, hjk, hbusy, hb⟩
  · exact ⟨1, he.notice hn (by omega) rfl rfl (by omega) hwire (by rw [hstate, if_pos rfl]),
      h.notice hn (by omega) (fun hs => absurd hs.1 (Nat.lt_irrefl 0))
        (not_spoken hstate (.inr (.inr (.inr rfl)))) (by omega) hl, ahead_carrying hwire⟩
  · rw [if_pos rfl] at hstate
    exact ⟨k + 1, he.notice hn (by omega) rfl rfl hk hwire (by rw [hstate, if_neg (by omega)]),
      h.notice hn (by omega) (fun hs => absurd hs.1 (Nat.lt_irrefl k))
        (not_spoken hstate (.inr (.inr (.inl rfl)))) (by omega) hl, ahead_carrying hwire⟩
  · rw [if_pos rfl] at hstate
    refine ⟨c.N, he.close h4 hk hn hwire hstate, h.notice hn (by omega)
      (not_spoken (he.closed (by omega) (by omega)) (.inr (.inr (.inr rfl))))
      (not_spoken hstate (.inr (.inr (.inl rfl)))) (by omega) hl, fun f p hp => ?_⟩
    rw [hwire] at hp
    exact hahead f p hp
  · refine ⟨k, ?_⟩
    rcases hbusy with rfl | rfl | rfl | rfl
    · refine ⟨he.begin h4 hj hjk hb hstep, ?_⟩
      obtain ⟨-, hstate, rfl⟩ := step_begin hstep
      refine ⟨h.update hl rfl fun _ => ⟨?_, ?_⟩, hahead⟩
      · rw [electTold_pos hj, electTold_pos hj]
        refine iff_of_false ?_ (not_spoken hstate (.inr (.inr (.inl rfl))))
        unfold Spoken beginServer
        split_ifs <;> simp [serverSetState]
      · rw [beginServer]
        split_ifs <;> exact ⟨rfl, rfl⟩
    · refine ⟨he.present h4 hj hjk hb hstep, ?_⟩
      obtain ⟨-, hstate, rfl⟩ := step_present hstep
      obtain ⟨-, helects⟩ := he.busy hj hjk (by simp [hstate])
      have hlast : j + 2 = c.N := by
        by_contra hlast
        rw [Elects, if_neg hlast, hstate] at helects
        simp at helects
      refine ⟨h.update hl (write_server ..) fun hne => absurd ?_ hne, fun f p hp hpres => ?_⟩
      · rw [c.pos_N]
        omega
      · rcases mem_write hp with hp | ⟨hf, -⟩
        · exact hahead f p hp hpres
        · rw [setServer_server, Function.update_self] at hf
          obtain ⟨hout, -, -⟩ := he.toBase.stream hj hjk
          rw [nextPos, if_pos hlast] at hout
          exact ⟨0, by omega, Option.some.inj (hf.symm.trans hout)⟩
    · exact absurd ⟨_, rfl⟩ hg
    · refine ⟨he.report hj hjk hstep, ?_⟩
      obtain ⟨-, hstate, i, -, halive, hwait, -, rfl⟩ := step_report hstep
      obtain ⟨m, hm, rfl⟩ := (he.toBase.alive_iff (by omega) (le_refl _)).mp halive
      have hmk := (he.carried h4).lt hm (by simp [hwait])
      obtain ⟨-, helects⟩ := he.busy hm hmk (by simp [hwait])
      have hlead : m + 2 = c.N := by
        by_contra hlead
        rw [Elects, if_neg hlead, hwait] at helects
        simp at helects
      have h1 : HeardOnce c (c.N - 1) (ElectTold c k)
          (s.setServer (c.pos c.N j) (reported (s.server (c.pos c.N j))))
          (log ++ s.received (.report (c.pos c.N j))) := by
        refine h.update hl rfl fun _ => ⟨?_, rfl, rfl⟩
        rw [electTold_pos hj, electTold_pos hj]
        exact iff_of_true ⟨hjk, .inr (.inr rfl)⟩ ⟨hjk, .inl hstate⟩
      refine ⟨?_, hahead⟩
      rw [← List.append_nil (log ++ _)]
      refine h1.update (fun r hr => absurd hr List.not_mem_nil) rfl fun hne => absurd ?_ hne
      rw [c.pos_N]
      omega

/-- No presentation is on its way to the leader. -/
theorem Electing.unsent (he : Electing c k s) (h4 : 4 ≤ c.N) (hahead : Ahead c s) {f : ℕ}
    (hf : s.listener f = c.N - 1) : ∀ p ∈ s.wire f, ¬ IsIndexPresentation p := by
  intro p hp hpres
  obtain ⟨j, hj, rfl⟩ := hahead f p hp hpres
  have hk : c.N - 1 ≤ k := by
    by_contra hk
    rw [he.carry (by omega), carrying] at hp
    split_ifs at hp
    · rw [List.mem_singleton.mp hp] at hpres
      exact not_isIndexPresentation_notice _ _ hpres
    · exact List.not_mem_nil hp
  have hto : s.listener (inFd c c.N j) = c.pos c.N j := by
    rw [inFd]
    split_ifs with h0
    · rw [(he.toBase.redial hk).2, h0]
    · rw [he.toBase.listener (j - 1) (by omega), Nat.sub_add_cancel (by omega)]
  rw [hto, c.pos_N] at hf
  omega

/-- When nobody can step any more, everybody has spoken: the leader, and each follower
behind the one before it. -/
theorem Electing.all_spoken (he : Electing c k s) (h4 : 4 ≤ c.N)
    (hquiet : Transition.Quiescent (RingNet.step c) RingAct.Survivor s) (hj : j < c.N - 1) :
    Spoken j k (s.server (c.pos c.N j)) := by
  obtain ⟨rfl, hbegun⟩ := he.begun h4 (.inl hquiet)
  have halive : ∀ i < c.N - 1, Alive c s (c.pos c.N i) := fun i hi =>
    (he.toBase.alive_iff (by omega) (le_refl _)).mpr ⟨i, hi, rfl⟩
  have hstate : ∀ i < c.N - 1, Spoken i c.N (s.server (c.pos c.N i)) ∨
      if i + 2 = c.N then (s.server (c.pos c.N i)).state = .indexPresentItself
      else (s.server (c.pos c.N i)).state = .waitIndexGossip := by
    intro i hi
    obtain ⟨hik, -, hnot⟩ := hbegun i hi
    rcases he.elects i hi hik fun _ => rfl with hs | hs | hs
    · exact absurd hs hnot
    · exact .inl ⟨hik, .inr (.inr hs)⟩
    · split_ifs at hs ⊢
      · exact hs.symm.imp_left fun hs => ⟨hik, .inr (.inl hs)⟩
      · exact hs.symm.imp_left fun hs => ⟨hik, .inl hs⟩
  have hlead : Spoken (c.N - 2) c.N (s.server (c.pos c.N (c.N - 2))) := by
    refine (hstate _ (by omega)).resolve_right fun hs => ?_
    rw [if_pos (by omega)] at hs
    exact present_eq_none (halive _ (by omega)) (hquiet (.present _) fun _ => by simp) hs
  have hfollow : ∀ i, i + 2 < c.N → Spoken (prevPos c i) c.N (s.server (c.pos c.N (prevPos c i))) →
      Spoken i c.N (s.server (c.pos c.N i)) := by
    intro i hi hprev
    by_contra hnot
    have hs := (hstate i (by omega)).resolve_left hnot
    rw [if_neg hi.ne] at hs
    have hback := (he.toBase.peerB (show i < c.N - 1 by omega) fun _ => rfl).2
    have hw := he.gossip (by omega) i (by omega)
    rw [if_pos ⟨hi, hprev, hnot⟩] at hw
    exact gossip_eq_none (halive i (by omega)) hback hw (hquiet (.gossip _) fun _ => by simp) hs
  have hall : ∀ i, i + 2 < c.N → Spoken i c.N (s.server (c.pos c.N i)) := by
    intro i
    induction i with
    | zero => exact fun hi => hfollow 0 hi hlead
    | succ i ih =>
      intro hi
      exact hfollow (i + 1) hi (ih (by omega))
  by_cases hlast : j + 2 = c.N
  · obtain rfl : j = c.N - 2 := by omega
    exact hlead
  · exact hall j (by omega)

theorem Electing.gossipOnce (he : Electing c k s) (h4 : 4 ≤ c.N)
    (h : HeardOnce c (c.N - 1) (ElectTold c k) s log) (hahead : Ahead c s) :
    GossipOnce c (c.N - 1) s log := by
  have hN := c.N_lt
  have hlead : c.pos c.N (c.N - 2) = c.N - 1 := by
    rw [c.pos_N]
    omega
  have hme := (he.node (c.N - 2) (by omega)).me
  rw [hlead] at hme
  refine h.gossipOnce (by omega) hme (fun n hn => ?_) fun f hf => he.unsent h4 hahead hf
  obtain ⟨j, hj, rfl, -⟩ := hn
  exact (he.toBase.alive_iff (by omega) (le_refl _)).mpr ⟨j, hj, rfl⟩

theorem Booting.gossipOnce (h : Booting c s) (hl : HeardOnce c c.N (BootTold c) s log) :
    GossipOnce c c.N s log := by
  have hN := c.N_lt
  have h2 := c.two_le
  refine hl.gossipOnce (by omega) (h.node c.N (by omega) le_rfl).me (fun n hn => ?_)
    fun f hf => h.unsent hf
  exact h.alive.mpr ⟨hn.1, hn.2.1⟩

/-! ## Runs that stop -/

theorem alive_of_step (hstep : s.step c a = some s') : Alive c s a.node := by
  cases a with
  | health n => exact (step_health hstep).1.1
  | check n => exact (step_check hstep).1.1
  | accept n => exact (step_accept hstep).1.1
  | identify n => exact (step_identify hstep).1
  | newPeer n => exact (step_newPeer hstep).1
  | begin n => exact (step_begin hstep).1
  | present n => exact (step_present hstep).1
  | gossip n => exact (step_gossip hstep).1
  | report n => exact (step_report hstep).1
  | die n => exact (step_die hstep).1

theorem quiescent_of_nodes (h : ∀ n ∈ c.nodes, ∀ a ∈ RingAct.ofNode n, (s.step c a).isNone) :
    Transition.Quiescent (RingNet.step c) RingAct.Survivor s := by
  intro a ha
  by_contra hne
  obtain ⟨s', hstep⟩ := Option.ne_none_iff_exists'.mp hne
  obtain ⟨h1, hn, -⟩ := alive_of_step hstep
  have hnone := h a.node (Cluster.mem_nodes.mpr ⟨h1, hn⟩) a (RingAct.mem_ofNode ha)
  rw [hstep] at hnone
  exact absurd hnone (by simp)

end RingNet

open RingNet Transition

/-- The presentation of a new index reaches every other living node once and the index never:
at boot, and after the death of node `N` among four or more, unless node 1 takes the connection
of its new predecessor for a client's. -/
theorem index_gossip_once (c : Cluster) :
    (∀ index as s, (∀ a ∈ as, a.Living) → run (bootStep c) (c.started index) as = some s →
      let log := record (bootStep c) bootReceived (c.started index) as
      as.length ≤ 6 * c.N ∧ GossipOnce c c.N s log ∧
        (Quiescent (bootStep c) BootAct.Living s → ∀ n, Alive c s n → n ≠ c.N →
          (presentationsTo n log).length = 1)) ∧
    ∀ s0 as s, 4 ≤ c.N → c.booted.step c (.die c.N) = some s0 →
      Along (RingNet.step c) RingAct.Orderly s0 as → run (RingNet.step c) s0 as = some s →
      let log := record (RingNet.step c) received s0 as
      as.length ≤ 5 * c.N ∧ GossipOnce c (c.N - 1) s log ∧
        (Quiescent (RingNet.step c) RingAct.Survivor s → ∀ n, Alive c s n → n ≠ c.N - 1 →
          (presentationsTo n log).length = 1) := by
  constructor
  · intro index as s has hrun log
    have hstart : HeardOnce c c.N (BootTold c) (c.started index) [] := by
      refine heard_nil fun n hn => ?_
      rcases hn.2.2 with hs | hs | hs <;> cases hs
    have hboot := booting_started c index
    have hstep : ∀ (s : RingNet) (l : List (ℕ × XPacket)) (a : BootAct) (s' : RingNet),
        Booting c s ∧ HeardOnce c c.N (BootTold c) s l → a.Living → bootStep c s a = some s' →
        Booting c s' ∧ HeardOnce c c.N (BootTold c) s' (l ++ s.bootReceived a) :=
      fun s l a s' h ha hs => h.1.step h.2 ha hs
    have hless : ∀ (s : RingNet) (a : BootAct) (s' : RingNet),
        (∃ l, Booting c s ∧ HeardOnce c c.N (BootTold c) s l) → a.Living → bootStep c s a = some s' →
        (∃ l, Booting c s' ∧ HeardOnce c c.N (BootTold c) s' l) ∧ bootTodo c s' < bootTodo c s := by
      rintro s a s' ⟨l, h⟩ ha hs
      exact ⟨⟨_, hstep s l a s' h ha hs⟩, h.1.todo_lt ha hs⟩
    obtain ⟨hb, hl⟩ := run_record hstep ⟨hboot, hstart⟩ has hrun
    rw [List.nil_append] at hl
    obtain ⟨-, hlen⟩ := run_length_le hless ⟨[], hboot, hstart⟩ has hrun
    have hbound := bootTodo_le (c := c) (c.started index)
    refine ⟨by omega, hb.gossipOnce hl, fun hquiet n hn hne => ?_⟩
    have hmem := hb.alive.mp hn
    obtain ⟨sender, hone⟩ := hl.once n ⟨hmem.1, hmem.2, hb.all_told hquiet hmem.1 hmem.2⟩ hne
    rw [hone, List.length_singleton]
  · intro s0 as s h4 hdie has hrun log
    have he0 := electing_of_die h4 hdie
    have hstart : HeardOnce c (c.N - 1) (ElectTold c 0) s0 [] := by
      refine heard_nil fun n hn => ?_
      obtain ⟨j, -, -, hj, -⟩ := hn
      exact Nat.not_lt_zero j hj
    have hahead : Ahead c s0 := ahead_carrying (he0.carry (by omega))
    have hstep : ∀ (s : RingNet) (l : List (ℕ × XPacket)) (a : RingAct) (s' : RingNet),
        (∃ k, Electing c k s ∧ HeardOnce c (c.N - 1) (ElectTold c k) s l ∧ Ahead c s) → a.Orderly s →
        RingNet.step c s a = some s' →
        ∃ k, Electing c k s' ∧ HeardOnce c (c.N - 1) (ElectTold c k) s' (l ++ s.received a) ∧
          Ahead c s' := by
      rintro s l a s' ⟨k, he, hl, hout⟩ ha hs
      exact he.heard_step h4 hl hout ha hs
    have hless : ∀ (s : RingNet) (a : RingAct) (s' : RingNet), (∃ k, Electing c k s) → a.Orderly s →
        RingNet.step c s a = some s' → (∃ k, Electing c k s') ∧ todo c s' < todo c s := by
      rintro s a s' ⟨k, he⟩ ha hs
      have hp := patient_of_orderly (c := c) ha
      exact ⟨he.step h4 ha.1 hp hs, (he.carried h4).todo_lt (by omega) (by omega) (le_refl _) ha.1 hp hs⟩
    obtain ⟨k, he, hl, hout⟩ := along_record hstep ⟨0, he0, hstart, hahead⟩ has hrun
    rw [List.nil_append] at hl
    obtain ⟨-, hlen⟩ := along_length_le hless ⟨0, he0⟩ has hrun
    have hbound := todo_le (c := c) s0
    refine ⟨by omega, he.gossipOnce h4 hl hout, fun hquiet n hn hne => ?_⟩
    obtain ⟨j, hj, rfl⟩ := (he.toBase.alive_iff (by omega) (le_refl _)).mp hn
    obtain ⟨sender, hone⟩ := hl.once _ ((electTold_pos hj).mpr (he.all_spoken h4 hquiet hj)) hne
    rw [hone, List.length_singleton]

/-- Three nodes come up; and four nodes lose their index. Nodes 1 and 2 take the presentation
of node 3. -/
theorem index_gossip_once_runs :
    let c := Cluster.boot 3 (by decide) (by decide)
    let d := Cluster.boot 4 (by decide) (by decide)
    let start := c.started fun _ => ⟨0, Address.zero, none, false⟩
    let boot : List BootAct := [.boot 2, .boot 1, .connect 1, .connect 2, .boot 3, .connect 2,
      .connect 3, .connect 1, .ring (.begin 3), .ring (.present 3), .ring (.begin 1),
      .ring (.gossip 1), .ring (.begin 2), .ring (.gossip 2)]
    let fail : List RingAct := [.health 1, .check 2, .check 3, .newPeer 1, .begin 1, .begin 2,
      .begin 3, .present 3, .gossip 1, .gossip 2]
    (∃ s, run (bootStep c) start boot = some s ∧
      GossipOnce c 3 s (record (bootStep c) bootReceived start boot)) ∧
    ∃ s0 s, d.booted.step d (.die 4) = some s0 ∧ run (RingNet.step d) s0 fail = some s ∧
      GossipOnce d 3 s (record (RingNet.step d) received s0 fail) := by
  intro c d start boot fail
  constructor
  · have hsome : (run (bootStep c) start boot).isSome := by decide +kernel
    obtain ⟨s, hrun⟩ := Option.isSome_iff_exists.mp hsome
    obtain ⟨-, honce, -⟩ := (index_gossip_once c).1 _ boot s (by simp [boot, BootAct.Living]) hrun
    exact ⟨s, hrun, honce⟩
  · obtain ⟨s0, h0⟩ : ∃ s0, d.booted.step d (.die 4) = some s0 := ⟨_, rfl⟩
    have hsome : ((d.booted.step d (.die 4)).bind fun s0 => run (RingNet.step d) s0 fail).isSome := by
      decide +kernel
    rw [h0, Option.bind_some] at hsome
    obtain ⟨s, hrun⟩ := Option.isSome_iff_exists.mp hsome
    obtain ⟨-, honce, -⟩ := (index_gossip_once d).2 s0 fail s (by decide) h0
      (along_orderly (by simp [fail, RingAct.Survivor])) hrun
    exact ⟨s0, s, h0, hrun, honce⟩

/-- Node 4 of four dies and node 1 accepts in the pass in which it finds it dead: the connection
it takes is node 3's, and the presentation on it no identification. Nobody can step any more,
and neither node 1 nor node 2 has taken the presentation. -/
theorem not_index_gossip_once :
    let c := Cluster.boot 4 (by decide) (by decide)
    let as : List RingAct := [.health 1, .check 2, .check 3, .accept 1, .begin 2, .begin 3,
      .present 3, .identify 1]
    ∃ s0 s, c.booted.step c (.die 4) = some s0 ∧ run (RingNet.step c) s0 as = some s ∧
      Quiescent (RingNet.step c) RingAct.Survivor s ∧ Alive c s 1 ∧ Alive c s 2 ∧
      ∀ n, presentationsTo n (record (RingNet.step c) received s0 as) = [] := by
  intro c as
  obtain ⟨s0, h0⟩ : ∃ s0, c.booted.step c (.die 4) = some s0 := ⟨_, rfl⟩
  have hfacts : ((c.booted.step c (.die 4)).bind fun s0 => (run (RingNet.step c) s0 as).map fun s =>
      (s.deaths, decide (∀ n ∈ c.nodes, ∀ a ∈ RingAct.ofNode n, (s.step c a).isNone),
        decide (∀ r ∈ record (RingNet.step c) received s0 as, ¬ IsIndexPresentation r.2))) =
      some ([4], true, true) := by
    decide +kernel
  rw [h0, Option.bind_some] at hfacts
  obtain ⟨s, hrun, hs⟩ := Option.map_eq_some_iff.mp hfacts
  simp only [Prod.mk.injEq, decide_eq_true_eq] at hs
  obtain ⟨hd, hnone, hlog⟩ := hs
  refine ⟨s0, s, h0, hrun, quiescent_of_nodes hnone, ?_, ?_, fun n => ?_⟩
  · exact ⟨by decide, by decide, by rw [hd]; decide⟩
  · exact ⟨by decide, by decide, by rw [hd]; decide⟩
  · exact presentationsTo_eq_nil fun r hr _ => hlog r hr

/-- In the first of these runs each of nodes 1 and 2 takes one. -/
example :
    let c := Cluster.boot 3 (by decide) (by decide)
    let log := record (bootStep c) bootReceived (c.started fun _ => ⟨0, Address.zero, none, false⟩)
      [.boot 2, .boot 1, .connect 1, .connect 2, .boot 3, .connect 2, .connect 3, .connect 1,
        .ring (.begin 3), .ring (.present 3), .ring (.begin 1), .ring (.gossip 1), .ring (.begin 2),
        .ring (.gossip 2)]
    [1, 2, 3].map (fun n => (presentationsTo n log).length) = [1, 1, 0] := by
  decide +kernel

end DSS
