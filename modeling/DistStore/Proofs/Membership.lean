import DistStore.Proofs.NewFile
import DistStore.Proofs.RingSteps

/-! The counters and the labels of the ring over whole runs. A node that finds its
predecessor dead counts it twice and keeps its label, so once a death has been
processed neither the counters nor the labels are right on every survivor. -/

namespace DSS

/-! ## What a node's counters do -/

theorem xprocedureCheckPeerB_counts {dial : Address → Option ℕ} {sv : Server} {p : XPacket}
    {r : Handled} (h : xprocedureCheckPeerB dial sv p = some r) :
    r.sv.me = sv.me ∧ r.sv.peerB = sv.peerB ∧ r.sv.index.nodeId = sv.index.nodeId ∧
      ((commType p ≠ TYPE_PEER_DIED ∧ r = ⟨sv, none⟩) ∨
        (commType p = TYPE_PEER_DIED ∧ r.sv.netSize = dec64 sv.netSize ∧
          r.sv.deathCount = inc64 sv.deathCount)) := by
  rw [xprocedureCheckPeerB] at h
  split_ifs at h with ht
  · obtain ⟨⟨sv1, sent⟩, hr, hrun⟩ := Option.bind_eq_some_iff.mp h
    obtain rfl := Option.some.inj hrun
    obtain ⟨hme, hpeer, hnet, hdeath, hindex, -⟩ := peerDiedNeighbour_frame hr
    dsimp only at hme hpeer hnet hdeath hindex
    simp only [peerDiedIndex]
    split_ifs <;> exact ⟨hme, hpeer, by rw [← hindex] <;> rfl, .inr ⟨ht, hnet, hdeath⟩⟩
  · obtain rfl := Option.some.inj h
    exact ⟨rfl, rfl, rfl, .inl ⟨ht, rfl⟩⟩

namespace RingNet

variable {c : Cluster} {s s' : RingNet} {n : ℕ}

/-- What a step can do to the counters of node `m` and to the stream it reads. -/
inductive CounterStep (s s' : RingNet) (m : ℕ) : Prop
  | same (net : (s'.server m).netSize = (s.server m).netSize)
    (death : (s'.server m).deathCount = (s.server m).deathCount)
    (peerB : (s'.server m).peerB = (s.server m).peerB)
  | detects (f : ℕ) (hf : s.peerB m = some f) (heof : s.Eof f)
    (net : (s'.server m).netSize = dec64 (dec64 (s.server m).netSize))
    (death : (s'.server m).deathCount = inc64 (s.server m).deathCount)
    (peerB : (s'.server m).peerB = { (s.server m).peerB with statusOpen := false })
  | noticed (net : (s'.server m).netSize = dec64 (s.server m).netSize)
    (death : (s'.server m).deathCount = inc64 (s.server m).deathCount)
    (peerB : (s'.server m).peerB = (s.server m).peerB)
  | accepts (f : ℕ) (closed : (s.server m).peerB.statusOpen = false) (hf : f ∈ s.backlog m)
    (net : (s'.server m).netSize = (s.server m).netSize)
    (death : (s'.server m).deathCount = (s.server m).deathCount)
    (peerB : (s'.server m).peerB =
      { (s.server m).peerB with statusOpen := true, streamFd := some f })

theorem countReportedPeer_frame (sv : Server) (p : XPacket) :
    (indexClientDone (countReportedPeer sv p)).me = sv.me ∧
      (indexClientDone (countReportedPeer sv p)).netSize = sv.netSize ∧
      (indexClientDone (countReportedPeer sv p)).deathCount = sv.deathCount ∧
      (indexClientDone (countReportedPeer sv p)).peerB = sv.peerB := by
  rw [indexClientDone]
  split_ifs <;> exact ⟨rfl, rfl, rfl, rfl⟩

/-- Only the node that steps, or the index that takes its report, changes. -/
theorem counterStep_of_update {sv : Server} (hserver : s'.server = Function.update s.server n sv)
    {P : ℕ → Prop} (hn : CounterStep s s' n ∧ P n) (hother : ∀ m, s'.server m = s.server m → P m)
    (m : ℕ) : CounterStep s s' m ∧ P m := by
  by_cases hm : m = n
  · exact hm ▸ hn
  · have hsame : s'.server m = s.server m := by rw [hserver, Function.update_of_ne hm]
    exact ⟨.same (by rw [hsame]) (by rw [hsame]) (by rw [hsame]), hother m hsame⟩

theorem step_counts {a : RingAct} (h : s.step c a = some s') (m : ℕ) :
    CounterStep s s' m ∧ (s'.server m).me = (s.server m).me := by
  have hother : ∀ m, s'.server m = s.server m → (s'.server m).me = (s.server m).me :=
    fun m hm => by rw [hm]
  cases a with
  | health n =>
    obtain ⟨-, f, hf, heof, rfl⟩ := step_health h
    refine counterStep_of_update (writeOpt_server _ _ _) ?_ hother m
    rw [serverHealthcheckDead_eq]
    exact ⟨.detects f hf heof (by simp) (by simp) (by simp), by simp⟩
  | check n =>
    obtain ⟨-, f, p, rest, r, hf, hw, hr, rfl⟩ := step_check h
    obtain ⟨hme, hpeer, -, hcases⟩ := xprocedureCheckPeerB_counts hr
    refine counterStep_of_update (connect_server.trans (writeOpt_server _ _ _)) ?_ hother m
    refine ⟨?_, by simp [hme]⟩
    rcases hcases with ⟨-, rfl⟩ | ⟨-, hnet, hdeath⟩
    · exact .same (by simp) (by simp) (by simp)
    · exact .noticed (by simp [hnet]) (by simp [hdeath]) (by simp [hpeer])
  | accept n =>
    obtain ⟨-, f, rest, -, rfl⟩ := step_accept h
    exact ⟨.same rfl rfl rfl, rfl⟩
  | identify n =>
    obtain ⟨-, f, p, rest, -, -, rfl⟩ := step_identify h
    exact ⟨.same rfl rfl rfl, rfl⟩
  | newPeer n =>
    obtain ⟨-, -, hclosed, f, rest, hb, rfl⟩ := step_newPeer h
    refine counterStep_of_update rfl ?_ hother m
    have hsv : ∀ sv : Server, serverNewPeer sv f = { sv with
        peerB := { sv.peerB with statusOpen := true, streamFd := some f }
        state := if sv.me.nodeId = 1 then .beginOperation else .idle } := fun sv => by
      rw [serverNewPeer]
      split_ifs <;> rfl
    exact ⟨.accepts f hclosed (by rw [hb]; exact List.mem_cons_self) (by simp [hsv]) (by simp [hsv])
      (by simp [hsv]), by simp [hsv]⟩
  | begin n =>
    obtain ⟨-, -, rfl⟩ := step_begin h
    refine counterStep_of_update rfl ?_ hother m
    have hsv : ∀ sv : Server, (beginServer 0 sv).netSize = sv.netSize ∧
        (beginServer 0 sv).deathCount = sv.deathCount ∧ (beginServer 0 sv).peerB = sv.peerB ∧
        (beginServer 0 sv).me = sv.me := fun sv => by
      rw [beginServer]
      split_ifs <;> exact ⟨rfl, rfl, rfl, rfl⟩
    exact ⟨.same (by simp [hsv]) (by simp [hsv]) (by simp [hsv]), by simp [hsv]⟩
  | present n =>
    obtain ⟨-, -, rfl⟩ := step_present h
    refine counterStep_of_update (write_server _ _ _) ?_ hother m
    exact ⟨.same (by simp [serverIndexPresentItself, serverSetState])
      (by simp [serverIndexPresentItself, serverSetState])
      (by simp [serverIndexPresentItself, serverSetState]),
      by simp [serverIndexPresentItself, serverSetState]⟩
  | gossip n =>
    obtain ⟨-, -, f, p, rest, -, -, rfl⟩ := step_gossip h
    refine counterStep_of_update (writeOpt_server _ _ _) ?_ hother m
    exact ⟨.same (by simp [serverWaitIndexGossip, serverSetState])
      (by simp [serverWaitIndexGossip, serverSetState])
      (by simp [serverWaitIndexGossip, serverSetState]),
      by simp [serverWaitIndexGossip, serverSetState]⟩
  | report n =>
    obtain ⟨-, -, i, -, -, -, -, rfl⟩ := step_report h
    obtain ⟨hme, hnet, hdeath, hpeer⟩ := countReportedPeer_frame (s.server i)
      (xpacketReportSelf (s.server n))
    by_cases hmi : m = i
    · subst hmi
      exact ⟨.same (by simp [hnet]) (by simp [hdeath]) (by simp [hpeer]), by simp [hme]⟩
    · by_cases hmn : m = n
      · subst hmn
        exact ⟨.same (by simp [hmi, serverSetState]) (by simp [hmi, serverSetState])
          (by simp [hmi, serverSetState]), by simp [hmi, serverSetState]⟩
      · exact ⟨.same (by simp [hmi, hmn]) (by simp [hmi, hmn]) (by simp [hmi, hmn]),
          by simp [hmi, hmn]⟩
  | die n =>
    obtain ⟨-, rfl⟩ := step_die h
    exact ⟨.same rfl rfl rfl, rfl⟩

/-! ## The streams of a run -/

/-- The connections a run has made, and the nodes that died in it. -/
structure Streams (c : Cluster) (s : RingNet) : Prop where
  me : ∀ n, (s.server n).me.nodeId = n
  label : ∀ n, (s.server n).peerB.nodeId = backwardId n c.N
  dialer : ∀ f, f ≤ c.N → s.dialer f = f
  lt_nextFd : c.N < s.nextFd
  peerB : ∀ n f, (s.server n).peerB.streamFd = some f → f < s.nextFd
  backlog : ∀ n f, f ∈ s.backlog n → f < s.nextFd
  backlog_alive : ∀ n, Alive c s n → ∀ f ∈ s.backlog n, s.dialer f ∉ s.deaths
  deaths : ∀ d ∈ s.deaths, 1 ≤ d ∧ d ≤ c.N
  nodup : s.deaths.Nodup

/-- What a step does to connections. -/
structure StreamStep (c : Cluster) (s s' : RingNet) : Prop where
  deaths : s'.deaths = s.deaths
  le : s.nextFd ≤ s'.nextFd
  dialer : ∀ f < s.nextFd, s'.dialer f = s.dialer f
  backlog : ∀ n f, f ∈ s'.backlog n → f ∈ s.backlog n ∨
    f = s.nextFd ∧ f < s'.nextFd ∧ Alive c s (s'.dialer f)

theorem StreamStep.of_eq (hdeaths : s'.deaths = s.deaths) (hnext : s'.nextFd = s.nextFd)
    (hdialer : s'.dialer = s.dialer) (hbacklog : ∀ n f, f ∈ s'.backlog n → f ∈ s.backlog n) :
    StreamStep c s s' where
  deaths := hdeaths
  le := hnext.ge
  dialer f _ := by rw [hdialer]
  backlog n f hf := .inl (hbacklog n f hf)

theorem step_streams {a : RingAct} (ha : a.Survivor) (h : s.step c a = some s') :
    StreamStep c s s' := by
  have hpop : ∀ {n f rest}, s.backlog n = f :: rest → ∀ m g,
      g ∈ Function.update s.backlog n rest m → g ∈ s.backlog m := fun {n f rest} hb m g hg => by
    by_cases hm : m = n
    · subst hm
      rw [Function.update_self] at hg
      rw [hb]
      exact List.mem_cons_of_mem _ hg
    · rwa [Function.update_of_ne hm] at hg
  cases a with
  | health n =>
    obtain ⟨-, f, -, -, rfl⟩ := step_health h
    exact .of_eq (by simp) (by simp) (by simp) (by simp)
  | check n =>
    obtain ⟨hidle, f, p, rest, r, -, -, -, rfl⟩ := step_check h
    obtain ⟨t, ht⟩ : ∃ t, t = (((s.read n f p rest).setServing n true).setServer n r.sv).writeOpt n
        r.sent := ⟨_, rfl⟩
    have hdeaths : t.deaths = s.deaths := by simp [ht]
    have hnext : t.nextFd = s.nextFd := by simp [ht]
    have hdialer : t.dialer = s.dialer := by simp [ht]
    have hbacklog : t.backlog = s.backlog := by simp [ht]
    rw [← ht]
    rcases connect_cases t n with he | ⟨m, -, -, he⟩
    · rw [he]
      exact .of_eq hdeaths hnext hdialer (by simp [hbacklog])
    · rw [he, hnext, hdialer, hbacklog]
      refine ⟨hdeaths, Nat.le_succ _, fun g hg => Function.update_of_ne hg.ne _ _, fun k g hg => ?_⟩
      by_cases hk : k = m
      · subst hk
        simp only [Function.update_self, List.mem_append, List.mem_singleton] at hg
        refine hg.imp_right fun hg => ⟨hg, hg ▸ Nat.lt_succ_self _, ?_⟩
        rw [hg]
        simpa using hidle.1
      · simp only [Function.update_of_ne hk] at hg
        exact .inl hg
  | accept n =>
    obtain ⟨-, f, rest, hb, rfl⟩ := step_accept h
    exact .of_eq rfl rfl rfl (hpop hb)
  | identify n =>
    obtain ⟨-, f, p, rest, -, -, rfl⟩ := step_identify h
    exact .of_eq rfl rfl rfl fun _ _ h => h
  | newPeer n =>
    obtain ⟨-, -, -, f, rest, hb, rfl⟩ := step_newPeer h
    exact .of_eq rfl rfl rfl (hpop hb)
  | begin n =>
    obtain ⟨-, -, rfl⟩ := step_begin h
    exact .of_eq rfl rfl rfl fun _ _ h => h
  | present n =>
    obtain ⟨-, -, rfl⟩ := step_present h
    exact .of_eq (by simp) (by simp) (by simp) (by simp)
  | gossip n =>
    obtain ⟨-, -, f, p, rest, -, -, rfl⟩ := step_gossip h
    exact .of_eq (by simp) (by simp) (by simp) (by simp)
  | report n =>
    obtain ⟨-, -, i, -, -, -, -, rfl⟩ := step_report h
    exact .of_eq rfl rfl rfl fun _ _ h => h
  | die n => exact absurd rfl (ha n)

theorem CounterStep.label {m : ℕ} (h : CounterStep s s' m) :
    (s'.server m).peerB.nodeId = (s.server m).peerB.nodeId := by
  rcases h with ⟨_, _, hp⟩ | ⟨_, _, _, _, _, hp⟩ | ⟨_, _, hp⟩ | ⟨_, _, _, _, _, hp⟩ <;> rw [hp]

theorem Streams.step {a : RingAct} (hs : Streams c s) (ha : a.Survivor)
    (h : s.step c a = some s') : Streams c s' := by
  have hst := step_streams ha h
  have hcount := step_counts h
  refine ⟨fun n => ?_, fun n => ?_, fun f hf => ?_, ?_, fun n f hf => ?_, fun n f hf => ?_,
    fun n hn f hf => ?_, ?_, ?_⟩
  · rw [(hcount n).2, hs.me]
  · rw [(hcount n).1.label, hs.label]
  · rw [hst.dialer f (hf.trans_lt hs.lt_nextFd), hs.dialer f hf]
  · exact hs.lt_nextFd.trans_le hst.le
  · rcases (hcount n).1 with ⟨_, _, hp⟩ | ⟨_, _, _, _, _, hp⟩ | ⟨_, _, hp⟩ | ⟨g, _, hg, _, _, hp⟩
    · exact (hs.peerB n f (by rw [← hp]; exact hf)).trans_le hst.le
    · exact (hs.peerB n f (by rw [hp] at hf; exact hf)).trans_le hst.le
    · exact (hs.peerB n f (by rw [← hp]; exact hf)).trans_le hst.le
    · obtain rfl : g = f := Option.some.inj (by rw [hp] at hf; exact hf)
      exact (hs.backlog n g hg).trans_le hst.le
  · rcases hst.backlog n f hf with hf | ⟨-, hf, -⟩
    · exact (hs.backlog n f hf).trans_le hst.le
    · exact hf
  · have hn' : Alive c s n := by simpa [Alive, hst.deaths] using hn
    rw [hst.deaths]
    rcases hst.backlog n f hf with hf | ⟨-, -, hf⟩
    · rw [hst.dialer f (hs.backlog n f hf)]
      exact hs.backlog_alive n hn' f hf
    · exact hf.2.2
  · rw [hst.deaths]
    exact hs.deaths
  · rw [hst.deaths]
    exact hs.nodup

theorem Streams.booted (c : Cluster) : Streams c c.booted where
  me n := by rw [Cluster.booted, (c.bootedServer_facts n).1]
  label _ := rfl
  dialer _ _ := rfl
  lt_nextFd := Nat.lt_succ_self _
  peerB n f hf := by
    have h2 := c.two_le
    obtain rfl : backwardId n c.N = f := Option.some.inj hf
    exact Nat.lt_succ_of_le (backwardId_le (by omega) n)
  backlog n f hf := absurd hf (List.not_mem_nil)
  backlog_alive n _ f hf := absurd hf (List.not_mem_nil)
  deaths d hd := absurd hd (List.not_mem_nil)
  nodup := List.nodup_nil

theorem Streams.die (hs : Streams c s) (hsettled : s.Settled c) (h : s.step c (.die n) = some s') :
    Streams c s' := by
  obtain ⟨halive, rfl⟩ := step_die h
  refine { hs with backlog_alive := fun m hm f hf => ?_, deaths := fun d hd => ?_, nodup := ?_ }
  · have hm' : Alive c s m := ⟨hm.1, hm.2.1, fun hd => hm.2.2 (List.mem_append_left _ hd)⟩
    rw [(hsettled m hm').2.1] at hf
    exact absurd hf (List.not_mem_nil)
  · rcases List.mem_append.mp hd with hd | hd
    · exact hs.deaths d hd
    · rw [List.mem_singleton.mp hd]
      exact ⟨halive.1, halive.2.1⟩
  · exact List.nodup_append.mpr ⟨hs.nodup, List.nodup_singleton n, fun a ha b hb => by
      rw [List.mem_singleton.mp hb]
      exact fun e => halive.2.2 (e ▸ ha)⟩

theorem streams_of_reachable (h : c.Reachable s) : Streams c s := by
  induction h with
  | booted => exact Streams.booted c
  | step _ ha hstep ih => exact ih.step ha hstep
  | die _ hs hstep ih => exact ih.die hs hstep

/-! ## The counters -/

/-- Node `m` reads from a dead node. -/
def Stale (s : RingNet) (m : ℕ) : Prop := ∃ f, s.peerB m = some f ∧ s.dialer f ∈ s.deaths

/-- Node `m` has found its predecessor dead `k` times: so much is missing in the sum of
its counters. -/
structure Counted (c : Cluster) (s : RingNet) (m k : ℕ) : Prop where
  sum : ((s.server m).netSize + (s.server m).deathCount + k) % 2 ^ 64 = c.N
  le : Alive c s m → k ≤ s.deaths.length
  lt : Alive c s m → Stale s m → k < s.deaths.length
  original : k = 0 → s.peerB m = some (backwardId m c.N)

theorem Counted.booted (c : Cluster) (m : ℕ) : Counted c c.booted m 0 := by
  obtain ⟨-, hnet, hdeath, -⟩ := c.bootedServer_facts m
  have hN := c.N_lt
  refine ⟨?_, fun _ => Nat.zero_le _, fun _ ⟨f, _, hf⟩ => absurd hf (List.not_mem_nil), fun _ => rfl⟩
  simp only [Cluster.booted, hnet, hdeath]
  omega

theorem Counted.step {a : RingAct} {m k : ℕ} (h : Counted c s m k) (hs : Streams c s)
    (ha : a.Survivor) (hstep : s.step c a = some s') : ∃ k', Counted c s' m k' := by
  have hst := step_streams ha hstep
  have halive : Alive c s' m → Alive c s m := fun h => by simpa [Alive, hst.deaths] using h
  have hsame : (s'.server m).peerB = (s.server m).peerB →
      s'.peerB m = s.peerB m ∧ (Stale s' m → Stale s m) := fun hp => by
    have hpeer : s'.peerB m = s.peerB m := by rw [peerB, peerB, hp]
    refine ⟨hpeer, fun ⟨f, hf, hd⟩ => ⟨f, hpeer ▸ hf, ?_⟩⟩
    have hlt : f < s.nextFd := by
      rw [hpeer, peerB] at hf
      split_ifs at hf
      exact hs.peerB m f hf
    rwa [hst.dialer f hlt, hst.deaths] at hd
  have hlen : s'.deaths.length = s.deaths.length := by rw [hst.deaths]
  have hsum := h.sum
  rcases (step_counts hstep m).1 with ⟨hn, hd, hp⟩ | ⟨f, hf, heof, hn, hd, hp⟩ | ⟨hn, hd, hp⟩ |
    ⟨f, hclosed, hf, hn, hd, hp⟩
  · obtain ⟨hpeer, hstale⟩ := hsame hp
    refine ⟨k, by rw [hn, hd]; exact hsum, fun hm => hlen ▸ h.le (halive hm),
      fun hm hst => hlen ▸ h.lt (halive hm) (hstale hst), fun hk => hpeer.trans (h.original hk)⟩
  · have hnone : s'.peerB m = none := by rw [peerB, hp]; rfl
    refine ⟨k + 1, ?_, fun hm => ?_, fun _ ⟨g, hg, _⟩ => ?_, fun hk => absurd hk (by omega)⟩
    · rw [hn, hd, dec64, dec64, inc64]
      omega
    · rw [hlen]
      exact h.lt (halive hm) ⟨f, hf, heof.2⟩
    · rw [hnone] at hg
      exact absurd hg (by simp)
  · obtain ⟨hpeer, hstale⟩ := hsame hp
    refine ⟨k, ?_, fun hm => hlen ▸ h.le (halive hm),
      fun hm hst => hlen ▸ h.lt (halive hm) (hstale hst), fun hk => hpeer.trans (h.original hk)⟩
    rw [hn, hd, dec64, inc64]
    omega
  · have hk : k ≠ 0 := fun hk => by
      have horig := h.original hk
      rw [peerB, hclosed] at horig
      exact absurd horig (by simp)
    have hsome : s'.peerB m = some f := by rw [peerB, hp]; rfl
    refine ⟨k, by rw [hn, hd]; exact hsum, fun hm => hlen ▸ h.le (halive hm), fun hm ⟨g, hg, hdead⟩ => ?_,
      fun hk0 => absurd hk0 hk⟩
    obtain rfl : f = g := Option.some.inj (hsome.symm.trans hg)
    rw [hst.dialer f (hs.backlog m f hf), hst.deaths] at hdead
    exact absurd hdead (hs.backlog_alive m (halive hm) f hf)

theorem Counted.die {m k : ℕ} (h : Counted c s m k)
    (hstep : s.step c (.die n) = some s') : Counted c s' m k := by
  obtain ⟨-, rfl⟩ := step_die hstep
  have hlen : (s.deaths ++ [n]).length = s.deaths.length + 1 := by simp
  have halive : Alive c { s with deaths := s.deaths ++ [n], trace := [] } m → Alive c s m :=
    fun hm => ⟨hm.1, hm.2.1, fun hd => hm.2.2 (List.mem_append_left _ hd)⟩
  refine ⟨h.sum, fun hm => ?_, fun hm _ => ?_, h.original⟩
  · have := h.le (halive hm)
    simp only [hlen]
    omega
  · have := h.le (halive hm)
    simp only [hlen]
    omega

theorem counted_of_reachable (h : c.Reachable s) (m : ℕ) : ∃ k, Counted c s m k := by
  induction h with
  | booted => exact ⟨0, Counted.booted c m⟩
  | step h ha hstep ih =>
    obtain ⟨k, hk⟩ := ih
    exact hk.step (streams_of_reachable h) ha hstep
  | die _ hs hstep ih =>
    obtain ⟨k, hk⟩ := ih
    exact ⟨k, hk.die hstep⟩

/-! ## After a death -/

theorem no_step_booted (c : Cluster) {a : RingAct} (ha : a.Survivor) :
    c.booted.step c a = none := by
  rw [Option.eq_none_iff_forall_ne_some]
  intro s' h
  have hstate : ∀ n, (c.booted.server n).state = .idle := fun _ => rfl
  cases a with
  | health n =>
    obtain ⟨-, f, -, heof, -⟩ := step_health h
    exact List.not_mem_nil heof.2
  | check n =>
    obtain ⟨-, f, p, rest, r, -, hw, -⟩ := step_check h
    exact List.cons_ne_nil p rest hw.symm
  | accept n =>
    obtain ⟨-, f, rest, hb, -⟩ := step_accept h
    exact List.cons_ne_nil f rest hb.symm
  | identify n =>
    obtain ⟨-, f, p, rest, hf, -⟩ := step_identify h
    exact Option.some_ne_none f hf.symm
  | newPeer n =>
    obtain ⟨-, hn, -⟩ := step_newPeer h
    exact absurd ((hstate n).symm.trans hn) (by decide)
  | begin n =>
    obtain ⟨-, hn, -⟩ := step_begin h
    exact absurd ((hstate n).symm.trans hn) (by decide)
  | present n =>
    obtain ⟨-, hn, -⟩ := step_present h
    exact absurd ((hstate n).symm.trans hn) (by decide)
  | gossip n =>
    obtain ⟨-, hn, -⟩ := step_gossip h
    exact absurd ((hstate n).symm.trans hn) (by decide)
  | report n =>
    obtain ⟨-, hn, -⟩ := step_report h
    exact absurd ((hstate n).symm.trans hn) (by decide)
  | die n => exact absurd rfl (ha n)

/-- While no node has died, nothing happens on the ring. -/
theorem eq_booted_of_no_death (h : c.Reachable s) (hd : s.deaths = []) : s = c.booted := by
  induction h with
  | booted => rfl
  | step _ ha hstep ih =>
    have hsame := (step_streams ha hstep).deaths
    rw [ih (hsame ▸ hd), no_step_booted c ha] at hstep
    exact absurd hstep (by simp)
  | die _ _ hstep _ =>
    obtain ⟨-, rfl⟩ := step_die hstep
    exact absurd hd (by simp)

/-- Somewhere on the ring a survivor follows a dead node. -/
theorem exists_orphan (hs : Streams c s) (hd : s.deaths ≠ []) {a : ℕ} (ha : Alive c s a) :
    ∃ n, Alive c s n ∧ backwardId n c.N ∈ s.deaths := by
  by_contra hno
  obtain ⟨d, hdead⟩ := List.exists_mem_of_ne_nil _ hd
  obtain ⟨hd1, hdN⟩ := hs.deaths d hdead
  have ha1 := ha.1
  have haN := ha.2.1
  have hN := c.N_lt
  -- backwards from `a` every node lives
  have hback : ∀ k < c.N, Alive c s ((a + c.N - 1 - k) % c.N + 1) := fun k => by
    induction k with
    | zero =>
      intro _
      rwa [show (a + c.N - 1 - 0) % c.N + 1 = a by
        rw [show a + c.N - 1 - 0 = (a - 1) + c.N by omega, Nat.add_mod_right,
          Nat.mod_eq_of_lt (by omega)]
        omega]
    | succ k ih =>
      intro hk
      have hlive := ih (by omega)
      have hpos : ((a + c.N - 1 - k) % c.N + 1) ≤ c.N := hlive.2.1
      have hprev : backwardId ((a + c.N - 1 - k) % c.N + 1) c.N =
          (a + c.N - 1 - (k + 1)) % c.N + 1 := by
        rw [backwardId_eq (by omega) hpos (by omega)]
        congr 1
        rw [show (a + c.N - 1 - k) % c.N + 1 + c.N - 2 = (a + c.N - 1 - k) % c.N + (c.N - 1) by omega,
          Nat.mod_add_mod, show a + c.N - 1 - k + (c.N - 1) = a + c.N - 1 - (k + 1) + c.N by omega,
          Nat.add_mod_right]
      refine ⟨by omega, Nat.mod_lt _ (by omega), fun hmem => hno ⟨_, hlive, ?_⟩⟩
      rw [hprev]
      exact hmem
  have hlive := hback ((a + c.N - d) % c.N) (Nat.mod_lt _ (by omega))
  have hsame : (a + c.N - 1 - (a + c.N - d) % c.N) % c.N + 1 = d := by
    by_cases had : d ≤ a
    · rw [show a + c.N - d = a - d + c.N by omega, Nat.add_mod_right,
        Nat.mod_eq_of_lt (show a - d < c.N by omega),
        show a + c.N - 1 - (a - d) = d - 1 + c.N by omega, Nat.add_mod_right,
        Nat.mod_eq_of_lt (show d - 1 < c.N by omega)]
      omega
    · rw [Nat.mod_eq_of_lt (show a + c.N - d < c.N by omega),
        show a + c.N - 1 - (a + c.N - d) = d - 1 by omega,
        Nat.mod_eq_of_lt (show d - 1 < c.N by omega)]
      omega
  rw [hsame] at hlive
  exact hlive.2.2 hdead

/-- Where a survivor's streams really go. -/
structure TrueLabels (c : Cluster) (s : RingNet) (n : ℕ) : Prop where
  forward : NextLiving c s n (s.server n).peerF.nodeId
  backward : NextLiving c s (s.server n).peerB.nodeId n
  forwardStream : ∃ f, (s.server n).peerF.streamFd = some f ∧
    s.listener f = (s.server n).peerF.nodeId
  backwardLiving : Alive c s (s.server n).peerB.nodeId
  backwardStream : ∃ f, s.peerB n = some f ∧ s.dialer f = (s.server n).peerB.nodeId

theorem trueLabels_booted (c : Cluster) {n : ℕ} (h1 : 1 ≤ n) (hn : n ≤ c.N) :
    TrueLabels c c.booted n := by
  have hN := c.N_lt
  have hback := backwardId_eq h1 hn (by omega)
  have halive : ∀ m, 1 ≤ m → m ≤ c.N → Alive c c.booted m := fun m hm1 hm =>
    ⟨hm1, hm, List.not_mem_nil⟩
  have hlabel : (c.booted.server n).peerB.nodeId = backwardId n c.N := rfl
  have hforward : (c.booted.server n).peerF.nodeId = n % c.N + 1 := rfl
  refine ⟨⟨halive _ ?_ ?_, 1, le_rfl, hforward, fun i _ _ => by omega⟩,
    ⟨halive n h1 hn, 1, le_rfl, ?_, fun i _ _ => by omega⟩, ⟨n, rfl, rfl⟩,
    halive _ (Nat.succ_pos _) (backwardId_le (by omega) n), ⟨_, rfl, rfl⟩⟩
  · rw [hforward]
    omega
  · rw [hforward]
    exact Nat.mod_lt _ (by omega)
  · rw [hlabel, hback, Nat.add_sub_cancel]
    by_cases hn1 : n = 1
    · subst hn1
      rw [show 1 + c.N - 2 = c.N - 1 by omega, Nat.mod_eq_of_lt (show c.N - 1 < c.N by omega),
        Nat.sub_add_cancel (by omega), Nat.mod_self]
    · rw [show n + c.N - 2 = n - 2 + c.N by omega, Nat.add_mod_right,
        Nat.mod_eq_of_lt (show n - 2 < c.N by omega), Nat.mod_eq_of_lt (by omega)]
      omega

theorem reachable_run {as : List RingAct} (h : c.Reachable s) (has : ∀ a ∈ as, a.Survivor)
    (hrun : Transition.run (RingNet.step c) s as = some s') : c.Reachable s' :=
  Transition.run_invariant (fun _ _ _ hs ha hstep => .step hs ha hstep) h has hrun

theorem settled_booted (c : Cluster) : c.booted.Settled c :=
  fun n hn => ⟨⟨hn, rfl, rfl⟩, rfl, backwardId n c.N, rfl, rfl, List.not_mem_nil⟩

/-- Four nodes, node 2 has died and the others have processed it. -/
theorem four_nodes_after_death :
    let c := Cluster.boot 4 (by decide) (by decide)
    ∃ s, c.Reachable s ∧ s.Settled c ∧ s.deaths = [2] ∧ s.survivors c = [1, 3, 4] ∧
      (s.server 3).netSize = 2 ∧ (s.server 3).peerB.nodeId = 2 := by
  intro c
  obtain ⟨s0, h0⟩ : ∃ s0, c.booted.step c (.die 2) = some s0 := ⟨_, rfl⟩
  obtain ⟨s, hrun⟩ : ∃ s, Transition.run (RingNet.step c) c.booted
      [.die 2, .health 3, .check 4, .check 1, .newPeer 3] = some s :=
    Option.isSome_iff_exists.mp (by decide +kernel)
  have hfacts : (Transition.run (RingNet.step c) c.booted
      [.die 2, .health 3, .check 4, .check 1, .newPeer 3]).map (fun s => (decide (s.Settled c),
        s.deaths, s.survivors c, (s.server 3).netSize, (s.server 3).peerB.nodeId)) =
      some (true, [2], [1, 3, 4], 2, 2) := by decide +kernel
  rw [hrun] at hfacts
  simp only [Option.map_some, Option.some.injEq, Prod.mk.injEq, decide_eq_true_eq] at hfacts
  obtain ⟨t, ht, hrest⟩ := Transition.run_cons.mp hrun
  obtain rfl : t = s0 := Option.some.inj (ht.symm.trans h0)
  exact ⟨s, reachable_run (.die .booted (settled_booted c) h0)
    (by simp [RingAct.Survivor]) hrest, hfacts⟩

end RingNet

open RingNet

/-- When every death has been processed, the counters of the survivors are right only
if no node has died. -/
theorem counters_iff_no_death {c : Cluster} {s : RingNet} (h : c.Reachable s) (hs : s.Settled c)
    (hne : ∃ n, Alive c s n) :
    (∀ n, Alive c s n → (s.server n).netSize = (s.survivors c).length ∧
      u64 ((s.server n).netSize + (s.server n).deathCount) = c.N) ↔ s.deaths = [] := by
  refine ⟨fun hall => ?_, fun hd n hn => ?_⟩
  · by_contra hd
    have hst := streams_of_reachable h
    obtain ⟨a, ha⟩ := hne
    obtain ⟨n, hn, hdead⟩ := exists_orphan hst hd ha
    obtain ⟨k, hk⟩ := counted_of_reachable h n
    have hlen : s.deaths.length ≤ c.N := by
      have hsub : s.deaths ⊆ c.nodes := fun d hd => Cluster.mem_nodes.mpr (hst.deaths d hd)
      simpa [Cluster.nodes_length] using (hst.nodup.subperm hsub).length_le
    have hsum := hk.sum
    have hu := (hall n hn).2
    have hle := hk.le hn
    have hN := c.N_lt
    rw [u64] at hu
    -- right counters mean that the node never found its predecessor dead
    obtain rfl : k = 0 := by omega
    obtain ⟨-, -, f, hf, -, hlive⟩ := hs n hn
    rw [hk.original rfl] at hf
    obtain rfl := Option.some.inj hf
    rw [hst.dialer _ (backwardId_le (by have := c.two_le; omega) n)] at hlive
    exact hlive hdead
  · obtain rfl := eq_booted_of_no_death h hd
    obtain ⟨-, hnet, hdeath, -⟩ := c.bootedServer_facts n
    have hall : c.booted.survivors c = c.nodes :=
      List.filter_eq_self.mpr fun m hm => decide_eq_true
        ⟨(Cluster.mem_nodes.mp hm).1, (Cluster.mem_nodes.mp hm).2, List.not_mem_nil⟩
    have hN := c.N_lt
    rw [hall, Cluster.nodes_length]
    exact ⟨hnet, by simp only [Cluster.booted, hnet, hdeath]; exact u64_of_lt (by omega)⟩

/-- With node 2 of four dead, the counters are not right on all survivors. -/
theorem counters_iff_no_death_four_nodes :
    let c := Cluster.boot 4 (by decide) (by decide)
    ∃ s, c.Reachable s ∧ s.Settled c ∧ s.deaths = [2] ∧
      ¬ ∀ n, Alive c s n → (s.server n).netSize = (s.survivors c).length ∧
        u64 ((s.server n).netSize + (s.server n).deathCount) = c.N := by
  intro c
  obtain ⟨s, hreach, hs, hd, hsurv, -⟩ := four_nodes_after_death
  have halive : Alive c s 1 := of_decide_eq_true (List.mem_filter.mp
    (show 1 ∈ s.survivors c by rw [hsurv]; simp)).2
  refine ⟨s, hreach, hs, hd, fun hall => ?_⟩
  rw [counters_iff_no_death hreach hs ⟨1, halive⟩, hd] at hall
  exact List.cons_ne_nil _ _ hall

/-- Node 3 counts two nodes of the three that live. -/
theorem not_counters_four_nodes :
    let c := Cluster.boot 4 (by decide) (by decide)
    ∃ s, c.Reachable s ∧ s.Settled c ∧ s.deaths = [2] ∧ Alive c s 3 ∧
      (s.survivors c).length = 3 ∧ (s.server 3).netSize = 2 := by
  intro c
  obtain ⟨s, hreach, hs, hd, hsurv, hnet, -⟩ := four_nodes_after_death
  have halive : Alive c s 3 := of_decide_eq_true (List.mem_filter.mp
    (show 3 ∈ s.survivors c by rw [hsurv]; simp)).2
  exact ⟨s, hreach, hs, hd, halive, by rw [hsurv]; rfl, hnet⟩

/-- When every death has been processed, the labels of two or more survivors are right
only if no node has died. -/
theorem labels_iff_no_death {c : Cluster} {s : RingNet} (h : c.Reachable s) (hs : s.Settled c)
    (hne : 2 ≤ (s.survivors c).length) :
    (∀ n, Alive c s n → TrueLabels c s n) ↔ s.deaths = [] := by
  refine ⟨fun hall => ?_, fun hd n hn => ?_⟩
  · by_contra hd
    obtain ⟨a, ha⟩ := List.exists_mem_of_length_pos (show 0 < (s.survivors c).length by omega)
    have ha : Alive c s a := of_decide_eq_true (List.mem_filter.mp ha).2
    obtain ⟨n, hn, hdead⟩ := exists_orphan (streams_of_reachable h) hd ha
    have hlive := (hall n hn).backwardLiving
    rw [(streams_of_reachable h).label n] at hlive
    exact hlive.2.2 hdead
  · obtain rfl := eq_booted_of_no_death h hd
    exact trueLabels_booted c hn.1 hn.2.1

/-- With node 2 of four dead, the labels are not right on all survivors. -/
theorem labels_iff_no_death_four_nodes :
    let c := Cluster.boot 4 (by decide) (by decide)
    ∃ s, c.Reachable s ∧ s.Settled c ∧ s.deaths = [2] ∧ ¬ ∀ n, Alive c s n → TrueLabels c s n := by
  intro c
  obtain ⟨s, hreach, hs, hd, hsurv, -⟩ := four_nodes_after_death
  refine ⟨s, hreach, hs, hd, fun hall => ?_⟩
  rw [labels_iff_no_death hreach hs (by rw [hsurv]; decide), hd] at hall
  exact List.cons_ne_nil _ _ hall

/-- Node 3 still calls the dead node 2 its predecessor. -/
theorem not_labels_four_nodes :
    let c := Cluster.boot 4 (by decide) (by decide)
    ∃ s, c.Reachable s ∧ s.Settled c ∧ s.deaths = [2] ∧ Alive c s 3 ∧
      (s.survivors c).length = 3 ∧ (s.server 3).peerB.nodeId = 2 ∧
      ¬ Alive c s (s.server 3).peerB.nodeId := by
  intro c
  obtain ⟨s, hreach, hs, hd, hsurv, -, hlabel⟩ := four_nodes_after_death
  have halive : Alive c s 3 := of_decide_eq_true (List.mem_filter.mp
    (show 3 ∈ s.survivors c by rw [hsurv]; simp)).2
  refine ⟨s, hreach, hs, hd, halive, by rw [hsurv]; rfl, hlabel, fun hlive => hlive.2.2 ?_⟩
  rw [hlabel, hd]
  exact List.mem_singleton_self 2

end DSS
