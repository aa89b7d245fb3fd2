import DistStore.Proofs.RingBoot

/-! The presentation of node `N` in the ring that comes up: it goes from node to node behind
the index, everybody takes it once, and the boot ends with everybody told. -/

namespace DSS

namespace RingNet

variable {c : Cluster} {m n : ℕ} {sv : Server} {s s' : RingNet} {a : RingAct}

/-! ## The presentation -/

/-- A node that has both peers goes to another of its states. -/
theorem BootNode.stay (h : BootNode c n sv) {sv' : Server} (hs : SameRing sv sv')
    (hboot : sv.state ≠ .booting) (hconnecting : sv.state ≠ .connecting)
    (hstate : Connected c n sv'.state) : BootNode c n sv' := by
  have hopen : sv.peerF.statusOpen ∧ sv.peerB.statusOpen := by
    rcases h.stage with ⟨hs, -⟩ | ⟨hs, -⟩ | ⟨hF, hB, -⟩
    · exact absurd hs hboot
    · exact absurd hs hconnecting
    · exact ⟨hF, hB⟩
  refine ⟨hs.me.trans h.me, hs.netSize.trans h.netSize, ?_, ?_, ?_, .inr (.inr ⟨?_, ?_, hstate⟩)⟩
  · rw [hs.peerF]
    exact h.peerF
  · rw [hs.peerF]
    exact h.forward
  · rw [hs.peerB]
    exact h.backward
  · rw [hs.peerF]
    exact hopen.1
  · rw [hs.peerB]
    exact hopen.2

theorem Booting.begin (h : Booting c s) (hstep : s.step c (.begin n) = some s') : Booting c s' := by
  obtain ⟨⟨h1, hn, -⟩, hstate, rfl⟩ := step_begin hstep
  have hnode := h.node n h1 hn
  have hs := sameRing_beginServer (s.server n)
  refine h.silent ⟨rfl, rfl, ?_, rfl⟩ rfl rfl (hnode.stay hs (by simp [hstate]) (by simp [hstate]) ?_)
    hs.peerF hs.peerB ?_ h1 rfl
  · intro m hm
    by_cases hmn : m = n
    · simp [hmn]
    · simpa [hmn] using hm
  · rw [beginServer, hnode.netSize, hnode.me, Connected]
    by_cases hlead : c.N = n
    · rw [if_pos hlead, if_pos hlead.symm]
      exact .inr (.inr (.inl rfl))
    · rw [if_neg hlead, if_neg (Ne.symm hlead)]
      exact .inr (.inr (.inl rfl))
  · refine iff_of_false ?_ (not_told_of_connecting (.inr (.inr hstate)))
    unfold Told beginServer
    split_ifs <;> simp [serverSetState]

/-- Node `n` is told of the index: it takes the presentation from its stream, unless it is the
index, and writes it to the next node, unless that is the index. -/
theorem Booting.speak (h : Booting c s) (hsame : SameNet s s') (hbacklog : s'.backlog = s.backlog)
    (hserver : s'.server = Function.update s.server n sv) (hnode : BootNode c n sv)
    (hs : SameRing (s.server n) sv) (h1 : 1 ≤ n) (hn : n ≤ c.N) (hnot : ¬ Told (s.server n))
    (hnow : Told sv) (hprev : n < c.N → Told (s.server (c.prev n)))
    (hread : n < c.N → s'.wire (c.prev n) = [])
    (hsent : n + 1 ≠ c.N → s'.wire n = s.wire n ++ [presentationOf c c.N n])
    (hrest : ∀ f, (f ≠ n ∨ n + 1 = c.N) → (f ≠ c.prev n ∨ n = c.N) → s'.wire f = s.wire f) :
    Booting c s' := by
  have h2 := c.two_le
  have hself : s'.server n = sv := by rw [hserver, Function.update_self]
  have hother : ∀ m, m ≠ n → s'.server m = s.server m := by
    intro m hm
    rw [hserver, Function.update_of_ne hm]
  refine h.keep hsame hbacklog hserver hnode hs.peerF hs.peerB (fun ht => absurd ht hnot)
    (fun hlt _ => hprev hlt) fun f => ?_
  by_cases hfn : f = n
  · -- the stream node `n` writes to
    subst hfn
    have hempty : s.wire f = [] := by rw [h.wire f, if_neg fun hf => hnot hf.2.2.2.1]
    by_cases hlast : f + 1 = c.N
    · rw [if_neg fun hf => hf.2.2.1 hlast, hrest f (.inr hlast) (.inl (c.prev_ne h1).symm), hempty]
    · have hnext : f % c.N + 1 < c.N := by
        rw [c.succ_eq hn]
        split_ifs <;> omega
      have hsilent : ¬ Told (s.server (f % c.N + 1)) := fun ht => by
        have := h.told _ (c.next_mem hn).1 hnext ht
        rw [(c.prev_eq_iff h1 hn (c.next_mem hn).1 hnext.le).mpr rfl] at this
        exact hnot this
      rw [hself, hother _ (c.next_ne hn), if_pos ⟨h1, hn, hlast, hnow, hsilent⟩, hsent hlast, hempty]
      rfl
  · rw [hother f hfn]
    by_cases hfp : f = c.prev n
    · -- the stream it reads from
      have hnext : f % c.N + 1 = n :=
        ((c.prev_eq_iff (hfp ▸ (c.prev_mem h1 hn).1) (hfp ▸ (c.prev_mem h1 hn).2) h1 hn).mp hfp.symm).symm
      rw [hnext, hself, if_neg fun hf => hf.2.2.2.2 hnow]
      by_cases hlead : n = c.N
      · rw [hrest f (.inl hfn) (.inr hlead), h.wire f, if_neg]
        rintro ⟨-, -, hlast, -⟩
        rw [hfp, hlead, Cluster.prev] at hlast
        split_ifs at hlast <;> omega
      · rw [hfp]
        exact hread (by omega)
    · rw [hrest f (.inl hfn) (.inl hfp), h.wire f]
      by_cases hf : 1 ≤ f ∧ f ≤ c.N
      · have hnext : f % c.N + 1 ≠ n := fun he =>
          hfp ((c.prev_eq_iff hf.1 hf.2 h1 hn).mpr he.symm).symm
        rw [hother _ hnext]
      · rw [if_neg fun hc => hf ⟨hc.1, hc.2.1⟩, if_neg fun hc => hf ⟨hc.1, hc.2.1⟩]

/-- Node `n` is told of index `N` while the ring comes up. -/
def BootTold (c : Cluster) (n : ℕ) (sv : Server) : Prop := 1 ≤ n ∧ n ≤ c.N ∧ Told sv

theorem bootTold_iff {sv' : Server} (h : Told sv ↔ Told sv') : BootTold c n sv ↔ BootTold c n sv' := by
  rw [BootTold, BootTold, h]

variable {log l : List (ℕ × XPacket)}

theorem Booting.alive (h : Booting c s) : Alive c s n ↔ 1 ≤ n ∧ n ≤ c.N := by
  unfold Alive
  rw [h.deaths]
  simp

theorem Booting.present (h : Booting c s) (hstep : s.step c (.present n) = some s') :
    Booting c s' ∧ n = c.N ∧
      s'.server = Function.update s.server n (serverIndexPresentItself (s.server n)).1 := by
  obtain ⟨⟨h1, hn, -⟩, hstate, rfl⟩ := step_present hstep
  have hnode := h.node n h1 hn
  obtain ⟨hfd, -, -, hconn⟩ := hnode.connected (by simp [hstate]) (by simp [hstate])
  have hlead : n = c.N := by
    by_contra hne
    rw [Connected, if_neg hne, hstate] at hconn
    simp at hconn
  have hpacket : (serverIndexPresentItself (s.server n)).2 = presentationOf c c.N n := by
    rw [serverIndexPresentItself, hnode.me, presentationOf, ← hlead]
  have hwire : ((s.setServer n (serverIndexPresentItself (s.server n)).1).write n
      (serverIndexPresentItself (s.server n)).2).wire =
      Function.update s.wire n (s.wire n ++ [presentationOf c c.N n]) := by
    rw [write_eq (f := n) (by simpa [serverIndexPresentItself, serverSetState] using hfd), hpacket]
    rfl
  have hs := sameRing_serverIndexPresentItself (s.server n)
  refine ⟨h.speak ⟨by simp, by simp, by simp, by simp⟩ (by simp) (write_server ..) (hnode.stay hs
    (by simp [hstate]) (by simp [hstate]) ?_) hs h1 hn ?_ (.inr (.inl rfl)) (by omega) (by omega)
    (fun _ => ?_) (fun f hf _ => ?_), hlead, write_server ..⟩
  · exact .inr (.inr (by rw [if_pos hlead]; exact .inr rfl))
  · unfold Told
    simp [hstate]
  · rw [hwire, Function.update_self]
  · rw [hwire, Function.update_of_ne (hf.resolve_right (by omega))]

theorem Booting.gossip (h : Booting c s) (hl : HeardOnce c c.N (BootTold c) s log)
    (hstep : s.step c (.gossip n) = some s') :
    Booting c s' ∧ HeardOnce c c.N (BootTold c) s' (log ++ s.received (.gossip n)) := by
  obtain ⟨⟨h1, hn, -⟩, hstate, f, p, rest, hf, hw, rfl⟩ := step_gossip hstep
  have hnode := h.node n h1 hn
  obtain ⟨hfd, hback, -, hconn⟩ := hnode.connected (by simp [hstate]) (by simp [hstate])
  have hne : n ≠ c.N := by
    intro hlead
    rw [Connected, if_pos hlead, hstate] at hconn
    simp at hconn
  obtain rfl := Option.some.inj (hf.symm.trans hback)
  rw [received_gossip hback hw]
  rw [h.wire] at hw
  split_ifs at hw with hspoke
  obtain ⟨rfl, rfl⟩ := List.cons.inj hw
  have hN := c.N_lt
  rw [serverWaitIndexGossip_presentationOf (by omega)]
  have hnot : ¬ Told (s.server n) := by
    unfold Told
    simp [hstate]
  have hpp := c.prev_ne h1
  have hpeer : (s.server n).peerF.nodeId = n + 1 := by
    rw [hnode.peerF.1, c.succ_eq hn, if_neg hne]
  have hid : (s.server n).me.nodeId = n := by rw [hnode.me]
  rw [hpeer, hid]
  set sv := serverSetState { s.server n with
    index := { (s.server n).index with ip := c.addr c.N, nodeId := c.N } } .reportKnowledgeToIndex
  have hwire : (writeOpt (setServer { s with wire := Function.update s.wire (c.prev n) [] } n sv) n
      (if c.N ≠ n + 1 then some (presentationOf c c.N n) else none)).wire =
      if n + 1 = c.N then Function.update s.wire (c.prev n) []
      else Function.update (Function.update s.wire (c.prev n) []) n
        (s.wire n ++ [presentationOf c c.N n]) := by
    by_cases hend : n + 1 = c.N
    · rw [if_neg (by omega), if_pos hend]
      rfl
    · rw [if_pos (by omega), if_neg hend, writeOpt_some,
        write_eq (f := n) (by rw [setServer_server, Function.update_self]; exact hfd)]
      simp [Function.update_of_ne hpp.symm]
  have hs : SameRing (s.server n) sv := ⟨rfl, rfl, rfl, rfl, rfl⟩
  constructor
  · refine h.speak ⟨by simp, by simp, by simp, by simp⟩ (by simp) (writeOpt_server ..)
      (hnode.stay hs (by simp [hstate]) (by simp [hstate]) ?_) hs h1 hn hnot (.inl rfl)
      (fun _ => hspoke.2.2.2.1) (fun _ => ?_) (fun hlast => ?_) fun g hg hgp => ?_
    · exact .inr (.inr (by rw [if_neg hne]; exact .inr rfl))
    · rw [hwire]
      split_ifs
      · rw [Function.update_self]
      · rw [Function.update_of_ne hpp, Function.update_self]
    · rw [hwire, if_neg hlast, Function.update_self]
    · rw [hwire]
      have hgp := hgp.resolve_right hne
      split_ifs with hlast
      · rw [Function.update_of_ne hgp]
      · rw [Function.update_of_ne (hg.resolve_right hlast), Function.update_of_ne hgp]
  · exact hl.take (writeOpt_server ..) hne (fun ht => hnot ht.2.2) ⟨h1, hn, .inl rfl⟩ rfl rfl

theorem Booting.report (h : Booting c s) (hl : HeardOnce c c.N (BootTold c) s log)
    (hstep : s.step c (.report n) = some s') :
    Booting c s' ∧ HeardOnce c c.N (BootTold c) s' log := by
  obtain ⟨⟨h1, hn, -⟩, hstate, i, -, ⟨hi1, hi, -⟩, hwait, -, rfl⟩ := step_report hstep
  have hnode := h.node n h1 hn
  have hinode := h.node i hi1 hi
  have hne : i ≠ n := by
    rintro rfl
    exact absurd (hstate.symm.trans hwait) (by decide)
  have hlead : i = c.N := by
    by_contra hlead
    obtain ⟨-, -, -, hconn⟩ := hinode.connected (by simp [hwait]) (by simp [hwait])
    rw [Connected, if_neg hlead, hwait] at hconn
    simp at hconn
  have htold : Told (reported (s.server n)) ↔ Told (s.server n) :=
    iff_of_true (.inr (.inr rfl)) (.inl hstate)
  have hs := sameRing_reported (s.server n)
  have h1' : Booting c (s.setServer n (reported (s.server n))) :=
    h.silent ⟨rfl, rfl, fun _ => id, rfl⟩ rfl rfl (hnode.stay hs (by simp [hstate]) (by simp [hstate])
      (.inr (.inl rfl))) hs.peerF hs.peerB htold h1 rfl
  have hl1 : HeardOnce c c.N (BootTold c)
      (s.setServer n (reported (s.server n))) (log ++ []) :=
    hl.update (fun r hr => absurd hr List.not_mem_nil) rfl fun _ => ⟨bootTold_iff htold, rfl, rfl⟩
  rw [List.append_nil] at hl1
  have hold : (s.setServer n (reported (s.server n))).server i = s.server i := by
    rw [setServer_server, Function.update_of_ne hne]
  set sv := indexClientDone (countReportedPeer (s.server i) (xpacketReportSelf (s.server n))) with hsv
  have hsi : SameRing (s.server i) sv := sameRing_countReportedPeer _ _
  have htoldi : Told sv := by
    rw [hsv, indexClientDone]
    split_ifs
    · exact .inr (.inr rfl)
    · exact .inr (.inl hwait)
  have hconn : Connected c i sv.state := by
    rw [Connected, if_pos hlead, hsv, indexClientDone]
    split_ifs
    · exact .inr (.inl rfl)
    · exact .inr (.inr (.inr hwait))
  have hl2 : HeardOnce c c.N (BootTold c) ((s.setServer n (reported (s.server n))).setServer i sv)
      (log ++ []) :=
    hl1.update (fun r hr => absurd hr List.not_mem_nil) rfl fun hnl => absurd hlead hnl
  rw [List.append_nil] at hl2
  refine ⟨h1'.silent ⟨rfl, rfl, fun _ => id, rfl⟩ rfl rfl (hinode.stay hsi (by simp [hwait]) (by simp [hwait]) hconn)
    ?_ ?_ ?_ hi1 rfl, hl2⟩
  · rw [hold]
    exact hsi.peerF
  · rw [hold]
    exact hsi.peerB
  · rw [hold]
    exact iff_of_true htoldi (.inr (.inl hwait))

/-- A node that is idle has nothing to read, and nobody waits for it. -/
theorem Booting.idle (h : Booting c s) (hidle : Idle c s n) :
    (∃ f, s.peerB n = some f ∧ s.wire f = []) ∧ s.backlog n = [] := by
  obtain ⟨⟨h1, hn, -⟩, hstate, -⟩ := hidle
  obtain ⟨-, hback, hopen, -⟩ := (h.node n h1 hn).connected (by simp [hstate]) (by simp [hstate])
  constructor
  · refine ⟨c.prev n, by rw [RingNet.peerB, if_pos hopen, hback], ?_⟩
    rw [h.wire, if_neg]
    rintro ⟨hp1, hp, -, -, hnot⟩
    rw [← (c.prev_eq_iff hp1 hp h1 hn).mp rfl] at hnot
    exact hnot (.inr (.inr hstate))
  · rw [h.backlog n h1 hn, if_neg fun hb => hb.2 hopen]

/-- While the ring comes up nobody is dead, nothing waits for an idle node and no connection
comes to one. -/
theorem Booting.busy (h : Booting c s) (ha : a.Survivor) (hstep : s.step c a = some s') :
    ∃ n, Busy n a := by
  cases a with
  | health n =>
    obtain ⟨-, f, -, heof, -⟩ := step_health hstep
    have := heof.2
    rw [h.deaths] at this
    exact absurd this List.not_mem_nil
  | check n =>
    obtain ⟨hidle, f, p, rest, r, hf, hw, -⟩ := step_check hstep
    obtain ⟨⟨g, hg, hempty⟩, -⟩ := h.idle hidle
    obtain rfl := Option.some.inj (hf.symm.trans hg)
    rw [hempty] at hw
    cases hw
  | accept n =>
    obtain ⟨⟨halive, hadmitted, hserves⟩, f, rest, hback, -⟩ := step_accept hstep
    have hidle : Idle c s n := by
      refine ⟨halive, hserves.resolve_right fun hs => ?_, hadmitted⟩
      exact Bool.false_ne_true ((h.serving n).symm.trans hs)
    rw [(h.idle hidle).2] at hback
    cases hback
  | identify n =>
    obtain ⟨-, f, p, rest, hf, -⟩ := step_identify hstep
    rw [h.admitted] at hf
    cases hf
  | newPeer n =>
    obtain ⟨⟨h1, hn, -⟩, hstate, -⟩ := step_newPeer hstep
    obtain ⟨-, -, -, hconn⟩ := (h.node n h1 hn).connected (by simp [hstate]) (by simp [hstate])
    rw [hstate, Connected] at hconn
    split_ifs at hconn <;> simp at hconn
  | begin n => exact ⟨n, .inl rfl⟩
  | present n => exact ⟨n, .inr (.inl rfl)⟩
  | gossip n => exact ⟨n, .inr (.inr (.inl rfl))⟩
  | report n => exact ⟨n, .inr (.inr (.inr rfl))⟩
  | die n => exact absurd rfl (ha n)

theorem Booting.step (h : Booting c s) (hl : HeardOnce c c.N (BootTold c) s log) {b : BootAct}
    (hb : b.Living) (hstep : s.bootStep c b = some s') :
    Booting c s' ∧ HeardOnce c c.N (BootTold c) s' (log ++ s.bootReceived b) := by
  have hnone : ∀ r ∈ ([] : List (ℕ × XPacket)), ¬ IsIndexPresentation r.2 :=
    fun r hr => absurd hr List.not_mem_nil
  cases b with
  | boot n =>
    obtain ⟨-, hstate, rfl⟩ := boot_eq_some hstep
    exact ⟨h.boot hstep, hl.update hnone rfl fun _ => ⟨bootTold_iff (iff_of_false
      (not_told_of_connecting (.inr (.inl rfl))) (not_told_of_connecting (.inl hstate))), rfl, rfl⟩⟩
  | connect n =>
    obtain ⟨hboot, sv, -, -, hserver, htold, hindex⟩ := h.connect hstep
    exact ⟨hboot, hl.update hnone hserver fun _ => ⟨bootTold_iff htold, by rw [hindex], by rw [hindex]⟩⟩
  | ring a =>
    obtain ⟨n, rfl | rfl | rfl | rfl⟩ := h.busy (fun n he => hb n (congrArg _ he)) hstep
    · refine ⟨h.begin hstep, ?_⟩
      obtain ⟨-, hstate, rfl⟩ := step_begin hstep
      refine hl.update hnone rfl fun _ => ⟨bootTold_iff (iff_of_false ?_
        (not_told_of_connecting (.inr (.inr hstate)))), ?_⟩
      · unfold Told beginServer
        split_ifs <;> simp [serverSetState]
      · rw [beginServer]
        split_ifs <;> exact ⟨rfl, rfl⟩
    · obtain ⟨hboot, hlead, hserver⟩ := h.present hstep
      exact ⟨hboot, hl.update hnone hserver fun hne => absurd hlead hne⟩
    · exact h.gossip hl hstep
    · obtain ⟨hboot, hheard⟩ := h.report hl hstep
      have hquiet : s.bootReceived (.ring (.report n)) = [] := rfl
      rw [hquiet, List.append_nil]
      exact ⟨hboot, hheard⟩

/-! ## The end of the boot -/

def bootWork (sv : Server) : ℕ :=
  if sv.state = .booting then 6
  else if sv.state = .connecting then
    3 + ((if sv.peerF.statusOpen then 0 else 1) + if sv.peerB.statusOpen then 0 else 1)
  else stateWork sv.state

def bootTodo (c : Cluster) (s : RingNet) : ℕ := ∑ n ∈ Finset.Icc 1 c.N, bootWork (s.server n)

theorem bootWork_le (sv : Server) : bootWork sv ≤ 6 := by
  have := stateWork_le sv.state
  unfold bootWork
  split_ifs <;> omega

theorem bootTodo_le (s : RingNet) : bootTodo c s ≤ 6 * c.N := by
  have h := Finset.sum_le_card_nsmul (Finset.Icc 1 c.N) (fun n => bootWork (s.server n)) 6
    fun n _ => bootWork_le _
  rwa [Nat.card_Icc, Nat.add_sub_cancel, smul_eq_mul, mul_comm] at h

theorem bootTodo_update_le (hserver : s'.server = Function.update s.server n sv)
    (hle : bootWork sv ≤ bootWork (s.server n)) : bootTodo c s' ≤ bootTodo c s := by
  refine Finset.sum_le_sum fun m _ => ?_
  by_cases hmn : m = n
  · subst hmn
    rwa [hserver, Function.update_self]
  · rw [hserver, Function.update_of_ne hmn]

theorem bootTodo_update_lt (h1 : 1 ≤ n) (hn : n ≤ c.N)
    (hserver : s'.server = Function.update s.server n sv) (hlt : bootWork sv < bootWork (s.server n)) :
    bootTodo c s' < bootTodo c s := by
  refine Finset.sum_lt_sum (fun m _ => ?_) ⟨n, Finset.mem_Icc.mpr ⟨h1, hn⟩, ?_⟩
  · by_cases hmn : m = n
    · subst hmn
      rw [hserver, Function.update_self]
      exact hlt.le
    · rw [hserver, Function.update_of_ne hmn]
  · rwa [hserver, Function.update_self]

theorem bootWork_eq (hboot : sv.state ≠ .booting) (hconnecting : sv.state ≠ .connecting) :
    bootWork sv = stateWork sv.state := by
  rw [bootWork, if_neg hboot, if_neg hconnecting]

theorem bootWork_connect {accept : Option ℕ} {dial : Address → Option ℕ} (hs : sv.state = .connecting)
    (hopen : ¬ (sv.peerF.statusOpen ∧ sv.peerB.statusOpen))
    (hne : serverConnecting accept dial sv ≠ sv) :
    bootWork (serverConnecting accept dial sv) < bootWork sv := by
  have hold : bootWork sv = 3 +
      ((if sv.peerF.statusOpen then 0 else 1) + if sv.peerB.statusOpen then 0 else 1) := by
    rw [bootWork, if_neg (by simp [hs]), if_pos hs]
  rw [serverConnecting_eq] at hne ⊢
  split_ifs at hne ⊢ with hboth
  · have hnew : ∀ sv : Server, bootWork (serverSetState sv .beginOperation) = 3 := fun _ => rfl
    rw [hnew, hold]
    split_ifs
    · exact absurd ⟨‹_›, ‹_›⟩ hopen
    · omega
    · omega
    · omega
  · have hnew : bootWork { sv with
        peerF := peerDialed dial sv.peerF, peerB := peerAfter accept sv.peerB } = 3 +
        ((if (peerDialed dial sv.peerF).statusOpen then 0 else 1) +
          if (peerAfter accept sv.peerB).statusOpen then 0 else 1) := by
      rw [bootWork, if_neg (by simp [hs]), if_pos hs]
    rw [hnew, hold]
    rcases peerDialed_cases dial sv.peerF with hF | ⟨hF, hF'⟩ <;>
      rcases peerAfter_cases accept sv.peerB with hB | ⟨hB, hB'⟩
    · exact absurd (by rw [hF, hB]) hne
    · rw [hF, if_neg hB, if_pos hB']
      omega
    · rw [hB, if_neg hF, if_pos hF']
      omega
    · rw [if_neg hF, if_pos hF', if_neg hB, if_pos hB']
      omega

/-- Every step of the boot leaves less to do. -/
theorem Booting.todo_lt (h : Booting c s) {b : BootAct} (hb : b.Living)
    (hstep : s.bootStep c b = some s') : bootTodo c s' < bootTodo c s := by
  have hkeep : ∀ {sv : Server} {t : EServerState}, sv.state = t → t ≠ .booting →
      t ≠ .connecting → bootWork sv = stateWork t := fun hs h1 h2 => by
    rw [bootWork_eq (hs ▸ h1) (hs ▸ h2), hs]
  cases b with
  | boot n =>
    obtain ⟨⟨h1, hn, -⟩, hstate, rfl⟩ := boot_eq_some hstep
    refine bootTodo_update_lt h1 hn rfl ?_
    have hold : bootWork (s.server n) = 6 := if_pos hstate
    rw [hold, bootWork, if_neg (by simp [serverSetState]), if_pos (by simp [serverSetState])]
    split_ifs <;> omega
  | connect n =>
    obtain ⟨⟨h1, hn, -⟩, hstate, -⟩ := bootConnect_eq_some hstep
    obtain ⟨-, sv, rfl, hne, hserver, -⟩ := h.connect hstep
    exact bootTodo_update_lt h1 hn hserver
      (bootWork_connect hstate ((h.node n h1 hn).connecting hstate) hne)
  | ring a =>
    obtain ⟨n, rfl | rfl | rfl | rfl⟩ := h.busy (fun n he => hb n (congrArg _ he)) hstep
    · obtain ⟨⟨h1, hn, -⟩, hstate, rfl⟩ := step_begin hstep
      refine bootTodo_update_lt h1 hn rfl ?_
      rw [hkeep hstate (by decide) (by decide), beginServer]
      split_ifs <;> exact (by decide : 2 < 3)
    · obtain ⟨⟨h1, hn, -⟩, hstate, rfl⟩ := step_present hstep
      refine bootTodo_update_lt h1 hn (write_server ..) ?_
      rw [hkeep hstate (by decide) (by decide)]
      exact (by decide : 1 < 2)
    · obtain ⟨⟨h1, hn, -⟩, hstate, f, p, rest, -, -, rfl⟩ := step_gossip hstep
      refine bootTodo_update_lt h1 hn (writeOpt_server ..) ?_
      rw [hkeep hstate (by decide) (by decide)]
      exact (by decide : 1 < 2)
    · obtain ⟨⟨h1, hn, -⟩, hstate, i, -, -, hwait, -, rfl⟩ := step_report hstep
      have hne : i ≠ n := by
        rintro rfl
        exact absurd (hstate.symm.trans hwait) (by decide)
      have hfirst : bootTodo c (s.setServer n (reported (s.server n))) < bootTodo c s := by
        refine bootTodo_update_lt h1 hn rfl ?_
        rw [hkeep hstate (by decide) (by decide)]
        exact (by decide : 0 < 1)
      refine (bootTodo_update_le rfl ?_).trans_lt hfirst
      have hold : (s.setServer n (reported (s.server n))).server i = s.server i := by
        rw [setServer_server, Function.update_of_ne hne]
      rw [hold, hkeep hwait (by decide) (by decide), indexClientDone]
      split_ifs
      · exact (by decide : 0 ≤ 1)
      · exact (hkeep (t := .indexWaitingPeersKnowledge) hwait (by decide) (by decide)).le

/-- A pass of `SERVER_CONNECTING` that finds nothing to do. -/
theorem bootConnect_eq_none (halive : Alive c s n) (hstate : (s.server n).state = .connecting)
    (h : s.bootConnect c n = none) :
    serverConnecting (s.bootAccept n) (s.bootDial c n) (s.server n) = s.server n := by
  unfold bootConnect at h
  rw [if_pos ⟨halive, hstate⟩] at h
  dsimp only at h
  by_contra hne
  rw [if_neg hne] at h
  cases h

/-- When nobody can step any more, every node has both peers. -/
theorem Booting.connected (h : Booting c s)
    (hquiet : Transition.Quiescent (bootStep c) BootAct.Living s) (h1 : 1 ≤ n) (hn : n ≤ c.N) :
    (s.server n).state ≠ .booting ∧ (s.server n).state ≠ .connecting := by
  have hboot : ∀ m, 1 ≤ m → m ≤ c.N → (s.server m).state ≠ .booting := by
    intro m hm1 hm hs
    have hnone : s.boot c m = none := hquiet (.boot m) fun _ => by simp
    rw [RingNet.boot, if_pos ⟨h.alive.mpr ⟨hm1, hm⟩, hs⟩] at hnone
    cases hnone
  -- a node that is still connecting has nothing to do, so its dial succeeded before
  have hstuck : ∀ m, 1 ≤ m → m ≤ c.N → (s.server m).state = .connecting →
      peerDialed (s.bootDial c m) (s.server m).peerF = (s.server m).peerF ∧
        peerAfter (s.bootAccept m) (s.server m).peerB = (s.server m).peerB := by
    intro m hm1 hm hs
    have hsame := bootConnect_eq_none (h.alive.mpr ⟨hm1, hm⟩) hs
      (hquiet (.connect m) fun _ => by simp)
    rw [serverConnecting_eq] at hsame
    split_ifs at hsame
    · exact ⟨congrArg Server.peerF hsame, congrArg Server.peerB hsame⟩
    · exact ⟨congrArg Server.peerF hsame, congrArg Server.peerB hsame⟩
  have hdialed : ∀ m, 1 ≤ m → m ≤ c.N → (s.server m).peerF.statusOpen := by
    intro m hm1 hm
    rcases (h.node m hm1 hm).stage with ⟨hs, -⟩ | ⟨hs, -⟩ | ⟨hF, -⟩
    · exact absurd hs (hboot m hm1 hm)
    · by_contra hopen
      have hF := (hstuck m hm1 hm hs).1
      rw [peerDialed, if_neg hopen, h.bootDial hm1 hm,
        if_neg (hboot _ (c.next_mem hm).1 (c.next_mem hm).2)] at hF
      rw [← hF] at hopen
      exact hopen rfl
    · exact hF
  refine ⟨hboot n h1 hn, fun hs => (h.node n h1 hn).connecting hs ⟨hdialed n h1 hn, ?_⟩⟩
  have hB := (hstuck n h1 hn hs).2
  rw [← hB, peerAfter_open, h.bootAccept h1 hn]
  by_cases hopen : (s.server n).peerB.statusOpen
  · exact .inl hopen
  · rw [if_pos ⟨hdialed _ (c.prev_mem h1 hn).1 (c.prev_mem h1 hn).2, hopen⟩]
    exact .inr rfl

/-- When nobody can step any more, everybody is told of the index. -/
theorem Booting.all_told (h : Booting c s)
    (hquiet : Transition.Quiescent (bootStep c) BootAct.Living s) (h1 : 1 ≤ n) (hn : n ≤ c.N) :
    Told (s.server n) := by
  have hring : ∀ {a : RingAct}, a.Survivor → s.step c a = none := fun ha =>
    hquiet (.ring _) fun m hm => ha m (BootAct.ring.inj hm)
  have hstate : ∀ m, 1 ≤ m → m ≤ c.N → Told (s.server m) ∨
      if m = c.N then (s.server m).state = .indexPresentItself
      else (s.server m).state = .waitIndexGossip := by
    intro m hm1 hm
    obtain ⟨hb, hc⟩ := h.connected hquiet hm1 hm
    obtain ⟨-, -, -, hconn⟩ := (h.node m hm1 hm).connected hb hc
    rcases hconn with hs | hs | hs
    · exact absurd hs (begin_eq_none (h.alive.mpr ⟨hm1, hm⟩) (h.admitted m) (hring (a := .begin m) fun _ => by simp))
    · exact .inl (.inr (.inr hs))
    · split_ifs at hs ⊢
      · exact hs.symm.imp_left fun hs => .inr (.inl hs)
      · exact hs.symm.imp_left .inl
  have hlead : Told (s.server c.N) := by
    refine (hstate c.N (by omega) le_rfl).resolve_right fun hs => ?_
    rw [if_pos rfl] at hs
    exact present_eq_none (h.alive.mpr ⟨by omega, le_rfl⟩)
      (hring (a := .present c.N) fun _ => by simp) hs
  -- along the ring from node 1 on
  have hfollow : ∀ m, 1 ≤ m → m < c.N → Told (s.server (c.prev m)) → Told (s.server m) := by
    intro m hm1 hm hprev
    by_contra hnot
    have hs := (hstate m hm1 hm.le).resolve_left hnot
    rw [if_neg (by omega)] at hs
    obtain ⟨-, hback, -, -⟩ := (h.node m hm1 hm.le).connected (by simp [hs]) (by simp [hs])
    have hmem := c.prev_mem hm1 hm.le
    have hw : s.wire (c.prev m) = [presentationOf c c.N (c.prev m)] := by
      have hnext := (c.prev_eq_iff hmem.1 hmem.2 hm1 hm.le).mp rfl
      have hlast : c.prev m + 1 ≠ c.N := by
        unfold Cluster.prev
        split_ifs <;> omega
      rw [h.wire, ← hnext, if_pos ⟨hmem.1, hmem.2, hlast, hprev, hnot⟩]
    exact gossip_eq_none (h.alive.mpr ⟨hm1, hm.le⟩) hback hw
      (hring (a := .gossip m) fun _ => by simp) hs
  have hall : ∀ k, k + 1 < c.N → Told (s.server (k + 1)) := by
    intro k
    induction k with
    | zero => exact fun hk => hfollow 1 le_rfl hk hlead
    | succ k ih =>
      intro hk
      refine hfollow (k + 2) (by omega) hk ?_
      rw [Cluster.prev, if_neg (by omega)]
      exact ih (by omega)
  rcases eq_or_lt_of_le hn with rfl | hlt
  · exact hlead
  · obtain ⟨k, rfl⟩ := Nat.exists_eq_add_of_le' h1
    exact hall k hlt

/-- No presentation is on its way to node `N`. -/
theorem Booting.unsent (h : Booting c s) {f : ℕ} (hf : s.listener f = c.N) :
    ∀ p ∈ s.wire f, ¬ IsIndexPresentation p := by
  have h2 := c.two_le
  intro p hp
  rw [h.wire] at hp
  split_ifs at hp with hc
  · rw [h.listener, c.succ_eq hc.2.1] at hf
    split_ifs at hf <;> omega
  · exact absurd hp List.not_mem_nil

end RingNet

end DSS
