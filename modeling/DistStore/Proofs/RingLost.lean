import DistStore.Proofs.RingElection

/-! The ring whose successor of the dead node has accepted, in the pass in which it found it
dead, the connection its new predecessor dialed: it takes that for a client's and waits for a
backward peer from then on. The notice is around by then, and the nodes behind run out of
steps. -/

namespace DSS

namespace RingNet

variable {c : Cluster} {d k j n : ℕ} {st : EServerState} {sv : Server} {s s' : RingNet} {a : RingAct}

/-- The states of the other survivors: nobody hears of a new index any more. -/
def Unheard (c : Cluster) (d j : ℕ) (st : EServerState) : Prop :=
  st = .idle ∨ d = c.N ∧ (st = .beginOperation ∨ st = .waitIndexGossip ∨
    j + 2 = c.N ∧ (st = .indexPresentItself ∨ st = .indexWaitingPeersKnowledge))

structure Lost (c : Cluster) (d : ℕ) (s : RingNet) : Prop extends Spread c d (c.N - 1) s where
  backlog : ∀ n, s.backlog n = []
  admitted : ∀ n f, s.admitted n = some f → n = c.pos d 0 ∧ f = inFd c d 0
  serving : s.serving (c.pos d 0) = false
  waits : (s.server (c.pos d 0)).state = .waitingNewPeer
  wire : ∀ j < c.N - 1, j ≠ 0 → s.wire (inFd c d j) = []
  state : ∀ j < c.N - 1, j ≠ 0 → Unheard c d j (s.server (c.pos d j)).state

/-! ## Into it -/

/-- What the other survivors are when the notice is around. -/
theorem Carried.lost (h : Carried c d k s) (h3 : 3 ≤ c.N)
    (hwire : k + 1 = c.N → ∀ j < c.N - 1, j ≠ 0 → s.wire (inFd c d j) = [])
    (hstate : k + 1 = c.N → ∀ j < c.N - 1, j ≠ 0 → Unheard c d j (s.server (c.pos d j)).state)
    (hstep : s.step c (.accept n) = some s') : Lost c d s' := by
  obtain ⟨rfl, hk, hwait, rfl⟩ := h.late hstep
  obtain rfl : k = c.N - 1 := by omega
  refine ⟨h.toSpread.frame rfl rfl rfl rfl (fun _ => .refl _) (List.append_nil _).symm (by simp),
    fun m => ?_, fun m f hf => ?_, Function.update_self .., hwait, hwire hk, hstate hk⟩
  · simp only [setServing_backlog]
    by_cases hm : m = c.pos d 0
    · rw [hm, Function.update_self]
    · rw [Function.update_of_ne hm, h.backlog, if_neg fun hs => hm hs.2]
  · simp only [setServing_admitted] at hf
    by_cases hm : m = c.pos d 0
    · rw [hm, Function.update_self] at hf
      exact ⟨hm, (Option.some.inj hf).symm⟩
    · rw [Function.update_of_ne hm, h.admitted] at hf
      cases hf

/-- It costs the successor of `d` all its steps but one. -/
theorem Carried.late_todo (h : Carried c d k s) (h3 : 3 ≤ c.N) (hdN : d ≤ c.N)
    (hstep : s.step c (.accept n) = some s') : todo c s' < todo c s := by
  obtain ⟨rfl, hk, hwait, rfl⟩ := h.late hstep
  have hdeath : (s.server (c.pos d 0)).deathCount = 1 := by
    rw [(h.node 0 (by omega)).deathCount, if_pos (by omega)]
  refine RingNet.todo_lt (c.one_le_pos d 0) (c.pos_le hdN (by omega)) ?_ fun m hm => ?_
  · rw [work_counted hdeath (.inr (h.serving (by omega) (by omega))), hwait]
    simp [work, hdeath, hwait, stateWork]
  · apply le_of_eq
    apply work_congr
    · rfl
    · exact Function.update_of_ne hm _ _
    · exact Function.update_of_ne hm _ _

theorem Passing.lost (h : Passing c d k s) (h3 : 3 ≤ c.N) (hstep : s.step c (.accept n) = some s') :
    Lost c d s' := by
  refine (h.carried h3).lost h3 (fun hk j _ _ => ?_) (fun _ j hj h0 => .inl ?_) hstep
  · rw [h.wire, carrying_none (.inr (by omega))]
  · rw [h.state j hj, if_neg fun hs => h0 hs.1]

/-- A follower speaks only behind the successor of `N`. -/
theorem Electing.not_spoken_of_closed (h : Electing c k s) (hk : k + 1 = c.N) :
    ∀ j, j + 2 < c.N → ¬ Spoken j k (s.server (c.pos c.N j)) := by
  intro j
  induction j with
  | zero => exact fun _ => not_spoken (h.closed (by omega) (by omega)) (.inr (.inr (.inr rfl)))
  | succ j ih =>
    intro hj hs
    exact ih (by omega) ((h.spoken (j + 1) (by omega) hs).2 hj)

theorem Electing.lost (h : Electing c k s) (h4 : 4 ≤ c.N) (hstep : s.step c (.accept n) = some s') :
    Lost c c.N s' := by
  refine (h.carried h4).lost (by omega) (fun hk j hj h0 => ?_) (fun hk j hj h0 => ?_) hstep
  · rw [h.gossip (by omega) j hj, prevPos, if_neg h0]
    exact if_neg fun hs => h.not_spoken_of_closed hk (j - 1) (by omega) hs.2.1
  · rcases h.elects j hj (by omega) fun hj0 => absurd hj0 h0 with hs | hs | hs
    · exact .inr ⟨rfl, .inl hs⟩
    · exact .inl hs
    · split_ifs at hs with hlast
      · exact .inr ⟨rfl, .inr (.inr ⟨hlast, hs⟩)⟩
      · refine .inr ⟨rfl, .inr (.inl (hs.resolve_right fun hs => ?_))⟩
        exact h.not_spoken_of_closed hk j (by omega) ⟨by omega, .inl hs⟩

theorem Rival.lost (h : Rival c k s) (h3 : c.N = 3) (hstep : s.step c (.accept n) = some s') :
    Lost c c.N s' := by
  refine h.carried.lost (by omega) (fun hk j hj h0 => ?_) (fun hk j hj h0 => ?_) hstep
  · rw [inFd, if_neg h0, show j - 1 = 0 by omega]
    exact h.empty hk
  · rcases h.leads j hj (by omega) fun hj0 => absurd hj0 h0 with hs | hs | hs
    · exact .inr ⟨rfl, .inl hs⟩
    · exact .inr ⟨rfl, .inr (.inr ⟨by omega, .inl hs⟩)⟩
    · exact .inr ⟨rfl, .inr (.inr ⟨by omega, .inr hs⟩)⟩

/-! ## And no way out -/

/-- A survivor that does not wait for its new peer has nothing on its stream. -/
theorem Lost.quiet (h : Lost c d s) (hj : j < c.N - 1) (hne : (s.server (c.pos d j)).state ≠ .waitingNewPeer) :
    j ≠ 0 ∧ Unheard c d j (s.server (c.pos d j)).state ∧
      (s.server (c.pos d j)).peerB.streamFd = some (inFd c d j) ∧ s.wire (inFd c d j) = [] := by
  have h0 : j ≠ 0 := by
    rintro rfl
    exact hne h.waits
  exact ⟨h0, h.state j hj h0, (h.toSpread.peerB hj fun hj0 => absurd hj0 h0).2, h.wire j hj h0⟩

theorem Lost.update (h : Lost c d s) (hs : Spread c d (c.N - 1) s') (hj : j < c.N - 1) (h0 : j ≠ 0)
    (hserver : s'.server = Function.update s.server (c.pos d j) sv) (hbacklog : s'.backlog = s.backlog)
    (hadmitted : s'.admitted = s.admitted)
    (hserving : ∀ m, m ≠ c.pos d j → s'.serving m = s.serving m)
    (hwire : ∀ f, f ≠ inFd c d 0 → s'.wire f = s.wire f) (hdN : d ≤ c.N)
    (hstate : Unheard c d j sv.state) : Lost c d s' := by
  have hother : ∀ i < c.N - 1, i ≠ j → s'.server (c.pos d i) = s.server (c.pos d i) := by
    intro i hi hij
    rw [hserver, Function.update_of_ne fun he => hij (c.pos_inj (by omega) (by omega) he)]
  refine ⟨hs, fun m => ?_, fun m f => ?_, ?_, ?_, fun i hi hi0 => ?_, fun i hi hi0 => ?_⟩
  · rw [hbacklog]
    exact h.backlog m
  · rw [hadmitted]
    exact h.admitted m f
  · rw [hserving _ fun he => h0 (c.pos_inj (by omega) (by omega) he).symm]
    exact h.serving
  · rw [hother 0 (by omega) h0.symm]
    exact h.waits
  · rw [hwire _ fun he => hi0 (inFd_inj hdN hi (by omega) he)]
    exact h.wire i hi hi0
  · by_cases hij : i = j
    · subst hij
      rw [hserver, Function.update_self]
      exact hstate
    · rw [hother i hi hij]
      exact h.state i hi hi0

theorem Lost.begin (h : Lost c d s) (hdN : d ≤ c.N) (hj : j < c.N - 1)
    (hstep : s.step c (.begin (c.pos d j)) = some s') : Lost c d s' := by
  have hs := h.toSpread.begin hstep
  obtain ⟨-, hstate, rfl⟩ := step_begin hstep
  obtain ⟨h0, hunheard, -⟩ := h.quiet hj (by simp [hstate])
  rw [hstate] at hunheard
  obtain rfl : d = c.N := by simpa [Unheard] using hunheard
  refine h.update hs hj h0 rfl rfl rfl (fun m hm => Function.update_of_ne hm _ _) (fun _ _ => rfl)
    le_rfl ?_
  have hnode := h.node j hj
  have hid : (s.server (c.pos c.N j)).me.nodeId = j + 1 := by rw [hnode.me, ← c.pos_N]
  have hnet : (s.server (c.pos c.N j)).netSize = c.N - 1 := by
    rw [hnode.netSize, if_pos hj, if_neg h0]
  rw [beginServer]
  split_ifs with hlead
  · exact .inr ⟨rfl, .inr (.inr ⟨by omega, .inl rfl⟩)⟩
  · exact .inr ⟨rfl, .inr (.inl rfl)⟩

theorem Lost.present (h : Lost c d s) (h3 : 3 ≤ c.N) (hd : 1 ≤ d) (hj : j < c.N - 1)
    (hstep : s.step c (.present (c.pos d j)) = some s') : Lost c d s' := by
  have hs := h.toSpread.present h3 hd hj hj hstep
  obtain ⟨-, hstate, rfl⟩ := step_present hstep
  obtain ⟨h0, hunheard, -⟩ := h.quiet hj (by simp [hstate])
  rw [hstate] at hunheard
  obtain ⟨rfl, hlast⟩ : d = c.N ∧ j + 2 = c.N := by simpa [Unheard] using hunheard
  obtain ⟨hfd, -, -⟩ := h.toSpread.stream hj hj
  rw [nextPos, if_pos hlast] at hfd
  refine h.update hs hj h0 (write_server ..) (write_backlog ..) (write_admitted ..)
    (fun _ _ => congrFun (write_serving ..) _) (fun f hf => ?_) le_rfl
    (.inr ⟨rfl, .inr (.inr ⟨hlast, .inr rfl⟩)⟩)
  rw [write_eq (f := inFd c c.N 0) (by simpa [serverIndexPresentItself, serverSetState] using hfd)]
  exact Function.update_of_ne hf _ _

/-- What the new predecessor writes on the connection is no identification, and closes it. -/
theorem Lost.identify (h : Lost c d s) (hd : 1 ≤ d) (hdN : d ≤ c.N)
    (hstep : s.step c (.identify n) = some s') : Lost c d s' ∧ todo c s' < todo c s := by
  obtain ⟨halive, f, p, rest, hf, hw, rfl⟩ := step_identify hstep
  obtain ⟨rfl, rfl⟩ := h.admitted n f hf
  obtain ⟨i, hi, -⟩ := (h.toSpread.alive_iff hd hdN).mp halive
  constructor
  · refine ⟨h.toSpread.frame rfl rfl rfl rfl (fun _ => .refl _) (List.append_nil _).symm (by simp),
      h.backlog, fun m g hg => ?_, h.serving, h.waits, fun j hj h0 => ?_, h.state⟩
    · by_cases hm : m = c.pos d 0
      · dsimp only at hg
        rw [hm, Function.update_self] at hg
        cases hg
      · dsimp only at hg
        rw [Function.update_of_ne hm] at hg
        exact h.admitted m g hg
    · dsimp only
      rw [Function.update_of_ne fun he => h0 (inFd_inj hdN hj (by omega) he)]
      exact h.wire j hj h0
  · have hdeath : (s.server (c.pos d 0)).deathCount = 1 := by
      rw [(h.node 0 (by omega)).deathCount, if_pos (by omega)]
    refine RingNet.todo_lt halive.1 halive.2.1 ?_ fun m hm => ?_
    · simp [work, hdeath, h.waits, h.serving, hf]
    · apply le_of_eq
      apply work_congr
      · rfl
      · rfl
      · exact Function.update_of_ne hm _ _

theorem Lost.step (h : Lost c d s) (h3 : 3 ≤ c.N) (hd : 1 ≤ d) (hdN : d ≤ c.N) (ha : a.Survivor)
    (hstep : s.step c a = some s') : Lost c d s' ∧ todo c s' < todo c s := by
  have hpos : ∀ {n}, Alive c s n → ∃ j < c.N - 1, n = c.pos d j := fun hn =>
    (h.toSpread.alive_iff hd hdN).mp hn
  have hsilent : ∀ {j f p rest}, j < c.N - 1 → (s.server (c.pos d j)).state ≠ .waitingNewPeer →
      (s.server (c.pos d j)).peerB.streamFd = some f → s.wire f ≠ p :: rest := by
    intro j f p rest hj hne hf hw
    obtain ⟨-, -, hfd, hnil⟩ := h.quiet hj hne
    obtain rfl := Option.some.inj (hf.symm.trans hfd)
    rw [hnil] at hw
    cases hw
  cases a with
  | health n =>
    obtain ⟨⟨halive, hidle, -⟩, f, hf, heof, -⟩ := step_health hstep
    obtain ⟨j, hj, rfl⟩ := hpos halive
    have hzero := h.toSpread.eof hd hdN hj hf heof
    omega
  | check n =>
    obtain ⟨⟨halive, hidle, -⟩, f, p, rest, r, hf, hw, -⟩ := step_check hstep
    obtain ⟨j, hj, rfl⟩ := hpos halive
    rw [RingNet.peerB] at hf
    split_ifs at hf
    exact absurd hw (hsilent hj (by simp [hidle]) hf)
  | accept n =>
    obtain ⟨-, f, rest, hback, -⟩ := step_accept hstep
    rw [h.backlog] at hback
    cases hback
  | identify n => exact h.identify hd hdN hstep
  | newPeer n =>
    obtain ⟨-, -, -, f, rest, hback, -⟩ := step_newPeer hstep
    rw [h.backlog] at hback
    cases hback
  | begin n =>
    obtain ⟨j, hj, rfl⟩ := hpos (step_begin hstep).1
    exact ⟨h.begin hdN hj hstep, h.toSpread.todo_begin hdN hj hj hstep⟩
  | present n =>
    obtain ⟨j, hj, rfl⟩ := hpos (step_present hstep).1
    exact ⟨h.present h3 hd hj hstep, h.toSpread.todo_present hdN hj hj hstep⟩
  | gossip n =>
    obtain ⟨halive, hstate, f, p, rest, hf, hw, -⟩ := step_gossip hstep
    obtain ⟨j, hj, rfl⟩ := hpos halive
    exact absurd hw (hsilent hj (by simp [hstate]) hf)
  | report n =>
    obtain ⟨halive, hstate, -⟩ := step_report hstep
    obtain ⟨j, hj, rfl⟩ := hpos halive
    obtain ⟨-, hunheard, -⟩ := h.quiet hj (by simp [hstate])
    rw [hstate, Unheard] at hunheard
    simp at hunheard
  | die n => exact absurd rfl (ha n)

end RingNet

end DSS
