import DistStore.Proofs.GossipLog
import DistStore.Proofs.RingDeath

/-! The ring after the death of the index `N`. The notice makes every survivor look for
a new index; node `N - 1` takes the part, and its presentation goes once around the ring
behind the notice. With three nodes both survivors take it. -/

namespace DSS

namespace RingNet

variable {c : Cluster} {k j n : ℕ} {sv : Server} {s s' : RingNet} {a : RingAct}

/-- A node at place `j` has presented itself as index or passed a presentation on. -/
def Spoken (j k : ℕ) (sv : Server) : Prop :=
  j < k ∧ (sv.state = .reportKnowledgeToIndex ∨ sv.state = .indexWaitingPeersKnowledge ∨
    sv.state = .idle)

instance (j k : ℕ) (sv : Server) : Decidable (Spoken j k sv) := inferInstanceAs (Decidable (_ ∧ _))

/-- The place before `j` among the survivors. -/
def prevPos (c : Cluster) (j : ℕ) : ℕ := if j = 0 then c.N - 2 else j - 1

def presentation (c : Cluster) (sender : ℕ) : XPacket :=
  XIndexPresentationPacket.bytes ⟨sender, c.N - 1, c.addr (c.N - 1)⟩

/-- The states of node `pos c N j` once it is told of the death and knows its
predecessor: the last survivor leads, the others follow. -/
def Elects (c : Cluster) (j : ℕ) (st : EServerState) : Prop :=
  st = .beginOperation ∨ st = .idle ∨
    if j + 2 = c.N then st = .indexPresentItself ∨ st = .indexWaitingPeersKnowledge
    else st = .waitIndexGossip ∨ st = .reportKnowledgeToIndex

/-- The ring `k` steps after the death of `N`. -/
structure Electing (c : Cluster) (k : ℕ) (s : RingNet) : Prop extends Base c c.N k s where
  carry : k + 2 ≤ c.N → s.wire = carrying c c.N k
  fresh : ∀ j < c.N - 1, k ≤ j → (s.server (c.pos c.N j)).state = .idle
  closed : 1 ≤ k → k < c.N → (s.server (c.pos c.N 0)).state = .waitingNewPeer
  elects : ∀ j < c.N - 1, j < k → (j = 0 → k = c.N) → Elects c j (s.server (c.pos c.N j)).state
  spoken : ∀ j < c.N - 1, Spoken j k (s.server (c.pos c.N j)) → c.N - 1 ≤ k ∧
    (j + 2 < c.N → Spoken (prevPos c j) k (s.server (c.pos c.N (prevPos c j))))
  gossip : c.N - 1 ≤ k → ∀ j < c.N - 1, s.wire (inFd c c.N j) =
    if j + 2 < c.N ∧ Spoken (prevPos c j) k (s.server (c.pos c.N (prevPos c j))) ∧
      ¬ Spoken j k (s.server (c.pos c.N j)) then [presentation c (c.pos c.N (prevPos c j))] else []
  index : ∀ j < c.N - 1, (s.server (c.pos c.N j)).index.nodeId =
    if Spoken j k (s.server (c.pos c.N j)) then c.N - 1 else c.N

theorem Electing.carried (h : Electing c k s) (h4 : 4 ≤ c.N) : Carried c c.N k s where
  toBase := h.toBase
  wire := h.carry
  quiet hk j hj hidle f hf := by
    have hspoken : Spoken j k (s.server (c.pos c.N j)) := ⟨by omega, .inr (.inr hidle)⟩
    have h0 : j = 0 → k = c.N := fun hj0 => by
      have hle := h.le
      by_contra hne
      have hwait := h.closed (by omega) (by omega)
      rw [← hj0, hidle] at hwait
      exact absurd hwait (by decide)
    obtain rfl := Option.some.inj ((h.toBase.peerB hj h0).1.symm.trans hf)
    rw [h.gossip (by omega) j hj, if_neg fun hn => hn.2.2 hspoken]
  closed := h.closed
  fresh j hj hkj := ⟨h.fresh j hj hkj, by rw [h.index j hj, if_neg fun hs => by
    have := hs.1
    omega]⟩

/-- A step of one busy node, or of the index that takes its report. -/
theorem Electing.update (h : Electing c k s) (hb : Base c c.N k s') (hj : j < c.N - 1) (hjk : j < k)
    (h0 : j = 0 → k = c.N) (hserver : s'.server = Function.update s.server (c.pos c.N j) sv)
    (helects : Elects c j sv.state)
    (hkeep : Spoken j k (s.server (c.pos c.N j)) → Spoken j k sv)
    (hspoken : Spoken j k sv → c.N - 1 ≤ k ∧
      (j + 2 < c.N → Spoken (prevPos c j) k (s.server (c.pos c.N (prevPos c j)))))
    (hindex : sv.index.nodeId = if Spoken j k sv then c.N - 1 else c.N)
    (hcarry : k + 2 ≤ c.N → s'.wire = s.wire)
    (hgossip : c.N - 1 ≤ k → ∀ i < c.N - 1, s'.wire (inFd c c.N i) =
      if i + 2 < c.N ∧ Spoken (prevPos c i) k (s'.server (c.pos c.N (prevPos c i))) ∧
        ¬ Spoken i k (s'.server (c.pos c.N i)) then [presentation c (c.pos c.N (prevPos c i))]
      else []) : Electing c k s' := by
  have hself : s'.server (c.pos c.N j) = sv := by rw [hserver, Function.update_self]
  have hother : ∀ i < c.N - 1, i ≠ j → s'.server (c.pos c.N i) = s.server (c.pos c.N i) :=
    fun i hi hij => by
      rw [hserver, Function.update_of_ne fun he => hij (c.pos_inj (by omega) (by omega) he)]
  have hprev : ∀ i < c.N - 1, prevPos c i < c.N - 1 := fun i hi => by
    rw [prevPos]
    split_ifs <;> omega
  have hgrow : ∀ i < c.N - 1, Spoken i k (s.server (c.pos c.N i)) →
      Spoken i k (s'.server (c.pos c.N i)) := fun i hi hs => by
    by_cases hij : i = j
    · subst hij
      rw [hself]
      exact hkeep hs
    · rwa [hother i hi hij]
  refine ⟨hb, fun hk => (hcarry hk).trans (h.carry hk), fun i hi hki => ?_, fun h1 hk => ?_,
    fun i hi hik hi0 => ?_, fun i hi hs => ?_, hgossip, fun i hi => ?_⟩
  · rw [hother i hi (by omega)]
    exact h.fresh i hi hki
  · rw [hother 0 (by omega) (by omega)]
    exact h.closed h1 hk
  · by_cases hij : i = j
    · subst hij
      rw [hself]
      exact helects
    · rw [hother i hi hij]
      exact h.elects i hi hik hi0
  · have hs' : c.N - 1 ≤ k ∧
        (i + 2 < c.N → Spoken (prevPos c i) k (s.server (c.pos c.N (prevPos c i)))) := by
      by_cases hij : i = j
      · subst hij
        rw [hself] at hs
        exact hspoken hs
      · rw [hother i hi hij] at hs
        exact h.spoken i hi hs
    exact ⟨hs'.1, fun hlt => hgrow _ (hprev i hi) (hs'.2 hlt)⟩
  · by_cases hij : i = j
    · subst hij
      rw [hself]
      exact hindex
    · rw [hother i hi hij]
      exact h.index i hi

/-- A step after which the same nodes have spoken and the same is on the streams. -/
theorem Electing.silent (h : Electing c k s) (hb : Base c c.N k s') (hj : j < c.N - 1) (hjk : j < k)
    (h0 : j = 0 → k = c.N) (hserver : s'.server = Function.update s.server (c.pos c.N j) sv)
    (helects : Elects c j sv.state)
    (hspoken : Spoken j k sv ↔ Spoken j k (s.server (c.pos c.N j)))
    (hindex : sv.index.nodeId = (s.server (c.pos c.N j)).index.nodeId) (hwire : s'.wire = s.wire) :
    Electing c k s' := by
  have hsame : ∀ i < c.N - 1, (Spoken i k (s'.server (c.pos c.N i)) ↔
      Spoken i k (s.server (c.pos c.N i))) := fun i hi => by
    by_cases hij : i = j
    · subst hij
      rw [hserver, Function.update_self]
      exact hspoken
    · rw [hserver, Function.update_of_ne fun he => hij (c.pos_inj (by omega) (by omega) he)]
  refine h.update hb hj hjk h0 hserver helects hspoken.mpr (fun hs => h.spoken j hj (hspoken.mp hs))
    ?_ (fun _ => hwire) fun hk i hi => ?_
  · rw [hindex, h.index j hj]
    simp only [hspoken]
  · have hprev : prevPos c i < c.N - 1 := by
      rw [prevPos]
      split_ifs <;> omega
    rw [hwire, h.gossip hk i hi]
    simp only [hsame i hi, hsame _ hprev]

/-- A busy node is told of the death and knows its predecessor. -/
theorem Electing.busy (h : Electing c k s) (hj : j < c.N - 1) (hjk : j < k)
    (hne : (s.server (c.pos c.N j)).state ≠ .waitingNewPeer) :
    (j = 0 → k = c.N) ∧ Elects c j (s.server (c.pos c.N j)).state := by
  have h0 : j = 0 → k = c.N := fun hj0 => by
    have hle := h.le
    by_contra hk
    exact hne (hj0 ▸ h.closed (by omega) (by omega))
  exact ⟨h0, h.elects j hj hjk h0⟩

/-- The node `net_size` names is the last survivor. -/
theorem NodeAt.leads_iff (h : NodeAt c c.N k j sv) (h4 : 4 ≤ c.N) (hj : j < c.N - 1) (hjk : j < k) :
    sv.netSize = sv.me.nodeId ↔ j + 2 = c.N := by
  have hid : sv.me.nodeId = j + 1 := by rw [h.me, ← c.pos_N]
  rw [h.netSize, hid, if_pos hjk]
  split_ifs <;> omega

theorem Electing.begin (h : Electing c k s) (h4 : 4 ≤ c.N) (hj : j < c.N - 1) (hjk : j < k)
    (hb : Base c c.N k s') (hstep : s.step c (.begin (c.pos c.N j)) = some s') : Electing c k s' := by
  obtain ⟨-, hstate, rfl⟩ := step_begin hstep
  obtain ⟨h0, -⟩ := h.busy hj hjk (by simp [hstate])
  have hsv := (h.node j hj).leads_iff h4 hj hjk
  refine h.silent hb hj hjk h0 rfl ?_ ?_ ?_ rfl
  · rw [beginServer, Elects]
    by_cases hlast : j + 2 = c.N
    · rw [if_pos (hsv.mpr hlast), if_pos hlast]
      exact .inr (.inr (.inl rfl))
    · rw [if_neg (mt hsv.mp hlast), if_neg hlast]
      exact .inr (.inr (.inl rfl))
  · rw [Spoken, Spoken, hstate, beginServer]
    split_ifs <;> simp [serverSetState]
  · rw [beginServer]
    split_ifs <;> rfl

/-- Node `pos c N j` speaks: it takes the presentation from its stream, unless it leads,
and writes it to the next node, unless that leads. -/
theorem Electing.speak (h : Electing c k s) (h4 : 4 ≤ c.N) (hb : Base c c.N k s') (hj : j < c.N - 1)
    (hjk : j < k) (h0 : j = 0 → k = c.N)
    (hserver : s'.server = Function.update s.server (c.pos c.N j) sv) (helects : Elects c j sv.state)
    (hnot : ¬ Spoken j k (s.server (c.pos c.N j))) (hnow : Spoken j k sv) (hk : c.N - 1 ≤ k)
    (hprev : j + 2 < c.N → Spoken (prevPos c j) k (s.server (c.pos c.N (prevPos c j))))
    (hindex : sv.index.nodeId = c.N - 1) (hread : j + 2 < c.N → s'.wire (inFd c c.N j) = [])
    (hsent : nextPos c j + 2 < c.N → s'.wire (inFd c c.N (nextPos c j)) =
      s.wire (inFd c c.N (nextPos c j)) ++ [presentation c (c.pos c.N j)])
    (hrest : ∀ i < c.N - 1, (i ≠ j ∨ j + 2 = c.N) → (i ≠ nextPos c j ∨ i + 2 = c.N) →
      s'.wire (inFd c c.N i) = s.wire (inFd c c.N i)) : Electing c k s' := by
  have hself : s'.server (c.pos c.N j) = sv := by rw [hserver, Function.update_self]
  have hother : ∀ i < c.N - 1, i ≠ j → s'.server (c.pos c.N i) = s.server (c.pos c.N i) :=
    fun i hi hij => by
      rw [hserver, Function.update_of_ne fun he => hij (c.pos_inj (by omega) (by omega) he)]
  have hplace : ∀ i < c.N - 1, prevPos c i < c.N - 1 ∧ (prevPos c i = j ↔ i = nextPos c j) :=
    fun i hi => by
      rw [prevPos, nextPos]
      split_ifs <;> omega
  refine h.update hb hj hjk h0 hserver helects (fun hs => absurd hs hnot) (fun _ => ⟨hk, hprev⟩)
    (by rw [hindex, if_pos hnow]) (by omega) fun _ i hi => ?_
  obtain ⟨hilt, hij⟩ := hplace i hi
  by_cases hnext : i = nextPos c j
  · -- the stream node `j` writes to
    have hne : i ≠ j := by
      rw [hnext, nextPos]
      split_ifs <;> omega
    rw [hij.mpr hnext, hother i hi hne, hself]
    by_cases hlead : i + 2 < c.N
    · have hsilent : ¬ Spoken i k (s.server (c.pos c.N i)) := fun hs => by
        have := (h.spoken i hi hs).2 hlead
        rw [hij.mpr hnext] at this
        exact hnot this
      rw [if_pos ⟨hlead, hnow, hsilent⟩, hnext, hsent (by omega), ← hnext, h.gossip hk i hi,
        hij.mpr hnext, if_neg fun hs => hnot hs.2.1]
      rfl
    · rw [if_neg fun hs => hlead hs.1, hrest i hi (.inl hne) (.inr (by omega)), h.gossip hk i hi,
        if_neg fun hs => hlead hs.1]
  · have hpne : prevPos c i ≠ j := fun he => hnext (hij.mp he)
    rw [hother _ hilt hpne]
    by_cases hself' : i = j
    · subst hself'
      rw [hself, if_neg fun hs => hs.2.2 hnow]
      by_cases hlead : i + 2 < c.N
      · exact hread hlead
      · rw [hrest i hi (.inr (by omega)) (.inl hnext), h.gossip hk i hi, if_neg fun hs => hlead hs.1]
    · rw [hother i hi hself', hrest i hi (.inl hself') (.inl hnext), h.gossip hk i hi]

theorem not_spoken {st : EServerState} (hstate : sv.state = st)
    (hst : st = .indexPresentItself ∨ st = .waitIndexGossip ∨ st = .beginOperation ∨
      st = .waitingNewPeer) : ¬ Spoken j k sv := by
  rintro ⟨-, hs⟩
  rw [hstate] at hs
  rcases hst with rfl | rfl | rfl | rfl <;> simp at hs

theorem Electing.present (h : Electing c k s) (h4 : 4 ≤ c.N) (hj : j < c.N - 1) (hjk : j < k)
    (hb : Base c c.N k s') (hstep : s.step c (.present (c.pos c.N j)) = some s') :
    Electing c k s' := by
  obtain ⟨-, hstate, rfl⟩ := step_present hstep
  obtain ⟨h0, helects⟩ := h.busy hj hjk (by simp [hstate])
  simp only [hstate, Elects, reduceCtorEq, false_or, true_or] at helects
  split_ifs at helects with hlast
  · have hid : (s.server (c.pos c.N j)).me.nodeId = c.pos c.N j := by rw [(h.node j hj).me]
    have hip : (s.server (c.pos c.N j)).me.ip = c.addr (c.pos c.N j) := by rw [(h.node j hj).me]
    have hlead : c.pos c.N j = c.N - 1 := by
      rw [c.pos_N]
      omega
    have hnext : nextPos c j = 0 := if_pos hlast
    obtain ⟨hfd, -, -⟩ := h.toBase.stream hj hjk
    rw [hnext] at hfd
    have hpacket : (serverIndexPresentItself (s.server (c.pos c.N j))).2 =
        presentation c (c.pos c.N j) := by
      rw [serverIndexPresentItself, presentation, hid, hip, hlead]
    have hwrite : ((s.setServer (c.pos c.N j) (serverIndexPresentItself (s.server (c.pos c.N j))).1).write
        (c.pos c.N j) (serverIndexPresentItself (s.server (c.pos c.N j))).2).wire =
        Function.update s.wire (inFd c c.N 0) (s.wire (inFd c c.N 0) ++ [presentation c (c.pos c.N j)]) := by
      rw [write_eq (f := inFd c c.N 0) (by simpa [serverIndexPresentItself, serverSetState] using hfd),
        hpacket]
      rfl
    refine h.speak h4 hb hj hjk h0 (write_server ..) ?_ (not_spoken hstate (.inl rfl))
      ⟨hjk, .inr (.inl rfl)⟩ (by omega) (by omega) (hid.trans hlead) (by omega) (fun _ => ?_)
      fun i hi _ hne => ?_
    · exact .inr (.inr (by rw [if_pos hlast]; exact .inr rfl))
    · rw [hwrite, hnext, Function.update_self]
    · rw [hwrite, Function.update_of_ne]
      intro he
      have := inFd_inj (le_refl _) hi (by omega) he
      omega

theorem serverWaitIndexGossip_presentation (hN : c.N < 2 ^ 31) (sv : Server) (sender : ℕ) :
    serverWaitIndexGossip sv (presentation c sender) =
      ⟨serverSetState { sv with
          index := { sv.index with ip := c.addr (c.N - 1), nodeId := c.N - 1 } } .reportKnowledgeToIndex,
        if c.N - 1 ≠ sv.peerF.nodeId then some (presentation c sv.me.nodeId) else none⟩ :=
  serverWaitIndexGossip_presentationOf (by omega) sv sender

/-- What a follower finds on its stream is the presentation, which its predecessor wrote. -/
theorem Electing.takes (h : Electing c k s) (hj : j < c.N - 1) (hjk : j < k)
    (hstate : (s.server (c.pos c.N j)).state = .waitIndexGossip) {f : ℕ} {p : XPacket}
    {rest : List XPacket} (hf : (s.server (c.pos c.N j)).peerB.streamFd = some f)
    (hw : s.wire f = p :: rest) :
    j + 2 < c.N ∧ c.N - 1 ≤ k ∧ Spoken (prevPos c j) k (s.server (c.pos c.N (prevPos c j))) ∧
      f = inFd c c.N j ∧ p = presentation c (c.pos c.N (prevPos c j)) ∧ rest = [] := by
  obtain ⟨h0, -⟩ := h.busy hj hjk (by simp [hstate])
  obtain rfl := Option.some.inj (hf.symm.trans (h.toBase.peerB hj h0).2)
  have hk : c.N - 1 ≤ k := by
    -- before that only the notice is on the streams, and it is behind no busy node
    by_contra hk
    have hin : inFd c c.N j = c.pos c.N (j - 1) := if_neg (by omega)
    rw [h.carry (by omega), hin, carrying] at hw
    split_ifs at hw with hcarry
    exact absurd (c.pos_inj (by omega) (by omega) hcarry.2.2) (by omega)
  rw [h.gossip hk j hj] at hw
  split_ifs at hw with hspoke
  obtain ⟨rfl, rfl⟩ := List.cons.inj hw
  exact ⟨hspoke.1, hk, hspoke.2.1, rfl, rfl, rfl⟩

/-- A follower takes the presentation, and passes it on unless the leader is next. -/
theorem Electing.follow (h : Electing c k s) (h4 : 4 ≤ c.N) (hj : j < c.N - 1) (hjk : j < k)
    (hb : Base c c.N k s') (hstep : s.step c (.gossip (c.pos c.N j)) = some s') :
    Electing c k s' := by
  obtain ⟨-, hstate, f, p, rest, hf, hw, rfl⟩ := step_gossip hstep
  obtain ⟨h0, -⟩ := h.busy hj hjk (by simp [hstate])
  obtain ⟨hlt, hk, hspoke, rfl, rfl, rfl⟩ := h.takes hj hjk hstate hf hw
  have hlast : j + 2 ≠ c.N := hlt.ne
  have hnode := h.node j hj
  rw [serverWaitIndexGossip_presentation c.N_lt] at hb ⊢
  have hid : (s.server (c.pos c.N j)).me.nodeId = c.pos c.N j := by rw [hnode.me]
  have hnext : nextPos c j = j + 1 := if_neg hlast
  have hpeer : (s.server (c.pos c.N j)).peerF.nodeId = j + 2 := by
    have hpeer := hnode.peerF
    rw [if_neg (by omega)] at hpeer
    rw [hpeer.2.2, c.pos_N]
  obtain ⟨hout, -, -⟩ := h.toBase.stream hj hjk
  rw [hnext] at hout
  have hwire : (writeOpt (setServer { s with wire := Function.update s.wire (inFd c c.N j) [] }
      (c.pos c.N j) (serverSetState { s.server (c.pos c.N j) with
        index := { (s.server (c.pos c.N j)).index with ip := c.addr (c.N - 1), nodeId := c.N - 1 } }
        .reportKnowledgeToIndex)) (c.pos c.N j)
      (if c.N - 1 ≠ (s.server (c.pos c.N j)).peerF.nodeId then
        some (presentation c (s.server (c.pos c.N j)).me.nodeId) else none)).wire =
      if j + 3 = c.N then Function.update s.wire (inFd c c.N j) []
      else Function.update (Function.update s.wire (inFd c c.N j) []) (inFd c c.N (j + 1))
        (s.wire (inFd c c.N (j + 1)) ++ [presentation c (c.pos c.N j)]) := by
    have hne : inFd c c.N (j + 1) ≠ inFd c c.N j := fun he => by
      have := inFd_inj (le_refl _) (by omega) hj he
      omega
    rw [hpeer, hid]
    by_cases hend : j + 3 = c.N
    · rw [if_neg (by omega), if_pos hend]
      rfl
    · rw [if_pos (by omega), if_neg hend, writeOpt_some, write_eq (f := inFd c c.N (j + 1))
        (by simpa [serverSetState] using hout)]
      simp [Function.update_of_ne hne]
  refine h.speak h4 hb hj hjk h0 (writeOpt_server ..) ?_ (not_spoken hstate (.inr (.inl rfl)))
    ⟨hjk, .inl rfl⟩ hk (fun _ => hspoke) rfl (fun _ => ?_) (fun hlt => ?_) fun i hi hij hne => ?_
  · exact .inr (.inr (by rw [if_neg hlast]; exact .inr rfl))
  · have hne : inFd c c.N j ≠ inFd c c.N (j + 1) := fun he => by
      have := inFd_inj (le_refl _) hj (by omega) he
      omega
    rw [hwire]
    split_ifs
    · rw [Function.update_self]
    · rw [Function.update_of_ne hne, Function.update_self]
  · rw [hwire, hnext, if_neg (by omega), Function.update_self]
  · have hne1 : inFd c c.N i ≠ inFd c c.N j := fun he => by
      have := inFd_inj (le_refl _) hi hj he
      omega
    rw [hwire]
    split_ifs with hend
    · rw [Function.update_of_ne hne1]
    · have hne2 : inFd c c.N i ≠ inFd c c.N (j + 1) := fun he => by
        have := inFd_inj (le_refl _) hi (by omega) he
        omega
      rw [Function.update_of_ne hne2, Function.update_of_ne hne1]

/-- A follower reports to the leader, which is done once all have. -/
theorem Electing.report (h : Electing c k s) (hj : j < c.N - 1) (hjk : j < k)
    (hstep : s.step c (.report (c.pos c.N j)) = some s') : Electing c k s' := by
  obtain ⟨-, hstate, i, -, halive, hwait, -, rfl⟩ := step_report hstep
  obtain ⟨h0, helects⟩ := h.busy hj hjk (by simp [hstate])
  obtain ⟨m, hm, rfl⟩ := (h.toBase.alive_iff (by omega) (le_refl _)).mp halive
  have hmk : m < k := not_le.mp fun hk => by
    rw [h.fresh m hm hk] at hwait
    exact absurd hwait (by decide)
  obtain ⟨hm0, hmelects⟩ := h.busy hm hmk (by simp [hwait])
  have hne : c.pos c.N m ≠ c.pos c.N j := fun he => by
    rw [he, hstate] at hwait
    exact absurd hwait (by decide)
  have h1 : Electing c k (s.setServer (c.pos c.N j) (reported (s.server (c.pos c.N j)))) := by
    refine h.silent (h.toBase.setServer (sameRing_reported _)) hj hjk h0 rfl (.inr (.inl rfl)) ?_ rfl rfl
    rw [Spoken, Spoken, hstate]
    simp [reported, serverSetState]
  have hold : (s.setServer (c.pos c.N j) (reported (s.server (c.pos c.N j)))).server (c.pos c.N m) =
      s.server (c.pos c.N m) := by rw [setServer_server, Function.update_of_ne hne]
  have hspoken : ∀ p, Spoken m k (indexClientDone (countReportedPeer (s.server (c.pos c.N m)) p)) :=
    fun p => by
      rw [indexClientDone]
      split_ifs
      · exact ⟨hmk, .inr (.inr rfl)⟩
      · exact ⟨hmk, .inr (.inl hwait)⟩
  refine h1.silent (h1.toBase.setServer (by rw [hold]; exact sameRing_countReportedPeer _ _)) hm hmk hm0
    rfl ?_ ?_ ?_ rfl
  · rw [indexClientDone]
    split_ifs
    · exact .inr (.inl rfl)
    · exact hmelects
  · rw [hold]
    exact iff_of_true (hspoken _) ⟨hmk, .inr (.inl hwait)⟩
  · rw [hold, indexClientDone]
    split_ifs <;> rfl

/-- Nobody has spoken before the notice is around. -/
theorem Electing.unspoken (h : Electing c k s) (hk : k + 2 ≤ c.N) (hj : j < c.N - 1) :
    ¬ Spoken j k (s.server (c.pos c.N j)) := fun hs => by
  have := (h.spoken j hj hs).1
  omega

/-- The ring after a step of the notice, while nobody has spoken. -/
theorem Electing.notice (h : Electing c k s) {k' : ℕ} (hn : NoticeStep c c.N k' j s s')
    (hj : j < c.N - 1) (hkj : k' = k + 1) (hjk : j = k) (hk : k + 2 ≤ c.N)
    (hwire : s'.wire = carrying c c.N k')
    (hstate : (s'.server (c.pos c.N j)).state =
      if j = 0 then .waitingNewPeer else .beginOperation) : Electing c k' s' := by
  subst hkj hjk
  have hother : ∀ i < c.N - 1, i ≠ j → s'.server (c.pos c.N i) = s.server (c.pos c.N i) :=
    fun i hi => hn.other (by omega) (by omega)
  have hunspoken : ∀ i < c.N - 1, ¬ Spoken i (j + 1) (s'.server (c.pos c.N i)) := fun i hi hs => by
    by_cases hij : i = j
    · subst hij
      split_ifs at hstate
      · exact not_spoken hstate (.inr (.inr (.inr rfl))) hs
      · exact not_spoken hstate (.inr (.inr (.inl rfl))) hs
    · rw [hother i hi hij] at hs
      exact h.unspoken hk hi ⟨by have := hs.1; omega, hs.2⟩
  refine ⟨hn.base, fun _ => hwire, fun i hi hki => ?_, fun h1 hlt => ?_, fun i hi hik hi0 => ?_,
    fun i hi hs => absurd hs (hunspoken i hi), fun hlast i hi => ?_, fun i hi => ?_⟩
  · rw [hother i hi (by omega)]
    exact h.fresh i hi (by omega)
  · by_cases hj0 : j = 0
    · rw [← hj0, hstate, if_pos hj0]
    · rw [hother 0 (by omega) (by omega)]
      exact h.closed (by omega) (by omega)
  · by_cases hij : i = j
    · rw [hij, hstate, if_neg (by omega)]
      exact .inl rfl
    · rw [hother i hi hij]
      exact h.elects i hi (by omega) (by omega)
  · have hilt : prevPos c i < c.N - 1 := by
      rw [prevPos]
      split_ifs <;> omega
    rw [hwire, carrying_none (.inr (by omega)), if_neg fun hs => hunspoken _ hilt hs.2.1]
  · rw [if_neg (hunspoken i hi)]
    by_cases hij : i = j
    · rw [hij, hn.index, h.index j hj, if_neg (h.unspoken hk hj)]
    · rw [hother i hi hij, h.index i hi, if_neg (h.unspoken hk hi)]

/-- The ring after its closing: the successor of `N` begins too. -/
theorem Electing.close (h : Electing c k s) (h4 : 4 ≤ c.N) (hk : k + 1 = c.N)
    (hn : NoticeStep c c.N c.N 0 s s') (hwire : s'.wire = s.wire)
    (hstate : (s'.server (c.pos c.N 0)).state = .beginOperation) : Electing c c.N s' := by
  have hother : ∀ i < c.N - 1, i ≠ 0 → s'.server (c.pos c.N i) = s.server (c.pos c.N i) :=
    fun i hi => hn.other (by omega) (by omega)
  have hwait := h.closed (by omega) (by omega)
  have hspoken : ∀ i < c.N - 1, (Spoken i c.N (s'.server (c.pos c.N i)) ↔
      Spoken i k (s.server (c.pos c.N i))) := fun i hi => by
    by_cases hi0 : i = 0
    · subst hi0
      exact iff_of_false (not_spoken hstate (.inr (.inr (.inl rfl))))
        (not_spoken hwait (.inr (.inr (.inr rfl))))
    · rw [hother i hi hi0, Spoken, Spoken, iff_true_intro (show i < c.N by omega),
        iff_true_intro (show i < k by omega)]
  have hprev : ∀ i < c.N - 1, prevPos c i < c.N - 1 := fun i hi => by
    rw [prevPos]
    split_ifs <;> omega
  refine ⟨hn.base, by omega, by omega, by omega, fun i hi hik _ => ?_, fun i hi hs => ?_,
    fun _ i hi => ?_, fun i hi => ?_⟩
  · by_cases hi0 : i = 0
    · rw [hi0, hstate]
      exact .inl rfl
    · rw [hother i hi hi0]
      exact h.elects i hi (by omega) (by omega)
  · obtain ⟨-, hs⟩ := h.spoken i hi ((hspoken i hi).mp hs)
    exact ⟨by omega, fun hlt => (hspoken _ (hprev i hi)).mpr (hs hlt)⟩
  · rw [hwire, h.gossip (by omega) i hi]
    simp only [hspoken i hi, hspoken _ (hprev i hi)]
  · simp only [hspoken i hi]
    by_cases hi0 : i = 0
    · rw [hi0, hn.index, h.index 0 (by omega)]
    · rw [hother i hi hi0, h.index i hi]

theorem Electing.step (h : Electing c k s) (h4 : 4 ≤ c.N) (ha : a.Survivor) (hp : Patient c c.N s a)
    (hstep : s.step c a = some s') : ∃ k', Electing c k' s' := by
  rcases (h.carried h4).cases (by omega) (by omega) (le_refl _) ha hp hstep with
    ⟨rfl, hn, hwire, hstate⟩ | ⟨h1, hk, hn, hwire, hstate⟩ | ⟨hk, hn, hwire, hstate⟩ |
    ⟨j, hj, hjk, rfl | rfl | rfl | rfl, hb⟩
  · exact ⟨1, h.notice hn (by omega) rfl rfl (by omega) hwire (by rw [hstate, if_pos rfl])⟩
  · exact ⟨k + 1, h.notice hn (by omega) rfl rfl hk hwire
      (by rw [hstate, if_pos rfl, if_neg (by omega)])⟩
  · exact ⟨c.N, h.close h4 hk hn hwire (by rw [hstate, if_pos rfl])⟩
  · exact ⟨k, h.begin h4 hj hjk hb hstep⟩
  · exact ⟨k, h.present h4 hj hjk hb hstep⟩
  · exact ⟨k, h.follow h4 hj hjk hb hstep⟩
  · exact ⟨k, h.report hj hjk hstep⟩

/-! ## Three nodes -/

/-- With three nodes, both survivors of the index take its part, and wait for reports. -/
structure Rival (c : Cluster) (k : ℕ) (s : RingNet) : Prop extends Base c c.N k s where
  carry : k + 2 ≤ c.N → s.wire = carrying c c.N k
  fresh : ∀ j < c.N - 1, k ≤ j →
    (s.server (c.pos c.N j)).state = .idle ∧ (s.server (c.pos c.N j)).index.nodeId = c.N
  closed : 1 ≤ k → k < c.N → (s.server (c.pos c.N 0)).state = .waitingNewPeer
  leads : ∀ j < c.N - 1, j < k → (j = 0 → k = c.N) →
    (s.server (c.pos c.N j)).state = .beginOperation ∨
    (s.server (c.pos c.N j)).state = .indexPresentItself ∨
    (s.server (c.pos c.N j)).state = .indexWaitingPeersKnowledge
  empty : k + 1 = c.N → s.wire (c.pos c.N 0) = []

theorem Rival.carried (h : Rival c k s) : Carried c c.N k s where
  toBase := h.toBase
  wire := h.carry
  quiet hk j hj hidle f hf := by
    have hle := h.le
    have h0 : j = 0 → k = c.N := fun hj0 => by
      by_contra hne
      have hwait := h.closed (by omega) (by omega)
      rw [← hj0, hidle] at hwait
      exact absurd hwait (by decide)
    rcases h.leads j hj (by omega) h0 with hs | hs | hs <;> exact absurd (hidle.symm.trans hs) (by decide)
  closed := h.closed
  fresh := h.fresh

theorem Rival.update (h : Rival c k s) (hb : Base c c.N k s') (hj : j < c.N - 1) (hjk : j < k)
    (h0 : j = 0 → k = c.N) (hserver : s'.server = Function.update s.server (c.pos c.N j) sv)
    (hleads : sv.state = .beginOperation ∨ sv.state = .indexPresentItself ∨
      sv.state = .indexWaitingPeersKnowledge) (hwire : k + 2 ≤ c.N → s'.wire = s.wire)
    (hempty : k + 1 = c.N → s'.wire (c.pos c.N 0) = s.wire (c.pos c.N 0)) : Rival c k s' := by
  have hother : ∀ i < c.N - 1, i ≠ j → s'.server (c.pos c.N i) = s.server (c.pos c.N i) :=
    fun i hi hij => by
      rw [hserver, Function.update_of_ne fun he => hij (c.pos_inj (by omega) (by omega) he)]
  refine ⟨hb, fun hk => (hwire hk).trans (h.carry hk), fun i hi hki => ?_, fun h1 hk => ?_,
    fun i hi hik hi0 => ?_, fun hk => (hempty hk).trans (h.empty hk)⟩
  · rw [hother i hi (by omega)]
    exact h.fresh i hi hki
  · rw [hother 0 (by omega) (by omega)]
    exact h.closed h1 hk
  · by_cases hij : i = j
    · subst hij
      rw [hserver, Function.update_self]
      exact hleads
    · rw [hother i hi hij]
      exact h.leads i hi hik hi0

theorem Rival.step (h : Rival c k s) (h3 : c.N = 3) (ha : a.Survivor) (hp : Patient c c.N s a)
    (hstep : s.step c a = some s') : ∃ k', Rival c k' s' := by
  rcases h.carried.cases (by omega) (by omega) (le_refl _) ha hp hstep with
    ⟨rfl, hn, hwire, hstate⟩ | ⟨h1, hk, hn, hwire, hstate⟩ | ⟨hk, hn, hwire, hstate⟩ |
    ⟨j, hj, hjk, hbusy, hb⟩
  · refine ⟨1, hn.base, fun _ => hwire, fun i hi hki => ?_, fun _ _ => hstate, fun i hi hi1 hi0 => ?_,
      by omega⟩
    · rw [hn.other (by omega) (by omega) (by omega)]
      exact h.fresh i hi (by omega)
    · omega
  · refine ⟨k + 1, hn.base, fun _ => hwire, fun i hi hki => by omega, fun _ _ => ?_,
      fun i hi hik hi0 => ?_, fun _ => by rw [hwire, carrying_none (.inr (by omega))]⟩
    · rw [hn.other (by omega) (by omega) (by omega)]
      exact h.closed h1 (by omega)
    · obtain rfl : i = k := by omega
      rw [hstate, if_pos rfl]
      exact .inl rfl
  · refine ⟨c.N, hn.base, by omega, by omega, by omega, fun i hi hik _ => ?_, by omega⟩
    by_cases hi0 : i = 0
    · rw [hi0, hstate, if_pos rfl]
      exact .inl rfl
    · rw [hn.other (by omega) (by omega) hi0]
      exact h.leads i hi (by omega) (by omega)
  · have h0 : (s.server (c.pos c.N j)).state ≠ .waitingNewPeer → j = 0 → k = c.N := fun hne hj0 => by
      have hle := h.le
      by_contra hk
      exact hne (hj0 ▸ h.closed (by omega) (by omega))
    refine ⟨k, ?_⟩
    rcases hbusy with rfl | rfl | rfl | rfl
    · obtain ⟨-, hstate, rfl⟩ := step_begin hstep
      have hnode := h.node j hj
      have hid : (s.server (c.pos c.N j)).me.nodeId = j + 1 := by rw [hnode.me, ← c.pos_N]
      have hsv : (s.server (c.pos c.N j)).netSize = (s.server (c.pos c.N j)).me.nodeId := by
        rw [hnode.netSize, hid, if_pos hjk]
        split_ifs <;> omega
      refine h.update hb hj hjk (h0 (by simp [hstate])) rfl (.inr (.inl ?_)) (fun _ => rfl) fun _ => rfl
      rw [beginServer, if_pos hsv]
      rfl
    · obtain ⟨-, hstate, rfl⟩ := step_present hstep
      have hlast := h0 (by simp [hstate])
      refine h.update hb hj hjk hlast (write_server ..) (.inr (.inr rfl)) (fun hk => ?_)
        fun hk => ?_
      · -- the second survivor leads only after it closed the ring
        omega
      · obtain ⟨hfd, -, -⟩ := h.toBase.stream hj hjk
        rw [nextPos, if_pos (by omega), inFd, if_pos rfl] at hfd
        have hle := c.pos_le (le_refl c.N) (show 0 < c.N by omega)
        rw [write_eq (f := c.N + 1) (by simpa [serverIndexPresentItself, serverSetState] using hfd)]
        exact Function.update_of_ne (by omega) _ _
    · obtain ⟨-, hstate, -⟩ := step_gossip hstep
      rcases h.leads j hj hjk (h0 (by simp [hstate])) with hs | hs | hs <;>
        exact absurd (hstate.symm.trans hs) (by decide)
    · obtain ⟨-, hstate, -⟩ := step_report hstep
      rcases h.leads j hj hjk (h0 (by simp [hstate])) with hs | hs | hs <;>
        exact absurd (hstate.symm.trans hs) (by decide)

end RingNet

end DSS
