import DistStore.Proofs.BackwardPeer
import DistStore.Proofs.GossipLog
import DistStore.Proofs.RingDeath

/-! The ring as it comes up, to where it is closed. A node has both peers when it leaves
`SERVER_CONNECTING`: the listener hands out its predecessor's connection and no other. -/

namespace DSS

namespace Cluster

variable {c : Cluster} {m n : ℕ}

def prev (c : Cluster) (n : ℕ) : ℕ := if n = 1 then c.N else n - 1

theorem prev_mem (h1 : 1 ≤ n) (hn : n ≤ c.N) : 1 ≤ c.prev n ∧ c.prev n ≤ c.N := by
  unfold prev
  split_ifs <;> omega

theorem next_mem (hn : n ≤ c.N) : 1 ≤ n % c.N + 1 ∧ n % c.N + 1 ≤ c.N := by
  have := c.two_le
  rw [c.succ_eq hn]
  split_ifs <;> omega

theorem prev_eq_iff (h1 : 1 ≤ n) (hn : n ≤ c.N) (hm1 : 1 ≤ m) (hm : m ≤ c.N) :
    c.prev m = n ↔ m = n % c.N + 1 := by
  rw [c.succ_eq hn, prev]
  split_ifs <;> omega

theorem next_ne (hn : n ≤ c.N) : n % c.N + 1 ≠ n := by
  have := c.two_le
  rw [c.succ_eq hn]
  split_ifs <;> omega

theorem prev_ne (h1 : 1 ≤ n) : c.prev n ≠ n := by
  have := c.two_le
  unfold prev
  split_ifs <;> omega

end Cluster

namespace RingNet

variable {c : Cluster} {m n : ℕ} {sv : Server} {s s' : RingNet} {a : RingAct}

/-! ## What the steps do -/

theorem boot_eq_some (h : s.boot c n = some s') : Alive c s n ∧ (s.server n).state = .booting ∧
    s' = s.setServer n (serverSetState (s.server n) .connecting) := by
  unfold boot at h
  split_ifs at h with hb
  exact ⟨hb.1, hb.2, (Option.some.inj h).symm⟩

/-! ## The invariant -/

/-- The node has presented itself as index or taken a presentation. -/
def Told (sv : Server) : Prop :=
  sv.state = .reportKnowledgeToIndex ∨ sv.state = .indexWaitingPeersKnowledge ∨ sv.state = .idle

instance (sv : Server) : Decidable (Told sv) := inferInstanceAs (Decidable (_ ∨ _))

/-- The states of node `n` once it has both peers: node `N` leads, the others follow. -/
def Connected (c : Cluster) (n : ℕ) (st : EServerState) : Prop :=
  st = .beginOperation ∨ st = .idle ∨
    if n = c.N then st = .indexPresentItself ∨ st = .indexWaitingPeersKnowledge
    else st = .waitIndexGossip ∨ st = .reportKnowledgeToIndex

structure BootNode (c : Cluster) (n : ℕ) (sv : Server) : Prop where
  me : sv.me = ⟨c.addr n, n⟩
  netSize : sv.netSize = c.N
  peerF : sv.peerF.nodeId = n % c.N + 1 ∧ sv.peerF.ip = c.addr (n % c.N + 1)
  forward : sv.peerF.statusOpen → sv.peerF.streamFd = some n
  backward : sv.peerB.statusOpen → sv.peerB.streamFd = some (c.prev n)
  stage : (sv.state = .booting ∧ ¬ sv.peerF.statusOpen ∧ ¬ sv.peerB.statusOpen) ∨
    (sv.state = .connecting ∧ ¬ (sv.peerF.statusOpen ∧ sv.peerB.statusOpen)) ∨
    (sv.peerF.statusOpen ∧ sv.peerB.statusOpen ∧ Connected c n sv.state)

/-- A node that has left `SERVER_CONNECTING` has both peers. -/
theorem BootNode.connected (h : BootNode c n sv) (hboot : sv.state ≠ .booting)
    (hconnecting : sv.state ≠ .connecting) :
    sv.peerF.streamFd = some n ∧ sv.peerB.streamFd = some (c.prev n) ∧ sv.peerB.statusOpen ∧
      Connected c n sv.state := by
  rcases h.stage with ⟨hs, -⟩ | ⟨hs, -⟩ | ⟨hF, hB, hs⟩
  · exact absurd hs hboot
  · exact absurd hs hconnecting
  · exact ⟨h.forward hF, h.backward hB, hB, hs⟩

structure Booting (c : Cluster) (s : RingNet) : Prop where
  deaths : s.deaths = []
  admitted : ∀ n, s.admitted n = none
  serving : ∀ n, s.serving n = false
  listener : ∀ f, s.listener f = f % c.N + 1
  node : ∀ n, 1 ≤ n → n ≤ c.N → BootNode c n (s.server n)
  dialed : ∀ n, 1 ≤ n → n ≤ c.N → (s.server n).peerB.statusOpen →
    (s.server (c.prev n)).peerF.statusOpen
  backlog : ∀ n, 1 ≤ n → n ≤ c.N → s.backlog n =
    if (s.server (c.prev n)).peerF.statusOpen ∧ ¬ (s.server n).peerB.statusOpen then [c.prev n]
    else []
  told : ∀ n, 1 ≤ n → n < c.N → Told (s.server n) → Told (s.server (c.prev n))
  wire : ∀ f, s.wire f =
    if 1 ≤ f ∧ f ≤ c.N ∧ f + 1 ≠ c.N ∧ Told (s.server f) ∧ ¬ Told (s.server (f % c.N + 1)) then
      [presentationOf c c.N f]
    else []

/-- A step leaves the neighbours of the ring as they are. -/
structure SameNet (s s' : RingNet) : Prop where
  deaths : s'.deaths = s.deaths
  admitted : s'.admitted = s.admitted
  serving : ∀ n, s.serving n = false → s'.serving n = false
  listener : s'.listener = s.listener

theorem Booting.update (h : Booting c s) (hsame : SameNet s s')
    (hserver : s'.server = Function.update s.server n sv) (hnode : BootNode c n sv)
    (hdialed : ∀ m, 1 ≤ m → m ≤ c.N → (s'.server m).peerB.statusOpen →
      (s'.server (c.prev m)).peerF.statusOpen)
    (hbacklog : ∀ m, 1 ≤ m → m ≤ c.N → s'.backlog m =
      if (s'.server (c.prev m)).peerF.statusOpen ∧ ¬ (s'.server m).peerB.statusOpen then [c.prev m]
      else [])
    (hkeep : Told (s.server n) → Told sv)
    (htold : n < c.N → Told sv → Told (s.server (c.prev n)))
    (hwire : ∀ f, s'.wire f = if 1 ≤ f ∧ f ≤ c.N ∧ f + 1 ≠ c.N ∧ Told (s'.server f) ∧
      ¬ Told (s'.server (f % c.N + 1)) then [presentationOf c c.N f] else []) : Booting c s' := by
  have hself : s'.server n = sv := by rw [hserver, Function.update_self]
  have hother : ∀ m, m ≠ n → s'.server m = s.server m := by
    intro m hm
    rw [hserver, Function.update_of_ne hm]
  have hgrow : ∀ m, Told (s.server m) → Told (s'.server m) := by
    intro m hm
    by_cases hmn : m = n
    · subst hmn
      rw [hself]
      exact hkeep hm
    · rwa [hother m hmn]
  refine ⟨hsame.deaths.trans h.deaths, fun m => ?_, fun m => hsame.serving m (h.serving m), fun f => ?_,
    fun m h1 hm => ?_, hdialed, hbacklog, fun m h1 hm ht => ?_, hwire⟩
  · rw [hsame.admitted]
    exact h.admitted m
  · rw [hsame.listener]
    exact h.listener f
  · by_cases hmn : m = n
    · subst hmn
      rwa [hself]
    · rw [hother m hmn]
      exact h.node m h1 hm
  · apply hgrow
    by_cases hmn : m = n
    · subst hmn
      rw [hself] at ht
      exact htold hm ht
    · rw [hother m hmn] at ht
      exact h.told m h1 hm ht

theorem Booting.keep (h : Booting c s) (hsame : SameNet s s') (hbacklog : s'.backlog = s.backlog)
    (hserver : s'.server = Function.update s.server n sv) (hnode : BootNode c n sv)
    (hF : sv.peerF = (s.server n).peerF) (hB : sv.peerB = (s.server n).peerB)
    (hkeep : Told (s.server n) → Told sv)
    (htold : n < c.N → Told sv → Told (s.server (c.prev n)))
    (hwire : ∀ f, s'.wire f = if 1 ≤ f ∧ f ≤ c.N ∧ f + 1 ≠ c.N ∧ Told (s'.server f) ∧
      ¬ Told (s'.server (f % c.N + 1)) then [presentationOf c c.N f] else []) : Booting c s' := by
  have hpeers : ∀ m, (s'.server m).peerF = (s.server m).peerF ∧
      (s'.server m).peerB = (s.server m).peerB := by
    intro m
    by_cases hmn : m = n
    · subst hmn
      rw [hserver, Function.update_self]
      exact ⟨hF, hB⟩
    · rw [hserver, Function.update_of_ne hmn]
      exact ⟨rfl, rfl⟩
  refine h.update hsame hserver hnode (fun m h1 hm => ?_) (fun m h1 hm => ?_) hkeep htold hwire
  · rw [(hpeers m).2, (hpeers _).1]
    exact h.dialed m h1 hm
  · rw [(hpeers m).2, (hpeers _).1, hbacklog]
    exact h.backlog m h1 hm

theorem told_congr (hserver : s'.server = Function.update s.server n sv)
    (htold : Told sv ↔ Told (s.server n)) (m : ℕ) : Told (s'.server m) ↔ Told (s.server m) := by
  by_cases hmn : m = n
  · subst hmn
    rw [hserver, Function.update_self]
    exact htold
  · rw [hserver, Function.update_of_ne hmn]

/-- A step after which the same nodes are told and the same is on the streams. -/
theorem Booting.silent (h : Booting c s) (hsame : SameNet s s') (hbacklog : s'.backlog = s.backlog)
    (hserver : s'.server = Function.update s.server n sv) (hnode : BootNode c n sv)
    (hF : sv.peerF = (s.server n).peerF) (hB : sv.peerB = (s.server n).peerB)
    (htold : Told sv ↔ Told (s.server n)) (h1 : 1 ≤ n) (hwire : s'.wire = s.wire) :
    Booting c s' := by
  refine h.keep hsame hbacklog hserver hnode hF hB htold.mpr (fun hn ht => ?_) fun f => ?_
  · exact h.told n h1 hn (htold.mp ht)
  · rw [hwire, h.wire f]
    simp only [told_congr hserver htold]

theorem booting_started (c : Cluster) (index : ℕ → XPeerConnection) :
    Booting c (c.started index) := by
  have hnot : ∀ n, ¬ Told ((c.started index).server n) := by
    intro n ht
    rcases ht with h | h | h <;> cases h
  refine ⟨rfl, fun _ => rfl, fun _ => rfl, fun _ => rfl, fun n _ _ => ?_, fun n _ _ hB => ?_,
    fun n _ _ => ?_, fun n _ _ ht => absurd ht (hnot n), fun f => ?_⟩
  · exact ⟨rfl, rfl, ⟨rfl, rfl⟩, fun hF => absurd hF Bool.false_ne_true,
      fun hB => absurd hB Bool.false_ne_true, .inl ⟨rfl, Bool.false_ne_true, Bool.false_ne_true⟩⟩
  · cases hB
  · rw [if_neg fun hF => Bool.false_ne_true hF.1]
    rfl
  · rw [if_neg fun hf => hnot f hf.2.2.2.1]
    rfl

/-! ## Before the ring is closed -/

theorem BootNode.booting (h : BootNode c n sv) (hs : sv.state = .booting) :
    ¬ sv.peerF.statusOpen ∧ ¬ sv.peerB.statusOpen := by
  rcases h.stage with ⟨-, hopen⟩ | ⟨hs', -⟩ | ⟨-, -, hs'⟩
  · exact hopen
  · exact absurd (hs.symm.trans hs') (by decide)
  · rw [hs, Connected] at hs'
    split_ifs at hs' <;> simp at hs'

theorem BootNode.connecting (h : BootNode c n sv) (hs : sv.state = .connecting) :
    ¬ (sv.peerF.statusOpen ∧ sv.peerB.statusOpen) := by
  rcases h.stage with ⟨hs', -⟩ | ⟨-, hopen⟩ | ⟨-, -, hs'⟩
  · exact absurd (hs.symm.trans hs') (by decide)
  · exact hopen
  · rw [hs, Connected] at hs'
    split_ifs at hs' <;> simp at hs'

theorem not_told_of_connecting (hs : sv.state = .booting ∨ sv.state = .connecting ∨
    sv.state = .beginOperation) : ¬ Told sv := by
  unfold Told
  rcases hs with hs | hs | hs <;> simp [hs]

theorem Booting.boot (h : Booting c s) (hstep : s.boot c n = some s') : Booting c s' := by
  obtain ⟨halive, hstate, rfl⟩ := boot_eq_some hstep
  have hn := h.node n halive.1 halive.2.1
  refine h.silent ⟨rfl, rfl, fun _ => id, rfl⟩ rfl rfl ⟨hn.me, hn.netSize, hn.peerF, hn.forward, hn.backward, ?_⟩
    rfl rfl ?_ halive.1 rfl
  · exact .inr (.inl ⟨rfl, fun hopen => (hn.booting hstate).1 hopen.1⟩)
  · exact iff_of_false (not_told_of_connecting (.inr (.inl rfl)))
      (not_told_of_connecting (.inl hstate))

/-- The listener hands out the predecessor's connection, once it is there. -/
theorem Booting.bootAccept (h : Booting c s) (h1 : 1 ≤ n) (hn : n ≤ c.N) : s.bootAccept n =
    if (s.server (c.prev n)).peerF.statusOpen ∧ ¬ (s.server n).peerB.statusOpen then some (c.prev n)
    else none := by
  unfold RingNet.bootAccept
  rw [h.backlog n h1 hn]
  by_cases hB : (s.server n).peerB.statusOpen
  · rw [if_pos hB, if_neg fun hb => hb.2 hB]
  · rw [if_neg hB]
    split_ifs <;> rfl

theorem Booting.bootDial (h : Booting c s) (h1 : 1 ≤ n) (hn : n ≤ c.N) :
    s.bootDial c n (s.server n).peerF.ip =
      if (s.server (n % c.N + 1)).state = .booting then none else some n := by
  unfold RingNet.bootDial
  rw [(h.node n h1 hn).peerF.2, c.nodeAt_addr (c.next_mem hn).1 (c.next_mem hn).2]
  rfl

theorem BootNode.connect (hn : BootNode c n sv) (hs : sv.state = .connecting) (accept : Option ℕ)
    (dial : Address → Option ℕ) (haccept : ∀ fd ∈ accept, fd = c.prev n)
    (hdial : ∀ fd ∈ dial sv.peerF.ip, fd = n) : BootNode c n (serverConnecting accept dial sv) ∧
      (serverConnecting accept dial sv).peerF = peerDialed dial sv.peerF ∧
      (serverConnecting accept dial sv).peerB = peerAfter accept sv.peerB ∧
      ¬ Told (serverConnecting accept dial sv) ∧
      (serverConnecting accept dial sv).index = sv.index := by
  have hF : (peerDialed dial sv.peerF).nodeId = sv.peerF.nodeId ∧
      (peerDialed dial sv.peerF).ip = sv.peerF.ip := by
    unfold peerDialed
    split_ifs
    · exact ⟨rfl, rfl⟩
    · split <;> exact ⟨rfl, rfl⟩
  have hforward : (peerDialed dial sv.peerF).statusOpen →
      (peerDialed dial sv.peerF).streamFd = some n := by
    unfold peerDialed
    split_ifs with hopen
    · exact hn.forward
    · cases hd : dial sv.peerF.ip with
      | none => exact fun h => absurd h hopen
      | some fd => exact fun _ => congrArg some (hdial fd hd)
  have hbackward : (peerAfter accept sv.peerB).statusOpen →
      (peerAfter accept sv.peerB).streamFd = some (c.prev n) := by
    unfold peerAfter
    split_ifs with hopen
    · exact hn.backward
    · cases ha : accept with
      | none => exact fun h => absurd h hopen
      | some fd => exact fun _ => congrArg some (haccept fd ha)
  have hlabel := hn.peerF
  rw [← hF.1, ← hF.2] at hlabel
  rw [serverConnecting_eq]
  split_ifs with hboth
  · exact ⟨⟨hn.me, hn.netSize, hlabel, hforward, hbackward, .inr (.inr ⟨hboth.1, hboth.2, .inl rfl⟩)⟩,
      rfl, rfl, not_told_of_connecting (.inr (.inr rfl)), rfl⟩
  · exact ⟨⟨hn.me, hn.netSize, hlabel, hforward, hbackward, .inr (.inl ⟨hs, hboth⟩)⟩, rfl, rfl,
      not_told_of_connecting (.inr (.inl hs)), rfl⟩

theorem arrive_eq (hm : c.nodeAt (s.server n).peerF.ip = some m) : s.arrive c n =
    { s with backlog := Function.update s.backlog m (s.backlog m ++ [n]) } := by
  rw [arrive, hm]

theorem bootConnect_eq_some (h : s.bootConnect c n = some s') :
    Alive c s n ∧ (s.server n).state = .connecting ∧ ∃ sv rest,
      sv = serverConnecting (s.bootAccept n) (s.bootDial c n) (s.server n) ∧ sv ≠ s.server n ∧
      rest = (if (s.bootAccept n).isSome then (s.backlog n).tail else s.backlog n) ∧
      s' = (if sv.peerF.statusOpen = (s.server n).peerF.statusOpen then
          setServer { s with backlog := Function.update s.backlog n rest } n sv
        else arrive c (setServer { s with backlog := Function.update s.backlog n rest } n sv) n) := by
  unfold bootConnect at h
  by_cases hc : Alive c s n ∧ (s.server n).state = .connecting
  · rw [if_pos hc] at h
    dsimp only at h
    split at h
    · cases h
    · exact ⟨hc.1, hc.2, _, _, rfl, ‹_›, rfl, (Option.some.inj h).symm⟩
  · rw [if_neg hc] at h
    cases h

/-- What a pass of `SERVER_CONNECTING` that changes node `n` makes of the ring. -/
structure Connects (c : Cluster) (s : RingNet) (n : ℕ) (sv : Server) (s' : RingNet) : Prop where
  node : BootNode c n sv
  server : s'.server = Function.update s.server n sv
  same : SameNet s s'
  wire : s'.wire = s.wire
  /-- a forward peer stays open -/
  forward : (s.server n).peerF.statusOpen → sv.peerF.statusOpen
  /-- the backward peer is open if it was, or if the predecessor had dialed -/
  backward : sv.peerB.statusOpen ↔
    (s.server n).peerB.statusOpen ∨ (s.server (c.prev n)).peerF.statusOpen
  backlog : s'.backlog = if sv.peerF.statusOpen = (s.server n).peerF.statusOpen then
      Function.update s.backlog n []
    else Function.update (Function.update s.backlog n []) (n % c.N + 1)
      (s.backlog (n % c.N + 1) ++ [n])

namespace Connects

theorem other (hc : Connects c s n sv s') (hm : m ≠ n) : s'.server m = s.server m := by
  rw [hc.server, Function.update_of_ne hm]

theorem self (hc : Connects c s n sv s') : s'.server n = sv := by
  rw [hc.server, Function.update_self]

theorem fresh (hc : Connects c s n sv s')
    (hchanged : sv.peerF.statusOpen ≠ (s.server n).peerF.statusOpen) :
    sv.peerF.statusOpen ∧ ¬ (s.server n).peerF.statusOpen := by
  have hold : ¬ (s.server n).peerF.statusOpen := fun ho =>
    hchanged ((hc.forward ho).trans ho.symm)
  refine ⟨?_, hold⟩
  rw [Bool.not_eq_true] at hold
  rwa [hold, ne_eq, Bool.not_eq_false] at hchanged

theorem dialed (hc : Connects c s n sv s') (h : Booting c s) (h1 : 1 ≤ m) (hm : m ≤ c.N)
    (hopen : (s'.server m).peerB.statusOpen) : (s'.server (c.prev m)).peerF.statusOpen := by
  have hold : (s.server (c.prev m)).peerF.statusOpen := by
    by_cases hmn : m = n
    · subst hmn
      rw [hc.self] at hopen
      exact (hc.backward.mp hopen).elim (h.dialed m h1 hm) id
    · rw [hc.other hmn] at hopen
      exact h.dialed m h1 hm hopen
  by_cases hp : c.prev m = n
  · rw [hp, hc.self]
    rw [hp] at hold
    exact hc.forward hold
  · rwa [hc.other hp]

theorem backlog_next (hc : Connects c s n sv s') (h : Booting c s) (h1 : 1 ≤ m)
    (hm : m ≤ c.N) (hprev : c.prev m = n) (hmn : m ≠ n) (hmnext : m = n % c.N + 1) : s'.backlog m =
      if sv.peerF.statusOpen ∧ ¬ (s.server m).peerB.statusOpen then [n] else [] := by
  have hback := h.backlog m h1 hm
  have hdialed := h.dialed m h1 hm
  rw [hprev] at hback hdialed
  rw [hc.backlog]
  split_ifs with hsamef hif hif
  · rw [Function.update_of_ne hmn, hback, if_pos (by rwa [← hsamef])]
  · rw [Function.update_of_ne hmn, hback, if_neg (by rwa [← hsamef])]
  · rw [← hmnext, Function.update_self, hback, if_neg fun hb => (hc.fresh hsamef).2 hb.1]
    rfl
  · exact absurd ⟨(hc.fresh hsamef).1, fun hBm => (hc.fresh hsamef).2 (hdialed hBm)⟩ hif

theorem backlog_eq (hc : Connects c s n sv s') (h : Booting c s) (h1 : 1 ≤ n) (hn : n ≤ c.N)
    (hm1 : 1 ≤ m) (hm : m ≤ c.N) : s'.backlog m =
      if (s'.server (c.prev m)).peerF.statusOpen ∧ ¬ (s'.server m).peerB.statusOpen then [c.prev m]
      else [] := by
  have hne := c.next_ne hn
  by_cases hmn : m = n
  · subst hmn
    rw [hc.other (c.prev_ne h1), hc.self, if_neg fun hb => hb.2 (hc.backward.mpr (.inr hb.1)),
      hc.backlog]
    split_ifs
    · rw [Function.update_self]
    · rw [Function.update_of_ne hne.symm, Function.update_self]
  · rw [hc.other hmn]
    by_cases hmnext : m = n % c.N + 1
    · have hprev : c.prev m = n := (c.prev_eq_iff h1 hn hm1 hm).mpr hmnext
      rw [hprev, hc.self]
      exact hc.backlog_next h hm1 hm hprev hmn hmnext
    · have hprev : c.prev m ≠ n := fun he => hmnext ((c.prev_eq_iff h1 hn hm1 hm).mp he)
      rw [hc.other hprev, ← h.backlog m hm1 hm, hc.backlog]
      split_ifs
      · rw [Function.update_of_ne hmn]
      · rw [Function.update_of_ne hmnext, Function.update_of_ne hmn]

end Connects

theorem Booting.connects (h : Booting c s) (hstep : s.bootConnect c n = some s') :
    ∃ sv, sv = serverConnecting (s.bootAccept n) (s.bootDial c n) (s.server n) ∧ sv ≠ s.server n ∧
      Connects c s n sv s' ∧ ¬ Told sv ∧ sv.index = (s.server n).index := by
  obtain ⟨⟨h1, hn, -⟩, hstate, sv, rest, hsv, hchanged, hrest, hs'⟩ := bootConnect_eq_some hstep
  have haccept := h.bootAccept h1 hn
  have hnext := c.next_mem hn
  obtain ⟨hnode, hF, hB, hnot, hindex⟩ := (h.node n h1 hn).connect hstate (s.bootAccept n)
    (s.bootDial c n)
    (fun fd hfd => by
      rw [haccept] at hfd
      split_ifs at hfd
      · exact (Option.some.inj hfd).symm
      · cases hfd)
    (fun fd hfd => by
      rw [h.bootDial h1 hn] at hfd
      split_ifs at hfd
      · cases hfd
      · exact (Option.some.inj hfd).symm)
  rw [← hsv] at hnode hF hB hnot hindex
  have hnil : rest = [] := by
    rw [hrest, haccept, h.backlog n h1 hn]
    by_cases hA : (s.server (c.prev n)).peerF.statusOpen ∧ ¬ (s.server n).peerB.statusOpen
    · simp only [if_pos hA]
      rfl
    · simp only [if_neg hA]
      rfl
  subst hnil
  -- the node it dials listens at the address of its forward peer
  rw [arrive_eq (m := n % c.N + 1)
    (by rw [setServer_server, Function.update_self, hnode.peerF.2, c.nodeAt_addr hnext.1 hnext.2])] at hs'
  refine ⟨sv, hsv, hchanged, ⟨hnode, ?_, ?_, ?_, fun hopen => ?_, ?_, ?_⟩, hnot, hindex⟩
  · rw [hs']
    split_ifs <;> rfl
  · rw [hs']
    split_ifs <;> exact ⟨rfl, rfl, fun _ => id, rfl⟩
  · rw [hs']
    split_ifs <;> rfl
  · rwa [hF, peerDialed, if_pos hopen]
  · rw [hB, peerAfter_open, haccept]
    split_ifs with hA
    · exact iff_of_true (.inr rfl) (.inr hA.1)
    · simp only [Option.isSome_none, Bool.false_eq_true, or_false]
      refine ⟨.inl, fun ho => ?_⟩
      by_contra hBn
      exact hA ⟨ho.resolve_left hBn, hBn⟩
  · rw [hs']
    split_ifs
    · rfl
    · simp [Function.update_of_ne (c.next_ne hn)]

/-- A pass of `SERVER_CONNECTING` closes one of the two connections of the node, or both. -/
theorem Booting.connect (h : Booting c s) (hstep : s.bootConnect c n = some s') :
    Booting c s' ∧ ∃ sv, sv = serverConnecting (s.bootAccept n) (s.bootDial c n) (s.server n) ∧
      sv ≠ s.server n ∧ s'.server = Function.update s.server n sv ∧
      (Told sv ↔ Told (s.server n)) ∧ sv.index = (s.server n).index := by
  obtain ⟨⟨h1, hn, -⟩, hstate, -⟩ := bootConnect_eq_some hstep
  obtain ⟨sv, hsv, hchanged, hc, hnot, hindex⟩ := h.connects hstep
  have hconn : ¬ Told (s.server n) := not_told_of_connecting (.inr (.inl hstate))
  refine ⟨h.update hc.same hc.server hc.node (fun m hm1 hm hopen => hc.dialed h hm1 hm hopen)
    (fun m hm1 hm => hc.backlog_eq h h1 hn hm1 hm) (fun ht => absurd ht hconn)
    (fun _ ht => absurd ht hnot) (fun f => ?_),
    sv, hsv, hchanged, hc.server, iff_of_false hnot hconn, hindex⟩
  rw [hc.wire, h.wire f]
  simp only [told_congr hc.server (iff_of_false hnot hconn)]

end RingNet

end DSS
