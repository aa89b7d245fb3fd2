import DistStore.Proofs.Membership

/-! One death: the notice goes once around the ring, and the predecessor of the dead
node closes it again. Survivors are counted from the successor of the dead node `d`:
`pos c d 0` finds it dead, `pos c d (N - 2)` is its predecessor. -/

namespace DSS

/-- The node `j + 1` places after `d` on the ring. -/
def Cluster.pos (c : Cluster) (d j : ℕ) : ℕ :=
  if d + j < c.N then d + j + 1 else d + j + 1 - c.N

namespace Cluster

variable {c : Cluster} {d : ℕ}

theorem succ_eq {n : ℕ} (hn : n ≤ c.N) : n % c.N + 1 = if n = c.N then 1 else n + 1 := by
  split_ifs with h
  · rw [h, Nat.mod_self]
  · rw [Nat.mod_eq_of_lt (by omega)]

theorem one_le_pos (d j : ℕ) : 1 ≤ c.pos d j := by
  rw [pos]
  split_ifs <;> omega

theorem pos_le (hdN : d ≤ c.N) {j : ℕ} (hj : j < c.N) : c.pos d j ≤ c.N := by
  rw [pos]
  split_ifs <;> omega

theorem pos_inj {i j : ℕ} (hi : i < c.N) (hj : j < c.N) (h : c.pos d i = c.pos d j) : i = j := by
  rw [pos, pos] at h
  split_ifs at h <;> omega

theorem pos_last (hd : 1 ≤ d) : c.pos d (c.N - 1) = d := by
  have := c.two_le
  rw [pos]
  split_ifs <;> omega

theorem pos_ne (hd : 1 ≤ d) {j : ℕ} (hj : j < c.N - 1) : c.pos d j ≠ d := fun h => by
  have hsame := pos_inj (show j < c.N by omega) (show c.N - 1 < c.N by omega)
    (h.trans (pos_last hd).symm)
  omega

theorem pos_succ (hdN : d ≤ c.N) {j : ℕ} (hj : j + 1 < c.N) :
    c.pos d j % c.N + 1 = c.pos d (j + 1) := by
  rw [succ_eq (pos_le hdN (by omega)), pos, pos]
  split_ifs <;> omega

theorem backwardId_pos (hdN : d ≤ c.N) {j : ℕ} (hj : j + 1 < c.N) :
    backwardId (c.pos d (j + 1)) c.N = c.pos d j := by
  rw [c.backwardId_eq_if (one_le_pos d _) (pos_le hdN hj), pos, pos]
  split_ifs <;> omega

theorem backwardId_pos_zero (hd : 1 ≤ d) (hdN : d ≤ c.N) : backwardId (c.pos d 0) c.N = d := by
  rw [c.backwardId_eq_if (one_le_pos d 0) (pos_le hdN (by omega)), pos]
  split_ifs <;> omega

theorem exists_pos (hd : 1 ≤ d) (hdN : d ≤ c.N) {n : ℕ} (h1 : 1 ≤ n) (hn : n ≤ c.N) (hne : n ≠ d) :
    ∃ j < c.N - 1, n = c.pos d j := by
  by_cases hlt : d < n
  · exact ⟨n - d - 1, by omega, by rw [pos, if_pos (by omega)]; omega⟩
  · exact ⟨n + c.N - d - 1, by omega, by rw [pos, if_neg (by omega)]; omega⟩

/-- The notice of the death of `d`, as node `sender` writes it. -/
def notice (c : Cluster) (d sender : ℕ) : XPacket :=
  commPacket SIZEOF_COMM sender TYPE_PEER_DIED (XPeerDied.bytes ⟨d, c.addr (c.pos d 0)⟩) SIZEOF_COMM

theorem commType_notice (sender : ℕ) : commType (c.notice d sender) = TYPE_PEER_DIED := by
  rw [notice, commType_commPacket]
  rfl

theorem content_notice (hdN : d ≤ c.N) (sender : ℕ) :
    XPeerDied.ofContent (content (c.notice d sender)) = ⟨d, c.addr (c.pos d 0)⟩ := by
  have hN := c.N_lt
  rw [notice, content_commPacket, XPeerDied.ofContent_bytes,
    u64_of_lt (show d < 2 ^ 64 by omega)]

theorem setCommSender_notice (n sender : ℕ) :
    setCommSender n (c.notice d sender) = c.notice d n := setCommSender_commPacket ..

end Cluster

/-! ## What a node does with the notice -/

theorem peerDiedIndex_frame (sv : Server) (d : ℕ) :
    (peerDiedIndex sv d).me = sv.me ∧ (peerDiedIndex sv d).peerF = sv.peerF ∧
      (peerDiedIndex sv d).peerB = sv.peerB ∧ (peerDiedIndex sv d).netSize = sv.netSize ∧
      (peerDiedIndex sv d).deathCount = sv.deathCount ∧
      (peerDiedIndex sv d).index = sv.index ∧
      (peerDiedIndex sv d).state =
        if serverIsIndex sv = false ∧ d = sv.index.nodeId then .beginOperation else sv.state := by
  rw [peerDiedIndex]
  split_ifs with h1 h2 h2
  all_goals simp_all [serverSetState]

/-- A node whose forward peer lives counts the death and passes the notice on. -/
theorem xprocedureCheckPeerB_forward {c : Cluster} {d : ℕ} (hdN : d ≤ c.N)
    (dial : Address → Option ℕ) {sv : Server} (sender : ℕ) (hne : sv.peerF.nodeId ≠ d) :
    xprocedureCheckPeerB dial sv (c.notice d sender) =
      some ⟨peerDiedIndex { sv with netSize := dec64 sv.netSize, deathCount := inc64 sv.deathCount } d,
        some (c.notice d sv.me.nodeId)⟩ := by
  simp only [xprocedureCheckPeerB, c.commType_notice, if_true, peerDiedNeighbour,
    Cluster.content_notice hdN, hne, if_false, xprocedurePeerDiedForward, c.setCommSender_notice,
    Option.bind_eq_bind, Option.bind_some]
  rfl

/-- The predecessor of the dead node dials the widow instead. -/
theorem xprocedureCheckPeerB_redial {c : Cluster} {d : ℕ} (hdN : d ≤ c.N)
    {dial : Address → Option ℕ} {sv : Server} (sender : ℕ) (hpeer : sv.peerF.nodeId = d)
    (hnet : dec64 sv.netSize ≠ 0) {fd : ℕ} (hdial : dial (c.addr (c.pos d 0)) = some fd) :
    xprocedureCheckPeerB dial sv (c.notice d sender) =
      some ⟨peerDiedIndex { sv with
        netSize := dec64 sv.netSize
        deathCount := inc64 sv.deathCount
        peerF := ⟨u64 (sv.me.nodeId + 1) % dec64 sv.netSize, c.addr (c.pos d 0), some fd, true⟩ } d,
        none⟩ := by
  simp only [xprocedureCheckPeerB, c.commType_notice, if_true, peerDiedNeighbour,
    Cluster.content_notice hdN, hpeer, hnet, if_false, serverDialPeer, hdial,
    Option.bind_eq_bind, Option.bind_some]
  rfl

/-! ## The ring while the notice goes around -/

namespace RingNet

/-- Node `pos c d j` after `k` steps of the notice: the successor of `d` has found it
dead (`1 ≤ k`), the nodes up to `k - 1` have processed the notice, and at `k = N` the
successor has its new predecessor. -/
structure NodeAt (c : Cluster) (d k j : ℕ) (sv : Server) : Prop where
  me : sv.me = ⟨c.addr (c.pos d j), c.pos d j⟩
  peerF : if j = c.N - 2 ∧ c.N - 1 ≤ k then
      sv.peerF.streamFd = some (c.N + 1) ∧ sv.peerF.ip = c.addr (c.pos d 0)
    else sv.peerF.streamFd = some (c.pos d j) ∧ sv.peerF.ip = c.addr (c.pos d (j + 1)) ∧
      sv.peerF.nodeId = c.pos d (j + 1)
  label : sv.peerB.nodeId = backwardId (c.pos d j) c.N
  statusOpen : sv.peerB.statusOpen = !decide (j = 0 ∧ 1 ≤ k ∧ k < c.N)
  streamFd : sv.peerB.streamFd =
    some (if j = 0 then if k = c.N then c.N + 1 else d else c.pos d (j - 1))
  netSize : sv.netSize = if j < k then if j = 0 then c.N - 2 else c.N - 1 else c.N
  deathCount : sv.deathCount = if j < k then 1 else 0

/-- `sv'` differs from `sv` in nothing the notice depends on. -/
structure SameRing (sv sv' : Server) : Prop where
  me : sv'.me = sv.me
  peerF : sv'.peerF = sv.peerF
  peerB : sv'.peerB = sv.peerB
  netSize : sv'.netSize = sv.netSize
  deathCount : sv'.deathCount = sv.deathCount

theorem SameRing.refl (sv : Server) : SameRing sv sv := ⟨rfl, rfl, rfl, rfl, rfl⟩

variable {c : Cluster} {d k j n : ℕ} {sv sv' : Server} {s s' : RingNet}

theorem NodeAt.frame (h : NodeAt c d k j sv) (hs : SameRing sv sv') : NodeAt c d k j sv' := by
  obtain ⟨h1, h2, h3, h4, h5, h6, h7⟩ := h
  rw [← hs.me] at h1
  rw [← hs.peerF] at h2
  rw [← hs.peerB] at h3 h4 h5
  rw [← hs.netSize] at h6
  rw [← hs.deathCount] at h7
  exact ⟨h1, h2, h3, h4, h5, h6, h7⟩

theorem NodeAt.stage (h : NodeAt c d k j sv) {k' : ℕ} (hlt : j < k' ↔ j < k)
    (hlast : j = c.N - 2 → (c.N - 1 ≤ k' ↔ c.N - 1 ≤ k))
    (hfirst : j = 0 → (1 ≤ k' ∧ k' < c.N ↔ 1 ≤ k ∧ k < c.N) ∧ (k' = c.N ↔ k = c.N)) :
    NodeAt c d k' j sv := by
  obtain ⟨h1, h2, h3, h4, h5, h6, h7⟩ := h
  have hl : (j = c.N - 2 ∧ c.N - 1 ≤ k') ↔ (j = c.N - 2 ∧ c.N - 1 ≤ k) := and_congr_right hlast
  have ho : (j = 0 ∧ 1 ≤ k' ∧ k' < c.N) ↔ (j = 0 ∧ 1 ≤ k ∧ k < c.N) :=
    and_congr_right fun h0 => (hfirst h0).1
  refine ⟨h1, ?_, h3, ?_, ?_, ?_, ?_⟩
  · simpa only [hl] using h2
  · simpa only [ho] using h4
  · rw [h5]
    by_cases h0 : j = 0
    · simp only [h0, if_true, (hfirst h0).2]
    · simp only [h0, if_false]
  · simpa only [hlt] using h6
  · simpa only [hlt] using h7

/-- The node that takes the notice, in the ring after one more step. -/
theorem NodeAt.take (h : NodeAt c d k k sv) (h1 : 1 ≤ k) (hk : k + 2 ≤ c.N) (hd : 1 ≤ d)
    (hdN : d ≤ c.N) {dial : Address → Option ℕ} (hdial : dial (c.addr (c.pos d 0)) = some (c.N + 1))
    {sender : ℕ} {r : Handled}
    (hr : xprocedureCheckPeerB dial sv (c.notice d sender) = some r) :
    NodeAt c d (k + 1) k r.sv ∧
      r.sent = (if k + 2 = c.N then none else some (c.notice d (c.pos d k))) ∧
      r.sv.index = sv.index ∧
      r.sv.state = if serverIsIndex sv = false ∧ d = sv.index.nodeId then .beginOperation
        else sv.state := by
  have hN := c.N_lt
  obtain ⟨hme, hpeer, hlabel, hopen, hstream, hnet, hdeath⟩ := h
  rw [if_neg (by omega)] at hpeer hnet hdeath
  have hid : sv.me.nodeId = c.pos d k := by rw [hme]
  have hdec : dec64 sv.netSize = c.N - 1 := by rw [hnet, dec64_of_pos (by omega) (by omega)]
  have hinc : inc64 sv.deathCount = 1 := by rw [hdeath]; rfl
  have hopen' : sv.peerB.statusOpen = !decide (k = 0 ∧ 1 ≤ k + 1 ∧ k + 1 < c.N) := by
    rw [hopen, decide_eq_false (by omega), decide_eq_false (by omega)]
  have hstream' : sv.peerB.streamFd =
      some (if k = 0 then if k + 1 = c.N then c.N + 1 else d else c.pos d (k - 1)) := by
    rw [hstream, if_neg (by omega), if_neg (by omega)]
  by_cases hlast : k + 2 = c.N
  · have hdead : sv.peerF.nodeId = d := by rw [hpeer.2.2, show k + 1 = c.N - 1 by omega, c.pos_last hd]
    rw [xprocedureCheckPeerB_redial hdN _ hdead (by omega) hdial, hdec, hinc] at hr
    obtain rfl := Option.some.inj hr
    obtain ⟨fme, fF, fB, fnet, fdeath, findex, fstate⟩ := peerDiedIndex_frame { sv with
      netSize := c.N - 1
      deathCount := 1
      peerF := ⟨u64 (sv.me.nodeId + 1) % (c.N - 1), c.addr (c.pos d 0), some (c.N + 1), true⟩ } d
    refine ⟨⟨fme.trans hme, ?_, ?_, ?_, ?_, ?_, ?_⟩, (if_pos hlast).symm, findex, fstate⟩
    · rw [if_pos (by omega), fF]
      exact ⟨rfl, rfl⟩
    · rw [fB, hlabel]
    · rw [fB, hopen']
    · rw [fB, hstream']
    · rw [fnet, if_pos (by omega), if_neg (by omega)]
    · rw [fdeath, if_pos (by omega)]
  · have hne : sv.peerF.nodeId ≠ d := by
      rw [hpeer.2.2]
      exact c.pos_ne hd (by omega)
    rw [xprocedureCheckPeerB_forward hdN _ _ hne, hdec, hinc, hid] at hr
    obtain rfl := Option.some.inj hr
    obtain ⟨fme, fF, fB, fnet, fdeath, findex, fstate⟩ := peerDiedIndex_frame { sv with
      netSize := c.N - 1
      deathCount := 1 } d
    refine ⟨⟨fme.trans hme, ?_, ?_, ?_, ?_, ?_, ?_⟩, (if_neg hlast).symm, findex, fstate⟩
    · rw [if_neg (by omega), fF]
      exact hpeer
    · rw [fB, hlabel]
    · rw [fB, hopen']
    · rw [fB, hstream']
    · rw [fnet, if_pos (by omega), if_neg (by omega)]
    · rw [fdeath, if_pos (by omega)]

/-- What `k` steps of the notice have made of the survivors and their streams. -/
structure Spread (c : Cluster) (d k : ℕ) (s : RingNet) : Prop where
  le : k ≤ c.N
  deaths : s.deaths = [d]
  nextFd : s.nextFd = if c.N - 1 ≤ k then c.N + 2 else c.N + 1
  dialer : ∀ f ≤ c.N, s.dialer f = f
  listener : ∀ j < c.N - 1, s.listener (c.pos d j) = c.pos d (j + 1)
  redial : c.N - 1 ≤ k →
    s.dialer (c.N + 1) = c.pos d (c.N - 2) ∧ s.listener (c.N + 1) = c.pos d 0
  node : ∀ j < c.N - 1, NodeAt c d k j (s.server (c.pos d j))
  once : ∀ j, 1 ≤ j → j < k → j < c.N - 1 → s.trace.count (.processed (c.pos d j) d) = 1
  only : ∀ n x, .processed n x ∈ s.trace →
    x = d ∧ ∃ j, 1 ≤ j ∧ j < k ∧ j < c.N - 1 ∧ n = c.pos d j
  wrote : ∀ n, RingEvent.wrote n d ∉ s.trace

/-- The part of the ring the notice depends on, after `k` steps of it: the connection that
closes the ring waits for the successor of `d`. -/
structure Base (c : Cluster) (d k : ℕ) (s : RingNet) : Prop extends Spread c d k s where
  admitted : ∀ n, s.admitted n = none
  backlog : ∀ n, s.backlog n = if k = c.N - 1 ∧ n = c.pos d 0 then [c.N + 1] else []
  serving : 1 ≤ k → k < c.N → s.serving (c.pos d 0) = true

theorem Spread.alive_iff (hb : Spread c d k s) (hd : 1 ≤ d) (hdN : d ≤ c.N) :
    Alive c s n ↔ ∃ j < c.N - 1, n = c.pos d j := by
  rw [Alive, hb.deaths, List.mem_singleton]
  constructor
  · rintro ⟨h1, hn, hne⟩
    exact c.exists_pos hd hdN h1 hn hne
  · rintro ⟨j, hj, rfl⟩
    exact ⟨c.one_le_pos d j, c.pos_le hdN (by omega), c.pos_ne hd hj⟩

/-- Only the successor of `d` can find its predecessor dead, and only once. -/
theorem Spread.eof (hb : Spread c d k s) (hd : 1 ≤ d) (hdN : d ≤ c.N) {f : ℕ} (hj : j < c.N - 1)
    (hf : s.peerB (c.pos d j) = some f) (heof : s.Eof f) : j = 0 ∧ k = 0 := by
  have hnode := hb.node j hj
  have hle := hb.le
  have hdead : s.dialer f = d := by
    have := heof.2
    rwa [hb.deaths, List.mem_singleton] at this
  rw [peerB, hnode.statusOpen, hnode.streamFd] at hf
  split_ifs at hf with hopen h0 hk
  · -- after it was closed again
    obtain rfl := Option.some.inj hf
    rw [(hb.redial (by omega)).1] at hdead
    exact absurd hdead (c.pos_ne hd (by omega))
  · simp only [Bool.not_eq_true', decide_eq_false_iff_not] at hopen
    exact ⟨h0, by omega⟩
  · obtain rfl := Option.some.inj hf
    rw [hb.dialer _ (c.pos_le hdN (by omega))] at hdead
    exact absurd hdead (c.pos_ne hd (by omega))

theorem Spread.reader (hb : Spread c d k s) (hd : 1 ≤ d) (hdN : d ≤ c.N) {i : ℕ} (hj : j < c.N - 1)
    (hi : i < c.N - 1) (hf : (s.server (c.pos d j)).peerB.streamFd = some (c.pos d i)) :
    j = i + 1 := by
  have hle := c.pos_le hdN (show i < c.N by omega)
  rw [(hb.node j hj).streamFd, Option.some.injEq] at hf
  split_ifs at hf with h0 hk
  · omega
  · exact absurd hf.symm (c.pos_ne hd hi)
  · have := c.pos_inj (by omega) (by omega) hf
    omega

/-- A step that leaves the ring alone. -/
theorem Spread.frame (hb : Spread c d k s) (hdeaths : s'.deaths = s.deaths)
    (hnext : s'.nextFd = s.nextFd) (hdialer : s'.dialer = s.dialer)
    (hlistener : s'.listener = s.listener) (hserver : ∀ n, SameRing (s.server n) (s'.server n))
    {es : List RingEvent} (htrace : s'.trace = s.trace ++ es)
    (hes : ∀ e ∈ es, (∀ n x, e ≠ .processed n x) ∧ ∀ n, e ≠ .wrote n d) : Spread c d k s' where
  le := hb.le
  deaths := hdeaths.trans hb.deaths
  nextFd := hnext.trans hb.nextFd
  dialer := by rw [hdialer]; exact hb.dialer
  listener := by rw [hlistener]; exact hb.listener
  redial := by rw [hdialer, hlistener]; exact hb.redial
  node j hj := (hb.node j hj).frame (hserver _)
  once j h1 hk hj := by
    rw [htrace, List.count_append, hb.once j h1 hk hj, List.count_eq_zero.mpr]
    exact fun h => (hes _ h).1 _ _ rfl
  only n x h := by
    rw [htrace, List.mem_append] at h
    rcases h with h | h
    · exact hb.only n x h
    · exact absurd rfl ((hes _ h).1 n x)
  wrote n h := by
    rw [htrace, List.mem_append] at h
    rcases h with h | h
    · exact hb.wrote n h
    · exact (hes _ h).2 n rfl

/-- A step that takes no connection either. -/
theorem Base.keep (hb : Base c d k s) (hspread : Spread c d k s') (hadmitted : s'.admitted = s.admitted)
    (hbacklog : s'.backlog = s.backlog)
    (hserving : k < c.N → s'.serving (c.pos d 0) = s.serving (c.pos d 0)) : Base c d k s' where
  toSpread := hspread
  admitted := by rw [hadmitted]; exact hb.admitted
  backlog := by rw [hbacklog]; exact hb.backlog
  serving h1 hk := (hserving hk).trans (hb.serving h1 hk)

/-! ## The three steps of the notice -/

/-- What a step of the notice leaves alone. -/
structure NoticeStep (c : Cluster) (d k j : ℕ) (s s' : RingNet) : Prop where
  base : Base c d k s'
  server : s'.server = Function.update s.server (c.pos d j) (s'.server (c.pos d j))
  serving : ∀ m, m ≠ c.pos d j → s'.serving m = s.serving m
  index : (s'.server (c.pos d j)).index = (s.server (c.pos d j)).index
  leads : ∀ m, s'.trace.count (.leads m) = s.trace.count (.leads m)
  follows : ∀ m, s'.trace.count (.follows m) = s.trace.count (.follows m)

def carrying (c : Cluster) (d k f : ℕ) : List XPacket :=
  if 1 ≤ k ∧ k + 2 ≤ c.N ∧ f = c.pos d (k - 1) then [c.notice d f] else []

theorem carrying_none (hk : k = 0 ∨ c.N < k + 2) : carrying c d k = fun _ => [] := by
  funext f
  exact if_neg (by omega)

theorem carrying_head (h1 : 1 ≤ k) (hk : k + 2 ≤ c.N) :
    carrying c d k (c.pos d (k - 1)) = [c.notice d (c.pos d (k - 1))] := if_pos ⟨h1, hk, rfl⟩

/-- The notice moves on to the stream of node `pos c d k`. -/
theorem carrying_succ (h1 : 1 ≤ k) (hk : k + 2 < c.N) :
    Function.update (Function.update (carrying c d k) (c.pos d (k - 1)) []) (c.pos d k)
      [c.notice d (c.pos d k)] = carrying c d (k + 1) := by
  funext f
  by_cases hf : f = c.pos d k
  · subst hf
    rw [Function.update_self, carrying, if_pos ⟨by omega, by omega, rfl⟩]
  · rw [Function.update_of_ne hf, carrying, if_neg (fun h => hf h.2.2)]
    by_cases hf' : f = c.pos d (k - 1)
    · rw [hf', Function.update_self]
    · rw [Function.update_of_ne hf', carrying, if_neg (fun h => hf' h.2.2)]

theorem carrying_end :
    Function.update (carrying c d k) (c.pos d (k - 1)) [] = fun _ => [] := by
  funext f
  by_cases hf : f = c.pos d (k - 1)
  · rw [hf, Function.update_self]
  · rw [Function.update_of_ne hf, carrying, if_neg (fun h => hf h.2.2)]

/-- The successor of `d` finds it dead and writes the notice. -/
theorem Base.health (hb : Base c d k s) (h3 : 3 ≤ c.N) (hd : 1 ≤ d) (hdN : d ≤ c.N)
    (hw : k + 2 ≤ c.N → s.wire = carrying c d k) (hstep : s.step c (.health n) = some s') :
    n = c.pos d 0 ∧ k = 0 ∧ NoticeStep c d 1 0 s s' ∧ s'.wire = carrying c d 1 ∧
      (s'.server (c.pos d 0)).state = .waitingNewPeer := by
  obtain ⟨hidle, f, hf, heof, rfl⟩ := step_health hstep
  obtain ⟨j, hj, rfl⟩ := (hb.alive_iff hd hdN).mp hidle.1
  obtain ⟨rfl, rfl⟩ := hb.eof hd hdN hj hf heof
  have hN := c.N_lt
  have hnode := hb.node 0 hj
  have hpeer := hnode.peerF
  rw [if_neg (by omega)] at hpeer
  have hsent : (serverHealthcheckDead (s.server (c.pos d 0))).sent =
      some (c.notice d (c.pos d 0)) := by
    rw [serverHealthcheckDead_eq, hnode.label, c.backwardId_pos_zero hd hdN, xpacketPeerDead,
      setCommSender_commPacket, hnode.me]
    rfl
  have hF : (serverHealthcheckDead (s.server (c.pos d 0))).sv.peerF =
      (s.server (c.pos d 0)).peerF := by rw [serverHealthcheckDead_eq]
  rw [hsent, writeOpt_some]
  rw [write_eq (s := (s.setServing (c.pos d 0) true).setServer (c.pos d 0)
      (serverHealthcheckDead (s.server (c.pos d 0))).sv) (n := c.pos d 0) (f := c.pos d 0) (by simp [hF, hpeer.1]) (c.notice d (c.pos d 0))]
  have hdec : dec64 (dec64 c.N) = c.N - 2 := by
    rw [dec64_of_pos (x := c.N) (by omega) (by omega), dec64_of_pos (by omega) (by omega)]
    omega
  refine ⟨rfl, rfl, ⟨⟨⟨by omega, hb.deaths, ?_, hb.dialer, hb.listener, fun h => by omega,
    fun i hi => ?_, fun i h1 hi => by omega, fun m x hm => ?_, fun m hm => ?_⟩, hb.admitted,
    fun m => ?_, fun _ _ => Function.update_self ..⟩, ?_, fun m hm => by simp [hm], ?_, fun m => by simp,
    fun m => by simp⟩, ?_, ?_⟩
  · rw [if_neg (by omega)]
    exact hb.nextFd.trans (if_neg (by omega))
  · by_cases hi0 : i = 0
    · subst hi0
      simp only [setServer_server, Function.update_self, serverHealthcheckDead_eq]
      refine ⟨hnode.me, ?_, hnode.label, ?_, ?_, ?_, ?_⟩
      · rw [if_neg (by omega)]
        exact hpeer
      · simp only [true_and]
        exact (decide_eq_true (show 1 ≤ 1 ∧ 1 < c.N by omega) ▸ rfl)
      · rw [if_pos rfl, if_neg (show ¬ 1 = c.N by omega)]
        exact hnode.streamFd.trans (by rw [if_pos rfl, if_neg (show ¬ 0 = c.N by omega)])
      · rw [if_pos (show 0 < 1 by omega), if_pos rfl, hnode.netSize, if_neg (lt_irrefl 0)]
        exact hdec
      · rw [if_pos (show 0 < 1 by omega), hnode.deathCount, if_neg (lt_irrefl 0)]
        rfl
    · have hne : c.pos d i ≠ c.pos d 0 := fun h => hi0 (c.pos_inj (by omega) (by omega) h)
      simp only [setServer_server, Function.update_of_ne hne]
      exact (hb.node i hi).stage (by omega) (by omega) (by omega)
  · simp only [setServer_trace, setServing_trace, List.mem_append, List.mem_singleton, reduceCtorEq,
      or_false] at hm
    obtain ⟨-, i, h1, hi, -⟩ := hb.only m x hm
    omega
  · simp only [setServer_trace, setServing_trace, List.mem_append, List.mem_singleton, setServer_listener,
      setServing_listener] at hm
    rcases hm with hm | hm
    · exact hb.wrote m hm
    · rw [RingEvent.wrote.injEq, hb.listener 0 hj] at hm
      exact c.pos_ne hd (by omega) hm.2.symm
  · rw [if_neg (by omega)]
    exact (hb.backlog m).trans (if_neg (by omega))
  · simp
  · simp [serverHealthcheckDead_eq]
  · funext f
    simp only [setServer_wire, setServing_wire, hw (by omega),
      carrying_none (c := c) (d := d) (k := 0) (.inl rfl)]
    by_cases hf : f = c.pos d 0
    · rw [hf, Function.update_self, carrying_head (le_refl 1) (by omega)]
      rfl
    · rw [Function.update_of_ne hf, carrying, if_neg fun h => hf h.2.2]
  · simp [serverHealthcheckDead_eq]

/-- The ring after node `pos c d k` took the notice, its connections aside. -/
theorem Base.advance (hb : Base c d k s) (h1 : 1 ≤ k) (hk : k + 2 ≤ c.N) (hd : 1 ≤ d) (hdN : d ≤ c.N)
    (hserver : s'.server = Function.update s.server (c.pos d k) sv) (hnode : NodeAt c d (k + 1) k sv)
    (hdeaths : s'.deaths = s.deaths) (hadmitted : s'.admitted = s.admitted)
    (hserving : s'.serving = Function.update s.serving (c.pos d k) true)
    (hdialer : ∀ f ≤ c.N, s'.dialer f = s.dialer f)
    (hlistener : ∀ f ≤ c.N, s'.listener f = s.listener f)
    (hnext : s'.nextFd = if k + 2 = c.N then c.N + 2 else c.N + 1)
    (hredial : k + 2 = c.N →
      s'.dialer (c.N + 1) = c.pos d (c.N - 2) ∧ s'.listener (c.N + 1) = c.pos d 0)
    (hbacklog : ∀ n, s'.backlog n = if k + 2 = c.N ∧ n = c.pos d 0 then [c.N + 1] else [])
    {es : List RingEvent} (htrace : s'.trace = s.trace ++ .processed (c.pos d k) d :: es)
    (hes : ∀ e ∈ es, e = .wrote (c.pos d k) (c.pos d (k + 1)) ∧ k + 2 < c.N) :
    Base c d (k + 1) s' where
  le := by omega
  deaths := hdeaths.trans hb.deaths
  nextFd := by
    rw [hnext]
    split_ifs <;> omega
  dialer f hf := (hdialer f hf).trans (hb.dialer f hf)
  listener j hj := by
    rw [hlistener _ (c.pos_le hdN (by omega))]
    exact hb.listener j hj
  redial h := hredial (by omega)
  admitted n := by rw [hadmitted]; exact hb.admitted n
  serving _ hlt := by
    rw [hserving, Function.update_of_ne fun he => absurd (c.pos_inj (by omega) (by omega) he) (by omega)]
    exact hb.serving h1 (by omega)
  backlog n := by
    rw [hbacklog]
    simp only [show k + 1 = c.N - 1 ↔ k + 2 = c.N by omega]
  node j hj := by
    by_cases hjk : j = k
    · subst hjk
      rw [hserver, Function.update_self]
      exact hnode
    · have hne : c.pos d j ≠ c.pos d k := fun h => hjk (c.pos_inj (by omega) (by omega) h)
      rw [hserver, Function.update_of_ne hne]
      exact (hb.node j hj).stage (by omega) (by omega) (by omega)
  once j h1 hjk hj := by
    have hwrote : RingEvent.processed (c.pos d j) d ∉ es := fun h => by
      simpa using (hes _ h).1
    rw [htrace, List.count_append, List.count_cons, List.count_eq_zero.mpr hwrote]
    by_cases hjk' : j = k
    · subst hjk'
      rw [List.count_eq_zero.mpr fun h => ?_]
      · simp
      · obtain ⟨-, i, -, hi, -, he⟩ := hb.only _ _ h
        exact absurd (c.pos_inj (by omega) (by omega) he) (by omega)
    · have hne : c.pos d k ≠ c.pos d j := fun h => hjk' (c.pos_inj (by omega) (by omega) h).symm
      rw [hb.once j h1 (by omega) hj]
      simp [hne]
  only n x h := by
    rw [htrace, List.mem_append, List.mem_cons] at h
    rcases h with h | h | h
    · obtain ⟨hx, i, hi, hik, h⟩ := hb.only n x h
      exact ⟨hx, i, hi, by omega, h⟩
    · obtain ⟨rfl, rfl⟩ := RingEvent.processed.inj h
      exact ⟨rfl, k, h1, by omega, by omega, rfl⟩
    · exact absurd (hes _ h).1 (by simp)
  wrote n h := by
    rw [htrace, List.mem_append, List.mem_cons] at h
    rcases h with h | h | h
    · exact hb.wrote n h
    · simp at h
    · obtain ⟨he, hlt⟩ := hes _ h
      exact c.pos_ne hd (by omega) (RingEvent.wrote.inj he).2.symm

/-- The node that has the notice takes it, and passes it on or closes the ring. -/
theorem Base.pass (hb : Base c d k s) (h1 : 1 ≤ k) (hk : k + 2 ≤ c.N) (hd : 1 ≤ d) (hdN : d ≤ c.N)
    (hw : s.wire = carrying c d k) {r : Handled}
    (hr : xprocedureCheckPeerB (s.dial c) (s.server (c.pos d k)) (c.notice d (c.pos d (k - 1))) =
      some r)
    (hs' : s' = ((((s.read (c.pos d k) (c.pos d (k - 1)) (c.notice d (c.pos d (k - 1))) []).setServing
      (c.pos d k) true).setServer (c.pos d k) r.sv).writeOpt (c.pos d k) r.sent).connect c (c.pos d k)) :
    NoticeStep c d (k + 1) k s s' ∧ s'.wire = carrying c d (k + 1) ∧
      (s'.server (c.pos d k)).state =
        if serverIsIndex (s.server (c.pos d k)) = false ∧ d = (s.server (c.pos d k)).index.nodeId
          then .beginOperation else (s.server (c.pos d k)).state := by
  have hat := c.nodeAt_addr (c.one_le_pos d 0) (c.pos_le hdN (show 0 < c.N by omega))
  have hdial : s.dial c (c.addr (c.pos d 0)) = some (c.N + 1) := by
    rw [dial, hat, hb.deaths, hb.nextFd]
    simp only [Option.bind_some, List.mem_singleton, c.pos_ne hd (show 0 < c.N - 1 by omega),
      if_false]
    rw [if_neg (by omega)]
  obtain ⟨hnode, hsent, hindex, hstate⟩ := (hb.node k (by omega)).take h1 hk hd hdN hdial hr
  have hevent : (if commType (c.notice d (c.pos d (k - 1))) = TYPE_PEER_DIED then
      [RingEvent.processed (c.pos d k) (XPeerDied.ofContent (content
        (c.notice d (c.pos d (k - 1))))).peerId] else []) = [.processed (c.pos d k) d] := by
    rw [if_pos (c.commType_notice _), c.content_notice hdN]
  have hpeer := hnode.peerF
  have hself : s'.server = Function.update s.server (c.pos d k) r.sv := by rw [hs']; simp
  -- what is left to say of either case
  suffices h : Base c d (k + 1) s' ∧ s'.wire = carrying c d (k + 1) ∧ ∃ es,
      s'.trace = s.trace ++ .processed (c.pos d k) d :: es ∧ ∀ e ∈ es, ∃ n m, e = .wrote n m by
    obtain ⟨hbase, hwire, es, htrace, hes⟩ := h
    have hcount : ∀ e, (∀ n x, e ≠ .processed n x) → (∀ n m, e ≠ .wrote n m) →
        s'.trace.count e = s.trace.count e := fun e h1 h2 => by
      have hnot : e ∉ .processed (c.pos d k) d :: es := fun he => by
        rcases List.mem_cons.mp he with he | he
        · exact h1 _ _ he
        · obtain ⟨n, m, rfl⟩ := hes e he
          exact h2 _ _ rfl
      rw [htrace, List.count_append, List.count_eq_zero.mpr hnot, add_zero]
    refine ⟨⟨hbase, ?_, fun m hm => by rw [hs']; simp [hm], ?_, fun m => hcount _ (by simp) (by simp), fun m => hcount _ (by simp) (by simp)⟩,
      hwire, ?_⟩
    all_goals simp only [hself, Function.update_self]
    · exact hindex
    · exact hstate
  by_cases hlast : k + 2 = c.N
  · -- the predecessor of `d` dials its successor
    rw [if_pos (by omega)] at hpeer
    have hfd : s.nextFd = c.N + 1 := hb.nextFd.trans (if_neg (by omega))
    rw [hsent, if_pos hlast, writeOpt_none, connect_eq (m := c.pos d 0) (by simp [hpeer.1, hfd])
      (by simp [hpeer.2, hat])] at hs'
    simp only [setServer_nextFd, setServing_nextFd, read_nextFd, hfd] at hs'
    have hne : ∀ f ≤ c.N, f ≠ c.N + 1 := fun f hf => by omega
    have htrace : s'.trace = s.trace ++ [.processed (c.pos d k) d] := by
      rw [hs', ← hevent]
      rfl
    refine ⟨hb.advance h1 hk hd hdN hself hnode (by rw [hs']; rfl) (by rw [hs']; rfl)
      (by rw [hs']; rfl) (fun f hf => ?_)
      (fun f hf => ?_) ?_ (fun _ => ?_) (fun n => ?_) htrace (by simp), ?_, [], htrace, by simp⟩
    · simp [hs', Function.update_of_ne (hne f hf)]
    · simp [hs', Function.update_of_ne (hne f hf)]
    · rw [hs', if_pos hlast]
    · rw [hs', show c.N - 2 = k by omega]
      exact ⟨Function.update_self .., Function.update_self ..⟩
    · have hnil : ∀ n, s.backlog n = [] := fun n => (hb.backlog n).trans (if_neg (by omega))
      rw [hs']
      by_cases hn : n = c.pos d 0
      · simp [hn, hnil, hlast]
      · simp [hn, hnil]
    · rw [hs']
      simp only [setServer_wire, setServing_wire, read_wire, hw]
      rw [carrying_end, carrying_none (.inr (by omega))]
  · rw [if_neg (by omega)] at hpeer
    have hfd : s.nextFd = c.N + 1 := hb.nextFd.trans (if_neg (by omega))
    have hle := c.pos_le hdN (show k < c.N by omega)
    rw [hsent, if_neg hlast, writeOpt_some, write_eq (f := c.pos d k) (by simp [hpeer.1]),
      connect_same (by simp [hpeer.1, hfd]; omega)] at hs'
    have htrace : s'.trace = s.trace ++ .processed (c.pos d k) d ::
        [.wrote (c.pos d k) (c.pos d (k + 1))] := by
      rw [← hb.listener k (by omega), hs']
      simp [read, hevent]
    refine ⟨hb.advance h1 hk hd hdN hself hnode (by rw [hs']; rfl) (by rw [hs']; rfl) (by rw [hs']; rfl)
      (by simp [hs']) (by simp [hs']) ?_ (fun h => absurd h hlast) (fun n => ?_) htrace ?_, ?_, _, htrace, by simp⟩
    · simp [hs', hfd, hlast]
    · rw [hs', if_neg (by omega)]
      exact (hb.backlog n).trans (if_neg (by omega))
    · simpa using (show k + 2 < c.N by omega)
    · have hempty : s.wire (c.pos d k) = [] := by
        rw [hw, carrying, if_neg]
        rintro ⟨-, -, h⟩
        exact absurd (c.pos_inj (by omega) (by omega) h) (by omega)
      have hne : c.pos d k ≠ c.pos d (k - 1) := fun h => by
        exact absurd (c.pos_inj (by omega) (by omega) h) (by omega)
      rw [hs']
      simp only [setServer_wire, setServing_wire, read_wire, Function.update_of_ne hne, hempty, List.nil_append]
      rw [hw, carrying_succ h1 (by omega)]

/-- The successor of `d` accepts the connection of the predecessor. -/
theorem Base.newPeer (hb : Base c d k s) (hd : 1 ≤ d) (hdN : d ≤ c.N)
    (hstep : s.step c (.newPeer n) = some s') :
    n = c.pos d 0 ∧ k + 1 = c.N ∧ NoticeStep c d c.N 0 s s' ∧ s'.wire = s.wire ∧
      (s'.server (c.pos d 0)).state = if c.pos d 0 = 1 then .beginOperation else .idle := by
  obtain ⟨halive, -, hclosed, f, rest, hback, rfl⟩ := step_newPeer hstep
  obtain ⟨j, hj, rfl⟩ := (hb.alive_iff hd hdN).mp halive
  have hnode := hb.node j hj
  rw [hb.backlog] at hback
  split_ifs at hback with hk
  obtain rfl : j = 0 := c.pos_inj (by omega) (by omega) hk.2
  obtain ⟨rfl, rfl⟩ := List.cons.inj hback
  have hsv : ∀ sv : Server, serverNewPeer sv (c.N + 1) = { sv with
      peerB := { sv.peerB with statusOpen := true, streamFd := some (c.N + 1) }
      state := if sv.me.nodeId = 1 then .beginOperation else .idle } := fun sv => by
    rw [serverNewPeer]
    split_ifs <;> rfl
  have hid : (s.server (c.pos d 0)).me.nodeId = c.pos d 0 := by rw [hnode.me]
  refine ⟨rfl, by omega, ⟨⟨⟨le_refl _, hb.deaths, ?_, hb.dialer, hb.listener,
    fun _ => hb.redial (by omega), fun i hi => ?_, fun i h1 _ hi => hb.once i h1 (by omega) hi,
    fun m x hm => ?_, hb.wrote⟩, hb.admitted, fun m => ?_, by omega⟩, ?_, fun m hm => by simp [hm], ?_,
    fun _ => rfl,
    fun _ => rfl⟩, rfl, ?_⟩
  · simpa [show c.N - 1 ≤ k by omega] using hb.nextFd
  · by_cases hi0 : i = 0
    · subst hi0
      simp only [setServer_server, Function.update_self, hsv]
      refine ⟨hnode.me, ?_, hnode.label, ?_, ?_, ?_, ?_⟩
      · have hpeer := hnode.peerF
        simp only [show c.N - 1 ≤ k by omega, show c.N - 1 ≤ c.N by omega, and_true] at hpeer ⊢
        exact hpeer
      · simp
      · simp
      · rw [hnode.netSize, if_pos (show 0 < k by omega), if_pos (show 0 < c.N by omega)]
      · rw [hnode.deathCount, if_pos (show 0 < k by omega), if_pos (show 0 < c.N by omega)]
    · have hne : c.pos d i ≠ c.pos d 0 := fun h => hi0 (c.pos_inj (by omega) (by omega) h)
      simp only [setServer_server, Function.update_of_ne hne]
      exact (hb.node i hi).stage (by omega) (by omega) (by omega)
  · obtain ⟨hx, i, h1, hik, hi, h⟩ := hb.only m x hm
    exact ⟨hx, i, h1, by omega, hi, h⟩
  · rw [if_neg (by omega)]
    by_cases hm : m = c.pos d 0
    · simp [hm]
    · simpa [hm] using hb.backlog m
  · simp
  · simp [hsv]
  · simp [hsv, hid]

end RingNet

end DSS
