import DistStore.Proofs.RingLost

/-! The notice of one death reaches every survivor but the one that found it, once, and
the survivors form a ring again. -/

namespace DSS

namespace RingNet

variable {c : Cluster} {d k j n : ℕ} {s s' : RingNet} {a : RingAct} {as : List RingAct}

theorem base_of_die (hd : 1 ≤ d) (hdN : d ≤ c.N) (hstep : c.booted.step c (.die d) = some s) :
    Base c d 0 s ∧ s.server = c.bootedServer ∧ s.wire = fun _ => [] := by
  obtain ⟨-, rfl⟩ := step_die hstep
  have h2 := c.two_le
  refine ⟨⟨⟨Nat.zero_le _, rfl, (if_neg (by omega)).symm, fun _ _ => rfl, fun j hj => ?_,
    fun h => by omega, fun j hj => ?_, fun _ _ h => by omega, fun _ _ h => absurd h (List.not_mem_nil),
    fun _ h => absurd h (List.not_mem_nil)⟩, fun _ => rfl, fun m => (if_neg (by omega)).symm,
    fun h => by omega⟩, rfl, rfl⟩
  · exact c.pos_succ hdN (by omega)
  · obtain ⟨hme, hnet, hdeath, -⟩ := c.bootedServer_facts (c.pos d j)
    refine ⟨hme, ?_, rfl, ?_, ?_, hnet.trans (if_neg (by omega)).symm,
      hdeath.trans (if_neg (by omega)).symm⟩
    · rw [if_neg (by omega), ← c.pos_succ hdN (show j + 1 < c.N by omega)]
      exact ⟨rfl, rfl, rfl⟩
    · rw [decide_eq_false (by omega)]
      rfl
    · have hlabel : (c.booted.server (c.pos d j)).peerB.streamFd =
          some (backwardId (c.pos d j) c.N) := rfl
      rw [hlabel]
      split_ifs with h0 hk
      · omega
      · rw [h0, c.backwardId_pos_zero hd hdN]
      · rw [← c.backwardId_pos hdN (show j - 1 + 1 < c.N by omega), Nat.sub_add_cancel (by omega)]

/-- What holds in every state after one death, whoever died. -/
inductive AfterDeath (c : Cluster) (d : ℕ) (s : RingNet) : Prop
  | passing (k : ℕ) (hd : d < c.N) (h : Passing c d k s)
  | electing (k : ℕ) (hd : d = c.N) (h4 : 4 ≤ c.N) (h : Electing c k s)
  | rival (k : ℕ) (hd : d = c.N) (h3 : c.N = 3) (h : Rival c k s)
  | lost (h : Lost c d s)

theorem AfterDeath.carried (h : AfterDeath c d s) (h3 : 3 ≤ c.N) :
    (∃ k, Carried c d k s) ∨ Lost c d s := by
  rcases h with ⟨k, -, h⟩ | ⟨k, rfl, h4, h⟩ | ⟨k, rfl, -, h⟩ | h
  · exact .inl ⟨k, h.carried h3⟩
  · exact .inl ⟨k, h.carried h4⟩
  · exact .inl ⟨k, h.carried⟩
  · exact .inr h

theorem AfterDeath.spread (h : AfterDeath c d s) (h3 : 3 ≤ c.N) : ∃ k, Spread c d k s := by
  rcases h.carried h3 with ⟨k, h⟩ | h
  · exact ⟨k, h.toSpread⟩
  · exact ⟨c.N - 1, h.toSpread⟩

/-- When nobody can step any more, the notice is around. -/
theorem AfterDeath.around (h : AfterDeath c d s) (h3 : 3 ≤ c.N) (hd : 1 ≤ d) (hdN : d ≤ c.N)
    (hquiet : Transition.Quiescent (RingNet.step c) RingAct.Survivor s) :
    ∃ k, c.N - 1 ≤ k ∧ Spread c d k s := by
  rcases h.carried h3 with ⟨k, h⟩ | h
  · refine ⟨k, ?_, h.toSpread⟩
    by_contra hk
    obtain ⟨a, ha, hnone⟩ := h.enabled h3 hd hdN (by omega)
    exact hnone (hquiet a ha)
  · exact ⟨c.N - 1, le_rfl, h.toSpread⟩

theorem AfterDeath.step (h : AfterDeath c d s) (h3 : 3 ≤ c.N) (hd : 1 ≤ d) (hdN : d ≤ c.N)
    (ha : a.Survivor) (hstep : s.step c a = some s') :
    AfterDeath c d s' ∧ todo c s' < todo c s := by
  by_cases hp : Patient c d s a
  · rcases h with ⟨k, hlt, h⟩ | ⟨k, rfl, h4, h⟩ | ⟨k, rfl, h3', h⟩ | h
    · obtain ⟨k', h'⟩ := h.step h3 hd hlt ha hp hstep
      exact ⟨.passing k' hlt h', (h.carried h3).todo_lt h3 hd hdN ha hp hstep⟩
    · obtain ⟨k', h'⟩ := h.step h4 ha hp hstep
      exact ⟨.electing k' rfl h4 h', (h.carried h4).todo_lt h3 hd hdN ha hp hstep⟩
    · obtain ⟨k', h'⟩ := h.step h3' ha hp hstep
      exact ⟨.rival k' rfl h3' h', h.carried.todo_lt h3 hd hdN ha hp hstep⟩
    · obtain ⟨h', hlt⟩ := h.step h3 hd hdN ha hstep
      exact ⟨.lost h', hlt⟩
  · obtain ⟨rfl, -⟩ := Classical.not_imp.mp hp
    rcases h with ⟨k, hlt, h⟩ | ⟨k, rfl, h4, h⟩ | ⟨k, rfl, h3', h⟩ | h
    · exact ⟨.lost (h.lost h3 hstep), (h.carried h3).late_todo h3 hdN hstep⟩
    · exact ⟨.lost (h.lost h4 hstep), (h.carried h4).late_todo h3 hdN hstep⟩
    · exact ⟨.lost (h.lost h3' hstep), h.carried.late_todo h3 hdN hstep⟩
    · obtain ⟨h', hlt⟩ := h.step h3 hd hdN ha hstep
      exact ⟨.lost h', hlt⟩

theorem electing_of_die (h4 : 4 ≤ c.N) (hstep : c.booted.step c (.die c.N) = some s) :
    Electing c 0 s := by
  obtain ⟨hb, hserver, hwire⟩ := base_of_die (by omega) (le_refl _) hstep
  refine ⟨hb, fun _ => ?_, fun j _ _ => ?_, by omega, by omega, fun j _ hs => ?_, by omega,
    fun j _ => ?_⟩
  · rw [hwire, carrying_none (.inl rfl)]
  · rw [hserver]
    rfl
  · exact absurd hs.1 (Nat.not_lt_zero j)
  · rw [hserver, (c.bootedServer_facts _).2.2.2, if_neg fun hs => absurd hs.1 (Nat.not_lt_zero j)]

theorem afterDeath_of_die (h3 : 3 ≤ c.N) (hd : 1 ≤ d) (hdN : d ≤ c.N)
    (hstep : c.booted.step c (.die d) = some s) : AfterDeath c d s := by
  obtain ⟨hb, hserver, hwire⟩ := base_of_die hd hdN hstep
  have hindex : ∀ n, (s.server n).index.nodeId = c.N := fun n => by
    rw [hserver, (c.bootedServer_facts n).2.2.2]
  have hidle : ∀ n, (s.server n).state = .idle := fun n => by
    rw [hserver]
    rfl
  have hcarry : s.wire = carrying c d 0 := by rw [hwire, carrying_none (.inl rfl)]
  rcases hdN.lt_or_eq with hlt | rfl
  · exact .passing 0 hlt ⟨hb, hcarry, fun j hj => by rw [hidle, if_neg (by omega)], fun j _ => hindex _⟩
  · rcases h3.lt_or_eq with h4 | h3
    · exact .electing 0 rfl h4 (electing_of_die h4 hstep)
    · exact .rival 0 rfl h3.symm ⟨hb, fun _ => hcarry, fun j _ _ => ⟨hidle _, hindex _⟩, by omega,
        by omega, by omega⟩

/-! ## The closed ring -/

/-- The node `i` steps along `peer_f.ip` from `n`. -/
def follow (c : Cluster) (s : RingNet) (n : ℕ) : ℕ → Option ℕ
  | 0 => some n
  | i + 1 => (follow c s n i).bind fun m => c.nodeAt (s.server m).peerF.ip

/-- From every living node the forward addresses visit every living node, and lead back
after as many steps as there are living nodes. -/
def RingClosed (c : Cluster) (s : RingNet) : Prop :=
  ∀ n, Alive c s n → follow c s n (survivors c s).length = some n ∧
    ∀ m, Alive c s m → ∃ i < (survivors c s).length, follow c s n i = some m

theorem Spread.follow (hb : Spread c d k s) (hk : c.N - 1 ≤ k) (hdN : d ≤ c.N) (h3 : 3 ≤ c.N) (hj : j < c.N - 1) (i : ℕ) :
    follow c s (c.pos d j) i = some (c.pos d ((j + i) % (c.N - 1))) := by
  induction i with
  | zero => rw [RingNet.follow, Nat.add_zero, Nat.mod_eq_of_lt hj]
  | succ i ih =>
    have hlt : (j + i) % (c.N - 1) < c.N - 1 := Nat.mod_lt _ (by omega)
    have hsucc : (j + (i + 1)) % (c.N - 1) = ((j + i) % (c.N - 1) + 1) % (c.N - 1) := by
      rw [Nat.mod_add_mod, Nat.add_assoc]
    have hnext : nextPos c ((j + i) % (c.N - 1)) = (j + (i + 1)) % (c.N - 1) := by
      rw [hsucc, nextPos]
      split_ifs with hlast
      · rw [show (j + i) % (c.N - 1) + 1 = c.N - 1 by omega, Nat.mod_self]
      · exact (Nat.mod_eq_of_lt (by omega)).symm
    have hnlt : nextPos c ((j + i) % (c.N - 1)) < c.N - 1 := nextPos_lt h3 hlt
    rw [RingNet.follow, ih, Option.bind_some, (hb.stream hlt (by omega)).2.1,
      c.nodeAt_addr (c.one_le_pos d _) (c.pos_le hdN (by omega)), hnext]

theorem Spread.survivors_length (hb : Spread c d k s) (hd : 1 ≤ d) (hdN : d ≤ c.N) :
    (survivors c s).length = c.N - 1 := by
  have hmem : d ∈ c.nodes := Cluster.mem_nodes.mpr ⟨hd, hdN⟩
  have heq : survivors c s = c.nodes.erase d := by
    have hnodup : c.nodes.Nodup := List.nodup_range'
    rw [survivors, hnodup.erase_eq_filter]
    refine List.filter_congr fun n hn => ?_
    obtain ⟨h1, hnN⟩ := Cluster.mem_nodes.mp hn
    simp [Alive, hb.deaths, h1, hnN, bne, beq_eq_decide]
  rw [heq, List.length_erase_of_mem hmem, Cluster.nodes, List.length_range']

theorem Spread.ringClosed (hb : Spread c d k s) (hk : c.N - 1 ≤ k) (h3 : 3 ≤ c.N) (hd : 1 ≤ d)
    (hdN : d ≤ c.N) : RingClosed c s := by
  intro n hn
  obtain ⟨j, hj, rfl⟩ := (hb.alive_iff hd hdN).mp hn
  rw [hb.survivors_length hd hdN]
  refine ⟨?_, fun m hm => ?_⟩
  · rw [hb.follow hk hdN h3 hj, Nat.add_mod_right, Nat.mod_eq_of_lt hj]
  · obtain ⟨i, hi, rfl⟩ := (hb.alive_iff hd hdN).mp hm
    refine ⟨(i + (c.N - 1) - j) % (c.N - 1), Nat.mod_lt _ (by omega), ?_⟩
    rw [hb.follow hk hdN h3 hj, Nat.add_mod_mod, show j + (i + (c.N - 1) - j) = i + (c.N - 1) by omega,
      Nat.add_mod_right, Nat.mod_eq_of_lt hi]

end RingNet

open RingNet Transition

/-- The successor of `d` on the ring. -/
def Cluster.widow (c : Cluster) (d : ℕ) : ℕ := d % c.N + 1

theorem Cluster.widow_eq {c : Cluster} {d : ℕ} (hdN : d ≤ c.N) : c.widow d = c.pos d 0 := by
  rw [widow, succ_eq hdN, pos]
  split_ifs <;> omega

end DSS
