import DistStore.Model.RingBoot
import DistStore.Proofs.RingSteps

/-! What the nodes take from their backward streams while a new index presents itself. A
ring keeps `HeardOnce` if each of its steps either moves no presentation or makes one node,
that was not told of the index before, take one. -/

namespace DSS

namespace RingNet

variable {c : Cluster} {I n sender : ℕ} {s s' : RingNet} {log l : List (ℕ × XPacket)}
  {told told' : ℕ → Server → Prop} {sv : Server}

/-- The presentation of index `I` as `sender` writes it. -/
def presentationOf (c : Cluster) (I sender : ℕ) : XPacket :=
  XIndexPresentationPacket.bytes ⟨sender, I, c.addr I⟩

theorem isIndexPresentation_presentationOf (c : Cluster) (I sender : ℕ) :
    IsIndexPresentation (presentationOf c I sender) := rfl

theorem serverWaitIndexGossip_presentationOf (hI : I < 2 ^ 64) (sv : Server) (sender : ℕ) :
    serverWaitIndexGossip sv (presentationOf c I sender) =
      ⟨serverSetState { sv with index := { sv.index with ip := c.addr I, nodeId := I } }
          .reportKnowledgeToIndex,
        if I ≠ sv.peerF.nodeId then some (presentationOf c I sv.me.nodeId) else none⟩ := by
  unfold serverWaitIndexGossip presentationOf
  rw [XIndexPresentationPacket.ofPacket_bytes, setPresentationSender_bytes]
  simp only [u64_of_lt hI]

def presentationsTo (n : ℕ) (log : List (ℕ × XPacket)) : List XPacket :=
  (log.filter fun r => r.1 = n ∧ IsIndexPresentation r.2).map Prod.snd

theorem presentationsTo_append :
    presentationsTo n (log ++ l) = presentationsTo n log ++ presentationsTo n l := by
  rw [presentationsTo, List.filter_append, List.map_append]
  rfl

theorem presentationsTo_eq_nil (h : ∀ r ∈ l, r.1 = n → ¬ IsIndexPresentation r.2) :
    presentationsTo n l = [] := by
  unfold presentationsTo
  rw [List.filter_eq_nil_iff.mpr, List.map_nil]
  intro r hr hp
  obtain ⟨hn, hp⟩ := of_decide_eq_true hp
  exact h r hr hn hp

theorem received_gossip {f : ℕ} {p : XPacket} {rest : List XPacket}
    (hf : (s.server n).peerB.streamFd = some f) (hw : s.wire f = p :: rest) :
    s.received (.gossip n) = [(n, p)] := by
  show (s.backwardPacket n).toList.map _ = _
  rw [backwardPacket, hf, Option.bind_some, hw]
  rfl

theorem received_check {f : ℕ} {p : XPacket} {rest : List XPacket} (hf : s.peerB n = some f)
    (hw : s.wire f = p :: rest) : s.received (.check n) = [(n, p)] := by
  have hfd : (s.server n).peerB.streamFd = some f := by
    unfold peerB at hf
    split_ifs at hf
    exact hf
  exact received_gossip hfd hw

theorem mem_write {f : ℕ} {p q : XPacket} (hp : p ∈ (s.write n q).wire f) :
    p ∈ s.wire f ∨ (s.server n).peerF.streamFd = some f ∧ p = q := by
  cases hg : (s.server n).peerF.streamFd with
  | none =>
    rw [write, hg] at hp
    exact .inl hp
  | some g =>
    rw [write_eq hg] at hp
    dsimp only at hp
    by_cases hfg : f = g
    · subst hfg
      rw [Function.update_self, List.mem_append, List.mem_singleton] at hp
      exact hp.imp_right fun hq => ⟨rfl, hq⟩
    · rw [Function.update_of_ne hfg] at hp
      exact .inl hp

/-- The nodes told of index `I`, but `I` itself, took one presentation each and stored what
it names; the other nodes took none. -/
structure HeardOnce (c : Cluster) (I : ℕ) (told : ℕ → Server → Prop) (s : RingNet)
    (log : List (ℕ × XPacket)) : Prop where
  once : ∀ n, told n (s.server n) → n ≠ I →
    ∃ sender, presentationsTo n log = [presentationOf c I sender]
  none : ∀ n, (told n (s.server n) → n = I) → presentationsTo n log = []
  stored : ∀ n, told n (s.server n) → n ≠ I →
    (s.server n).index.nodeId = I ∧ (s.server n).index.ip = c.addr I

theorem heard_nil (h : ∀ n, ¬ told n (s.server n)) : HeardOnce c I told s [] :=
  ⟨fun n hn => absurd hn (h n), fun _ _ => rfl, fun n hn => absurd hn (h n)⟩

/-- A step after which the same nodes are told of the index. -/
theorem HeardOnce.silent (h : HeardOnce c I told s log) (hl : ∀ r ∈ l, ¬ IsIndexPresentation r.2)
    (htold : ∀ n, n ≠ I → (told' n (s'.server n) ↔ told n (s.server n)))
    (hindex : ∀ n, n ≠ I → (s'.server n).index.nodeId = (s.server n).index.nodeId ∧
      (s'.server n).index.ip = (s.server n).index.ip) : HeardOnce c I told' s' (log ++ l) := by
  have hsame : ∀ n, presentationsTo n (log ++ l) = presentationsTo n log := by
    intro n
    rw [presentationsTo_append, presentationsTo_eq_nil fun r hr _ => hl r hr, List.append_nil]
  refine ⟨fun n hn hI => ?_, fun n hn => ?_, fun n hn hI => ?_⟩
  · rw [hsame]
    exact h.once n ((htold n hI).mp hn) hI
  · rw [hsame]
    refine h.none n fun ht => ?_
    by_contra hI
    exact hI (hn ((htold n hI).mpr ht))
  · obtain ⟨hid, hip⟩ := hindex n hI
    rw [hid, hip]
    exact h.stored n ((htold n hI).mp hn) hI

/-- A step of node `n` that moves no presentation but one of its own. -/
theorem HeardOnce.update (h : HeardOnce c I told s log) (hl : ∀ r ∈ l, ¬ IsIndexPresentation r.2)
    (hserver : s'.server = Function.update s.server n sv)
    (hsame : n ≠ I → (told n sv ↔ told n (s.server n)) ∧
      sv.index.nodeId = (s.server n).index.nodeId ∧ sv.index.ip = (s.server n).index.ip) :
    HeardOnce c I told s' (log ++ l) := by
  refine h.silent hl (fun m hm => ?_) fun m hm => ?_
  · by_cases hmn : m = n
    · subst hmn
      rw [hserver, Function.update_self]
      exact (hsame hm).1
    · rw [hserver, Function.update_of_ne hmn]
  · by_cases hmn : m = n
    · subst hmn
      rw [hserver, Function.update_self]
      exact (hsame hm).2
    · rw [hserver, Function.update_of_ne hmn]
      exact ⟨rfl, rfl⟩

/-- Node `n`, that was not told of the index, takes its presentation. -/
theorem HeardOnce.take (h : HeardOnce c I told s log) (hserver : s'.server = Function.update s.server n sv)
    (hI : n ≠ I) (hnot : ¬ told n (s.server n)) (hnow : told n sv) (hid : sv.index.nodeId = I)
    (hip : sv.index.ip = c.addr I) :
    HeardOnce c I told s' (log ++ [(n, presentationOf c I sender)]) := by
  have hone : presentationsTo n [(n, presentationOf c I sender)] = [presentationOf c I sender] := by
    simp [presentationsTo, isIndexPresentation_presentationOf]
  have hother : ∀ m, m ≠ n → s'.server m = s.server m ∧
      presentationsTo m (log ++ [(n, presentationOf c I sender)]) = presentationsTo m log := by
    intro m hm
    constructor
    · rw [hserver, Function.update_of_ne hm]
    · have hnil : presentationsTo m [(n, presentationOf c I sender)] = [] := by
        apply presentationsTo_eq_nil
        intro r hr hrm
        rw [List.mem_singleton.mp hr] at hrm
        exact absurd hrm.symm hm
      rw [presentationsTo_append, hnil, List.append_nil]
  have hself : s'.server n = sv := by rw [hserver, Function.update_self]
  refine ⟨fun m hm hmI => ?_, fun m hm => ?_, fun m hm hmI => ?_⟩
  · by_cases hmn : m = n
    · subst hmn
      rw [presentationsTo_append, h.none m fun ht => absurd ht hnot, hone]
      exact ⟨sender, rfl⟩
    · rw [(hother m hmn).1] at hm
      rw [(hother m hmn).2]
      exact h.once m hm hmI
  · have hmn : m ≠ n := by
      rintro rfl
      rw [hself] at hm
      exact hI (hm hnow)
    rw [(hother m hmn).1] at hm
    rw [(hother m hmn).2]
    exact h.none m hm
  · by_cases hmn : m = n
    · subst hmn
      rw [hself]
      exact ⟨hid, hip⟩
    · rw [(hother m hmn).1] at hm ⊢
      exact h.stored m hm hmI

end RingNet

open RingNet

/-- Where the presentation of index `I` has been, in state `s`, from what the nodes took. -/
structure GossipOnce (c : Cluster) (I : ℕ) (s : RingNet) (log : List (ℕ × XPacket)) : Prop where
  /-- neither the index takes one, nor a dead node -/
  others : ∀ n, ¬ Alive c s n ∨ n = I → presentationsTo n log = []
  once : ∀ n, (presentationsTo n log).length ≤ 1
  names : ∀ n, ∀ p ∈ presentationsTo n log,
    (XIndexPresentationPacket.ofPacket p).indexId = (s.server I).me.nodeId ∧
      (XIndexPresentationPacket.ofPacket p).indexAddr = (s.server I).me.ip
  stores : ∀ n, presentationsTo n log ≠ [] →
    (s.server n).index.nodeId = (s.server I).me.nodeId ∧
      (s.server n).index.ip = (s.server I).me.ip
  /-- none is on its way to the index -/
  unsent : ∀ f, s.listener f = I → ∀ p ∈ s.wire f, ¬ IsIndexPresentation p

theorem RingNet.HeardOnce.gossipOnce {c : Cluster} {I : ℕ} {s : RingNet} {log : List (ℕ × XPacket)}
    {told : ℕ → Server → Prop} (h : HeardOnce c I told s log) (hI : I < 2 ^ 64)
    (hme : (s.server I).me = ⟨c.addr I, I⟩) (halive : ∀ n, told n (s.server n) → Alive c s n)
    (hunsent : ∀ f, s.listener f = I → ∀ p ∈ s.wire f, ¬ IsIndexPresentation p) :
    GossipOnce c I s log := by
  have hcases : ∀ n, presentationsTo n log = [] ∨ told n (s.server n) ∧ n ≠ I := by
    intro n
    by_cases hn : told n (s.server n) ∧ n ≠ I
    · exact .inr hn
    · exact .inl (h.none n fun ht => by_contra fun hne => hn ⟨ht, hne⟩)
  refine ⟨fun n hn => h.none n fun ht => ?_, fun n => ?_, fun n p hp => ?_, fun n hn => ?_, hunsent⟩
  · exact hn.resolve_left fun hdead => hdead (halive n ht)
  · rcases hcases n with hnil | ⟨ht, hne⟩
    · simp [hnil]
    · obtain ⟨sender, hone⟩ := h.once n ht hne
      simp [hone]
  · rcases hcases n with hnil | ⟨ht, hne⟩
    · simp [hnil] at hp
    · obtain ⟨sender, hone⟩ := h.once n ht hne
      rw [hone, List.mem_singleton] at hp
      rw [hp, presentationOf, XIndexPresentationPacket.ofPacket_bytes, hme, u64_of_lt hI]
      exact ⟨rfl, rfl⟩
  · obtain ⟨ht, hne⟩ := (hcases n).resolve_left hn
    rw [hme]
    exact h.stored n ht hne

end DSS
