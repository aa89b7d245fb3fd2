import DistStore.Model.ControlStream
import DistStore.Model.RingNet

/-! Packet boundaries. Handlers read fields out of a cleared buffer, so they see a packet
up to trailing zeros; they see the packets that were sent when the stream is cut where
a packet ends. -/

namespace DSS

open Bytes Chunks Padding

/-- A control packet: it fits one receive and is not zero. -/
structure ControlPacket (p : XPacket) : Prop where
  length_le : p.length ≤ 4096
  ne_zero : ∃ b ∈ p, b ≠ 0

theorem val_append_zeros (l : List UInt8) (k : ℕ) : val (l ++ List.replicate k 0) = val l := by
  induction l with
  | nil =>
    induction k with
    | zero => rfl
    | succ k ih => simpa [List.replicate_succ, val] using ih
  | cons b l ih => simp only [List.cons_append, val, ih]

theorem exists_ne_zero_of_val {l : List UInt8} (h : val l ≠ 0) : ∃ b ∈ l, b ≠ 0 := by
  by_contra hno
  simp only [ne_eq, not_exists, not_and, not_not] at hno
  rw [List.eq_replicate_of_mem hno] at h
  exact h (val_append_zeros [] l.length)

theorem controlPacket_commPacket {k s t n : ℕ} {c : List UInt8} (ht : t % 256 ≠ 0)
    (hn : CONTENT + c.length ≤ n) (hn' : n ≤ 4096) : ControlPacket (commPacket k s t c n) where
  length_le := (commPacket_length hn).trans_le hn'
  ne_zero := by
    have hval : val (le 1 t) ≠ 0 := by rwa [val_le]
    obtain ⟨b, hb, hne⟩ := exists_ne_zero_of_val hval
    exact ⟨b, by simp [commPacket, hb], hne⟩

theorem controlPacket_xpacketOk (sv : Server) : ControlPacket (xpacketOk sv) :=
  controlPacket_commPacket (by decide) (by decide) (by decide)

theorem controlPacket_xpacketReportSelf (sv : Server) : ControlPacket (xpacketReportSelf sv) :=
  controlPacket_commPacket (by decide) (by simp [XPeerReportMessage.bytes, addressBytes, CONTENT,
    SIZEOF_COMM]) (by decide)

/-- A field read past the end of a receive is zero, as it is in the cleared packet. -/
theorem rd_rawBytes (off n : ℕ) (p : XPacket) : rd off n (rawBytes p) = rd off n p := by
  rw [rd, rd, rawBytes, pad, List.drop_append, List.drop_replicate, List.take_append,
    List.take_replicate, val_append_zeros]

theorem commType_of_rawBytes {p q : XPacket} (h : rawBytes p = rawBytes q) :
    commType p = commType q := by
  rw [commType, commType, ← rd_rawBytes, h, rd_rawBytes]

theorem commSenderId_of_rawBytes {p q : XPacket} (h : rawBytes p = rawBytes q) :
    commSenderId p = commSenderId q := by
  rw [commSenderId, commSenderId, ← rd_rawBytes, h, rd_rawBytes]

/-! ## Handlers -/

/-- A handler that goes through `handled` sees the packets `sent`, each once and in order. -/
def Sees (handled sent : List XPacket) : Prop := handled.map rawBytes = sent.map rawBytes

theorem knowledgePackets_initial (cut : List XPacket) : knowledgePackets (cut.map some) <+: cut := by
  induction cut with
  | nil => exact List.prefix_rfl
  | cons c cut ih =>
    rw [List.map_cons, knowledgePackets]
    split_ifs
    · exact ⟨cut, rfl⟩
    · exact (List.prefix_cons_inj c).mpr ih

/-- Without a `TYPE_OK` among its packets the loop goes on through all receives. -/
theorem knowledgePackets_eq_self {cut : List XPacket}
    (h : ∀ p ∈ knowledgePackets (cut.map some), commType p ≠ TYPE_OK) :
    knowledgePackets (cut.map some) = cut := by
  induction cut with
  | nil => rfl
  | cons c cut ih =>
    rw [List.map_cons, knowledgePackets] at h ⊢
    by_cases hc : commType c = TYPE_OK
    · rw [if_pos hc] at h
      exact absurd hc (h c (by simp))
    · rw [if_neg hc] at h ⊢
      rw [ih fun p hp => h p (List.mem_cons_of_mem _ hp)]

theorem knowledgePackets_eq_take {ps cut : List XPacket} {ok : XPacket}
    (hps : ∀ p ∈ ps, commType p ≠ TYPE_OK) (hok : commType ok = TYPE_OK)
    (h : Sees (cut.take (ps.length + 1)) (ps ++ [ok])) :
    knowledgePackets (cut.map some) = cut.take (ps.length + 1) := by
  induction ps generalizing cut with
  | nil =>
    cases cut with
    | nil => simp [Sees] at h
    | cons c cut =>
      simp only [Sees, List.length_nil, List.take_succ_cons, List.take_zero, List.nil_append,
        List.map_cons, List.map_nil, List.cons.injEq, and_true] at h
      rw [List.map_cons, knowledgePackets, if_pos (by rw [commType_of_rawBytes h, hok])]
      rfl
  | cons p ps ih =>
    cases cut with
    | nil => simp [Sees] at h
    | cons c cut =>
      simp only [Sees, List.length_cons, List.take_succ_cons, List.cons_append, List.map_cons,
        List.cons.injEq] at h
      have hc : commType c ≠ TYPE_OK := commType_of_rawBytes h.1 ▸ hps p (by simp)
      rw [List.map_cons, knowledgePackets, if_neg hc,
        ih (fun q hq => hps q (List.mem_cons_of_mem _ hq)) h.2]
      rfl

/-- A handler that goes through a part of the receives sees what was sent in the first
receives or not at all. -/
theorem sees_take_of_initial {handled cut sent : List XPacket} (hpre : handled <+: cut)
    (h : Sees handled sent) : Sees (cut.take sent.length) sent := by
  have hlen : handled.length = sent.length := by
    simpa using congrArg List.length h
  rw [← hlen, ← List.prefix_iff_eq_take.mp hpre]
  exact h

theorem idlePackets_cons (c : XPacket) (cut : List XPacket) :
    idlePackets ((c :: cut).map some) =
      if serverWaitClientPresentation c = 0 ∨ serverWaitClientPresentation c = CLIENT_NODE_ID then [c]
      else c :: cut.take 1 := by
  have hrest : ((cut.map some).take 1).map serverWaitFromSocket = cut.take 1 := by
    rw [← List.map_take, List.map_map]
    simp [serverWaitFromSocket, Function.comp_def]
  rw [← hrest]
  rfl

theorem idlePackets_initial (cut : List XPacket) : idlePackets (cut.map some) <+: cut := by
  cases cut with
  | nil => exact List.prefix_rfl
  | cons c cut =>
    rw [idlePackets_cons]
    split_ifs
    · exact ⟨cut, rfl⟩
    · exact (List.prefix_cons_inj c).mpr (List.take_prefix 1 cut)

/-- A packet by which another node identifies itself. -/
def NodePresentation (p : XPacket) : Prop :=
  serverWaitClientPresentation p ≠ 0 ∧ serverWaitClientPresentation p ≠ CLIENT_NODE_ID

theorem idlePackets_eq_take {p q : XPacket} {cut : List XPacket} (hcut : ∀ c ∈ cut, c ≠ [])
    (hp : NodePresentation p) (h : Sees (cut.take 2) [p, q]) :
    idlePackets (cut.map some) = cut.take 2 := by
  cases cut with
  | nil => rfl
  | cons c cut =>
    simp only [Sees, List.take_succ_cons, List.map_cons, List.cons.injEq] at h
    have hc : serverWaitClientPresentation c = serverWaitClientPresentation p := by
      have hclen : c.length ≠ 0 := fun h0 => hcut c (by simp) (List.eq_nil_of_length_eq_zero h0)
      have hplen : p.length ≠ 0 := fun h0 => hp.1 (by rw [serverWaitClientPresentation, if_pos h0])
      rw [serverWaitClientPresentation, serverWaitClientPresentation, if_neg hclen, if_neg hplen,
        commType_of_rawBytes h.1, commSenderId_of_rawBytes h.1]
    rw [idlePackets_cons, if_neg (by rw [hc]; exact not_or.mpr hp)]
    rfl

/-- However the stream of some control packets is cut: the loop that collects knowledge and
the idle node that accepted a connection see the packets exactly when each comes in a
receive of its own, up to zeros at the end of the last; the reader of `peer_b` and a loop
that waits for more, exactly when the receives are the packets. -/
theorem control_boundaries_iff {sent cut : List XPacket} (hsent : ∀ p ∈ sent, ControlPacket p)
    (hcut : Cuts 4096 sent.flatten cut) :
    (∀ ps ok, sent = ps ++ [ok] → (∀ p ∈ ps, commType p ≠ TYPE_OK) → commType ok = TYPE_OK →
      (Sees (knowledgePackets (cut.map some)) sent ↔ AtEnds 0 sent cut)) ∧
    ((∀ p ∈ sent, commType p ≠ TYPE_OK) →
      (Sees (knowledgePackets (cut.map some)) sent ↔ cut = sent)) ∧
    (∀ p q, sent = [p, q] → NodePresentation p →
      (Sees (idlePackets (cut.map some)) sent ↔ AtEnds 0 sent cut)) ∧
    (Sees (peerBPackets (cut.map some)) sent ↔ cut = sent) := by
  have hne : ∀ p ∈ sent, ∃ b ∈ p, b ≠ 0 := fun p hp => (hsent p hp).ne_zero
  have hends : Sees (cut.take sent.length) sent ↔ AtEnds 0 sent cut :=
    take_pad_eq_iff hcut.flatten hne fun p hp => (hsent p hp).length_le
  have hall : Sees cut sent ↔ cut = sent := map_pad_eq_iff hcut.flatten hne
  refine ⟨?_, ?_, ?_, ?_⟩
  · rintro ps ok rfl hps hok
    rw [← hends]
    refine ⟨sees_take_of_initial (knowledgePackets_initial cut), fun h => ?_⟩
    rw [List.length_append, List.length_singleton] at h
    rw [knowledgePackets_eq_take hps hok h]
    exact h
  · intro hno
    constructor
    · intro h
      rw [← hall, ← @knowledgePackets_eq_self cut]
      · exact h
      · intro p hp hok
        obtain ⟨q, hq, hpq⟩ : ∃ q ∈ sent, rawBytes q = rawBytes p := by
          have hmem : rawBytes p ∈ sent.map rawBytes := h ▸ List.mem_map_of_mem hp
          simpa using hmem
        exact hno q hq (by rw [commType_of_rawBytes hpq, hok])
    · rintro rfl
      rw [knowledgePackets_eq_self fun p hp => hno p ((knowledgePackets_initial cut).mem hp)]
      exact rfl
  · rintro p q rfl hp
    rw [← hends]
    refine ⟨sees_take_of_initial (idlePackets_initial cut), fun h => ?_⟩
    rw [idlePackets_eq_take hcut.ne_nil hp h]
    exact h
  · have hpackets : peerBPackets (cut.map some) = cut := by
      simp [peerBPackets, serverWaitFromSocket, Function.comp_def]
    rw [hpackets, hall]

/-- What node 1 of three reports while it has no file. -/
def reportNoFiles : List XPacket :=
  [xpacketReportSelf (Cluster.three.bootedServer 1),
    xpacketOk (Cluster.three.bootedServer 1)]

theorem reportNoFiles_control : ∀ p ∈ reportNoFiles, ControlPacket p := by
  simp only [reportNoFiles, List.forall_mem_cons, List.not_mem_nil, IsEmpty.forall_iff,
    implies_true, and_true]
  exact ⟨controlPacket_xpacketReportSelf _, controlPacket_xpacketOk _⟩

/-- Each packet in a receive of its own. -/
theorem control_boundaries_report :
    Sees (knowledgePackets (reportNoFiles.map some)) reportNoFiles := by
  have hcut : Cuts 4096 reportNoFiles.flatten reportNoFiles :=
    ⟨rfl, by decide +kernel, by decide +kernel⟩
  obtain ⟨hknow, -⟩ := control_boundaries_iff reportNoFiles_control hcut
  refine (hknow [xpacketReportSelf (Cluster.three.bootedServer 1)]
    (xpacketOk (Cluster.three.bootedServer 1)) rfl ?_ ?_).mpr ?_
  · decide +kernel
  · decide +kernel
  · exact ⟨rfl, 0, by simp⟩

/-- Both packets in one receive: the loop takes them for one and never sees `TYPE_OK`. -/
theorem not_control_boundaries_merged :
    Cuts 4096 reportNoFiles.flatten [reportNoFiles.flatten] ∧
      ¬ Sees (knowledgePackets ([reportNoFiles.flatten].map some)) reportNoFiles ∧
      ∀ p ∈ knowledgePackets ([reportNoFiles.flatten].map some), commType p ≠ TYPE_OK := by
  refine ⟨⟨by simp, by decide +kernel, by decide +kernel⟩, fun h => ?_, by decide +kernel⟩
  have hlen : (knowledgePackets ([reportNoFiles.flatten].map some)).length = reportNoFiles.length := by
    simpa using congrArg List.length h
  exact absurd hlen (by decide +kernel)

end DSS
