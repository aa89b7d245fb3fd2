import DistStore.Lib.CallRuns
import DistStore.Model.Sessions
import DistStore.Proofs.LargeSend
import DistStore.Proofs.StoreRead

/-! What the packets of a connection are, and the fan-out in every interleaving of the index and
the nodes that take the fragments. -/

namespace DSS

open Bytes Calls

/-! ## The packets -/

theorem commPacket_ne_nil (k s t n : ℕ) (c : List UInt8) : commPacket k s t c n ≠ [] := by
  refine List.ne_nil_of_length_pos ?_
  simp only [commPacket, List.length_append, le_length]
  omega

/-- A buffer has a raw packet without bytes exactly if its size is a multiple of the bucket's. -/
theorem nil_mem_largeBufferPackets {raw : List UInt8} :
    [] ∈ largeBufferPackets raw ↔ SERVER_BUCKET_SIZE ∣ raw.length := by
  simp only [largeBufferPackets, nPackets, List.mem_map, List.mem_range, SERVER_BUCKET_SIZE]
  constructor
  · rintro ⟨i, hi, h⟩
    have hlen := congrArg List.length h
    simp only [List.length_take, List.length_drop, List.length_nil] at hlen
    omega
  · intro h
    refine ⟨raw.length / 4096, by omega, ?_⟩
    rw [Nat.div_mul_cancel h, List.drop_length, List.take_nil]

def Heard (script : List (Bool × XPacket)) : Prop := ∀ p ∈ script, p.2.isEmpty = false

theorem heard_append {s t : List (Bool × XPacket)} : Heard (s ++ t) ↔ Heard s ∧ Heard t :=
  List.forall_mem_append

theorem heard_raw {raw : List UInt8} : Heard (sayRaw raw) ↔ ¬ SERVER_BUCKET_SIZE ∣ raw.length := by
  rw [← nil_mem_largeBufferPackets, Heard, sayRaw]
  simp only [List.mem_map, forall_exists_index, and_imp, forall_apply_eq_imp_iff₂,
    List.isEmpty_eq_false_iff]
  exact ⟨fun h hnil => h [] hnil rfl, fun h p hp hnil => h (hnil ▸ hp)⟩

theorem heard_presentation (sv peer : Server) : Heard (sayPresentation sv peer) := by
  simp [Heard, sayPresentation, xpacketPresentation, xpacketOk, xpacketSized, commPacket_ne_nil]

theorem heard_confirmed {p : XPacket} (hp : p ≠ []) (peer : Server) : Heard (sayConfirmed p peer) := by
  simp [Heard, sayConfirmed, xpacketOk, xpacketSized, commPacket_ne_nil, hp]

theorem sayRaw_of_lt {raw : List UInt8} (h : raw.length < SERVER_BUCKET_SIZE) :
    sayRaw raw = [(true, raw)] := by
  rw [sayRaw, largeBufferPackets, nPackets, Nat.div_eq_of_lt h]
  simp [List.take_of_length_le h.le]

theorem sent_append {μ : Type*} (s t : List (Bool × μ)) :
    Dialogue.fromCaller (s ++ t) = Dialogue.fromCaller s ++ Dialogue.fromCaller t := List.filterMap_append ..

theorem fromCaller_raw (raw : List UInt8) : Dialogue.fromCaller (sayRaw raw) = largeBufferPackets raw := by
  rw [Dialogue.fromCaller, sayRaw, List.filterMap_map]
  exact List.filterMap_some

theorem sent_transmission (sv peer : Server) (t : FragmentTransmission) :
    Dialogue.fromCaller (sayTransmission sv peer t) =
      xpacketPresentation sv :: t.packet :: largeBufferPackets t.raw := by
  rw [sayTransmission, sent_append, sent_append, fromCaller_raw]
  rfl

theorem sent_delivery (sv peer : Server) (a : Arrival) :
    Dialogue.fromCaller (sayDelivery sv peer a) =
      xpacketPresentation sv :: a.packet :: largeBufferPackets a.raw := by
  rw [sayDelivery, sent_append, sent_append, sent_append, fromCaller_raw]
  simp [Dialogue.fromCaller, sayPresentation, sayConfirmed]

/-! ## The fan-out -/

section fanout

variable {c : Cluster} {sv : Server} {server : ℕ → Server} {sent : List FragmentTransmission}
  {backlog : ℕ}

/-- What is sent to one node is stored in its own order, whatever the order between the nodes. -/
theorem foldl_update_apply {κ α : Type*} (node : κ → ℕ) (f : κ → α → α) (fs : ℕ → α) (ks : List κ)
    (n : ℕ) :
    ks.foldl (fun fs k => Function.update fs (node k) (f k (fs (node k)))) fs n =
      (ks.filter (node · = n)).foldl (fun x k => f k x) (fs n) := by
  induction ks generalizing fs with
  | nil => rfl
  | cons k ks ih =>
    rw [List.foldl_cons, ih]
    by_cases hk : node k = n
    · rw [List.filter_cons_of_pos (by simpa using hk), List.foldl_cons, hk, Function.update_self]
    · rw [List.filter_cons_of_neg (by simpa using hk), Function.update_of_ne (Ne.symm hk)]

def fanoutRank (N : ℕ) : Party N → ℕ
  | .index => 1
  | _ => 0

theorem fanout_layered (hbacklog : 0 < backlog) :
    Layered (fanoutProtocol c sv server sent backlog) (fanoutRank c.N) (fun i => [i]) where
  rank_lt _ := Nat.one_pos
  next_caller _ _ h := absurd h List.not_mem_nil
  below_eq _ := rfl
  backlog_pos := hbacklog

theorem fanoutTodo_caller (a : Party c.N) :
    ∀ i ∈ fanoutTodo c sent a, (fanoutProtocol c sv server sent backlog).caller i = a := by
  cases a with
  | index => exact fun _ _ => rfl
  | gateway => exact fun _ h => absurd h List.not_mem_nil
  | node n => exact fun _ h => absurd h List.not_mem_nil

theorem fanout_loud (hsent : ∀ t ∈ sent, t.packet ≠ [] ∧ ¬ SERVER_BUCKET_SIZE ∣ t.raw.length) :
    Loud (fanoutProtocol c sv server sent backlog) := by
  intro i
  obtain ⟨hpacket, hraw⟩ := hsent (sent.get i) (List.get_mem ..)
  have h : Heard (sayTransmission sv (server (receiverOf c sent i)) (sent.get i)) :=
    heard_append.mpr ⟨heard_append.mpr ⟨heard_presentation _ _, heard_confirmed hpacket _⟩,
      heard_raw.mpr hraw⟩
  exact h

theorem deliver_eq {i : Fin sent.length} {n : ℕ} (hat : c.nodeAt (sent.get i).dest = some n)
    (fs : ℕ → XFileServer) :
    Network.deliver c fs (sent.get i) = Function.update fs (receiverOf c sent i)
      (receiveTransmission (fs (receiverOf c sent i)) (sent.get i).packet (sent.get i).raw) := by
  rw [Network.deliver, receiverOf, hat]
  rfl

/-- When nobody can move any more, the stores are those of the deliveries one after the other. -/
theorem storesAfter_eq (hbacklog : 0 < backlog)
    (hsent : ∀ t ∈ sent, t.packet ≠ [] ∧ ¬ SERVER_BUCKET_SIZE ∣ t.raw.length)
    (hat : ∀ t ∈ sent, ∃ n, c.nodeAt t.dest = some n) {as : List (Party c.N)}
    {s : State (Party c.N) (Fin sent.length) XPacket}
    (hrun : Transition.run (State.step (fanoutProtocol c sv server sent backlog))
      (.start (fanoutProtocol c sv server sent backlog) (fanoutTodo c sent)) as = some s)
    (hstuck : ∀ a, s.step (fanoutProtocol c sv server sent backlog) a = none)
    (fs : ℕ → XFileServer) : storesAfter c sent fs s = sent.foldl (Network.deliver c) fs := by
  have hl : Layered (fanoutProtocol c sv server sent backlog) _ _ := fanout_layered hbacklog
  have hloud : Loud (fanoutProtocol c sv server sent backlog) := fanout_loud hsent
  have hreceived : ∀ i ∈ s.served, ∀ x, storeReceived x (s.conn i).got =
      receiveTransmission x (sent.get i).packet (sent.get i).raw := by
    intro i hi x
    have hgot := got_of_served hl fanoutTodo_caller hrun hi fun m hm => hloud i _ hm
    rw [hgot, fanoutProtocol, sent_transmission, storeReceived, flatten_largeBufferPackets]
  have hall : sent.foldl (Network.deliver c) fs =
      (List.finRange sent.length).foldl (fun fs i => Network.deliver c fs (sent.get i)) fs := by
    conv_lhs => rw [← List.map_get_finRange sent, List.foldl_map]
  rw [hall, storesAfter, List.foldl_ext _ _ fs fun fs i hi => by rw [hreceived i hi],
    List.foldl_ext _ _ fs fun fs i _ => deliver_eq (hat _ (List.get_mem ..)).choose_spec fs]
  funext n
  rw [foldl_update_apply (receiverOf c sent)
      fun i x => receiveTransmission x (sent.get i).packet (sent.get i).raw,
    foldl_update_apply (receiverOf c sent)
      fun i x => receiveTransmission x (sent.get i).packet (sent.get i).raw]
  have horder := served_in_order (b := .node (Fin.ofNat (c.N + 1) n)) hl hloud fanoutTodo_caller
    (a := .index) nofun (fun _ _ => rfl) nofun hrun hstuck
  have hnode : ∀ l : List (Fin sent.length), l.filter (receiverOf c sent · = n) =
      (l.filter fun i => (fanoutProtocol c sv server sent backlog).callee i =
        .node (Fin.ofNat (c.N + 1) n)).filter (receiverOf c sent · = n) := by
    intro l
    rw [List.filter_filter]
    refine List.filter_congr fun i _ => ?_
    by_cases hi : receiverOf c sent i = n
    · simp [hi, fanoutProtocol]
    · simp [hi]
  rw [hnode s.served, horder, ← hnode]
  rfl

/-- With fragments that fit in one packet the two sides of a connection take turns. -/
theorem transmission_turns (sv peer : Server) {t : FragmentTransmission}
    (h : t.raw.length < SERVER_BUCKET_SIZE) :
    (sayTransmission sv peer t).IsChain fun p q => p.1 ≠ q.1 := by
  rw [sayTransmission, sayRaw_of_lt h]
  simp [sayPresentation, sayConfirmed]

end fanout

end DSS
