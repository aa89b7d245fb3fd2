import DistStore.Proofs.Sessions

/-! A download in every interleaving of the index, the holders and the gateway. -/

namespace DSS

open Bytes Calls

section download

variable {c : Cluster} {nw : Network} {server : ℕ → Server} {g : ℕ} {orders : List FragmentOrder}
  {backlog : ℕ}

/-- An order for the gateway `g`. Whoever listens at the address it dials has what it asks for. -/
def Sound (c : Cluster) (nw : Network) (server : ℕ → Server) (g : ℕ) : FragmentOrder → Prop
  | .useLocal dest packet => packet ≠ [] ∧ c.nodeAt dest = some g
  | .sendFragment fileId fragmentId deliverTo => c.nodeAt deliverTo = some g ∧
      ∃ a, xprocedureSendFragment nw.index (nw.fs c.N) fileId fragmentId = .ok a
  | .requestFragment dest packet => packet ≠ [] ∧ ∀ n, c.nodeAt dest = some n → n ≠ g ∧ n ≠ c.N ∧
      ∃ deliverTo a, typeRequestFrag (server n) (nw.fs n) packet = (deliverTo, .ok a) ∧
        c.nodeAt deliverTo = some g

theorem partyAt_gateway {a : Address} (hgN : g ≠ c.N) (h : c.nodeAt a = some g) :
    partyAt c g a = .gateway := by
  simp [partyAt, h, hgN]

theorem partyAt_node {a : Address} (h : ∀ n, c.nodeAt a = some n → n ≠ g ∧ n ≠ c.N) :
    ∃ m, partyAt c g a = .node m := by
  rcases hat : c.nodeAt a with _ | n
  · exact ⟨0, by simp [partyAt, hat]⟩
  · obtain ⟨hg, hN⟩ := h n hat
    exact ⟨Fin.ofNat (c.N + 1) n, by simp [partyAt, hat, hg, hN]⟩

theorem sendFragment_packet {sv : Server} {fs : XFileServer} {fileId fragmentId : ℤ} {a : Arrival}
    (h : xprocedureSendFragment sv fs fileId fragmentId = .ok a) :
    a.packet ≠ [] ∧ commType a.packet = TYPE_DECLARE_FRAG := by
  simp only [xprocedureSendFragment] at h
  split at h
  · cases h
  · split at h
    · cases h
    · obtain rfl := Except.ok.inj h
      refine ⟨commPacket_ne_nil _ _ _ _ _, ?_⟩
      rw [declareFragmentPacket, xpacketNew, commType_commPacket]
      rfl

/-! ## Who calls whom -/

def downloadRank (N : ℕ) : Party N → ℕ
  | .index => 2
  | .node _ => 1
  | .gateway => 0

/-- A call, and the delivery it makes the callee dial for. -/
def downloadBelow (c : Cluster) (nw : Network) (server : ℕ → Server) (g : ℕ)
    (orders : List FragmentOrder) (backlog : ℕ) (k : DownloadCall orders) :
    List (DownloadCall orders) :=
  k :: (downloadProtocol c nw server g orders backlog).next k

theorem Sound.routes (hgN : g ≠ c.N) {i : Fin orders.length} (h : Sound c nw server g (orders.get i))
    {P : Protocol (Party c.N) (DownloadCall orders) XPacket}
    (hP : P = downloadProtocol c nw server g orders backlog) :
    P.callee (true, i) = .gateway ∧
      (P.callee (false, i) = .gateway ∧ P.caller (true, i) = .index ∧ P.next (false, i) = [] ∨
        ∃ m, P.callee (false, i) = .node m ∧ P.caller (true, i) = .node m ∧
          (P.next (false, i) = [] ∨ P.next (false, i) = [(true, i)])) := by
  subst hP
  rcases hi : orders.get i with ⟨dest, packet⟩ | ⟨fileId, fragmentId, deliverTo⟩ | ⟨dest, packet⟩
  · rw [hi] at h
    simp [-List.get_eq_getElem, downloadProtocol, hi, deliveryOf, FragmentOrder.dialled,
      partyAt_gateway hgN h.2]
  · rw [hi] at h
    simp [-List.get_eq_getElem, downloadProtocol, hi, deliveryOf, FragmentOrder.dialled,
      partyAt_gateway hgN h.1]
  · rw [hi] at h
    obtain ⟨m, hm⟩ := partyAt_node fun n hn => ⟨(h.2 n hn).1, (h.2 n hn).2.1⟩
    rcases hat : c.nodeAt dest with _ | n
    · simp [-List.get_eq_getElem, downloadProtocol, hi, deliveryOf, FragmentOrder.dialled, hm, hat]
    · obtain ⟨-, -, deliverTo, a, hsent, hdel⟩ := h.2 n hat
      simp [-List.get_eq_getElem, downloadProtocol, hi, deliveryOf, FragmentOrder.dialled, hm, hat,
        hsent, partyAt_gateway hgN hdel, hdel]

theorem download_layered (hgN : g ≠ c.N) (hsound : ∀ o ∈ orders, Sound c nw server g o)
    (hbacklog : 0 < backlog) :
    Layered (downloadProtocol c nw server g orders backlog) (downloadRank c.N)
      (downloadBelow c nw server g orders backlog) where
  rank_lt k := by
    obtain ⟨second, i⟩ := k
    have hroutes := (hsound _ (List.get_mem orders i)).routes hgN
      (rfl : downloadProtocol c nw server g orders backlog = _)
    cases second with
    | false =>
      have hcaller : (downloadProtocol c nw server g orders backlog).caller (false, i) = .index := rfl
      rcases hroutes.2 with ⟨hcallee, -⟩ | ⟨m, hcallee, -⟩ <;> simp [hcaller, hcallee, downloadRank]
    | true =>
      rcases hroutes.2 with ⟨-, hcaller, -⟩ | ⟨m, -, hcaller, -⟩ <;>
        simp [hcaller, hroutes.1, downloadRank]
  next_caller k k' hk' := by
    obtain ⟨second, i⟩ := k
    have hroutes := (hsound _ (List.get_mem orders i)).routes hgN
      (rfl : downloadProtocol c nw server g orders backlog = _)
    cases second with
    | false =>
      rcases hroutes.2 with ⟨-, -, hnext⟩ | ⟨m, hcallee, hcaller, hnext | hnext⟩
      · simp [hnext] at hk'
      · simp [hnext] at hk'
      · obtain rfl := List.mem_singleton.mp (hnext ▸ hk')
        rw [hcallee, hcaller]
    | true => exact absurd hk' List.not_mem_nil
  below_eq k := by
    obtain ⟨second, i⟩ := k
    cases second with
    | false =>
      rw [downloadBelow]
      rcases hdel : deliveryOf c nw server (orders.get i) with _ | ⟨deliverTo, sent⟩
      · simp only [downloadProtocol, hdel, List.flatMap_nil]
      · simp only [downloadProtocol, hdel]
        split_ifs <;> rfl
    | true => rfl
  backlog_pos := hbacklog

theorem downloadTodo_caller (a : Party c.N) :
    ∀ k ∈ downloadTodo c orders a, (downloadProtocol c nw server g orders backlog).caller k = a := by
  cases a with
  | index =>
    intro k hk
    obtain ⟨i, -, rfl⟩ := List.mem_map.mp hk
    rfl
  | gateway => exact fun _ h => absurd h List.not_mem_nil
  | node n => exact fun _ h => absurd h List.not_mem_nil

/-! ## What reaches the gateway -/

theorem arrivalOf_request (sv peer : Server) (p : XPacket) :
    arrivalOf (Dialogue.fromCaller (sayRequest sv peer p)) = some ⟨p, []⟩ := rfl

theorem arrivalOf_delivery (sv peer : Server) (a : Arrival) :
    arrivalOf (Dialogue.fromCaller (sayDelivery sv peer a)) = some a := by
  rw [sent_delivery, arrivalOf, flatten_largeBufferPackets]

/-- What the gateway takes from a connection on which everything was said. -/
def brought (c : Cluster) (nw : Network) (server : ℕ → Server) (g : ℕ) (orders : List FragmentOrder)
    (backlog : ℕ) (k : DownloadCall orders) : Option Arrival :=
  if (downloadProtocol c nw server g orders backlog).callee k = .gateway then
    arrivalOf (Dialogue.fromCaller (downloadScript c nw server g orders k))
  else none

/-- The fragment an order makes somebody send. -/
def rawDelivery (c : Cluster) (nw : Network) (server : ℕ → Server) (g : ℕ) :
    FragmentOrder → Option Arrival
  | .useLocal _ _ => none
  | .sendFragment fileId fragmentId deliverTo =>
    nw.carryOut c server g (.sendFragment fileId fragmentId deliverTo)
  | .requestFragment dest packet => nw.carryOut c server g (.requestFragment dest packet)

/-- What an order brings to the gateway is what the order comes to when it is carried out. -/
theorem Sound.brought_eq (hgN : g ≠ c.N) {i : Fin orders.length}
    (h : Sound c nw server g (orders.get i)) :
    (downloadBelow c nw server g orders backlog (false, i)).filterMap
      (brought c nw server g orders backlog) = (nw.carryOut c server g (orders.get i)).toList := by
  rcases hi : orders.get i with ⟨dest, packet⟩ | ⟨fileId, fragmentId, deliverTo⟩ | ⟨dest, packet⟩
  · rw [hi] at h
    simp [-List.get_eq_getElem, downloadBelow, brought, downloadProtocol, downloadScript, hi,
      deliveryOf, FragmentOrder.dialled, partyAt_gateway hgN h.2, arrivalOf_request,
      Network.carryOut, h.2]
  · rw [hi] at h
    obtain ⟨hat, a, ha⟩ := h
    simp [-List.get_eq_getElem, downloadBelow, brought, downloadProtocol, downloadScript, hi,
      deliveryOf, FragmentOrder.dialled, partyAt_gateway hgN hat, sayFragment, arrivalOf_delivery,
      Network.carryOut, hat, ha, Except.toOption]
  · rw [hi] at h
    obtain ⟨m, hm⟩ := partyAt_node fun n hn => ⟨(h.2 n hn).1, (h.2 n hn).2.1⟩
    rcases hat : c.nodeAt dest with _ | n
    · simp [-List.get_eq_getElem, downloadBelow, brought, downloadProtocol, hi, deliveryOf,
        FragmentOrder.dialled, hm, hat, Network.carryOut]
    · obtain ⟨-, -, deliverTo, a, hsent, hdel⟩ := h.2 n hat
      simp [-List.get_eq_getElem, downloadBelow, brought, downloadProtocol, downloadScript, hi,
        deliveryOf, FragmentOrder.dialled, hm, hat, hsent, partyAt_gateway hgN hdel, hdel,
        sayFragment, arrivalOf_delivery, Network.carryOut, Except.toOption]

theorem heard_delivery (sv peer : Server) {a : Arrival} (hp : a.packet ≠ [])
    (hraw : ¬ SERVER_BUCKET_SIZE ∣ a.raw.length) : Heard (sayDelivery sv peer a) :=
  heard_append.mpr ⟨heard_append.mpr ⟨heard_append.mpr
    ⟨heard_presentation _ _, heard_confirmed hp _⟩, heard_raw.mpr hraw⟩,
    by simp [Heard, xpacketOk, xpacketSized, commPacket_ne_nil]⟩

theorem heard_request (sv peer : Server) {p : XPacket} (hp : p ≠ []) : Heard (sayRequest sv peer p) :=
  heard_append.mpr ⟨heard_presentation _ _, heard_confirmed hp _⟩

theorem download_loud (hsound : ∀ o ∈ orders, Sound c nw server g o)
    (hraw : ∀ o ∈ orders, ∀ a, rawDelivery c nw server g o = some a →
      ¬ SERVER_BUCKET_SIZE ∣ a.raw.length) :
    Loud (downloadProtocol c nw server g orders backlog) := by
  rintro ⟨second, i⟩
  have h := hsound _ (List.get_mem orders i)
  have hraw := hraw _ (List.get_mem orders i)
  show Heard (downloadScript c nw server g orders (second, i))
  rcases hi : orders.get i with ⟨dest, packet⟩ | ⟨fileId, fragmentId, deliverTo⟩ | ⟨dest, packet⟩
  · rw [hi] at h
    cases second
    · simp only [downloadScript, hi]
      exact heard_request _ _ h.1
    · simp only [downloadScript, hi, deliveryOf]
      exact nofun
  · rw [hi] at h hraw
    obtain ⟨hat, a, ha⟩ := h
    cases second
    · simp only [downloadScript, hi, ha, sayFragment]
      exact heard_delivery _ _ (sendFragment_packet ha).1
        (hraw a (by simp [rawDelivery, Network.carryOut, hat, ha, Except.toOption]))
    · simp only [downloadScript, hi, deliveryOf]
      exact nofun
  · rw [hi] at h hraw
    cases second
    · simp only [downloadScript, hi]
      exact heard_request _ _ h.1
    · rcases hat : c.nodeAt dest with _ | n
      · simp only [downloadScript, hi, deliveryOf, hat, Option.map_none]
        exact nofun
      · obtain ⟨-, -, deliverTo, a, hsent, hdel⟩ := h.2 n hat
        simp only [downloadScript, hi, deliveryOf, hat, Option.map_some, hsent, sayFragment]
        exact heard_delivery _ _ (sendFragment_packet (congrArg Prod.snd hsent)).1
          (hraw a (by simp [rawDelivery, Network.carryOut, hat, hsent, hdel, Except.toOption]))

/-- Only the caller can stay silent. -/
theorem answers {k : DownloadCall orders} {m : XPacket}
    (hm : (false, m) ∈ downloadScript c nw server g orders k) : m.isEmpty = false := by
  have hok : ∀ peer, (xpacketOk peer).isEmpty = false := fun peer =>
    List.isEmpty_eq_false_iff.mpr (commPacket_ne_nil _ _ _ _ _)
  have hrequest : ∀ sv peer p, (false, m) ∈ sayRequest sv peer p → m.isEmpty = false :=
    fun sv peer p hm => by
      simp only [sayRequest, sayPresentation, sayConfirmed, List.mem_append, List.mem_cons,
        Prod.mk.injEq, reduceCtorEq, false_and, true_and, List.not_mem_nil, or_false, false_or,
        or_self] at hm
      exact hm ▸ hok peer
  have hfragment : ∀ sv x, (false, m) ∈ sayFragment server g sv x → m.isEmpty = false :=
    fun sv x hm => by
      cases x with
      | error e => simp [sayFragment] at hm
      | ok a =>
        simp only [sayFragment, sayDelivery, sayPresentation, sayConfirmed, sayRaw, List.mem_append,
          List.mem_cons, List.mem_map, Prod.mk.injEq, reduceCtorEq, false_and, and_false, exists_false,
          true_and, List.not_mem_nil, or_false, false_or, or_self] at hm
        exact hm ▸ hok _
  obtain ⟨second, i⟩ := k
  cases second
  · simp only [downloadScript] at hm
    split at hm
    · exact hrequest _ _ _ hm
    · exact hfragment _ _ hm
    · exact hrequest _ _ _ hm
  · simp only [downloadScript] at hm
    split at hm
    · exact hfragment _ _ hm
    · exact absurd hm List.not_mem_nil

theorem carryOut_of_not_dialled {o : FragmentOrder} (h : c.nodeAt o.dialled = none) :
    nw.carryOut c server g o = none := by
  cases o <;> rw [FragmentOrder.dialled] at h <;> simp [Network.carryOut, h]

theorem todo_brought (hgN : g ≠ c.N) (hsound : ∀ o ∈ orders, Sound c nw server g o) :
    ((downloadTodo c orders .index).flatMap (downloadBelow c nw server g orders backlog)).filterMap
      (brought c nw server g orders backlog) = orders.filterMap (nw.carryOut c server g) := by
  have hall : orders.filterMap (nw.carryOut c server g) =
      (List.finRange orders.length).filterMap fun i => nw.carryOut c server g (orders.get i) := by
    conv_lhs => rw [← List.map_get_finRange orders, List.filterMap_map]
    rfl
  rw [hall, downloadTodo, List.flatMap_map, List.filterMap_flatMap]
  simp only [(hsound _ (List.get_mem ..)).brought_eq hgN]
  rw [← List.filterMap_eq_flatMap_toList, List.filterMap_filter]
  refine List.filterMap_congr fun i _ => ?_
  rcases hat : c.nodeAt (orders.get i).dialled with _ | n
  · rw [carryOut_of_not_dialled hat]
    rfl
  · rfl

theorem download_allCalls :
    allCalls (downloadBelow c nw server g orders backlog) (downloadTodo c orders) =
      ((downloadTodo c orders .index).flatMap (downloadBelow c nw server g orders backlog) :
        Multiset (DownloadCall orders)) := by
  refine Finset.sum_eq_single Party.index (fun a _ ha => ?_) (fun h => absurd (Finset.mem_univ _) h)
  cases a with
  | index => exact absurd rfl ha
  | gateway => rfl
  | node n => rfl

theorem carryOut_of_rawDelivery {o : FragmentOrder} {a : Arrival}
    (h : rawDelivery c nw server g o = some a) : nw.carryOut c server g o = some a := by
  cases o with
  | useLocal dest packet => cases h
  | sendFragment fileId fragmentId deliverTo => exact h
  | requestFragment dest packet => exact h

theorem toOption_eq_some {ε α : Type*} {x : Except ε α} {a : α} (h : x.toOption = some a) :
    x = .ok a := by
  cases x with
  | error e => cases h
  | ok b => exact congrArg _ (Option.some.inj h)

theorem rawDelivery_type {o : FragmentOrder} {a : Arrival}
    (h : rawDelivery c nw server g o = some a) : commType a.packet = TYPE_DECLARE_FRAG := by
  cases o with
  | useLocal dest packet => cases h
  | sendFragment fileId fragmentId deliverTo =>
    simp only [rawDelivery, Network.carryOut] at h
    split_ifs at h
    exact (sendFragment_packet (toOption_eq_some h)).2
  | requestFragment dest packet =>
    simp only [rawDelivery, Network.carryOut, Option.bind_eq_bind, Option.bind_eq_some_iff] at h
    obtain ⟨n, -, h⟩ := h
    split_ifs at h
    exact (sendFragment_packet (toOption_eq_some h)).2

section run

variable {as : List (Party c.N)} {s : State (Party c.N) (DownloadCall orders) XPacket}

theorem arrivalsOf_eq (hgN : g ≠ c.N) (hsound : ∀ o ∈ orders, Sound c nw server g o)
    (hbacklog : 0 < backlog)
    (hrun : Transition.run (State.step (downloadProtocol c nw server g orders backlog))
      (.start (downloadProtocol c nw server g orders backlog) (downloadTodo c orders)) as = some s) :
    arrivalsOf c nw server g orders backlog s =
      s.served.filterMap (brought c nw server g orders backlog) := by
  refine List.filterMap_congr fun k hk => ?_
  rw [got_of_served (download_layered hgN hsound hbacklog) downloadTodo_caller hrun hk
    fun m hm => answers hm]
  rfl

/-- When nobody can move any more, everything that is sent has come, in some order. -/
theorem arrivals_perm (hgN : g ≠ c.N) (hsound : ∀ o ∈ orders, Sound c nw server g o)
    (hraw : ∀ o ∈ orders, ∀ a, rawDelivery c nw server g o = some a →
      ¬ SERVER_BUCKET_SIZE ∣ a.raw.length) (hbacklog : 0 < backlog)
    (hrun : Transition.run (State.step (downloadProtocol c nw server g orders backlog))
      (.start (downloadProtocol c nw server g orders backlog) (downloadTodo c orders)) as = some s)
    (hstuck : ∀ a, s.step (downloadProtocol c nw server g orders backlog) a = none) :
    (arrivalsOf c nw server g orders backlog s).Perm (orders.filterMap (nw.carryOut c server g)) := by
  have hserved := served_of_stuck (download_layered hgN hsound hbacklog) (download_loud hsound hraw)
    downloadTodo_caller hrun hstuck
  rw [download_allCalls] at hserved
  rw [arrivalsOf_eq hgN hsound hbacklog hrun, ← todo_brought hgN hsound]
  exact (Multiset.coe_eq_coe.mp hserved).filterMap _

end run

end download

/-! ## After any run -/

namespace Cluster.Stored

variable {c : Cluster} {s : FileStore} {nw : Network} {f : StoredFile} {j : ℕ} {d : XIndexData} {g : ℕ}

/-- The order for a fragment: all the index sends is sound, and the fragment is sent unless the gateway
has it or nobody is there. -/
theorem order (h : c.Stored s nw) (hN : c.N ≤ 254) (hj : s.files[j]? = some f)
    (hips : ∀ n, 1 ≤ n → n < c.N → d.peerIp n = if n ∈ s.alive then c.addr n else Address.zero)
    (hg : g ∈ s.alive) (hgN : g ≠ c.N) (server : ℕ → Server) {i : ℕ} (hi : i < f.count) {o : FragmentOrder}
    (ho : o = orderFragment nw.index d (j + 1 : ℕ) g (f.entry i (s.asked f i))) :
    Sound c nw server g o ∧
      rawDelivery c nw server g o = if s.asked f i = g then none else nw.carryOut c server g o := by
  have hcarry := h.carryOut hN hj hips hg hgN server hi
  rw [← ho] at hcarry
  obtain ⟨hg1, hgle⟩ := h.left.bounds hg
  have hgat : c.nodeAt (d.peerIp g) = some g := by
    rw [hips g hg1 (lt_of_le_of_ne hgle hgN), if_pos hg, nodeAt_addr hg1 hgle]
  simp only [orderFragment, StoredFile.entry, toU64_natCast (show g < 2 ^ 64 by omega),
    h.index.nodeId] at ho
  split_ifs at ho with hself hidx <;> subst ho
  · exact ⟨⟨commPacket_ne_nil _ _ _ _ _, hgat⟩, by rw [if_pos hself]; rfl⟩
  · refine ⟨⟨hgat, ?_⟩, by rw [if_neg hself]; rfl⟩
    rw [if_pos (hidx ▸ h.left.index)] at hcarry
    obtain ⟨a, ha, -⟩ := hcarry
    simp only [Network.carryOut, hgat, if_true] at ha
    exact ⟨a, toOption_eq_some ha⟩
  · refine ⟨⟨commPacket_ne_nil _ _ _ _ _, fun n hn => ?_⟩, by rw [if_neg hself]; rfl⟩
    obtain ⟨h1, hle⟩ := h.asked_bounds hj hi
    rw [hips _ h1 (lt_of_le_of_ne hle hidx)] at hn hcarry
    split_ifs at hn with halive
    · obtain rfl : s.asked f i = n := by rw [nodeAt_addr h1 hle] at hn; exact Option.some.inj hn
      rw [if_pos halive, if_pos halive] at hcarry
      obtain ⟨a, ha, -⟩ := hcarry
      simp only [Network.carryOut, nodeAt_addr h1 hle, Option.bind_eq_bind, Option.bind_some] at ha
      split_ifs at ha with hdel
      exact ⟨hself, hidx, _, a, Prod.ext rfl (toOption_eq_some ha), hdel⟩
    · rw [nodeAt_zero] at hn
      cases hn

theorem mem_orders {orders : List FragmentOrder} (horders : orders = (List.range f.count).map fun i =>
      orderFragment nw.index d (j + 1 : ℕ) g (f.entry i (s.asked f i))) {o : FragmentOrder}
    (ho : o ∈ orders) :
    ∃ i < f.count, orderFragment nw.index d (j + 1 : ℕ) g (f.entry i (s.asked f i)) = o := by
  rw [horders] at ho
  obtain ⟨i, hi, ho⟩ := List.mem_map.mp ho
  exact ⟨i, List.mem_range.mp hi, ho⟩

/-- What an order brings is its fragment. -/
theorem order_carried (h : c.Stored s nw) (hN : c.N ≤ 254) (hj : s.files[j]? = some f)
    (hips : ∀ n, 1 ≤ n → n < c.N → d.peerIp n = if n ∈ s.alive then c.addr n else Address.zero)
    (hg : g ∈ s.alive) (hgN : g ≠ c.N) (server : ℕ → Server) {i : ℕ} (hi : i < f.count) {a : Arrival}
    (ha : nw.carryOut c server g
      (orderFragment nw.index d (j + 1 : ℕ) g (f.entry i (s.asked f i))) = some a) :
    f.Delivers (nw.fs g) (j + 1) i a := by
  have hcarry := h.carryOut hN hj hips hg hgN server hi
  split_ifs at hcarry with halive
  · obtain ⟨a', ha', hdel⟩ := hcarry
    rwa [Option.some.inj (ha.symm.trans ha')]
  · rw [hcarry] at ha
    cases ha

/-- A fragment that is sent has the size of its part. -/
theorem order_raw (h : c.Stored s nw) (hN : c.N ≤ 254) (hj : s.files[j]? = some f)
    (hips : ∀ n, 1 ≤ n → n < c.N → d.peerIp n = if n ∈ s.alive then c.addr n else Address.zero)
    (hg : g ∈ s.alive) (hgN : g ≠ c.N) (server : ℕ → Server) {i : ℕ} (hi : i < f.count) {a : Arrival}
    (ha : rawDelivery c nw server g
      (orderFragment nw.index d (j + 1 : ℕ) g (f.entry i (s.asked f i))) = some a) :
    a.raw.length = f.pieceSize i := by
  have hf := h.stored f (List.mem_of_getElem? hj)
  rcases h.order_carried hN hj hips hg hgN server hi (carryOut_of_rawDelivery ha) with
    ⟨htype, -⟩ | ⟨-, -, hraw⟩
  · rw [rawDelivery_type ha] at htype
    cases htype
  · rw [hraw, hf.part_length hi]

/-- A download at the gateway `g`, whatever the order in which the nodes take their steps. -/
theorem download (h : c.Stored s nw) (hN : c.N ≤ 254) (hj : s.files[j]? = some f) (hg : g ∈ s.alive)
    (hgN : g ≠ c.N) (harrives : f.Arrives) (server : ℕ → Server) :
    ∃ frags orders,
      serverIndexRequestFragments nw.index nw.fnetidx (j + 1 : ℕ) f.count g = some (frags, orders) ∧
      ∀ (backlog : ℕ), 0 < backlog → ∀ (as : List (Party c.N))
        (x : State (Party c.N) (DownloadCall orders) XPacket),
        Transition.run (State.step (downloadProtocol c nw server g orders backlog))
          (.start (downloadProtocol c nw server g orders backlog) (downloadTodo c orders)) as = some x →
        as.length ≤ allSteps (downloadProtocol c nw server g orders backlog)
          (downloadBelow c nw server g orders backlog) (downloadTodo c orders) ∧
        ((∀ a, x.step (downloadProtocol c nw server g orders backlog) a = none) →
          ∃ st, (arrivalsOf c nw server g orders backlog x).foldlM
            (serverWaitRequestFragments (nw.fs g)) (typeRequestFileGateway
              (xpacketRequestFileResponse nw.index (j + 1 : ℕ) f.bytes.length f.count)) = some st ∧
          bufferToClient st = s.read f) := by
  obtain ⟨d, hd, -, hips⟩ := h.index.indexData
  obtain ⟨frags, orders, hreq, hread⟩ := h.read hN hj hg hgN server
  obtain ⟨-, horders⟩ := Prod.mk.inj (Option.some.inj (hreq.symm.trans (h.requestFragments_eq hN hj hd g)))
  have hsound : ∀ o ∈ orders, Sound c nw server g o := by
    intro o ho
    obtain ⟨i, hi, rfl⟩ := mem_orders horders ho
    exact (h.order hN hj hips hg hgN server hi rfl).1
  refine ⟨frags, orders, hreq, fun backlog hbacklog as x hrun =>
    ⟨run_length_le (download_layered hgN hsound hbacklog) downloadTodo_caller hrun, fun hstuck => ?_⟩⟩
  refine hread _ (arrivals_perm hgN hsound (fun o ho a ha hdvd => ?_) hbacklog hrun hstuck)
  obtain ⟨i, hi, rfl⟩ := mem_orders horders ho
  have hsize := h.order_raw hN hj hips hg hgN server hi ha
  exact harrives.fragment i hi (hsize ▸ hdvd)

end Cluster.Stored

end DSS
