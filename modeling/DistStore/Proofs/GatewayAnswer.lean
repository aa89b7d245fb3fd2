import DistStore.Proofs.TableRange

/-! What a gateway tells its client about a file it asked the index for. Only a reply of type
`TYPE_NOT_OK` is told from any other. -/

namespace DSS

open MainLoop

/-- The packet the gateway takes for the index's reply. A closed or broken connection leaves
the cleared packet; a failed dial none. -/
def indexReply (io : PassIo) (st : MainLoop) : Option XPacket :=
  match io.dial st.sv.index.ip with
  | none => none
  | some _ => io.index[1]?.map serverWaitFromSocket

def IsFileResponse (p : XPacket) : Prop := commType p = TYPE_RESPONSE_FILE

instance (p : XPacket) : Decidable (IsFileResponse p) := inferInstanceAs (Decidable (_ = _))

/-- One packet goes to the client: the index's response if it sent one, and else a refusal after
which the node is idle. -/
structure AnswersClient (reply : Option XPacket) (st : MainLoop) (sent : List XPacket) : Prop where
  response : ∀ q, reply = some q → IsFileResponse q →
    ∃ p, sent = [p] ∧ IsFileResponse p ∧
      XResponseRequestFile.ofContent (content p) = XResponseRequestFile.ofContent (content q)
  refusal : (∀ q, reply = some q → ¬ IsFileResponse q) →
    ∃ p, sent = [p] ∧ commType p = TYPE_NOT_OK ∧ st.sv.state = .idle

def AnswersTruthfully (io : PassIo) (st : MainLoop) : Prop :=
  ∃ st' sent, serverReceivedPacket io st = some st' ∧ requestGatewaySent io st = some sent ∧
    AnswersClient (indexReply io st) st' sent

/-- A refusal, or a response for a file whose id the `int` of the gateway can hold. -/
def FaithfulReply (q : XPacket) : Prop :=
  commType q = TYPE_NOT_OK ∨ IsFileResponse q ∧
    ((XResponseRequestFile.ofContent (content q)).fileId < 2 ^ 31 ∨
      2 ^ 64 - 2 ^ 31 ≤ (XResponseRequestFile.ofContent (content q)).fileId)

instance (q : XPacket) : Decidable (FaithfulReply q) :=
  inferInstanceAs (Decidable (_ ∨ _ ∧ (_ ∨ _)))

theorem toU64_cInt_iff {x : ℕ} (h : x < 2 ^ 64) :
    toU64 (cInt x) = x ↔ x < 2 ^ 31 ∨ 2 ^ 64 - 2 ^ 31 ≤ x := by
  rw [toU64, cInt]
  split_ifs <;> omega

/-- The response the gateway builds carries the id as its `int` had it. -/
theorem ofContent_gatewayResponse (sv : Server) (q : XPacket) :
    let requested := typeRequestFileGateway q
    let c := XResponseRequestFile.ofContent (content q)
    XResponseRequestFile.ofContent (content (xpacketRequestFileResponse sv requested.fileId
      requested.fileSize requested.fragmentCount)) =
      ⟨c.fileSize, toU64 (cInt c.fileId), c.fragmentCountTotal⟩ := by
  intro requested c
  have hsize : c.fileSize < 2 ^ 64 := Bytes.rd_lt 0 8 _
  have hcount : c.fragmentCountTotal < 2 ^ 8 := Bytes.rd_lt 16 1 _
  have hid : toU64 (cInt c.fileId) < 2 ^ 64 := by
    rw [toU64]
    omega
  rw [xpacketRequestFileResponse, xpacketSized, content_commPacket,
    XResponseRequestFile.ofContent_bytes]
  show XResponseRequestFile.mk (u64 c.fileSize) (u64 (toU64 (cInt c.fileId)))
    (u8 (u8 (toU64 c.fragmentCountTotal))) = _
  rw [u64_of_lt hsize, u64_of_lt hid, toU64_natCast (by omega), u8_of_lt hcount, u8_of_lt hcount]

theorem commType_xpacketSized (sv : Server) (type : ℕ) (c : List UInt8) :
    commType (xpacketSized sv type c) = type % 256 := commType_commPacket ..

section handler

variable {io : PassIo} {st : MainLoop}

theorem requestGateway_unreached (h : io.dial st.sv.index.ip = none) :
    receivedRequestGateway io st = some (st.setState .idle) ∧ requestGatewaySent io st = some [] := by
  rw [receivedRequestGateway, requestGatewaySent, serverDialIndex, h]
  exact ⟨rfl, rfl⟩

/-- The gateway while it holds connection `fd` to the index. -/
def MainLoop.dialed (st : MainLoop) (fd : ℕ) : MainLoop :=
  st.withServer { st.sv with index := { st.sv.index with streamFd := some fd, statusOpen := true } }

theorem requestGateway_refused {fd : ℕ} {r res : Recv} {rs : List Recv}
    (h : io.dial st.sv.index.ip = some fd) (hindex : io.index = r :: res :: rs)
    (htype : commType (serverWaitFromSocket res) = TYPE_NOT_OK) :
    receivedRequestGateway io st = some ((st.dialed fd).setState .idle) ∧
      requestGatewaySent io st = some [xpacketNotOk (st.dialed fd).sv] := by
  simp only [receivedRequestGateway, requestGatewaySent, serverDialIndex, h, hindex, htype,
    Option.map_some, if_true]
  exact ⟨rfl, rfl⟩

theorem requestGateway_confirmed {fd : ℕ} {r res : Recv} {rs : List Recv}
    (h : io.dial st.sv.index.ip = some fd) (hindex : io.index = r :: res :: rs)
    (htype : commType (serverWaitFromSocket res) ≠ TYPE_NOT_OK) :
    let requested := typeRequestFileGateway (serverWaitFromSocket res)
    receivedRequestGateway io st = some { (st.dialed fd).setState .waitRequestFragments with
        requested := requested
        requestFd := st.fromFd } ∧
      requestGatewaySent io st = some [xpacketRequestFileResponse (st.dialed fd).sv
        requested.fileId requested.fileSize requested.fragmentCount] := by
  simp only [receivedRequestGateway, requestGatewaySent, serverDialIndex, h, hindex, htype,
    Option.map_some, if_false]
  exact ⟨rfl, rfl⟩

end handler

def requestedNode : MainLoop :=
  { servingNode.receive 9 (requestPacket CLIENT_NODE_ID) with fromFd := 9 }

/-- The index answers the presentation, then gives `reply`. -/
def replyIo (reply : Recv) : PassIo :=
  { passIo false none none none with
    index := [some (xpacketOk (Cluster.three.bootedServer 3)), reply] }

end DSS
