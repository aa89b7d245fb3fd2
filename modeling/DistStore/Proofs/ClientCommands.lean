import DistStore.Model.Nodes
import DistStore.Proofs.LargeSend

/-! What the client's commands write on a connection that works, and what `request file` saves. -/

namespace DSS

open Bytes

/-! ## Sending -/

theorem sendBytes_connected (cut : ℕ → Bool) (stream data context : List UInt8) :
    (ClientState.connectedTo cut stream).sendBytes .complete data context =
      (CommandResult.success (goString "sent " ++ goString (toString data.length) ++
        goString " bytes (" ++ context ++ goString ")"), [data]) := by
  simp [ClientState.sendBytes, ClientState.connectedTo]

theorem success_ne_error (msg : List UInt8) : (CommandResult.success msg).status ≠ .error := nofun

theorem writtenFile_eq (path : List UInt8) {file : List UInt8 × List UInt8} (hname : file.1.length ≤ 255) :
    writtenFile path file = (goPacket CreateFilePacket (⟨toFixed200 file.1,
      UInt64.ofNat file.2.length, char200_length _⟩ : FileDeclarationPacket)).serialize ::
        handleFileTransmission file.2 := by
  have hread : LocalFile.readFull ⟨some (file.1, file.2.length), file.2⟩ file.2.length = some file.2 := by
    rw [LocalFile.readFull, if_neg (lt_irrefl _), List.take_length]
  have hchunks : ((handleFileTransmission file.2).zipIdx.flatMap fun p => [p.1]) =
      handleFileTransmission file.2 := by
    rw [← List.map_eq_flatMap, List.zipIdx_map_fst]
  simp only [writtenFile, ClientState.handleSend, if_pos, Option.elim_some,
    ClientState.handleFileTransmission, allWritten, sendBytes_connected, hread, if_neg (not_lt.mpr hname)]
  rw [if_neg (success_ne_error _), hchunks]
  rfl

theorem goString_auth_ne : goString "auth" ≠ goString "file" ∧ goString "auth" ≠ goString "raw" := by
  decide

theorem readPacket_xpacketSized {T : Type} [Serializable T] {content : T} {sv : Server} {type : ℕ}
    {c : List UInt8} (hc : CONTENT + c.length ≤ SIZEOF_COMM + 2) {d : CommunicationPacket T}
    (hd : CommunicationPacket.unserialize content (xpacketSized sv type c) = .ok d)
    (rest : List UInt8) {cut : ℕ → Bool} (hcut : cut 1 = false) :
    readPacket content ⟨0, xpacketSized sv type c ++ rest, cut⟩ =
      .ok (d, ⟨SIZEOF_COMM + 2, rest, cut⟩) := by
  have hlen : (xpacketSized sv type c).length = SIZEOF_COMM + 2 := commPacket_length hc
  have hread : readPacket content ⟨0, xpacketSized sv type c ++ rest, cut⟩ = _ :=
    readPacket_eq rfl (by rw [hlen]; decide) (rd_size_commPacket hc (by decide)) hcut
  rw [hread, hd]
  simp [Except.map, Conn.advance, hlen]

theorem writtenAuth_eq {sv : Server} (hid : sv.me.nodeId < 2 ^ 64) :
    writtenAuth (xpacketOk sv) = [(goPacket PresentItself (⟨⟩ : Empty)).serialize] := by
  obtain ⟨d, hd, hreads, -⟩ := unserialize_xpacketSized (⟨⟩ : Empty) TYPE_OK (c := []) (by decide) hid rfl
  have hread : readPacket (⟨⟩ : Empty) ⟨0, xpacketSized sv TYPE_OK [] ++ [], fun _ => false⟩ = _ :=
    readPacket_xpacketSized (by decide) hd [] rfl
  rw [List.append_nil] at hread
  simp only [writtenAuth, ClientState.handleSend, if_neg goString_auth_ne.1, if_neg goString_auth_ne.2,
    if_pos, ClientState.handleAuth, allWritten, sendBytes_connected]
  simp only [ClientState.connectedTo, xpacketOk, hread, hreads.type]
  rfl

/-! ## Requesting -/

variable {sv : Server} {cut : ℕ → Bool} {name : List UInt8}

/-- A request has one outcome. -/
theorem RequestEnds.iff_eq {stream : List UInt8} {args : List (List UInt8)} {o o' : CommandOutcome}
    (h : RequestEnds cut stream args o) : RequestEnds cut stream args o' ↔ some o = some o' := by
  constructor
  · intro h'
    exact (h []).symm.trans (h' [])
  · intro heq
    exact Option.some.inj heq ▸ h

theorem xpacketRequestFileResponse_eq (sv : Server) (fileId : ℤ) (filesize : ℕ) (fragCount : ℤ) :
    xpacketRequestFileResponse sv fileId filesize fragCount = xpacketSized sv TYPE_RESPONSE_FILE
      (XResponseRequestFile.bytes ⟨filesize, toU64 fileId, u8 (toU64 fragCount)⟩) := rfl

theorem handleRequest_refused (hid : sv.me.nodeId < 2 ^ 64) (hcut : cut 1 = false) (name : List UInt8) :
    RequestEnds cut (xpacketNotOk sv) [goString "file", name] (requestRefused name) := by
  intro more
  have ht := unserialize_fileResponse (⟨0, 0, 0⟩ : FileResponsePacket)
    (b := content (xpacketSized sv TYPE_NOT_OK [])) (by
      rw [xpacketSized, content_commPacket, List.length_append, List.length_replicate]
      decide)
  obtain ⟨d, hd, hreads, -⟩ := unserialize_xpacketSized _ TYPE_NOT_OK (c := []) (by decide) hid ht
  have hread := readPacket_xpacketSized (by decide) hd more hcut
  simp only [ClientState.handleRequest, ClientState.handleFileRequest, allWritten, sendBytes_connected]
  simp only [ClientState.connectedTo, xpacketNotOk, hread, hreads.type]
  rfl

/-- What the client saves is what comes after the response, if that is as long as the response says. -/
theorem handleRequest_confirmed (hid : sv.me.nodeId < 2 ^ 64) (hcut : cut 1 = false)
    {fileId filesize fragCount : ℕ} (hfile : fileId < 2 ^ 31) (hsize : filesize ≤ 2 ^ 48)
    (hcount : fragCount ≤ 255) (sent : List UInt8) (name : List UInt8) :
    (ClientState.connectedTo cut
        (xpacketRequestFileResponse sv fileId filesize fragCount ++ sent)).handleRequest
        allWritten (fun _ => true) [goString "file", name] =
      some (match readLargeBuffer ⟨SIZEOF_COMM + 2, sent, cut⟩ filesize with
        | .error _ => ⟨.failure (goString "Error reading file."), [requestOf name, goPacketOk.serialize],
            none⟩
        | .ok (buffer, _) => requestSaved name buffer) := by
  obtain ⟨d, hd, hreads, hdsize, -⟩ := unserialize_xpacketRequestFileResponse
    (⟨0, 0, 0⟩ : FileResponsePacket) hid (Int.natCast_nonneg fileId) (by omega)
    (show filesize < 2 ^ 64 by omega) (Int.natCast_nonneg fragCount) (by omega)
  rw [xpacketRequestFileResponse_eq] at hd hreads
  have hread := readPacket_xpacketSized (by simp [XResponseRequestFile.bytes, CONTENT, SIZEOF_COMM]) hd
    sent hcut
  simp only [ClientState.handleRequest, ClientState.handleFileRequest, allWritten, sendBytes_connected]
  simp only [ClientState.connectedTo, xpacketRequestFileResponse_eq, hread, hreads.type, hdsize]
  rw [if_neg (by simp), if_pos trivial, if_neg (success_ne_error _), if_neg (not_not.mpr rfl),
    if_neg (success_ne_error _), if_neg (by omega)]
  rcases readLargeBuffer ⟨SIZEOF_COMM + 2, sent, cut⟩ filesize with e | ⟨buffer, conn⟩ <;> rfl

theorem readLargeBuffer_nil (pos : ℕ) (cut : ℕ → Bool) {size : ℕ} (h : 0 < size) :
    readLargeBuffer ⟨pos, [], cut⟩ size = .error .read := by
  obtain ⟨n, rfl⟩ := Nat.exists_eq_succ_of_ne_zero h.ne'
  rfl

section confirmed

variable (hid : sv.me.nodeId < 2 ^ 64) (hcut : cut 1 = false) {fileId fragCount : ℕ}
  (hfile : fileId < 2 ^ 31) (hcount : fragCount ≤ 255)
include hid hcut hfile hcount

/-- The request is over with the last byte of the file. -/
theorem requestEnds_saved {bytes : List UInt8} (hsize : bytes.length ≤ 2 ^ 48) (name : List UInt8) :
    RequestEnds cut (xpacketRequestFileResponse sv fileId bytes.length fragCount ++ bytes)
      [goString "file", name] (requestSaved name bytes) := by
  intro more
  obtain ⟨conn', hread, -⟩ := readLargeBuffer_eq ⟨SIZEOF_COMM + 2, bytes ++ more, cut⟩ rfl
  rw [List.append_assoc, handleRequest_confirmed hid hcut hfile hsize hcount, hread]

/-- It is not over while no byte came: the rest of the connection decides. -/
theorem not_requestEnds (name : List UInt8) {size : ℕ} (hpos : 0 < size) (hsize : size ≤ 2 ^ 48)
    (o : CommandOutcome) :
    ¬ RequestEnds cut (xpacketRequestFileResponse sv fileId size fragCount) [goString "file", name] o := by
  intro h
  have hclosed := h []
  rw [handleRequest_confirmed hid hcut hfile hsize hcount, readLargeBuffer_nil _ cut hpos] at hclosed
  have hsent := h (List.replicate size 0)
  rw [handleRequest_confirmed hid hcut hfile hsize hcount] at hsent
  obtain ⟨conn', hread, -⟩ := readLargeBuffer_eq ⟨SIZEOF_COMM + 2, List.replicate size 0, cut⟩
    (List.append_nil _).symm
  rw [List.length_replicate] at hread
  rw [hread, ← hclosed] at hsent
  cases hsent

end confirmed

end DSS
