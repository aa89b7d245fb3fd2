import DistStore.Model.IndexRun
import DistStore.Model.LargeSend

/-! `client/cmd/send.go` and `client/cmd/request.go`: the commands `send` and `request`. Go's
strings are lists of bytes. What a command shows on the console and the text of a system error are left
out, and the connection after the command. -/

namespace DSS

def goString (s : String) : List UInt8 := s.toList.flatMap String.utf8EncodeChar

inductive CommandStatus where
  | success | warning | error
  deriving DecidableEq, Repr

/-- `CommandResult`, without its error. -/
structure CommandResult where
  status : CommandStatus
  message : List UInt8
  deriving DecidableEq, Repr

namespace CommandResult

def success (msg : List UInt8) : CommandResult := ⟨.success, msg⟩
def warning (msg : List UInt8) : CommandResult := ⟨.warning, msg⟩
def failure (msg : List UInt8) : CommandResult := ⟨.error, msg⟩

end CommandResult

open CommandResult

inductive ConnectionState where
  | disconnected | connecting | connected
  deriving DecidableEq, Repr

/-- `ClientState`: the connection with all that will arrive on it. -/
structure ClientState where
  state : ConnectionState
  conn : Option Conn

/-- `Packet`: the sender identifies a client. -/
def goPacket {T : Type} (typ : UInt8) (content : T) : CommunicationPacket T :=
  ⟨0, UInt64.ofNat CLIENT_NODE_ID, typ, content⟩

def PresentItself : UInt8 := 1

def goPacketOk : CommunicationPacket Empty := goPacket StatusOK ⟨⟩

/-- A file of the disk: what `Stat` returns, its name and size, and what can be read. -/
structure LocalFile where
  info : Option (List UInt8 × ℕ)
  content : List UInt8
  deriving DecidableEq, Repr

/-- `io.ReadFull` into a buffer of `n` bytes. -/
def LocalFile.readFull (f : LocalFile) (n : ℕ) : Option (List UInt8) :=
  if f.content.length < n then none else some (f.content.take n)

structure SavedFile where
  path : List UInt8
  name : List UInt8
  bytes : List UInt8
  deriving DecidableEq, Repr

structure CommandOutcome where
  result : CommandResult
  written : List (List UInt8)
  saved : Option SavedFile
  deriving DecidableEq, Repr

namespace ClientState

variable (st : ClientState)

def sendBytes (outcome : SendOutcome) (data : List UInt8) (context : List UInt8) :
    CommandResult × List (List UInt8) :=
  if st.state ≠ .connected ∨ st.conn.isNone then (failure (goString "not connected"), [])
  else
    match outcome with
    | .complete => (success (goString "sent " ++ goString (toString data.length) ++
        goString " bytes (" ++ context ++ goString ")"), [data])
    | .error after => (failure (goString "failed to send " ++ context), [data.take after])

def handleSendRaw (outcomes : ℕ → SendOutcome) (args : List (List UInt8)) : CommandOutcome :=
  if args.length < 1 then ⟨failure (goString "usage: sendraw <message>"), [], none⟩
  else
    let (result, written) :=
      st.sendBytes (outcomes 0) (List.intercalate (goString " ") args) (goString "raw")
    ⟨result, written, none⟩

/-- `HandleAuth`. What the send returns is not looked at; `none` is a panic. -/
def handleAuth (outcomes : ℕ → SendOutcome) : Option CommandOutcome :=
  let (_, written) :=
    st.sendBytes (outcomes 0) (goPacket PresentItself (⟨⟩ : Empty)).serialize (goString "auth")
  match st.conn with
  | none => none
  | some conn =>
    match readPacket (⟨⟩ : Empty) conn with
    | .error .panic => none
    | .error _ => some ⟨failure (goString "Error reading server response"), written, none⟩
    | .ok (c, _) =>
      if c.type ≠ StatusOK then some ⟨failure (goString "Failed presentation."), written, none⟩
      else some ⟨success (goString "Presentation accepcted!"), written, none⟩

/-- `HandleFileTransmission`. The results of the writes after the declaration are not looked at. -/
def handleFileTransmission (outcomes : ℕ → SendOutcome) (openFile : List UInt8 → Option LocalFile)
    (args : List (List UInt8)) : CommandOutcome :=
  match args with
  | [] => ⟨warning (goString "Usage: send file <path>"), [], none⟩
  | filePath :: _ =>
    match openFile filePath with
    | none => ⟨failure (goString "Failed to open file"), [], none⟩
    | some file =>
      match file.info with
      | none => ⟨failure (goString "Failed to stat file"), [], none⟩
      | some (name, size) =>
        if 255 < name.length then
          ⟨failure (goString "File name larger than 255 chracters."), [], none⟩
        else
          match file.readFull size with
          | none => ⟨failure (goString "Failed to read file"), [], none⟩
          | some buffer =>
            let pkt : FileDeclarationPacket :=
              ⟨toFixed200 name, UInt64.ofNat size, char200_length _⟩
            let (ok, declared) :=
              st.sendBytes (outcomes 0) (goPacket CreateFilePacket pkt).serialize (goString "file")
            if ok.status = .error then ⟨ok, declared, none⟩
            else
              let chunks := DSS.handleFileTransmission buffer
              let sent := chunks.zipIdx.flatMap fun p =>
                (st.sendBytes (outcomes (p.2 + 1)) p.1 (goString "file_contents")).2
              ⟨warning (goString "Sending done."), declared ++ sent, none⟩

/-- `HandleFileRequest`, where `saves` says whether `SaveBufferToFile` succeeds; `none` is a panic. -/
def handleFileRequest (outcomes : ℕ → SendOutcome) (saves : SavedFile → Bool)
    (args : List (List UInt8)) : Option CommandOutcome :=
  match args with
  | [] => some ⟨warning (goString "Usage: req file <name> <?path>"), [], none⟩
  | fileName :: rest =>
    let storeAt := rest.headD (goString "./files")
    let pkt : FileRequestPacket := ⟨toFixed200 fileName, char200_length _⟩
    let (ok, asked) :=
      st.sendBytes (outcomes 0) (goPacket RequestFilePacket pkt).serialize (goString "request")
    if ok.status = .error then some ⟨ok, asked, none⟩
    else
      match st.conn with
      | none => none
      | some conn =>
        match readPacket (⟨0, 0, 0⟩ : FileResponsePacket) conn with
        | .error .panic => none
        | .error _ => some ⟨failure (goString "Error reading FILE DESCRIPTOR"), asked, none⟩
        | .ok (frp, conn) =>
          if frp.type ≠ RequestFilePacketRes then
            some ⟨failure (goString "Server responded with NOT OK"), asked, none⟩
          else
            let (ok, confirmed) :=
              st.sendBytes (outcomes 1) goPacketOk.serialize (goString "request")
            if ok.status = .error then some ⟨ok, asked ++ confirmed, none⟩
            -- `make`: a length that is negative, or larger than what can be addressed
            else if 2 ^ 48 < frp.content.fileSize.toNat then none
            else
              match readLargeBuffer conn frp.content.fileSize.toNat with
              | .error _ => some ⟨failure (goString "Error reading file."), asked ++ confirmed, none⟩
              | .ok (buf, _) =>
                let file : SavedFile := ⟨storeAt, fileName, buf⟩
                if saves file then
                  some ⟨success (goString "File successfully saved to " ++ storeAt ++
                    goString " as " ++ fileName), asked ++ confirmed, some file⟩
                else some ⟨failure (goString "Error saving buffer."), asked ++ confirmed, none⟩

def invalidAction (subcommand : List UInt8) : CommandOutcome :=
  ⟨warning (goString "invalid action :" ++ subcommand ++ goString ". not a valid subcommand."), [], none⟩

def handleSend (outcomes : ℕ → SendOutcome) (openFile : List UInt8 → Option LocalFile)
    (args : List (List UInt8)) : Option CommandOutcome :=
  match args with
  | [] => some ⟨failure (goString "usage: send <command> [,params]"), [], none⟩
  | subcommand :: args =>
    if subcommand = goString "file" then some (st.handleFileTransmission outcomes openFile args)
    else if subcommand = goString "raw" then some (st.handleSendRaw outcomes args)
    else if subcommand = goString "auth" then st.handleAuth outcomes
    else some (invalidAction subcommand)

def handleRequest (outcomes : ℕ → SendOutcome) (saves : SavedFile → Bool)
    (args : List (List UInt8)) : Option CommandOutcome :=
  if st.state ≠ .connected ∨ st.conn.isNone then some ⟨failure (goString "not connected"), [], none⟩
  else
    match args with
    | subcommand :: arg :: args =>
      if subcommand = goString "file" then st.handleFileRequest outcomes saves (arg :: args)
      else some (invalidAction subcommand)
    | _ => some ⟨failure (goString "usage: request <command> [,params]"), [], none⟩

end ClientState

end DSS
