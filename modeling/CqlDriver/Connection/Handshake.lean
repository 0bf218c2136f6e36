import CqlDriver.Math.Ends
import CqlDriver.Protocol.Responses

/-!
# The handshake of a connection

`Connection::ready` connects, asks for the options of the server, may choose a compressor,
starts up, lets the authenticator run, and may set the default keyspace. Any exception on
the way closes the connection and is wrapped into another one.

A response is held by a `Reusable`, a pointer that a cast moves out of it. Using the pointer
after that is undefined, and so is decoding some result bodies. What the server sends is the
list of what the waits on stream zero decode, and the peer also decides whether connecting
and sending succeed.

## Main definitions

* `Reusable` — a handle and what is left of it
* `AllowAllAuthenticator.authenticate`, `PasswordAuthenticator.authenticate`
* `Connection.ready`
* `HandshakeContract` — what `ready` promises

## Main results

* `Connection.handshakeContract_iff` — when it keeps the promise
* `Connection.not_handshakeContract_otherKind` — a result of another kind in answer to the
  query for the keyspace
-/

namespace CqlDriver

open Math (Ends ends_bind ends_get ends_ite ends_modify)

/-! ## Handles -/

/-- A pointer to a reusable object, or null. -/
structure Reusable (α : Type) where
  ptr : Option α

/-- Cast to another type: the new handle, and what is left of this one. -/
def Reusable.cast {α : Type} (handle : Reusable α) : Reusable α × Reusable α :=
  (⟨handle.ptr⟩, ⟨none⟩)

/-! ## The peer and the connection -/

/-- The requests of a handshake. -/
inductive HandshakeRequest
  | options
  | startup (compression : Option String)
  | authResponse (token : Bytes)
  | query (query : Bytes)
  deriving DecidableEq, Repr

/-- What `decodeMessage` makes of a frame. -/
abbrev HandshakeAnswer := Except Failure ResponseMessage

/-- The other side. -/
structure Peer where
  connects : Bool
  /-- Whether the request with this number cannot be sent. -/
  sendFails : Nat → Bool
  /-- The frames on stream zero. Behind the last one the stream ends. -/
  answers : List HandshakeAnswer

/-- The authenticators that the factory yields. -/
inductive Authenticator
  | allowAll
  | password
  deriving DecidableEq, Repr

/-- What the handshake reads of the node and the session configuration. -/
structure HandshakeConfig where
  useCompression : Bool
  authenticator : Authenticator
  authenticatorData : Bytes
  defaultKeySpace : Bytes

/-- The members of a connection that the handshake reads and writes, with the frames that
were not received yet. -/
structure Handshake where
  isReady : Bool
  /-- The name of the compressor. -/
  compressor : Option String
  /-- The socket holder has a socket. -/
  isConnected : Bool
  sent : List HandshakeRequest
  answers : List HandshakeAnswer

/-- A new connection. -/
def Handshake.create (peer : Peer) : Handshake := ⟨false, none, false, [], peer.answers⟩

/-- Close the connection. -/
def Handshake.close (s : Handshake) : Handshake :=
  { s with isConnected := false, isReady := false, compressor := none }

/-- A part of the handshake. -/
abbrev HandshakeM := EStateM Failure Handshake

def networkFailure (message : String) : Failure := .exception ⟨.network, message⟩

def authenticateFailure (message : String) : Failure := .exception ⟨.authenticate, message⟩

/-- `handle->`. -/
def Reusable.deref {α : Type} (handle : Reusable α) : HandshakeM α :=
  match handle.ptr with
  | some object => pure object
  | none => throw .undefined

/-- An exception with `message->toString()` at the end of its text. -/
def unexpectedMessage (failure : Failure) (message : Reusable ResponseMessage) : HandshakeM Unit := do
  let _ ← message.deref
  throw failure

namespace Connection

/-- Connect to the database server. -/
def connect (peer : Peer) : HandshakeM Unit := fun s =>
  if peer.connects then .ok () { s with isConnected := true }
  else .error (networkFailure "connect to") s

/-- Send a message; a message that cannot be sent closes the connection. -/
def sendMessage (peer : Peer) (request : HandshakeRequest) : HandshakeM Unit := fun s =>
  if peer.sendFails s.sent.length then .error (networkFailure "send message to") s.close
  else .ok () { s with sent := s.sent ++ [request] }

/-- Wait for the next message; a frame that cannot be received closes the connection. -/
def waitNextMessage : HandshakeM (Reusable ResponseMessage) := fun s =>
  match s.answers with
  | .ok message :: answers => .ok ⟨some message⟩ { s with answers }
  | .error (.exception _) :: answers =>
    .error (networkFailure "receive message failed:") { s with answers }.close
  | .error failure :: answers => .error failure { s with answers }
  | [] => .error (networkFailure "receive message failed:") s.close

end Connection

/-! ## Compression -/

/-- The bytes of a text without other characters than ASCII. -/
def asciiBytes (text : String) : Bytes := text.toList.map fun c => UInt8.ofNat c.toNat

/-- Get a suitable compressor supported by both client and server. -/
def CompressorFactory.getCompressor (options : List (Bytes × List Bytes)) : Option String :=
  match options.find? fun option => option.1 = asciiBytes "COMPRESSION" with
  | none => none
  | some option => if asciiBytes "lz4" ∈ option.2 then some "lz4" else none

/-! ## Authentication -/

namespace AuthenticatorClasses

def passwordAuthenticator : Bytes := asciiBytes "org.apache.cassandra.auth.PasswordAuthenticator"

end AuthenticatorClasses

/-- Perform the authentication. -/
def AllowAllAuthenticator.authenticate : HandshakeM Unit := do
  let message ← Connection.waitNextMessage
  let response ← message.deref
  if response.opCode = MessageType.authenticate then
    let (authenticateMessage, _) := message.cast
    unexpectedMessage (authenticateFailure "server required authentication:") authenticateMessage
  else if response.opCode ≠ MessageType.ready then
    unexpectedMessage (authenticateFailure "unexpected authenticate response:") message

namespace PasswordAuthenticator

/-- Answer the request for authentication. -/
def respond (peer : Peer) (config : HandshakeConfig) (message : Reusable ResponseMessage) :
    HandshakeM Unit := do
  let response ← message.deref
  if response.opCode = MessageType.ready then
    throw (authenticateFailure "server didn't require authentication")
  else if response.opCode ≠ MessageType.authenticate then
    unexpectedMessage (authenticateFailure "unexpected authenticate response:") message
  else
    let (authenticateMessage, _) := message.cast
    let response ← authenticateMessage.deref
    if response ≠ .authenticate AuthenticatorClasses.passwordAuthenticator then
      throw (authenticateFailure "authenticator not matched:")
    else
      Connection.sendMessage peer (.authResponse config.authenticatorData)

/-- Perform the authentication. -/
def authenticate (peer : Peer) (config : HandshakeConfig) : HandshakeM Unit := do
  let message ← Connection.waitNextMessage
  respond peer config message
  let message ← Connection.waitNextMessage
  let response ← message.deref
  if response.opCode ≠ MessageType.authSuccess then
    unexpectedMessage (authenticateFailure "authenticate with password failed:") message

end PasswordAuthenticator

def Authenticator.authenticate (peer : Peer) (config : HandshakeConfig) :
    Authenticator → HandshakeM Unit
  | allowAll => AllowAllAuthenticator.authenticate
  | password => PasswordAuthenticator.authenticate peer config

/-! ## Getting ready -/

namespace Connection

/-- Choose a compressor from the options of the server. -/
def setupCompression (config : HandshakeConfig) (message : Reusable ResponseMessage) :
    HandshakeM Unit := do
  if config.useCompression then
    let (supportedMessage, _) := message.cast
    match ← supportedMessage.deref with
    | .supported options =>
      modify fun s => { s with compressor := CompressorFactory.getCompressor options }
    | _ => throw .undefined -- the opcode was checked before

/-- Handle SUPPORTED, and send STARTUP. -/
def handleSupported (peer : Peer) (config : HandshakeConfig) (message : Reusable ResponseMessage) :
    HandshakeM Unit := do
  let response ← message.deref
  if response.opCode ≠ MessageType.supported then
    unexpectedMessage (.exception (logicException "unexpected response to OPTION message:")) message
  else
    setupCompression config message
    sendMessage peer (.startup (← get).compressor)

/-- Handle RESULT. -/
def handleUseResult (message : Reusable ResponseMessage) : HandshakeM Unit := do
  let response ← message.deref
  if response.opCode ≠ MessageType.result then
    unexpectedMessage (.exception ⟨.responseError, "unexpected response to use keyspace query:"⟩)
      message
  else
    let (resultMessage, message) := message.cast
    match ← resultMessage.deref with
    | .result result =>
      if result.kind ≠ ResultKind.setKeySpace then
        -- the message was moved by the cast
        unexpectedMessage (.exception (logicException "unexpected kind of set keyspace result:"))
          message
    | _ => throw .undefined -- the opcode was checked before

/-- Set default keyspace. -/
def useDefaultKeySpace (peer : Peer) (config : HandshakeConfig) : HandshakeM Unit := do
  if config.defaultKeySpace ≠ [] then
    sendMessage peer (.query (asciiBytes "use " ++ config.defaultKeySpace ++ asciiBytes ";"))
    let message ← waitNextMessage
    handleUseResult message

/-- The steps of the handshake. -/
def handshake (peer : Peer) (config : HandshakeConfig) : HandshakeM Unit := do
  connect peer
  -- send OPTION
  sendMessage peer .options
  -- receive SUPPORTED
  let message ← waitNextMessage
  handleSupported peer config message
  -- perform authentication
  config.authenticator.authenticate peer config
  -- set default keyspace
  useDefaultKeySpace peer config
  -- the connection is ready
  modify fun s => { s with isReady := true }

def connectionInitializeFailure : Failure :=
  .exception ⟨.connectionInitialize, "initialize connection"⟩

/-- Initialize connection and wait until it's ready to send ordinary messages. -/
def ready (peer : Peer) (config : HandshakeConfig) : HandshakeM Unit := fun s =>
  if s.isReady then .ok () s
  else
    match handshake peer config s with
    | .ok _ s => .ok () s
    | .error (.exception _) s => .error connectionInitializeFailure s.close
    | .error failure s => .error failure s

end Connection

/-! ## What getting ready promises -/

/-- The answers after which a connection is authenticated. -/
def Authenticator.Accepts : Authenticator → List ResponseMessage → Prop
  | allowAll, answers => answers = [.ready]
  | password, answers =>
    ∃ token, answers = [.authenticate AuthenticatorClasses.passwordAuthenticator, .authSuccess token]

/-- The answers of a complete handshake. -/
def HandshakeConfig.Completes (config : HandshakeConfig) (answers : List ResponseMessage) : Prop :=
  ∃ options authentication, config.authenticator.Accepts authentication ∧
    if config.defaultKeySpace = [] then answers = .supported options :: authentication
    else ∃ result : ResultMessage, result.kind = ResultKind.setKeySpace ∧
      answers = .supported options :: authentication ++ [.result result]

/-- The connection is ready only after a complete handshake. Otherwise getting ready fails
with one exception, and the connection is closed. No handle is used after its content was
moved out of it. -/
def HandshakeContract (peer : Peer) (config : HandshakeConfig) : Prop :=
  Ends (Connection.ready peer config) (.create peer)
    (fun _ s => s.isReady = true ∧ ∃ answers rest,
      peer.answers = answers.map .ok ++ rest ∧ config.Completes answers)
    (fun failure s => failure = Connection.connectionInitializeFailure ∧ s.isReady = false ∧
      s.compressor = none ∧ s.isConnected = false)

/-- A failure that is no exception. -/
def Failure.IsUndefined (failure : Failure) : Prop := ∀ ex, failure ≠ .exception ex

/-- Where the handshake waits for the next answer. -/
inductive HandshakeStage
  | supported
  | authenticate
  | authSuccess
  | keySpace
  deriving DecidableEq, Repr

/-- The handshake waits at a stage after these answers. -/
def HandshakeConfig.WaitsAt (config : HandshakeConfig) (answers : List ResponseMessage) :
    HandshakeStage → Prop
  | .supported => answers = []
  | .authenticate => ∃ options, answers = [.supported options]
  | .authSuccess => config.authenticator = .password ∧ ∃ options, answers =
      [.supported options, .authenticate AuthenticatorClasses.passwordAuthenticator]
  | .keySpace => config.defaultKeySpace ≠ [] ∧ ∃ options authentication,
      config.authenticator.Accepts authentication ∧ answers = .supported options :: authentication

/-- The answer to the query for the keyspace is a result of another kind. -/
def HandshakeStage.OtherKind (stage : HandshakeStage) (answer : HandshakeAnswer) : Prop :=
  stage = .keySpace ∧ ∃ result : ResultMessage, answer = .ok (.result result) ∧
    result.kind ≠ ResultKind.setKeySpace

/-- The body of the answer cannot be decoded without using an object after its end. -/
def HandshakeAnswer.IsUndefined (answer : HandshakeAnswer) : Prop :=
  ∃ failure : Failure, answer = .error failure ∧ failure.IsUndefined

/-- The peer gets the handshake to read an answer that leads to undefined behaviour: every
request up to there can be sent, and every earlier answer is the one that is waited for. -/
def Peer.Breaks (peer : Peer) (config : HandshakeConfig) : Prop :=
  ∃ answers answer rest stage, peer.answers = answers.map .ok ++ answer :: rest ∧
    config.WaitsAt answers stage ∧ peer.connects = true ∧
    (∀ i ≤ answers.length, peer.sendFails i = false) ∧
    (HandshakeAnswer.IsUndefined answer ∨ stage.OtherKind answer)

/-! ## The rules of the steps -/

section Rules

variable {α : Type} {peer : Peer} {config : HandshakeConfig} {s : Handshake} {content : α}
  {E : Failure → Handshake → Prop}

@[simp] theorem ends_deref {Q : α → Handshake → Prop} :
    Ends (Reusable.deref ⟨some content⟩) s Q E ↔ Q content s := Iff.rfl

@[simp] theorem ends_deref_null {Q : α → Handshake → Prop} :
    Ends (Reusable.deref ⟨none⟩) s Q E ↔ E .undefined s := Iff.rfl

@[simp] theorem ends_unexpectedMessage {failure : Failure} {message : ResponseMessage}
    {Q : Unit → Handshake → Prop} :
    Ends (unexpectedMessage failure ⟨some message⟩) s Q E ↔ E failure s := Iff.rfl

@[simp] theorem ends_unexpectedMessage_null {failure : Failure} {Q : Unit → Handshake → Prop} :
    Ends (unexpectedMessage failure ⟨none⟩) s Q E ↔ E .undefined s := Iff.rfl

theorem ends_connect {Q : Unit → Handshake → Prop} :
    Ends (Connection.connect peer) s Q E ↔
      if peer.connects then Q () { s with isConnected := true }
      else E (networkFailure "connect to") s := by
  by_cases h : peer.connects <;> simp [Ends, Connection.connect, h]

theorem ends_sendMessage {request : HandshakeRequest} {Q : Unit → Handshake → Prop} :
    Ends (Connection.sendMessage peer request) s Q E ↔
      if peer.sendFails s.sent.length then E (networkFailure "send message to") s.close
      else Q () { s with sent := s.sent ++ [request] } := by
  by_cases h : peer.sendFails s.sent.length <;> simp [Ends, Connection.sendMessage, h]

theorem ends_wait_ok {message : ResponseMessage} {answers : List HandshakeAnswer}
    {Q : Reusable ResponseMessage → Handshake → Prop} (h : s.answers = .ok message :: answers) :
    Ends Connection.waitNextMessage s Q E ↔ Q ⟨some message⟩ { s with answers } := by
  rw [Ends, Connection.waitNextMessage, h]

theorem ends_wait_undefined {failure : Failure} {answers : List HandshakeAnswer}
    {Q : Reusable ResponseMessage → Handshake → Prop} (h : s.answers = .error failure :: answers)
    (hundefined : failure.IsUndefined) :
    Ends Connection.waitNextMessage s Q E ↔ E failure { s with answers } := by
  cases failure with
  | exception ex => exact absurd rfl (hundefined ex)
  | undefined | tooDeep => rw [Ends, Connection.waitNextMessage, h]

end Rules

/-! ## The progress of a handshake -/

/-- What the handshake may fail with: an exception, unless the peer breaks it. -/
def Excused (peer : Peer) (config : HandshakeConfig) (failure : Failure) (_ : Handshake) : Prop :=
  (∃ ex, failure = .exception ex) ∨ peer.Breaks config

/-- The handshake has read some answers and sent some requests. -/
structure Handshake.At (peer : Peer) (answers : List ResponseMessage) (requests : Nat)
    (s : Handshake) : Prop where
  answers_eq : peer.answers = answers.map .ok ++ s.answers
  length_sent : s.sent.length = requests
  sendFails_eq : ∀ i < requests, peer.sendFails i = false
  connects : peer.connects = true

namespace Connection

variable {peer : Peer} {config : HandshakeConfig} {s : Handshake} {answers : List ResponseMessage}
  {requests : Nat} {message : ResponseMessage}

theorem connect_ends : Ends (connect peer) (.create peer) (fun _ s => s.At peer [] 0)
    (Excused peer config) := by
  rw [ends_connect]
  by_cases hconnects : peer.connects
  · rw [if_pos hconnects]
    exact ⟨rfl, rfl, fun _ hi => absurd hi (Nat.not_lt_zero _), hconnects⟩
  · rw [if_neg hconnects]
    exact .inl ⟨_, rfl⟩

theorem sendMessage_ends {request : HandshakeRequest} (hat : s.At peer answers requests) :
    Ends (sendMessage peer request) s (fun _ s' => s'.At peer answers (requests + 1))
      (Excused peer config) := by
  rw [ends_sendMessage, hat.length_sent]
  by_cases hfails : peer.sendFails requests
  · rw [if_pos hfails]
    exact .inl ⟨_, rfl⟩
  · rw [if_neg hfails]
    refine ⟨hat.answers_eq, ?_, fun i hi => ?_, hat.connects⟩
    · rw [List.length_append, hat.length_sent, List.length_singleton]
    · rcases Nat.lt_succ_iff_lt_or_eq.mp hi with hlt | rfl
      · exact hat.sendFails_eq i hlt
      · exact Bool.eq_false_iff.mpr hfails

/-- A wait yields the next answer, fails with an exception, or decodes what breaks the
handshake. -/
theorem waitNextMessage_ends {stage : HandshakeStage} (hat : s.At peer answers (answers.length + 1))
    (hwaits : config.WaitsAt answers stage) :
    Ends waitNextMessage s
      (fun handle s' => ∃ message, handle = ⟨some message⟩ ∧
        s'.At peer (answers ++ [message]) (answers.length + 1))
      (Excused peer config) := by
  cases hanswers : s.answers with
  | nil =>
    rw [Ends, waitNextMessage, hanswers]
    exact .inl ⟨_, rfl⟩
  | cons answer rest =>
    have hsplit : peer.answers = answers.map .ok ++ answer :: rest := hanswers ▸ hat.answers_eq
    cases answer with
    | ok message =>
      rw [ends_wait_ok hanswers]
      refine ⟨message, rfl, ?_, hat.length_sent, hat.sendFails_eq, hat.connects⟩
      rw [hsplit, List.map_append, List.append_assoc]
      rfl
    | error failure =>
      by_cases hundefined : failure.IsUndefined
      · rw [ends_wait_undefined hanswers hundefined]
        exact .inr ⟨answers, _, rest, stage, hsplit, hwaits, hat.connects,
          fun i hi => hat.sendFails_eq i (Nat.lt_succ_of_le hi), .inl ⟨failure, rfl, hundefined⟩⟩
      · simp only [Failure.IsUndefined, not_forall, not_not] at hundefined
        obtain ⟨ex, rfl⟩ := hundefined
        rw [Ends, waitNextMessage, hanswers]
        exact .inl ⟨_, rfl⟩

/-- Only the message that is waited for gets past the check of its opcode. -/
theorem eq_of_opCode :
    (message.opCode = MessageType.supported → ∃ options, message = .supported options) ∧
    (message.opCode = MessageType.ready → message = .ready) ∧
    (message.opCode = MessageType.authenticate → ∃ name, message = .authenticate name) ∧
    (message.opCode = MessageType.authSuccess → ∃ token, message = .authSuccess token) ∧
    (message.opCode = MessageType.result → ∃ result, message = .result result) := by
  cases message <;> simp [ResponseMessage.opCode, MessageType.supported, MessageType.ready,
    MessageType.authenticate, MessageType.authSuccess, MessageType.result, MessageType.error,
    MessageType.event, MessageType.authChallenge]

theorem handleSupported_ends (hat : s.At peer [message] 1) :
    Ends (handleSupported peer config ⟨some message⟩) s
      (fun _ s' => (∃ options, message = .supported options) ∧ s'.At peer [message] 2)
      (Excused peer config) := by
  rw [handleSupported, ends_bind, ends_deref]
  by_cases hopCode : message.opCode = MessageType.supported
  · obtain ⟨options, rfl⟩ := eq_of_opCode.1 hopCode
    rw [if_neg (not_not.mpr hopCode)]
    have hsetup : Ends (setupCompression config ⟨some (.supported options)⟩) s
        (fun _ s' => s'.At peer [.supported options] 1) (Excused peer config) := by
      rw [setupCompression, ends_ite]
      split
      · exact ⟨hat.answers_eq, hat.length_sent, hat.sendFails_eq, hat.connects⟩
      · exact hat
    refine hsetup.bind fun _ s' hat' => ?_
    rw [ends_bind, ends_get]
    exact (sendMessage_ends hat').mono (fun _ _ h => ⟨⟨options, rfl⟩, h⟩) fun _ _ h => h
  · rw [if_pos hopCode]
    exact .inl ⟨_, rfl⟩

/-- After an authentication the answers are those that the authenticator accepts. -/
theorem authenticate_ends {options : List (Bytes × List Bytes)}
    (hat : s.At peer [.supported options] 2) :
    Ends (config.authenticator.authenticate peer config) s
      (fun _ s' => ∃ authentication, config.authenticator.Accepts authentication ∧
        s'.At peer (.supported options :: authentication) (authentication.length + 1))
      (Excused peer config) := by
  have hwaits : config.WaitsAt [.supported options] .authenticate := ⟨options, rfl⟩
  cases hauthenticator : config.authenticator with
  | allowAll =>
    refine (waitNextMessage_ends hat hwaits).bind ?_
    rintro _ s' ⟨message, rfl, hat'⟩
    rw [ends_bind, ends_deref, ends_ite, ends_ite]
    split
    · exact .inl ⟨_, rfl⟩
    · split
      · exact .inl ⟨_, rfl⟩
      next hopCode =>
        obtain rfl := eq_of_opCode.2.1 (not_not.mp hopCode)
        exact ⟨[.ready], rfl, hat'⟩
  | password =>
    refine (waitNextMessage_ends hat hwaits).bind ?_
    rintro _ s' ⟨message, rfl, hat'⟩
    have hrespond : Ends (PasswordAuthenticator.respond peer config ⟨some message⟩) s'
        (fun _ s'' => message = .authenticate AuthenticatorClasses.passwordAuthenticator ∧
          s''.At peer ([.supported options] ++ [message]) 3) (Excused peer config) := by
      rw [PasswordAuthenticator.respond, ends_bind, ends_deref, ends_ite, ends_ite]
      split
      · exact .inl ⟨_, rfl⟩
      · split
        · exact .inl ⟨_, rfl⟩
        · rw [ends_bind, Reusable.cast, ends_deref, ends_ite]
          split
          · exact .inl ⟨_, rfl⟩
          next hname =>
            exact (sendMessage_ends hat').mono (fun _ _ h => ⟨not_not.mp hname, h⟩) fun _ _ h => h
    refine hrespond.bind ?_
    rintro _ s'' ⟨rfl, hat''⟩
    have hwaits' : config.WaitsAt [.supported options,
        .authenticate AuthenticatorClasses.passwordAuthenticator] .authSuccess :=
      ⟨hauthenticator, options, rfl⟩
    refine (waitNextMessage_ends hat'' hwaits').bind ?_
    rintro _ s₃ ⟨message, rfl, hat₃⟩
    rw [ends_bind, ends_deref, ends_ite]
    split
    · exact .inl ⟨_, rfl⟩
    next hopCode =>
      obtain ⟨token, rfl⟩ := eq_of_opCode.2.2.2.1 (not_not.mp hopCode)
      exact ⟨_, ⟨token, rfl⟩, hat₃⟩

/-- The connection gets ready after a complete handshake only. -/
theorem handshake_ends (peer : Peer) (config : HandshakeConfig) :
    Ends (handshake peer config) (.create peer)
      (fun _ s => s.isReady = true ∧ ∃ answers rest, peer.answers = answers.map .ok ++ rest ∧
        config.Completes answers)
      (Excused peer config) := by
  refine connect_ends.bind fun _ s₁ hat₁ => ?_
  refine (sendMessage_ends hat₁).bind fun _ s₂ hat₂ => ?_
  have hwaits₂ : config.WaitsAt [] .supported := rfl
  refine (waitNextMessage_ends hat₂ hwaits₂).bind ?_
  rintro _ s₃ ⟨message, rfl, hat₃⟩
  refine (handleSupported_ends hat₃).bind ?_
  rintro _ s₄ ⟨⟨options, rfl⟩, hat₄⟩
  refine (authenticate_ends hat₄).bind ?_
  rintro _ s₅ ⟨authentication, haccepts, hat₅⟩
  have huse : Ends (useDefaultKeySpace peer config) s₅
      (fun _ s => ∃ answers, peer.answers = answers.map .ok ++ s.answers ∧ config.Completes answers)
      (Excused peer config) := by
    rw [useDefaultKeySpace, ends_ite]
    split
    next hkeySpace =>
      refine (sendMessage_ends hat₅).bind fun _ s₆ hat₆ => ?_
      have hwaits : config.WaitsAt (.supported options :: authentication) .keySpace :=
        ⟨hkeySpace, options, authentication, haccepts, rfl⟩
      refine (waitNextMessage_ends hat₆ hwaits).bind ?_
      rintro _ s₇ ⟨message, rfl, hat₇⟩
      rw [handleUseResult, ends_bind, ends_deref, ends_ite]
      split
      · exact .inl ⟨_, rfl⟩
      next hopCode =>
        obtain ⟨result, rfl⟩ := eq_of_opCode.2.2.2.2 (not_not.mp hopCode)
        rw [Reusable.cast, ends_bind, ends_deref, ends_ite]
        split
        next hkind =>
          -- the moved message is used
          refine .inr ⟨_, .ok (.result result), s₇.answers, .keySpace, ?_, hwaits, hat₇.connects,
            fun i hi => hat₇.sendFails_eq i (Nat.lt_succ_of_le hi), .inr ⟨rfl, result, rfl, hkind⟩⟩
          rw [hat₇.answers_eq, List.map_append, List.append_assoc]
          rfl
        next hkind =>
          refine ⟨_, hat₇.answers_eq, options, authentication, haccepts, ?_⟩
          rw [if_neg hkeySpace]
          exact ⟨result, not_not.mp hkind, rfl⟩
    next hkeySpace =>
      refine ⟨_, hat₅.answers_eq, options, authentication, haccepts, ?_⟩
      rw [if_pos (not_not.mp hkeySpace)]
  refine huse.bind ?_
  rintro _ s₆ ⟨answers, hanswers, hcompletes⟩
  exact ⟨rfl, answers, s₆.answers, hanswers, hcompletes⟩

/-! ## Up to a given answer -/

theorem sendMessage_reaches {request : HandshakeRequest} {E : Failure → Handshake → Prop}
    (hat : s.At peer answers requests) (hsends : peer.sendFails requests = false) :
    Ends (sendMessage peer request) s (fun _ s' => s'.At peer answers (requests + 1)) E := by
  rw [ends_sendMessage, hat.length_sent, if_neg (Bool.eq_false_iff.mp hsends)]
  refine ⟨hat.answers_eq, ?_, fun i hi => ?_, hat.connects⟩
  · rw [List.length_append, hat.length_sent, List.length_singleton]
  · rcases Nat.lt_succ_iff_lt_or_eq.mp hi with hlt | rfl
    · exact hat.sendFails_eq i hlt
    · exact hsends

theorem waitNextMessage_reaches {rest : List HandshakeAnswer} {E : Failure → Handshake → Prop}
    (hat : s.At peer answers requests)
    (hanswers : peer.answers = answers.map .ok ++ .ok message :: rest) :
    Ends waitNextMessage s (fun handle s' => handle = ⟨some message⟩ ∧
      s'.At peer (answers ++ [message]) requests) E := by
  have hnext : s.answers = .ok message :: rest :=
    List.append_cancel_left (hat.answers_eq.symm.trans hanswers)
  rw [ends_wait_ok hnext]
  refine ⟨rfl, ?_, hat.length_sent, hat.sendFails_eq, hat.connects⟩
  rw [hanswers, List.map_append, List.append_assoc]
  rfl

theorem waitNextMessage_undefined {answer : HandshakeAnswer} {rest : List HandshakeAnswer}
    {Q : Reusable ResponseMessage → Handshake → Prop} (hat : s.At peer answers requests)
    (hanswers : peer.answers = answers.map .ok ++ answer :: rest)
    (hundefined : HandshakeAnswer.IsUndefined answer) :
    Ends waitNextMessage s Q (fun failure _ => failure.IsUndefined) := by
  obtain ⟨failure, rfl, hfailure⟩ := hundefined
  have hnext : s.answers = .error failure :: rest :=
    List.append_cancel_left (hat.answers_eq.symm.trans hanswers)
  exact (ends_wait_undefined hnext hfailure).mpr hfailure

/-- SUPPORTED is handled. -/
theorem handleSupported_reaches {options : List (Bytes × List Bytes)}
    {E : Failure → Handshake → Prop} (hat : s.At peer answers 1)
    (hsends : peer.sendFails 1 = false) :
    Ends (handleSupported peer config ⟨some (.supported options)⟩) s
      (fun _ s' => s'.At peer answers 2) E := by
  have hopCode : (ResponseMessage.supported options).opCode = MessageType.supported := rfl
  rw [handleSupported, ends_bind, ends_deref, if_neg (not_not.mpr hopCode), ends_bind,
    setupCompression, ends_ite]
  split
  · exact sendMessage_reaches ⟨hat.answers_eq, hat.length_sent, hat.sendFails_eq, hat.connects⟩ hsends
  · exact sendMessage_reaches hat hsends

/-- The request for a password is answered. -/
theorem respond_reaches {E : Failure → Handshake → Prop} (hat : s.At peer answers 2)
    (hsends : peer.sendFails 2 = false) :
    Ends (PasswordAuthenticator.respond peer config
        ⟨some (.authenticate AuthenticatorClasses.passwordAuthenticator)⟩) s
      (fun _ s' => s'.At peer answers 3) E := by
  let response := ResponseMessage.authenticate AuthenticatorClasses.passwordAuthenticator
  have hready : response.opCode ≠ MessageType.ready := by decide
  have hopCode : response.opCode = MessageType.authenticate := rfl
  rw [PasswordAuthenticator.respond, ends_bind, ends_deref, if_neg hready,
    if_neg (not_not.mpr hopCode), Reusable.cast, ends_bind, ends_deref, if_neg (not_not.mpr rfl)]
  exact sendMessage_reaches hat hsends

/-- The authenticator accepts. -/
theorem authenticate_reaches {authentication : List ResponseMessage} {rest : List HandshakeAnswer}
    {E : Failure → Handshake → Prop} (hat : s.At peer answers 2)
    (haccepts : config.authenticator.Accepts authentication)
    (hanswers : peer.answers = (answers ++ authentication).map .ok ++ rest)
    (hsends : ∀ i ≤ authentication.length, peer.sendFails i = false) :
    Ends (config.authenticator.authenticate peer config) s
      (fun _ s' => s'.At peer (answers ++ authentication) (authentication.length + 1)) E := by
  rw [List.map_append, List.append_assoc] at hanswers
  cases hauthenticator : config.authenticator with
  | allowAll =>
    rw [hauthenticator] at haccepts
    obtain rfl := haccepts
    refine (waitNextMessage_reaches hat hanswers).bind ?_
    rintro _ s' ⟨rfl, hat'⟩
    exact hat'
  | password =>
    rw [hauthenticator] at haccepts
    obtain ⟨token, rfl⟩ := haccepts
    refine (waitNextMessage_reaches hat hanswers).bind ?_
    rintro _ s' ⟨rfl, hat'⟩
    refine (respond_reaches hat' (hsends 2 (le_refl 2))).bind fun _ s'' hat'' => ?_
    have hmore : peer.answers = (answers ++
        [ResponseMessage.authenticate AuthenticatorClasses.passwordAuthenticator]).map .ok ++
          .ok (.authSuccess token) :: rest := by
      rw [hanswers, List.map_append, List.append_assoc]
      rfl
    refine (waitNextMessage_reaches hat'' hmore).bind ?_
    rintro _ s₃ ⟨rfl, hat₃⟩
    rw [List.append_assoc] at hat₃
    exact hat₃

/-- At the answer that breaks it the handshake ends in undefined behaviour. -/
theorem handshake_undefined (h : peer.Breaks config) :
    Ends (handshake peer config) (.create peer) (fun _ _ => False)
      (fun failure _ => failure.IsUndefined) := by
  obtain ⟨answers, answer, rest, stage, hanswers, hwaits, hconnects, hsends, hbreaks⟩ := h
  have hat₀ : ({ Handshake.create peer with isConnected := true } : Handshake).At peer [] 0 :=
    ⟨rfl, rfl, fun _ hi => absurd hi (Nat.not_lt_zero _), hconnects⟩
  rw [handshake, ends_bind, ends_connect, if_pos hconnects]
  refine (sendMessage_reaches hat₀ (hsends 0 (Nat.zero_le _))).bind fun _ s₁ hat₁ => ?_
  by_cases hstage : stage = .supported
  · subst hstage
    obtain rfl := hwaits
    exact ends_bind.mpr (waitNextMessage_undefined hat₁ hanswers
      (hbreaks.resolve_right fun h => by cases h.1))
  -- the later stages begin with the options of the server
  obtain ⟨options, more, rfl⟩ : ∃ options more, answers = .supported options :: more := by
    cases stage with
    | supported => exact absurd rfl hstage
    | authenticate => exact hwaits.imp fun _ h => ⟨[], h⟩
    | authSuccess => exact hwaits.2.imp fun _ h => ⟨_, h⟩
    | keySpace =>
      obtain ⟨-, options, authentication, -, h⟩ := hwaits
      exact ⟨options, authentication, h⟩
  refine (waitNextMessage_reaches hat₁ hanswers).bind ?_
  rintro _ s₂ ⟨rfl, hat₂⟩
  refine (handleSupported_reaches hat₂ (hsends 1 (Nat.succ_le_succ (Nat.zero_le _)))).bind
    fun _ s₃ hat₃ => ?_
  cases stage with
  | supported => exact absurd rfl hstage
  | authenticate =>
    have hundefined := hbreaks.resolve_right fun h => by cases h.1
    obtain ⟨_, hmore⟩ := hwaits
    cases hmore
    refine ends_bind.mpr ?_
    cases config.authenticator with
    | allowAll => exact ends_bind.mpr (waitNextMessage_undefined hat₃ hanswers hundefined)
    | password => exact ends_bind.mpr (waitNextMessage_undefined hat₃ hanswers hundefined)
  | authSuccess =>
    have hundefined := hbreaks.resolve_right fun h => by cases h.1
    obtain ⟨hauthenticator, _, hmore⟩ := hwaits
    cases hmore
    rw [hauthenticator]
    refine ends_bind.mpr ?_
    refine (waitNextMessage_reaches hat₃ hanswers).bind ?_
    rintro _ s₄ ⟨rfl, hat₄⟩
    refine (respond_reaches hat₄ (hsends 2 (le_refl 2))).bind fun _ s₅ hat₅ => ?_
    exact ends_bind.mpr (waitNextMessage_undefined hat₅ hanswers hundefined)
  | keySpace =>
    obtain ⟨hkeySpace, _, authentication, haccepts, hmore⟩ := hwaits
    cases hmore
    refine (authenticate_reaches hat₃ haccepts hanswers
      fun i hi => hsends i (Nat.le_succ_of_le hi)).bind fun _ s₄ hat₄ => ?_
    rw [useDefaultKeySpace, if_pos hkeySpace]
    refine ends_bind.mpr ?_
    refine (sendMessage_reaches hat₄ (hsends _ (le_refl _))).bind fun _ s₅ hat₅ => ?_
    rcases hbreaks with hundefined | ⟨-, result, rfl, hkind⟩
    · exact ends_bind.mpr (waitNextMessage_undefined hat₅ hanswers hundefined)
    · refine (waitNextMessage_reaches hat₅ hanswers).bind ?_
      rintro _ s₆ ⟨rfl, hat₆⟩
      have hopCode : (ResponseMessage.result result).opCode = MessageType.result := rfl
      rw [handleUseResult, ends_bind, ends_deref, if_neg (not_not.mpr hopCode), Reusable.cast,
        ends_bind, ends_deref]
      dsimp only
      rw [if_pos hkind]
      -- the message was moved by the cast
      exact fun ex => (by rintro ⟨⟩)

/-! ## When the promise is kept -/

/-- The promise is kept unless the peer breaks the handshake. -/
theorem handshakeContract_iff (peer : Peer) (config : HandshakeConfig) :
    HandshakeContract peer config ↔ ¬ peer.Breaks config := by
  have hends := handshake_ends peer config
  have hnew : ¬ (Handshake.create peer).isReady = true := Bool.false_ne_true
  rw [HandshakeContract, Ends, ready, if_neg hnew]
  rw [Ends] at hends
  constructor
  · intro hcontract hbreaks
    have hundefined := handshake_undefined hbreaks
    rw [Ends] at hundefined
    cases hresult : handshake peer config (.create peer) with
    | ok _ s =>
      rw [hresult] at hundefined
      exact hundefined
    | error failure s =>
      rw [hresult] at hcontract hundefined
      cases failure with
      | exception ex => exact hundefined ex rfl
      | undefined | tooDeep => cases hcontract.1
  · intro hbreaks
    cases hresult : handshake peer config (.create peer) with
    | ok _ s =>
      rw [hresult] at hends
      exact hends
    | error failure s =>
      rw [hresult] at hends
      obtain ⟨ex, rfl⟩ := hends.resolve_right hbreaks
      exact ⟨rfl, rfl, rfl, rfl⟩

/-- The server answers the query for the keyspace with a void result. -/
theorem not_handshakeContract_otherKind : ¬ HandshakeContract
    ⟨true, fun _ => false,
      [.ok (.supported []), .ok .ready, .ok (.result { ResultMessage.create with kind := 1 })]⟩
    ⟨false, .allowAll, [], [0x61]⟩ := by
  rintro ⟨hfailure, -⟩
  cases hfailure

end Connection

end CqlDriver
