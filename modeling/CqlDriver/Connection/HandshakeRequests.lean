import CqlDriver.Connection.Handshake

/-!
# What a handshake says

The requests of a handshake are fixed by the configuration and the options of the server. Whatever
the peer answers, and wherever the handshake stops, what was sent is a first part of them, and no
request was sent before the answers that prompt it: the compressor was offered, and a password goes
to a server only that asked for it with the name of the authenticator.

## Main definitions

* `HandshakeConfig.requests` — the requests of a complete handshake
* `Peer.Prompts` — the answers that let a request be sent

## Main results

* `Connection.ready_requests`
-/

namespace CqlDriver

open Math (Ends ends_bind ends_get ends_ite)

/-! ## The requests -/

namespace HandshakeConfig

/-- The compressor that both sides have, if the configuration wants one. -/
def chooseCompressor (config : HandshakeConfig) : List HandshakeAnswer → Option String
  | .ok (.supported options) :: _ =>
    if config.useCompression then CompressorFactory.getCompressor options else none
  | _ => none

/-- The requests of the authenticator. -/
def authentication (config : HandshakeConfig) : List HandshakeRequest :=
  match config.authenticator with
  | .allowAll => []
  | .password => [.authResponse config.authenticatorData]

/-- The query for the default keyspace. -/
def keySpaceQuery (config : HandshakeConfig) : Bytes :=
  asciiBytes "use " ++ config.defaultKeySpace ++ asciiBytes ";"

/-- The requests of a complete handshake. -/
def requests (config : HandshakeConfig) (compressor : Option String) : List HandshakeRequest :=
  [.options, .startup compressor] ++ config.authentication ++
    if config.defaultKeySpace = [] then [] else [.query config.keySpaceQuery]

end HandshakeConfig

/-- The peer has done what a request waits for. -/
def Peer.Prompts (peer : Peer) (config : HandshakeConfig) : HandshakeRequest → Prop
  | .options => peer.connects = true
  | .startup _ => ∃ options rest, peer.answers = .ok (.supported options) :: rest
  | .authResponse _ => ∃ options rest, peer.answers = .ok (.supported options) ::
      .ok (.authenticate AuthenticatorClasses.passwordAuthenticator) :: rest
  | .query _ => ∃ options authentication rest, config.authenticator.Accepts authentication ∧
      peer.answers = (.supported options :: authentication).map .ok ++ rest

/-- What was sent is a first part of the requests, each in its turn. -/
structure Peer.Asked (peer : Peer) (config : HandshakeConfig) (sent : List HandshakeRequest) :
    Prop where
  sent_prefix : sent <+: config.requests (config.chooseCompressor peer.answers)
  prompted : ∀ request ∈ sent, peer.Prompts config request

/-! ## The steps -/

/-- The handshake has read these answers and sent these requests. -/
structure Handshake.Reached (peer : Peer) (config : HandshakeConfig)
    (answers : List ResponseMessage) (sent : List HandshakeRequest) (compressor : Option String)
    (s : Handshake) : Prop where
  answers_eq : peer.answers = answers.map .ok ++ s.answers
  sent_eq : s.sent = sent
  compressor_eq : s.compressor = compressor
  asked : peer.Asked config s.sent

namespace Connection

variable {peer : Peer} {config : HandshakeConfig} {s : Handshake} {answers : List ResponseMessage}
  {sent : List HandshakeRequest} {compressor : Option String} {request : HandshakeRequest}

/-- A request is sent in its turn, or the handshake fails without it. -/
theorem sendMessage_reached (h : s.Reached peer config answers sent compressor)
    (hnext : sent ++ [request] <+: config.requests (config.chooseCompressor peer.answers))
    (hprompted : peer.Prompts config request) :
    Ends (sendMessage peer request) s
      (fun _ s' => s'.Reached peer config answers (sent ++ [request]) compressor)
      (fun _ s' => peer.Asked config s'.sent) := by
  rw [ends_sendMessage]
  split
  · exact h.asked
  · refine ⟨h.answers_eq, by rw [h.sent_eq], h.compressor_eq, by rwa [h.sent_eq], ?_⟩
    intro other hother
    rcases List.mem_append.mp hother with hbefore | hnew
    · exact h.asked.prompted other hbefore
    · obtain rfl := List.mem_singleton.mp hnew
      exact hprompted

/-- A wait reads the next answer, or the handshake fails. -/
theorem waitNextMessage_reached (h : s.Reached peer config answers sent compressor) :
    Ends waitNextMessage s
      (fun handle s' => ∃ message, handle = ⟨some message⟩ ∧
        s'.Reached peer config (answers ++ [message]) sent compressor)
      (fun _ s' => peer.Asked config s'.sent) := by
  cases hanswers : s.answers with
  | nil =>
    rw [Ends, waitNextMessage, hanswers]
    exact h.asked
  | cons answer rest =>
    cases answer with
    | ok message =>
      rw [ends_wait_ok hanswers]
      refine ⟨message, rfl, ?_, h.sent_eq, h.compressor_eq, h.asked⟩
      rw [h.answers_eq, hanswers, List.map_append, List.append_assoc]
      rfl
    | error failure =>
      rw [Ends, waitNextMessage, hanswers]
      cases failure with
      | exception ex => exact h.asked
      | undefined | tooDeep => exact h.asked

/-- The requests up to STARTUP. -/
theorem startup_first (config : HandshakeConfig) (compressor : Option String) :
    [HandshakeRequest.options, .startup compressor] <+: config.requests compressor := by
  rw [HandshakeConfig.requests, List.append_assoc]
  exact List.prefix_append _ _

/-- The requests up to those of the authenticator. -/
theorem authentication_first (config : HandshakeConfig) (compressor : Option String) :
    [.options, .startup compressor] ++ config.authentication <+: config.requests compressor :=
  List.prefix_append _ _

/-- STARTUP names the compressor of the connection. -/
theorem handleSupported_reached {message : ResponseMessage}
    (h : s.Reached peer config [message] [.options] none) :
    Ends (handleSupported peer config ⟨some message⟩) s
      (fun _ s' => ∃ options, message = .supported options ∧ s'.Reached peer config [message]
        [.options, .startup (config.chooseCompressor peer.answers)]
        (config.chooseCompressor peer.answers))
      (fun _ s' => peer.Asked config s'.sent) := by
  rw [handleSupported, ends_bind, ends_deref, ends_ite]
  split
  · exact h.asked
  next hopCode =>
    obtain ⟨options, rfl⟩ := eq_of_opCode.1 (not_not.mp hopCode)
    have hchosen : config.chooseCompressor peer.answers =
        if config.useCompression then CompressorFactory.getCompressor options else none := by
      rw [h.answers_eq]
      rfl
    have hsetup : Ends (setupCompression config ⟨some (.supported options)⟩) s
        (fun _ s' => s'.Reached peer config [.supported options] [.options]
          (config.chooseCompressor peer.answers))
        (fun _ s' => peer.Asked config s'.sent) := by
      rw [setupCompression, ends_ite, hchosen]
      split
      · exact ⟨h.answers_eq, h.sent_eq, rfl, h.asked⟩
      · exact h
    refine hsetup.bind fun _ s' h' => ?_
    rw [ends_bind, ends_get, h'.compressor_eq]
    have hprompted : peer.Prompts config (.startup (config.chooseCompressor peer.answers)) :=
      ⟨options, s'.answers, h'.answers_eq⟩
    refine (sendMessage_reached h' (startup_first config _) hprompted).mono ?_ fun _ _ h => h
    exact fun _ _ h'' => ⟨options, rfl, h''⟩

/-- The password goes to a server that asked for it. -/
theorem authenticate_reached {options : List (Bytes × List Bytes)}
    (h : s.Reached peer config [.supported options]
      [.options, .startup (config.chooseCompressor peer.answers)] compressor) :
    Ends (config.authenticator.authenticate peer config) s
      (fun _ s' => ∃ accepted, config.authenticator.Accepts accepted ∧
        s'.Reached peer config (.supported options :: accepted)
          ([.options, .startup (config.chooseCompressor peer.answers)] ++ config.authentication)
          compressor)
      (fun _ s' => peer.Asked config s'.sent) := by
  have hprefix := authentication_first config (config.chooseCompressor peer.answers)
  cases hauthenticator : config.authenticator with
  | allowAll =>
    have hnothing : config.authentication = [] := by
      rw [HandshakeConfig.authentication, hauthenticator]
    rw [hnothing, List.append_nil]
    refine (waitNextMessage_reached h).bind ?_
    rintro _ s' ⟨message, rfl, h'⟩
    rw [ends_bind, ends_deref, ends_ite, ends_ite]
    split
    · exact h'.asked
    · split
      · exact h'.asked
      next hopCode =>
        obtain rfl := eq_of_opCode.2.1 (not_not.mp hopCode)
        exact ⟨[.ready], rfl, h'⟩
  | password =>
    have hpassword : config.authentication = [.authResponse config.authenticatorData] := by
      rw [HandshakeConfig.authentication, hauthenticator]
    rw [hpassword] at hprefix ⊢
    refine (waitNextMessage_reached h).bind ?_
    rintro _ s' ⟨message, rfl, h'⟩
    have hrespond : Ends (PasswordAuthenticator.respond peer config ⟨some message⟩) s'
        (fun _ s'' => message = .authenticate AuthenticatorClasses.passwordAuthenticator ∧
          s''.Reached peer config ([.supported options] ++ [message])
            ([.options, .startup (config.chooseCompressor peer.answers)] ++
              [.authResponse config.authenticatorData]) compressor)
        (fun _ s'' => peer.Asked config s''.sent) := by
      rw [PasswordAuthenticator.respond, ends_bind, ends_deref, ends_ite, ends_ite]
      split
      · exact h'.asked
      · split
        · exact h'.asked
        · rw [ends_bind, Reusable.cast, ends_deref, ends_ite]
          split
          · exact h'.asked
          next hname =>
            obtain rfl := not_not.mp hname
            have hprompted : peer.Prompts config (.authResponse config.authenticatorData) :=
              ⟨options, s'.answers, h'.answers_eq⟩
            exact (sendMessage_reached h' hprefix hprompted).mono (fun _ _ h => ⟨rfl, h⟩)
              fun _ _ h => h
    refine hrespond.bind ?_
    rintro _ s'' ⟨rfl, h''⟩
    refine (waitNextMessage_reached h'').bind ?_
    rintro _ s₃ ⟨message, rfl, h₃⟩
    rw [ends_bind, ends_deref, ends_ite]
    split
    · exact h₃.asked
    next hopCode =>
      obtain ⟨token, rfl⟩ := eq_of_opCode.2.2.2.1 (not_not.mp hopCode)
      exact ⟨_, ⟨token, rfl⟩, h₃⟩

/-- The keyspace is set on an authenticated connection, last. -/
theorem useDefaultKeySpace_reached {options : List (Bytes × List Bytes)}
    {accepted : List ResponseMessage} (haccepts : config.authenticator.Accepts accepted)
    (h : s.Reached peer config (.supported options :: accepted)
      ([.options, .startup (config.chooseCompressor peer.answers)] ++ config.authentication)
      compressor) :
    Ends (useDefaultKeySpace peer config) s
      (fun _ s' => s'.sent = config.requests (config.chooseCompressor peer.answers) ∧
        s'.compressor = compressor ∧ peer.Asked config s'.sent)
      (fun _ s' => peer.Asked config s'.sent) := by
  rw [useDefaultKeySpace, ends_ite]
  split
  next hkeySpace =>
    have hall : config.requests (config.chooseCompressor peer.answers) =
        [.options, .startup (config.chooseCompressor peer.answers)] ++ config.authentication ++
          [.query config.keySpaceQuery] := by
      rw [HandshakeConfig.requests, if_neg hkeySpace]
    have hprompted : peer.Prompts config (.query config.keySpaceQuery) :=
      ⟨options, accepted, s.answers, haccepts, h.answers_eq⟩
    refine (sendMessage_reached h (hall ▸ List.prefix_refl _) hprompted).bind fun _ s' h' => ?_
    refine (waitNextMessage_reached h').bind ?_
    rintro _ s'' ⟨message, rfl, h''⟩
    rw [handleUseResult, ends_bind, ends_deref, ends_ite]
    split
    · exact h''.asked
    next hopCode =>
      obtain ⟨result, rfl⟩ := eq_of_opCode.2.2.2.2 (not_not.mp hopCode)
      rw [Reusable.cast, ends_bind, ends_deref, ends_ite]
      split
      · exact h''.asked
      · exact ⟨h''.sent_eq.trans hall.symm, h''.compressor_eq, h''.asked⟩
  next hkeySpace =>
    refine ⟨?_, h.compressor_eq, h.asked⟩
    rw [h.sent_eq, HandshakeConfig.requests, if_pos (not_not.mp hkeySpace), List.append_nil]

theorem handshake_requests (peer : Peer) (config : HandshakeConfig) :
    Ends (handshake peer config) (.create peer)
      (fun _ s => s.sent = config.requests (config.chooseCompressor peer.answers) ∧
        s.compressor = config.chooseCompressor peer.answers ∧ peer.Asked config s.sent)
      (fun _ s => peer.Asked config s.sent) := by
  have hnothing : peer.Asked config (Handshake.create peer).sent :=
    ⟨List.nil_prefix, fun _ hrequest => by cases hrequest⟩
  rw [handshake, ends_bind, ends_connect]
  split
  next hconnects =>
    have h₀ : ({ Handshake.create peer with isConnected := true } : Handshake).Reached peer config
        [] [] none := ⟨rfl, rfl, rfl, List.nil_prefix, fun _ hrequest => by cases hrequest⟩
    have hoptions := (List.prefix_append [HandshakeRequest.options] _).trans
      (startup_first config (config.chooseCompressor peer.answers))
    refine (sendMessage_reached h₀ hoptions hconnects).bind fun _ s₁ h₁ => ?_
    refine (waitNextMessage_reached h₁).bind ?_
    rintro _ s₂ ⟨message, rfl, h₂⟩
    refine (handleSupported_reached h₂).bind ?_
    rintro _ s₃ ⟨options, rfl, h₃⟩
    refine (authenticate_reached h₃).bind ?_
    rintro _ s₄ ⟨accepted, haccepts, h₄⟩
    refine (useDefaultKeySpace_reached haccepts h₄).bind ?_
    rintro _ s₅ ⟨hsent, hcompressor, hasked⟩
    exact ⟨hsent, hcompressor, hasked⟩
  · exact hnothing

/-- Whatever the peer does, what is sent until the connection is ready are the requests of the
handshake, each after the answers that prompt it, with the compressor that frames are compressed
with from then on; and when it does not get ready, they are a first part. -/
theorem ready_requests (peer : Peer) (config : HandshakeConfig) :
    Ends (ready peer config) (.create peer)
      (fun _ s => s.sent = config.requests (config.chooseCompressor peer.answers) ∧
        s.compressor = config.chooseCompressor peer.answers ∧ peer.Asked config s.sent)
      (fun _ s => peer.Asked config s.sent) := by
  have hrequests := handshake_requests peer config
  have hnew : ¬ (Handshake.create peer).isReady = true := Bool.false_ne_true
  rw [Ends, ready, if_neg hnew]
  rw [Ends] at hrequests
  cases hresult : handshake peer config (.create peer) with
  | ok _ s =>
    rw [hresult] at hrequests
    exact hrequests
  | error failure s =>
    rw [hresult] at hrequests
    cases failure with
    | exception ex => exact hrequests
    | undefined | tooDeep => exact hrequests

end Connection

end CqlDriver
