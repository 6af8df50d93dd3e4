import Aitp.Handshake.Honest
import Aitp.Handshake.Payloads

/-! # Driving a handshake over HTTP

`facade.rs`: the initiator's half of a handshake, from the responses it receives to
the calls of its state machine. What the network, the clock and the system's
generator give is an input; the envelopes sent and the calls made are listed beside
the result.
-/

namespace Aitp

/-- `FacadeError`, without message texts. -/
inductive FacadeError where
  | manifest
  | handshake (error : HandshakeError)
  | http
  | protocol (code message : String)
  | serde
  | manifestVerify (error : ManifestError)
  | envelope (error : EnvelopeError)

def maxResponseBytes : ℕ := 256 * 1024

/-- A response: its status, its headers that are read, and its body unless reading it failed. -/
structure Response where
  status : ℕ
  contentType : String
  contentLength : Option ℕ
  sessionId : String
  body : Option Bytes

/-! ## Reading a response -/

/-- `AitpErrorEnvelope`: its code and message. -/
def decodeAitpErrorEnvelope (v : Json) : Option (String × String) :=
  match Serde.openStructFields [⟨"error", .required⟩] v with
  | some [some error] =>
    match Serde.openStructFields [⟨"code", .required⟩, ⟨"message", .required⟩] error with
    | some [some (.str code), some (.str message)] => some (code, message)
    | _ => none
  | _ => none

/-- `str::contains`. -/
def containsText (needle s : String) : Bool :=
  s.toList.tails.any fun t => needle.toList.isPrefixOf t

section

variable (P : Primitives)

def validateAitpResponseShape (status : ℕ) (contentType : String) (body : Bytes) :
    Except FacadeError Unit := do
  ensure (decide (body.length ≤ maxResponseBytes)) .http
  if ¬ (200 ≤ status ∧ status < 300) then
    match (P.document body).bind decodeAitpErrorEnvelope with
    | some (code, message) => .error (.protocol code message)
    | none => .error .http
  else
    ensure (containsText "application/json" (String.ofList (contentType.toList.map Char.toLower)))
      .http

def interpretAitpEnvelopeResponse (status : ℕ) (contentType : String) (body : Bytes) :
    Except FacadeError AitpEnvelope := do
  validateAitpResponseShape P status contentType body
  let value ← okOr (CheckedJson.fromSlice P body) .http
  mapErr (fun _ => .http) (parseEnvelopeWire value)

def readAitpEnvelopeResponse (response : Response) : Except FacadeError AitpEnvelope := do
  ifPresent response.contentLength fun declared =>
    ensure (decide (declared ≤ maxResponseBytes)) .http
  let body ← okOr response.body .http
  ensure (decide (body.length ≤ maxResponseBytes)) .http
  interpretAitpEnvelopeResponse P response.status response.contentType body

/-- The HELLO_ACK that a response carries, and the key of its sender. -/
def readHelloAck (response : Response) :
    Except FacadeError (AitpEnvelope × MutualHelloAckPayload × VerifyingKey) := do
  let envelope ← readAitpEnvelopeResponse P response
  let peerPk ← mapErr (fun _ => .http) (VerifyingKey.fromAid P envelope.sender)
  mapErr (fun _ => .http) (verifyEnvelopeSignature P envelope peerPk)
  ensureMembers envelope.payload mutualHelloAckPayloadMembers fun f => .handshake (.unknownField f)
  let ack ← okOr (decodeMutualHelloAckPayload envelope.payload) .serde
  return (envelope, ack, peerPk)

/-- The COMMIT_ACK that a response carries, under the key of the peer. -/
def readCommitAck (peerPk : VerifyingKey) (response : Response) :
    Except FacadeError (AitpEnvelope × MutualCommitAckPayload) := do
  let envelope ← readAitpEnvelopeResponse P response
  mapErr (fun _ => .http) (verifyEnvelopeSignature P envelope peerPk)
  ensureMembers envelope.payload mutualCommitPayloadMembers fun f => .handshake (.unknownField f)
  let ack ← okOr (decodeMutualCommitPayload envelope.payload) .serde
  return (envelope, ack)

end

/-! ## The handshake -/

inductive IdentityMode where
  | pinnedKey (subject : String)
  | oidc (issuer : Url) (subject : String) (mint : String → Option String)

namespace IdentityMode

def presentedType : IdentityMode → IdentityKind
  | pinnedKey _ => .pinnedKey
  | oidc .. => .oidc

/-- `IdentityMode::into_presented_identity`. -/
def presentedIdentity : IdentityMode → PresentedIdentity
  | pinnedKey subject => .pinnedKey subject
  | oidc issuer subject mint => .oidcMinter issuer subject mint

end IdentityMode

inductive TrustMode where
  | pinnedKeys (store : PinnedKeyStore)
  | oidc (trustAnchors : List String) (jwksResolver : JwksResolver)

/-- `InitiatorConfig`, without what only configures HTTP. -/
structure InitiatorConfig where
  signingKey : Signer
  ownManifest : Manifest
  trustMode : TrustMode
  identityMode : IdentityMode
  requestedGrants : List String
  insecureLocalhost : Bool

/-- The configuration of the state machine at a reading of the clock. -/
def InitiatorConfig.peerConfig (config : InitiatorConfig) (revocation : RevocationSource)
    (now : Timestamp) : PeerConfig where
  signingKey := config.signingKey
  manifest := config.ownManifest
  trustAnchors :=
    match config.trustMode with
    | .pinnedKeys _ => []
    | .oidc trustAnchors _ => trustAnchors
  jwksResolver :=
    match config.trustMode with
    | .pinnedKeys _ => fun _ => none
    | .oidc _ jwksResolver => jwksResolver
  pinnedKeyStore :=
    match config.trustMode with
    | .pinnedKeys store => store
    | .oidc .. => fun _ => false
  grantPolicy := none
  revocation := revocation
  identityVerifier := none
  now := now
  insecureLocalhost := config.insecureLocalhost

/-- The revocation source before a COMMIT_ACK, which answers no lookup. -/
def noTctYet : RevocationSource :=
  .check fun _ => none

def Initiator.peerRevocationListUri : Initiator → Option String
  | .awaitingCommitAck _ peer => peer.revocationListUri
  | _ => none

/-- What a run is given: the peer's manifest and the two responses, unless they fail to arrive;
whether the endpoint may be reached; what is drawn; and the readings of the clock. -/
structure Surroundings where
  peerManifest : Option Manifest
  startNow : Timestamp
  helloMessageId : Uuid
  helloTimestamp : Timestamp
  popNonce : Option Nonce
  reachable : Bool
  helloResponse : Option Response
  helloAckNow : Timestamp
  jti : RandomV4
  commitMessageId : Uuid
  commitTimestamp : Timestamp
  commitResponse : Option Response
  prepared : Aid → Option String → RevocationCheckFn
  commitAckNow : Timestamp

/-- What a run sends and which calls it makes, in order. -/
inductive FacadeAct where
  | postHello (envelope : AitpEnvelope)
  | onHelloAck (envelope : AitpEnvelope) (now : Timestamp)
  | postCommit (sessionId : String) (envelope : AitpEnvelope)
  | onCommitAck (envelope : AitpEnvelope) (now : Timestamp)

structure SessionContext where
  peerAid : Aid
  peerPubkey : VerifyingKey
  heldTct : VerifiedTct
  grantVoucher : Option String
  effectiveGrants : List String

namespace InitiatorConfig

variable (P : Primitives) (J : Jose) (config : InitiatorConfig) (env : Surroundings)

/-- The peer's manifest, the state machine and the HELLO that are posted. -/
def startHandshake : Except FacadeError (Manifest × Initiator × AitpEnvelope) := do
  let peerManifest ← okOr env.peerManifest .manifest
  mapErr .manifestVerify
    (checkIdentityTypeCompatibility peerManifest config.identityMode.presentedType)
  let (initiator, hello) ← mapErr .handshake
    (Initiator.start P (config.peerConfig noTctYet env.startNow)
      config.identityMode.presentedIdentity peerManifest.aid env.helloMessageId env.helloTimestamp
      config.requestedGrants env.popNonce)
  let envelope ← mapErr .envelope
    (signEnvelopeWith config.signingKey .mutualHello hello.toValue env.helloMessageId
      env.helloTimestamp)
  ensure env.reachable .http
  return (peerManifest, initiator, envelope)

/-- From the response to the HELLO to the COMMIT, and the calls in between. -/
def takeHelloAck (initiator : Initiator) (response : Response) :
    List FacadeAct × Except FacadeError (Initiator × AitpEnvelope × VerifyingKey) :=
  match readHelloAck P response with
  | .error e => ([], .error e)
  | .ok (envelope, ack, peerPk) =>
    ([.onHelloAck envelope env.helloAckNow],
      match initiator.onHelloAck P J envelope ack (config.peerConfig noTctYet env.helloAckNow)
        env.jti with
      | (_, .error e) => .error (.handshake e)
      | (initiator, .ok commit) => do
        let commitEnvelope ← mapErr .envelope
          (signEnvelopeWith config.signingKey .mutualCommit commit.toValue env.commitMessageId
            env.commitTimestamp)
        return (initiator, commitEnvelope, peerPk))

/-- From the response to the COMMIT to the session. -/
def takeCommitAck (peerManifest : Manifest) (initiator : Initiator) (peerPk : VerifyingKey)
    (response : Response) : List FacadeAct × Except FacadeError SessionContext :=
  match readCommitAck P peerPk response with
  | .error e => ([], .error e)
  | .ok (envelope, ack) =>
    ([.onCommitAck envelope env.commitAckNow],
      match initiator.onCommitAck P envelope ack
        (config.peerConfig
          (.check (env.prepared peerManifest.aid initiator.peerRevocationListUri))
          env.commitAckNow) with
      | (_, .error e) => .error (.handshake e)
      | (_, .ok completed) =>
        .ok ⟨peerManifest.aid, peerPk, completed.tct, completed.grantVoucher,
          completed.effectiveGrants⟩)

/-- `run_initiator_handshake`, with what it sent and called. -/
def runInitiatorHandshake : List FacadeAct × Except FacadeError SessionContext :=
  match config.startHandshake P env with
  | .error e => ([], .error e)
  | .ok (peerManifest, initiator, hello) =>
    match env.helloResponse with
    | none => ([.postHello hello], .error .http)
    | some response =>
      match config.takeHelloAck P J env initiator response with
      | (acts, .error e) => (.postHello hello :: acts, .error e)
      | (acts, .ok (initiator, commit, peerPk)) =>
        let posted := .postHello hello :: acts ++ [.postCommit response.sessionId commit]
        match env.commitResponse with
        | none => (posted, .error .http)
        | some response =>
          let (acts, result) := config.takeCommitAck P env peerManifest initiator peerPk response
          (posted ++ acts, result)

end InitiatorConfig

/-! ## Types and timestamps of what is read -/

/-- A call is made with an envelope of the type it is about, dated within the tolerance. -/
def FacadeAct.Disciplined : FacadeAct → Prop
  | .onHelloAck e now =>
    e.messageType = .mutualHelloAck ∧
      e.timestamp.isWithinToleranceOf now defaultTimestampTolerance = true
  | .onCommitAck e now =>
    e.messageType = .mutualCommitAck ∧
      e.timestamp.isWithinToleranceOf now defaultTimestampTolerance = true
  | .postHello _ => True
  | .postCommit .. => True

/-- The document in a response's body names a type and is dated within the tolerance. -/
def Response.Timely (P : Primitives) (response : Response) (expected : MessageType)
    (now : Timestamp) : Prop :=
  ∃ body v, response.body = some body ∧ P.document body = some v ∧
    (v.get "message_type").bind MessageType.decode = some expected ∧
    ∃ t : Timestamp, v.get "timestamp" = some (.int t) ∧
      t.isWithinToleranceOf now defaultTimestampTolerance = true

section

variable {P : Primitives} {J : Jose} {config : InitiatorConfig} {env : Surroundings}
  {response : Response} {e : AitpEnvelope} {expected : MessageType} {now : Timestamp}

theorem readAitpEnvelopeResponse_ok (h : readAitpEnvelopeResponse P response = .ok e) :
    ∃ body value, response.body = some body ∧ P.document body = some value.value ∧
      parseEnvelopeWire value = .ok e := by
  simp only [readAitpEnvelopeResponse, interpretAitpEnvelopeResponse, bind_eq_ok, okOr_eq_ok,
    mapErr_eq_ok] at h
  obtain ⟨-, -, body, hb, -, -, -, -, value, hv, hp⟩ := h
  obtain ⟨v, hd, hof⟩ := Option.bind_eq_some_iff.mp hv
  unfold CheckedJson.ofDocument at hof
  split_ifs at hof
  obtain rfl := Option.some.inj hof
  exact ⟨body, _, hb, hd, hp⟩

theorem Received.decode_messageType {ms : List (String × Json)} (h : Received ms e) :
    ((Json.obj ms).get "message_type").bind MessageType.decode = some e.messageType := by
  obtain ⟨v, hl, hn⟩ := h.messageType
  rw [Json.get, Json.members, hl, Option.bind_some, MessageType.decode, hn, Option.bind_some]
  exact MessageType.decode_asWireStr e.messageType

theorem Response.timely_iff (h : readAitpEnvelopeResponse P response = .ok e) :
    response.Timely P expected now ↔ e.messageType = expected ∧
      e.timestamp.isWithinToleranceOf now defaultTimestampTolerance = true := by
  obtain ⟨body, value, hb, hd, hp⟩ := readAitpEnvelopeResponse_ok h
  obtain ⟨ms, hm, hr, -, -⟩ := parseEnvelopeWire_ok hp
  have htype := hr.decode_messageType
  have htime : (Json.obj ms).get "timestamp" = some (.int e.timestamp) := hr.timestamp
  rw [hm] at hd
  constructor
  · rintro ⟨body', v, hb', hd', ht, t, hts, hw⟩
    obtain rfl := Option.some.inj (hb.symm.trans hb')
    obtain rfl := Option.some.inj (hd.symm.trans hd')
    obtain rfl := Option.some.inj (htype.symm.trans ht)
    obtain rfl := Json.int.inj (Option.some.inj (htime.symm.trans hts))
    exact ⟨rfl, hw⟩
  · rintro ⟨rfl, hw⟩
    exact ⟨body, _, hb, hd, htype, e.timestamp, htime, hw⟩

/-- What is checked of a response before it is taken for a HELLO_ACK. -/
theorem readHelloAck_eq_ok {ack : MutualHelloAckPayload} {peerPk : VerifyingKey} :
    readHelloAck P response = .ok (e, ack, peerPk) ↔
      readAitpEnvelopeResponse P response = .ok e ∧
      VerifyingKey.fromAid P e.sender = .ok peerPk ∧
      verifyEnvelopeSignature P e peerPk = .ok () ∧
      checkMembers e.payload mutualHelloAckPayloadMembers = none ∧
      decodeMutualHelloAckPayload e.payload = some ack := by
  simp only [readHelloAck, bind_eq_ok, mapErr_eq_ok, ensureMembers_eq_ok, okOr_eq_ok, pure_eq_ok,
    Prod.mk.injEq]
  constructor
  · rintro ⟨e', he, k, hk, u, hv, u', hm, a, hd, rfl, rfl, rfl⟩
    exact ⟨he, hk, hv, hm, hd⟩
  · rintro ⟨he, hk, hv, hm, hd⟩
    exact ⟨e, he, peerPk, hk, (), hv, (), hm, ack, hd, rfl, rfl, rfl⟩

theorem takeHelloAck_of_read {ack : MutualHelloAckPayload} {peerPk : VerifyingKey}
    {initiator : Initiator} (h : readHelloAck P response = .ok (e, ack, peerPk)) :
    (config.takeHelloAck P J env initiator response).1 = [.onHelloAck e env.helloAckNow] := by
  simp only [InitiatorConfig.takeHelloAck, h]

theorem readCommitAck_ok {ack : MutualCommitAckPayload} {peerPk : VerifyingKey}
    (h : readCommitAck P peerPk response = .ok (e, ack)) :
    readAitpEnvelopeResponse P response = .ok e := by
  simp only [readCommitAck, bind_eq_ok, pure_eq_ok, Prod.mk.injEq] at h
  obtain ⟨e', he, -, -, -, -, -, -, rfl, -⟩ := h
  exact he

namespace InitiatorConfig

variable (P config env response)

variable (J) in
theorem takeHelloAck_disciplined_iff (initiator : Initiator) :
    (∀ act ∈ (config.takeHelloAck P J env initiator response).1, act.Disciplined) ↔
      ((readHelloAck P response).isOk = true →
        response.Timely P .mutualHelloAck env.helloAckNow) := by
  unfold takeHelloAck
  split
  next error hread => simp [hread, Except.isOk, Except.toBool]
  next e ack peerPk hread =>
    rw [Response.timely_iff (readHelloAck_eq_ok.mp hread).1]
    simp [hread, Except.isOk, Except.toBool, FacadeAct.Disciplined]

variable {response} in
/-- A run makes the calls for the response to its HELLO. -/
theorem takeHelloAck_subset {peerManifest : Manifest} {initiator : Initiator}
    {hello : AitpEnvelope}
    (hs : config.startHandshake P env = .ok (peerManifest, initiator, hello))
    (hr : env.helloResponse = some response) :
    (config.takeHelloAck P J env initiator response).1 ⊆
      (config.runInitiatorHandshake P J env).1 := by
  intro act hact
  simp only [runInitiatorHandshake, hs, hr]
  split
  next acts error hack =>
    rw [hack] at hact
    exact List.mem_cons_of_mem _ hact
  next acts initiator' commit peerPk hack =>
    rw [hack] at hact
    have hposted := List.mem_append_left [FacadeAct.postCommit response.sessionId commit]
      (List.mem_cons_of_mem (FacadeAct.postHello hello) hact)
    split
    · exact hposted
    · exact List.mem_append_left _ hposted

/-- So is a COMMIT_ACK. -/
theorem takeCommitAck_disciplined_iff (peerManifest : Manifest) (initiator : Initiator)
    (peerPk : VerifyingKey) :
    (∀ act ∈ (config.takeCommitAck P env peerManifest initiator peerPk response).1,
        act.Disciplined) ↔
      ((readCommitAck P peerPk response).isOk = true →
        response.Timely P .mutualCommitAck env.commitAckNow) := by
  unfold takeCommitAck
  split
  next error hread => simp [hread, Except.isOk, Except.toBool]
  next e ack hread =>
    rw [Response.timely_iff (readCommitAck_ok hread)]
    simp [hread, Except.isOk, Except.toBool, FacadeAct.Disciplined]

end InitiatorConfig

variable (P J config env) in
/-- A run makes its calls with discipline exactly when each response that the other checks let
through is of its type and dated within the tolerance. -/
theorem runInitiatorHandshake_disciplined_iff :
    (∀ act ∈ (config.runInitiatorHandshake P J env).1, act.Disciplined) ↔
      ∀ peerManifest initiator hello response,
        config.startHandshake P env = .ok (peerManifest, initiator, hello) →
        env.helloResponse = some response →
        ((readHelloAck P response).isOk = true →
            response.Timely P .mutualHelloAck env.helloAckNow) ∧
          ∀ acts initiator' commit peerPk response',
            config.takeHelloAck P J env initiator response =
              (acts, .ok (initiator', commit, peerPk)) →
            env.commitResponse = some response' →
            (readCommitAck P peerPk response').isOk = true →
            response'.Timely P .mutualCommitAck env.commitAckNow := by
  constructor
  · intro h peerManifest initiator hello response hstart hresponse
    refine ⟨(config.takeHelloAck_disciplined_iff P J env response initiator).mp ?_, ?_⟩
    · intro act hact
      exact h act (config.takeHelloAck_subset P env hstart hresponse hact)
    · intro acts initiator' commit peerPk response' hack hcommit
      apply (config.takeCommitAck_disciplined_iff P env response' peerManifest initiator'
        peerPk).mp
      intro act hact
      simp only [InitiatorConfig.runInitiatorHandshake, hstart, hresponse, hack, hcommit] at h
      exact h act (List.mem_append_right _ hact)
  · intro h
    unfold InitiatorConfig.runInitiatorHandshake
    split
    next => exact nofun
    next peerManifest initiator hello hstart =>
      split
      next => simp [FacadeAct.Disciplined]
      next response hresponse =>
        obtain ⟨hread, hcommitted⟩ := h peerManifest initiator hello response hstart hresponse
        have hacts := (config.takeHelloAck_disciplined_iff P J env response initiator).mpr hread
        split
        next acts error hack =>
          rw [hack] at hacts
          exact List.forall_mem_cons.mpr ⟨trivial, hacts⟩
        next acts initiator' commit peerPk hack =>
          rw [hack] at hacts
          have hposted : ∀ act ∈ .postHello hello :: acts ++
              [.postCommit response.sessionId commit], FacadeAct.Disciplined act := by
            intro act hact
            rcases List.mem_append.mp hact with hact | hact
            · exact List.forall_mem_cons.mpr ⟨trivial, hacts⟩ act hact
            · obtain rfl := List.mem_singleton.mp hact
              trivial
          split
          next => exact hposted
          next response' hresponse' =>
            intro act hact
            rcases List.mem_append.mp hact with hact | hact
            · exact hposted act hact
            · exact (config.takeCommitAck_disciplined_iff P env response' peerManifest initiator'
                peerPk).mpr (hcommitted acts initiator' commit peerPk response' hack hresponse')
                act hact

end

/-! ## A HELLO_ACK of another type, a day late -/

namespace Toy

/-- Agent 1 with its manifest, trusting every key. -/
def facadeConfig : InitiatorConfig where
  signingKey := signer (agent 1)
  ownManifest := manifest (agent 1) ["demo.echo"] ["demo.echo"] 0
  trustMode := .pinnedKeys fun _ => true
  identityMode := .pinnedKey "agent"
  requestedGrants := ["demo.echo"]
  insecureLocalhost := false

def lateAck : MutualHelloAckPayload where
  identity := .pinnedKey "agent" "" ""
  manifest := ⟨"", agent 0, none, ⟨.pinnedKey, "agent", none, none⟩, "", [], none, none, [], none,
    ⟨"", ""⟩, 0, 0, none, ""⟩
  requestedGrants := []
  popNonce := ""
  popNonceEcho := ""
  extensions := none

/-- Agent 0 signs a HELLO_ACK payload as a HELLO. -/
def lateEnvelope : AitpEnvelope :=
  let e := AitpEnvelope.unsigned (agent 0) .mutualHello lateAck.toValue (uuid 3) 10
  { e with
    signature :=
      Signature.fromRaw (agent 0).algorithm (signature (.digest (envelopeSigningInput e))) }

def lateResponse : Response :=
  ⟨200, "application/json", none, "", some (utf8 lateEnvelope.toValue.text)⟩

/-- The response arrives a day after its timestamp. -/
def lateSurroundings : Surroundings where
  peerManifest := some (manifest (agent 0) ["demo.echo"] ["demo.echo"] 0)
  startNow := 10
  helloMessageId := uuid 2
  helloTimestamp := 10
  popNonce := some (nonce 1)
  reachable := true
  helloResponse := some lateResponse
  helloAckNow := 86410
  jti := drawnV4 4
  commitMessageId := uuid 5
  commitTimestamp := 86410
  commitResponse := none
  prepared _ _ _ := some .clear
  commitAckNow := 86410

theorem signEnvelopeWith_lateEnvelope :
    signEnvelopeWith (signer (agent 0)) .mutualHello lateAck.toValue (uuid 3) 10 =
      .ok lateEnvelope :=
  signEnvelopeWith_eq_ok.mpr ⟨checkV4_uuid 3, rfl, by decide, _, rfl, rfl⟩

theorem length_lateResponse : (utf8 lateEnvelope.toValue.text).length ≤ maxResponseBytes := by
  have ht : lateEnvelope.toValue.text.length ≤ 65536 := by decide +kernel
  calc (utf8 lateEnvelope.toValue.text).length ≤ 4 * lateEnvelope.toValue.text.length :=
        length_utf8_le _
    _ ≤ 4 * 65536 := Nat.mul_le_mul_left 4 ht
    _ = maxResponseBytes := rfl

theorem readHelloAck_lateResponse :
    readHelloAck primitives lateResponse = .ok (lateEnvelope, lateAck, agentKey 0) := by
  have h0 : Timestamp.Fits 0 := by decide
  have hw : lateAck.Writable primitives := ⟨.none, ⟨h0, h0, nofun⟩, .none⟩
  have hfits : Timestamp.Fits 10 := by decide
  have hk := signer_lawful (agent 0)
  obtain ⟨hfit, hdistinct, hparse⟩ := parseEnvelopeWire_signEnvelopeWith readsText hk hfits
    hw.distinctKeys_toValue (hw.readable_toValue readsText) signEnvelopeWith_lateEnvelope
  have hvalue := CheckedJson.fromSlice_text readsText hfit hdistinct
  have hlen : decide ((utf8 lateEnvelope.toValue.text).length ≤ maxResponseBytes) = true :=
    decide_eq_true length_lateResponse
  have hshape : validateAitpResponseShape primitives 200 "application/json"
      (utf8 lateEnvelope.toValue.text) = .ok () := by
    have htext : containsText "application/json"
        (String.ofList ("application/json".toList.map Char.toLower)) = true := by decide
    have hok : ¬ ¬ (200 ≤ 200 ∧ 200 < 300) := by decide
    simp only [validateAitpResponseShape, hlen, if_neg hok, htext]
    rfl
  have hread : readAitpEnvelopeResponse primitives lateResponse = .ok lateEnvelope := by
    simp only [readAitpEnvelopeResponse, interpretAitpEnvelopeResponse, bind_eq_ok, ensure_eq_ok,
      okOr_eq_ok, mapErr_eq_ok, exists_const]
    exact ⟨(), rfl, _, rfl, hlen, (), hshape, _, hvalue, hparse⟩
  have hmem : checkMembers lateAck.toValue mutualHelloAckPayloadMembers = none :=
    checkMembers_obj_written (by decide)
  exact readHelloAck_eq_ok.mpr ⟨hread, hk.1,
    (verifyEnvelopeSignature_signEnvelopeWith hk signEnvelopeWith_lateEnvelope).2, hmem,
    hw.decode_toValue⟩

end Toy

open Toy in
/-- The initiator takes a HELLO that is a day old for the HELLO_ACK it waits for. -/
theorem onHelloAck_late : ∃ act ∈ (facadeConfig.runInitiatorHandshake primitives jose
    lateSurroundings).1, act = .onHelloAck lateEnvelope 86410 ∧
      lateEnvelope.messageType = .mutualHello ∧
      lateEnvelope.timestamp.isWithinToleranceOf 86410 defaultTimestampTolerance = false := by
  have hk : (signer (agent 1)).Total primitives (agentKey 1) := ⟨signer_lawful _, fun _ => rfl⟩
  obtain ⟨proof, -, hd, -, -⟩ := buildDescriptor_pinnedKey hk "agent" (agent 0) (uuid 2) 10 (nonce 1)
  obtain ⟨initiator, hello, hs⟩ : ∃ initiator hello, Initiator.start primitives
      (facadeConfig.peerConfig noTctYet 10) (.pinnedKey "agent") (agent 0) (uuid 2) 10
      ["demo.echo"] (some (nonce 1)) = .ok (initiator, hello) := by
    simp only [Initiator.start, freshNonce, Option.map_some, okOr_some, ok_bind, bind_eq_ok,
      pure_eq_ok]
    exact ⟨_, _, _, hd, rfl⟩
  obtain ⟨e, he⟩ : ∃ e, signEnvelopeWith (signer (agent 1)) .mutualHello hello.toValue (uuid 2) 10 =
      .ok e :=
    hk.signEnvelopeWith .mutualHello (checkV4_uuid 2) rfl (by decide)
  have hstart : facadeConfig.startHandshake primitives lateSurroundings =
      .ok (manifest (agent 0) ["demo.echo"] ["demo.echo"] 0, initiator, e) := by
    simp only [InitiatorConfig.startHandshake, bind_eq_ok, okOr_eq_ok, mapErr_eq_ok, ensure_eq_ok,
      pure_eq_ok, exists_const]
    exact ⟨_, rfl, (), rfl, (initiator, hello), hs, e, he, rfl, rfl⟩
  refine ⟨.onHelloAck lateEnvelope 86410, ?_, rfl, rfl, ?_⟩
  · have hresponse : lateSurroundings.helloResponse = some lateResponse := rfl
    have hacts : (facadeConfig.takeHelloAck primitives jose lateSurroundings initiator
        lateResponse).1 = [.onHelloAck lateEnvelope 86410] :=
      takeHelloAck_of_read readHelloAck_lateResponse
    apply facadeConfig.takeHelloAck_subset primitives lateSurroundings hstart hresponse
    rw [hacts]
    exact List.mem_singleton.mpr rfl
  · exact show Timestamp.isWithinToleranceOf 10 86410 defaultTimestampTolerance = false by decide

end Aitp
