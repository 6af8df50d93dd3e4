import Aitp.Handshake.Facade
import Aitp.Transport.CommitHandler
import Aitp.Transport.SessionRuns

/-! # A handshake over HTTP

`run_initiator_handshake` of `facade.rs` against the handlers of `transport/server.rs`:
what each side writes is what the other reads, from the HELLO to the session. Between
the HELLO and the COMMIT the server handles whatever else it is sent, and the handshake
completes as long as its session is still in the table.
-/

namespace Aitp

/-! ## Envelopes in requests and responses -/

/-- The request that posts an envelope, once its body is read. -/
def Request.posting (e : AitpEnvelope) (source : String) (now : ℕ) : Request where
  contentType := "application/json"
  body := some (utf8 e.toValue.text)
  source := source
  now := now

/-- The response that carries an envelope, with the session's identifier in its header. -/
def Response.carrying (sessionId : String) (e : AitpEnvelope) : Response where
  status := 200
  contentType := "application/json"
  contentLength := some (utf8 e.toValue.text).length
  sessionId := sessionId
  body := some (utf8 e.toValue.text)

/-- A response to it is not too large to be read. -/
def AitpEnvelope.FitsResponse (e : AitpEnvelope) : Prop :=
  (utf8 e.toValue.text).length ≤ maxResponseBytes

/-- An envelope that is read back from its text. -/
def AitpEnvelope.Readable (P : Primitives) (e : AitpEnvelope) : Prop :=
  ∃ hd, CheckedJson.fromSlice P (utf8 e.toValue.text) = some ⟨e.toValue, hd⟩ ∧
    parseEnvelopeWire ⟨e.toValue, hd⟩ = .ok e

/-- A server's guard lets a message identifier of a sender through. -/
structure ServerState.Admits (state : ServerState) (config : ServerConfig) (messageId : Uuid)
    (sender : Aid) (source : String) (now : ℕ) : Prop where
  fresh : (state.seen.checkAndRecord messageId.hyphenated now config.replayWindow).1 = true
  allowed : (rateLimitCheck config.rateLimit state.events source (some sender) now).1 = true

section

variable {P : Primitives} {e : AitpEnvelope} {source sessionId : String} {now : ℕ}

theorem AitpEnvelope.readable_of_sign (hP : P.ReadsText) {signer : Signer} {key : VerifyingKey}
    {messageType : MessageType} {payload : Json} {messageId : Uuid} {timestamp : Timestamp}
    (hk : signer.Lawful P key) (ht : timestamp.Fits) (hd : payload.distinctKeys = true)
    (hr : payload.readable P.keeps (nestingLimit - 1) = true)
    (h : signEnvelopeWith signer messageType payload messageId timestamp = .ok e) :
    e.Readable P := by
  obtain ⟨hread, hdistinct, hparse⟩ := parseEnvelopeWire_signEnvelopeWith hP hk ht hd hr h
  exact ⟨hdistinct, CheckedJson.fromSlice_text hP hread hdistinct, hparse⟩

theorem sender_posting (h : e.Readable P) :
    (Request.posting e source now).sender P = some e.sender := by
  obtain ⟨hd, hv, -⟩ := h
  have hvalue : (Request.posting e source now).value P = some ⟨e.toValue, hd⟩ := hv
  have hget : e.toValue.get "sender" = some (.obj [("agent_id", .str e.sender.value)]) :=
    Serde.get_obj_written (by decide) rfl (f := ⟨"sender", .required⟩) (i := 4) rfl
  have hid : (Json.obj [("agent_id", .str e.sender.value)]).get "agent_id" =
      some (.str e.sender.value) := rfl
  simp only [Request.sender, Request.member, hvalue, Option.bind_some, hget, hid, Json.asStr,
    Aid.parse_value]

theorem receiveEnvelope_posting {config : ServerConfig} {state : ServerState}
    (h : e.Readable P) (ha : state.Admits config e.messageId e.sender source now)
    (ht : e.timestamp.isWithinToleranceOf (timestampAt now) defaultTimestampTolerance = true) :
    (receiveEnvelope P config state (.posting e source now) e.messageType).1 = .ok e := by
  have hsender : (Request.posting e source now).sender P = some e.sender := sender_posting h
  obtain ⟨hd, hv, hp⟩ := h
  refine receiveEnvelope_ok_iff.mpr ⟨ha.fresh, ?_, ht, ?_, ⟨⟨e.toValue, hd⟩, hv, hp⟩, rfl⟩
  · rw [hsender]
    exact ha.allowed
  · exact show "application/json".toList.isPrefixOf
      ("application/json".toList.map Char.toLower) = true by decide

theorem readAitpEnvelopeResponse_carrying (h : e.Readable P) (hlen : e.FitsResponse) :
    readAitpEnvelopeResponse P (.carrying sessionId e) = .ok e := by
  obtain ⟨hd, hv, hp⟩ := h
  have hsize : decide ((utf8 e.toValue.text).length ≤ maxResponseBytes) = true :=
    decide_eq_true hlen
  have hshape : validateAitpResponseShape P 200 "application/json" (utf8 e.toValue.text) =
      .ok () := by
    have htext : containsText "application/json"
        (String.ofList ("application/json".toList.map Char.toLower)) = true := by decide
    have hok : ¬ ¬ (200 ≤ 200 ∧ 200 < 300) := by decide
    simp only [validateAitpResponseShape, hsize, if_neg hok, htext]
    rfl
  simp only [readAitpEnvelopeResponse, interpretAitpEnvelopeResponse, Response.carrying,
    bind_eq_ok, ensure_eq_ok, okOr_eq_ok, mapErr_eq_ok, ifPresent_some, exists_const]
  exact ⟨hsize, _, rfl, hsize, (), hshape, _, hv, hp⟩

end

/-! ## Sessions that stay open -/

namespace SessionTable

/-- The sessions that were created no earlier. -/
def since (sessions : SessionTable) (t : ℕ) : List (Uuid × SessionEntry) :=
  sessions.entries.filter fun e => decide (t ≤ e.2.createdAt)

variable {limits : SessionLimits} {clock : TableClock} {sessions left : SessionTable}
  {id id' : Uuid} {entry : SessionEntry} {now t : ℕ}

theorem mem_sweepExpired (h : (id, entry) ∈ sessions.entries)
    (hlive : now - entry.createdAt ≤ limits.sessionTtl) :
    (id, entry) ∈ (sessions.sweepExpired limits now).entries :=
  List.mem_filter.mpr ⟨h, decide_eq_true hlive⟩

theorem get_of_mem (h : (id, entry) ∈ sessions.entries) : sessions.get id = some entry := by
  apply List.lookup_eq_some_iff.mpr
  obtain ⟨before, after, he⟩ := List.append_of_mem h
  refine ⟨before, after, he, ?_⟩
  have hn := sessions.nodup
  rw [he, List.map_append, List.map_cons, List.nodup_middle, List.nodup_cons] at hn
  intro e hm
  apply bne_iff_ne.mpr
  rintro rfl
  exact hn.1 (List.mem_append_left _ (List.mem_map.mpr ⟨e, hm, rfl⟩))

theorem takeSession_of_mem (h : (id, entry) ∈ sessions.entries)
    (hfirst : clock.first - entry.createdAt ≤ limits.sessionTtl)
    (hsecond : clock.second - entry.createdAt ≤ limits.sessionTtl) :
    (sessions.takeSession limits clock id).1 = .ok entry := by
  have hget := get_of_mem h
  have hswept := get_of_mem (mem_sweepExpired h hsecond)
  have hpresent : ((sessions.get id).any fun e =>
      decide (limits.sessionTtl < clock.first - e.createdAt)) = false := by
    rw [hget, Option.any_some]
    exact decide_eq_false (Nat.not_lt.mpr hfirst)
  simp only [takeSession, hpresent, hswept, okOr_some, Bool.false_eq_true, if_false]

end SessionTable

section

variable (P : Primitives) (J : Jose) (server : HandshakeServer) (limits : SessionLimits)
  (id : Uuid) (createdAt : ℕ)

end

section

variable {P : Primitives} {J : Jose} {server : HandshakeServer} {limits : SessionLimits}
  {state state' : HandshakeState} {request : Request} {id : Uuid} {entry : SessionEntry} {n : ℕ}

end

/-! ## Two parties that trust each other -/

/-- A handshake over HTTP: the initiator and the server, what each draws and reads of its clock, and
where the requests come from. -/
structure HttpHandshake where
  config : InitiatorConfig
  env : Surroundings
  server : HandshakeServer
  limits : SessionLimits
  initiatorNonce : Nonce
  serverNonce : Nonce
  helloSource : String
  helloReceived : ℕ
  helloDraws : HelloDraws
  helloClock : TableClock
  commitSource : String
  commitReceived : ℕ
  commitDraws : CommitDraws
  commitClock : TableClock

/-- An identifier and a timestamp that an envelope can be signed with. -/
structure Stamped (messageId : Uuid) (timestamp : Timestamp) : Prop where
  layout : messageId.checkV4 = .ok ()
  fits : timestamp.Fits
  nonneg : 0 ≤ timestamp

namespace HttpHandshake

variable (P : Primitives) (x : HttpHandshake)

/-- The initiator at the start. -/
def initiator : PeerConfig :=
  x.config.peerConfig noTctYet x.env.startNow

/-- The responder as it takes the HELLO. -/
def responder : PeerConfig :=
  x.server.helloConfig x.helloDraws.now

/-- The initiator as it takes the HELLO_ACK. -/
def committer : PeerConfig :=
  x.config.peerConfig noTctYet x.env.helloAckNow

/-- The responder as it takes the COMMIT. -/
def acknowledger : PeerConfig :=
  x.server.commitConfig (.check (x.commitDraws.prepared x.config.ownManifest.aid
    x.config.ownManifest.revocationListUri)) x.commitDraws.now

/-- Both parties hold the keys of their manifests and trust each other's, present the identities
that their manifests hint at, and answer while nothing has expired. The times of the tokens they
issue are signed as they are. What is left of each party's requests can be granted and covers what
it requires, and nothing that is looked up is revoked. -/
structure Honest (ki kr : VerifyingKey) (grantsI grantsR : List String) : Prop where
  initiatorHolds : x.initiator.Holds P ki
  responderHolds : x.responder.Holds P kr
  distinct : ki ≠ kr
  initiatorTrusts : x.initiator.Trusts P x.responder kr
  responderTrusts : x.responder.Trusts P x.initiator ki
  initiatorSubject : x.config.identityMode = .pinnedKey x.config.ownManifest.identityHint.subject
  responderSubject : x.server.subject = x.server.manifest.identityHint.subject
  writable : x.config.ownManifest.Writable P (nestingLimit - 3) ∧
    x.server.manifest.Writable P (nestingLimit - 3)
  fetched : x.env.peerManifest = some x.server.manifest
  reachable : x.env.reachable = true
  nonces : x.env.popNonce = some x.initiatorNonce ∧ x.helloDraws.popNonce = some x.serverNonce
  hello : Stamped x.env.helloMessageId x.env.helloTimestamp
  helloAck : Stamped x.helloDraws.ackMessageId x.helloDraws.ackTimestamp
  commit : Stamped x.env.commitMessageId x.env.commitTimestamp
  commitAck : Stamped x.commitDraws.ackMessageId x.commitDraws.ackTimestamp
  helloTimely : x.env.helloTimestamp.isWithinToleranceOf (timestampAt x.helloReceived)
    defaultTimestampTolerance = true
  commitTimely : x.env.commitTimestamp.isWithinToleranceOf (timestampAt x.commitReceived)
    defaultTimestampTolerance = true
  ordered : x.helloDraws.now ≤ x.env.helloAckNow ∧ x.env.helloAckNow ≤ x.commitDraws.now ∧
    x.commitDraws.now ≤ x.env.commitAckNow
  exact : x.env.helloAckNow.Exact ∧
    (min (x.env.helloAckNow.saturatingAdd defaultTctTtl) x.config.ownManifest.expiresAt).Exact ∧
    (min (x.commitDraws.now.saturatingAdd defaultTctTtl) x.server.manifest.expiresAt).Exact
  expiry : x.env.commitAckNow < x.config.ownManifest.expiresAt ∧
    x.env.commitAckNow < x.server.manifest.expiresAt
  gaps : x.commitDraws.now < x.env.helloAckNow + defaultTctTtl ∧
    x.env.commitAckNow < x.commitDraws.now + defaultTctTtl
  initiatorGrants : ∀ proof, grantsForPeer (x.server.helloConfig x.commitDraws.now)
    (.pinnedKey x.config.ownManifest.identityHint.subject (encodeBase64Url ki.bytes) proof)
    x.config.ownManifest.aid x.config.requestedGrants = .ok grantsI
  responderGrants : grantsR =
    x.server.requestedGrants.filter fun g => x.config.ownManifest.offeredCapabilities.contains g
  issuable : Issuable grantsI x.config.ownManifest.requiredPeerCapabilities ∧
    Issuable grantsR x.server.manifest.requiredPeerCapabilities
  clear : (RevocationSource.check (x.commitDraws.prepared x.config.ownManifest.aid
      x.config.ownManifest.revocationListUri)).AnswersClear ∧
    (RevocationSource.check (x.env.prepared x.server.manifest.aid
      x.server.manifest.revocationListUri)).AnswersClear

/-- The HELLO under a key and with a proof. -/
def helloPayload (ki : VerifyingKey) (proof : String) : MutualHelloPayload :=
  ⟨.pinnedKey x.config.ownManifest.identityHint.subject (encodeBase64Url ki.bytes) proof,
    x.config.ownManifest, x.config.requestedGrants, encodeBase64Url x.initiatorNonce.bytes, none⟩

/-- The answer to it. -/
def helloAckPayload (kr : VerifyingKey) (proof : String) : MutualHelloAckPayload :=
  ⟨.pinnedKey x.server.subject (encodeBase64Url kr.bytes) proof, x.server.manifest,
    x.server.requestedGrants, encodeBase64Url x.serverNonce.bytes,
    encodeBase64Url x.initiatorNonce.bytes, none⟩

/-- What the responder then waits for. -/
def awaiting (ki : VerifyingKey) (proof : String) : AwaitingCommit where
  myPopNonce := encodeBase64Url x.serverNonce.bytes
  peerPopNonce := encodeBase64Url x.initiatorNonce.bytes
  peer := .ofManifest x.config.ownManifest ki
  peerRequestedGrants := x.config.requestedGrants
  peerIdentity :=
    .pinnedKey x.config.ownManifest.identityHint.subject (encodeBase64Url ki.bytes) proof

/-- The request that posts the HELLO. -/
def helloRequest (hello : AitpEnvelope) : Request :=
  .posting hello x.helloSource x.helloReceived

/-- The request that posts the COMMIT. -/
def commitRequest (commit : AitpEnvelope) : Request :=
  .posting commit x.commitSource x.commitReceived

/-- The value of the session's header. -/
def sessionHeader : String :=
  x.helloDraws.sessionId.hyphenated

/-- The initiator's surroundings when the server answers it. -/
def answered (helloAck commitAck : AitpEnvelope) : Surroundings :=
  { x.env with
    helloResponse := some (.carrying x.sessionHeader helloAck)
    commitResponse := some (.carrying "" commitAck) }

end HttpHandshake

namespace HttpHandshake.Honest

variable {P : Primitives} {J : Jose} {x : HttpHandshake} {ki kr : VerifyingKey}
  {grantsI grantsR : List String} {hello helloAck commit commitAck : AitpEnvelope} {proof : String}

theorem aid_ne (h : x.Honest P ki kr grantsI grantsR) :
    x.config.ownManifest.aid ≠ x.server.manifest.aid := by
  intro he
  have hi := h.initiatorHolds.total.lawful.1
  have hr := h.responderHolds.total.lawful.1
  rw [h.initiatorHolds.aid] at hi
  rw [h.responderHolds.aid] at hr
  have heq : x.initiator.manifest.aid = x.responder.manifest.aid := he
  rw [heq, hr] at hi
  exact h.distinct (Except.ok.inj hi).symm

theorem fromAid_initiator (h : x.Honest P ki kr grantsI grantsR) :
    VerifyingKey.fromAid P x.config.ownManifest.aid = .ok ki :=
  h.initiatorHolds.aid ▸ h.initiatorHolds.total.lawful.1

theorem fromAid_responder (h : x.Honest P ki kr grantsI grantsR) :
    VerifyingKey.fromAid P x.server.manifest.aid = .ok kr :=
  h.responderHolds.aid ▸ h.responderHolds.total.lawful.1

/-- The readings of the clocks at which tokens are issued and taken. -/
theorem readings (h : x.Honest P ki kr grantsI grantsR) :
    (x.commitDraws.now.Fits ∧ x.env.commitAckNow.Fits) ∧
      x.env.helloAckNow < x.config.ownManifest.expiresAt ∧
      x.commitDraws.now < x.server.manifest.expiresAt ∧
      x.commitDraws.now ≤ x.config.ownManifest.expiresAt ∧
      x.commitDraws.now ≤ x.env.helloAckNow.saturatingAdd defaultTctTtl ∧
      x.env.commitAckNow ≤ x.commitDraws.now.saturatingAdd defaultTctTtl := by
  obtain ⟨-, h₁, h₂⟩ := h.ordered
  obtain ⟨hxi, hxr⟩ := h.expiry
  obtain ⟨hg₁, hg₂⟩ := h.gaps
  have fits : ∀ t : Timestamp, x.env.helloAckNow ≤ t → t ≤ x.env.commitAckNow → t.Fits := by
    intro t hl hu
    exact ⟨h.exact.1.fits.1.trans hl, hu.trans (hxi.le.trans h.writable.1.expiresAt.2)⟩
  have lasts : ∀ t t' : Timestamp, t'.Fits → t' < t + defaultTctTtl →
      t' ≤ t.saturatingAdd defaultTctTtl := by
    intro t t' ht' hlt
    have hd : durationSecs defaultTctTtl = defaultTctTtl := rfl
    exact le_max_of_le_right (le_min ht'.2 (hd ▸ hlt.le))
  have hf := fits x.commitDraws.now h₁ h₂
  have hf' := fits x.env.commitAckNow (h₁.trans h₂) le_rfl
  exact ⟨⟨hf, hf'⟩, (h₁.trans h₂).trans_lt hxi, h₂.trans_lt hxr, h₂.trans hxi.le,
    lasts _ _ hf hg₁, lasts _ _ hf' hg₂⟩

theorem exact_of_commit (h : x.Honest P ki kr grantsI grantsR) {c : TctClaims}
    {m : MutualCommitPayload}
    (hm : CommitOf P x.committer x.server.manifest.aid grantsR x.serverNonce c m) :
    c.iat.Exact ∧ c.exp.Exact := by
  rw [hm.claims.iat, hm.claims.exp]
  exact ⟨h.exact.1, h.exact.2.1⟩

theorem exact_of_commitAck (h : x.Honest P ki kr grantsI grantsR) {c : TctClaims}
    {m : MutualCommitAckPayload}
    (hm : CommitOf P x.acknowledger x.config.ownManifest.aid grantsI x.initiatorNonce c m) :
    c.iat.Exact ∧ c.exp.Exact := by
  obtain ⟨-, -, -, hi, hl, -⟩ := h.readings
  rw [hm.claims.iat, hm.claims.exp]
  refine ⟨⟨h.exact.1.1.trans h.ordered.2.1, ?_⟩, h.exact.2.2⟩
  exact (le_min hl hi).trans h.exact.2.1.2

/-! ### What they post is read -/

theorem readable_hello (hP : P.ReadsText) (h : x.Honest P ki kr grantsI grantsR) {s : Initiator}
    (hs : Initiator.start P x.initiator (.pinnedKey x.initiator.manifest.identityHint.subject)
      x.server.manifest.aid x.env.helloMessageId x.env.helloTimestamp x.config.requestedGrants
      (some x.initiatorNonce) = .ok (s, x.helloPayload ki proof))
    (he : signEnvelopeWith x.config.signingKey .mutualHello (x.helloPayload ki proof).toValue
      x.env.helloMessageId x.env.helloTimestamp = .ok hello) : hello.Readable P := by
  obtain ⟨-, hwrit, -, -⟩ := HandshakeServer.readHello_start h.initiatorHolds h.writable.1 hs he
  exact AitpEnvelope.readable_of_sign hP h.initiatorHolds.total.lawful h.hello.fits
    hwrit.distinctKeys_toValue (hwrit.readable_toValue hP) he

theorem writable_helloAckPayload (h : x.Honest P ki kr grantsI grantsR) :
    (x.helloAckPayload kr proof).Writable P :=
  ⟨.none, h.writable.2, .none⟩

theorem readable_helloAck (hP : P.ReadsText) (h : x.Honest P ki kr grantsI grantsR)
    (he : signEnvelopeWith x.server.signingKey .mutualHelloAck (x.helloAckPayload kr proof).toValue
      x.helloDraws.ackMessageId x.helloDraws.ackTimestamp = .ok helloAck) :
    helloAck.Readable P := by
  have hwrit : (x.helloAckPayload kr proof).Writable P := h.writable_helloAckPayload
  exact AitpEnvelope.readable_of_sign hP h.responderHolds.total.lawful h.helloAck.fits
    hwrit.distinctKeys_toValue (hwrit.readable_toValue hP) he

theorem readable_commit (hP : P.ReadsText) (h : x.Honest P ki kr grantsI grantsR)
    {m : MutualCommitPayload} (hext : m.extensions = none)
    (he : signEnvelopeWith x.config.signingKey .mutualCommit m.toValue x.env.commitMessageId
      x.env.commitTimestamp = .ok commit) : commit.Readable P := by
  have hholdable : Holdable P 125 m.extensions := hext ▸ .none
  exact AitpEnvelope.readable_of_sign hP h.initiatorHolds.total.lawful h.commit.fits
    (MutualCommitPayload.distinctKeys_toValue hholdable)
    (MutualCommitPayload.readable_toValue hholdable) he

theorem readable_commitAck (hP : P.ReadsText) (h : x.Honest P ki kr grantsI grantsR)
    {m : MutualCommitAckPayload} (hext : m.extensions = none)
    (he : signEnvelopeWith x.server.signingKey .mutualCommitAck m.toValue
      x.commitDraws.ackMessageId x.commitDraws.ackTimestamp = .ok commitAck) :
    commitAck.Readable P := by
  have hholdable : Holdable P 125 m.extensions := hext ▸ .none
  exact AitpEnvelope.readable_of_sign hP h.responderHolds.total.lawful h.commitAck.fits
    (MutualCommitPayload.distinctKeys_toValue hholdable)
    (MutualCommitPayload.readable_toValue hholdable) he

/-! ### The steps -/

/-- The initiator posts its HELLO. -/
theorem exists_hello (h : x.Honest P ki kr grantsI grantsR) : ∃ proof input hello,
    x.config.startHandshake P x.env = .ok (x.server.manifest,
      .awaitingHelloAck (encodeBase64Url x.initiatorNonce.bytes) x.server.manifest.aid, hello) ∧
    Initiator.start P x.initiator (.pinnedKey x.initiator.manifest.identityHint.subject)
      x.server.manifest.aid x.env.helloMessageId x.env.helloTimestamp x.config.requestedGrants
      (some x.initiatorNonce) = .ok (.awaitingHelloAck (encodeBase64Url x.initiatorNonce.bytes)
        x.server.manifest.aid, x.helloPayload ki proof) ∧
    pinnedKeyProofInput x.config.signingKey.aid x.server.manifest.aid x.env.helloMessageId
      x.env.helloTimestamp (encodeBase64Url x.initiatorNonce.bytes) = .ok input ∧
    x.config.signingKey.signJcs input = .ok proof ∧
    signEnvelopeWith x.config.signingKey .mutualHello (x.helloPayload ki proof).toValue
      x.env.helloMessageId x.env.helloTimestamp = .ok hello := by
  obtain ⟨proof, input, hd, hi, hp⟩ := buildDescriptor_pinnedKey h.initiatorHolds.total
    x.config.ownManifest.identityHint.subject x.server.manifest.aid x.env.helloMessageId
    x.env.helloTimestamp x.initiatorNonce
  have hstart : Initiator.start P x.initiator
      (.pinnedKey x.initiator.manifest.identityHint.subject)
      x.server.manifest.aid x.env.helloMessageId x.env.helloTimestamp x.config.requestedGrants
      (some x.initiatorNonce) = .ok (.awaitingHelloAck (encodeBase64Url x.initiatorNonce.bytes)
        x.server.manifest.aid, x.helloPayload ki proof) := by
    simp only [Initiator.start, freshNonce, Option.map_some, okOr_some, ok_bind, bind_eq_ok,
      pure_eq_ok]
    exact ⟨_, hd, rfl⟩
  obtain ⟨hello, he⟩ : ∃ e, signEnvelopeWith x.config.signingKey .mutualHello
      (x.helloPayload ki proof).toValue x.env.helloMessageId x.env.helloTimestamp = .ok e :=
    h.initiatorHolds.total.signEnvelopeWith .mutualHello h.hello.layout rfl h.hello.nonneg
  refine ⟨proof, input, hello, ?_, hstart, hi, hp, he⟩
  have hcompatible : checkIdentityTypeCompatibility x.server.manifest .pinnedKey = .ok () :=
    h.responderTrusts.accepts
  simp only [InitiatorConfig.startHandshake, h.initiatorSubject, IdentityMode.presentedType,
    IdentityMode.presentedIdentity, h.fetched, h.reachable, h.nonces.1, bind_eq_ok, okOr_eq_ok,
    mapErr_eq_ok, ensure_eq_ok, pure_eq_ok, exists_const]
  exact ⟨_, rfl, (), hcompatible, _, hstart, hello, he, trivial, rfl⟩

/-- The server answers it, and opens a session. -/
theorem exists_helloAck (hP : P.ReadsText) (h : x.Honest P ki kr grantsI grantsR)
    {state : HandshakeState} {s : Initiator} {input : Bytes}
    (ha : state.guard.Admits x.server.config x.env.helloMessageId x.config.ownManifest.aid
      x.helloSource x.helloReceived)
    (hs : Initiator.start P x.initiator (.pinnedKey x.initiator.manifest.identityHint.subject)
      x.server.manifest.aid x.env.helloMessageId x.env.helloTimestamp x.config.requestedGrants
      (some x.initiatorNonce) = .ok (s, x.helloPayload ki proof))
    (hi : pinnedKeyProofInput x.config.signingKey.aid x.server.manifest.aid x.env.helloMessageId
      x.env.helloTimestamp (encodeBase64Url x.initiatorNonce.bytes) = .ok input)
    (hp : x.config.signingKey.signJcs input = .ok proof)
    (he : signEnvelopeWith x.config.signingKey .mutualHello (x.helloPayload ki proof).toValue
      x.env.helloMessageId x.env.helloTimestamp = .ok hello) :
    ∃ proof' input' helloAck,
      (x.server.serveHello P J x.limits state (x.helloRequest hello) x.helloDraws
        x.helloClock).1 = .ok helloAck ∧
      (x.server.serveHello P J x.limits state (x.helloRequest hello) x.helloDraws
        x.helloClock).2.sessions = state.sessions.openSession x.limits x.helloClock
          x.helloDraws.sessionId (.awaitingCommit (x.awaiting ki proof)) ∧
      pinnedKeyProofInput x.server.signingKey.aid x.config.ownManifest.aid
        x.helloDraws.ackMessageId x.helloDraws.ackTimestamp
        (encodeBase64Url x.serverNonce.bytes) = .ok input' ∧
      x.server.signingKey.signJcs input' = .ok proof' ∧
      signEnvelopeWith x.server.signingKey .mutualHelloAck (x.helloAckPayload kr proof').toValue
        x.helloDraws.ackMessageId x.helloDraws.ackTimestamp = .ok helloAck := by
  obtain ⟨hread, -, hsender, -⟩ := HandshakeServer.readHello_start h.initiatorHolds
    h.writable.1 hs he
  have hreadable := h.readable_hello hP hs he
  obtain ⟨-, -, -, sig, -, hsigned⟩ := signEnvelopeWith_eq_ok.mp he
  have hid : hello.messageId = x.env.helloMessageId := by rw [hsigned]; rfl
  have htype : hello.messageType = .mutualHello := by rw [hsigned]; rfl
  have htime : hello.timestamp = x.env.helloTimestamp := by rw [hsigned]; rfl
  have hsend : hello.sender = x.config.ownManifest.aid := hsender
  have hreceived : (receiveEnvelope P x.server.config state.guard (x.helloRequest hello)
      .mutualHello).1 = .ok hello := by
    rw [← htype]
    apply receiveEnvelope_posting hreadable
    · rw [hid, hsend]
      exact ha
    · rw [htime]
      exact h.helloTimely
  have hnow : x.helloDraws.now ≤ x.config.ownManifest.expiresAt :=
    h.ordered.1.trans h.readings.2.1.le
  have hb : bootstrapVerifyPeer P J hello x.config.ownManifest
      (.pinnedKey x.config.ownManifest.identityHint.subject (encodeBase64Url ki.bytes) proof)
      (encodeBase64Url x.initiatorNonce.bytes) x.responder = .ok ki := by
    apply bootstrapVerifyPeer_honest x.responder h.initiatorHolds h.responderTrusts hnow hsend
    · rw [hid, htime]
      exact hi
    · exact hp
  have hpol : applyPeerPolicy (.pinnedKey x.config.ownManifest.identityHint.subject
      (encodeBase64Url ki.bytes) proof) x.responder = .ok () :=
    mapErr_eq_ok.mpr h.responderTrusts.accepts
  obtain ⟨proof', input', hd, hi', hp'⟩ := buildDescriptor_pinnedKey h.responderHolds.total
    x.server.subject x.config.ownManifest.aid x.helloDraws.ackMessageId x.helloDraws.ackTimestamp
    x.serverNonce
  have hanswer : Responder.onHello P J hello (x.helloPayload ki proof)
      (.pinnedKey x.server.subject) x.helloDraws.ackMessageId x.helloDraws.ackTimestamp
      (x.server.helloConfig x.helloDraws.now) x.server.requestedGrants x.helloDraws.popNonce =
        .ok (.awaitingCommit (x.awaiting ki proof), x.helloAckPayload kr proof') := by
    simp only [Responder.onHello, h.nonces.2, freshNonce, Option.map_some, okOr_some, bind_eq_ok,
      pure_eq_ok]
    exact ⟨ki, hb, (), hpol, _, rfl, _, hd, rfl⟩
  have htaken : x.server.takeHello P J hello x.helloDraws =
      .ok (.awaitingCommit (x.awaiting ki proof), x.helloAckPayload kr proof') := by
    simp only [HandshakeServer.takeHello, hread, ok_bind, hanswer, mapErr_ok]
  obtain ⟨helloAck, hack⟩ : ∃ e, signEnvelopeWith x.server.signingKey .mutualHelloAck
      (x.helloAckPayload kr proof').toValue x.helloDraws.ackMessageId x.helloDraws.ackTimestamp =
        .ok e :=
    h.responderHolds.total.signEnvelopeWith .mutualHelloAck h.helloAck.layout rfl
      h.helloAck.nonneg
  refine ⟨proof', input', helloAck, ?_, ?_, hi', hp', hack⟩
  · simp only [HandshakeServer.serveHello, HandshakeServer.receiveHello, hreceived, mapErr_ok,
      ok_bind, htaken, HandshakeServer.signHelloAck, hack]
  · simp only [HandshakeServer.serveHello, HandshakeServer.receiveHello, hreceived, mapErr_ok,
      ok_bind, htaken]

/-- The initiator takes the answer, and posts its COMMIT. -/
theorem exists_commit (hP : P.ReadsText) (h : x.Honest P ki kr grantsI grantsR) {input : Bytes}
    {sessionId : String}
    (hi : pinnedKeyProofInput x.server.signingKey.aid x.config.ownManifest.aid
      x.helloDraws.ackMessageId x.helloDraws.ackTimestamp
      (encodeBase64Url x.serverNonce.bytes) = .ok input)
    (hp : x.server.signingKey.signJcs input = .ok proof)
    (he : signEnvelopeWith x.server.signingKey .mutualHelloAck (x.helloAckPayload kr proof).toValue
      x.helloDraws.ackMessageId x.helloDraws.ackTimestamp = .ok helloAck)
    (hlen : helloAck.FitsResponse) :
    ∃ c m commit, CommitOf P x.committer x.server.manifest.aid grantsR x.serverNonce c m ∧
      signEnvelopeWith x.config.signingKey .mutualCommit m.toValue x.env.commitMessageId
        x.env.commitTimestamp = .ok commit ∧
      m.extensions = none ∧
      x.config.takeHelloAck P J x.env (.awaitingHelloAck
        (encodeBase64Url x.initiatorNonce.bytes) x.server.manifest.aid)
        (.carrying sessionId helloAck) = ([.onHelloAck helloAck x.env.helloAckNow],
          .ok (.awaitingCommitAck (encodeBase64Url x.initiatorNonce.bytes)
            (.ofManifest x.server.manifest kr), commit, kr)) := by
  have hlawful : x.server.signingKey.Lawful P kr := h.responderHolds.total.lawful
  have hreadable := h.readable_helloAck hP he
  have hverified := (verifyEnvelopeSignature_signEnvelopeWith hlawful he).2
  obtain ⟨-, -, -, sig, -, hsigned⟩ := signEnvelopeWith_eq_ok.mp he
  have hpayload : helloAck.payload = (x.helloAckPayload kr proof).toValue := by rw [hsigned]; rfl
  have hid : helloAck.messageId = x.helloDraws.ackMessageId := by rw [hsigned]; rfl
  have htime : helloAck.timestamp = x.helloDraws.ackTimestamp := by rw [hsigned]; rfl
  have hsender : helloAck.sender = x.server.manifest.aid := by
    rw [hsigned]
    exact h.responderHolds.aid
  have hread : readHelloAck P (.carrying sessionId helloAck) =
      .ok (helloAck, x.helloAckPayload kr proof, kr) := by
    apply readHelloAck_eq_ok.mpr
    refine ⟨readAitpEnvelopeResponse_carrying hreadable hlen, ?_, hverified, ?_, ?_⟩
    · rw [hsender]
      exact h.fromAid_responder
    · rw [hpayload]
      exact checkMembers_obj_written (by decide)
    · rw [hpayload]
      exact h.writable_helloAckPayload.decode_toValue
  obtain ⟨⟨-, -⟩, hx, hxr, -, -, -⟩ := h.readings
  have hholds : x.committer.Holds P ki := ⟨h.initiatorHolds.aid, h.initiatorHolds.total⟩
  have htrusts : x.committer.Trusts P x.responder kr := ⟨h.initiatorTrusts.pinned,
    h.initiatorTrusts.accepts, h.initiatorTrusts.manifest, h.initiatorTrusts.kind⟩
  have hnow : x.env.helloAckNow ≤ x.server.manifest.expiresAt := h.ordered.2.1.trans hxr.le
  have hb : bootstrapVerifyPeer P J helloAck x.server.manifest
      (.pinnedKey x.server.subject (encodeBase64Url kr.bytes) proof)
      (encodeBase64Url x.serverNonce.bytes) x.committer = .ok kr := by
    rw [h.responderSubject]
    apply bootstrapVerifyPeer_honest x.committer h.responderHolds htrusts hnow hsender
    · rw [hid, htime]
      exact hi
    · exact hp
  have hpol : applyPeerPolicy (.pinnedKey x.server.subject (encodeBase64Url kr.bytes) proof)
      x.committer = .ok () := mapErr_eq_ok.mpr h.initiatorTrusts.accepts
  have hbind : Initiator.bindPeer P J (encodeBase64Url x.initiatorNonce.bytes)
      x.server.manifest.aid helloAck (x.helloAckPayload kr proof) x.committer = .ok kr := by
    simp only [Initiator.bindPeer, HttpHandshake.helloAckPayload, bind_eq_ok, ensure_eq_ok,
      pure_eq_ok]
    exact ⟨(), decide_eq_true hsender, (), by simp, (), by simp, kr, hb, (), hpol, rfl⟩
  have hgrants : grantsForPeer x.committer
      (.pinnedKey x.server.subject (encodeBase64Url kr.bytes) proof) x.server.manifest.aid
      x.server.requestedGrants = .ok grantsR := by
    rw [h.responderGrants]
    rfl
  obtain ⟨c, m, hm, hmo⟩ := commitTo_honest x.committer x.env.jti hholds h.exact.1.fits
    h.writable.1.expiresAt hx h.fromAid_responder h.aid_ne.symm hgrants h.issuable.2 x.serverNonce
  have hext : m.extensions = none := by
    simp only [commitTo, bind_eq_ok, pure_eq_ok] at hm
    obtain ⟨_, -, _, -, rfl⟩ := hm
    rfl
  have htake : Initiator.onHelloAck P J (.awaitingHelloAck
      (encodeBase64Url x.initiatorNonce.bytes) x.server.manifest.aid) helloAck
      (x.helloAckPayload kr proof) (x.config.peerConfig noTctYet x.env.helloAckNow) x.env.jti =
        (.awaitingCommitAck (encodeBase64Url x.initiatorNonce.bytes)
          (.ofManifest x.server.manifest kr), .ok m) :=
    Initiator.onHelloAck_eq_ok.mpr ⟨_, _, kr, rfl, hbind, hm, rfl⟩
  obtain ⟨commit, hcommit⟩ : ∃ e, signEnvelopeWith x.config.signingKey .mutualCommit m.toValue
      x.env.commitMessageId x.env.commitTimestamp = .ok e :=
    h.initiatorHolds.total.signEnvelopeWith .mutualCommit h.commit.layout rfl h.commit.nonneg
  refine ⟨c, m, commit, hmo, hcommit, hext, ?_⟩
  simp only [InitiatorConfig.takeHelloAck, hread, htake, hcommit, mapErr_ok, ok_bind]
  rfl

/-- The server takes the COMMIT for the session in its table, completes it and answers. -/
theorem exists_commitAck (hP : P.ReadsText) (h : x.Honest P ki kr grantsI grantsR)
    {state : HandshakeState} {entry : SessionEntry} {c : TctClaims} {m : MutualCommitPayload}
    (ha : state.guard.Admits x.server.config x.env.commitMessageId x.config.ownManifest.aid
      x.commitSource x.commitReceived)
    (hmem : (x.helloDraws.sessionId, entry) ∈ state.sessions.entries)
    (hentry : entry.responder = .awaitingCommit (x.awaiting ki proof))
    (hlive : x.commitClock.first - entry.createdAt ≤ x.limits.sessionTtl ∧
      x.commitClock.second - entry.createdAt ≤ x.limits.sessionTtl)
    (hm : CommitOf P x.committer x.server.manifest.aid grantsR x.serverNonce c m)
    (hext : m.extensions = none)
    (he : signEnvelopeWith x.config.signingKey .mutualCommit m.toValue x.env.commitMessageId
      x.env.commitTimestamp = .ok commit) :
    ∃ c' completed commitAck,
      (x.server.receiveCommit P x.limits state (x.commitRequest commit)
        (some x.sessionHeader) x.commitDraws x.commitClock).1 = .ok completed ∧
      (x.server.serveCommit P x.limits state (x.commitRequest commit)
        (some x.sessionHeader) x.commitDraws x.commitClock).1 =
          .ok commitAck ∧
      completed = ⟨x.awaiting ki proof, commit, completed.ack,
        ⟨m.tct, c, grantsR⟩, m.grantVoucher, grantsR⟩ ∧
      decodeMutualCommitPayload commit.payload = some m ∧
      commitTo P x.acknowledger (x.awaiting ki proof).peerIdentity x.config.ownManifest.aid ki
        x.config.requestedGrants (encodeBase64Url x.initiatorNonce.bytes) x.commitDraws.jti =
          .ok completed.ack ∧
      CommitOf P x.acknowledger x.config.ownManifest.aid grantsI x.initiatorNonce c' completed.ack ∧
      completed.ack.extensions = none ∧
      signEnvelopeWith x.server.signingKey .mutualCommitAck completed.ack.toValue
        x.commitDraws.ackMessageId x.commitDraws.ackTimestamp = .ok commitAck := by
  have hlawful : x.config.signingKey.Lawful P ki := h.initiatorHolds.total.lawful
  have hholdable : Holdable P 125 m.extensions := hext ▸ .none
  have hreadable := h.readable_commit hP hext he
  have hverified := (verifyEnvelopeSignature_signEnvelopeWith hlawful he).2
  obtain ⟨-, -, -, sig, -, hsigned⟩ := signEnvelopeWith_eq_ok.mp he
  have hpayload : commit.payload = m.toValue := by rw [hsigned]; rfl
  have hid : commit.messageId = x.env.commitMessageId := by rw [hsigned]; rfl
  have htype : commit.messageType = .mutualCommit := by rw [hsigned]; rfl
  have htime : commit.timestamp = x.env.commitTimestamp := by rw [hsigned]; rfl
  have hsender : commit.sender = x.config.ownManifest.aid := by
    rw [hsigned]
    exact h.initiatorHolds.aid
  have hreceived : (receiveEnvelope P x.server.config state.guard (x.commitRequest commit)
      .mutualCommit).1 = .ok commit := by
    rw [← htype]
    apply receiveEnvelope_posting hreadable
    · rw [hid, hsender]
      exact ha
    · rw [htime]
      exact h.commitTimely
  have hdecoded : decodeMutualCommitPayload commit.payload = some m := by
    rw [hpayload]
    exact MutualCommitPayload.decode_toValue hholdable
  have hread : HandshakeServer.readCommit P commit = .ok m := by
    apply HandshakeServer.readCommit_eq_ok.mpr
    refine ⟨?_, hdecoded, ki, ?_, hverified⟩
    · rw [hpayload]
      exact checkMembers_obj_written (by decide)
    · rw [hsender]
      exact h.fromAid_initiator
  obtain ⟨⟨hf, -⟩, -, hxr, hxi, hl, -⟩ := h.readings
  have hinitiator : x.committer.Holds P ki :=
    ⟨h.initiatorHolds.aid, h.initiatorHolds.total⟩
  have hresponder : x.acknowledger.Holds P kr := ⟨h.responderHolds.aid, h.responderHolds.total⟩
  have hoffered : grantsR ⊆ x.config.ownManifest.offeredCapabilities := by
    intro g hg
    rw [h.responderGrants] at hg
    simpa using (List.mem_filter.mp hg).2
  have hacc : acceptCommit P (encodeBase64Url x.serverNonce.bytes)
      (.ofManifest x.config.ownManifest ki) m x.acknowledger =
        .ok ⟨⟨m.tct, c, grantsR⟩, m.grantVoucher, grantsR⟩ :=
    acceptCommit_honest x.acknowledger hP hinitiator hm (h.exact_of_commit hm) h.issuable.2
      hoffered h.aid_ne.symm hf h.ordered.2.1 hl hxi h.clear.1
  obtain ⟨c', m', hm', hmo'⟩ := commitTo_honest x.acknowledger x.commitDraws.jti hresponder hf
    h.writable.2.expiresAt hxr h.fromAid_initiator h.aid_ne (h.initiatorGrants proof) h.issuable.1
    x.initiatorNonce
  have hext' : m'.extensions = none := by
    simp only [commitTo, bind_eq_ok, pure_eq_ok] at hm'
    obtain ⟨_, -, _, -, rfl⟩ := hm'
    rfl
  have hcommit : (Responder.awaitingCommit (x.awaiting ki proof)).onCommit P commit m
      x.acknowledger x.commitDraws.jti =
        (.done, .ok (m', ⟨⟨m.tct, c, grantsR⟩, m.grantVoucher, grantsR⟩)) :=
    Responder.onCommit_eq_ok.mpr ⟨_, rfl, checkBound_eq_ok.mpr ⟨hsender, hm.echo⟩, hacc, hm', rfl⟩
  let completed : CompletedSession :=
    ⟨x.awaiting ki proof, commit, m', ⟨⟨m.tct, c, grantsR⟩, m.grantVoucher, grantsR⟩⟩
  have htaken : x.server.takeCommit P entry.responder commit x.commitDraws = .ok completed :=
    HandshakeServer.takeCommit_eq_ok.mpr ⟨m, _, rfl, hread, hentry, by rw [hentry]; exact hcommit⟩
  obtain ⟨commitAck, hack⟩ : ∃ e, signEnvelopeWith x.server.signingKey .mutualCommitAck m'.toValue
      x.commitDraws.ackMessageId x.commitDraws.ackTimestamp = .ok e :=
    h.responderHolds.total.signEnvelopeWith .mutualCommitAck h.commitAck.layout rfl
      h.commitAck.nonneg
  have hsession : (some x.sessionHeader).bind Uuid.tryParse =
      some x.helloDraws.sessionId := Uuid.tryParse_hyphenated _
  have htake := SessionTable.takeSession_of_mem hmem hlive.1 hlive.2
  have hcompleted : (x.server.receiveCommit P x.limits state (x.commitRequest commit)
      (some x.sessionHeader) x.commitDraws x.commitClock).1 =
        .ok completed := by
    simp only [HandshakeServer.receiveCommit, hreceived, hsession, htake, mapErr_ok, ok_bind,
      htaken]
  refine ⟨c', completed, commitAck, hcompleted, ?_, rfl, hdecoded, hm', hmo', hext', hack⟩
  simp only [HandshakeServer.serveCommit, hcompleted, ok_bind, HandshakeServer.signCommitAck]
  exact mapErr_eq_ok.mpr hack

/-- The initiator takes the answer, and returns its session. -/
theorem takeCommitAck_ok (hP : P.ReadsText) (h : x.Honest P ki kr grantsI grantsR)
    (sessionId : String) {c : TctClaims} {m : MutualCommitAckPayload}
    (hm : CommitOf P x.acknowledger x.config.ownManifest.aid grantsI x.initiatorNonce c m)
    (hext : m.extensions = none)
    (he : signEnvelopeWith x.server.signingKey .mutualCommitAck m.toValue
      x.commitDraws.ackMessageId x.commitDraws.ackTimestamp = .ok commitAck)
    (hlen : commitAck.FitsResponse) :
    x.config.takeCommitAck P x.env x.server.manifest
        (.awaitingCommitAck (encodeBase64Url x.initiatorNonce.bytes)
          (.ofManifest x.server.manifest kr)) kr (.carrying sessionId commitAck) =
      ([.onCommitAck commitAck x.env.commitAckNow],
        .ok ⟨x.server.manifest.aid, kr, ⟨m.tct, c, grantsI⟩, m.grantVoucher, grantsI⟩) := by
  have hlawful : x.server.signingKey.Lawful P kr := h.responderHolds.total.lawful
  have hholdable : Holdable P 125 m.extensions := hext ▸ .none
  have hreadable := h.readable_commitAck hP hext he
  have hverified := (verifyEnvelopeSignature_signEnvelopeWith hlawful he).2
  obtain ⟨-, -, -, sig, -, hsigned⟩ := signEnvelopeWith_eq_ok.mp he
  have hpayload : commitAck.payload = m.toValue := by rw [hsigned]; rfl
  have hsender : commitAck.sender = x.server.manifest.aid := by
    rw [hsigned]
    exact h.responderHolds.aid
  have hread : readCommitAck P kr (.carrying sessionId commitAck) = .ok (commitAck, m) := by
    simp only [readCommitAck, bind_eq_ok, mapErr_eq_ok, ensureMembers_eq_ok, okOr_eq_ok,
      pure_eq_ok]
    exact ⟨_, readAitpEnvelopeResponse_carrying hreadable hlen, (), hverified, (),
      hpayload ▸ checkMembers_obj_written (by decide), m,
      hpayload ▸ MutualCommitPayload.decode_toValue hholdable, rfl⟩
  obtain ⟨⟨-, hf⟩, -, -, -, -, hl⟩ := h.readings
  have hresponder : x.acknowledger.Holds P kr := ⟨h.responderHolds.aid, h.responderHolds.total⟩
  have hoffered : grantsI ⊆ x.server.manifest.offeredCapabilities :=
    grantsForPeer_subset (h.initiatorGrants "")
  let awaiting : Initiator := .awaitingCommitAck (encodeBase64Url x.initiatorNonce.bytes)
    (.ofManifest x.server.manifest kr)
  let cfg := x.config.peerConfig (.check (x.env.prepared x.server.manifest.aid
    awaiting.peerRevocationListUri)) x.env.commitAckNow
  have hacc : acceptCommit P (encodeBase64Url x.initiatorNonce.bytes)
      (.ofManifest x.server.manifest kr) m cfg =
        .ok ⟨⟨m.tct, c, grantsI⟩, m.grantVoucher, grantsI⟩ :=
    acceptCommit_honest cfg hP hresponder hm (h.exact_of_commitAck hm) h.issuable.1 hoffered
      h.aid_ne hf h.ordered.2.2 hl h.expiry.2.le h.clear.2
  have hcompleted : Initiator.onCommitAck P awaiting commitAck m cfg =
      (.done, .ok ⟨⟨m.tct, c, grantsI⟩, m.grantVoucher, grantsI⟩) :=
    Initiator.onCommitAck_eq_ok.mpr ⟨_, _, rfl, checkBound_eq_ok.mpr ⟨hsender, hm.echo⟩, hacc, rfl⟩
  unfold InitiatorConfig.takeCommitAck
  rw [hread]
  simp only
  rw [hcompleted]

end HttpHandshake.Honest

section

variable {P : Primitives} {x : HttpHandshake} {ki kr : VerifyingKey} {grantsI grantsR : List String}

end

/-! ## Two agents that pin each other's keys -/

namespace Toy

/-- Agent 1 addresses agent 0, which holds up to two sessions for five minutes. -/
def httpHandshake : HttpHandshake where
  config := facadeConfig
  env :=
    { lateSurroundings with
      peerManifest := some (namedManifest (some "agent"))
      helloAckNow := 11
      commitTimestamp := 12
      commitAckNow := 13 }
  server := helloServer (some "agent")
  limits := ⟨300 * nanosPerSec, 2⟩
  initiatorNonce := nonce 1
  serverNonce := nonce 2
  helloSource := "ip:unknown"
  helloReceived := 10 * nanosPerSec
  helloDraws := helloDraws
  helloClock := ⟨0, 1⟩
  commitSource := "ip:unknown"
  commitReceived := 12 * nanosPerSec
  commitDraws := ⟨12, fun _ _ _ => some .clear, drawnV4 6, uuid 7, 12⟩
  commitClock := ⟨2, 3⟩

theorem writable_namedManifest (name : Option String) {n : ℕ} :
    (namedManifest name).Writable primitives n :=
  ⟨(typed_namedManifest name).publishedAt, (typed_namedManifest name).expiresAt, nofun⟩

theorem httpHandshake_honest : httpHandshake.Honest primitives (agentKey 1) (agentKey 0)
    ["demo.echo"] ["demo.echo"] where
  initiatorHolds := ⟨rfl, signer_lawful _, fun _ => rfl⟩
  responderHolds := ⟨rfl, signer_lawful _, fun _ => rfl⟩
  distinct := agentKey_ne.symm
  initiatorTrusts := ⟨rfl, rfl, ⟨0, verifyManifest_namedManifest (by rintro s ⟨⟩; decide)
    (show (0 : Timestamp) ≤ Timestamp.saturatingAdd 0 defaultManifestTtl by decide)⟩, rfl⟩
  responderTrusts := ⟨rfl, rfl, ⟨0, verifyManifest_manifest 1 (by decide) (by decide) (by decide)
    (show (0 : Timestamp) ≤ Timestamp.saturatingAdd 0 defaultManifestTtl by decide)⟩, rfl⟩
  initiatorSubject := rfl
  responderSubject := rfl
  writable := ⟨writable_manifest, writable_namedManifest _⟩
  fetched := rfl
  reachable := rfl
  nonces := ⟨rfl, rfl⟩
  hello := ⟨checkV4_uuid 2, show Timestamp.Fits 10 by decide, show (0 : Timestamp) ≤ 10 by decide⟩
  helloAck := ⟨checkV4_uuid 3, show Timestamp.Fits 10 by decide, show (0 : Timestamp) ≤ 10 by decide⟩
  commit := ⟨checkV4_uuid 5, show Timestamp.Fits 12 by decide, show (0 : Timestamp) ≤ 12 by decide⟩
  commitAck :=
    ⟨checkV4_uuid 7, show Timestamp.Fits 12 by decide, show (0 : Timestamp) ≤ 12 by decide⟩
  helloTimely := show Timestamp.isWithinToleranceOf 10 (timestampAt (10 * nanosPerSec)) 300 = true by
    decide
  commitTimely := show Timestamp.isWithinToleranceOf 12 (timestampAt (12 * nanosPerSec)) 300 = true by
    decide
  ordered := show (10 : Int) ≤ 11 ∧ (11 : Int) ≤ 12 ∧ (12 : Int) ≤ 13 by decide
  exact := show Timestamp.Exact 11 ∧
    Timestamp.Exact (min (Timestamp.saturatingAdd 11 defaultTctTtl)
      (Timestamp.saturatingAdd 0 defaultManifestTtl)) ∧
    Timestamp.Exact (min (Timestamp.saturatingAdd 12 defaultTctTtl)
      (Timestamp.saturatingAdd 0 defaultManifestTtl)) by decide
  expiry := show (13 : Int) < Timestamp.saturatingAdd 0 defaultManifestTtl ∧
    (13 : Int) < Timestamp.saturatingAdd 0 defaultManifestTtl by decide
  gaps := show (12 : Int) < 11 + defaultTctTtl ∧ (13 : Int) < 12 + defaultTctTtl by decide
  initiatorGrants _ := rfl
  responderGrants := rfl
  issuable := ⟨⟨⟨List.cons_ne_nil _ _, by decide, by decide⟩, by decide⟩,
    ⟨⟨List.cons_ne_nil _ _, by decide, by decide⟩, by decide⟩⟩
  clear := ⟨fun _ _ => rfl, fun _ _ => rfl⟩

end Toy

end Aitp
