import Aitp.Handshake.Honest
import Aitp.Handshake.Payloads
import Aitp.Transport.Receive

/-! # Answering a HELLO

`handle_hello_inner` of `transport/server.rs`. The manifest in the answer is the
server's, and the identity is a pinned key under the display name of that manifest.
An initiator takes the identity only if it is the one the manifest hints at.
-/

namespace Aitp

/-- What a handshake server is built with. -/
structure HandshakeServer where
  signingKey : Signer
  manifest : Manifest
  trustAnchors : List String
  jwksResolver : JwksResolver
  pinnedKeyStore : PinnedKeyStore
  identityVerifier : Option IdentityVerifier
  grantPolicy : Option GrantPolicyFn
  requestedGrants : List String
  insecureLocalhost : Bool
  config : ServerConfig

/-- What the handler of a HELLO draws, and when it reads the clock. -/
structure HelloDraws where
  now : Timestamp
  ackMessageId : Uuid
  ackTimestamp : Timestamp
  popNonce : Option Nonce
  sessionId : Uuid

/-- What a handler responds with when it fails. An error of the handshake is answered with its
registered code, and an undecodable payload with one that depends on how it fails to decode. -/
inductive HandlerError where
  | response (error : ResponseError)
  | handshake (error : HandshakeError)
  | undecodable
  | server

/-- The envelope that answers a HELLO, and the session opened under the header's identifier. -/
structure HelloAnswer where
  envelope : AitpEnvelope
  sessionId : Uuid
  responder : Responder

namespace HandshakeServer

/-- The configuration of the responder while it takes a HELLO: no token is looked up. -/
def helloConfig (server : HandshakeServer) (now : Timestamp) : PeerConfig where
  signingKey := server.signingKey
  manifest := server.manifest
  trustAnchors := server.trustAnchors
  jwksResolver := server.jwksResolver
  pinnedKeyStore := server.pinnedKeyStore
  grantPolicy := server.grantPolicy
  revocation := .check fun _ => none
  identityVerifier := server.identityVerifier
  now := now
  insecureLocalhost := server.insecureLocalhost

/-- The subject that the server presents. -/
def subject (server : HandshakeServer) : String :=
  server.manifest.displayName.getD "responder"

/-- The payload of a HELLO whose signature verifies under the key of its sender. -/
def readHello (P : Primitives) (envelope : AitpEnvelope) :
    Except HandlerError MutualHelloPayload := do
  ensureMembers envelope.payload mutualHelloPayloadMembers fun _ =>
    .response (.aitp .unknownField)
  let payload ← okOr (decodeMutualHelloPayload envelope.payload) .undecodable
  let peerPk ← mapErr (fun _ => .response (.aitp .invalidEnvelope))
    (VerifyingKey.fromAid P envelope.sender)
  mapErr (fun _ => .response (.aitp .invalidSignature)) (verifyEnvelopeSignature P envelope peerPk)
  return payload

/-- `handle_hello_inner`, once the envelope is received. -/
def answerHello (P : Primitives) (J : Jose) (server : HandshakeServer) (envelope : AitpEnvelope)
    (draws : HelloDraws) : Except HandlerError HelloAnswer := do
  let payload ← readHello P envelope
  let (responder, ack) ← mapErr .handshake
    (Responder.onHello P J envelope payload (.pinnedKey server.subject) draws.ackMessageId
      draws.ackTimestamp (server.helloConfig draws.now) server.requestedGrants draws.popNonce)
  let ackEnvelope ← mapErr (fun _ => .server)
    (signEnvelopeWith server.signingKey .mutualHelloAck ack.toValue draws.ackMessageId
      draws.ackTimestamp)
  return ⟨ackEnvelope, draws.sessionId, responder⟩

/-- `handle_hello_inner`. -/
def handleHello (P : Primitives) (J : Jose) (server : HandshakeServer) (state : ServerState)
    (request : Request) (draws : HelloDraws) : Except HandlerError HelloAnswer × ServerState :=
  let (received, state) := receiveEnvelope P server.config state request .mutualHello
  (mapErr .response received >>= fun envelope => server.answerHello P J envelope draws, state)

variable {P : Primitives} {J : Jose} {server : HandshakeServer} {state : ServerState}
  {request : Request} {draws : HelloDraws} {hello : AitpEnvelope} {answer : HelloAnswer}
  {cfg : PeerConfig} {key : VerifyingKey}

/-- What a HELLO that was answered passed, and what answers it. -/
theorem answerHello_ok (h : server.answerHello P J hello draws = .ok answer) :
    ∃ payload responder ack, readHello P hello = .ok payload ∧
      Responder.onHello P J hello payload (.pinnedKey server.subject) draws.ackMessageId
        draws.ackTimestamp (server.helloConfig draws.now) server.requestedGrants draws.popNonce =
          .ok (responder, ack) ∧
      signEnvelopeWith server.signingKey .mutualHelloAck ack.toValue draws.ackMessageId
        draws.ackTimestamp = .ok answer.envelope := by
  simp only [answerHello, bind_eq_ok, mapErr_eq_ok, pure_eq_ok, Prod.exists] at h
  obtain ⟨payload, hp, responder, ack, ha, envelope, he, rfl⟩ := h
  exact ⟨payload, responder, ack, hp, ha, he⟩

/-- The answer carries the server's manifest, and a pinned-key identity that was proved to the
sender of the HELLO. -/
theorem onHello_pinnedKey {payload : MutualHelloPayload} {responder : Responder} {subject : String}
    {ack : MutualHelloAckPayload} (hk : server.signingKey.Lawful P key)
    (h : Responder.onHello P J hello payload (.pinnedKey subject) draws.ackMessageId
      draws.ackTimestamp (server.helloConfig draws.now) server.requestedGrants draws.popNonce =
        .ok (responder, ack)) :
    payload.manifest.aid = hello.sender ∧ ∃ (n : Nonce) (proof : String) (input : Bytes),
      ack = ⟨.pinnedKey subject (encodeBase64Url key.bytes) proof, server.manifest,
        server.requestedGrants, encodeBase64Url n.bytes, payload.popNonce, none⟩ ∧
      pinnedKeyProofInput server.signingKey.aid hello.sender draws.ackMessageId
        draws.ackTimestamp (encodeBase64Url n.bytes) = .ok input ∧
      server.signingKey.signJcs input = .ok proof := by
  simp only [Responder.onHello, freshNonce, bind_eq_ok, okOr_eq_ok, pure_eq_ok] at h
  obtain ⟨peerKey, hb, _, -, popNonce, hn, descriptor, hd, he⟩ := h
  obtain ⟨n, -, rfl⟩ := Option.map_eq_some_iff.mp hn
  have hs := (bootstrapVerifyPeer_ok hb).1
  simp only [PresentedIdentity.buildDescriptor, bind_eq_ok, mapErr_eq_ok, pure_eq_ok] at hd
  obtain ⟨pk, hpk, proof, hproof, rfl⟩ := hd
  have hkey : VerifyingKey.fromAid P server.signingKey.aid = .ok pk := hpk
  obtain rfl : key = pk := Except.ok.inj (hk.1.symm.trans hkey)
  simp only [signPinnedKeyProof, bind_eq_ok, mapErr_eq_ok] at hproof
  obtain ⟨input, hi, hsig⟩ := hproof
  obtain ⟨-, rfl⟩ := Prod.mk.inj he
  refine ⟨hs, n, proof, input, rfl, ?_, hsig⟩
  rw [← hs]
  exact hi

/-- A pinned-key identity that was proved to the verifier bootstraps under the hinted subject, and
under no other. -/
theorem bootstrapVerifyPeer_pinnedKey {signer : Signer} {m : Manifest} {envelope : AitpEnvelope}
    {subject proof popNonce : String} {input : Bytes} (hk : signer.Lawful P key)
    (ha : signer.aid = m.aid) (hm : verifyManifest P m ⟨cfg.now, cfg.insecureLocalhost⟩ = .ok ())
    (hkind : m.identityHint.kind = .pinnedKey) (ht : cfg.pinnedKeyStore key = true)
    (he : envelope.sender = m.aid)
    (hi : pinnedKeyProofInput signer.aid cfg.manifest.aid envelope.messageId envelope.timestamp
      popNonce = .ok input) (hs : signer.signJcs input = .ok proof) :
    bootstrapVerifyPeer P J envelope m (.pinnedKey subject (encodeBase64Url key.bytes) proof)
        popNonce cfg =
      if subject = m.identityHint.subject then .ok key
      else .error (.identity "identity.subject != manifest.identity_hint.subject") := by
  have hv := verifyPinnedKey_pinnedKey hk subject ht hi hs
  rw [ha] at hv
  have hproof : verifyIdentityProof P J envelope m
      (.pinnedKey subject (encodeBase64Url key.bytes) proof) popNonce cfg = .ok key := by
    simp only [verifyIdentityProof, IdentityDescriptor.pinnedKey, bind_eq_ok, pure_eq_ok]
    exact ⟨_, hv, rfl⟩
  have hsend : decide (m.aid = envelope.sender) = true := decide_eq_true he.symm
  split_ifs with hsub
  · simp only [bootstrapVerifyPeer, bind_eq_ok, ensure_eq_ok, mapErr_eq_ok]
    exact ⟨(), hsend, (), hm, (), by simp [IdentityDescriptor.pinnedKey, hsub], (),
      by simp [IdentityDescriptor.pinnedKey, hkind], (), by simp [IdentityDescriptor.pinnedKey],
      hproof⟩
  · have hne : (subject == m.identityHint.subject) = false := beq_eq_false_iff_ne.mpr hsub
    simp [bootstrapVerifyPeer, hsend, hm, hne, IdentityDescriptor.pinnedKey, ensure]

/-- The answer to a HELLO, as the initiator that sent it reads it and checks it. -/
theorem helloAck_spec (hk : server.signingKey.Lawful P key)
    (ha : server.signingKey.aid = server.manifest.aid) (hw : server.manifest.Typed)
    (hm : verifyManifest P server.manifest ⟨cfg.now, cfg.insecureLocalhost⟩ = .ok ())
    (hkind : server.manifest.identityHint.kind = .pinnedKey)
    (hr : (receiveEnvelope P server.config state request .mutualHello).1 = .ok hello)
    (h : (server.handleHello P J state request draws).1 = .ok answer)
    (hi : cfg.manifest.aid = hello.sender) (ht : cfg.pinnedKeyStore key = true) :
    ∃ ack, decodeMutualHelloAckPayload answer.envelope.payload = some ack ∧
      ack.manifest = server.manifest ∧ ack.identity.kind = .pinnedKey ∧
      ack.identity.subject = server.subject ∧
      bootstrapVerifyPeer P J answer.envelope ack.manifest ack.identity ack.popNonce cfg =
        if server.subject = server.manifest.identityHint.subject then .ok key
        else .error (.identity "identity.subject != manifest.identity_hint.subject") := by
  simp only [handleHello, hr, mapErr_ok, ok_bind] at h
  obtain ⟨payload, responder, ack, -, hack, hsign⟩ := answerHello_ok h
  obtain ⟨-, n, proof, input, hcarried, hin, hsig⟩ := onHello_pinnedKey hk hack
  obtain ⟨-, -, -, sig, -, hanswer⟩ := signEnvelopeWith_eq_ok.mp hsign
  have hsender : answer.envelope.sender = server.manifest.aid := by
    rw [hanswer]
    exact ha
  have hproof : pinnedKeyProofInput server.signingKey.aid cfg.manifest.aid
      answer.envelope.messageId answer.envelope.timestamp (encodeBase64Url n.bytes) = .ok input := by
    rw [hanswer, hi]
    exact hin
  have hdec : decodeMutualHelloAckPayload answer.envelope.payload = some ack := by
    rw [hanswer, hcarried]
    exact MutualHelloAckPayload.decode_toValue (P := P) (k := 0) (n := 0) .none hw .none
  refine ⟨ack, hdec, ?_⟩
  rw [hcarried]
  exact ⟨rfl, rfl, rfl, bootstrapVerifyPeer_pinnedKey hk ha hm hkind ht hsender hproof hsig⟩

/-- The answer to a HELLO bootstraps at the initiator that sent it, if it trusts the server's key,
exactly when the subject that the manifest hints at is the one the server presents. -/
theorem helloAck_bootstraps_iff (hk : server.signingKey.Lawful P key)
    (ha : server.signingKey.aid = server.manifest.aid) (hw : server.manifest.Typed)
    (hm : verifyManifest P server.manifest ⟨cfg.now, cfg.insecureLocalhost⟩ = .ok ())
    (hkind : server.manifest.identityHint.kind = .pinnedKey)
    (hr : (receiveEnvelope P server.config state request .mutualHello).1 = .ok hello)
    (h : (server.handleHello P J state request draws).1 = .ok answer)
    (hi : cfg.manifest.aid = hello.sender) (ht : cfg.pinnedKeyStore key = true) :
    ∃ ack, decodeMutualHelloAckPayload answer.envelope.payload = some ack ∧
      ack.identity.kind = ack.manifest.identityHint.kind ∧
      (ack.identity.subject = ack.manifest.identityHint.subject ↔
        server.manifest.identityHint.subject = server.manifest.displayName.getD "responder") ∧
      ((bootstrapVerifyPeer P J answer.envelope ack.manifest ack.identity ack.popNonce
          cfg).isOk = true ↔
        server.manifest.identityHint.subject = server.manifest.displayName.getD "responder") := by
  obtain ⟨ack, hd, hman, hpinned, hsub, hb⟩ := helloAck_spec hk ha hw hm hkind hr h hi ht
  refine ⟨ack, hd, ?_, ?_, ?_⟩
  · rw [hman, hkind]
    exact hpinned
  · rw [hman, hsub]
    exact eq_comm
  · rw [hb]
    split_ifs with heq
    · exact ⟨fun _ => heq.symm, fun _ => rfl⟩
    · exact ⟨nofun, fun h => absurd h.symm heq⟩

/-! ## An honest HELLO -/

variable {init : PeerConfig} {initKey : VerifyingKey} {grants : List String} {n popNonce : Nonce}
  {s : Initiator} {payload : MutualHelloPayload} {messageId : Uuid} {timestamp : Timestamp}

/-- A server that trusts the initiator takes the payload of its HELLO. -/
theorem readHello_start (hi : init.Holds P initKey) (hw : init.manifest.Writable P (nestingLimit - 3))
    (hs : Initiator.start P init (.pinnedKey init.manifest.identityHint.subject)
      server.manifest.aid messageId timestamp grants (some n) = .ok (s, payload))
    (he : signEnvelopeWith init.signingKey .mutualHello payload.toValue messageId timestamp =
      .ok hello) :
    readHello P hello = .ok payload ∧ payload.Writable P ∧ hello.sender = init.manifest.aid ∧
      ∃ proof input, payload = ⟨.pinnedKey init.manifest.identityHint.subject
          (encodeBase64Url initKey.bytes) proof, init.manifest, grants, encodeBase64Url n.bytes,
            none⟩ ∧
        pinnedKeyProofInput init.signingKey.aid server.manifest.aid hello.messageId
          hello.timestamp (encodeBase64Url n.bytes) = .ok input ∧
        init.signingKey.signJcs input = .ok proof := by
  obtain ⟨proof, input, hd, hin, hp⟩ := buildDescriptor_pinnedKey hi.total
    init.manifest.identityHint.subject server.manifest.aid messageId timestamp n
  simp only [Initiator.start, freshNonce, Option.map_some, okOr_some, ok_bind, hd,
    pure_eq_ok] at hs
  obtain ⟨-, rfl⟩ := Prod.mk.inj hs
  have hwrit : MutualHelloPayload.Writable P ⟨.pinnedKey init.manifest.identityHint.subject
      (encodeBase64Url initKey.bytes) proof, init.manifest, grants, encodeBase64Url n.bytes, none⟩ :=
    ⟨.none, hw, .none⟩
  have hv := (verifyEnvelopeSignature_signEnvelopeWith hi.total.lawful he).2
  obtain ⟨-, -, -, sig, -, hsigned⟩ := signEnvelopeWith_eq_ok.mp he
  have hmem : checkMembers hello.payload mutualHelloPayloadMembers = none := by
    rw [hsigned]
    exact checkMembers_obj_written (by decide)
  refine ⟨?_, hwrit, by rw [hsigned]; exact hi.aid, proof, input, rfl, by rw [hsigned]; exact hin, hp⟩
  simp only [readHello, ensureMembers, hmem, bind_eq_ok, okOr_eq_ok, mapErr_eq_ok, pure_eq_ok,
    exists_const]
  refine ⟨trivial, _, ?_, initKey, ?_, (), hv, rfl⟩
  · rw [hsigned]
    exact hwrit.decode_toValue
  · rw [hsigned]
    exact hi.total.lawful.1

/-- A HELLO of an initiator whose key and manifest the server accepts is answered. -/
theorem exists_answerHello (hi : init.Holds P initKey) (hw : init.manifest.Writable P (nestingLimit - 3))
    (ht : (server.helloConfig draws.now).Trusts P init initKey)
    (hx : draws.now ≤ init.manifest.expiresAt)
    (hs : Initiator.start P init (.pinnedKey init.manifest.identityHint.subject)
      server.manifest.aid messageId timestamp grants (some n) = .ok (s, payload))
    (he : signEnvelopeWith init.signingKey .mutualHello payload.toValue messageId timestamp =
      .ok hello)
    (hk : server.signingKey.Total P key) (hn : draws.popNonce = some popNonce)
    (hm : draws.ackMessageId.checkV4 = .ok ()) (h0 : 0 ≤ draws.ackTimestamp) :
    ∃ answer, server.answerHello P J hello draws = .ok answer := by
  obtain ⟨hread, -, hsend, proof, input, rfl, hin, hp⟩ := readHello_start hi hw hs he
  have hb : bootstrapVerifyPeer P J hello init.manifest
      (.pinnedKey init.manifest.identityHint.subject (encodeBase64Url initKey.bytes) proof)
      (encodeBase64Url n.bytes) (server.helloConfig draws.now) = .ok initKey :=
    bootstrapVerifyPeer_honest (server.helloConfig draws.now) hi ht hx hsend hin hp
  obtain ⟨ackProof, -, hd, -, -⟩ := buildDescriptor_pinnedKey hk server.subject init.manifest.aid
    draws.ackMessageId draws.ackTimestamp popNonce
  have hpol : applyPeerPolicy (.pinnedKey init.manifest.identityHint.subject
      (encodeBase64Url initKey.bytes) proof) (server.helloConfig draws.now) = .ok () :=
    mapErr_eq_ok.mpr ht.accepts
  obtain ⟨responder, ack, hack⟩ : ∃ responder ack, Responder.onHello P J hello
      ⟨.pinnedKey init.manifest.identityHint.subject (encodeBase64Url initKey.bytes) proof,
        init.manifest, grants, encodeBase64Url n.bytes, none⟩ (.pinnedKey server.subject)
      draws.ackMessageId draws.ackTimestamp (server.helloConfig draws.now) server.requestedGrants
      draws.popNonce = .ok (responder, ack) := by
    simp only [Responder.onHello, freshNonce, hn, bind_eq_ok, okOr_eq_ok, pure_eq_ok,
      Option.map_some, Option.some.injEq]
    exact ⟨_, _, initKey, hb, (), hpol, _, rfl, _, hd, rfl⟩
  obtain ⟨envelope, hsign⟩ : ∃ e, signEnvelopeWith server.signingKey .mutualHelloAck ack.toValue
      draws.ackMessageId draws.ackTimestamp = .ok e :=
    hk.signEnvelopeWith .mutualHelloAck hm rfl h0
  refine ⟨⟨envelope, draws.sessionId, responder⟩, ?_⟩
  simp only [answerHello, bind_eq_ok, mapErr_eq_ok, pure_eq_ok, Prod.exists]
  exact ⟨_, hread, responder, ack, hack, envelope, hsign, rfl⟩

end HandshakeServer

/-! ## A server with a display name and one without -/

namespace Toy

/-- The manifest of agent 0 under a display name. -/
def namedManifest (name : Option String) : Manifest :=
  let m := { unsignedManifest (agent 0) ["demo.echo"] ["demo.echo"] 0 with displayName := name }
  { m with
    signature :=
      Signature.fromRaw (agent 0).algorithm (signature (.digest (manifestSigningBytes m))) }

theorem typed_namedManifest (name : Option String) : (namedManifest name).Typed :=
  ⟨show Timestamp.Fits 0 by decide,
    show Timestamp.Fits (Timestamp.saturatingAdd 0 defaultManifestTtl) by decide, nofun⟩

theorem checkGrammar_named {m : Manifest} {ctx : ManifestVerifyContext} {name : Option String}
    {sig : String} (h : checkGrammar primitives m ctx = .ok ())
    (hn : ∀ s, name = some s → s.length ≤ 128) (hs : isSignature sig = true) :
    checkGrammar primitives { m with displayName := name, signature := sig } ctx = .ok () := by
  simp only [checkGrammar, bind_eq_ok, ensure_eq_ok, ifPresent_eq_ok, exists_const,
    decide_eq_true_eq] at h ⊢
  obtain ⟨-, endpoint, anchors, offered, required, types, algorithms, challenge, pop, published,
    expires, -, rest⟩ := h
  exact ⟨hn, endpoint, anchors, offered, required, types, algorithms, challenge, pop, published,
    expires, hs, rest⟩

theorem verifyManifest_namedManifest {name : Option String} (hn : ∀ s, name = some s → s.length ≤ 128)
    {ctx : ManifestVerifyContext} (hx : ctx.now ≤ Timestamp.saturatingAdd 0 defaultManifestTtl) :
    verifyManifest primitives (namedManifest name) ctx = .ok () := by
  have hb : ({ manifestBuilder (agent 0) ["demo.echo"] ["demo.echo"] with displayName := name } :
      ManifestBuilder).build (signer (agent 0)) zeroNonce 0 = .ok (namedManifest name) := rfl
  have hg := @checkGrammar_manifest ["demo.echo"] ["demo.echo"] 0 ctx 0 (by decide) (by decide)
    (by decide)
  have hm : namedManifest name = { manifest (agent 0) ["demo.echo"] ["demo.echo"] 0 with
      displayName := name
      signature := (namedManifest name).signature } := rfl
  have hs : isSignature (namedManifest name).signature = true := isSignature_fromRaw _ _
  have hg' := checkGrammar_named hg hn hs
  rw [← hm] at hg'
  exact verifyManifest_build (signer_lawful _) hb hg' hx

/-- A server that pins every key. -/
def helloServer (name : Option String) : HandshakeServer where
  signingKey := signer (agent 0)
  manifest := namedManifest name
  trustAnchors := []
  jwksResolver _ := none
  pinnedKeyStore _ := true
  identityVerifier := none
  grantPolicy := none
  requestedGrants := ["demo.echo"]
  insecureLocalhost := false
  config := ⟨300 * nanosPerSec, none⟩

/-- An initiator that reads the clock ten seconds later. -/
def helloInitiator : PeerConfig := (party 1 "demo.echo").at 10

/-- The server's manifest verifies, and hints at the key that it holds. -/
theorem helloServer_pinned (name : Option String) (hn : ∀ s, name = some s → s.length ≤ 128) :
    (helloServer name).signingKey.Lawful primitives (agentKey 0) ∧
      (helloServer name).signingKey.aid = (helloServer name).manifest.aid ∧
      (helloServer name).manifest.Typed ∧
      verifyManifest primitives (helloServer name).manifest
        ⟨helloInitiator.now, helloInitiator.insecureLocalhost⟩ = .ok () ∧
      (helloServer name).manifest.identityHint.kind = .pinnedKey :=
  ⟨signer_lawful (agent 0), rfl, typed_namedManifest name, verifyManifest_namedManifest hn
    (show (10 : Timestamp) ≤ Timestamp.saturatingAdd 0 defaultManifestTtl by decide), rfl⟩

def helloDraws : HelloDraws := ⟨10, uuid 3, 10, some (nonce 2), uuid 4⟩

def newServerState : ServerState := ⟨fun _ => none, fun _ => none⟩

/-- The HELLO of agent 1 is received and answered. -/
theorem exists_helloAnswer (name : Option String) :
    ∃ request hello answer,
      (receiveEnvelope primitives (helloServer name).config newServerState request .mutualHello).1 =
        .ok hello ∧ hello.sender = agent 1 ∧
      ((helloServer name).handleHello primitives jose newServerState request helloDraws).1 =
        .ok answer := by
  have hi : helloInitiator.Holds primitives (agentKey 1) := (party_holds 1 _).at 10
  obtain ⟨proof, -, hd, -, -⟩ := buildDescriptor_pinnedKey hi.total "agent" (agent 0) (uuid 2) 10
    (nonce 1)
  obtain ⟨s, payload, hs⟩ : ∃ s payload, Initiator.start primitives helloInitiator
      (.pinnedKey helloInitiator.manifest.identityHint.subject)
      (helloServer name).manifest.aid (uuid 2) 10 ["demo.echo"] (some (nonce 1)) =
        .ok (s, payload) := by
    simp only [Initiator.start, freshNonce, Option.map_some, okOr_some, ok_bind, bind_eq_ok,
      pure_eq_ok]
    exact ⟨_, _, _, hd, rfl⟩
  obtain ⟨hello, he⟩ : ∃ e, signEnvelopeWith helloInitiator.signingKey .mutualHello payload.toValue
      (uuid 2) 10 = .ok e :=
    hi.total.signEnvelopeWith .mutualHello (checkV4_uuid 2) rfl (by decide)
  obtain ⟨-, hw, hsend, -⟩ := HandshakeServer.readHello_start hi writable_manifest hs he
  have hfits : Timestamp.Fits 10 := by decide
  obtain ⟨hfit, hdistinct, hparse⟩ := parseEnvelopeWire_signEnvelopeWith readsText hi.total.lawful
    hfits hw.distinctKeys_toValue (hw.readable_toValue readsText) he
  have hvalue := CheckedJson.fromSlice_text readsText hfit hdistinct
  obtain ⟨-, -, -, sig, -, hsigned⟩ := signEnvelopeWith_eq_ok.mp he
  let request : Request :=
    ⟨"application/json", some (utf8 hello.toValue.text), "ip:unknown", 10 * nanosPerSec⟩
  have hr : (receiveEnvelope primitives (helloServer name).config newServerState request
      .mutualHello).1 = .ok hello := by
    refine receiveEnvelope_ok_iff.mpr ⟨?_, rfl, ?_, ?_, ⟨_, hvalue, hparse⟩, ?_⟩
    · exact Seen.checkAndRecord_fresh.mpr nofun
    · rw [hsigned]
      exact show Timestamp.isWithinToleranceOf 10 (timestampAt (10 * nanosPerSec)) 300 = true by
        decide
    · exact show "application/json".toList.isPrefixOf
        ("application/json".toList.map Char.toLower) = true by decide
    · rw [hsigned]
      rfl
  have htrust : ((helloServer name).helloConfig helloDraws.now).Trusts primitives helloInitiator
      (agentKey 1) :=
    ⟨rfl, rfl, ⟨0, verifyManifest_manifest 1 (by decide) (by decide) (by decide)
      (show (0 : Timestamp) ≤ Timestamp.saturatingAdd 0 defaultManifestTtl by decide)⟩, rfl⟩
  obtain ⟨answer, ha⟩ := HandshakeServer.exists_answerHello (J := jose) hi writable_manifest htrust
    (show (10 : Timestamp) ≤ Timestamp.saturatingAdd 0 defaultManifestTtl by decide) hs he
    ⟨signer_lawful (agent 0), fun _ => rfl⟩ rfl (checkV4_uuid 3) (by decide)
  exact ⟨request, hello, answer, hr, hsend, by simp only [HandshakeServer.handleHello, hr, mapErr_ok,
    ok_bind, ha]⟩

end Toy

open Toy in
/-- A server whose display name is the subject of its manifest's hint. -/
theorem helloAck_bootstraps_iff_named : ∃ request answer ack,
    ((helloServer (some "agent")).handleHello primitives jose newServerState request
      helloDraws).1 = .ok answer ∧
    decodeMutualHelloAckPayload answer.envelope.payload = some ack ∧
    (bootstrapVerifyPeer primitives jose answer.envelope ack.manifest ack.identity ack.popNonce
      helloInitiator).isOk = true := by
  obtain ⟨request, hello, answer, hr, hs, h⟩ := exists_helloAnswer (some "agent")
  obtain ⟨hk, ha, hw, hm, hkind⟩ := helloServer_pinned (some "agent") (by rintro s ⟨⟩; decide)
  have hi : helloInitiator.manifest.aid = hello.sender := hs.symm
  have ht : helloInitiator.pinnedKeyStore (agentKey 0) = true := rfl
  obtain ⟨ack, hd, -, -, hb⟩ := HandshakeServer.helloAck_bootstraps_iff hk ha hw hm hkind hr h hi ht
  exact ⟨request, answer, ack, h, hd, hb.mpr rfl⟩

open Toy in
/-- A server without a display name answers with an identity that the initiator refuses. -/
theorem helloAck_refused : ∃ request hello answer ack,
    verifyManifest primitives (helloServer none).manifest
      ⟨helloInitiator.now, helloInitiator.insecureLocalhost⟩ = .ok () ∧
    (receiveEnvelope primitives (helloServer none).config newServerState request
      .mutualHello).1 = .ok hello ∧ helloInitiator.manifest.aid = hello.sender ∧
    ((helloServer none).handleHello primitives jose newServerState request helloDraws).1 =
      .ok answer ∧
    decodeMutualHelloAckPayload answer.envelope.payload = some ack ∧
    ack.identity.subject = "responder" ∧ ack.manifest.identityHint.subject = "agent" ∧
    bootstrapVerifyPeer primitives jose answer.envelope ack.manifest ack.identity ack.popNonce
      helloInitiator = .error (.identity "identity.subject != manifest.identity_hint.subject") := by
  obtain ⟨request, hello, answer, hr, hs, h⟩ := exists_helloAnswer none
  obtain ⟨hk, ha, hw, hm, hkind⟩ := helloServer_pinned none nofun
  have hi : helloInitiator.manifest.aid = hello.sender := hs.symm
  have ht : helloInitiator.pinnedKeyStore (agentKey 0) = true := rfl
  have hne : ¬ (helloServer none).subject = (helloServer none).manifest.identityHint.subject :=
    show ¬ "responder" = "agent" by decide
  obtain ⟨ack, hd, hman, -, hsub, hb⟩ := HandshakeServer.helloAck_spec hk ha hw hm hkind hr h hi ht
  rw [if_neg hne] at hb
  exact ⟨request, hello, answer, ack, hm, hr, hi, h, hd, hsub, by rw [hman]; rfl, hb⟩

end Aitp
