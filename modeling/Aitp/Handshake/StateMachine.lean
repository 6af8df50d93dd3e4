import Aitp.Core.NonceStore
import Aitp.Handshake.Bootstrap

/-! # The handshake state machines

`handshake/state_machine.rs` and `handshake/payloads.rs`: the two drivers of a
mutual handshake. Drawn nonces and identifiers are inputs, and a call returns the
state it leaves beside its result.
-/

namespace Aitp

/-! ## Messages -/

structure MutualHelloPayload where
  identity : IdentityDescriptor
  manifest : Manifest
  requestedGrants : List String
  popNonce : String
  extensions : Option ExtensionsMap

structure MutualHelloAckPayload where
  identity : IdentityDescriptor
  manifest : Manifest
  requestedGrants : List String
  popNonce : String
  popNonceEcho : String
  extensions : Option ExtensionsMap

structure MutualCommitPayload where
  tct : String
  grantVoucher : Option String
  popSignature : String
  popNonceEcho : String
  extensions : Option ExtensionsMap

/-- `MutualCommitAckPayload`, of the members of the commit it answers. -/
abbrev MutualCommitAckPayload := MutualCommitPayload

structure CompletedHandshake where
  tct : VerifiedTct
  grantVoucher : Option String
  effectiveGrants : List String

/-! ## The identity presented -/

inductive PresentedIdentity where
  | pinnedKey (subject : String)
  | oidc (issuer : Url) (subject proofJwt : String)
  | oidcMinter (issuer : Url) (subject : String) (mintJwt : String → Option String)

structure IdentityPresentationContext where
  senderAid : Aid
  receiverAid : Aid
  envelopeMessageId : Uuid
  envelopeTimestamp : Timestamp
  popNonce : String

section

variable (P : Primitives) (J : Jose)

def PresentedIdentity.buildDescriptor (ctx : IdentityPresentationContext) (signingKey : Signer) :
    PresentedIdentity → Except HandshakeError IdentityDescriptor
  | pinnedKey subject => do
    let pk ← mapErr .crypto (VerifyingKey.fromAid P signingKey.aid)
    let proof ← signPinnedKeyProof signingKey ctx.senderAid ctx.receiverAid ctx.envelopeMessageId
      ctx.envelopeTimestamp ctx.popNonce
    return .pinnedKey subject (encodeBase64Url pk.bytes) proof
  | oidc issuer subject proofJwt => .ok (.oidc issuer.text subject proofJwt)
  | oidcMinter issuer subject mintJwt => do
    let proof ← okOr (mintJwt ctx.popNonce) (.identity "oidc mint_jwt callback failed")
    return .oidc issuer.text subject proof

/-- `fresh_nonce`, from what the system's generator gave. -/
def freshNonce (drawn : Option Nonce) : Except HandshakeError String :=
  okOr (drawn.map fun n => encodeBase64Url n.bytes) .rng

def Manifest.revocationListUri (m : Manifest) : Option String :=
  (m.extensions.bind (List.lookup "rfc-aitp-0008.revocation_list_uri")).bind Json.asStr

/-! ## What is kept of the peer -/

/-- What both drivers keep of the peer whose manifest and identity they verified. -/
structure BoundPeer where
  aid : Aid
  pubkey : VerifyingKey
  manifestExpiresAt : Timestamp
  offeredCapabilities : List String
  revocationListUri : Option String

def BoundPeer.ofManifest (m : Manifest) (pubkey : VerifyingKey) : BoundPeer where
  aid := m.aid
  pubkey := pubkey
  manifestExpiresAt := m.expiresAt
  offeredCapabilities := m.offeredCapabilities
  revocationListUri := m.revocationListUri

/-- The checks of a COMMIT or COMMIT_ACK that end the handshake when they fail. -/
def checkBound (mismatch myPopNonce : String) (peer : BoundPeer) (envelope : AitpEnvelope)
    (m : MutualCommitPayload) : Except HandshakeError Unit := do
  ensure (decide (envelope.sender = peer.aid)) (.invalidEnvelope mismatch)
  ensure (m.popNonceEcho == myPopNonce) .nonceMismatch

/-- What a COMMIT or COMMIT_ACK leaves its receiver holding. -/
def acceptCommit (myPopNonce : String) (peer : BoundPeer) (m : MutualCommitPayload)
    (cfg : PeerConfig) : Except HandshakeError CompletedHandshake := do
  verifyPop P peer.pubkey myPopNonce m.popSignature
  let verified ← verifyReceivedTct P m.tct m.grantVoucher cfg peer.aid
    (some peer.manifestExpiresAt) peer.offeredCapabilities
  return ⟨verified, m.grantVoucher, verified.effectiveGrants⟩

/-- A COMMIT or COMMIT_ACK for a peer: the token issued to it and the proof over its nonce. -/
def commitTo (cfg : PeerConfig) (peerIdentity : IdentityDescriptor) (peerAid : Aid)
    (peerPubkey : VerifyingKey) (peerRequested : List String) (peerPopNonce : String)
    (drawn : RandomV4) : Except HandshakeError MutualCommitPayload := do
  let issued ← issueTctForPeer P cfg peerIdentity peerAid peerPubkey peerRequested drawn
  let popSignature ← signPop cfg.signingKey peerPopNonce
  return ⟨issued.token, issued.voucher, popSignature, peerPopNonce, none⟩

/-! ## The initiator -/

/-- `InitiatorState`. -/
inductive Initiator where
  | awaitingHelloAck (myPopNonce : String) (intendedPeerAid : Aid)
  | awaitingCommitAck (myPopNonce : String) (peer : BoundPeer)
  | done
  | failed

namespace Initiator

def start (cfg : PeerConfig) (identity : PresentedIdentity) (peerAid : Aid)
    (envelopeMessageId : Uuid) (envelopeTimestamp : Timestamp) (requestedGrants : List String)
    (drawn : Option Nonce) : Except HandshakeError (Initiator × MutualHelloPayload) := do
  let popNonce ← freshNonce drawn
  let descriptor ← identity.buildDescriptor P
    ⟨cfg.signingKey.aid, peerAid, envelopeMessageId, envelopeTimestamp, popNonce⟩ cfg.signingKey
  return (.awaitingHelloAck popNonce peerAid,
    ⟨descriptor, cfg.manifest, requestedGrants, popNonce, none⟩)

/-- The checks of a HELLO_ACK that end the handshake when they fail. -/
def bindPeer (myPopNonce : String) (intendedPeerAid : Aid) (envelope : AitpEnvelope)
    (ack : MutualHelloAckPayload) (cfg : PeerConfig) : Except HandshakeError VerifyingKey := do
  ensure (decide (envelope.sender = intendedPeerAid)) .peerMismatch
  ensure (decide (ack.manifest.aid = intendedPeerAid))
    (.invalidEnvelope "HELLO_ACK manifest AID does not match the intended peer")
  ensure (ack.popNonceEcho == myPopNonce) .nonceMismatch
  let peerPubkey ← bootstrapVerifyPeer P J envelope ack.manifest ack.identity ack.popNonce cfg
  applyPeerPolicy ack.identity cfg
  return peerPubkey

def onHelloAck (s : Initiator) (envelope : AitpEnvelope) (ack : MutualHelloAckPayload)
    (cfg : PeerConfig) (drawn : RandomV4) :
    Initiator × Except HandshakeError MutualCommitPayload :=
  match s with
  | awaitingHelloAck myPopNonce intendedPeerAid =>
    match bindPeer P J myPopNonce intendedPeerAid envelope ack cfg with
    | .error e => (failed, .error e)
    | .ok peerPubkey =>
      match commitTo P cfg ack.identity ack.manifest.aid peerPubkey ack.requestedGrants
          ack.popNonce drawn with
      -- a failure to issue or to sign leaves the handshake where it was
      | .error e => (s, .error e)
      | .ok payload =>
        (awaitingCommitAck myPopNonce (.ofManifest ack.manifest peerPubkey), .ok payload)
  | _ => (s, .error (.state "on_hello_ack out of order"))

def onCommitAck (s : Initiator) (envelope : AitpEnvelope) (ack : MutualCommitAckPayload)
    (cfg : PeerConfig) : Initiator × Except HandshakeError CompletedHandshake :=
  match s with
  | awaitingCommitAck myPopNonce peer =>
    match checkBound "commit_ack sender mismatch" myPopNonce peer envelope ack with
    | .error e => (failed, .error e)
    | .ok () =>
      match acceptCommit P myPopNonce peer ack cfg with
      | .error e => (s, .error e)
      | .ok completed => (done, .ok completed)
  | _ => (s, .error (.state "on_commit_ack out of order"))

end Initiator

/-! ## The responder -/

/-- What a responder that answered a HELLO waits for. -/
structure AwaitingCommit where
  myPopNonce : String
  peerPopNonce : String
  peer : BoundPeer
  peerRequestedGrants : List String
  peerIdentity : IdentityDescriptor

/-- `ResponderState`. -/
inductive Responder where
  | awaitingCommit (w : AwaitingCommit)
  | done
  | failed

namespace Responder

def onHello (envelope : AitpEnvelope) (hello : MutualHelloPayload) (myIdentity : PresentedIdentity)
    (ackEnvelopeMessageId : Uuid) (ackEnvelopeTimestamp : Timestamp) (cfg : PeerConfig)
    (myRequestedGrants : List String) (drawn : Option Nonce) :
    Except HandshakeError (Responder × MutualHelloAckPayload) := do
  let peerPubkey ←
    bootstrapVerifyPeer P J envelope hello.manifest hello.identity hello.popNonce cfg
  applyPeerPolicy hello.identity cfg
  let myPopNonce ← freshNonce drawn
  let descriptor ← myIdentity.buildDescriptor P
    ⟨cfg.signingKey.aid, hello.manifest.aid, ackEnvelopeMessageId, ackEnvelopeTimestamp,
      myPopNonce⟩ cfg.signingKey
  return (.awaitingCommit
      { myPopNonce := myPopNonce
        peerPopNonce := hello.popNonce
        peer := .ofManifest hello.manifest peerPubkey
        peerRequestedGrants := hello.requestedGrants
        peerIdentity := hello.identity },
    ⟨descriptor, cfg.manifest, myRequestedGrants, myPopNonce, hello.popNonce, none⟩)

def onCommit (s : Responder) (envelope : AitpEnvelope) (commit : MutualCommitPayload)
    (cfg : PeerConfig) (drawn : RandomV4) :
    Responder × Except HandshakeError (MutualCommitAckPayload × CompletedHandshake) :=
  match s with
  | awaitingCommit w =>
    match checkBound "commit sender mismatch" w.myPopNonce w.peer envelope commit with
    | .error e => (failed, .error e)
    | .ok () =>
      match acceptCommit P w.myPopNonce w.peer commit cfg with
      | .error e => (s, .error e)
      | .ok completed =>
        match commitTo P cfg w.peerIdentity w.peer.aid w.peer.pubkey w.peerRequestedGrants
            w.peerPopNonce drawn with
        | .error e => (s, .error e)
        | .ok ack => (done, .ok (ack, completed))
  | _ => (s, .error (.state "on_commit out of order"))

end Responder

end

/-! ## What a successful call found -/

variable {P : Primitives} {J : Jose} {envelope : AitpEnvelope} {cfg : PeerConfig} {drawn : RandomV4}

theorem Initiator.onHelloAck_eq_ok {s s' : Initiator} {ack : MutualHelloAckPayload}
    {m : MutualCommitPayload} :
    s.onHelloAck P J envelope ack cfg drawn = (s', .ok m) ↔
      ∃ myPopNonce intended key, s = .awaitingHelloAck myPopNonce intended ∧
        bindPeer P J myPopNonce intended envelope ack cfg = .ok key ∧
        commitTo P cfg ack.identity ack.manifest.aid key ack.requestedGrants ack.popNonce drawn =
          .ok m ∧ s' = .awaitingCommitAck myPopNonce (.ofManifest ack.manifest key) := by
  constructor
  · rintro h
    unfold onHelloAck at h
    split at h
    · rename_i myPopNonce intended
      split at h
      · simp at h
      · rename_i key hb
        split at h
        · simp at h
        · rename_i m' hm
          obtain ⟨rfl, rfl⟩ : _ = s' ∧ m' = m := by simpa using h
          exact ⟨myPopNonce, intended, key, rfl, hb, hm, rfl⟩
    · simp at h
  · rintro ⟨myPopNonce, intended, key, rfl, hb, hm, rfl⟩
    simp only [onHelloAck, hb, hm]

theorem Initiator.onCommitAck_eq_ok {s s' : Initiator} {ack : MutualCommitAckPayload}
    {completed : CompletedHandshake} :
    s.onCommitAck P envelope ack cfg = (s', .ok completed) ↔
      ∃ myPopNonce peer, s = .awaitingCommitAck myPopNonce peer ∧
        checkBound "commit_ack sender mismatch" myPopNonce peer envelope ack = .ok () ∧
        acceptCommit P myPopNonce peer ack cfg = .ok completed ∧ s' = .done := by
  constructor
  · rintro h
    unfold onCommitAck at h
    split at h
    · rename_i myPopNonce peer
      split at h
      · simp at h
      · rename_i hb
        split at h
        · simp at h
        · rename_i c hc
          obtain ⟨rfl, rfl⟩ : _ = s' ∧ c = completed := by simpa using h
          exact ⟨myPopNonce, peer, rfl, hb, hc, rfl⟩
    · simp at h
  · rintro ⟨myPopNonce, peer, rfl, hb, hc, rfl⟩
    simp only [onCommitAck, hb, hc]

theorem Responder.onCommit_eq_ok {s s' : Responder} {commit : MutualCommitPayload}
    {ack : MutualCommitAckPayload} {completed : CompletedHandshake} :
    s.onCommit P envelope commit cfg drawn = (s', .ok (ack, completed)) ↔
      ∃ w, s = .awaitingCommit w ∧
        checkBound "commit sender mismatch" w.myPopNonce w.peer envelope commit = .ok () ∧
        acceptCommit P w.myPopNonce w.peer commit cfg = .ok completed ∧
        commitTo P cfg w.peerIdentity w.peer.aid w.peer.pubkey w.peerRequestedGrants
          w.peerPopNonce drawn = .ok ack ∧ s' = .done := by
  constructor
  · rintro h
    unfold onCommit at h
    split at h
    · rename_i w
      split at h
      · simp at h
      · rename_i hb
        split at h
        · simp at h
        · rename_i c hc
          split at h
          · simp at h
          · rename_i a ha
            obtain ⟨rfl, rfl, rfl⟩ : _ = s' ∧ a = ack ∧ c = completed := by simpa using h
            exact ⟨w, rfl, hb, hc, ha, rfl⟩
    · simp at h
  · rintro ⟨w, rfl, hb, hc, ha, rfl⟩
    simp only [onCommit, hb, hc, ha]

theorem checkBound_eq_ok {mismatch myPopNonce : String} {peer : BoundPeer}
    {m : MutualCommitPayload} {u : Unit} :
    checkBound mismatch myPopNonce peer envelope m = .ok u ↔
      envelope.sender = peer.aid ∧ m.popNonceEcho = myPopNonce := by
  simp [checkBound]

end Aitp
