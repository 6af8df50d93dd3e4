import Aitp.Handshake.Oidc
import Aitp.Handshake.PinnedKey
import Aitp.Tct.Builder
import Aitp.Tct.Pop

/-! # Verifying a peer and issuing to it

The helpers of `handshake/state_machine.rs`, and `handshake/identity_verifier.rs`:
the peer's manifest and identity are verified, a token is issued for it, and the
token it issued is verified.
-/

namespace Aitp

/-! ## What a party is configured with -/

structure VerifiedIdentity where
  kind : IdentityKind
  subject : String

structure IdentityVerifyContext where
  peerManifest : Manifest
  senderAid : Aid
  receiverAid : Aid
  messageId : Uuid
  timestamp : Timestamp
  popNonce : String
  now : Timestamp

structure IdentityVerifier where
  handles : IdentityKind → Bool
  verify : IdentityDescriptor → IdentityVerifyContext →
    Except IdentityVerifyError VerifiedIdentity

structure GrantPolicyContext where
  peerIdentity : IdentityDescriptor
  peerAid : Aid
  candidateGrants : List String
  now : Timestamp

/-- `GrantPolicyFn`; `none` is a `GrantPolicyError`. -/
abbrev GrantPolicyFn := GrantPolicyContext → Option (List String)

structure PeerConfig where
  signingKey : Signer
  manifest : Manifest
  trustAnchors : List String
  jwksResolver : JwksResolver
  pinnedKeyStore : PinnedKeyStore
  grantPolicy : Option GrantPolicyFn
  revocation : RevocationSource
  identityVerifier : Option IdentityVerifier
  now : Timestamp
  insecureLocalhost : Bool

section

variable (P : Primitives) (J : Jose)

/-! ## The peer -/

/-- The proof of an identity that a verifier attached to the configuration handles. -/
def verifyOtherIdentity (envelope : AitpEnvelope) (manifest : Manifest)
    (identity : IdentityDescriptor) (popNonce : String) (cfg : PeerConfig) :
    Except HandshakeError Unit := do
  let kind := identity.kind
  let verifier ← okOr (cfg.identityVerifier.filter fun v => v.handles kind)
    (.manifest (.incompatibleIdentityType kind))
  let verified ← mapErr .identityVerifier (verifier.verify identity
    { peerManifest := manifest
      senderAid := manifest.aid
      receiverAid := cfg.manifest.aid
      messageId := envelope.messageId
      timestamp := envelope.timestamp
      popNonce := popNonce
      now := cfg.now })
  ensure (decide (verified.kind = kind) && verified.subject == identity.subject)
    (.identity "the identity verifier proved a different identity than the one presented")

/-- The identity proof of a peer, by its kind, and the key it is bound to. -/
def verifyIdentityProof (envelope : AitpEnvelope) (manifest : Manifest)
    (identity : IdentityDescriptor) (popNonce : String) (cfg : PeerConfig) :
    Except HandshakeError VerifyingKey :=
  match identity.kind with
  | .oidc => do
    let issuer ← okOr identity.issuer (.identity "oidc missing issuer")
    ensure (some issuer == manifest.identityHint.issuer) (.identity "issuer hint mismatch")
    verifyOidc P J identity
      { expectedAudience := cfg.manifest.aid
        expectedNonce := popNonce
        trustAnchors := cfg.trustAnchors
        jwksResolver := cfg.jwksResolver
        subjectAid := manifest.aid
        iatTolerance := defaultTimestampTolerance
        now := cfg.now }
    mapErr .crypto (VerifyingKey.fromAid P manifest.aid)
  | .pinnedKey => do
    let verified ← verifyPinnedKey P identity
      { senderAid := manifest.aid
        receiverAid := cfg.manifest.aid
        messageId := envelope.messageId
        timestamp := envelope.timestamp
        popNonce := popNonce
        subject := .unchecked }
      cfg.pinnedKeyStore
    return verified.key
  | .spiffe => do
    verifyOtherIdentity envelope manifest identity popNonce cfg
    mapErr .crypto (VerifyingKey.fromAid P manifest.aid)

def bootstrapVerifyPeer (envelope : AitpEnvelope) (manifest : Manifest)
    (identity : IdentityDescriptor) (popNonce : String) (cfg : PeerConfig) :
    Except HandshakeError VerifyingKey := do
  ensure (decide (manifest.aid = envelope.sender))
    (.invalidEnvelope "manifest.aid does not match sender.agent_id")
  mapErr .manifest (verifyManifest P manifest ⟨cfg.now, cfg.insecureLocalhost⟩)
  ensure (identity.subject == manifest.identityHint.subject)
    (.identity "identity.subject != manifest.identity_hint.subject")
  ensure (decide (identity.kind = manifest.identityHint.kind))
    (.identity "identity.type does not match manifest.identity_hint.type")
  ensure (decide (identity.kind = .spiffe) || (identity.svidType.isNone && identity.x5c.isNone))
    (.identity (identity.kind.asStr ++ " descriptor must not carry svid_type or x5c"))
  verifyIdentityProof P J envelope manifest identity popNonce cfg

def applyPeerPolicy (identity : IdentityDescriptor) (cfg : PeerConfig) :
    Except HandshakeError Unit :=
  mapErr .manifest (checkIdentityTypeCompatibility cfg.manifest identity.kind)

/-! ## Proofs of possession -/

def signPop (myKey : Signer) (peerNonce : String) : Except HandshakeError String :=
  signNonce myKey peerNonce (.invalidEnvelope "pop nonce is not valid base64url") .crypto

def verifyPop (peerPubkey : VerifyingKey) (myNonce popSignature : String) :
    Except HandshakeError Unit :=
  verifyNonce P peerPubkey myNonce popSignature .popVerificationFailed

/-! ## The token issued to the peer -/

/-- What is left of the requested capabilities by the offer and the policy. -/
def grantsForPeer (cfg : PeerConfig) (peerIdentity : IdentityDescriptor) (peerAid : Aid)
    (peerRequested : List String) : Except HandshakeError (List String) := do
  let candidates := peerRequested.filter fun g => cfg.manifest.offeredCapabilities.contains g
  match cfg.grantPolicy with
  | none => return candidates
  | some policy => do
    let permitted ← okOr (policy ⟨peerIdentity, peerAid, candidates, cfg.now⟩) .grantPolicy
    return candidates.filter fun g => permitted.contains g

/-- The lifetime of an issued token: the default one, cut at the manifest's expiry. -/
def issueTtl (cfg : PeerConfig) : Int :=
  saturate (min (cfg.now.saturatingAdd defaultTctTtl) cfg.manifest.expiresAt - cfg.now)

def issueTctForPeer (cfg : PeerConfig) (peerIdentity : IdentityDescriptor) (peerAid : Aid)
    (peerPubkey : VerifyingKey) (peerRequested : List String) (drawn : RandomV4) :
    Except HandshakeError IssuedTct := do
  let grants ← grantsForPeer cfg peerIdentity peerAid peerRequested
  ensure (!grants.isEmpty) .policyViolation
  ensure (decide (1 ≤ issueTtl cfg))
    (.invalidEnvelope "issuing peer's manifest is expired; cannot issue TCT")
  let builder : TctBuilder :=
    { TctBuilder.new cfg.signingKey drawn with
      subject := some peerAid
      audience := some peerAid
      grants := grants
      ttl := (issueTtl cfg).toNat
      subjectPubkey := some peerPubkey
      nowOverride := some cfg.now }
  mapErr .tct (builder.build P cfg.now)

/-! ## The token received from the peer -/

/-- The voucher that came with a token mirrors it. -/
def checkReceivedVoucher (voucherToken : String) (issuer : Aid) (claims : TctClaims) :
    Except HandshakeError Unit := do
  let voucher ← mapErr .tct (verifyVoucher P voucherToken issuer)
  ensure (decide (voucher.sub = claims.sub) && voucher.grants == claims.grants &&
    decide (voucher.iat = claims.iat) && decide (voucher.exp = claims.exp) &&
    decide (voucher.srcJti = claims.jti))
    (.tct (.claimsMalformed "grant voucher does not mirror the companion TCT"))

/-- The revocation answer on a received token. -/
def receivedRevocation (source : RevocationSource) (claims : TctClaims) (now : Timestamp) :
    Except HandshakeError (List String) :=
  mapErr (fun e => if e = .safeSubsetEmpty then .policyViolation else .tct e)
    (checkRevocation source claims now)

def verifyReceivedTct (token : String) (grantVoucher : Option String) (cfg : PeerConfig)
    (issuer : Aid) (issuerManifestExpiresAt : Option Timestamp) (issuerOffered : List String) :
    Except HandshakeError VerifiedTct := do
  let claims ← mapErr .tct (verifyTctBeforeRevocation P token
    { expectedAudience := cfg.manifest.aid
      issuer := issuer
      now := cfg.now
      issuerManifestExpiresAt := issuerManifestExpiresAt
      revocation := cfg.revocation
      clockSkew := 0 })
  ifPresent grantVoucher fun voucherToken => checkReceivedVoucher P voucherToken issuer claims
  forEach claims.grants fun g => ensure (issuerOffered.contains g) .grantOverflow
  let effectiveGrants ← receivedRevocation cfg.revocation claims cfg.now
  ifPresent cfg.manifest.requiredPeerCapabilities fun required =>
    forEach required fun r => ensure (effectiveGrants.contains r) .insufficientGrants
  return ⟨token, claims, effectiveGrants⟩

end

variable {P : Primitives} {J : Jose} {cfg : PeerConfig} {key : VerifyingKey}

/-! ## What the checks establish -/

theorem verifyPinnedKey_ok {identity : IdentityDescriptor} {ctx : PinnedKeyVerifyContext}
    {store : PinnedKeyStore} {verified : VerifiedPinnedKey}
    (h : verifyPinnedKey P identity ctx store = .ok verified) :
    VerifyingKey.fromAid P ctx.senderAid = .ok verified.key ∧
      ∃ input, pinnedKeyProofInput ctx.senderAid ctx.receiverAid ctx.messageId ctx.timestamp
        ctx.popNonce = .ok input ∧ verified.key.verifyJcs P input identity.proof = .ok () := by
  simp only [verifyPinnedKey, bind_eq_ok, pure_eq_ok] at h
  obtain ⟨v, hr, _, hc, rfl⟩ := h
  exact ⟨(resolvePinnedKey_ok hr).2.1, checkPinnedKeyProof_ok hc⟩

theorem fromAid_of_verifyIdentityProof {envelope : AitpEnvelope} {manifest : Manifest}
    {identity : IdentityDescriptor} {popNonce : String}
    (h : verifyIdentityProof P J envelope manifest identity popNonce cfg = .ok key) :
    VerifyingKey.fromAid P manifest.aid = .ok key := by
  unfold verifyIdentityProof at h
  split at h
  · simp only [bind_eq_ok, mapErr_eq_ok] at h
    obtain ⟨_, -, _, -, _, -, hk⟩ := h
    exact hk
  · simp only [bind_eq_ok, pure_eq_ok] at h
    obtain ⟨v, hv, rfl⟩ := h
    exact (verifyPinnedKey_ok hv).1
  · simp only [bind_eq_ok, mapErr_eq_ok] at h
    obtain ⟨_, -, hk⟩ := h
    exact hk

/-- A peer that bootstraps sends under its manifest's AID, and is bound to the key of it. -/
theorem bootstrapVerifyPeer_ok {envelope : AitpEnvelope} {manifest : Manifest}
    {identity : IdentityDescriptor} {popNonce : String}
    (h : bootstrapVerifyPeer P J envelope manifest identity popNonce cfg = .ok key) :
    manifest.aid = envelope.sender ∧ VerifyingKey.fromAid P manifest.aid = .ok key ∧
      verifyManifest P manifest ⟨cfg.now, cfg.insecureLocalhost⟩ = .ok () ∧
      identity.subject = manifest.identityHint.subject ∧
      identity.kind = manifest.identityHint.kind := by
  simp only [bootstrapVerifyPeer, bind_eq_ok, ensure_eq_ok, mapErr_eq_ok, exists_const,
    decide_eq_true_eq, beq_iff_eq] at h
  obtain ⟨hs, u, hm, hsub, hk, -, hp⟩ := h
  exact ⟨hs, fromAid_of_verifyIdentityProof hp, hm, hsub, hk⟩

/-- What was checked of a received token. -/
structure ReceivedTct (P : Primitives) (cfg : PeerConfig) (issuer : Aid)
    (manifestExpiresAt : Timestamp) (offered : List String) (v : VerifiedTct) : Prop where
  iss : v.claims.iss = issuer
  aud : v.claims.aud = cfg.manifest.aid
  sub : v.claims.sub = cfg.manifest.aid
  offered : v.claims.grants ⊆ offered
  exp : v.claims.exp ≤ manifestExpiresAt
  effective : v.effectiveGrants.Sublist v.claims.grants
  required : cfg.manifest.requiredPeerCapabilities.getD [] ⊆ v.effectiveGrants

theorem verifyReceivedTct_ok {token : String} {voucher : Option String} {issuer : Aid}
    {expiresAt : Timestamp} {offered : List String} {v : VerifiedTct}
    (h : verifyReceivedTct P token voucher cfg issuer (some expiresAt) offered = .ok v) :
    v.token = token ∧ ReceivedTct P cfg issuer expiresAt offered v := by
  simp only [verifyReceivedTct, receivedRevocation, bind_eq_ok, mapErr_eq_ok, forEach_eq_ok,
    ensure_eq_ok, pure_eq_ok, exists_const] at h
  obtain ⟨claims, hc, _, -, ho, effective, he, _, hr, rfl⟩ := h
  have hg := verifyTctBeforeRevocation_ok hc
  refine ⟨rfl, hg.iss, hg.aud, hg.sub, ?_, hg.exp _ rfl, checkRevocation_sublist he, ?_⟩
  · rintro g hm
    simpa using ho g hm
  · rintro r hm
    cases hq : cfg.manifest.requiredPeerCapabilities with
    | none => simp [hq] at hm
    | some required =>
      rw [hq, ifPresent_some, forEach_eq_ok] at hr
      rw [hq, Option.getD_some] at hm
      simpa using hr r hm

end Aitp
