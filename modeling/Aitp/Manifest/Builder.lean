import Aitp.Core.NonceStore
import Aitp.Crypto.RoundTrip
import Aitp.Crypto.Toy
import Aitp.Manifest.Verifier

/-! # Building a manifest

`manifest/builder.rs`: a manifest is assembled, the random challenge is signed,
and the body is signed with that signature in it.
-/

namespace Aitp

def validateIdentityHint (hint : IdentityHint) : Except ManifestError Unit :=
  match hint.kind with
  | .oidc => do
    ensure hint.issuer.isSome (.identityHintMalformed "oidc requires `issuer`")
    ensure hint.publicKey.isNone (.identityHintMalformed "oidc must not include `public_key`")
  | .pinnedKey =>
    ensure hint.publicKey.isSome (.identityHintMalformed "pinned_key requires `public_key`")
  | .spiffe => do
    ensure hint.issuer.isNone (.identityHintMalformed "spiffe must not include `issuer`")
    ensure hint.publicKey.isNone (.identityHintMalformed "spiffe must not include `public_key`")

/-- `DEFAULT_MANIFEST_TTL`, in seconds. -/
def defaultManifestTtl : ℕ := 86400

/-- `ManifestBuilder`, without the signing key. -/
structure ManifestBuilder where
  handshakeEndpoint : Option String
  acceptedTrustAnchors : List String
  acceptedIdentityTypes : Option (List String)
  offeredCapabilities : List String
  requiredPeerCapabilities : Option (List String)
  identityHint : Option IdentityHint
  ttl : ℕ
  displayName : Option String
  extensions : ExtensionsMap

namespace ManifestBuilder

def new : ManifestBuilder where
  handshakeEndpoint := none
  acceptedTrustAnchors := []
  acceptedIdentityTypes := none
  offeredCapabilities := []
  requiredPeerCapabilities := none
  identityHint := none
  ttl := defaultManifestTtl
  displayName := none
  extensions := []

variable (b : ManifestBuilder) (signingKey : Signer) (challenge : Nonce) (publishedAt : Timestamp)

/-- `ManifestBuilder::draft`: the manifest before its two signatures. -/
def draft : Except ManifestError Manifest := do
  let handshakeEndpoint ← okOr b.handshakeEndpoint (.missingField "handshake_endpoint")
  let identityHint ← okOr b.identityHint (.missingField "identity_hint")
  validateIdentityHint identityHint
  return {
    version := protocolVersion
    aid := signingKey.aid
    displayName := b.displayName
    identityHint := identityHint
    handshakeEndpoint := handshakeEndpoint
    acceptedTrustAnchors := b.acceptedTrustAnchors
    acceptedIdentityTypes := b.acceptedIdentityTypes
    acceptedSignatureAlgorithms := none
    offeredCapabilities := b.offeredCapabilities
    requiredPeerCapabilities := b.requiredPeerCapabilities
    proofOfPossession := ⟨encodeBase64Url challenge.bytes, ""⟩
    publishedAt := publishedAt
    expiresAt := publishedAt.saturatingAdd b.ttl
    extensions := if b.extensions.isEmpty then none else some b.extensions
    signature := "" }

def build : Except ManifestError Manifest := do
  let manifest ← b.draft signingKey challenge publishedAt
  let pop ← mapErr .crypto (signingKey.signJcs challenge.bytes)
  let manifest := { manifest with
    proofOfPossession := { manifest.proofOfPossession with signature := pop } }
  let signature ← mapErr .crypto (signingKey.signJcs (manifestSigningBytes manifest))
  return { manifest with signature := signature }

end ManifestBuilder

theorem manifestSigningBytes_signature (m : Manifest) (s : String) :
    manifestSigningBytes { m with signature := s } = manifestSigningBytes m := by
  simp only [manifestSigningBytes, Manifest.toValue, Serde.remove_written]
  rfl

variable {P : Primitives} {b : ManifestBuilder} {signingKey : Signer} {key : VerifyingKey}
  {challenge : Nonce} {publishedAt : Timestamp} {m : Manifest}

/-- What a builder made is a draft with the two signatures put in. -/
theorem ManifestBuilder.build_ok (h : b.build signingKey challenge publishedAt = .ok m) :
    ∃ draft pop, b.draft signingKey challenge publishedAt = .ok draft ∧
      signingKey.signJcs challenge.bytes = .ok pop ∧
      m.proofOfPossession = ⟨draft.proofOfPossession.challenge, pop⟩ ∧
      signingKey.signJcs (manifestSigningBytes m) = .ok m.signature ∧
      m = { draft with proofOfPossession := m.proofOfPossession, signature := m.signature } := by
  simp only [build, bind_eq_ok, mapErr_eq_ok, pure_eq_ok] at h
  obtain ⟨draft, hd, pop, hp, signature, hs, rfl⟩ := h
  refine ⟨draft, pop, hd, hp, rfl, ?_, rfl⟩
  have he := manifestSigningBytes_signature { draft with
    proofOfPossession := { draft.proofOfPossession with signature := pop } } signature
  exact (congrArg signingKey.signJcs he).trans hs

theorem verifyManifest_build {ctx : ManifestVerifyContext} (hk : signingKey.Lawful P key)
    (h : b.build signingKey challenge publishedAt = .ok m)
    (hg : checkGrammar P m ctx = .ok ()) (he : ctx.now ≤ m.expiresAt) :
    verifyManifest P m ctx = .ok () := by
  obtain ⟨draft, pop, hd, hp, hpop, hs, hm⟩ := ManifestBuilder.build_ok h
  simp only [ManifestBuilder.draft, bind_eq_ok, okOr_eq_ok, pure_eq_ok] at hd
  obtain ⟨_, -, _, -, _, -, rfl⟩ := hd
  have hv : m.version = protocolVersion := by rw [hm]
  have ha : m.aid = signingKey.aid := by rw [hm]
  obtain ⟨hpp, hpv⟩ := signJcs_verifies hk hp
  obtain ⟨hsp, hsv⟩ := signJcs_verifies hk hs
  simp only [verifyManifest, bind_eq_ok, ensure_eq_ok, mapErr_eq_ok, okOr_eq_ok, exists_const]
  refine ⟨by simp [hv], (), hg, by simpa [Timestamp.isInThePast] using he, key, ha ▸ hk.1, ?_⟩
  exact ⟨challenge.bytes, by simp [hpop], pop, by simpa [hpop] using hpp, (), hpv, m.signature, hsp,
    hsv⟩

/-! ## Sample manifests -/

namespace Toy

/-- An agent with a pinned key, that asks for the capabilities it offers to be matched. -/
def manifestBuilder (aid : Aid) (offered required : List String) : ManifestBuilder :=
  { ManifestBuilder.new with
    handshakeEndpoint := some "https://agent.example/aitp"
    acceptedIdentityTypes := some ["pinned_key"]
    offeredCapabilities := offered
    requiredPeerCapabilities := some required
    identityHint := some ⟨.pinnedKey, "agent", none, some aid.identifier⟩ }

def zeroNonce : Nonce := ⟨List.replicate 16 0, length_zeroes⟩

/-- The manifest built for an agent, before its outer signature. -/
def unsignedManifest (aid : Aid) (offered required : List String) (publishedAt : Timestamp) :
    Manifest where
  version := protocolVersion
  aid := aid
  displayName := none
  identityHint := ⟨.pinnedKey, "agent", none, some aid.identifier⟩
  handshakeEndpoint := "https://agent.example/aitp"
  acceptedTrustAnchors := []
  acceptedIdentityTypes := some ["pinned_key"]
  acceptedSignatureAlgorithms := none
  offeredCapabilities := offered
  requiredPeerCapabilities := some required
  proofOfPossession := ⟨encodeBase64Url zeroNonce.bytes,
    Signature.fromRaw aid.algorithm (signature (.digest zeroNonce.bytes))⟩
  publishedAt := publishedAt
  expiresAt := publishedAt.saturatingAdd defaultManifestTtl
  extensions := none
  signature := ""

/-- The manifest built for an agent. -/
def manifest (aid : Aid) (offered required : List String) (publishedAt : Timestamp) : Manifest :=
  let m := unsignedManifest aid offered required publishedAt
  { m with
    signature := Signature.fromRaw aid.algorithm (signature (.digest (manifestSigningBytes m))) }

variable {aid : Aid} {offered required : List String} {publishedAt : Timestamp}

theorem build_manifest : (manifestBuilder aid offered required).build (signer aid) zeroNonce
    publishedAt = .ok (manifest aid offered required publishedAt) :=
  rfl

theorem isSignature_fromRaw (algorithm : AidAlgorithm) (t : Target) :
    isSignature (Signature.fromRaw algorithm (signature t)) = true := by
  have hu : untagged (Signature.fromRaw algorithm (signature t)) = encodeBase64Url (signature t) :=
    Signature.payload_fromRaw
  have hl : (signature t).length = rawSignatureLen := by simp [signature]
  simp only [isSignature, hu, isBase64UrlText, Signature.length_encodeBase64Url hl,
    Signature.all_isBase64Url_encodeBase64Url]
  rfl

theorem checkGrammar_manifest {ctx : ManifestVerifyContext} (n : Fin 4)
    (ho : isCapabilityList offered = true) (hr : isCapabilityList required = true)
    (ht : 0 ≤ publishedAt ∧ 1 ≤ publishedAt.saturatingAdd defaultManifestTtl) :
    checkGrammar primitives (manifest (agent n) offered required publishedAt) ctx = .ok () := by
  have he : isHttpsUri primitives "https://agent.example/aitp" = true := by decide +kernel
  have hi : (((agent n).identifier.length == 43 || (agent n).identifier.length == 44) &&
      isBase64UrlText (agent n).identifier) = true := by
    rw [identifier_agent, isBase64UrlText, String.toList_ofList, String.length_ofList]
    revert n
    decide
  have hc : (encodeBase64Url zeroNonce.bytes).length = 22 ∧
      isBase64UrlText (encodeBase64Url zeroNonce.bytes) = true :=
    ⟨by decide +kernel, Signature.all_isBase64Url_encodeBase64Url⟩
  simp [checkGrammar, manifest, unsignedManifest, ifPresent, he, ho, hr, ht, hi, hc,
    isSignature_fromRaw, ensure, checkHintMembers, allUnique]

/-- The manifest built for an agent verifies until it expires. -/
theorem verifyManifest_manifest {ctx : ManifestVerifyContext} (n : Fin 4)
    (ho : isCapabilityList offered = true) (hr : isCapabilityList required = true)
    (ht : 0 ≤ publishedAt ∧ 1 ≤ publishedAt.saturatingAdd defaultManifestTtl)
    (hn : ctx.now ≤ publishedAt.saturatingAdd defaultManifestTtl) :
    verifyManifest primitives (manifest (agent n) offered required publishedAt) ctx = .ok () :=
  verifyManifest_build (signer_lawful _) build_manifest (checkGrammar_manifest n ho hr ht) hn

@[simp] theorem manifest_aid : (manifest aid offered required publishedAt).aid = aid := rfl

/-- An agent's identifier resolves to the manifest built for it. -/
theorem resolveVerifiedManifest_manifest {ctx : ManifestVerifyContext} (n : Fin 4)
    (ho : isCapabilityList offered = true) (hr : isCapabilityList required = true)
    (ht : 0 ≤ publishedAt ∧ 1 ≤ publishedAt.saturatingAdd defaultManifestTtl)
    (hn : ctx.now ≤ publishedAt.saturatingAdd defaultManifestTtl) :
    resolveVerifiedManifest primitives (fun aid => some (manifest aid offered required publishedAt))
      (agent n) ctx = .ok (manifest (agent n) offered required publishedAt) := by
  simp only [resolveVerifiedManifest, bind_eq_ok, okOr_eq_ok, ensure_eq_ok, pure_eq_ok,
    exists_const]
  exact ⟨_, rfl, (), verifyManifest_manifest n ho hr ht hn, by simp [designates], rfl⟩

end Toy

end Aitp
