import Aitp.Manifest.Types

/-! # Manifest verification

`manifest/verifier.rs` and `manifest/resolver.rs`: the value grammar, the two
signatures and the resolution of a manifest by agent identifier. The URL parser
is a third-party one.
-/

namespace Aitp

structure ManifestVerifyContext where
  now : Timestamp
  insecureLocalhost : Bool

/-- `str::split_once` at a character. -/
def splitOnce (c : Char) (cs : List Char) : Option (List Char × List Char) :=
  if c ∈ cs then some (cs.takeWhile (· != c), (cs.dropWhile (· != c)).drop 1) else none

theorem splitOnce_append {c : Char} {xs ys : List Char} (h : c ∉ xs) :
    splitOnce c (xs ++ c :: ys) = some (xs, ys) := by
  have hp : ∀ x ∈ xs, (x != c) = true := fun x hx => by
    simpa using fun he : x = c => h (he ▸ hx)
  simp [splitOnce, List.takeWhile_append_of_pos hp, List.dropWhile_append_of_pos hp]

/-- What precedes the last occurrence of a character. -/
def beforeLast (c : Char) (cs : List Char) : Option (List Char) :=
  (splitOnce c cs.reverse).map fun p => p.2.reverse

/-- A printable ASCII character that a URI may hold. -/
def isUriChar (c : Char) : Bool :=
  33 ≤ c.toNat && c.toNat ≤ 126 && !"\"<>\\^\x60\x7b|\x7d".toList.contains c

def isHexDigit (c : Char) : Bool :=
  c.isDigit || ('a' ≤ c && c ≤ 'f') || ('A' ≤ c && c ≤ 'F')

/-- The user info of a URI's authority, and what follows the authority. -/
def userinfoAndRest (cs : List Char) : List Char × List Char :=
  let rest := (splitOnce ':' cs).elim cs Prod.snd
  let ends (c : Char) : Bool := c == '/' || c == '?' || c == '#'
  match rest with
  | '/' :: '/' :: after =>
    ((beforeLast '@' (after.takeWhile fun c => !ends c)).getD [], after.dropWhile fun c => !ends c)
  | _ => ([], rest)

section

variable (P : Primitives)

def isUri (s : String) : Bool :=
  let (userinfo, afterAuthority) := userinfoAndRest s.toList
  s.toList.all isUriChar &&
    ((s.toList.splitOn '%').drop 1).all (fun e => 2 ≤ e.length && (e.take 2).all isHexDigit) &&
    userinfo.all (fun c => c != '[' && c != ']' && c != '@') &&
    afterAuthority.all (fun c => c != '[' && c != ']') &&
    afterAuthority.count '#' ≤ 1 &&
    (P.url s).isSome

def isHttpsUri (s : String) : Bool :=
  (stripPrefix "https://" s).isSome && isUri P s

def isLocalhostHttp (s : String) : Bool :=
  (stripPrefix "http://" s).isSome && isUri P s &&
    (P.url s).any fun u => u.host == some "localhost" || u.host == some "127.0.0.1"

end

def allUnique (items : List String) : Bool :=
  decide items.Nodup

def isWhitespace (c : Char) : Bool :=
  let n := c.toNat
  (9 ≤ n && n ≤ 13) || n == 0x20 || n == 0x85 || n == 0xa0 || n == 0x1680 ||
    (0x2000 ≤ n && n ≤ 0x200a) || n == 0x2028 || n == 0x2029 || n == 0x202f || n == 0x205f ||
    n == 0x3000

def isEcmaSpace (c : Char) : Bool :=
  (isWhitespace c && c.toNat != 0x85) || c.toNat == 0xfeff

def isCapabilityList (capabilities : List String) : Bool :=
  capabilities.all (fun c => c != "" && !c.toList.any isEcmaSpace) && allUnique capabilities

/-- `is_base64url`. -/
def isBase64UrlText (s : String) : Bool :=
  s.toList.all Base64Url.isBase64Url

def isSignature (s : String) : Bool :=
  (untagged s).length == 86 && isBase64UrlText (untagged s)

/-- A segment of a SPIFFE ID's path. -/
def isSpiffeSegment (segment : List Char) : Bool :=
  segment.all (fun c => c.isAlphanum || c == '.' || c == '_' || c == '-') &&
    (3 ≤ (utf8 segment).length || segment.any (· != '.')) && !segment.isEmpty

def isSpiffeId (s : String) : Bool :=
  if 2048 < s.length then false
  else
    match stripPrefix "spiffe://" s with
    | none => false
    | some rest =>
      match splitOnce '/' rest.toList with
      | none => false
      | some (domain, path) =>
        (1 ≤ (utf8 domain).length && (utf8 domain).length ≤ 255) &&
          domain.all (fun c => c.isLower || c.isDigit || c == '.' || c == '_' || c == '-') &&
          (path.splitOn '/').all isSpiffeSegment

/-- The members an `identity_hint` of each kind requires or forbids. -/
def checkHintMembers (hint : IdentityHint) : Except ManifestError Unit :=
  match hint.kind with
  | .oidc => do
    ensure hint.issuer.isSome (.identityHintMalformed "oidc requires `issuer`")
    ensure hint.publicKey.isNone (.identityHintMalformed "oidc must not include `public_key`")
  | .pinnedKey =>
    ensure hint.publicKey.isSome (.identityHintMalformed "pinned_key requires `public_key`")
  | .spiffe => do
    ensure hint.issuer.isNone (.identityHintMalformed "spiffe must not include `issuer`")
    ensure hint.publicKey.isNone (.identityHintMalformed "spiffe must not include `public_key`")

variable (P : Primitives)

/-- A member whose value its grammar does not allow. -/
def outside (member : String) : ManifestError :=
  .malformed ("`" ++ member ++ "` is outside its grammar")

def checkGrammar (m : Manifest) (ctx : ManifestVerifyContext) : Except ManifestError Unit := do
  ifPresent m.displayName fun name =>
    ensure (name.length ≤ 128) (outside "display_name")
  ensure (isHttpsUri P m.handshakeEndpoint ||
    (ctx.insecureLocalhost && isLocalhostHttp P m.handshakeEndpoint))
    (outside "handshake_endpoint")
  ensure (m.acceptedTrustAnchors.all (isUri P) && allUnique m.acceptedTrustAnchors)
    (outside "accepted_trust_anchors")
  ensure (isCapabilityList m.offeredCapabilities) (outside "offered_capabilities")
  ifPresent m.requiredPeerCapabilities fun required =>
    ensure (isCapabilityList required) (outside "required_peer_capabilities")
  ifPresent m.acceptedIdentityTypes fun types =>
    ensure (types.all (["oidc", "pinned_key", "spiffe"].contains ·) && allUnique types)
      (outside "accepted_identity_types")
  ifPresent m.acceptedSignatureAlgorithms fun algorithms =>
    ensure (algorithms.all (["ed25519", "p256"].contains ·) && allUnique algorithms)
      (outside "accepted_signature_algorithms")
  ensure (m.proofOfPossession.challenge.length == 22 &&
    isBase64UrlText m.proofOfPossession.challenge) (outside "proof_of_possession.challenge")
  ensure (isSignature m.proofOfPossession.signature) (outside "proof_of_possession.signature")
  ensure (decide (0 ≤ m.publishedAt)) (outside "published_at")
  ensure (decide (1 ≤ m.expiresAt)) (outside "expires_at")
  ensure (isSignature m.signature) (outside "signature")
  let hint := m.identityHint
  ensure (hint.subject != "") (outside "identity_hint.subject")
  ifPresent hint.issuer fun issuer =>
    ensure (isUri P issuer) (outside "identity_hint.issuer")
  ifPresent hint.publicKey fun key =>
    ensure ((key.length == 43 || key.length == 44) && isBase64UrlText key)
      (outside "identity_hint.public_key")
  checkHintMembers hint
  ensure (hint.kind != .spiffe || isSpiffeId hint.subject) (outside "identity_hint.subject")

/-- `verify_manifest`; the source wraps the manifest it returns. -/
def verifyManifest (manifest : Manifest) (ctx : ManifestVerifyContext) :
    Except ManifestError Unit := do
  ensure (manifest.version == protocolVersion) .versionUnknown
  checkGrammar P manifest ctx
  ensure (!manifest.expiresAt.isInThePast ctx.now) .expired
  let issuerPubkey ← mapErr .crypto (VerifyingKey.fromAid P manifest.aid)
  let challengeBytes ← okOr (decodeStrict manifest.proofOfPossession.challenge) .popFailed
  let popSig ← mapErr (fun _ => .popFailed) (Signature.parse manifest.proofOfPossession.signature)
  mapErr (fun _ => .popFailed) (issuerPubkey.verifyJcs P challengeBytes popSig)
  let outerSig ← mapErr (fun _ => .signatureInvalid) (Signature.parse manifest.signature)
  mapErr (fun _ => .signatureInvalid)
    (issuerPubkey.verifyJcs P (manifestSigningBytes manifest) outerSig)

def checkIdentityTypeCompatibility (peerManifest : Manifest) (ourIdentityType : IdentityKind) :
    Except ManifestError Unit :=
  let accepted :=
    match peerManifest.acceptedIdentityTypes with
    | none => decide (ourIdentityType = .oidc)
    | some list => list.contains ourIdentityType.asStr
  ensure accepted (.incompatibleIdentityType ourIdentityType)

/-! ## Resolution -/

abbrev ManifestResolver := Aid → Option Manifest

def designates (manifestAid aid : Aid) : Bool :=
  decide (manifestAid.algorithm = aid.algorithm) && manifestAid.identifier == aid.identifier

def resolveVerifiedManifest (resolver : ManifestResolver) (aid : Aid)
    (ctx : ManifestVerifyContext) : Except ManifestError Manifest := do
  let manifest ← okOr (resolver aid) .notFound
  verifyManifest P manifest ctx
  ensure (designates manifest.aid aid) .aidMismatch
  return manifest

variable {P} {manifest : Manifest} {ctx : ManifestVerifyContext}

theorem fromAid_of_verifyManifest {u : Unit} (h : verifyManifest P manifest ctx = .ok u) :
    ∃ key, VerifyingKey.fromAid P manifest.aid = .ok key ∧
      key.verifyJcs P (manifestSigningBytes manifest) manifest.signature = .ok () := by
  simp only [verifyManifest, bind_eq_ok, ensure_eq_ok, mapErr_eq_ok, okOr_eq_ok] at h
  obtain ⟨_, -, _, -, _, -, key, hk, _, -, _, -, _, -, outerSig, hs, hv⟩ := h
  obtain rfl := Signature.eq_of_parse hs
  exact ⟨key, hk, hv⟩

theorem fromAid_of_resolveVerifiedManifest {resolver : ManifestResolver} {aid : Aid}
    (h : resolveVerifiedManifest P resolver aid ctx = .ok manifest) :
    VerifyingKey.fromAid P manifest.aid = VerifyingKey.fromAid P aid := by
  simp only [resolveVerifiedManifest, bind_eq_ok, okOr_eq_ok, ensure_eq_ok, pure_eq_ok,
    exists_const] at h
  obtain ⟨m, -, -, -, hd, rfl⟩ := h
  simp only [designates, Bool.and_eq_true, decide_eq_true_eq, beq_iff_eq] at hd
  rw [VerifyingKey.fromAid, VerifyingKey.fromAid, Aid.pubkeyCompressedBytes,
    Aid.pubkeyCompressedBytes, hd.1, hd.2]

end Aitp
