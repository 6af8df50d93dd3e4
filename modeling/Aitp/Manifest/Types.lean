import Aitp.Crypto.Keys
import Aitp.Handshake.Identity

/-! # Manifests

`manifest/types.rs` and `manifest/error.rs`: the signed self-description of an
agent. URLs keep the text they arrived with.
-/

namespace Aitp

/-- `ManifestError`; `undecodable` stands for the two reports of a typed deserialisation
failure. -/
inductive ManifestError where
  | expired
  | signatureInvalid
  | popFailed
  | aidMismatch
  | notFound
  | incompatibleIdentityType (kind : IdentityKind)
  | versionUnknown
  | identityHintMalformed (reason : String)
  | missingField (field : String)
  | crypto (error : CryptoError)
  | rng
  | unknownField (field : String)
  | malformed (member : String)
  | undecodable
  deriving DecidableEq

structure IdentityHint where
  kind : IdentityKind
  subject : String
  issuer : Option String
  publicKey : Option String

structure ManifestPop where
  challenge : String
  signature : String

structure Manifest where
  version : String
  aid : Aid
  displayName : Option String
  identityHint : IdentityHint
  handshakeEndpoint : String
  acceptedTrustAnchors : List String
  acceptedIdentityTypes : Option (List String)
  acceptedSignatureAlgorithms : Option (List String)
  offeredCapabilities : List String
  requiredPeerCapabilities : Option (List String)
  proofOfPossession : ManifestPop
  publishedAt : Timestamp
  expiresAt : Timestamp
  extensions : Option ExtensionsMap
  signature : String

def manifestMembers : List String :=
  ["version", "aid", "display_name", "identity_hint", "handshake_endpoint",
    "accepted_trust_anchors", "offered_capabilities", "required_peer_capabilities",
    "accepted_identity_types", "accepted_signature_algorithms", "proof_of_possession",
    "published_at", "expires_at", "extensions", "signature"]

/-- The fields of `IdentityHint`. -/
def identityHintFields : List FieldSpec :=
  [⟨"type", .required⟩, ⟨"subject", .required⟩, ⟨"issuer", .default⟩, ⟨"public_key", .default⟩]

/-- `Deserialize for IdentityHint`. -/
def decodeIdentityHint (v : Json) : Option IdentityHint :=
  match Serde.structFields identityHintFields v with
  | some [some kind, some subject, issuer, publicKey] => do
    return {
      kind := ← IdentityKind.decode kind
      subject := ← subject.asStr
      issuer := ← Serde.present Json.asStr issuer
      publicKey := ← Serde.present Json.asStr publicKey }
  | _ => none

/-- The fields of `ManifestPop`. -/
def manifestPopFields : List FieldSpec := [⟨"challenge", .required⟩, ⟨"signature", .required⟩]

/-- `Deserialize for ManifestPop`. -/
def decodeManifestPop (v : Json) : Option ManifestPop :=
  match Serde.structFields manifestPopFields v with
  | some [some (.str challenge), some (.str signature)] => some ⟨challenge, signature⟩
  | _ => none

/-- The fields of `Manifest`. -/
def manifestFields : List FieldSpec :=
  [⟨"version", .required⟩, ⟨"aid", .required⟩, ⟨"display_name", .default⟩,
    ⟨"identity_hint", .required⟩, ⟨"handshake_endpoint", .required⟩,
    ⟨"accepted_trust_anchors", .required⟩, ⟨"accepted_identity_types", .default⟩,
    ⟨"accepted_signature_algorithms", .default⟩, ⟨"offered_capabilities", .required⟩,
    ⟨"required_peer_capabilities", .default⟩, ⟨"proof_of_possession", .required⟩,
    ⟨"published_at", .required⟩, ⟨"expires_at", .required⟩, ⟨"extensions", .default⟩,
    ⟨"signature", .required⟩]

/-- `Deserialize for Manifest`. -/
def decodeManifest (v : Json) : Option Manifest :=
  match Serde.structFields manifestFields v with
  | some [some version, some aid, displayName, some identityHint, some handshakeEndpoint,
      some acceptedTrustAnchors, acceptedIdentityTypes, acceptedSignatureAlgorithms,
      some offeredCapabilities, requiredPeerCapabilities, some proofOfPossession,
      some publishedAt, some expiresAt, extensions, some signature] => do
    return {
      version := ← version.asStr
      aid := ← decodeAid aid
      displayName := ← Serde.present Json.asStr displayName
      identityHint := ← decodeIdentityHint identityHint
      handshakeEndpoint := ← handshakeEndpoint.asStr
      acceptedTrustAnchors := ← decodeStrings acceptedTrustAnchors
      acceptedIdentityTypes := ← Serde.present decodeStrings acceptedIdentityTypes
      acceptedSignatureAlgorithms := ← Serde.present decodeStrings acceptedSignatureAlgorithms
      offeredCapabilities := ← decodeStrings offeredCapabilities
      requiredPeerCapabilities := ← Serde.present decodeStrings requiredPeerCapabilities
      proofOfPossession := ← decodeManifestPop proofOfPossession
      publishedAt := ← Serde.i64 publishedAt
      expiresAt := ← Serde.i64 expiresAt
      extensions := ← Serde.present Serde.map extensions
      signature := ← signature.asStr }
  | _ => none

/-- `Serialize for IdentityHint`. -/
def IdentityHint.toValue (h : IdentityHint) : Json :=
  .obj <| Serde.written identityHintFields
    [some (.str h.kind.asStr), some (.str h.subject), h.issuer.map .str, h.publicKey.map .str]

/-- `Serialize for ManifestPop`. -/
def ManifestPop.toValue (p : ManifestPop) : Json :=
  .obj <| Serde.written manifestPopFields [some (.str p.challenge), some (.str p.signature)]

/-- `Serialize for Manifest`. -/
def Manifest.toValue (m : Manifest) : Json :=
  .obj <| Serde.written manifestFields
    [some (.str m.version), some (.str m.aid.value), m.displayName.map .str,
      some m.identityHint.toValue, some (.str m.handshakeEndpoint),
      some (stringsValue m.acceptedTrustAnchors), m.acceptedIdentityTypes.map stringsValue,
      m.acceptedSignatureAlgorithms.map stringsValue, some (stringsValue m.offeredCapabilities),
      m.requiredPeerCapabilities.map stringsValue, some m.proofOfPossession.toValue,
      some (.int m.publishedAt), some (.int m.expiresAt), m.extensions.map .obj,
      some (.str m.signature)]

/-- `manifest_signing_bytes` of the view that elides the signature. -/
def manifestSigningBytes (m : Manifest) : Bytes :=
  (m.toValue.remove "signature").jcs

end Aitp
