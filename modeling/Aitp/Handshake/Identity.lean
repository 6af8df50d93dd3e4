import Aitp.Core.Envelope
import Aitp.Core.Wire

/-! # Identity descriptors

`handshake/identity.rs`: the identity a party presents, and its kind.
-/

namespace Aitp

inductive IdentityKind where
  | oidc
  | pinnedKey
  | spiffe
  deriving DecidableEq

namespace IdentityKind

def asStr : IdentityKind → String
  | oidc => "oidc"
  | pinnedKey => "pinned_key"
  | spiffe => "spiffe"

/-- `Deserialize for IdentityKind`. -/
def decode (v : Json) : Option IdentityKind :=
  (Serde.variantName v).bind fun s => [oidc, pinnedKey, spiffe].find? fun k => k.asStr == s

end IdentityKind

inductive SvidType where
  | jwtSvid
  | x509Svid
  deriving DecidableEq

namespace SvidType

def asStr : SvidType → String
  | jwtSvid => "jwt-svid"
  | x509Svid => "x509-svid"

/-- `Deserialize for SvidType`. -/
def decode (v : Json) : Option SvidType :=
  (Serde.variantName v).bind fun s => [jwtSvid, x509Svid].find? fun t => t.asStr == s

end SvidType

structure IdentityDescriptor where
  kind : IdentityKind
  issuer : Option String
  subject : String
  svidType : Option SvidType
  proof : String
  x5c : Option (List String)
  publicKey : Option String
  extensions : Option ExtensionsMap

def IdentityDescriptor.pinnedKey (subject publicKey proof : String) : IdentityDescriptor where
  kind := .pinnedKey
  issuer := none
  subject := subject
  svidType := none
  proof := proof
  x5c := none
  publicKey := some publicKey
  extensions := none

def IdentityDescriptor.oidc (issuer subject proof : String) : IdentityDescriptor where
  kind := .oidc
  issuer := some issuer
  subject := subject
  svidType := none
  proof := proof
  x5c := none
  publicKey := none
  extensions := none

/-- The fields of `IdentityDescriptor`. -/
def identityDescriptorFields : List FieldSpec :=
  [⟨"type", .required⟩, ⟨"issuer", .default⟩, ⟨"subject", .required⟩, ⟨"svid_type", .default⟩,
    ⟨"proof", .required⟩, ⟨"x5c", .default⟩, ⟨"public_key", .default⟩, ⟨"extensions", .default⟩]

/-- `Deserialize for IdentityDescriptor`. -/
def decodeIdentityDescriptor (v : Json) : Option IdentityDescriptor :=
  match Serde.structFields identityDescriptorFields v with
  | some [some kind, issuer, some subject, svidType, some proof, x5c, publicKey, extensions] => do
    return {
      kind := ← IdentityKind.decode kind
      issuer := ← Serde.optional Json.asStr issuer
      subject := ← subject.asStr
      svidType := ← Serde.optional SvidType.decode svidType
      proof := ← proof.asStr
      x5c := ← Serde.optional decodeStrings x5c
      publicKey := ← Serde.optional Json.asStr publicKey
      extensions := ← Serde.optional Serde.map extensions }
  | _ => none

/-- `Serialize for IdentityDescriptor`. -/
def IdentityDescriptor.toValue (d : IdentityDescriptor) : Json :=
  .obj <| Serde.written identityDescriptorFields
    [some (.str d.kind.asStr), d.issuer.map .str, some (.str d.subject),
      d.svidType.map fun t => .str t.asStr, some (.str d.proof), d.x5c.map stringsValue,
      d.publicKey.map .str, d.extensions.map .obj]

end Aitp
