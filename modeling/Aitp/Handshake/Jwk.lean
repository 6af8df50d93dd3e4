import Aitp.Crypto.Keys

/-! # JSON Web Keys

`handshake/jwk.rs`: the keys of an identity provider and the algorithms they may
be used with. The signature algorithms live in other crates and are parameters.
-/

namespace Aitp

inductive JwsAlgorithm where
  | edDsa
  | es256
  | es384
  | es512
  | rs256
  | rs384
  | rs512
  | ps256
  | ps384
  | ps512
  deriving DecidableEq

inductive JwkKeyMaterial where
  | ed25519 (x : Bytes)
  | p256 (x y : Bytes)
  | p384 (x y : Bytes)
  | p521 (x y : Bytes)
  | rsa (n e : Bytes)
  deriving DecidableEq

structure JwkPublicKey where
  kid : Option String
  alg : Option JwsAlgorithm
  key : JwkKeyMaterial

inductive JwsVerifyError where
  | algMismatch (header : String)
  | invalidKey
  | signatureInvalid
  deriving DecidableEq

namespace JwsAlgorithm

def asStr : JwsAlgorithm → String
  | edDsa => "EdDSA"
  | es256 => "ES256"
  | es384 => "ES384"
  | es512 => "ES512"
  | rs256 => "RS256"
  | rs384 => "RS384"
  | rs512 => "RS512"
  | ps256 => "PS256"
  | ps384 => "PS384"
  | ps512 => "PS512"

def fromStr (s : String) : Option JwsAlgorithm :=
  [edDsa, es256, es384, es512, rs256, rs384, rs512, ps256, ps384, ps512].find? fun a =>
    a.asStr == s

def fits : JwsAlgorithm → JwkKeyMaterial → Bool
  | edDsa, .ed25519 _ => true
  | es256, .p256 _ _ => true
  | es384, .p384 _ _ => true
  | es512, .p521 _ _ => true
  | rs256, .rsa _ _ | rs384, .rsa _ _ | rs512, .rsa _ _ => true
  | ps256, .rsa _ _ | ps384, .rsa _ _ | ps512, .rsa _ _ => true
  | _, _ => false

end JwsAlgorithm

/-- The third-party signature verification that provider tokens rely on. -/
structure Jose where
  /-- Whether an Ed25519 or P-256 key decodes to a curve point. -/
  isPoint : JwkKeyMaterial → Bool
  verify : JwkKeyMaterial → JwsAlgorithm → Bytes → Bytes → Bool

def verifyJwsSignature (J : Jose) (key : JwkPublicKey) (headerAlg : String)
    (signingInput sig : Bytes) : Except JwsVerifyError Unit := do
  let alg ← okOr (JwsAlgorithm.fromStr headerAlg) (.algMismatch headerAlg)
  ensure (alg.fits key.key && key.alg.all (· == alg)) (.algMismatch headerAlg)
  let parses :=
    match key.key with
    | .ed25519 _ | .p256 _ _ => J.isPoint key.key
    | _ => true
  ensure parses .invalidKey
  ensure (J.verify key.key alg signingInput sig) .signatureInvalid

end Aitp
