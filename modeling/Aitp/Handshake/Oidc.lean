import Aitp.Crypto.Jws
import Aitp.Handshake.Error
import Aitp.Handshake.Jwk

/-! # Identity provider proofs

`handshake/identity_oidc.rs`: a token of a trusted identity provider, bound to
the presenting agent's key and to the nonce of the handshake message.
-/

namespace Aitp

/-- `JwksResolver::resolve`; `none` is a `ResolveError`. -/
abbrev JwksResolver := Url → Option (List JwkPublicKey)

/-- `OidcVerifyContext`; the tolerance counts seconds. -/
structure OidcVerifyContext where
  expectedAudience : Aid
  expectedNonce : String
  trustAnchors : List String
  jwksResolver : JwksResolver
  subjectAid : Aid
  iatTolerance : ℕ
  now : Timestamp

structure JwtHeader where
  alg : String
  kid : Option String

def decodeJwtHeader (v : Json) : Option JwtHeader :=
  match Serde.openStructFields [⟨"alg", .required⟩, ⟨"kid", .default⟩] v with
  | some [some alg, kid] => do
    return { alg := ← alg.asStr, kid := ← Serde.optional Json.asStr kid }
  | _ => none

inductive Aud where
  | single (audience : String)
  | multi (audiences : List String)

namespace Aud

def decode (v : Json) : Option Aud :=
  match v.asStr with
  | some s => some (single s)
  | none => (decodeStrings v).map multi

def contains (expected : String) : Aud → Bool
  | single s => s == expected
  | multi ss => ss.contains expected

end Aud

/-- `OidcClaims`; `jkt` holds the member of the source's `Cnf`. -/
structure OidcClaims where
  iss : String
  sub : String
  aud : Aud
  iat : Timestamp
  exp : Timestamp
  nonce : Option String
  jkt : Option String

def decodeOidcCnf (v : Json) : Option String :=
  match Serde.openStructFields [⟨"jkt", .required⟩] v with
  | some [some jkt] => jkt.asStr
  | _ => none

def oidcClaimsFields : List FieldSpec :=
  [⟨"iss", .required⟩, ⟨"sub", .required⟩, ⟨"aud", .required⟩, ⟨"iat", .required⟩,
    ⟨"exp", .required⟩, ⟨"nonce", .default⟩, ⟨"cnf", .default⟩]

def decodeOidcClaims (v : Json) : Option OidcClaims :=
  match Serde.openStructFields oidcClaimsFields v with
  | some [some iss, some sub, some aud, some iat, some exp, nonce, cnf] => do
    return {
      iss := ← iss.asStr
      sub := ← sub.asStr
      aud := ← Aud.decode aud
      iat := ← Serde.i64 iat
      exp := ← Serde.i64 exp
      nonce := ← Serde.optional Json.asStr nonce
      jkt := ← Serde.optional decodeOidcCnf cnf }
  | _ => none

section

variable (P : Primitives) (J : Jose)

/-- The key a token's header selects among its issuer's. -/
def selectJwk (candidates : List JwkPublicKey) (kid : Option String) : Option JwkPublicKey :=
  match candidates.find? fun k => k.kid == kid with
  | some key => some key
  | none =>
    match kid, candidates with
    | none, [key] => some key
    | _, _ => none

/-- The checks of `verify_oidc` on the claims of a token whose signature verified. -/
def checkOidcClaims (claims : OidcClaims) (issuer subject : String) (ctx : OidcVerifyContext) :
    Except HandshakeError Unit := do
  ensure (claims.iss == issuer) (.identity "iss mismatch")
  ensure (claims.aud.contains ctx.expectedAudience.value) (.identity "aud mismatch")
  ensure (claims.sub == subject) (.identity "sub mismatch")
  ensure (decide (ctx.now < claims.exp)) (.identity "jwt exp in the past")
  ensure (claims.iat.isWithinToleranceOf ctx.now ctx.iatTolerance)
    (.identity "iat outside tolerance")
  let nonce ← okOr claims.nonce (.identity "missing nonce claim")
  ensure (nonce == ctx.expectedNonce) (.identity "nonce mismatch")
  let jkt ← okOr claims.jkt (.identity "missing cnf claim")
  let key ← mapErr (fun _ => .identity "subject AID parse failed")
    (VerifyingKey.fromAid P ctx.subjectAid)
  ensure (jkt == key.toJwkThumbprintSha256 P) (.identity "cnf.jkt mismatch")

def verifyOidc (proof : IdentityDescriptor) (ctx : OidcVerifyContext) :
    Except HandshakeError Unit := do
  ensure proof.publicKey.isNone (.identity "oidc descriptor must not carry public_key")
  let issuer ← okOr proof.issuer (.identity "oidc descriptor missing issuer")
  ensure (ctx.trustAnchors.contains issuer) .incompatibleTrustAnchors
  let (headerB64, payloadB64, sigB64) ←
    match segments proof.proof with
    | [h, p, s] => .ok (h, p, s)
    | parts => .error (.identity ("malformed JWT: expected 3 dot-separated segments, got " ++
        toString parts.length))
  let headerBytes ← okOr (decodeStrict headerB64) (.identity "malformed JWT header b64")
  let header ← okOr ((P.document headerBytes).bind decodeJwtHeader)
    (.identity "malformed JWT header json")
  let issuerUrl ← okOr (P.url issuer) (.identity "issuer not a URL")
  let candidates ← okOr (ctx.jwksResolver issuerUrl) (.keyResolutionFailed issuer)
  ensure (!candidates.isEmpty) (.keyResolutionFailed issuer)
  let key ← okOr (selectJwk candidates header.kid) (.identity "no matching JWK")
  let sigBytes ← okOr (decodeStrict sigB64) (.identity "malformed JWT signature b64")
  mapErr (fun _ => .identity "jwt signature invalid")
    (verifyJwsSignature J key header.alg (asBytes (headerB64 ++ "." ++ payloadB64)) sigBytes)
  let payloadBytes ← okOr (decodeStrict payloadB64) (.identity "malformed JWT payload b64")
  let claims ← okOr ((P.document payloadBytes).bind decodeOidcClaims)
    (.identity "malformed JWT claims")
  checkOidcClaims P claims issuer proof.subject ctx

end

end Aitp
