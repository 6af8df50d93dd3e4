import Aitp.Crypto.Jws
import Aitp.Foundation.WriteOnce
import Aitp.Handshake.Bootstrap
import Aitp.Spiffe.Bundle
import Aitp.Spiffe.ProofInput
import Aitp.Spiffe.TrustDomain

/-! # SPIFFE identities

The bundle store and the verifier of `spiffe.rs`: the bundle of the trust domain of a subject,
and no other, decides on a JWT-SVID or an X509-SVID that is presented for it.
-/

namespace Aitp

/-! ## The bundle store -/

structure SpiffeBundleStore where
  bundles : AList fun _ : String => SpiffeBundle
  canonical : ∀ td ∈ bundles, isCanonicalTrustDomain td.toList = true

namespace SpiffeBundleStore

def new : SpiffeBundleStore := ⟨∅, fun _ h => absurd h (AList.notMem_empty _)⟩

def get (store : SpiffeBundleStore) (trustDomain : String) : Option SpiffeBundle :=
  store.bundles.lookup trustDomain

def insert (store : SpiffeBundleStore) (trustDomain : String) (bundle : SpiffeBundle) :
    Except SpiffeConfigError SpiffeBundleStore :=
  if hc : isCanonicalTrustDomain trustDomain.toList = true then
    if trustDomain ∈ store.bundles then .error (.duplicateTrustDomain trustDomain)
    else .ok ⟨store.bundles.insert trustDomain bundle, fun td h =>
      ((AList.mem_insert _).mp h).elim (fun he => he ▸ hc) (store.canonical td)⟩
  else .error (.invalidTrustDomain trustDomain)

end SpiffeBundleStore

/-- What the loop of `SpiffeBundleStore::from_config` reads of an entry. -/
def readBundleEntry (C : BundleCodec) (entry : Json) :
    Except SpiffeConfigError (String × SpiffeBundle) := do
  let trustDomain ← okOr (entry.getStr "trust_domain")
    (.malformed "spiffe_bundles entry has no trust_domain")
  let bundle ← okOr (entry.get "bundle") (.malformed "spiffe_bundles entry has no bundle")
  let bundle ← SpiffeBundle.fromJwkSet C bundle
  return (trustDomain, bundle)

def SpiffeBundleStore.fromConfig (C : BundleCodec) (spiffeBundles : Json) :
    Except SpiffeConfigError SpiffeBundleStore := do
  let entries ← okOr spiffeBundles.asArray (.malformed "spiffe_bundles is not an array")
  entries.foldlM (fun store entry => do
    let (trustDomain, bundle) ← readBundleEntry C entry
    store.insert trustDomain bundle) .new

/-! ## Certificates -/

/-- `GeneralName`: a name of a subject. -/
inductive GeneralName where
  | uri (uri : String)
  | other

/-- `KeyUsage` of a certificate. -/
structure LeafKeyUsage where
  digitalSignature : Bool
  keyCertSign : Bool
  crlSign : Bool

/-- `X509Certificate`. An extension that is malformed, or there twice, is an error; the parameters
of the key's algorithm are kept if they are an identifier. -/
structure X509Certificate where
  subjectAlternativeName : Except String (Option (List GeneralName))
  basicConstraintsCa : Except String (Option Bool)
  keyUsage : Except String (Option LeafKeyUsage)
  algorithm : String
  parameters : Option String
  subjectPublicKey : Bytes

/-- What a path is validated for: `client_auth` and `server_auth`. -/
inductive PathUsage where
  | clientAuth
  | serverAuth

/-- The X.509 code from elsewhere. -/
structure X509 extends BundleCodec where
  /-- What a certificate that parses holds. -/
  certificate : Bytes → X509Certificate
  /-- `anchor_from_trusted_cert`. -/
  anchorFromTrustedCert : Bytes → Except String Unit
  /-- `EndEntityCert::try_from`. -/
  endEntityCert : Bytes → Except String Unit
  /-- `verify_for_usage` of a leaf, under anchors, through intermediates, at a time. -/
  verifyForUsage : Bytes → List Bytes → List Bytes → ℕ → PathUsage → Except String Unit

def oidSigEd25519 : String := "1.3.101.112"

def oidKeyTypeEcPublicKey : String := "1.2.840.10045.2.1"

def oidEcP256 : String := "1.2.840.10045.3.1.7"

section

variable (P : Primitives)

def VerifyingKey.fromEd25519Bytes (bytes : Bytes) : Except CryptoError VerifyingKey := do
  ensure (P.isPoint .ed25519 bytes) .keyParseFailed
  return ⟨.ed25519, bytes⟩

/-- `AitpVerifyingKey::from_p256_affine`: the point that compresses to `x` and the parity of `y`,
if it is the one with these coordinates. -/
def VerifyingKey.fromP256Affine (x y : Bytes) : Except CryptoError VerifyingKey := do
  let bytes := (2 + y.getLastD 0 % 2) :: x
  ensure (P.isPoint .p256 bytes && P.affine bytes == (x, y)) .keyParseFailed
  return ⟨.p256, bytes⟩

/-- The key of a leaf, as `check_leaf` reads it. -/
def leafKey (leaf : X509Certificate) : Except IdentityVerifyError VerifyingKey :=
  let keyBytes := leaf.subjectPublicKey
  if leaf.algorithm = oidSigEd25519 then do
    ensure (keyBytes.length == 32) (spiffeFail "leaf Ed25519 key is not 32 bytes")
    mapErr (fun _ => spiffeFail "leaf key") (VerifyingKey.fromEd25519Bytes P keyBytes)
  else if leaf.algorithm = oidKeyTypeEcPublicKey then do
    ensure (leaf.parameters == some oidEcP256) (spiffeFail "leaf EC key is not P-256")
    let xy ← okOr (keyBytes.tail?.filter fun _ => keyBytes.head? == some 4 && keyBytes.length == 65)
      (spiffeFail "leaf P-256 key is not an uncompressed point")
    mapErr (fun _ => spiffeFail "leaf key")
      (VerifyingKey.fromP256Affine P (xy.take 32) (xy.drop 32))
  else .error (spiffeFail "leaf key is neither Ed25519 nor P-256")

/-- The URIs of the names of a subject. -/
def uriNames (names : List GeneralName) : List String :=
  names.filterMap fun
    | .uri u => some u
    | .other => none

/-- The names that `check_leaf` accepts. -/
def checkUriNames (uris : List String) (subject : String) : Except IdentityVerifyError Unit :=
  match uris with
  | [uri] => ensure (uri == subject) (spiffeFail "leaf URI SAN does not equal identity.subject")
  | _ => .error (spiffeFail "leaf must carry exactly one URI SAN")

def checkLeaf (leaf : X509Certificate) (subject : String) :
    Except IdentityVerifyError VerifyingKey := do
  let names ← mapErr (fun e => spiffeFail ("leaf SAN: " ++ e)) leaf.subjectAlternativeName
  let names ← okOr names (spiffeFail "leaf has no subjectAltName")
  checkUriNames (uriNames names) subject
  let ca ← mapErr (fun e => spiffeFail ("leaf basicConstraints: " ++ e)) leaf.basicConstraintsCa
  ensure (ca != some true) (spiffeFail "leaf is a CA certificate")
  let keyUsage ← mapErr (fun e => spiffeFail ("leaf keyUsage: " ++ e)) leaf.keyUsage
  let keyUsage ← okOr keyUsage (spiffeFail "leaf has no keyUsage")
  ensure keyUsage.digitalSignature (spiffeFail "leaf keyUsage lacks digitalSignature")
  ensure (!(keyUsage.keyCertSign || keyUsage.crlSign))
    (spiffeFail "leaf keyUsage has keyCertSign or cRLSign")
  leafKey P leaf

end

/-! ## The verifier -/

/-- `SpiffeVerifyContext`; the tolerance counts seconds. -/
structure SpiffeVerifyContext where
  bundles : SpiffeBundleStore
  senderAid : Aid
  receiverAid : Aid
  messageId : Uuid
  timestamp : Timestamp
  popNonce : String
  iatTolerance : ℕ
  now : Timestamp

def jwtSvidAlgs : List String :=
  ["RS256", "RS384", "RS512", "ES256", "ES384", "ES512", "PS256", "PS384", "PS512"]

/-- `JwtSvidClaims`; `jkt` holds the member of the source's `Cnf`. -/
structure JwtSvidClaims where
  sub : String
  aud : Aud
  exp : Timestamp
  iat : Timestamp
  nonce : String
  jkt : String

def jwtSvidClaimsFields : List FieldSpec :=
  [⟨"sub", .required⟩, ⟨"aud", .required⟩, ⟨"exp", .required⟩, ⟨"iat", .required⟩,
    ⟨"nonce", .required⟩, ⟨"cnf", .required⟩]

def decodeJwtSvidClaims (v : Json) : Option JwtSvidClaims :=
  match Serde.openStructFields jwtSvidClaimsFields v with
  | some [some sub, some aud, some exp, some iat, some nonce, some cnf] => do
    return {
      sub := ← sub.asStr
      aud := ← Aud.decode aud
      exp := ← Serde.i64 exp
      iat := ← Serde.i64 iat
      nonce := ← nonce.asStr
      jkt := ← decodeOidcCnf cnf }
  | _ => none

/-- The one value of an `aud`. -/
def Aud.one : Aud → Option String
  | single a => some a
  | multi [a] => some a
  | multi _ => none

section

variable (P : Primitives) (J : Jose) (X : X509)

/-- The header of a JWT-SVID, as `verify_jwt_svid` reads it: its `alg` and its `kid`. -/
def readJwtSvidHeader (headerB64 : String) : Except IdentityVerifyError (String × String) := do
  let headerBytes ← okOr (decodeStrict headerB64) (spiffeFail "malformed JWT-SVID header b64")
  let header ← okOr ((P.document headerBytes).bind Serde.map)
    (spiffeFail "malformed JWT-SVID header json")
  forEach header fun m => ensure (["alg", "kid", "typ"].contains m.1)
    (spiffeFail ("JWT-SVID header member " ++ X.debug m.1 ++ " not allowed"))
  let alg ← okOr ((header.lookup "alg").bind Json.asStr) (spiffeFail "JWT-SVID header has no alg")
  ensure (jwtSvidAlgs.contains alg)
    (spiffeFail ("JWT-SVID alg " ++ X.debug alg ++ " not allowed"))
  ifPresent (header.lookup "typ") fun typ =>
    ensure (typ.asStr == some "JWT" || typ.asStr == some "JOSE")
      (spiffeFail "JWT-SVID typ must be JWT or JOSE")
  let kid ← okOr ((header.lookup "kid").bind Json.asStr) (spiffeFail "JWT-SVID header has no kid")
  return (alg, kid)

/-- The checks of `verify_jwt_svid` on the claims of a token whose signature verified. -/
def checkJwtSvidClaims (claims : JwtSvidClaims) (subject : String) (ctx : SpiffeVerifyContext) :
    Except IdentityVerifyError Unit := do
  ensure (claims.sub == subject) (spiffeFail "sub mismatch")
  let aud ← okOr claims.aud.one (spiffeFail "aud must hold exactly one value")
  ensure (aud == ctx.receiverAid.value) (spiffeFail "aud mismatch")
  ensure (decide (ctx.now < claims.exp)) (spiffeFail "exp in the past")
  ensure (claims.iat.isWithinToleranceOf ctx.now ctx.iatTolerance)
    (spiffeFail "iat outside tolerance")
  ensure (claims.nonce == ctx.popNonce) (spiffeFail "nonce mismatch")
  let key ← mapErr (fun _ => spiffeFail "sender AID thumbprint")
    (VerifyingKey.fromAid P ctx.senderAid)
  ensure (claims.jkt == key.toJwkThumbprintSha256 P) (spiffeFail "cnf.jkt mismatch")

def verifyJwtSvid (identity : IdentityDescriptor) (bundle : SpiffeBundle)
    (ctx : SpiffeVerifyContext) : Except IdentityVerifyError Unit := do
  let (headerB64, payloadB64, sigB64) ←
    match segments identity.proof with
    | [h, p, s] => .ok (h, p, s)
    | _ => .error (spiffeFail "JWT-SVID is not a three-segment compact JWS")
  let (alg, kid) ← readJwtSvidHeader P X headerB64
  let key ← okOr (bundle.jwtAuthorities.find? fun k => k.kid == some kid)
    (spiffeFail ("no jwt-svid key with kid " ++ X.debug kid))
  let sig ← okOr (decodeStrict sigB64) (spiffeFail "malformed JWT-SVID signature b64")
  mapErr (fun _ => spiffeFail "JWT-SVID signature invalid")
    (verifyJwsSignature J key alg (asBytes (headerB64 ++ "." ++ payloadB64)) sig)
  let payload ← okOr (decodeStrict payloadB64) (spiffeFail "malformed JWT-SVID payload b64")
  let claims ← okOr ((P.document payload).bind decodeJwtSvidClaims)
    (spiffeFail "malformed JWT-SVID claims")
  checkJwtSvidClaims P claims identity.subject ctx

/-- The path validation of `verify_x509_svid`: a leaf may carry either purpose. -/
def validatePath (leaf : Bytes) (anchors intermediates : List Bytes) (time : ℕ) :
    Except IdentityVerifyError Unit :=
  match X.verifyForUsage leaf anchors intermediates time .clientAuth with
  | .ok () => .ok ()
  | .error _ => mapErr (fun e => spiffeFail ("path validation: " ++ e))
      (X.verifyForUsage leaf anchors intermediates time .serverAuth)

/-- The proof of `verify_x509_svid`, under the key of the leaf. -/
def checkX509Proof (key : VerifyingKey) (proof : String) (ctx : SpiffeVerifyContext) :
    Except IdentityVerifyError Unit := do
  let input ← spiffeX509ProofInput ctx.senderAid ctx.receiverAid ctx.messageId ctx.timestamp
    ctx.popNonce
  -- The `expect` of the input does not panic.
  let input ← okOr input (spiffeFail "")
  let sig ← mapErr (fun _ => spiffeFail "proof") (Signature.parse proof)
  mapErr (fun _ => spiffeFail "x509-svid proof does not verify under the leaf key")
    (key.verifyJcs P input sig)

def verifyX509Svid (identity : IdentityDescriptor) (bundle : SpiffeBundle)
    (ctx : SpiffeVerifyContext) : Except IdentityVerifyError Unit := do
  let chain ← (identity.x5c.getD []).mapM fun c => mapErr spiffeFail (X.decodeX5cEntry c)
  match chain with
  | [] => .error (spiffeFail "x509-svid requires a non-empty x5c")
  | leafDer :: intermediates => do
    mapErr spiffeFail (X.parseCertificate leafDer)
    let key ← checkLeaf P (X.certificate leafDer) identity.subject
    forEach bundle.x509Authorities fun der =>
      mapErr (fun e => spiffeFail ("bundle CA: " ++ e)) (X.anchorFromTrustedCert der)
    mapErr (fun e => spiffeFail ("leaf certificate: " ++ e)) (X.endEntityCert leafDer)
    ensure (decide (0 ≤ ctx.now)) (spiffeFail "current time before epoch")
    validatePath X leafDer bundle.x509Authorities intermediates ctx.now.toNat
    checkX509Proof P key identity.proof ctx

/-- Whether a chain stands beside an SVID, as `verify_spiffe` checks it. -/
def checkX5cShape (x5c : Option (List String)) : SvidType → Except IdentityVerifyError Unit
  | .jwtSvid => ensure x5c.isNone (spiffeFail "x5c must be absent for a jwt-svid")
  | .x509Svid =>
    ensure (!(x5c.getD []).isEmpty) (spiffeFail "x509-svid requires a non-empty x5c")

/-- The shape of a descriptor, as `verify_spiffe` checks it: its trust domain and its kind of
SVID. -/
def checkSpiffeShape (identity : IdentityDescriptor) :
    Except IdentityVerifyError (String × SvidType) := do
  ensure (decide (identity.kind = .spiffe)) (spiffeFail "identity.type is not spiffe")
  ensure identity.issuer.isNone (spiffeFail "descriptor must not carry issuer")
  ensure identity.publicKey.isNone (spiffeFail "descriptor must not carry public_key")
  let svidType ← okOr identity.svidType (spiffeFail "descriptor is missing svid_type")
  let trustDomain ← spiffeIdTrustDomain identity.subject
  checkX5cShape identity.x5c svidType
  return (trustDomain, svidType)

def verifySpiffe (identity : IdentityDescriptor) (ctx : SpiffeVerifyContext) :
    Except IdentityVerifyError Unit := do
  let (trustDomain, svidType) ← checkSpiffeShape identity
  let bundle ← okOr (ctx.bundles.get trustDomain)
    (spiffeFail ("no bundle for trust domain " ++ trustDomain))
  match svidType with
  | .jwtSvid => do
    ensure (!bundle.jwtAuthorities.isEmpty) (spiffeFail "bundle has no jwt-svid keys")
    verifyJwtSvid P J X identity bundle ctx
  | .x509Svid => do
    ensure (!bundle.x509Authorities.isEmpty) (spiffeFail "bundle has no x509-svid CAs")
    verifyX509Svid P X identity bundle ctx

/-- The context that `SpiffeVerifier` verifies an identity in. -/
def IdentityVerifyContext.spiffe (ctx : IdentityVerifyContext) (bundles : SpiffeBundleStore) :
    SpiffeVerifyContext where
  bundles := bundles
  senderAid := ctx.senderAid
  receiverAid := ctx.receiverAid
  messageId := ctx.messageId
  timestamp := ctx.timestamp
  popNonce := ctx.popNonce
  iatTolerance := defaultTimestampTolerance
  now := ctx.now

def spiffeVerifier (bundles : SpiffeBundleStore) : IdentityVerifier where
  handles kind := decide (kind = .spiffe)
  verify identity ctx := do
    verifySpiffe P J X identity (ctx.spiffe bundles)
    return ⟨.spiffe, identity.subject⟩

end

end Aitp
