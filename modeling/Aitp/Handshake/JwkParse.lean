import Aitp.Handshake.Jwk

/-! # Reading JSON Web Keys

`JwkPublicKey::from_jwk_json` of `handshake/jwk.rs`, the one reader of the key sets of identity
providers and of SPIFFE bundles.
-/

namespace Aitp

inductive JwkParseError where
  | malformed (reason : String)
  | unsupported (reason : String)
  deriving DecidableEq

/-- `Display for JwkParseError`. -/
def JwkParseError.toText : JwkParseError → String
  | malformed reason => "malformed JWK: " ++ reason
  | unsupported reason => "unsupported JWK: " ++ reason

/-- `value.get(member)` as a string. -/
def Json.getStr (v : Json) (member : String) : Option String :=
  (v.get member).bind Json.asStr

/-- The text of the error of `base64url::decode_strict`. -/
def base64UrlErrorText (s : String) : String :=
  if '=' ∈ s.toList then "base64url padding is forbidden in AITP"
  else "invalid base64url character"

def decodeMember (value : Json) (member : String) : Except JwkParseError Bytes := do
  let s ← okOr (value.getStr member) (.malformed ("jwk missing " ++ member))
  okOr (decodeStrict s) (.malformed (member ++ ": " ++ base64UrlErrorText s))

def toArray (n : ℕ) (bytes : Bytes) (what : String) : Except JwkParseError Bytes := do
  ensure (bytes.length == n) (.malformed (what ++ " must decode to " ++
    String.ofList (Nat.toDigits 10 n) ++ " bytes, got " ++
    String.ofList (Nat.toDigits 10 bytes.length)))
  return bytes

/-- The affine coordinates of an `EC` key of a field of `n` bytes. -/
def ecCoordinates (n : ℕ) (value : Json) : Except JwkParseError (Bytes × Bytes) := do
  let x ← toArray n (← decodeMember value "x") "EC x"
  let y ← toArray n (← decodeMember value "y") "EC y"
  return (x, y)

/-- The key material of a JWK of a key type. -/
def jwkKeyMaterial (value : Json) (kty : String) : Except JwkParseError JwkKeyMaterial :=
  let crv := (value.getStr "crv").getD ""
  match kty with
  | "OKP" => do
    ensure (crv == "Ed25519") (.unsupported ("OKP crv=" ++ crv))
    let x ← toArray 32 (← decodeMember value "x") "OKP x"
    return .ed25519 x
  | "EC" =>
    match crv with
    | "P-256" => do
      let (x, y) ← ecCoordinates 32 value
      return .p256 x y
    | "P-384" => do
      let (x, y) ← ecCoordinates 48 value
      return .p384 x y
    | "P-521" => do
      let (x, y) ← ecCoordinates 66 value
      return .p521 x y
    | other => .error (.unsupported ("EC crv=" ++ other))
  | "RSA" => do
    let n ← decodeMember value "n"
    let e ← decodeMember value "e"
    return .rsa n e
  | other => .error (.unsupported ("kty=" ++ other))

/-- The algorithm that a JWK pins its key to. -/
def jwkAlgorithm (value : Json) (kty : String) (key : JwkKeyMaterial) :
    Except JwkParseError (Option JwsAlgorithm) :=
  match value.get "alg" with
  | none => .ok none
  | some (.str s) => do
    let alg ← okOr (JwsAlgorithm.fromStr s) (.unsupported ("unsupported JWS algorithm: " ++ s))
    ensure (alg.fits key) (.unsupported ("alg=" ++ alg.asStr ++ " with kty=" ++ kty))
    return some alg
  | some _ => .error (.malformed "jwk alg is not a string")

def JwkPublicKey.fromJwkJson (value : Json) : Except JwkParseError JwkPublicKey := do
  let kid := value.getStr "kid"
  let kty ← okOr (value.getStr "kty") (.malformed "jwk missing kty")
  let key ← jwkKeyMaterial value kty
  let alg ← jwkAlgorithm value kty key
  return ⟨kid, alg, key⟩

/-- A key carries the `kid` of the JWK it was read from, and an algorithm that fits it. -/
theorem JwkPublicKey.fromJwkJson_ok {value : Json} {key : JwkPublicKey}
    (h : fromJwkJson value = .ok key) :
    key.kid = value.getStr "kid" ∧ key.alg.all (fun a => a.fits key.key) = true := by
  simp only [fromJwkJson, bind_eq_ok, okOr_eq_ok, pure_eq_ok] at h
  obtain ⟨kty, -, k, -, alg, ha, rfl⟩ := h
  refine ⟨rfl, ?_⟩
  unfold jwkAlgorithm at ha
  split at ha
  · obtain rfl := Except.ok.inj ha
    rfl
  · simp only [bind_eq_ok, okOr_eq_ok, ensure_eq_ok, pure_eq_ok, exists_const] at ha
    obtain ⟨a, -, hf, rfl⟩ := ha
    exact hf
  · cases ha

end Aitp
