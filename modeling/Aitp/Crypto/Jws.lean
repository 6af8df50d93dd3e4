import Aitp.Crypto.Keys

/-! # Compact JWS tokens

`crypto/jws.rs`: the signing and the strict verification of a compact token.
-/

namespace Aitp

def typTct : String := "aitp-tct+jwt"

def typGrantVoucher : String := "aitp-grant+jwt"

def typDelegation : String := "aitp-delegation+jwt"

def joseAlg : AidAlgorithm → String
  | .ed25519 => "EdDSA"
  | .p256 => "ES256"

structure JwsHeader where
  alg : String
  typ : String
  deriving DecidableEq

/-- `Deserialize for JwsHeader`. -/
def decodeJwsHeader (v : Json) : Option JwsHeader :=
  match Serde.structFields [⟨"alg", .required⟩, ⟨"typ", .required⟩] v with
  | some [some (.str alg), some (.str typ)] => some ⟨alg, typ⟩
  | _ => none

/-- Whether `typ` can be written in the header without escaping. -/
def typNeedsNoEscape (typ : String) : Bool :=
  typ.toList.all fun c => c != '"' && c != '\\' && 32 ≤ c.toNat

def compactSigningInput (aid : Aid) (typ : String) (claims : Json) : Except CryptoError String := do
  ensure (typNeedsNoEscape typ) (.jwsMalformed "typ must not require JSON escaping")
  let header := "\x7b\"alg\":\"" ++ joseAlg aid.algorithm ++ "\",\"typ\":\"" ++ typ ++ "\"\x7d"
  return encodeBase64Url (asBytes header) ++ "." ++ encodeBase64Url claims.jcs

def signCompact (signer : Signer) (typ : String) (claims : Json) : Except CryptoError String := do
  let signingInput ← compactSigningInput signer.aid typ claims
  let sig ← signer.signRaw (asBytes signingInput)
  return signingInput ++ "." ++ encodeBase64Url sig

/-- The segments of a string between its dots. -/
def segments (token : String) : List String :=
  (token.toList.splitOn '.').map String.ofList

def splitStrict (token : String) : Except CryptoError (String × String × String) :=
  match segments token with
  | [h, p, s] =>
    if h ≠ "" ∧ p ≠ "" ∧ s ≠ "" then .ok (h, p, s)
    else .error (.jwsMalformed "expected exactly three non-empty segments")
  | _ => .error (.jwsMalformed "expected exactly three non-empty segments")

section

variable (P : Primitives)

/-- `verify_compact`: the payload bytes of a token signed by `signer`. -/
def verifyCompact (signer : Aid) (expectedTyp token : String) : Except CryptoError Bytes := do
  let (headerB64, payloadB64, sigB64) ← splitStrict token
  let headerBytes ← okOr (decodeStrict headerB64) (.jwsMalformed "header segment")
  let payload ← okOr (decodeStrict payloadB64) (.jwsMalformed "payload segment")
  let sigBytes ← okOr (decodeStrict sigB64) (.jwsMalformed "signature segment")
  let header ← okOr ((P.document headerBytes).bind decodeJwsHeader)
    (.jwsMalformed "protected header")
  ensure (header.typ == expectedTyp) (.typMismatch expectedTyp header.typ)
  ensure (header.alg == joseAlg signer.algorithm) (.algMismatch header.alg)
  let vk ← VerifyingKey.fromAid P signer
  vk.verifyRaw P (asBytes (headerB64 ++ "." ++ payloadB64)) sigBytes
  ensure ((P.document payload).any Json.isObject) (.jwsMalformed "payload is not a JSON object")
  return payload

def decodePayloadUnverified (token : String) : Except CryptoError Bytes := do
  let (_, payloadB64, _) ← splitStrict token
  okOr (decodeStrict payloadB64) (.jwsMalformed "payload segment")

/-- `peek_typ`; a repeated `typ` reads as its last occurrence. -/
def peekTyp (token : String) : Option String := do
  let headerB64 ← (segments token).head?
  let headerBytes ← decodeStrict headerB64
  let header ← P.document headerBytes
  let typ ← header.members.reverse.lookup "typ"
  typ.asStr

end

variable {P : Primitives}

theorem verifyCompact_ok {signer : Aid} {typ token : String} {payload : Bytes}
    (h : verifyCompact P signer typ token = .ok payload) :
    decodePayloadUnverified token = .ok payload := by
  simp only [verifyCompact, bind_eq_ok, okOr_eq_ok, ensure_eq_ok, pure_eq_ok, exists_const,
    Prod.exists] at h
  obtain ⟨hb, pb, sb, hs, header, -, p, hp, sig, -, hd, -, -, -, vk, -, -, -, -, rfl⟩ := h
  simp [decodePayloadUnverified, hs, hp]

/-- A token verifies under one `typ` only and carries one payload, whoever it is checked against. -/
theorem verifyCompact_unique {signer signer' : Aid} {typ typ' token : String}
    {payload payload' : Bytes} (h : verifyCompact P signer typ token = .ok payload)
    (h' : verifyCompact P signer' typ' token = .ok payload') : typ = typ' ∧ payload = payload' := by
  simp only [verifyCompact, bind_eq_ok, okOr_eq_ok, ensure_eq_ok, pure_eq_ok, exists_const,
    Prod.exists, beq_iff_eq] at h h'
  obtain ⟨hb, pb, sb, hs, header, hh, p, hp, _, -, v, hv, ht, -, -, -, ⟨-, -, -, rfl⟩⟩ := h
  obtain ⟨hb', pb', sb', hs', header', hh', p', hp', _, -, v', hv', ht', -, -, -, ⟨-, -, -, rfl⟩⟩ :=
    h'
  rw [hs, Except.ok.injEq, Prod.mk.injEq, Prod.mk.injEq] at hs'
  obtain ⟨rfl, rfl, -⟩ := hs'
  obtain rfl := Option.some.inj (hh.symm.trans hh')
  obtain rfl := Option.some.inj (hv.symm.trans hv')
  exact ⟨ht.symm.trans ht', Option.some.inj (hp.symm.trans hp')⟩

end Aitp
