import Aitp.Manifest.Verifier
import Aitp.Tct.Verifier

/-! # Delegation claims

`aitp-experimental/src/delegation/types.rs` and its errors, with those of
`delegation/error.rs`: the claims of a delegation token, single-hop or chained.
-/

namespace Aitp

inductive DelegationError where
  | audienceMismatch
  | scopeExceeded
  | invalidVoucher
  | sourceTctRevoked
  | revocationUnavailable
  | invalidSignature
  | keyResolutionFailed (issuer : Aid) (source : ManifestError)
  | expired
  | popFailed
  | cnfMalformed
  | versionUnknown
  | claimsMalformed (reason : String)
  | multihopNotSupported
  | selfDelegation
  | emptyScope
  | missingField (field : String)
  | crypto (error : CryptoError)
  | unknownField (field : String)
  | safeSubsetEmpty
  deriving DecidableEq

inductive ChainedDelegationError where
  | delegation (error : DelegationError)
  | hopLimitExceeded
  | chainHashMismatch
  | jtiNotV4 (error : V4Error)
  deriving DecidableEq

/-! ## Claims -/

/-- `ChainedDelegationClaims`; `jkt` holds the member of the source's `Cnf`. -/
structure ChainedDelegationClaims where
  ver : String
  iss : Aid
  sub : Aid
  aud : Aid
  scope : List String
  exp : Timestamp
  jkt : String
  voucher : Option String
  jti : Option Uuid
  chain : Option (List String)
  chainHash : Option String
  ext : Option ExtensionsMap

def delegationClaimsMembers : List String :=
  ["ver", "iss", "sub", "aud", "scope", "exp", "cnf", "voucher", "jti", "chain", "chain_hash",
    "ext"]

/-- The fields of `ChainedDelegationClaims`. -/
def chainedDelegationClaimsFields : List FieldSpec :=
  [⟨"ver", .required⟩, ⟨"iss", .required⟩, ⟨"sub", .required⟩, ⟨"aud", .required⟩,
    ⟨"scope", .required⟩, ⟨"exp", .required⟩, ⟨"cnf", .required⟩, ⟨"voucher", .default⟩,
    ⟨"jti", .default⟩, ⟨"chain", .default⟩, ⟨"chain_hash", .default⟩, ⟨"ext", .default⟩]

/-- `Deserialize for ChainedDelegationClaims`. -/
def decodeChainedDelegationClaims (v : Json) : Option ChainedDelegationClaims :=
  match Serde.structFields chainedDelegationClaimsFields v with
  | some [some ver, some iss, some sub, some aud, some scope, some exp, some cnf, voucher, jti,
      chain, chainHash, ext] => do
    return {
      ver := ← ver.asStr
      iss := ← decodeAid iss
      sub := ← decodeAid sub
      aud := ← decodeAid aud
      scope := ← decodeStrings scope
      exp := ← Serde.i64 exp
      jkt := ← decodeCnf cnf
      voucher := ← Serde.optional Json.asStr voucher
      jti := ← Serde.optional decodeUuid jti
      chain := ← Serde.optional decodeStrings chain
      chainHash := ← Serde.optional Json.asStr chainHash
      ext := ← Serde.optional Serde.map ext }
  | _ => none

/-- Whether a claim of a delegation, or of the voucher under it, deserialises. -/
def claimReadable (name : String) (v : Json) : Bool :=
  match name with
  | "ver" => v.isString
  | "iss" | "sub" | "aud" => (decodeAid v).isSome
  | "scope" | "grants" => (decodeStrings v).isSome
  | "iat" | "exp" => (Serde.i64 v).isSome
  | "src_jti" => (decodeV4 v).isSome
  | "cnf" => (decodeCnf v).isSome
  | "voucher" | "chain_hash" => (Serde.optional Json.asStr (some v)).isSome
  | "jti" => (Serde.optional decodeUuid (some v)).isSome
  | "chain" => (Serde.optional decodeStrings (some v)).isSome
  | "ext" => (Serde.optional Serde.map (some v)).isSome
  | _ => false

/-- The unknown member at which the deserialisation of `cnf` stops, if it stops at one. -/
def unknownCnfMember (v : Json) : Option String :=
  (v.members.find? fun m => m.1 != "jkt" || !m.2.isString).bind fun m =>
    if m.1 = "jkt" then none else some m.1

/-- The unknown member at which the deserialisation stops, if it stops at one: at the first member
that is no claim or does not deserialise, or inside it. -/
def unknownAmong (known : List String) (ms : List (String × Json)) : Option String :=
  (ms.find? fun m => !(known.contains m.1 && claimReadable m.1 m.2)).bind fun m =>
    if known.contains m.1 then
      if m.1 = "cnf" then unknownCnfMember m.2 else none
    else some m.1

/-- The unknown member at which the deserialisation of claims with these fields stops. -/
def unknownClaim (fs : List FieldSpec) : Json → Option String
  | .obj ms => unknownAmong (fs.map FieldSpec.name) ms
  | .arr vs => unknownAmong (fs.map FieldSpec.name) ((fs.map FieldSpec.name).zip vs)
  | _ => none

/-- The report of a deserialisation failure, through `from_serde_error`. -/
def DelegationError.undecodable (label : String) (fs : List FieldSpec) (v : Json) :
    DelegationError :=
  match unknownClaim fs v with
  | some field => .unknownField field
  | none => .claimsMalformed (label ++ "claims do not deserialize")

/-- What is made of the first value of some bytes, which must be the whole of them. -/
def readFirst {α : Type} (label : String) (fs : List FieldSpec) (decode : Json → Option α) (v : Json)
    (whole : Bool) : Except DelegationError α := do
  let claims ← okOr (decode v) (.undecodable label fs v)
  ensure whole (.claimsMalformed (label ++ "trailing characters"))
  return claims

/-- `serde_json::from_slice` to claims with these fields, of bytes that begin with a value. -/
def readClaims {α : Type} (P : Primitives) (label : String) (fs : List FieldSpec)
    (decode : Json → Option α) (payload : Bytes) : Except DelegationError α := do
  let (v, whole) ← okOr (P.first payload) (.claimsMalformed (label ++ "syntax"))
  readFirst label fs decode v whole

/-- `Serialize for ChainedDelegationClaims`. -/
def ChainedDelegationClaims.toValue (c : ChainedDelegationClaims) : Json :=
  .obj <| Serde.written chainedDelegationClaimsFields
    [some (.str c.ver), some (.str c.iss.value), some (.str c.sub.value), some (.str c.aud.value),
      some (stringsValue c.scope), some (.int c.exp), some (.obj [("jkt", .str c.jkt)]),
      c.voucher.map .str, c.jti.map fun u => .str u.hyphenated, c.chain.map stringsValue,
      c.chainHash.map .str, c.ext.map .obj]

/-- Claims that a token can carry and that read back as they were written. -/
structure ChainedDelegationClaims.Writable (c : ChainedDelegationClaims) : Prop where
  exp : c.exp.Fits
  ext : c.ext = none

theorem ChainedDelegationClaims.get_jti (c : ChainedDelegationClaims) :
    c.toValue.canon.get "jti" = c.jti.map fun u => .str u.hyphenated := by
  have hf : chainedDelegationClaimsFields[8]? = some ⟨"jti", .default⟩ := rfl
  refine (Serde.get_written (by decide) rfl hf).trans ?_
  cases c.jti <;> rfl

namespace ChainedDelegationClaims.Writable

variable {P : Primitives} {c : ChainedDelegationClaims}

theorem decode_reread (h : c.Writable) :
    decodeChainedDelegationClaims (P.reread c.toValue.canon) =
      (P.rereadTime c.exp).bind fun exp => some { c with exp := exp } := by
  have hs := Serde.optional_reread P Json.asStr .str fun s => ⟨by simp, rfl⟩
  have hj := Serde.optional_reread P decodeUuid (fun u => .str u.hyphenated)
    fun u => ⟨by simp, Uuid.tryParse_hyphenated u⟩
  have hc := Serde.optional_reread P decodeStrings stringsValue
    fun ss => ⟨by rw [canon_stringsValue, reread_stringsValue]; exact Json.noConfusion, by simp⟩
  unfold decodeChainedDelegationClaims ChainedDelegationClaims.toValue
  rw [structFields_reread P (by decide) rfl (by simp [chainedDelegationClaimsFields])]
  simp only [List.map_cons, List.map_nil, Option.map_some, hs, hj, hc]
  simp [Json.asStr, h.ext, Serde.optional]
  rw [← h.ext]
  rfl

theorem readable_toValue (hP : P.ReadsText) (h : c.Writable) :
    c.toValue.readable P.readsJcs nestingLimit = true := by
  refine Serde.readable_written ?_
  have hj : (c.jti.map fun u => Json.str u.hyphenated).all
      (Json.readable P.readsJcs · 126) = true := by
    cases c.jti <;> simp
  simp [h.ext, h.exp.readable_jcs hP, readable_cnf, hj]

theorem distinctKeys_toValue (h : c.Writable) : c.toValue.distinctKeys = true := by
  have hc : (Json.obj [("jkt", .str c.jkt)]).distinctKeys = true := rfl
  refine Serde.distinctKeys_written (by decide) ?_
  simp [h.ext, hc]
  rintro v (⟨_, -, rfl⟩ | ⟨_, -, rfl⟩ | ⟨_, -, rfl⟩ | ⟨_, -, rfl⟩) <;> simp

end ChainedDelegationClaims.Writable

section

variable {α : Type} {P : Primitives} {label : String} {fs : List FieldSpec}
  {decode : Json → Option α} {payload : Bytes} {v : Json} {claims : α}

@[simp] theorem readFirst_whole : readFirst label fs decode v true =
    okOr (decode v) (.undecodable label fs v) := by
  unfold readFirst
  cases decode v <;> simp [ensure]

theorem readFirst_trailing : readFirst label fs decode v false = .error
    (if (decode v).isSome then .claimsMalformed (label ++ "trailing characters")
      else .undecodable label fs v) := by
  unfold readFirst
  cases decode v <;> simp [ensure]

theorem readClaims_eq_ok : readClaims P label fs decode payload = .ok claims ↔
    (P.document payload).bind decode = some claims := by
  simp only [readClaims, readFirst, bind_eq_ok, okOr_eq_ok, ensure_eq_ok, pure_eq_ok, exists_const,
    Prod.exists, Option.bind_eq_some_iff, Primitives.document_eq_some]
  constructor
  · rintro ⟨v, whole, hf, c, hc, rfl, rfl⟩
    exact ⟨v, hf, hc⟩
  · rintro ⟨v, hf, hc⟩
    exact ⟨v, true, hf, claims, hc, rfl, rfl⟩

end

structure VerifiedChainedDelegation where
  token : String
  claims : ChainedDelegationClaims
  voucher : GrantVoucherClaims
  effectiveGrants : List String

end Aitp
