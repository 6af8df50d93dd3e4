import Aitp.Core.Envelope
import Aitp.Core.Wire
import Aitp.Crypto.Jws

/-! # Token claims

`tct/types.rs` and `tct/error.rs`: the claims of a trust credential token and of
the grant voucher issued with it.
-/

namespace Aitp

def attestationGrant : String := "aitp.attestation"

/-- `TctError`; `undecodable` stands for the two reports of a typed deserialisation failure. -/
inductive TctError where
  | versionUnknown
  | signatureInvalid
  | issuerMismatch
  | audienceMismatch
  | expired
  | expiresAfterManifest
  | revoked
  | revocationUnavailable
  | emptyGrants
  | grantWhitespace (grant : String)
  | cnfMalformed
  | claimsMalformed (reason : String)
  | undecodable
  | unknownField (field : String)
  | missingField (field : String)
  | popNonceMismatch
  | popFailed
  | popChallengeExpired
  | popJtiMismatch
  | jtiNotV4 (error : V4Error)
  | invalidJtiTag
  | selfIssued
  | attestationMarker
  | notAttestation
  | attestationStatementMissing (key : String)
  | crypto (error : CryptoError)
  | safeSubsetEmpty
  deriving DecidableEq

/-- `TctClaims`; `jkt` holds the member of the source's `Cnf`. -/
structure TctClaims where
  ver : String
  jti : Uuid
  iss : Aid
  sub : Aid
  aud : Aid
  iat : Timestamp
  exp : Timestamp
  grants : List String
  jkt : String
  ext : Option ExtensionsMap

structure GrantVoucherClaims where
  ver : String
  iss : Aid
  sub : Aid
  grants : List String
  iat : Timestamp
  exp : Timestamp
  srcJti : Uuid
  ext : Option ExtensionsMap

def tctClaimsMembers : List String :=
  ["ver", "jti", "iss", "sub", "aud", "iat", "exp", "grants", "cnf", "ext"]

def grantVoucherClaimsMembers : List String :=
  ["ver", "iss", "sub", "grants", "iat", "exp", "src_jti", "ext"]

/-- `Deserialize for Cnf`. -/
def decodeCnf (v : Json) : Option String :=
  match Serde.structFields [⟨"jkt", .required⟩] v with
  | some [some jkt] => jkt.asStr
  | _ => none

/-- The fields of `TctClaims`. -/
def tctClaimsFields : List FieldSpec :=
  [⟨"ver", .required⟩, ⟨"jti", .required⟩, ⟨"iss", .required⟩, ⟨"sub", .required⟩,
    ⟨"aud", .required⟩, ⟨"iat", .required⟩, ⟨"exp", .required⟩, ⟨"grants", .required⟩,
    ⟨"cnf", .required⟩, ⟨"ext", .option⟩]

/-- `Deserialize for TctClaims`. -/
def decodeTctClaims (v : Json) : Option TctClaims :=
  match Serde.structFields tctClaimsFields v with
  | some [some ver, some jti, some iss, some sub, some aud, some iat, some exp, some grants,
      some cnf, ext] => do
    return {
      ver := ← ver.asStr
      jti := ← decodeV4 jti
      iss := ← decodeAid iss
      sub := ← decodeAid sub
      aud := ← decodeAid aud
      iat := ← Serde.i64 iat
      exp := ← Serde.i64 exp
      grants := ← decodeStrings grants
      jkt := ← decodeCnf cnf
      ext := ← Serde.optional Serde.map ext }
  | _ => none

/-- The fields of `GrantVoucherClaims`. -/
def grantVoucherClaimsFields : List FieldSpec :=
  [⟨"ver", .required⟩, ⟨"iss", .required⟩, ⟨"sub", .required⟩, ⟨"grants", .required⟩,
    ⟨"iat", .required⟩, ⟨"exp", .required⟩, ⟨"src_jti", .required⟩, ⟨"ext", .option⟩]

/-- `Deserialize for GrantVoucherClaims`. -/
def decodeGrantVoucherClaims (v : Json) : Option GrantVoucherClaims :=
  match Serde.structFields grantVoucherClaimsFields v with
  | some [some ver, some iss, some sub, some grants, some iat, some exp, some srcJti, ext] => do
    return {
      ver := ← ver.asStr
      iss := ← decodeAid iss
      sub := ← decodeAid sub
      grants := ← decodeStrings grants
      iat := ← Serde.i64 iat
      exp := ← Serde.i64 exp
      srcJti := ← decodeV4 srcJti
      ext := ← Serde.optional Serde.map ext }
  | _ => none

/-- `Serialize for TctClaims`. -/
def TctClaims.toValue (c : TctClaims) : Json :=
  .obj <| Serde.written tctClaimsFields
    [some (.str c.ver), some (.str c.jti.hyphenated), some (.str c.iss.value),
      some (.str c.sub.value), some (.str c.aud.value), some (.int c.iat), some (.int c.exp),
      some (stringsValue c.grants), some (.obj [("jkt", .str c.jkt)]), c.ext.map .obj]

/-- `Serialize for GrantVoucherClaims`. -/
def GrantVoucherClaims.toValue (c : GrantVoucherClaims) : Json :=
  .obj <| Serde.written grantVoucherClaimsFields
    [some (.str c.ver), some (.str c.iss.value), some (.str c.sub.value),
      some (stringsValue c.grants), some (.int c.iat), some (.int c.exp),
      some (.str c.srcJti.hyphenated), c.ext.map .obj]

/-! ## Reading claims back -/

/-- Claims that a token can carry: its extension is a map that is read, one level below them. -/
structure TctClaims.Writable (P : Primitives) (c : TctClaims) : Prop where
  jti : c.jti.checkV4 = .ok ()
  iat : c.iat.Fits
  exp : c.exp.Fits
  ext : ∀ ms, c.ext = some ms →
    (Json.obj ms).readable P.readsJcs (nestingLimit - 1) = true ∧ (Json.obj ms).distinctKeys = true

/-- The claims as they read back: their extension in canonical form, its numbers read anew. -/
def TctClaims.reread (P : Primitives) (c : TctClaims) : TctClaims :=
  { c with ext := c.ext.map fun ms => (P.reread (Json.obj ms).canon).members }

structure GrantVoucherClaims.Writable (c : GrantVoucherClaims) : Prop where
  srcJti : c.srcJti.checkV4 = .ok ()
  iat : c.iat.Fits
  exp : c.exp.Fits
  ext : c.ext = none

@[simp] theorem canon_cnf (jkt : String) :
    Json.canon (.obj [("jkt", .str jkt)]) = .obj [("jkt", .str jkt)] := by
  simp [Json.canon, Json.canonMembers]

@[simp] theorem reread_cnf (P : Primitives) (jkt : String) :
    P.reread (.obj [("jkt", .str jkt)]) = .obj [("jkt", .str jkt)] := rfl

@[simp] theorem decodeCnf_cnf (jkt : String) : decodeCnf (.obj [("jkt", .str jkt)]) = some jkt := by
  simp [decodeCnf, Serde.structFields, Serde.closed, Serde.fromMembers, Json.asStr]

theorem readable_cnf {p : Json → Bool} {n : ℕ} (jkt : String) :
    (Json.obj [("jkt", .str jkt)]).readable p (n + 1) = true :=
  Json.readable_obj (by simp)

theorem TctClaims.get_jti (c : TctClaims) :
    c.toValue.canon.get "jti" = some (.str c.jti.hyphenated) :=
  have hf : tctClaimsFields[1]? = some ⟨"jti", .required⟩ := rfl
  Serde.get_written (by decide) rfl hf

theorem TctClaims.get_ext (c : TctClaims) :
    c.toValue.canon.get "ext" = (c.ext.map Json.obj).map Json.canon :=
  have hf : tctClaimsFields[9]? = some ⟨"ext", .option⟩ := rfl
  Serde.get_written (by decide) rfl hf

namespace TctClaims.Writable

variable {P : Primitives} {c : TctClaims}

theorem decode_ext (h : c.Writable P) : Serde.optional Serde.map
    (((c.ext.map Json.obj).map Json.canon).map P.reread) = some (c.reread P).ext := by
  cases he : c.ext with
  | none => simp [TctClaims.reread, he, Serde.optional]
  | some ms =>
    have hd : (P.reread (Json.obj ms).canon).distinctKeys = true := by
      rw [Primitives.distinctKeys_reread, Json.distinctKeys_canon _ (h.ext ms he).2]
    obtain ⟨ms', hm⟩ : ∃ ms', P.reread (Json.obj ms).canon = .obj ms' := ⟨_, rfl⟩
    rw [hm] at hd
    simp [TctClaims.reread, he, hm, Serde.optional, Serde.map_of_distinct hd, Json.members]

theorem decode_reread (h : c.Writable P) : decodeTctClaims (P.reread c.toValue.canon) =
    (P.rereadTime c.iat).bind fun iat => (P.rereadTime c.exp).bind fun exp =>
      some { c.reread P with iat := iat, exp := exp } := by
  have he := h.decode_ext
  unfold decodeTctClaims TctClaims.toValue
  rw [structFields_reread P (by decide) rfl (by simp [tctClaimsFields])]
  simp only [List.map_cons, List.map_nil, Option.map_some, Json.canon_str, Primitives.reread_str,
    canon_stringsValue, reread_stringsValue, canon_cnf, reread_cnf, Json.asStr,
    decodeV4_hyphenated h.jti, decodeAid_value, decodeStrings_stringsValue, decodeCnf_cnf, he,
    Option.bind_eq_bind, Option.bind_some]
  rfl

theorem readable_toValue (hP : P.ReadsText) (h : c.Writable P) :
    c.toValue.readable P.readsJcs nestingLimit = true := by
  refine Serde.readable_written ?_
  have hx : (c.ext.map Json.obj).all (Json.readable P.readsJcs · 126) = true := by
    cases he : c.ext with
    | none => rfl
    | some ms => exact (h.ext ms he).1
  simpa [h.iat.readable_jcs hP, h.exp.readable_jcs hP, readable_cnf] using hx

theorem distinctKeys_toValue (h : c.Writable P) : c.toValue.distinctKeys = true := by
  have hc : (Json.obj [("jkt", .str c.jkt)]).distinctKeys = true := rfl
  refine Serde.distinctKeys_written (by decide) ?_
  simp only [List.mem_cons, Option.some.injEq, List.not_mem_nil, or_false]
  rintro v (rfl | rfl | rfl | rfl | rfl | rfl | rfl | rfl | rfl | he)
  all_goals try simp [hc]
  obtain ⟨ms, hm, rfl⟩ := Option.map_eq_some_iff.mp he.symm
  exact (h.ext ms hm).2

end TctClaims.Writable

theorem GrantVoucherClaims.get_srcJti (c : GrantVoucherClaims) :
    c.toValue.canon.get "src_jti" = some (.str c.srcJti.hyphenated) :=
  have hf : grantVoucherClaimsFields[6]? = some ⟨"src_jti", .required⟩ := rfl
  Serde.get_written (by decide) rfl hf

namespace GrantVoucherClaims.Writable

variable {P : Primitives} {c : GrantVoucherClaims}

theorem decode_reread (h : c.Writable) : decodeGrantVoucherClaims (P.reread c.toValue.canon) =
    (P.rereadTime c.iat).bind fun iat => (P.rereadTime c.exp).bind fun exp =>
      some { c with iat := iat, exp := exp } := by
  unfold decodeGrantVoucherClaims GrantVoucherClaims.toValue
  rw [structFields_reread P (by decide) rfl (by simp [grantVoucherClaimsFields])]
  simp only [List.map_cons, List.map_nil, Option.map_some, Option.map_none, Json.canon_str,
    Primitives.reread_str, canon_stringsValue, reread_stringsValue, Json.asStr,
    decodeV4_hyphenated h.srcJti, decodeAid_value, decodeStrings_stringsValue, h.ext,
    Serde.optional, Option.bind_eq_bind, Option.bind_some]
  rfl

theorem readable_toValue (hP : P.ReadsText) (h : c.Writable) :
    c.toValue.readable P.readsJcs nestingLimit = true := by
  refine Serde.readable_written ?_
  simp [h.ext, h.iat.readable_jcs hP, h.exp.readable_jcs hP]

theorem distinctKeys_toValue (h : c.Writable) : c.toValue.distinctKeys = true := by
  refine Serde.distinctKeys_written (by decide) ?_
  simp [h.ext]

end GrantVoucherClaims.Writable

structure VerifiedTct where
  token : String
  claims : TctClaims
  effectiveGrants : List String

end Aitp
