import Aitp.Delegation.Verifier

/-! # Single-hop delegation

`aitp/src/delegation/types.rs` and `verifier.rs`: the stable verifier, which
takes one delegation under one voucher and no token that carries a claim of the
multi-hop set.
-/

namespace Aitp

namespace Delegation

/-- `DelegationClaims`; `jkt` holds the member of the source's `Cnf`. -/
structure DelegationClaims where
  ver : String
  iss : Aid
  sub : Aid
  aud : Aid
  scope : List String
  exp : Timestamp
  jkt : String
  voucher : Option String
  ext : Option ExtensionsMap

def delegationClaimsFields : List FieldSpec :=
  [⟨"ver", .required⟩, ⟨"iss", .required⟩, ⟨"sub", .required⟩, ⟨"aud", .required⟩,
    ⟨"scope", .required⟩, ⟨"exp", .required⟩, ⟨"cnf", .required⟩, ⟨"voucher", .default⟩,
    ⟨"ext", .default⟩]

def decodeDelegationClaims (v : Json) : Option DelegationClaims :=
  match Serde.structFields delegationClaimsFields v with
  | some [some ver, some iss, some sub, some aud, some scope, some exp, some cnf, voucher, ext] => do
    return {
      ver := ← ver.asStr
      iss := ← decodeAid iss
      sub := ← decodeAid sub
      aud := ← decodeAid aud
      scope := ← decodeStrings scope
      exp := ← Serde.i64 exp
      jkt := ← decodeCnf cnf
      voucher := ← Serde.optional Json.asStr voucher
      ext := ← Serde.optional Serde.map ext }
  | _ => none

structure VerifiedDelegation where
  token : String
  claims : DelegationClaims
  voucher : GrantVoucherClaims
  effectiveGrants : List String

structure DelegationVerifyContext where
  verifier : Aid
  now : Timestamp
  revocation : RevocationSource
  issuerManifests : Option ManifestResolver
  insecureLocalhost : Bool

section

variable (P : Primitives)

/-- The claims of the multi-hop set, which a single hop does not carry. -/
def checkSingleHopMembers (peekValue : Json) : Except DelegationError Unit := do
  ensure (peekValue.get "chain").isNone .multihopNotSupported
  forEach ["jti", "chain_hash"] fun m =>
    ensure (peekValue.get m).isNone (.claimsMalformed (m ++ " is not a single-hop delegation claim"))

def peekClaims (token : String) : Except DelegationError DelegationClaims := do
  ifPresent (peekTyp P token) fun typ =>
    ensure (typ == typDelegation) (.crypto (.typMismatch typDelegation typ))
  let payload ← mapErr .crypto (decodePayloadUnverified token)
  mapErr .claimsMalformed (rejectDuplicateKeys P payload)
  ifPresent (P.document payload) fun peekValue => do
    ensureMembers peekValue delegationClaimsMembers .unknownField
    checkSingleHopMembers peekValue
  readClaims P "" delegationClaimsFields decodeDelegationClaims payload

variable (ctx : DelegationVerifyContext)

def verifyHopJws (token : String) : Except DelegationError DelegationClaims := do
  let claimed ← peekClaims P token
  let manifestCtx : ManifestVerifyContext := ⟨ctx.now, ctx.insecureLocalhost⟩
  let manifest ← mapErr (.keyResolutionFailed claimed.iss) (do
    let resolver ← okOr ctx.issuerManifests .notFound
    resolveVerifiedManifest P resolver claimed.iss manifestCtx)
  let payload ← mapErr
    (fun
      | .signatureInvalid => .invalidSignature
      | other => .crypto other)
    (verifyCompact P manifest.aid typDelegation token)
  let claims ← readClaims P "" delegationClaimsFields decodeDelegationClaims payload
  ensure (claims.ver == protocolVersion) .versionUnknown
  return claims

def checkHopClaims (claims : DelegationClaims) : Except DelegationError Unit := do
  ensure (decide (claims.aud = ctx.verifier)) .audienceMismatch
  ensure (!decide (claims.iss = claims.sub)) .selfDelegation
  ensure (!claims.scope.isEmpty) .emptyScope
  let subKey ← mapErr .crypto (VerifyingKey.fromAid P claims.sub)
  ensure (claims.jkt == subKey.toJwkThumbprintSha256 P) .cnfMalformed

def verifyRootVoucher (voucherToken : String) (expectedDelegator : Aid) :
    Except DelegationError GrantVoucherClaims := do
  let voucher ← mapErr
    (fun
      | .crypto c => .crypto c
      | .versionUnknown => .versionUnknown
      | .unknownField f => .unknownField f
      | _ => .invalidVoucher)
    (verifyVoucher P voucherToken ctx.verifier)
  ensure (decide (voucher.sub = expectedDelegator)) .invalidVoucher
  ensure (!voucher.exp.isInThePast ctx.now) .expired
  return voucher

def checkSourceRevocation (srcJti : Uuid) (scope : List String) :
    Except DelegationError (List String) :=
  delegationRevocation ctx.revocation ⟨ctx.verifier, srcJti, ctx.now⟩ scope

def verifySingleHop (token : String) : Except DelegationError VerifiedDelegation := do
  let claims ← verifyHopJws P ctx token
  ensure (decide (claims.aud = ctx.verifier)) .audienceMismatch
  ensure (!claims.exp.isInThePast ctx.now) .expired
  let voucherToken ← okOr claims.voucher .invalidVoucher
  let voucher ← verifyRootVoucher P ctx voucherToken claims.iss
  ensure (decide (claims.exp ≤ voucher.exp)) .expired
  forEach claims.scope fun cap => ensure (voucher.grants.contains cap) .scopeExceeded
  checkHopClaims P ctx claims
  let effectiveGrants ← checkSourceRevocation ctx voucher.srcJti claims.scope
  return ⟨token, claims, voucher, effectiveGrants⟩

def verifyDelegation (token : String) : Except DelegationError VerifiedDelegation := do
  let _ ← peekClaims P token
  verifySingleHop P ctx token

end

end Delegation

end Aitp
