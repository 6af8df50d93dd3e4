import Aitp.Delegation.Types

/-! # Delegation verification

`aitp-experimental/src/delegation/verifier.rs`: a single-hop token, or a chain of
tokens checked oldest first. The loop over the chain is a recursion over the
tokens, with the state it threads.
-/

namespace Aitp

structure ChainVerifyContext where
  verifier : Aid
  now : Timestamp
  maxDelegationHops : ℕ
  revocation : RevocationSource
  hopRevocationCheck : Option RevocationCheckFn
  issuerManifests : Option ManifestResolver
  insecureLocalhost : Bool

def delegationRevocation (source : RevocationSource) (query : RevocationQuery)
    (scope : List String) : Except DelegationError (List String) :=
  mapErr
    (fun
      | .revoked => .sourceTctRevoked
      | .unavailable => .revocationUnavailable
      | .safeSubsetEmpty => .safeSubsetEmpty)
    (applyRevocation source query scope)

def checkSourceRevocation (ctx : ChainVerifyContext) (srcJti : Uuid) (scope : List String) :
    Except ChainedDelegationError (List String) :=
  mapErr .delegation (delegationRevocation ctx.revocation ⟨ctx.verifier, srcJti, ctx.now⟩ scope)

/-- The lookups of each hop's `jti`, narrowing the grants in turn. -/
def checkHopRevocation (ctx : ChainVerifyContext) (check : RevocationCheckFn) :
    List (Aid × Uuid) → List String → Except ChainedDelegationError (List String)
  | [], grants => .ok grants
  | (issuer, jti) :: records, grants => do
    let grants ← mapErr .delegation
      (delegationRevocation (.check check) ⟨issuer, jti, ctx.now⟩ grants)
    checkHopRevocation ctx check records grants

/-- The lookups that a live revocation source calls for. -/
def checkEveryHop (ctx : ChainVerifyContext) (records : List (Aid × Uuid))
    (grants : List String) : Except ChainedDelegationError (List String) :=
  match ctx.revocation with
  | .check _ => do
    let check ← okOr ctx.hopRevocationCheck (.delegation .revocationUnavailable)
    checkHopRevocation ctx check records grants
  | _ => .ok grants

/-- What the loop over the hops carries from one to the next. -/
structure HopState where
  voucher : GrantVoucherClaims
  prev : ChainedDelegationClaims
  hopRecords : List (Aid × Uuid)

section

variable (P : Primitives)

def computeChainHash (chain : List String) : String :=
  let digests := chain.map fun entry => encodeBase64Url (P.sha256 (asBytes entry))
  encodeBase64Url (P.sha256 (stringsValue digests).jcs)

def peekClaims (token : String) : Except ChainedDelegationError ChainedDelegationClaims := do
  ifPresent (peekTyp P token) fun typ =>
    ensure (typ == typDelegation) (.delegation (.crypto (.typMismatch typDelegation typ)))
  let payload ← mapErr (fun e => .delegation (.crypto e)) (decodePayloadUnverified token)
  mapErr (fun e => .delegation (.claimsMalformed e)) (rejectDuplicateKeys P payload)
  ifPresent (P.document payload) fun peekValue => do
    ensureMembers peekValue delegationClaimsMembers fun f => .delegation (.unknownField f)
    ifPresent ((peekValue.get "jti").bind Json.asStr) fun jti =>
      mapErr .jtiNotV4 ((Uuid.parseV4 jti).map fun _ => ())
  mapErr .delegation
    (readClaims P "" chainedDelegationClaimsFields decodeChainedDelegationClaims payload)

variable (ctx : ChainVerifyContext)

def verifyHopJws (token : String) : Except ChainedDelegationError ChainedDelegationClaims := do
  let claimed ← peekClaims P token
  let manifestCtx : ManifestVerifyContext := ⟨ctx.now, ctx.insecureLocalhost⟩
  let manifest ← mapErr (fun e => .delegation (.keyResolutionFailed claimed.iss e)) (do
    let resolver ← okOr ctx.issuerManifests .notFound
    resolveVerifiedManifest P resolver claimed.iss manifestCtx)
  let payload ← mapErr
    (fun
      | .signatureInvalid => .delegation .invalidSignature
      | other => .delegation (.crypto other))
    (verifyCompact P manifest.aid typDelegation token)
  let claims ← mapErr .delegation
    (readClaims P "" chainedDelegationClaimsFields decodeChainedDelegationClaims payload)
  ensure (claims.ver == protocolVersion) (.delegation .versionUnknown)
  return claims

def checkHopClaims (claims : ChainedDelegationClaims) : Except ChainedDelegationError Unit := do
  ensure (decide (claims.aud = ctx.verifier)) (.delegation .audienceMismatch)
  ensure (!decide (claims.iss = claims.sub)) (.delegation .selfDelegation)
  ensure (!claims.scope.isEmpty) (.delegation .emptyScope)
  let subKey ← mapErr (fun e => .delegation (.crypto e)) (VerifyingKey.fromAid P claims.sub)
  ensure (claims.jkt == subKey.toJwkThumbprintSha256 P) (.delegation .cnfMalformed)

def verifyRootVoucher (voucherToken : String) (expectedDelegator : Aid) :
    Except ChainedDelegationError GrantVoucherClaims := do
  let voucher ← mapErr
    (fun
      | .crypto c => .delegation (.crypto c)
      | .versionUnknown => .delegation .versionUnknown
      | .unknownField f => .delegation (.unknownField f)
      | _ => .delegation .invalidVoucher)
    (verifyVoucher P voucherToken ctx.verifier)
  ensure (decide (voucher.sub = expectedDelegator)) (.delegation .invalidVoucher)
  ensure (!voucher.exp.isInThePast ctx.now) (.delegation .expired)
  return voucher

/-- The scope loop: each capability is among the grants. -/
def checkScope (scope grants : List String) : Except ChainedDelegationError Unit :=
  forEach scope fun cap => ensure (grants.contains cap) (.delegation .scopeExceeded)

def verifySingleHop (token : String) : Except ChainedDelegationError VerifiedChainedDelegation := do
  let claims ← verifyHopJws P ctx token
  ensure (decide (claims.aud = ctx.verifier)) (.delegation .audienceMismatch)
  ensure (!claims.exp.isInThePast ctx.now) (.delegation .expired)
  let voucherToken ← okOr claims.voucher (.delegation .invalidVoucher)
  let voucher ← verifyRootVoucher P ctx voucherToken claims.iss
  ensure (decide (claims.exp ≤ voucher.exp)) (.delegation .expired)
  checkScope claims.scope voucher.grants
  checkHopClaims P ctx claims
  let effectiveGrants ← checkSourceRevocation ctx voucher.srcJti claims.scope
  return ⟨token, claims, voucher, effectiveGrants⟩

/-- The root authority of the first hop. -/
def checkFirstHop (hop : ChainedDelegationClaims) :
    Except ChainedDelegationError GrantVoucherClaims := do
  let voucherToken ← okOr hop.voucher (.delegation .invalidVoucher)
  let v ← verifyRootVoucher P ctx voucherToken hop.iss
  ensure (decide (hop.exp ≤ v.exp)) (.delegation .expired)
  checkScope hop.scope v.grants
  return v

/-- The continuity of a later hop with the one before it. -/
def checkNextHop (prev hop : ChainedDelegationClaims) : Except ChainedDelegationError Unit := do
  ensure hop.voucher.isNone (.delegation .invalidVoucher)
  ensure (decide (hop.iss = prev.sub)) (.delegation .invalidVoucher)
  ensure (decide (hop.exp ≤ prev.exp)) (.delegation .expired)
  checkScope hop.scope prev.scope

/-- The voucher the hops are rooted in: carried by the first of them, and by no later one. -/
def checkContinuity (hop : ChainedDelegationClaims) :
    Option HopState → Except ChainedDelegationError GrantVoucherClaims
  | none => checkFirstHop P ctx hop
  | some s => do
    checkNextHop s.prev hop
    return s.voucher

/-- The chain that a chain entry itself carries. -/
def checkNestedChain (chain : List String) (i : ℕ) (hop : ChainedDelegationClaims) :
    Except ChainedDelegationError Unit :=
  if i < chain.length then
    ifPresent hop.chain fun innerChain => do
      ensure (decide (innerChain = chain.take i)) (.delegation .invalidVoucher)
      let innerHash ← okOr hop.chainHash (.delegation .invalidVoucher)
      ensure (computeChainHash P innerChain == innerHash) (.delegation .invalidVoucher)
  else .ok ()

/-- The body of the loop over the hops; there is no state before the first. -/
def verifyHop (chain : List String) (i : ℕ) (hopToken : String) (state : Option HopState) :
    Except ChainedDelegationError HopState := do
  let hop ← verifyHopJws P ctx hopToken
  checkHopClaims P ctx hop
  let jti ← okOr hop.jti (.delegation .invalidVoucher)
  let seen := (state.map HopState.hopRecords).getD []
  ensure (!(seen.map Prod.snd).contains jti) (.delegation .invalidVoucher)
  ensure (!hop.exp.isInThePast ctx.now) (.delegation .expired)
  let voucher ← checkContinuity P ctx hop state
  checkNestedChain P chain i hop
  return ⟨voucher, hop, seen ++ [(hop.iss, jti)]⟩

/-- The loop over the hops from the `i`-th. -/
def verifyHops (chain : List String) :
    ℕ → List String → Option HopState → Except ChainedDelegationError (Option HopState)
  | _, [], state => .ok state
  | i, token :: tokens, state => do
    let s ← verifyHop P ctx chain i token state
    verifyHops chain (i + 1) tokens (some s)

/-- `verify_multi_hop`. The loop runs at least once, for the token itself. -/
def verifyMultiHop (token : String) (peeked : ChainedDelegationClaims) :
    Except ChainedDelegationError VerifiedChainedDelegation := do
  let chain := peeked.chain.getD []
  ensure (decide (chain.length + 2 ≤ ctx.maxDelegationHops)) .hopLimitExceeded
  let expectedHash ← okOr peeked.chainHash .chainHashMismatch
  ensure (computeChainHash P chain == expectedHash) .chainHashMismatch
  let state ← verifyHops P ctx chain 0 (chain ++ [token]) none
  let s ← okOr state (.delegation .invalidVoucher)
  let effective ← checkSourceRevocation ctx s.voucher.srcJti s.prev.scope
  let effective ← checkEveryHop ctx s.hopRecords effective
  return ⟨token, s.prev, s.voucher, effective⟩

/-- A verifier without a hop budget takes no token that opts in to several hops. -/
def checkOptIn (peeked : ChainedDelegationClaims) : Except ChainedDelegationError Unit :=
  if ctx.maxDelegationHops = 0 then do
    ensure ((peeked.chain.map List.length).getD 0 == 0 && peeked.chain.isNone)
      (.delegation .multihopNotSupported)
    ensure peeked.jti.isNone (.delegation (.claimsMalformed "jti claim requires multi-hop opt-in"))
  else .ok ()

def verifyChainedDelegation (token : String) :
    Except ChainedDelegationError VerifiedChainedDelegation := do
  let peeked ← peekClaims P token
  let chainLen := (peeked.chain.map List.length).getD 0
  checkOptIn ctx peeked
  if chainLen = 0 then verifySingleHop P ctx token
  else verifyMultiHop P ctx token peeked

end

/-! ## Tokens as they were signed -/

variable {P : Primitives} {ctx : ChainVerifyContext} {signer : Signer} {key : VerifyingKey}
  {c : ChainedDelegationClaims} {token : String}

theorem ChainedDelegationClaims.Writable.decode_exact (hP : P.ReadsText) (h : c.Writable)
    (ht : c.exp.Exact) :
    (P.document c.toValue.jcs).bind decodeChainedDelegationClaims = some c := by
  rw [hP.document_jcs (h.readable_toValue hP), Option.bind_some, h.decode_reread,
    ht.rereadTime hP]
  rfl

theorem peekClaims_signCompact (hP : P.ReadsText) (hs : signer.Lawful P key)
    (hc : c.Writable) (ht : c.exp.Exact) (hj : ∀ u, c.jti = some u → u.checkV4 = .ok ())
    (h : signCompact signer typDelegation c.toValue = .ok token) :
    peekClaims P token = .ok c := by
  have hm : checkMembers (P.reread c.toValue.canon) delegationClaimsMembers = none := by
    rw [checkMembers_reread P (Json.isObject_canon _)]
    exact checkMembers_written (by decide)
  have hv : ifPresent (((P.reread c.toValue.canon).get "jti").bind Json.asStr) (fun jti =>
      mapErr ChainedDelegationError.jtiNotV4 ((Uuid.parseV4 jti).map fun _ => ())) = .ok () := by
    rw [get_reread P (Json.isObject_canon _), c.get_jti]
    cases hu : c.jti with
    | none => rfl
    | some u => simp [ifPresent, Json.asStr, Uuid.parseV4_hyphenated (hj u hu), Except.map]
  have hr := hc.readable_toValue hP
  simp only [peekClaims, bind_eq_ok, mapErr_eq_ok, readClaims_eq_ok]
  refine ⟨(), ?_, c.toValue.jcs, decodePayloadUnverified_signCompact hs h, (),
    rejectDuplicateKeys_jcs hP hr hc.distinctKeys_toValue, (), ?_, hc.decode_exact hP ht⟩
  · simp [peekTyp_signCompact hP hs h, ifPresent]
  · simp only [hP.document_jcs hr, ifPresent, ensureMembers, hm]
    exact hv

/-- A hop verifies when the manifest of the agent that signed it resolves. -/
theorem verifyHopJws_signCompact {resolver : ManifestResolver} {manifest : Manifest}
    (hP : P.ReadsText) (hs : signer.Lawful P key)
    (hc : c.Writable) (ht : c.exp.Exact) (hj : ∀ u, c.jti = some u → u.checkV4 = .ok ())
    (hv : c.ver = protocolVersion) (hr : ctx.issuerManifests = some resolver)
    (hm : resolveVerifiedManifest P resolver c.iss ⟨ctx.now, ctx.insecureLocalhost⟩ = .ok manifest)
    (hi : c.iss = signer.aid)
    (h : signCompact signer typDelegation c.toValue = .ok token) :
    verifyHopJws P ctx token = .ok c := by
  have hk : VerifyingKey.fromAid P manifest.aid = .ok key := by
    rw [fromAid_of_resolveVerifiedManifest hm, hi, hs.1]
  simp only [verifyHopJws, bind_eq_ok, mapErr_eq_ok, okOr_eq_ok, ensure_eq_ok, pure_eq_ok,
    exists_const, readClaims_eq_ok]
  exact ⟨c, peekClaims_signCompact hP hs hc ht hj h, manifest, ⟨resolver, hr, hm⟩, c.toValue.jcs,
    verifyCompact_signCompact_of_key hP hs hk (hc.readable_toValue hP) rfl h, c,
    hc.decode_exact hP ht, by simp [hv], rfl⟩

end Aitp
