import Aitp.Delegation.Chain
import Aitp.Foundation.Traced

/-! # Revocation lookups of a chain

The verifier of a chain, kept together with the trace of what it does: each
signature that verifies and each question it puts to a revocation source. An
accepted chain asks about the voucher's source and about every hop, after the
last signature, and is left the grants that every answer allows.
-/

namespace Aitp

/-- What the verifier of a chain does, in order. -/
inductive LookupEvent where
  | verified (token : String)
  | askedSource (query : RevocationQuery)
  | askedHop (query : RevocationQuery)
  deriving DecidableEq

/-- Whether an answer lets a delegation through. -/
def RevocationStatus.passes : Option RevocationStatus → Bool
  | none => false
  | some .revoked => false
  | some _ => true

/-- Whether an answer leaves a grant. -/
def RevocationStatus.allows (g : String) : Option RevocationStatus → Bool
  | some (.softFailSafeSubset safe) => safe.contains g
  | _ => true

section

variable (P : Primitives)

/-- `verify_compact`, with its trace. -/
def verifyCompactTraced (issuer : Aid) (typ token : String) :
    Traced LookupEvent CryptoError Bytes := do
  let payload ← .lift (verifyCompact P issuer typ token)
  .tell (.verified token)
  return payload

/-- `verify_voucher`, with its trace. -/
def verifyVoucherTraced (token : String) (issuer : Aid) :
    Traced LookupEvent TctError GrantVoucherClaims := do
  .lift (peekClaimSet P typGrantVoucher grantVoucherClaimsMembers "src_jti" token)
  let payload ← .mapErr .crypto (verifyCompactTraced P issuer typGrantVoucher token)
  let claims ← .lift (okOr ((P.document payload).bind decodeGrantVoucherClaims) .undecodable)
  .lift (ensure (claims.ver == protocolVersion) .versionUnknown)
  .lift (ensure (decide (claims.iss = issuer)) .issuerMismatch)
  .lift (ensure (!claims.grants.isEmpty) .emptyGrants)
  return claims

/-- `delegation_revocation`, with its trace: a source that has a lookup is asked. -/
def delegationRevocationTraced (asked : RevocationQuery → LookupEvent) (source : RevocationSource)
    (query : RevocationQuery) (scope : List String) :
    Traced LookupEvent DelegationError (List String) :=
  match source with
  | .check f => do
    .tell (asked query)
    .lift (delegationRevocation (.check f) query scope)
  | source => .lift (delegationRevocation source query scope)

variable (ctx : ChainVerifyContext)

/-- `verify_hop_jws`, with its trace. -/
def verifyHopJwsTraced (token : String) :
    Traced LookupEvent ChainedDelegationError ChainedDelegationClaims := do
  let claimed ← .lift (peekClaims P token)
  let manifestCtx : ManifestVerifyContext := ⟨ctx.now, ctx.insecureLocalhost⟩
  let manifest ← .lift <| mapErr (fun e => .delegation (.keyResolutionFailed claimed.iss e)) (do
    let resolver ← okOr ctx.issuerManifests .notFound
    resolveVerifiedManifest P resolver claimed.iss manifestCtx)
  let payload ← .mapErr
    (fun
      | .signatureInvalid => .delegation .invalidSignature
      | other => .delegation (.crypto other))
    (verifyCompactTraced P manifest.aid typDelegation token)
  let claims ← .lift <| mapErr .delegation
    (readClaims P "" chainedDelegationClaimsFields decodeChainedDelegationClaims payload)
  .lift (ensure (claims.ver == protocolVersion) (.delegation .versionUnknown))
  return claims

/-- `verify_root_voucher`, with its trace. -/
def verifyRootVoucherTraced (voucherToken : String) (expectedDelegator : Aid) :
    Traced LookupEvent ChainedDelegationError GrantVoucherClaims := do
  let voucher ← .mapErr
    (fun
      | .crypto c => .delegation (.crypto c)
      | .versionUnknown => .delegation .versionUnknown
      | .unknownField f => .delegation (.unknownField f)
      | _ => .delegation .invalidVoucher)
    (verifyVoucherTraced P voucherToken ctx.verifier)
  .lift (ensure (decide (voucher.sub = expectedDelegator)) (.delegation .invalidVoucher))
  .lift (ensure (!voucher.exp.isInThePast ctx.now) (.delegation .expired))
  return voucher

/-- The root authority of the first hop, with its trace. -/
def checkFirstHopTraced (hop : ChainedDelegationClaims) :
    Traced LookupEvent ChainedDelegationError GrantVoucherClaims := do
  let voucherToken ← .lift (okOr hop.voucher (.delegation .invalidVoucher))
  let v ← verifyRootVoucherTraced P ctx voucherToken hop.iss
  .lift (ensure (decide (hop.exp ≤ v.exp)) (.delegation .expired))
  .lift (checkScope hop.scope v.grants)
  return v

/-- The voucher the hops are rooted in, with its trace. -/
def checkContinuityTraced (hop : ChainedDelegationClaims) :
    Option HopState → Traced LookupEvent ChainedDelegationError GrantVoucherClaims
  | none => checkFirstHopTraced P ctx hop
  | some s => do
    .lift (checkNextHop s.prev hop)
    return s.voucher

/-- The body of the loop over the hops, with its trace. -/
def verifyHopTraced (chain : List String) (i : ℕ) (hopToken : String) (state : Option HopState) :
    Traced LookupEvent ChainedDelegationError HopState := do
  let hop ← verifyHopJwsTraced P ctx hopToken
  .lift (checkHopClaims P ctx hop)
  let jti ← .lift (okOr hop.jti (.delegation .invalidVoucher))
  let seen := (state.map HopState.hopRecords).getD []
  .lift (ensure (!(seen.map Prod.snd).contains jti) (.delegation .invalidVoucher))
  .lift (ensure (!hop.exp.isInThePast ctx.now) (.delegation .expired))
  let voucher ← checkContinuityTraced P ctx hop state
  .lift (checkNestedChain P chain i hop)
  return ⟨voucher, hop, seen ++ [(hop.iss, jti)]⟩

/-- The loop over the hops, with its trace. -/
def verifyHopsTraced (chain : List String) : ℕ → List String → Option HopState →
    Traced LookupEvent ChainedDelegationError (Option HopState)
  | _, [], state => pure state
  | i, token :: tokens, state => do
    let s ← verifyHopTraced P ctx chain i token state
    verifyHopsTraced chain (i + 1) tokens (some s)

/-- The lookups of each hop's `jti`, with their trace. -/
def checkHopRevocationTraced (check : RevocationCheckFn) : List (Aid × Uuid) → List String →
    Traced LookupEvent ChainedDelegationError (List String)
  | [], grants => pure grants
  | (issuer, jti) :: records, grants => do
    let grants ← .mapErr .delegation
      (delegationRevocationTraced .askedHop (.check check) ⟨issuer, jti, ctx.now⟩ grants)
    checkHopRevocationTraced check records grants

/-- The lookups that a live revocation source calls for, with their trace. -/
def checkEveryHopTraced (records : List (Aid × Uuid)) (grants : List String) :
    Traced LookupEvent ChainedDelegationError (List String) :=
  match ctx.revocation with
  | .check _ => do
    let check ← .lift (okOr ctx.hopRevocationCheck (.delegation .revocationUnavailable))
    checkHopRevocationTraced ctx check records grants
  | _ => pure grants

/-- `verify_multi_hop`, with its trace. -/
def verifyMultiHopTraced (token : String) (peeked : ChainedDelegationClaims) :
    Traced LookupEvent ChainedDelegationError VerifiedChainedDelegation := do
  let chain := peeked.chain.getD []
  .lift (ensure (decide (chain.length + 2 ≤ ctx.maxDelegationHops)) .hopLimitExceeded)
  let expectedHash ← .lift (okOr peeked.chainHash .chainHashMismatch)
  .lift (ensure (computeChainHash P chain == expectedHash) .chainHashMismatch)
  let state ← verifyHopsTraced P ctx chain 0 (chain ++ [token]) none
  let s ← .lift (okOr state (.delegation .invalidVoucher))
  let effective ← .mapErr .delegation (delegationRevocationTraced .askedSource ctx.revocation
    ⟨ctx.verifier, s.voucher.srcJti, ctx.now⟩ s.prev.scope)
  let effective ← checkEveryHopTraced ctx s.hopRecords effective
  return ⟨token, s.prev, s.voucher, effective⟩

end

variable {P : Primitives} {ctx : ChainVerifyContext} {chain tokens : List String} {token : String}
  {trace : List LookupEvent}

/-! ## The trace changes nothing -/

section

open Traced

theorem decision_verifyCompactTraced (issuer : Aid) (typ token : String) :
    (verifyCompactTraced P issuer typ token).decision = verifyCompact P issuer typ token := by
  simp only [verifyCompactTraced, decision_bind, decision_lift, decision_tell, decision_pure,
    pure_bind, bind_pure]

theorem decision_verifyVoucherTraced (token : String) (issuer : Aid) :
    (verifyVoucherTraced P token issuer).decision = verifyVoucher P token issuer := by
  simp only [verifyVoucherTraced, verifyVoucher, decision_bind, decision_lift, decision_mapErr,
    decision_verifyCompactTraced, decision_pure]

theorem decision_delegationRevocationTraced (asked : RevocationQuery → LookupEvent)
    (source : RevocationSource) (query : RevocationQuery) (scope : List String) :
    (delegationRevocationTraced asked source query scope).decision =
      delegationRevocation source query scope := by
  cases source <;>
    simp only [delegationRevocationTraced, decision_bind, decision_lift, decision_tell, pure_bind]

theorem decision_verifyHopJwsTraced (token : String) :
    (verifyHopJwsTraced P ctx token).decision = verifyHopJws P ctx token := by
  simp only [verifyHopJwsTraced, decision_bind, decision_lift, decision_mapErr,
    decision_verifyCompactTraced, decision_pure]
  rfl

theorem decision_verifyRootVoucherTraced (voucherToken : String) (delegator : Aid) :
    (verifyRootVoucherTraced P ctx voucherToken delegator).decision =
      verifyRootVoucher P ctx voucherToken delegator := by
  simp only [verifyRootVoucherTraced, decision_bind, decision_lift, decision_mapErr,
    decision_verifyVoucherTraced, decision_pure]
  rfl

theorem decision_checkContinuityTraced (hop : ChainedDelegationClaims) (state : Option HopState) :
    (checkContinuityTraced P ctx hop state).decision = checkContinuity P ctx hop state := by
  cases state <;>
    simp only [checkContinuityTraced, checkContinuity, checkFirstHopTraced, checkFirstHop,
      decision_bind, decision_lift, decision_verifyRootVoucherTraced, decision_pure]

theorem decision_verifyHopTraced (i : ℕ) (token : String) (state : Option HopState) :
    (verifyHopTraced P ctx chain i token state).decision = verifyHop P ctx chain i token state := by
  simp only [verifyHopTraced, verifyHop, decision_bind, decision_lift,
    decision_verifyHopJwsTraced, decision_checkContinuityTraced, decision_pure]

theorem decision_verifyHopsTraced (i : ℕ) (tokens : List String) (state : Option HopState) :
    (verifyHopsTraced P ctx chain i tokens state).decision =
      verifyHops P ctx chain i tokens state := by
  induction tokens generalizing i state with
  | nil => rfl
  | cons token tokens ih =>
    simp only [verifyHopsTraced, verifyHops, decision_bind, decision_verifyHopTraced, ih]

theorem decision_checkHopRevocationTraced (check : RevocationCheckFn) (records : List (Aid × Uuid))
    (grants : List String) : (checkHopRevocationTraced ctx check records grants).decision =
      checkHopRevocation ctx check records grants := by
  induction records generalizing grants with
  | nil => rfl
  | cons r records ih =>
    simp only [checkHopRevocationTraced, checkHopRevocation, decision_bind, decision_mapErr,
      decision_delegationRevocationTraced, ih]

theorem decision_checkEveryHopTraced (records : List (Aid × Uuid)) (grants : List String) :
    (checkEveryHopTraced ctx records grants).decision = checkEveryHop ctx records grants := by
  unfold checkEveryHopTraced checkEveryHop
  cases ctx.revocation with
  | check _ =>
    simp only [decision_bind, decision_lift, decision_checkHopRevocationTraced]
  | failOpen => rfl
  | selfAttestation => rfl

theorem decision_verifyMultiHopTraced (token : String) (peeked : ChainedDelegationClaims) :
    (verifyMultiHopTraced P ctx token peeked).decision = verifyMultiHop P ctx token peeked := by
  simp only [verifyMultiHopTraced, verifyMultiHop, checkSourceRevocation, decision_bind,
    decision_lift, decision_mapErr, decision_verifyHopsTraced, decision_checkEveryHopTraced,
    decision_delegationRevocationTraced, decision_pure]

end

/-! ## What is verified -/

theorem verifyCompactTraced_ok {issuer : Aid} {typ : String} {payload : Bytes}
    (h : (verifyCompactTraced P issuer typ token).run = .ok (payload, trace)) :
    trace = [.verified token] := by
  simp only [verifyCompactTraced, Traced.run_bind_eq_ok, Traced.run_lift_eq_ok,
    Traced.run_tell_eq_ok, Traced.run_pure_eq_ok] at h
  obtain ⟨_, _, _, ⟨-, rfl⟩, ⟨_, _, _, rfl, ⟨-, rfl⟩, rfl⟩, rfl⟩ := h
  rfl

theorem verifyHopJwsTraced_ok {hop : ChainedDelegationClaims}
    (h : (verifyHopJwsTraced P ctx token).run = .ok (hop, trace)) : trace = [.verified token] := by
  simp only [verifyHopJwsTraced, Traced.run_bind_eq_ok, Traced.run_lift_eq_ok,
    Traced.run_mapErr_eq_ok, Traced.run_pure_eq_ok] at h
  obtain ⟨_, _, _, ⟨-, rfl⟩, ⟨_, _, _, ⟨-, rfl⟩, ⟨_, _, _, hv, ⟨_, _, _, ⟨-, rfl⟩, ⟨_, _, _,
    ⟨-, rfl⟩, ⟨-, rfl⟩, rfl⟩, rfl⟩, rfl⟩, rfl⟩, rfl⟩ := h
  rw [verifyCompactTraced_ok hv]
  rfl

theorem verifyRootVoucherTraced_ok {delegator : Aid} {voucher : GrantVoucherClaims}
    (h : (verifyRootVoucherTraced P ctx token delegator).run = .ok (voucher, trace)) :
    trace = [.verified token] := by
  simp only [verifyRootVoucherTraced, verifyVoucherTraced, Traced.run_bind_eq_ok,
    Traced.run_lift_eq_ok, Traced.run_mapErr_eq_ok, Traced.run_pure_eq_ok] at h
  obtain ⟨_, _, _, ⟨_, _, _, ⟨-, rfl⟩, ⟨_, _, _, hv, ⟨_, _, _, ⟨-, rfl⟩, ⟨_, _, _, ⟨-, rfl⟩,
    ⟨_, _, _, ⟨-, rfl⟩, ⟨_, _, _, ⟨-, rfl⟩, ⟨-, rfl⟩, rfl⟩, rfl⟩, rfl⟩, rfl⟩, rfl⟩, rfl⟩,
    ⟨_, _, _, ⟨-, rfl⟩, ⟨_, _, _, ⟨-, rfl⟩, ⟨-, rfl⟩, rfl⟩, rfl⟩, rfl⟩ := h
  rw [verifyCompactTraced_ok hv]
  rfl

/-- The signatures verified by the body of the loop: a hop's own, and that of the voucher which
the first hop carries. -/
def hopSignatures (token : String) (state : Option HopState) (s : HopState) : List LookupEvent :=
  match state with
  | none => .verified token :: s.prev.voucher.toList.map .verified
  | some _ => [.verified token]

theorem checkContinuityTraced_ok {hop : ChainedDelegationClaims} {state : Option HopState}
    {voucher : GrantVoucherClaims}
    (h : (checkContinuityTraced P ctx hop state).run = .ok (voucher, trace)) :
    trace = if state.isNone then hop.voucher.toList.map .verified else [] := by
  cases state with
  | none =>
    simp only [checkContinuityTraced, checkFirstHopTraced, Traced.run_bind_eq_ok,
      Traced.run_lift_eq_ok, Traced.run_pure_eq_ok, okOr_eq_ok] at h
    obtain ⟨_, _, _, ⟨hv, rfl⟩, ⟨_, _, _, hr, ⟨_, _, _, ⟨-, rfl⟩, ⟨_, _, _, ⟨-, rfl⟩, ⟨-, rfl⟩,
      rfl⟩, rfl⟩, rfl⟩, rfl⟩ := h
    rw [verifyRootVoucherTraced_ok hr, hv]
    rfl
  | some s =>
    simp only [checkContinuityTraced, Traced.run_bind_eq_ok, Traced.run_lift_eq_ok,
      Traced.run_pure_eq_ok] at h
    obtain ⟨_, _, _, ⟨-, rfl⟩, ⟨-, rfl⟩, rfl⟩ := h
    rfl

theorem verifyHopTraced_ok {i : ℕ} {state : Option HopState} {s : HopState}
    (h : (verifyHopTraced P ctx chain i token state).run = .ok (s, trace)) :
    trace = hopSignatures token state s := by
  simp only [verifyHopTraced, Traced.run_bind_eq_ok, Traced.run_lift_eq_ok,
    Traced.run_pure_eq_ok] at h
  obtain ⟨hop, _, _, hj, ⟨_, _, _, ⟨-, rfl⟩, ⟨_, _, _, ⟨-, rfl⟩, ⟨_, _, _, ⟨-, rfl⟩, ⟨_, _, _,
    ⟨-, rfl⟩, ⟨_, _, _, hc, ⟨_, _, _, ⟨-, rfl⟩, ⟨rfl, rfl⟩, rfl⟩, rfl⟩, rfl⟩, rfl⟩, rfl⟩, rfl⟩,
    rfl⟩ := h
  rw [verifyHopJwsTraced_ok hj, checkContinuityTraced_ok hc]
  cases state <;> simp [hopSignatures]

theorem verifyHopsTraced_some {i : ℕ} {s : HopState} {final : Option HopState}
    (h : (verifyHopsTraced P ctx chain i tokens (some s)).run = .ok (final, trace)) :
    trace = tokens.map .verified := by
  induction tokens generalizing i s trace with
  | nil => exact (Traced.run_pure_eq_ok.mp h).2
  | cons token tokens ih =>
    simp only [verifyHopsTraced, Traced.run_bind_eq_ok] at h
    obtain ⟨s', _, _, hs, hr, rfl⟩ := h
    rw [verifyHopTraced_ok hs, ih hr]
    rfl

/-! ## What is asked -/

theorem delegationRevocation_check {source : RevocationCheckFn} {query : RevocationQuery}
    {scope effective : List String}
    (h : delegationRevocation (.check source) query scope = .ok effective) :
    RevocationStatus.passes (source query) = true ∧
      effective = scope.filter fun g => RevocationStatus.allows g (source query) := by
  rw [delegationRevocation, mapErr_eq_ok] at h
  simp only [applyRevocation] at h
  cases hs : source query with
  | none => simp [hs] at h
  | some status =>
    cases status with
    | clear =>
      simp only [hs, Except.ok.injEq] at h
      exact ⟨rfl, by simp [RevocationStatus.allows, h]⟩
    | revoked => simp [hs] at h
    | softFailSafeSubset safe =>
      simp only [hs] at h
      split_ifs at h
      exact ⟨rfl, (Except.ok.inj h).symm⟩

theorem delegationRevocationTraced_check {asked : RevocationQuery → LookupEvent}
    {source : RevocationCheckFn} {query : RevocationQuery} {scope effective : List String}
    (h : (delegationRevocationTraced asked (.check source) query scope).run =
      .ok (effective, trace)) :
    delegationRevocation (.check source) query scope = .ok effective ∧ trace = [asked query] := by
  simp only [delegationRevocationTraced, Traced.run_bind_eq_ok, Traced.run_lift_eq_ok,
    Traced.run_tell_eq_ok] at h
  obtain ⟨_, _, _, rfl, ⟨hr, rfl⟩, rfl⟩ := h
  exact ⟨hr, rfl⟩

theorem checkHopRevocationTraced_ok {check : RevocationCheckFn} {records : List (Aid × Uuid)}
    {grants effective : List String}
    (h : (checkHopRevocationTraced ctx check records grants).run = .ok (effective, trace)) :
    trace = records.map (fun r => .askedHop ⟨r.1, r.2, ctx.now⟩) ∧
      (∀ r ∈ records, RevocationStatus.passes (check ⟨r.1, r.2, ctx.now⟩) = true) ∧
      effective = grants.filter fun g =>
        records.all fun r => RevocationStatus.allows g (check ⟨r.1, r.2, ctx.now⟩) := by
  induction records generalizing grants effective trace with
  | nil =>
    obtain ⟨rfl, rfl⟩ := Traced.run_pure_eq_ok.mp h
    exact ⟨rfl, by simp, by simp⟩
  | cons r records ih =>
    simp only [checkHopRevocationTraced, Traced.run_bind_eq_ok, Traced.run_mapErr_eq_ok] at h
    obtain ⟨narrowed, _, rest, hn, hr, rfl⟩ := h
    obtain ⟨hnarrowed, rfl⟩ := delegationRevocationTraced_check hn
    obtain ⟨hp, rfl⟩ := delegationRevocation_check hnarrowed
    obtain ⟨rfl, hall, rfl⟩ := ih hr
    refine ⟨rfl, List.forall_mem_cons.mpr ⟨hp, hall⟩, ?_⟩
    simp [List.filter_filter, Bool.and_comm]

/-- The lookups of an accepted chain: `hops` are the claims of its tokens, oldest first. -/
structure ChainLookups (P : Primitives) (ctx : ChainVerifyContext) (source : RevocationCheckFn)
    (token : String) (v : VerifiedChainedDelegation) (hops : List ChainedDelegationClaims)
    (check : RevocationCheckFn) (queries : List RevocationQuery) : Prop where
  verified : List.Forall₂ (fun t hop => verifyHopJws P ctx t = .ok hop)
    (v.claims.chain.getD [] ++ [token]) hops
  configured : ctx.hopRevocationCheck = some check
  /-- Each hop is asked about under its own issuer. -/
  asked : queries.map (fun q => (q.issuer, some q.jti, q.now)) =
    hops.map fun hop => (hop.iss, hop.jti, ctx.now)
  /-- The signatures come first: the tokens' and that of the voucher; then the questions. -/
  trace : ∃ first rest voucherToken, v.claims.chain.getD [] ++ [token] = first :: rest ∧
    (hops.head?.bind ChainedDelegationClaims.voucher) = some voucherToken ∧
    (verifyMultiHopTraced P ctx token v.claims).run = .ok (v,
      .verified first :: .verified voucherToken :: rest.map .verified ++
        .askedSource ⟨ctx.verifier, v.voucher.srcJti, ctx.now⟩ :: queries.map .askedHop)
  passes : RevocationStatus.passes (source ⟨ctx.verifier, v.voucher.srcJti, ctx.now⟩) = true ∧
    ∀ q ∈ queries, RevocationStatus.passes (check q) = true
  effective : v.effectiveGrants = v.claims.scope.filter fun g =>
    RevocationStatus.allows g (source ⟨ctx.verifier, v.voucher.srcJti, ctx.now⟩) &&
      queries.all fun q => RevocationStatus.allows g (check q)

theorem verifyMultiHop_lookups {source : RevocationCheckFn} {v : VerifiedChainedDelegation}
    (hr : ctx.revocation = .check source) (h : verifyMultiHop P ctx token v.claims = .ok v) :
    ∃ hops check queries, ChainLookups P ctx source token v hops check queries := by
  obtain ⟨trace, htrace⟩ := Traced.exists_trace
    ((decision_verifyMultiHopTraced token v.claims).trans h)
  have ht := htrace
  simp only [verifyMultiHopTraced, Traced.run_bind_eq_ok, Traced.run_lift_eq_ok,
    Traced.run_mapErr_eq_ok, Traced.run_pure_eq_ok, okOr_eq_ok] at ht
  obtain ⟨_, _, _, ⟨-, rfl⟩, ⟨_, _, _, ⟨-, rfl⟩, ⟨_, _, _, ⟨-, rfl⟩, ⟨final, signatures, _, hl,
    ⟨s, _, _, ⟨rfl, rfl⟩, ⟨narrowed, _, _, hsrc, ⟨effective, asked, _, hhop, ⟨rfl, rfl⟩, rfl⟩,
    rfl⟩, rfl⟩, rfl⟩, rfl⟩, rfl⟩, rfl⟩ := ht
  rw [hr] at hsrc
  obtain ⟨hnarrowed, rfl⟩ := delegationRevocationTraced_check hsrc
  simp only [checkEveryHopTraced, hr, Traced.run_bind_eq_ok, Traced.run_lift_eq_ok,
    okOr_eq_ok] at hhop
  obtain ⟨check, _, _, ⟨hcheck, rfl⟩, hhop, rfl⟩ := hhop
  obtain ⟨hp, rfl⟩ := delegationRevocation_check hnarrowed
  obtain ⟨rfl, hps, rfl⟩ := checkHopRevocationTraced_ok hhop
  obtain ⟨first, rest, hcr⟩ : ∃ t ts, s.prev.chain.getD [] ++ [token] = t :: ts :=
    List.exists_cons_of_ne_nil (by simp)
  dsimp only at hl
  rw [hcr] at hl
  have hloop := Traced.decision_of_run hl
  rw [decision_verifyHopsTraced] at hloop
  obtain ⟨s₁, s', hops, hfin, h₁, hl', hrec⟩ := verifyHops_none hloop
  obtain rfl := Option.some.inj hfin
  obtain ⟨hj, -, -, hroot⟩ := verifyHop_ok h₁
  obtain ⟨vt, hvt, -⟩ := hroot.verified
  have hsig : signatures = .verified first :: .verified vt :: rest.map .verified := by
    simp only [verifyHopsTraced, Traced.run_bind_eq_ok] at hl
    obtain ⟨s₂, _, _, h₂, hlater, rfl⟩ := hl
    have hsame := Traced.decision_of_run h₂
    rw [decision_verifyHopTraced, h₁] at hsame
    obtain rfl := Except.ok.inj hsame
    rw [verifyHopTraced_ok h₂, verifyHopsTraced_some hlater, hopSignatures, hvt]
    rfl
  refine ⟨s₁.prev :: hops, check, s.hopRecords.map fun r => ⟨r.1, r.2, ctx.now⟩, ?_⟩
  exact {
    verified := by
      rw [hcr]
      exact .cons hj hl'.verified
    configured := hcheck
    asked := by
      have hnow := congrArg (List.map fun p : Aid × Option Uuid => (p.1, p.2, ctx.now)) hrec
      simpa only [List.map_map, Function.comp_def] using hnow
    trace := by
      refine ⟨first, rest, vt, hcr, hvt, ?_⟩
      rw [htrace, hsig, List.map_map]
      simp [Function.comp_def]
    passes := ⟨hp, List.forall_mem_map.mpr hps⟩
    effective := by
      simp [List.filter_filter, Bool.and_comm, Function.comp_def] }

/-- An accepted chain was looked up hop by hop after its last signature, and is left the grants
that every answer allows. -/
theorem verifyChainedDelegation_lookups {source : RevocationCheckFn}
    {v : VerifiedChainedDelegation} (hr : ctx.revocation = .check source)
    (h : verifyChainedDelegation P ctx token = .ok v) (hm : v.claims.chain.getD [] ≠ []) :
    ∃ hops check queries, ChainLookups P ctx source token v hops check queries := by
  rcases verifyChainedDelegation_ok h with ⟨-, ⟨hn, -⟩ | ⟨-, hv⟩⟩
  · exact absurd hn hm
  · exact verifyMultiHop_lookups hr hv

theorem verifyChainedDelegation_lookups_twoHops : ∃ hops check queries,
    ChainLookups Toy.primitives
      (SampleChain.context 3 (.check fun _ => some .clear)
        (some fun _ => some (.softFailSafeSubset ["read"])))
      (fun _ => some .clear) SampleChain.outerToken
      ⟨SampleChain.outerToken, SampleChain.outerHop, SampleChain.voucher, ["read"]⟩
      hops check queries :=
  verifyChainedDelegation_lookups rfl (SampleChain.verifyChainedDelegation_outerToken rfl rfl)
    (by simp [SampleChain.outerHop, SampleChain.hop, SampleChain.chain])

/-! ## A token on its own -/

theorem jti_of_mem_hops {hops : List ChainedDelegationClaims} {t : String}
    {claims : ChainedDelegationClaims} (ht : t ∈ tokens)
    (hv : List.Forall₂ (fun t hop => verifyHopJws P ctx t = .ok hop) tokens hops)
    (hp : peekClaims P t = .ok claims) : claims ∈ hops := by
  induction hv with
  | nil => simp at ht
  | @cons t' hop tokens hops hj hv ih =>
    rcases List.mem_cons.mp ht with rfl | ht
    · rw [peekClaims_of_verifyHopJws hj hp]
      exact List.mem_cons_self
    · exact List.mem_cons_of_mem _ (ih ht)

/-- A token whose hop is revoked is refused wherever a chain is presented, as an entry of it or as
the token that carries it. On its own it is judged without the hop check. -/
theorem verifyChainedDelegation_revokedHop {source check : RevocationCheckFn} {t : String}
    {claims : ChainedDelegationClaims} {jti : Uuid} (hr : ctx.revocation = .check source)
    (hc : ctx.hopRevocationCheck = some check) (hp : peekClaims P t = .ok claims)
    (hj : claims.jti = some jti) (hrev : check ⟨claims.iss, jti, ctx.now⟩ = some .revoked) :
    (∀ token peeked v, peekClaims P token = .ok peeked → peeked.chain.getD [] ≠ [] →
        t ∈ peeked.chain.getD [] ++ [token] →
        verifyChainedDelegation P ctx token ≠ .ok v) ∧
      (claims.chain.getD [] = [] → ∀ check',
        verifyChainedDelegation P { ctx with hopRevocationCheck := check' } t =
          verifyChainedDelegation P ctx t) := by
  constructor
  · intro token peeked v hpk hne hmem h
    obtain ⟨hpv, -⟩ := verifyChainedDelegation_ok h
    obtain rfl := Except.ok.inj (hpk.symm.trans hpv)
    obtain ⟨hops, check', queries, hl⟩ := verifyChainedDelegation_lookups hr h hne
    obtain rfl := Option.some.inj (hc.symm.trans hl.configured)
    have hin := jti_of_mem_hops hmem hl.verified hp
    have hq : (claims.iss, claims.jti, ctx.now) ∈
        queries.map fun q => (q.issuer, some q.jti, q.now) := by
      rw [hl.asked]
      exact List.mem_map_of_mem (f := fun h : ChainedDelegationClaims => (h.iss, h.jti, ctx.now)) hin
    obtain ⟨q, hq, he⟩ := List.mem_map.mp hq
    simp only [Prod.mk.injEq, hj, Option.some.injEq] at he
    have hpass := hl.passes.2 q hq
    rw [show q = ⟨claims.iss, jti, ctx.now⟩ by rw [← he.1, ← he.2.1, ← he.2.2], hrev] at hpass
    simp [RevocationStatus.passes] at hpass
  · intro hch check'
    have hlen : (claims.chain.map List.length).getD 0 = 0 := by
      cases hx : claims.chain with
      | none => rfl
      | some chain => simpa [hx] using hch
    simp only [verifyChainedDelegation, hp, bind, Except.bind, hlen, if_true]
    rfl

namespace SampleChain

/-- A verifier for which every hop is revoked. -/
def revokingContext : ChainVerifyContext :=
  context 3 (.check fun _ => some .clear) (some fun _ => some .revoked)

theorem verifyChainedDelegation_revokedHop_firstToken :
    (∀ token peeked v, peekClaims Toy.primitives token = .ok peeked →
        peeked.chain.getD [] ≠ [] → firstToken ∈ peeked.chain.getD [] ++ [token] →
        verifyChainedDelegation Toy.primitives revokingContext token ≠ .ok v) ∧
      (firstHop.chain.getD [] = [] → ∀ check',
        verifyChainedDelegation Toy.primitives
          { revokingContext with hopRevocationCheck := check' } firstToken =
            verifyChainedDelegation Toy.primitives revokingContext firstToken) :=
  verifyChainedDelegation_revokedHop rfl rfl peekClaims_hop
    (show firstHop.jti = some (Toy.uuid 1) from rfl) rfl

/-- A revoked hop that is accepted when it is presented on its own. -/
theorem verifyChainedDelegation_revokedAlone :
    peekClaims Toy.primitives firstToken = .ok firstHop ∧ firstHop.jti = some (Toy.uuid 1) ∧
      (∀ check, revokingContext.hopRevocationCheck = some check →
        check ⟨firstHop.iss, Toy.uuid 1, revokingContext.now⟩ = some .revoked) ∧
      ∃ v, verifyChainedDelegation Toy.primitives revokingContext firstToken = .ok v := by
  refine ⟨peekClaims_hop, rfl, ?_, ?_⟩
  · rintro _ ⟨⟩
    rfl
  · simp only [verifyChainedDelegation, bind_eq_ok]
    exact ⟨_, firstHop, peekClaims_hop, (), rfl, verifySingleHop_hop rfl⟩

end SampleChain

end Aitp
