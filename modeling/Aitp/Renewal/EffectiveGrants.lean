import Aitp.Delegation.Lookups
import Aitp.Delegation.Single
import Aitp.Renewal.Issuer

/-! # Effective grants

The verifiers of tokens that carry grants all ask the revocation source, and leave of the
grants what its answers leave. A source for self-attestations refuses each of them: no
token that carries grants has the shape that it lets through.
-/

namespace Aitp

/-! ## Answers -/

/-- What some answers leave of a token's own grants: some of them, in their order, and all of
them unless an answer is a safe subset. -/
structure Narrowed (answers : List (Option RevocationStatus)) (own effective : List String) :
    Prop where
  sublist : effective.Sublist own
  nonempty : effective ≠ []
  whole : (∀ safe, some (RevocationStatus.softFailSafeSubset safe) ∉ answers) → effective = own

/-- The answers of a source to a question: only a lookup is asked. -/
def RevocationSource.answers (source : RevocationSource) (query : RevocationQuery) :
    List (Option RevocationStatus) :=
  match source with
  | .check f => [f query]
  | _ => []

namespace Narrowed

variable {answers answers' : List (Option RevocationStatus)} {own grants effective : List String}

theorem refl (h : own ≠ []) : Narrowed [] own own where
  sublist := List.Sublist.refl own
  nonempty := h
  whole _ := rfl

theorem trans (h : Narrowed answers own grants) (h' : Narrowed answers' grants effective) :
    Narrowed (answers ++ answers') own effective := by
  constructor
  · exact h'.sublist.trans h.sublist
  · exact h'.nonempty
  · intro hsafe
    have hleft : grants = own := h.whole fun safe hs => hsafe safe (List.mem_append_left _ hs)
    have hright : effective = grants :=
      h'.whole fun safe hs => hsafe safe (List.mem_append_right _ hs)
    exact hright.trans hleft

end Narrowed

section

variable {source : RevocationSource} {query : RevocationQuery} {grants effective : List String}

theorem ne_selfAttestation_of_applyRevocation
    (h : applyRevocation source query grants = .ok effective) : source ≠ .selfAttestation := by
  rintro rfl
  cases h

theorem narrowed_of_applyRevocation (hne : grants ≠ [])
    (h : applyRevocation source query grants = .ok effective) :
    Narrowed (source.answers query) grants effective := by
  have hs := applyRevocation_sublist h
  cases source with
  | failOpen =>
    obtain rfl := Except.ok.inj h
    exact .refl hne
  | selfAttestation => cases h
  | check f =>
    simp only [applyRevocation] at h
    split at h
    next => cases h
    next =>
      obtain rfl := Except.ok.inj h
      exact ⟨hs, hne, fun _ => rfl⟩
    next => cases h
    next safe hf =>
      split_ifs at h with he
      obtain rfl := Except.ok.inj h
      refine ⟨hs, fun hnil => he (List.isEmpty_iff.mpr hnil), ?_⟩
      intro hsafe
      exact absurd (List.mem_singleton.mpr hf.symm) (hsafe safe)

/-- Claims that are no self-attestation are asked about. -/
theorem narrowed_of_checkRevocation {claims : TctClaims} {now : Timestamp}
    (hself : isSelfAttestation claims = false) (hne : claims.grants ≠ [])
    (h : checkRevocation source claims now = .ok effective) :
    source ≠ .selfAttestation ∧
      Narrowed (source.answers ⟨claims.iss, claims.jti, now⟩) claims.grants effective := by
  have ha : applyRevocation source ⟨claims.iss, claims.jti, now⟩ claims.grants =
      .ok effective := by
    simp only [checkRevocation, hself, Bool.false_eq_true, if_false] at h
    split at h
    · exact mapErr_eq_ok.mp h
    · exact mapErr_eq_ok.mp h
  exact ⟨ne_selfAttestation_of_applyRevocation ha, narrowed_of_applyRevocation hne ha⟩

theorem isSelfAttestation_of_ne {claims : TctClaims} (h : claims.iss ≠ claims.sub) :
    isSelfAttestation claims = false := by
  simp only [isSelfAttestation, Bool.and_eq_false_iff, decide_eq_false_iff_not]
  exact .inl (.inl h.symm)

end

variable {P : Primitives} {token : String}

/-! ## Tokens -/

theorem narrowed_of_verifyTct {ctx : TctVerifyContext} {v : VerifiedTct}
    (h : verifyTct P token ctx = .ok v) : ctx.revocation ≠ .selfAttestation ∧
      Narrowed (ctx.revocation.answers ⟨v.claims.iss, v.claims.jti, ctx.now⟩) v.claims.grants
        v.effectiveGrants := by
  simp only [verifyTct, bind_eq_ok, pure_eq_ok] at h
  obtain ⟨claims, hv, effective, hr, rfl⟩ := h
  have hg := verifyTctBeforeRevocation_ok hv
  exact narrowed_of_checkRevocation (isSelfAttestation_of_ne hg.notSelf) hg.grants hr

/-! ## Delegations -/

theorem narrowed_of_verifyDelegation {ctx : Delegation.DelegationVerifyContext}
    {v : Delegation.VerifiedDelegation} (h : Delegation.verifyDelegation P ctx token = .ok v) :
    ctx.revocation ≠ .selfAttestation ∧
      Narrowed (ctx.revocation.answers ⟨ctx.verifier, v.voucher.srcJti, ctx.now⟩) v.claims.scope
        v.effectiveGrants := by
  simp only [Delegation.verifyDelegation, Delegation.verifySingleHop, Delegation.checkHopClaims,
    Delegation.checkSourceRevocation, delegationRevocation, bind_eq_ok, ensure_eq_ok, mapErr_eq_ok,
    pure_eq_ok, exists_const, Bool.not_eq_true', List.isEmpty_eq_false_iff] at h
  obtain ⟨_, -, claims, -, -, -, _, -, voucher, -, -, _, -, ⟨-, -, hscope, -⟩, effective, hr, rfl⟩ :=
    h
  exact ⟨ne_selfAttestation_of_applyRevocation hr, narrowed_of_applyRevocation hscope hr⟩

section

variable {ctx : ChainVerifyContext} {chain tokens : List String} {grants effective : List String}

/-- The questions about the hops of an accepted chain. -/
def ChainVerifyContext.hopQueries (P : Primitives) (ctx : ChainVerifyContext)
    (tokens : List String) : List RevocationQuery :=
  tokens.filterMap fun t =>
    match verifyHopJws P ctx t with
    | .ok hop => hop.jti.map fun jti => ⟨hop.iss, jti, ctx.now⟩
    | .error _ => none

/-- The answers about the hops, where a lookup is configured for them. -/
def ChainVerifyContext.hopAnswers (ctx : ChainVerifyContext) (queries : List RevocationQuery) :
    List (Option RevocationStatus) :=
  match ctx.revocation, ctx.hopRevocationCheck with
  | .check _, some check => queries.map check
  | _, _ => []

/-- The answers that a delegation is accepted with: about the source of its voucher and, with a
chain, about every hop. -/
def ChainVerifyContext.answers (P : Primitives) (ctx : ChainVerifyContext)
    (v : VerifiedChainedDelegation) : List (Option RevocationStatus) :=
  ctx.revocation.answers ⟨ctx.verifier, v.voucher.srcJti, ctx.now⟩ ++
    match v.claims.chain.getD [] with
    | [] => []
    | chain => ctx.hopAnswers (ctx.hopQueries P (chain ++ [v.token]))

theorem narrowed_of_checkSourceRevocation {srcJti : Uuid} (hne : grants ≠ [])
    (h : checkSourceRevocation ctx srcJti grants = .ok effective) :
    ctx.revocation ≠ .selfAttestation ∧
      Narrowed (ctx.revocation.answers ⟨ctx.verifier, srcJti, ctx.now⟩) grants effective := by
  rw [checkSourceRevocation, delegationRevocation, mapErr_eq_ok, mapErr_eq_ok] at h
  exact ⟨ne_selfAttestation_of_applyRevocation h, narrowed_of_applyRevocation hne h⟩

theorem narrowed_of_checkHopRevocation {check : RevocationCheckFn} {records : List (Aid × Uuid)}
    (hne : grants ≠ []) (h : checkHopRevocation ctx check records grants = .ok effective) :
    Narrowed (records.map fun r => check ⟨r.1, r.2, ctx.now⟩) grants effective := by
  induction records generalizing grants with
  | nil =>
    obtain rfl := Except.ok.inj h
    exact .refl hne
  | cons r records ih =>
    simp only [checkHopRevocation, delegationRevocation, bind_eq_ok, mapErr_eq_ok] at h
    obtain ⟨left, hn, hr⟩ := h
    have hstep : Narrowed [check ⟨r.1, r.2, ctx.now⟩] grants left :=
      narrowed_of_applyRevocation hne hn
    exact hstep.trans (ih hstep.nonempty hr)

theorem narrowed_of_checkEveryHop {records : List (Aid × Uuid)} (hne : grants ≠ [])
    (h : checkEveryHop ctx records grants = .ok effective) :
    Narrowed (ctx.hopAnswers (records.map fun r => ⟨r.1, r.2, ctx.now⟩)) grants effective := by
  unfold checkEveryHop at h
  unfold ChainVerifyContext.hopAnswers
  cases hr : ctx.revocation with
  | check f =>
    simp only [hr, bind_eq_ok, okOr_eq_ok] at h
    obtain ⟨check, hc, h⟩ := h
    have hn := narrowed_of_checkHopRevocation hne h
    simpa only [hc, List.map_map, Function.comp_def] using hn
  | failOpen =>
    simp only [hr] at h
    obtain rfl := Except.ok.inj h
    exact .refl hne
  | selfAttestation =>
    simp only [hr] at h
    obtain rfl := Except.ok.inj h
    exact .refl hne

theorem scope_ne_nil_of_verifyHops {i : ℕ} {state : Option HopState} {s : HopState}
    (hstate : ∀ s₀, state = some s₀ → s₀.prev.scope ≠ [])
    (h : verifyHops P ctx chain i tokens state = .ok (some s)) : s.prev.scope ≠ [] := by
  induction tokens generalizing i state with
  | nil => exact hstate s (Except.ok.inj h)
  | cons token tokens ih =>
    simp only [verifyHops, bind_eq_ok] at h
    obtain ⟨s₁, h₁, h⟩ := h
    refine ih ?_ h
    rintro _ ⟨⟩
    simp only [verifyHop, checkHopClaims, bind_eq_ok, ensure_eq_ok, pure_eq_ok, exists_const,
      Bool.not_eq_true', List.isEmpty_eq_false_iff] at h₁
    obtain ⟨hop, -, ⟨-, -, hscope, -⟩, _, -, -, -, _, -, _, -, rfl⟩ := h₁
    exact hscope

theorem hopQueries_of_forall₂ {hops : List ChainedDelegationClaims}
    (h : List.Forall₂ (fun t hop => verifyHopJws P ctx t = .ok hop) tokens hops) :
    ctx.hopQueries P tokens = hops.filterMap fun hop =>
      hop.jti.map fun jti => (⟨hop.iss, jti, ctx.now⟩ : RevocationQuery) := by
  unfold ChainVerifyContext.hopQueries
  induction h with
  | nil => rfl
  | cons hhop _ ih => simp only [List.filterMap_cons, hhop, ih]

theorem hopQueries_of_verifyHops {s : HopState} (hne : tokens ≠ [])
    (h : verifyHops P ctx chain 0 tokens none = .ok (some s)) :
    ctx.hopQueries P tokens = s.hopRecords.map fun r => ⟨r.1, r.2, ctx.now⟩ := by
  obtain ⟨t, ts, rfl⟩ := List.exists_cons_of_ne_nil hne
  obtain ⟨s₁, s', hops, hs, h₁, hl, hrec⟩ := verifyHops_none h
  obtain rfl := Option.some.inj hs
  have hv : List.Forall₂ (fun t hop => verifyHopJws P ctx t = .ok hop) (t :: ts)
      (s₁.prev :: hops) := .cons (verifyHop_ok h₁).1 hl.verified
  have hrecs := congrArg (List.filterMap fun p : Aid × Option Uuid =>
    p.2.map fun jti => (⟨p.1, jti, ctx.now⟩ : RevocationQuery)) hrec
  simp only [List.filterMap_map, Function.comp_def, Option.map_some] at hrecs
  rw [hopQueries_of_forall₂ hv, ← hrecs, List.filterMap_eq_map']

theorem narrowed_of_verifyChainedDelegation {v : VerifiedChainedDelegation}
    (h : verifyChainedDelegation P ctx token = .ok v) : ctx.revocation ≠ .selfAttestation ∧
      Narrowed (ctx.answers P v) v.claims.scope v.effectiveGrants := by
  rcases (verifyChainedDelegation_ok h).2 with ⟨hc, h⟩ | ⟨hc, h⟩
  · simp only [verifySingleHop, checkHopClaims, bind_eq_ok, ensure_eq_ok, pure_eq_ok, exists_const,
      Bool.not_eq_true', List.isEmpty_eq_false_iff] at h
    obtain ⟨claims, -, -, -, _, -, voucher, -, -, _, -, ⟨-, -, hscope, -⟩, effective, hr, rfl⟩ := h
    rw [ChainVerifyContext.answers, hc, List.append_nil]
    exact narrowed_of_checkSourceRevocation hscope hr
  · obtain ⟨t, ts, hchain⟩ := List.exists_cons_of_ne_nil hc
    simp only [verifyMultiHop, bind_eq_ok, ensure_eq_ok, okOr_eq_ok, pure_eq_ok,
      exists_const] at h
    obtain ⟨-, _, -, -, _, hl, s, rfl, left, hs, effective, he, rfl⟩ := h
    have hscope : s.prev.scope ≠ [] := by
      apply scope_ne_nil_of_verifyHops _ hl
      rintro _ ⟨⟩
    obtain ⟨hself, hn⟩ := narrowed_of_checkSourceRevocation hscope hs
    refine ⟨hself, ?_⟩
    have hq := hopQueries_of_verifyHops (List.append_ne_nil_of_right_ne_nil _ (by simp)) hl
    rw [ChainVerifyContext.answers, hchain]
    rw [hchain] at hq
    simp only [hq]
    exact hn.trans (narrowed_of_checkEveryHop hn.nonempty he)

end
/-! ## Renewals -/

section

variable {σ : Type} {nonceStore : NonceStore σ} {st : σ} {request : TctRenewalPayload}
  {issuerKey : Signer} {ctx : RenewalContext} {drawn : RandomV4} {renewed : IssuedTct}

/-- The grants of a renewed token are what the offer and the policy leave of the effective ones. -/
structure RenewedWithin (P : Primitives) (request : TctRenewalPayload) (issuerAid : Aid)
    (ctx : RenewalContext) (renewed : IssuedTct) (checked : CheckedRenewal) : Prop where
  accepted : checkRenewalRequest P request issuerAid ctx = .ok checked
  presented : Renewal.peekClaims P request.currentTct = .ok checked.claims
  effective : Narrowed
    (ctx.revocation.answers ⟨checked.claims.iss, checked.claims.jti, ctx.now⟩)
    checked.claims.grants checked.effectiveGrants
  sublist : renewed.claims.grants.Sublist checked.effectiveGrants
  nonempty : renewed.claims.grants ≠ []

theorem narrowed_of_checkRenewalRequest {issuerAid : Aid} {checked : CheckedRenewal}
    (h : checkRenewalRequest P request issuerAid ctx = .ok checked) :
    ctx.revocation ≠ .selfAttestation ∧
      Narrowed (ctx.revocation.answers ⟨checked.claims.iss, checked.claims.jti, ctx.now⟩)
        checked.claims.grants checked.effectiveGrants := by
  simp only [checkRenewalRequest, verifyTct, bind_eq_ok, mapErr_eq_ok, pure_eq_ok] at h
  obtain ⟨_, -, _, -, _, ⟨claims, hv, _, -, rfl⟩, _, -, _, -, effective, hr, rfl⟩ := h
  have hg := verifyTctBeforeRevocation_ok hv
  exact narrowed_of_checkRevocation (isSelfAttestation_of_ne hg.notSelf) hg.grants hr

theorem grants_of_mintRenewal {checked : CheckedRenewal}
    (h : mintRenewal P checked issuerKey ctx drawn = .ok renewed) :
    renewed.claims.grants = ctx.narrow checked.claims.sub checked.effectiveGrants ∧
      renewed.claims.grants ≠ [] := by
  simp only [mintRenewal, bind_eq_ok, ensure_eq_ok, mapErr_eq_ok, exists_const,
    Bool.not_eq_true', List.isEmpty_eq_false_iff] at h
  obtain ⟨hne, hb⟩ := h
  obtain ⟨d, hd, -, -, hc⟩ := TctBuilder.build_eq_ok.mp hb
  obtain ⟨_, _, _, -, -, -, -, -, -, -, -, -, rfl⟩ := (TctBuilder.draft_eq_ok rfl).mp hd
  rw [hc]
  exact ⟨rfl, hne⟩

theorem renewedWithin_of_processRenewalRequest
    (h : (processRenewalRequest P nonceStore st request issuerKey ctx drawn).2 = .ok renewed) :
    ctx.revocation ≠ .selfAttestation ∧
      ∃ checked, RenewedWithin P request issuerKey.aid ctx renewed checked := by
  obtain ⟨checked, hc, -, hm⟩ := processRenewalRequest_eq_ok.mp h
  obtain ⟨hself, hn⟩ := narrowed_of_checkRenewalRequest hc
  obtain ⟨hg, hne⟩ := grants_of_mintRenewal hm
  refine ⟨hself, checked, hc, peekClaims_of_checkRenewalRequest hc, hn, ?_, hne⟩
  rw [hg]
  exact RenewalContext.narrow_sublist

end

/-! ## Attestations -/

/-- `checkRevocation` with the questions it asks. -/
def checkRevocationTraced (source : RevocationSource) (claims : TctClaims) (now : Timestamp) :
    Except TctError (List String) × List RevocationQuery :=
  match source with
  | .check f => (checkRevocation (.check f) claims now, [⟨claims.iss, claims.jti, now⟩])
  | source => (checkRevocation source claims now, [])

/-- `verifyAttestation` with the questions it asks. -/
def verifyAttestationTraced (P : Primitives) (token : String) (ctx : AttestationVerifyContext) :
    Except TctError VerifiedAttestation × List RevocationQuery :=
  let core : CoreChecks := ⟨ctx.issuer, ctx.now, ctx.clockSkew, ctx.issuerManifestExpiresAt⟩
  match core.verify P token fun c => ensure (isSelfAttestation c) .notAttestation with
  | .error e => (.error e, [])
  | .ok claims =>
    match okOr (claims.ext.bind (List.lookup ctx.statementKey))
        (.attestationStatementMissing ctx.statementKey) with
    | .error e => (.error e, [])
    | .ok statement =>
      let (answer, asked) := checkRevocationTraced ctx.revocation claims ctx.now
      (answer.map fun _ => ⟨token, claims, statement⟩, asked)

section

variable {ctx : AttestationVerifyContext}

theorem fst_checkRevocationTraced (source : RevocationSource) (claims : TctClaims)
    (now : Timestamp) :
    (checkRevocationTraced source claims now).1 = checkRevocation source claims now := by
  cases source <;> rfl

theorem fst_verifyAttestationTraced (P : Primitives) (token : String)
    (ctx : AttestationVerifyContext) :
    (verifyAttestationTraced P token ctx).1 = verifyAttestation P token ctx := by
  unfold verifyAttestationTraced verifyAttestation
  dsimp only
  split
  next e he =>
    rw [he]
    rfl
  next claims hv =>
    rw [hv]
    simp only [ok_bind]
    split
    next e he =>
      rw [he]
      rfl
    next statement hs =>
      rw [hs, ← fst_checkRevocationTraced]
      simp only [ok_bind]
      cases (checkRevocationTraced ctx.revocation claims ctx.now).1 <;> rfl

theorem snd_verifyAttestationTraced (h : ctx.revocation = .selfAttestation) :
    (verifyAttestationTraced P token ctx).2 = [] := by
  unfold verifyAttestationTraced
  rw [h]
  dsimp only
  split
  · rfl
  · split
    · rfl
    · rfl

theorem CoreChecks.context_of_verify {core : CoreChecks} {context : TctClaims → Except TctError Unit}
    {claims : TctClaims} (h : core.verify P token context = .ok claims) :
    context claims = .ok () := by
  simp only [CoreChecks.verify, bind_eq_ok, ensure_eq_ok, okOr_eq_ok, mapErr_eq_ok, pure_eq_ok,
    exists_const] at h
  obtain ⟨_, -, _, -, c, -, -, -, _, hc, -, -, _, -, -, _, -, rfl⟩ := h
  exact hc

theorem verifyAttestation_selfAttestation (h : ctx.revocation = .selfAttestation) :
    verifyAttestation P token ctx =
      verifyAttestation P token { ctx with revocation := .failOpen } := by
  unfold verifyAttestation
  simp only [h]
  rcases hv : CoreChecks.verify P _ token fun c => ensure (isSelfAttestation c) _ with e | claims
  · rfl
  · have hself : isSelfAttestation claims = true :=
      ensure_eq_ok.mp (CoreChecks.context_of_verify hv)
    simp only [ok_bind, checkRevocation, hself, if_true, applyRevocation, mapErr]

end

/-! ## The law -/

/-- A source for self-attestations lets no grants through, and is asked nothing of an attestation;
every other verification leaves the grants that the answers leave. -/
structure RevocationLaw (P : Primitives) : Prop where
  tct : ∀ (token : String) (ctx : TctVerifyContext) (v : VerifiedTct),
    verifyTct P token ctx = .ok v → ctx.revocation ≠ .selfAttestation ∧
      Narrowed (ctx.revocation.answers ⟨v.claims.iss, v.claims.jti, ctx.now⟩) v.claims.grants
        v.effectiveGrants
  delegation : ∀ (token : String) (ctx : Delegation.DelegationVerifyContext)
    (v : Delegation.VerifiedDelegation), Delegation.verifyDelegation P ctx token = .ok v →
      ctx.revocation ≠ .selfAttestation ∧
      Narrowed (ctx.revocation.answers ⟨ctx.verifier, v.voucher.srcJti, ctx.now⟩) v.claims.scope
        v.effectiveGrants
  chained : ∀ (token : String) (ctx : ChainVerifyContext) (v : VerifiedChainedDelegation),
    verifyChainedDelegation P ctx token = .ok v → ctx.revocation ≠ .selfAttestation ∧
      Narrowed (ctx.answers P v) v.claims.scope v.effectiveGrants
  renewal : ∀ (σ : Type) (nonceStore : NonceStore σ) (st : σ) (request : TctRenewalPayload)
    (issuerKey : Signer) (ctx : RenewalContext) (drawn : RandomV4) (renewed : IssuedTct),
    (processRenewalRequest P nonceStore st request issuerKey ctx drawn).2 = .ok renewed →
      ctx.revocation ≠ .selfAttestation ∧
      ∃ checked, RenewedWithin P request issuerKey.aid ctx renewed checked
  attestation : ∀ (token : String) (ctx : AttestationVerifyContext),
    ctx.revocation = .selfAttestation → (verifyAttestationTraced P token ctx).2 = [] ∧
      verifyAttestation P token ctx =
        verifyAttestation P token { ctx with revocation := .failOpen }

/-- Every verifier keeps the law of revocation. -/
theorem revocationLaw (P : Primitives) : RevocationLaw P := by
  constructor
  · intro token ctx v h
    exact narrowed_of_verifyTct h
  · intro token ctx v h
    exact narrowed_of_verifyDelegation h
  · intro token ctx v h
    exact narrowed_of_verifyChainedDelegation h
  · intro σ nonceStore st request issuerKey ctx drawn renewed h
    exact renewedWithin_of_processRenewalRequest h
  · intro token ctx h
    exact ⟨snd_verifyAttestationTraced h, verifyAttestation_selfAttestation h⟩

end Aitp
