import Mathlib.Order.Basic
import Aitp.Renewal.EffectiveGrants

/-! # What revocation sources permit

A revocation source decides for each grant whether it is left. Every verifier that asks one accepts
what it would accept without asking, as long as a grant is left, and leaves exactly those grants. A
source that permits more is therefore never the one that refuses.
-/

namespace Aitp

/-! ## Sources -/

/-- Whether a source leaves a grant of what it is asked about. -/
def RevocationSource.permits (source : RevocationSource) (query : RevocationQuery) (g : String) :
    Bool :=
  match source with
  | .check f => RevocationStatus.passes (f query) && RevocationStatus.allows g (f query)
  | .failOpen => true
  | .selfAttestation => false

/-- Sources are ordered by what they permit. -/
instance : Preorder RevocationSource where
  le s s' := ∀ query g, s.permits query g = true → s'.permits query g = true
  le_refl _ _ _ h := h
  le_trans _ _ _ h h' query g hg := h' query g (h query g hg)

theorem RevocationSource.permits_check (f : RevocationCheckFn) (query : RevocationQuery) :
    (RevocationSource.check f).permits query =
      fun g => RevocationStatus.passes (f query) && RevocationStatus.allows g (f query) :=
  rfl

theorem RevocationSource.le_failOpen (source : RevocationSource) : source ≤ .failOpen :=
  fun _ _ _ => rfl

theorem RevocationSource.selfAttestation_le (source : RevocationSource) :
    .selfAttestation ≤ source := by
  intro query g h
  cases h

section

variable {source : RevocationSource} {query : RevocationQuery} {grants effective own : List String}
  {p p' : String → Bool}

/-- What is left of some grants, if anything is. -/
def Left (p : String → Bool) (own effective : List String) : Prop :=
  effective = own.filter p ∧ effective ≠ []

theorem left_true : Left (fun _ => true) own effective ↔ effective = own ∧ effective ≠ [] := by
  rw [Left, List.filter_eq_self.mpr fun _ _ => rfl]

theorem not_left_false : ¬Left (fun _ => false) own effective := by
  rintro ⟨rfl, h⟩
  exact h (List.filter_eq_nil_iff.mpr fun _ _ => Bool.false_ne_true)

theorem exists_left_left : (∃ grants, Left p own grants ∧ Left p' grants effective) ↔
    Left (fun g => p g && p' g) own effective := by
  have hboth : (own.filter p).filter p' = own.filter fun g => p g && p' g := by
    rw [List.filter_filter]
    exact List.filter_congr fun _ _ => Bool.and_comm ..
  constructor
  · rintro ⟨_, ⟨rfl, -⟩, rfl, h⟩
    exact ⟨hboth, h⟩
  · rintro ⟨rfl, h⟩
    refine ⟨own.filter p, ⟨rfl, ?_⟩, hboth.symm, h⟩
    intro hnil
    rw [← hboth, hnil] at h
    exact h rfl

theorem Left.mono (h : Left p own effective) (hp : ∀ g, p g = true → p' g = true) :
    ∃ grants, Left p' own grants ∧ effective.Sublist grants := by
  obtain ⟨rfl, hne⟩ := h
  have hsub : (own.filter p).Sublist (own.filter p') := List.monotone_filter_right _ hp
  refine ⟨_, ⟨rfl, ?_⟩, hsub⟩
  intro hnil
  rw [hnil, List.sublist_nil] at hsub
  exact hne hsub

theorem Left.permits (h : Left p own effective) {g : String} (hg : g ∈ effective) : p g = true := by
  obtain ⟨rfl, -⟩ := h
  exact (List.mem_filter.mp hg).2

theorem applyRevocation_eq_ok (hne : grants ≠ []) :
    applyRevocation source query grants = .ok effective ↔
      Left (source.permits query) grants effective := by
  cases source with
  | failOpen =>
    rw [show RevocationSource.permits .failOpen query = fun _ => true from rfl, left_true,
      applyRevocation, Except.ok.injEq]
    constructor
    · rintro rfl
      exact ⟨rfl, hne⟩
    · rintro ⟨rfl, -⟩
      rfl
  | selfAttestation =>
    simp only [applyRevocation, reduceCtorEq, false_iff]
    exact not_left_false
  | check f =>
    constructor
    · intro h
      have hd : delegationRevocation (.check f) query grants = .ok effective := mapErr_eq_ok.mpr h
      obtain ⟨hpass, hallow⟩ := delegationRevocation_check hd
      refine ⟨?_, (narrowed_of_applyRevocation hne h).nonempty⟩
      simpa only [RevocationSource.permits_check, hpass, Bool.true_and] using hallow
    · rintro ⟨rfl, hleft⟩
      obtain ⟨g, hg⟩ := List.exists_mem_of_ne_nil _ hleft
      have hpass : RevocationStatus.passes (f query) = true :=
        (Bool.and_eq_true_iff.mp (List.mem_filter.mp hg).2).1
      simp only [RevocationSource.permits_check, hpass, Bool.true_and] at hleft ⊢
      simp only [applyRevocation]
      split
      next hf => simp [hf, RevocationStatus.passes] at hpass
      next hf => simp [hf, RevocationStatus.allows]
      next hf => simp [hf, RevocationStatus.passes] at hpass
      next safe hf =>
        simp only [hf, RevocationStatus.allows] at hleft ⊢
        rw [if_neg (by simpa only [List.isEmpty_iff] using hleft)]

end

variable {P : Primitives} {token : String}

/-! ## Tokens -/

theorem checkRevocation_eq_ok {source : RevocationSource} {claims : TctClaims} {now : Timestamp}
    {effective : List String} (hself : isSelfAttestation claims = false) (hne : claims.grants ≠ []) :
    checkRevocation source claims now = .ok effective ↔
      Left (source.permits ⟨claims.iss, claims.jti, now⟩) claims.grants effective := by
  rw [← applyRevocation_eq_ok hne]
  cases source with
  | selfAttestation =>
    simp only [checkRevocation, hself, Bool.false_eq_true, if_false]
    exact mapErr_eq_ok
  | check f => simp only [checkRevocation, mapErr_eq_ok]
  | failOpen => simp only [checkRevocation, mapErr_eq_ok]

/-- What a source leaves of a token. -/
def TctVerifyContext.permits (ctx : TctVerifyContext) (claims : TctClaims) : String → Bool :=
  ctx.revocation.permits ⟨claims.iss, claims.jti, ctx.now⟩

theorem verifyTct_eq_ok {ctx : TctVerifyContext} {v : VerifiedTct} :
    verifyTct P token ctx = .ok v ↔ v.token = token ∧
      verifyTctBeforeRevocation P token ctx = .ok v.claims ∧
      Left (ctx.permits v.claims) v.claims.grants v.effectiveGrants := by
  simp only [verifyTct, bind_eq_ok, pure_eq_ok]
  constructor
  · rintro ⟨claims, hv, effective, hr, rfl⟩
    have hg := verifyTctBeforeRevocation_ok hv
    exact ⟨rfl, hv, (checkRevocation_eq_ok (isSelfAttestation_of_ne hg.notSelf) hg.grants).mp hr⟩
  · rintro ⟨rfl, hv, hl⟩
    have hg := verifyTctBeforeRevocation_ok hv
    exact ⟨_, hv, _,
      (checkRevocation_eq_ok (isSelfAttestation_of_ne hg.notSelf) hg.grants).mpr hl, rfl⟩

theorem verifyTct_permitted {ctx : TctVerifyContext} {v : VerifiedTct} :
    verifyTct P token ctx = .ok v ↔
      verifyTct P token { ctx with revocation := .failOpen } =
          .ok { v with effectiveGrants := v.claims.grants } ∧
        Left (ctx.permits v.claims) v.claims.grants v.effectiveGrants := by
  rw [verifyTct_eq_ok, verifyTct_eq_ok]
  constructor
  · rintro ⟨ht, hv, hl⟩
    refine ⟨⟨ht, hv, ?_⟩, hl⟩
    exact left_true.mpr ⟨rfl, (verifyTctBeforeRevocation_ok hv).grants⟩
  · rintro ⟨⟨ht, hv, -⟩, hl⟩
    exact ⟨ht, hv, hl⟩

/-! ## Delegations -/

/-- What a source leaves of a delegation. -/
def Delegation.DelegationVerifyContext.permits (ctx : Delegation.DelegationVerifyContext)
    (voucher : GrantVoucherClaims) : String → Bool :=
  ctx.revocation.permits ⟨ctx.verifier, voucher.srcJti, ctx.now⟩

theorem verifyDelegation_permitted {ctx : Delegation.DelegationVerifyContext}
    {v : Delegation.VerifiedDelegation} :
    Delegation.verifyDelegation P ctx token = .ok v ↔
      Delegation.verifyDelegation P { ctx with revocation := .failOpen } token =
          .ok { v with effectiveGrants := v.claims.scope } ∧
        Left (ctx.permits v.voucher) v.claims.scope v.effectiveGrants := by
  simp only [Delegation.verifyDelegation, Delegation.verifySingleHop, Delegation.checkHopClaims,
    Delegation.checkSourceRevocation, delegationRevocation, bind_eq_ok, ensure_eq_ok, mapErr_eq_ok,
    pure_eq_ok, exists_const, Bool.not_eq_true', List.isEmpty_eq_false_iff]
  constructor
  · rintro ⟨peeked, hp, claims, hj, haud, hexp, vt, hvt, voucher, hroot, hle, u, hall,
      ⟨haud', hself, hscope, hcnf⟩, effective, hr, rfl⟩
    refine ⟨⟨peeked, hp, claims, hj, haud, hexp, vt, hvt, voucher, hroot, hle, u, hall,
      ⟨haud', hself, hscope, hcnf⟩, claims.scope, rfl, rfl⟩, ?_⟩
    exact (applyRevocation_eq_ok hscope).mp hr
  · rintro ⟨⟨peeked, hp, claims, hj, haud, hexp, vt, hvt, voucher, hroot, hle, u, hall,
      ⟨haud', hself, hscope, hcnf⟩, effective, hr, hv⟩, hl⟩
    cases v
    simp only [Delegation.VerifiedDelegation.mk.injEq] at hv
    obtain ⟨rfl, rfl, rfl, rfl⟩ := hv
    exact ⟨peeked, hp, _, hj, haud, hexp, vt, hvt, _, hroot, hle, u, hall,
      ⟨haud', hself, hscope, hcnf⟩, _, (applyRevocation_eq_ok hscope).mpr hl, rfl⟩

/-! ## Chains -/

section

variable {ctx : ChainVerifyContext} {chain tokens : List String} {grants effective : List String}
  {records : List (Aid × Uuid)}

/-- What is left of a grant by the answers about the hops. They are asked for when there is a lookup
for the source, and then have one of their own. -/
def ChainVerifyContext.permitsHops (ctx : ChainVerifyContext) (queries : List RevocationQuery)
    (g : String) : Bool :=
  match ctx.revocation with
  | .check _ =>
    match ctx.hopRevocationCheck with
    | some check => queries.all fun q => (RevocationSource.check check).permits q g
    | none => false
  | _ => true

/-- What the sources leave of a delegation: that of its voucher and, with a chain, those of the
hops. -/
def ChainVerifyContext.permits (P : Primitives) (ctx : ChainVerifyContext)
    (v : VerifiedChainedDelegation) (g : String) : Bool :=
  ctx.revocation.permits ⟨ctx.verifier, v.voucher.srcJti, ctx.now⟩ g &&
    match v.claims.chain.getD [] with
    | [] => true
    | chain => ctx.permitsHops (ctx.hopQueries P (chain ++ [v.token])) g

theorem checkSourceRevocation_eq_ok {srcJti : Uuid} (hne : grants ≠ []) :
    checkSourceRevocation ctx srcJti grants = .ok effective ↔
      Left (ctx.revocation.permits ⟨ctx.verifier, srcJti, ctx.now⟩) grants effective := by
  rw [checkSourceRevocation, delegationRevocation, mapErr_eq_ok, mapErr_eq_ok,
    applyRevocation_eq_ok hne]

theorem checkHopRevocation_eq_ok {check : RevocationCheckFn} (hne : grants ≠ []) :
    checkHopRevocation ctx check records grants = .ok effective ↔
      Left (fun g => records.all fun r =>
        (RevocationSource.check check).permits ⟨r.1, r.2, ctx.now⟩ g) grants effective := by
  induction records generalizing grants with
  | nil =>
    simp only [checkHopRevocation, Except.ok.injEq, List.all_nil]
    rw [left_true]
    constructor
    · rintro rfl
      exact ⟨rfl, hne⟩
    · rintro ⟨rfl, -⟩
      rfl
  | cons r records ih =>
    simp only [checkHopRevocation, delegationRevocation, bind_eq_ok, mapErr_eq_ok, List.all_cons]
    rw [← exists_left_left]
    refine exists_congr fun left => ?_
    rw [applyRevocation_eq_ok hne]
    exact and_congr_right fun hl => ih hl.2

theorem checkEveryHop_eq_ok (hne : grants ≠ []) :
    checkEveryHop ctx records grants = .ok effective ↔
      Left (ctx.permitsHops (records.map fun r => ⟨r.1, r.2, ctx.now⟩)) grants effective := by
  have hall : (.ok grants : Except ChainedDelegationError (List String)) = .ok effective ↔
      Left (fun _ => true) grants effective := by
    rw [left_true, Except.ok.injEq]
    constructor
    · rintro rfl
      exact ⟨rfl, hne⟩
    · rintro ⟨rfl, -⟩
      rfl
  unfold checkEveryHop ChainVerifyContext.permitsHops
  cases ctx.revocation with
  | failOpen => exact hall
  | selfAttestation => exact hall
  | check f =>
    cases ctx.hopRevocationCheck with
    | none =>
      simp only [okOr, error_bind, reduceCtorEq, false_iff]
      exact not_left_false
    | some check =>
      simp only [okOr, ok_bind, List.all_map]
      exact checkHopRevocation_eq_ok hne

theorem permits_of_chain_nil (v : VerifiedChainedDelegation) (hc : v.claims.chain.getD [] = []) :
    ctx.permits P v = ctx.revocation.permits ⟨ctx.verifier, v.voucher.srcJti, ctx.now⟩ := by
  funext g
  rw [ChainVerifyContext.permits, hc, Bool.and_true]

theorem permits_of_chain_ne_nil (v : VerifiedChainedDelegation)
    (hc : v.claims.chain.getD [] ≠ []) : ctx.permits P v = fun g =>
      ctx.revocation.permits ⟨ctx.verifier, v.voucher.srcJti, ctx.now⟩ g &&
        ctx.permitsHops (ctx.hopQueries P (v.claims.chain.getD [] ++ [v.token])) g := by
  obtain ⟨t, ts, hchain⟩ := List.exists_cons_of_ne_nil hc
  funext g
  rw [ChainVerifyContext.permits, hchain]

theorem verifyHops_congr {ctx' : ChainVerifyContext} {i : ℕ} {state : Option HopState}
    (h : ∀ i t s, verifyHop P ctx' chain i t s = verifyHop P ctx chain i t s) :
    verifyHops P ctx' chain i tokens state = verifyHops P ctx chain i tokens state := by
  induction tokens generalizing i state with
  | nil => rfl
  | cons t ts ih => simp only [verifyHops, h, ih]

theorem verifySingleHop_permitted {v : VerifiedChainedDelegation} :
    verifySingleHop P ctx token = .ok v ↔
      verifySingleHop P { ctx with revocation := .failOpen } token =
          .ok { v with effectiveGrants := v.claims.scope } ∧
        Left (ctx.revocation.permits ⟨ctx.verifier, v.voucher.srcJti, ctx.now⟩) v.claims.scope
          v.effectiveGrants := by
  simp only [verifySingleHop, checkHopClaims, bind_eq_ok, ensure_eq_ok, mapErr_eq_ok, pure_eq_ok,
    exists_const, Bool.not_eq_true', List.isEmpty_eq_false_iff]
  constructor
  · rintro ⟨claims, hj, haud, hexp, vt, hvt, voucher, hroot, hle, u, hall,
      ⟨haud', hself, hscope, hcnf⟩, effective, hr, rfl⟩
    refine ⟨⟨claims, hj, haud, hexp, vt, hvt, voucher, hroot, hle, u, hall,
      ⟨haud', hself, hscope, hcnf⟩, claims.scope, ?_, rfl⟩, ?_⟩
    · exact (checkSourceRevocation_eq_ok hscope).mpr (left_true.mpr ⟨rfl, hscope⟩)
    · exact (checkSourceRevocation_eq_ok hscope).mp hr
  · rintro ⟨⟨claims, hj, haud, hexp, vt, hvt, voucher, hroot, hle, u, hall,
      ⟨haud', hself, hscope, hcnf⟩, effective, hr, hv⟩, hl⟩
    cases v
    simp only [VerifiedChainedDelegation.mk.injEq] at hv
    obtain ⟨rfl, rfl, rfl, rfl⟩ := hv
    exact ⟨_, hj, haud, hexp, vt, hvt, _, hroot, hle, u, hall, ⟨haud', hself, hscope, hcnf⟩, _,
      (checkSourceRevocation_eq_ok hscope).mpr hl, rfl⟩

theorem token_of_verifyMultiHop {peeked : ChainedDelegationClaims} {v : VerifiedChainedDelegation}
    (h : verifyMultiHop P ctx token peeked = .ok v) : v.token = token := by
  simp only [verifyMultiHop, bind_eq_ok, pure_eq_ok] at h
  obtain ⟨_, -, _, -, _, -, _, -, _, -, _, -, _, -, rfl⟩ := h
  rfl

theorem verifyMultiHop_permitted {peeked : ChainedDelegationClaims}
    {v : VerifiedChainedDelegation} :
    verifyMultiHop P ctx token peeked = .ok v ↔
      verifyMultiHop P { ctx with revocation := .failOpen } token peeked =
          .ok { v with effectiveGrants := v.claims.scope } ∧
        Left (fun g => ctx.revocation.permits ⟨ctx.verifier, v.voucher.srcJti, ctx.now⟩ g &&
          ctx.permitsHops (ctx.hopQueries P (peeked.chain.getD [] ++ [token])) g)
          v.claims.scope v.effectiveGrants := by
  have hhops : ∀ {tokens state}, verifyHops P { ctx with revocation := .failOpen }
      (peeked.chain.getD []) 0 tokens state =
        verifyHops P ctx (peeked.chain.getD []) 0 tokens state :=
    verifyHops_congr fun _ _ _ => rfl
  have hscope : ∀ {s}, verifyHops P ctx (peeked.chain.getD []) 0
      (peeked.chain.getD [] ++ [token]) none = .ok (some s) → s.prev.scope ≠ [] := by
    intro s hl
    apply scope_ne_nil_of_verifyHops _ hl
    rintro _ ⟨⟩
  have hquery : ∀ {s}, verifyHops P ctx (peeked.chain.getD []) 0
      (peeked.chain.getD [] ++ [token]) none = .ok (some s) →
        ctx.hopQueries P (peeked.chain.getD [] ++ [token]) =
          s.hopRecords.map fun r => ⟨r.1, r.2, ctx.now⟩ :=
    hopQueries_of_verifyHops (List.append_ne_nil_of_right_ne_nil _ (List.cons_ne_nil _ _))
  simp only [verifyMultiHop, hhops, bind_eq_ok, ensure_eq_ok, okOr_eq_ok, pure_eq_ok,
    exists_const]
  constructor
  · rintro ⟨hlen, hash, hhash, hchash, _, hl, s, rfl, left, hs, effective, he, rfl⟩
    have hne := hscope hl
    have hleft := (checkSourceRevocation_eq_ok hne).mp hs
    refine ⟨⟨hlen, hash, hhash, hchash, _, hl, s, rfl, s.prev.scope, ?_, s.prev.scope, rfl, rfl⟩, ?_⟩
    · exact (checkSourceRevocation_eq_ok hne).mpr (left_true.mpr ⟨rfl, hne⟩)
    · rw [hquery hl]
      exact exists_left_left.mp ⟨left, hleft, (checkEveryHop_eq_ok hleft.2).mp he⟩
  · rintro ⟨⟨hlen, hash, hhash, hchash, _, hl, s, rfl, _, -, effective, -, hv⟩, hleft⟩
    cases v
    simp only [VerifiedChainedDelegation.mk.injEq] at hv
    obtain ⟨rfl, rfl, rfl, rfl⟩ := hv
    rw [hquery hl] at hleft
    obtain ⟨left, hsource, heach⟩ := exists_left_left.mpr hleft
    exact ⟨hlen, hash, hhash, hchash, _, hl, s, rfl, left,
      (checkSourceRevocation_eq_ok (hscope hl)).mpr hsource, _,
      (checkEveryHop_eq_ok hsource.2).mpr heach, rfl⟩

theorem verifyChainedDelegation_permitted {v : VerifiedChainedDelegation} :
    verifyChainedDelegation P ctx token = .ok v ↔
      verifyChainedDelegation P { ctx with revocation := .failOpen } token =
          .ok { v with effectiveGrants := v.claims.scope } ∧
        Left (ctx.permits P v) v.claims.scope v.effectiveGrants := by
  have hchain : ∀ {peeked : ChainedDelegationClaims},
      (peeked.chain.map List.length).getD 0 = 0 ↔ peeked.chain.getD [] = [] := by
    intro peeked
    cases peeked.chain <;> simp
  constructor
  · intro h
    obtain ⟨hp, hpath⟩ := verifyChainedDelegation_ok h
    simp only [verifyChainedDelegation, bind_eq_ok] at h ⊢
    obtain ⟨peeked, hp', u, hopt, -⟩ := h
    obtain rfl := Except.ok.inj (hp'.symm.trans hp)
    rcases hpath with ⟨hc, hv⟩ | ⟨hc, hv⟩
    · obtain ⟨hopen, hl⟩ := verifySingleHop_permitted.mp hv
      rw [permits_of_chain_nil v hc]
      refine ⟨⟨_, hp, u, hopt, ?_⟩, hl⟩
      rw [if_pos (hchain.mpr hc)]
      exact hopen
    · obtain ⟨hopen, hl⟩ := verifyMultiHop_permitted.mp hv
      rw [← token_of_verifyMultiHop hv] at hl
      rw [permits_of_chain_ne_nil v hc]
      refine ⟨⟨_, hp, u, hopt, ?_⟩, hl⟩
      rw [if_neg (hchain.not.mpr hc)]
      exact hopen
  · rintro ⟨h, hl⟩
    obtain ⟨hp, hpath⟩ := verifyChainedDelegation_ok h
    simp only [verifyChainedDelegation, bind_eq_ok] at h ⊢
    obtain ⟨peeked, hp', u, hopt, -⟩ := h
    obtain rfl := Except.ok.inj (hp'.symm.trans hp)
    refine ⟨_, hp, u, hopt, ?_⟩
    rcases hpath with ⟨hc, hv⟩ | ⟨hc, hv⟩
    · rw [if_pos (hchain.mpr hc)]
      rw [permits_of_chain_nil v hc] at hl
      exact verifySingleHop_permitted.mpr ⟨hv, hl⟩
    · rw [if_neg (hchain.not.mpr hc)]
      have htoken := token_of_verifyMultiHop hv
      dsimp only at htoken
      rw [permits_of_chain_ne_nil v hc, htoken] at hl
      exact verifyMultiHop_permitted.mpr ⟨hv, hl⟩

theorem verifyChainedDelegation_hopRevocationCheck (check : Option RevocationCheckFn) :
    verifyChainedDelegation P
        { ctx with revocation := .failOpen, hopRevocationCheck := check } token =
      verifyChainedDelegation P { ctx with revocation := .failOpen } token := by
  have hhops : ∀ {chain tokens i state}, verifyHops P
      { ctx with revocation := .failOpen, hopRevocationCheck := check } chain i tokens state =
        verifyHops P { ctx with revocation := .failOpen } chain i tokens state :=
    verifyHops_congr fun _ _ _ => rfl
  simp only [verifyChainedDelegation, verifyMultiHop, hhops]
  rfl

end

/-! ## Renewals -/

/-- What a source leaves of a token that is to be renewed. -/
def RenewalContext.permits (ctx : RenewalContext) (claims : TctClaims) : String → Bool :=
  ctx.revocation.permits ⟨claims.iss, claims.jti, ctx.now⟩

theorem checkRenewalRequest_permitted {request : TctRenewalPayload} {issuerAid : Aid}
    {ctx : RenewalContext} {checked : CheckedRenewal} :
    checkRenewalRequest P request issuerAid ctx = .ok checked ↔
      checkRenewalRequest P request issuerAid { ctx with revocation := .failOpen } =
          .ok { checked with effectiveGrants := checked.claims.grants } ∧
        Left (ctx.permits checked.claims) checked.claims.grants checked.effectiveGrants := by
  have hgrants : ∀ {aud v}, verifyTct P request.currentTct (ctx.verifyContext issuerAid aud) =
      .ok v → isSelfAttestation v.claims = false ∧ v.claims.grants ≠ [] := by
    intro aud v hv
    have hg := verifyTctBeforeRevocation_ok (verifyTct_eq_ok.mp hv).2.1
    exact ⟨isSelfAttestation_of_ne hg.notSelf, hg.grants⟩
  simp only [checkRenewalRequest, bind_eq_ok, ensure_eq_ok, mapErr_eq_ok, pure_eq_ok, exists_const]
  constructor
  · rintro ⟨nonce, hn, peek, hp, v, hv, haud, key, hk, effective, hr, rfl⟩
    obtain ⟨hself, hne⟩ := hgrants hv
    refine ⟨⟨nonce, hn, peek, hp, v, hv, haud, key, hk, v.claims.grants, ?_, rfl⟩, ?_⟩
    · exact (checkRevocation_eq_ok hself hne).mpr (left_true.mpr ⟨rfl, hne⟩)
    · exact (checkRevocation_eq_ok hself hne).mp hr
  · rintro ⟨⟨nonce, hn, peek, hp, v, hv, haud, key, hk, effective, -, hc⟩, hl⟩
    obtain ⟨hself, hne⟩ := hgrants hv
    cases checked
    simp only [CheckedRenewal.mk.injEq] at hc
    obtain ⟨rfl, rfl, rfl, rfl⟩ := hc
    exact ⟨_, hn, peek, hp, v, hv, haud, _, hk, _, (checkRevocation_eq_ok hself hne).mpr hl, rfl⟩

/-! ## All verifiers -/

/-- A lookup only ever takes grants away, in every verifier that makes one: what is accepted is what
would be without it, less the grants that it does not permit, as long as one is left. -/
theorem revocation_permitted (P : Primitives) :
    (∀ token ctx v, verifyTct P token ctx = .ok v ↔
      verifyTct P token { ctx with revocation := .failOpen } =
          .ok { v with effectiveGrants := v.claims.grants } ∧
        Left (ctx.permits v.claims) v.claims.grants v.effectiveGrants) ∧
    (∀ token ctx v, Delegation.verifyDelegation P ctx token = .ok v ↔
      Delegation.verifyDelegation P { ctx with revocation := .failOpen } token =
          .ok { v with effectiveGrants := v.claims.scope } ∧
        Left (ctx.permits v.voucher) v.claims.scope v.effectiveGrants) ∧
    (∀ token ctx v, verifyChainedDelegation P ctx token = .ok v ↔
      verifyChainedDelegation P { ctx with revocation := .failOpen } token =
          .ok { v with effectiveGrants := v.claims.scope } ∧
        Left (ctx.permits P v) v.claims.scope v.effectiveGrants) ∧
    ∀ request issuerAid ctx checked, checkRenewalRequest P request issuerAid ctx = .ok checked ↔
      checkRenewalRequest P request issuerAid { ctx with revocation := .failOpen } =
          .ok { checked with effectiveGrants := checked.claims.grants } ∧
        Left (ctx.permits checked.claims) checked.claims.grants checked.effectiveGrants :=
  ⟨fun _ _ _ => verifyTct_permitted, fun _ _ _ => verifyDelegation_permitted,
    fun _ _ _ => verifyChainedDelegation_permitted, fun _ _ _ _ => checkRenewalRequest_permitted⟩

section

variable {source source' : RevocationSource}

/-- Whatever is accepted with one lookup is accepted with one that permits more, and is left no
less. The hops of a chain are judged by the lookup for them. -/
theorem accepted_mono (hs : source ≤ source') (P : Primitives) (token : String) :
    (∀ (ctx : TctVerifyContext) v, verifyTct P token { ctx with revocation := source } = .ok v →
      ∃ effective, verifyTct P token { ctx with revocation := source' } =
          .ok { v with effectiveGrants := effective } ∧ v.effectiveGrants.Sublist effective) ∧
    (∀ (ctx : Delegation.DelegationVerifyContext) v,
      Delegation.verifyDelegation P { ctx with revocation := source } token = .ok v →
      ∃ effective, Delegation.verifyDelegation P { ctx with revocation := source' } token =
          .ok { v with effectiveGrants := effective } ∧ v.effectiveGrants.Sublist effective) ∧
    ∀ (ctx : ChainVerifyContext) check check',
      let asked : ChainVerifyContext :=
        { ctx with revocation := source, hopRevocationCheck := check }
      let asked' : ChainVerifyContext :=
        { ctx with revocation := source', hopRevocationCheck := check' }
      (∀ queries g, asked.permitsHops queries g = true → asked'.permitsHops queries g = true) →
      ∀ v, verifyChainedDelegation P asked token = .ok v →
      ∃ effective, verifyChainedDelegation P asked' token =
          .ok { v with effectiveGrants := effective } ∧ v.effectiveGrants.Sublist effective := by
  refine ⟨?tct, ?delegation, ?chain⟩
  case tct =>
    intro ctx v h
    obtain ⟨hopen, hl⟩ := verifyTct_permitted.mp h
    obtain ⟨effective, hl', hsub⟩ := hl.mono (hs _)
    exact ⟨effective, verifyTct_permitted.mpr ⟨hopen, hl'⟩, hsub⟩
  case delegation =>
    intro ctx v h
    obtain ⟨hopen, hl⟩ := verifyDelegation_permitted.mp h
    obtain ⟨effective, hl', hsub⟩ := hl.mono (hs _)
    exact ⟨effective, verifyDelegation_permitted.mpr ⟨hopen, hl'⟩, hsub⟩
  case chain =>
    intro ctx check check' asked asked' hhops v h
    obtain ⟨hopen, hl⟩ := verifyChainedDelegation_permitted.mp h
    have hp : ∀ g, asked.permits P v g = true → asked'.permits P v g = true := by
      intro g hg
      simp only [ChainVerifyContext.permits, Bool.and_eq_true] at hg ⊢
      refine ⟨hs _ g hg.1, ?_⟩
      cases hc : v.claims.chain.getD [] with
      | nil => rfl
      | cons t ts =>
        simp only [hc] at hg
        exact hhops _ g hg.2
    obtain ⟨effective, hl', hsub⟩ := hl.mono hp
    have hsame := @verifyChainedDelegation_hopRevocationCheck P token ctx
    refine ⟨effective, verifyChainedDelegation_permitted.mpr ⟨?_, hl'⟩, hsub⟩
    exact (hsame check').trans ((hsame check).symm.trans hopen)

open SampleChain in
/-- What a safe subset leaves of a chain, an open source leaves too. -/
theorem accepted_mono_twoHops : ∃ effective,
    verifyChainedDelegation Toy.primitives (context 3 .failOpen none) outerToken =
        .ok ⟨outerToken, outerHop, voucher, effective⟩ ∧ ["read"].Sublist effective := by
  have h := (accepted_mono (RevocationSource.le_failOpen
    (.check fun _ => some (.softFailSafeSubset ["read"]))) Toy.primitives outerToken).2.2
  exact h (context 3 .failOpen none) (some fun _ => some .clear) none (fun _ _ _ => rfl)
    ⟨outerToken, outerHop, voucher, ["read"]⟩ (verifyChainedDelegation_outerToken rfl rfl)

end

end Aitp
