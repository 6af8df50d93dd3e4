import Aitp.Delegation.Builder
import Aitp.Delegation.Parity
import Aitp.Tct.RoundTrip

/-! # Issued delegations are accepted

A token delegated from a voucher, and every token extended from it, passes the
verifier of chains: the induction over the construction carries the state of the
verifier's loop. A token of the stable builder passes both verifiers.
-/

namespace Aitp

variable {P : Primitives} {ctx : ChainVerifyContext}

/-! ## What a builder reads -/

section

variable {signer : Signer} {key : VerifyingKey} {token : String}

/-- A signed voucher reads as it was signed, for the holder it entitles. -/
theorem peekVoucher_signCompact {v v' : GrantVoucherClaims} {holder : Aid}
    (hP : P.ReadsText) (hs : signer.Lawful P key) (hv : v.Writable)
    (ht : P.rereadTime v.iat = some v.iat ∧ P.rereadTime v.exp = some v.exp)
    (h : signCompact signer typGrantVoucher v.toValue = .ok token) :
    peekVoucher P holder token = .ok v' ↔ v = v' ∧ v.sub = holder := by
  have hm : checkMembers (P.reread v.toValue.canon) grantVoucherClaimsMembers = none := by
    rw [checkMembers_reread P (Json.isObject_canon _)]
    exact checkMembers_written (by decide)
  have hp := decodePayloadUnverified_signCompact hs h
  have hr := hv.readable_toValue hP
  have hk := rejectDuplicateKeys_jcs hP hr hv.distinctKeys_toValue
  have hc : readClaims P "voucher: " grantVoucherClaimsFields decodeGrantVoucherClaims
      v.toValue.jcs = .ok v := by
    rw [readClaims_eq_ok, hP.document_jcs hr, Option.bind_some, hv.decode_reread, ht.1, ht.2]
    rfl
  simp only [peekVoucher, hp, hk, hP.document_jcs hr, hc, mapErr_ok, ok_bind, ifPresent_some,
    ensureMembers, hm, bind_eq_ok, ensure_eq_ok, pure_eq_ok, exists_const, decide_eq_true_eq]
  exact and_comm

/-- A signed delegation is extended as it was signed, by its delegatee. -/
theorem extendingPrior_signCompact {c : ChainedDelegationClaims} {holder : Signer}
    {b : ChainedDelegationBuilder} (hP : P.ReadsText) (hs : signer.Lawful P key)
    (hc : c.Writable) (ht : c.exp.Exact) (h : signCompact signer typDelegation c.toValue = .ok token) :
    ChainedDelegationBuilder.extendingPrior P holder token = .ok b ↔
      b = .under holder (.prior token c) ∧ c.sub = holder.aid ∧ c.jti.isSome = true := by
  have hm : checkMembers (P.reread c.toValue.canon) delegationClaimsMembers = none := by
    rw [checkMembers_reread P (Json.isObject_canon _)]
    exact checkMembers_written (by decide)
  have hp := decodePayloadUnverified_signCompact hs h
  have hr := hc.readable_toValue hP
  have hk := rejectDuplicateKeys_jcs hP hr hc.distinctKeys_toValue
  have hd : readClaims P "prior hop: " chainedDelegationClaimsFields decodeChainedDelegationClaims
      c.toValue.jcs = .ok c :=
    readClaims_eq_ok.mpr (hc.decode_exact hP ht)
  simp only [ChainedDelegationBuilder.extendingPrior, hp, hk, hP.document_jcs hr, hd, mapErr_ok,
    ok_bind, ifPresent_some, ensureMembers, hm, bind_eq_ok, ensure_eq_ok, pure_eq_ok, exists_const,
    decide_eq_true_eq]
  constructor
  · rintro ⟨hs, hj, he⟩
    exact ⟨he.symm, hs, hj⟩
  · rintro ⟨he, hs, hj⟩
    exact ⟨hs, hj, he.symm⟩

end

/-! ## What a builder issues -/

/-- A signed delegation for a verifier: every check of a hop on its own passes. -/
structure SoundHop (P : Primitives) (verifier : Aid) (signer : Signer) (token : String)
    (c : ChainedDelegationClaims) : Prop where
  lawful : ∃ key, signer.Lawful P key
  signed : signCompact signer typDelegation c.toValue = .ok token
  writable : c.Writable
  times : c.exp.Exact
  ver : c.ver = protocolVersion
  iss : c.iss = signer.aid
  aud : c.aud = verifier
  notSelf : c.iss ≠ c.sub
  scope : c.scope ≠ []
  cnf : ∃ key, VerifyingKey.fromAid P c.sub = .ok key ∧ c.jkt = key.toJwkThumbprintSha256 P
  jti : ∀ u, c.jti = some u → u.checkV4 = .ok ()

/-- What a draft takes from its authority. -/
structure UnderAuthority (P : Primitives) (b : ChainedDelegationBuilder) (drawn : RandomV4)
    (c : ChainedDelegationClaims) : Prop where
  scope : ∀ g ∈ c.scope, g ∈ b.authority.caps.2.1
  exp : c.exp ≤ b.authority.caps.2.2
  ties : (⟨c.voucher, c.jti, c.chain, c.chainHash⟩ : Ties) = b.authority.ties P b.jtiOverride drawn

theorem checkScope_eq_ok {scope grants : List String} {u : Unit} :
    checkScope scope grants = .ok u ↔ ∀ g ∈ scope, g ∈ grants := by
  simp [checkScope, forEach_eq_ok]

theorem checkV4_of_ties {authority : Authority} {jtiOverride : Option Uuid} {drawn : RandomV4}
    (h : ∀ u, jtiOverride = some u → u.checkV4 = .ok ()) :
    ∀ u, (authority.ties P jtiOverride drawn).jti = some u → u.checkV4 = .ok () := by
  intro u hu
  cases authority with
  | voucher token claims => exact h u hu
  | prior token claims =>
    obtain rfl := Option.some.inj hu
    cases hj : jtiOverride with
    | none => exact drawn.layout
    | some jti => exact h jti hj

theorem ChainedDelegationBuilder.draft_ok {b : ChainedDelegationBuilder} {drawn : RandomV4}
    {clock : Timestamp} {c : ChainedDelegationClaims} {token : String}
    (h : b.draft P drawn clock = .ok c) (ht : b.build P drawn clock = .ok token)
    (hs : ∃ key, b.issuerKey.Lawful P key) (hx : c.exp.Exact) :
    SoundHop P b.authority.caps.1 b.issuerKey token c ∧ UnderAuthority P b drawn c := by
  simp only [build, h, ok_bind, mapErr_eq_ok] at ht
  simp only [draft, bind_eq_ok, okOr_eq_ok, ensure_eq_ok, mapErr_eq_ok, pure_eq_ok, exists_const,
    checkScope_eq_ok, ifPresent_eq_ok, Bool.not_eq_true', decide_eq_false_iff_not] at h
  obtain ⟨delegatee, hd, hne, hself, hscope, _, hj, key, hk, rfl⟩ := h
  constructor
  · exact {
      lawful := hs
      signed := ht
      writable := ⟨hx.fits, rfl⟩
      times := hx
      ver := rfl
      iss := rfl
      aud := rfl
      notSelf := hself
      scope := by simpa using hne
      cnf := ⟨key, hk, rfl⟩
      jti := checkV4_of_ties hj }
  · exact ⟨hscope, cappedExpiry_le _ _ _, rfl⟩

/-! ## What a verifier checks of one hop -/

/-- A verifier that the agent's manifest resolves for. -/
def ChainVerifyContext.Resolves (P : Primitives) (ctx : ChainVerifyContext) (aid : Aid) : Prop :=
  ∃ resolver manifest, ctx.issuerManifests = some resolver ∧
    resolveVerifiedManifest P resolver aid ⟨ctx.now, ctx.insecureLocalhost⟩ = .ok manifest

/-- The lookup of each hop that a live source calls for is answered, and clears the hop. -/
def ChainVerifyContext.HopsClear (ctx : ChainVerifyContext) : Prop :=
  ∀ f, ctx.revocation = .check f → ∃ check, ctx.hopRevocationCheck = some check ∧
    (RevocationSource.check check).AnswersClear

theorem delegationRevocation_clear {source : RevocationSource} (h : source.AnswersClear)
    (query : RevocationQuery) (scope : List String) :
    delegationRevocation source query scope = .ok scope := by
  simp [delegationRevocation, h query scope]

theorem checkHopRevocation_clear {check : RevocationCheckFn}
    (h : (RevocationSource.check check).AnswersClear) (records : List (Aid × Uuid))
    (grants : List String) : checkHopRevocation ctx check records grants = .ok grants := by
  induction records with
  | nil => rfl
  | cons r records ih =>
    simp only [checkHopRevocation, delegationRevocation_clear h, mapErr_ok, ok_bind]
    exact ih

theorem checkSourceRevocation_clear (h : ctx.revocation.AnswersClear) (srcJti : Uuid)
    (scope : List String) : checkSourceRevocation ctx srcJti scope = .ok scope := by
  simp [checkSourceRevocation, delegationRevocation_clear h]

theorem checkEveryHop_clear (h : ctx.HopsClear) (records : List (Aid × Uuid))
    (grants : List String) : checkEveryHop ctx records grants = .ok grants := by
  unfold checkEveryHop
  cases hr : ctx.revocation with
  | check f =>
    obtain ⟨check, hc, hclear⟩ := h f hr
    simp [hc, checkHopRevocation_clear hclear]
  | failOpen => rfl
  | selfAttestation => rfl

namespace SoundHop

variable {signer : Signer} {token : String} {c : ChainedDelegationClaims}

theorem peekClaims {verifier : Aid} (hP : P.ReadsText) (h : SoundHop P verifier signer token c) :
    peekClaims P token = .ok c := by
  obtain ⟨key, hs⟩ := h.lawful
  exact peekClaims_signCompact hP hs h.writable h.times h.jti h.signed

theorem verifyHopJws (hP : P.ReadsText) (h : SoundHop P ctx.verifier signer token c)
    (hr : ctx.Resolves P signer.aid) : verifyHopJws P ctx token = .ok c := by
  obtain ⟨key, hs⟩ := h.lawful
  obtain ⟨resolver, manifest, hr, hm⟩ := hr
  rw [← h.iss] at hm
  exact verifyHopJws_signCompact hP hs h.writable h.times h.jti h.ver hr hm h.iss h.signed

theorem checkHopClaims (h : SoundHop P ctx.verifier signer token c) :
    checkHopClaims P ctx c = .ok () := by
  obtain ⟨key, hk, hj⟩ := h.cnf
  simp only [Aitp.checkHopClaims, bind_eq_ok, ensure_eq_ok, mapErr_eq_ok, exists_const]
  exact ⟨decide_eq_true h.aud, by simp [h.notSelf], by simp [h.scope], key, hk, by simp [hj]⟩

end SoundHop

theorem verifyRootVoucher_live {voucherToken : String} {v : GrantVoucherClaims} {delegator : Aid}
    (h : verifyVoucher P voucherToken ctx.verifier = .ok v) (hs : v.sub = delegator)
    (hn : ctx.now ≤ v.exp) : verifyRootVoucher P ctx voucherToken delegator = .ok v := by
  simp only [verifyRootVoucher, bind_eq_ok, mapErr_eq_ok, ensure_eq_ok, pure_eq_ok, exists_const]
  refine ⟨v, h, decide_eq_true hs, ?_, rfl⟩
  rw [Timestamp.isInThePast_eq_false.mpr hn]
  rfl

/-- A hop delegated from a voucher by the holder it entitles. -/
structure RootedHop (P : Primitives) (ctx : ChainVerifyContext) (voucherToken : String)
    (v : GrantVoucherClaims) (c : ChainedDelegationClaims) : Prop where
  root : verifyVoucher P voucherToken ctx.verifier = .ok v
  voucher : c.voucher = some voucherToken
  sub : v.sub = c.iss
  scope : ∀ g ∈ c.scope, g ∈ v.grants
  exp : c.exp ≤ v.exp

section

variable {signer : Signer} {token voucherToken : String} {v : GrantVoucherClaims}
  {c : ChainedDelegationClaims}

theorem checkFirstHop_rooted (h : RootedHop P ctx voucherToken v c) (hn : ctx.now ≤ c.exp) :
    checkFirstHop P ctx c = .ok v := by
  simp only [checkFirstHop, bind_eq_ok, okOr_eq_ok, ensure_eq_ok, checkScope_eq_ok, pure_eq_ok,
    exists_const]
  exact ⟨voucherToken, h.voucher, v, verifyRootVoucher_live h.root h.sub (hn.trans h.exp),
    decide_eq_true h.exp, h.scope, rfl⟩

theorem verifySingleHop_rooted (hP : P.ReadsText) (h : SoundHop P ctx.verifier signer token c)
    (hr : RootedHop P ctx voucherToken v c) (hm : ctx.Resolves P signer.aid)
    (hc : ctx.revocation.AnswersClear) (hn : ctx.now ≤ c.exp) :
    verifySingleHop P ctx token = .ok ⟨token, c, v, c.scope⟩ := by
  have hlive : (!c.exp.isInThePast ctx.now) = true := by
    rw [Timestamp.isInThePast_eq_false.mpr hn]
    rfl
  simp only [verifySingleHop, bind_eq_ok, ensure_eq_ok, okOr_eq_ok, checkScope_eq_ok, pure_eq_ok,
    exists_const]
  exact ⟨c, h.verifyHopJws hP hm, decide_eq_true h.aud, hlive, voucherToken, hr.voucher, v,
    verifyRootVoucher_live hr.root hr.sub (hn.trans hr.exp), decide_eq_true hr.exp, hr.scope, (),
    h.checkHopClaims, c.scope, checkSourceRevocation_clear hc _ _, rfl⟩

theorem checkNestedChain_carried {chain inner : List String} {i : ℕ} (hc : c.chain = some inner)
    (hh : c.chainHash = some (computeChainHash P inner)) (h : i < chain.length → chain.take i = inner) :
    checkNestedChain P chain i c = .ok () := by
  unfold checkNestedChain
  split_ifs with hi
  · simp [hc, hh, h hi, ensure]
  · rfl

/-- A hop that continues the state of the loop extends it. -/
theorem verifyHop_sound {chain : List String} {i : ℕ} {state : Option HopState} {jti : Uuid}
    (hP : P.ReadsText) (h : SoundHop P ctx.verifier signer token c)
    (hm : ctx.Resolves P signer.aid) (hj : c.jti = some jti)
    (hn : jti ∉ (seen state).map Prod.snd) (hl : ctx.now ≤ c.exp)
    (hv : checkContinuity P ctx c state = .ok v) (hc : checkNestedChain P chain i c = .ok ()) :
    verifyHop P ctx chain i token state = .ok ⟨v, c, seen state ++ [(c.iss, jti)]⟩ := by
  have hlive : (!c.exp.isInThePast ctx.now) = true := by
    rw [Timestamp.isInThePast_eq_false.mpr hl]
    rfl
  simp only [verifyHop, bind_eq_ok, okOr_eq_ok, ensure_eq_ok, pure_eq_ok, exists_const]
  exact ⟨c, h.verifyHopJws hP hm, (), h.checkHopClaims, jti, hj, by simpa [seen] using hn, hlive, v,
    hv, (), hc, rfl⟩

end

theorem verifyHops_append (chain : List String) (i : ℕ) (tokens tokens' : List String)
    (state : Option HopState) : verifyHops P ctx chain i (tokens ++ tokens') state =
      verifyHops P ctx chain i tokens state >>=
        verifyHops P ctx chain (i + tokens.length) tokens' := by
  induction tokens generalizing i state with
  | nil => rfl
  | cons token tokens ih =>
    simp only [List.cons_append, verifyHops, bind_assoc, List.length_cons]
    refine congrArg (_ >>= ·) (funext fun s => ?_)
    rw [ih, Nat.add_assoc, Nat.add_comm 1]

/-! ## Chains as they are built -/

/-- A token of `ChainedDelegationBuilder`, with the signer and the values it was built from. -/
structure Hop where
  signer : Signer
  delegatee : Aid
  scope : List String
  ttl : ℕ
  nowOverride : Option Timestamp
  jtiOverride : Option Uuid
  drawn : RandomV4
  clock : Timestamp
  token : String
  claims : ChainedDelegationClaims

/-- The setters of the builder. -/
def Hop.set (h : Hop) (b : ChainedDelegationBuilder) : ChainedDelegationBuilder :=
  { b with
    delegatee := some h.delegatee
    scope := h.scope
    ttl := h.ttl
    nowOverride := h.nowOverride
    jtiOverride := h.jtiOverride }

/-- The hop was built by a builder that was started so. -/
structure Hop.Built (P : Primitives) (h : Hop)
    (start : Except ChainedDelegationError ChainedDelegationBuilder) : Prop where
  built : ∃ b, start = .ok b ∧ (h.set b).draft P h.drawn h.clock = .ok h.claims ∧
    (h.set b).build P h.drawn h.clock = .ok h.token

/-- The signer of the hop keeps its contract, and the text of the hop's expiry reads back. -/
structure Hop.Signs (P : Primitives) (h : Hop) : Prop where
  lawful : ∃ key, h.signer.Lawful P key
  times : h.claims.exp.Exact

/-- The hops delegated from a voucher before the last one, and the last one: each extends the one
before it. -/
inductive Delegated (P : Primitives) (voucherToken : String) : List Hop → Hop → Prop where
  | root {h : Hop} : h.Built P (ChainedDelegationBuilder.rootedInVoucher P h.signer voucherToken) →
      Delegated P voucherToken [] h
  | extend {hs : List Hop} {h h' : Hop} : Delegated P voucherToken hs h →
      h'.Built P (ChainedDelegationBuilder.extendingPrior P h'.signer h.token) →
      Delegated P voucherToken (hs ++ [h]) h'

/-- A voucher as its issuer signed it. -/
structure SignedVoucher (P : Primitives) (issuer : Aid) (voucherToken : String)
    (v : GrantVoucherClaims) : Prop where
  signed : ∃ signer key, signer.Lawful P key ∧ signer.aid = issuer ∧
    signCompact signer typGrantVoucher v.toValue = .ok voucherToken
  writable : v.Writable
  times : v.iat.Exact ∧ v.exp.Exact
  iss : v.iss = issuer
  verified : verifyVoucher P voucherToken issuer = .ok v

theorem SignedVoucher.rereadTimes {issuer : Aid} {voucherToken : String} {v : GrantVoucherClaims}
    (hP : P.ReadsText) (h : SignedVoucher P issuer voucherToken v) :
    P.rereadTime v.iat = some v.iat ∧ P.rereadTime v.exp = some v.exp :=
  ⟨h.times.1.rereadTime hP, h.times.2.rereadTime hP⟩

/-- What the last of the hops owes to those before it. -/
structure LastHop (P : Primitives) (ctx : ChainVerifyContext) (voucherToken : String)
    (v : GrantVoucherClaims) (hs : List Hop) (last : Hop) : Prop where
  sound : SoundHop P ctx.verifier last.signer last.token last.claims
  carried : last.claims.chain.getD [] = hs.map Hop.token
  rooted : hs = [] → RootedHop P ctx voucherToken v last.claims ∧ last.claims.chain = none
  hashed : hs ≠ [] → last.claims.chain = some (hs.map Hop.token) ∧
    last.claims.chainHash = some (computeChainHash P (hs.map Hop.token)) ∧ last.claims.jti.isSome = true

section

variable {voucherToken : String} {v : GrantVoucherClaims} {hs : List Hop} {last h h' : Hop}

theorem lastHop_root (hP : P.ReadsText) (hv : SignedVoucher P ctx.verifier voucherToken v)
    (hl : h.Signs P)
    (hb : h.Built P (ChainedDelegationBuilder.rootedInVoucher P h.signer voucherToken)) :
    LastHop P ctx voucherToken v [] h := by
  obtain ⟨b, hstart, hd, ht⟩ := hb
  obtain ⟨signer, key, hs, -, hsig⟩ := hv.signed
  simp only [ChainedDelegationBuilder.rootedInVoucher, bind_eq_ok, mapErr_eq_ok, pure_eq_ok,
    peekVoucher_signCompact hP hs hv.writable (hv.rereadTimes hP) hsig] at hstart
  obtain ⟨_, ⟨rfl, hsub⟩, rfl⟩ := hstart
  obtain ⟨hsound, hscope, hexp, hties⟩ := ChainedDelegationBuilder.draft_ok hd ht hl.lawful hl.times
  simp only [Hop.set, ChainedDelegationBuilder.under, Authority.ties, Ties.mk.injEq] at hties
  obtain ⟨hvoucher, -, hchain, -⟩ := hties
  have hsound : SoundHop P v.iss h.signer h.token h.claims := hsound
  rw [hv.iss] at hsound
  refine ⟨hsound, by rw [hchain]; rfl, ?_, fun hne => absurd rfl hne⟩
  intro _
  exact ⟨⟨hv.verified, hvoucher, hsub.trans hsound.iss.symm, hscope, hexp⟩, hchain⟩

/-- An extension continues the hop that it extends. -/
theorem lastHop_extend (hP : P.ReadsText) (hl : h'.Signs P)
    (hlast : LastHop P ctx voucherToken v hs h)
    (hb : h'.Built P (ChainedDelegationBuilder.extendingPrior P h'.signer h.token)) :
    LastHop P ctx voucherToken v (hs ++ [h]) h' ∧ checkNextHop h.claims h'.claims = .ok () ∧
      h'.claims.exp ≤ h.claims.exp ∧ h.claims.jti.isSome = true := by
  obtain ⟨b, hstart, hd, ht⟩ := hb
  obtain ⟨key, hs⟩ := hlast.sound.lawful
  obtain ⟨rfl, hsub, hj⟩ := (extendingPrior_signCompact hP hs hlast.sound.writable
    hlast.sound.times hlast.sound.signed).mp hstart
  obtain ⟨hsound, hscope, hexp, hties⟩ := ChainedDelegationBuilder.draft_ok hd ht hl.lawful
    hl.times
  simp only [Hop.set, ChainedDelegationBuilder.under, Authority.ties, hlast.carried,
    Ties.mk.injEq] at hties
  obtain ⟨hvoucher, hjti, hchain, hhash⟩ := hties
  have hsound : SoundHop P h.claims.aud h'.signer h'.token h'.claims := hsound
  rw [hlast.sound.aud] at hsound
  have hnext : checkNextHop h.claims h'.claims = .ok () := by
    simp only [checkNextHop, bind_eq_ok, ensure_eq_ok, checkScope_eq_ok, exists_const]
    exact ⟨by simp [hvoucher], decide_eq_true (hsound.iss.trans hsub.symm), decide_eq_true hexp,
      hscope⟩
  refine ⟨⟨hsound, by simp [hchain], fun he => absurd he (by simp), fun _ => ⟨?_, ?_, ?_⟩⟩, hnext,
    hexp, hj⟩
  · simp [hchain]
  · simp [hhash]
  · simp [hjti]

theorem Delegated.lastHop (hP : P.ReadsText) (hv : SignedVoucher P ctx.verifier voucherToken v)
    (hd : Delegated P voucherToken hs last)
    (hl : ∀ h ∈ hs ++ [last], h.Signs P) : LastHop P ctx voucherToken v hs last := by
  induction hd with
  | root hb => exact lastHop_root hP hv (hl _ (by simp)) hb
  | extend hd hb ih =>
    have hlast := ih fun h hm => hl h (List.mem_append_left _ hm)
    exact (lastHop_extend hP (hl _ (by simp)) hlast hb).1

/-- The loop of the verifier follows the construction: after the hops built so far, it holds the
last of them and the `jti` of each. -/
theorem Delegated.verifyHops (hP : P.ReadsText)
    (hv : SignedVoucher P ctx.verifier voucherToken v) (hd : Delegated P voucherToken hs last)
    (hl : ∀ h ∈ hs ++ [last], h.Signs P)
    (hm : ∀ h ∈ hs ++ [last], ctx.Resolves P h.signer.aid)
    (hn : ((hs ++ [last]).map fun h => h.claims.jti).Nodup) (hj : last.claims.jti.isSome = true)
    (hx : ctx.now ≤ last.claims.exp) {chain : List String}
    (hc : ∀ i ≤ hs.length, i < chain.length →
      chain.take i = ((hs ++ [last]).map Hop.token).take i) :
    ∃ records, verifyHops P ctx chain 0 ((hs ++ [last]).map Hop.token) none =
        .ok (some ⟨v, last.claims, records⟩) ∧
      records.map (fun r => some r.2) = (hs ++ [last]).map fun h => h.claims.jti := by
  induction hd with
  | @root h hb =>
    have hlast := lastHop_root hP hv (hl h (by simp)) hb
    obtain ⟨hroot, hchain⟩ := hlast.rooted rfl
    obtain ⟨jti, hjti⟩ := Option.isSome_iff_exists.mp hj
    have hnest : checkNestedChain P chain 0 h.claims = .ok () := by
      simp [checkNestedChain, hchain]
    have hfirst : checkContinuity P ctx h.claims none = .ok v := checkFirstHop_rooted hroot hx
    have hhop := verifyHop_sound hP hlast.sound (hm h (by simp)) hjti (by simp [seen]) hx hfirst hnest
    exact ⟨[(h.claims.iss, jti)], by simp [Aitp.verifyHops, hhop, seen], by simp [hjti]⟩
  | @extend hs h h' hd hb ih =>
    have hl₀ : ∀ g ∈ hs ++ [h], g.Signs P :=
      fun g hg => hl g (List.mem_append_left _ hg)
    have hlast := hd.lastHop hP hv hl₀
    obtain ⟨hlast', hnext, hexp, hj₀⟩ := lastHop_extend hP (hl h' (by simp)) hlast hb
    have hlen : ((hs ++ [h]).map Hop.token).length = (hs ++ [h]).length := List.length_map _
    rw [List.map_append, List.nodup_append] at hn
    obtain ⟨hn₀, -, hdisj⟩ := hn
    obtain ⟨records, hrun, hrec⟩ := ih hl₀ (fun g hg => hm g (List.mem_append_left _ hg)) hn₀ hj₀
      (hx.trans hexp) (fun i hi hlt => by
        rw [hc i (by simp; omega) hlt, @List.map_append _ _ _ (hs ++ [h]),
          List.take_append_of_le_length (by simp; omega)])
    obtain ⟨jti, hjti⟩ := Option.isSome_iff_exists.mp hj
    have hseen : jti ∉ (seen (some ⟨v, h.claims, records⟩)).map Prod.snd := by
      intro hmem
      obtain ⟨r, hr, rfl⟩ := List.mem_map.mp hmem
      have hin : some r.2 ∈ (hs ++ [h]).map fun h => h.claims.jti := by
        rw [← hrec]
        exact List.mem_map_of_mem (f := fun r => some r.2) hr
      exact hdisj _ hin _ (by simp) hjti.symm
    have hnest : checkNestedChain P chain (hs ++ [h]).length h'.claims = .ok () := by
      obtain ⟨hchain, hhash, -⟩ := hlast'.hashed (by simp)
      refine checkNestedChain_carried hchain hhash fun hlt => ?_
      rw [hc _ (by simp) hlt, @List.map_append _ _ _ (hs ++ [h]), ← hlen, List.take_left]
    have hcont : checkContinuity P ctx h'.claims (some ⟨v, h.claims, records⟩) = .ok v := by
      simp [checkContinuity, hnext]
    have hhop := verifyHop_sound hP hlast'.sound (hm h' (by simp)) hjti hseen hx hcont hnest
    refine ⟨records ++ [(h'.claims.iss, jti)], ?_, ?_⟩
    · rw [List.map_append, verifyHops_append, hrun, ok_bind, Nat.zero_add, hlen]
      simp only [List.map_cons, List.map_nil, Aitp.verifyHops, hhop, ok_bind]
      rfl
    · simp [hrec, hjti]

/-- A token delegated from a voucher, however often it was extended, is accepted by the issuer of
the voucher until it expires. -/
theorem Delegated.accepted (hP : P.ReadsText)
    (hv : SignedVoucher P ctx.verifier voucherToken v) (hd : Delegated P voucherToken hs last)
    (hl : ∀ h ∈ hs ++ [last], h.Signs P)
    (hm : ∀ h ∈ hs ++ [last], ctx.Resolves P h.signer.aid)
    (hn : ((hs ++ [last]).map fun h => h.claims.jti).Nodup)
    (hb : hs.length + 2 ≤ ctx.maxDelegationHops) (hr : ctx.revocation.AnswersClear)
    (hh : ctx.HopsClear) (hx : ctx.now ≤ last.claims.exp) :
    verifyChainedDelegation P ctx last.token =
      .ok ⟨last.token, last.claims, v, last.claims.scope⟩ := by
  have hlast := hd.lastHop hP hv hl
  have hopt : checkOptIn ctx last.claims = .ok () := by
    rw [checkOptIn, if_neg (by omega)]
  have hmap : (last.claims.chain.map List.length).getD 0 = hs.length := by
    have hc := congrArg List.length hlast.carried
    cases hch : last.claims.chain <;> simpa [hch] using hc
  simp only [verifyChainedDelegation, hlast.sound.peekClaims hP, ok_bind, hopt, hmap]
  by_cases he : hs = []
  · subst he
    exact verifySingleHop_rooted hP hlast.sound (hlast.rooted rfl).1 (hm last (by simp)) hr hx
  · obtain ⟨hchain, hhash, hj⟩ := hlast.hashed he
    have hlen : (hs.map Hop.token).length = hs.length := List.length_map _
    have htake : ∀ i ≤ hs.length, i < (hs.map Hop.token).length →
        (hs.map Hop.token).take i = ((hs ++ [last]).map Hop.token).take i := by
      intro i hi _
      rw [List.map_append, List.take_append_of_le_length (by omega)]
    obtain ⟨records, hrun, -⟩ := hd.verifyHops hP hv hl hm hn hj hx htake
    rw [List.map_append] at hrun
    rw [if_neg (by simpa using he)]
    simp only [verifyMultiHop, hlast.carried, hhash, okOr_some, ok_bind, bind_eq_ok, ensure_eq_ok,
      okOr_eq_ok, pure_eq_ok, exists_const]
    exact ⟨decide_eq_true (by omega), by simp, _, hrun, _, rfl, _, checkSourceRevocation_clear hr _ _,
      _, checkEveryHop_clear hh _ _, rfl⟩

end

/-! ## The stable builder -/

namespace Delegation

/-- A token of `DelegationBuilder`, with the signer and the values it was built from. -/
structure SingleHop where
  signer : Signer
  delegatee : Aid
  scope : List String
  ttl : ℕ
  nowOverride : Option Timestamp
  clock : Timestamp
  issued : IssuedDelegation

/-- The setters of the builder. -/
def SingleHop.set (h : SingleHop) (b : DelegationBuilder) : DelegationBuilder :=
  { b with
    delegatee := some h.delegatee
    scope := h.scope
    ttl := h.ttl
    nowOverride := h.nowOverride }

/-- The hop was built from the voucher. -/
structure SingleHop.Built (P : Primitives) (h : SingleHop) (voucherToken : String) : Prop where
  built : ∃ b, DelegationBuilder.rootedInVoucher P h.signer voucherToken = .ok b ∧
    (h.set b).build P h.clock = .ok h.issued

/-- The signer of the hop keeps its contract, and the text of the hop's expiry reads back. -/
structure SingleHop.Signs (P : Primitives) (h : SingleHop) : Prop where
  lawful : ∃ key, h.signer.Lawful P key
  times : h.issued.claims.exp.Exact

theorem DelegationClaims.toValue_lift (c : DelegationClaims) : c.lift.toValue = c.toValue := by
  cases hv : c.voucher <;> cases hx : c.ext <;>
    simp [ChainedDelegationClaims.toValue, toValue, lift, chainedDelegationClaimsFields,
      delegationClaimsFields, Serde.written, hv, hx]

theorem DelegationClaims.decode_reread {c : DelegationClaims} (h : c.lift.Writable) :
    decodeDelegationClaims (P.reread c.toValue.canon) =
      (P.rereadTime c.exp).bind fun exp => some { c with exp := exp } := by
  have hs := Serde.optional_reread P Json.asStr .str fun s => ⟨by simp, rfl⟩
  have hx : c.ext = none := h.ext
  unfold decodeDelegationClaims toValue
  rw [structFields_reread P (by decide) rfl (by simp [delegationClaimsFields])]
  simp only [List.map_cons, List.map_nil, Option.map_some, hs]
  simp [Json.asStr, hx, Serde.optional]
  rw [← hx]
  rfl

theorem DelegationClaims.checkSingleHopMembers_toValue (c : DelegationClaims) :
    checkSingleHopMembers (P.reread c.lift.toValue.canon) = .ok () := by
  have hf : (chainedDelegationClaimsFields.map FieldSpec.name).Nodup := by decide
  have hc : c.lift.toValue.canon.get "chain" = none :=
    Serde.get_written hf rfl (show chainedDelegationClaimsFields[9]? = some _ from rfl)
  have hj : c.lift.toValue.canon.get "jti" = none := c.lift.get_jti
  have hh : c.lift.toValue.canon.get "chain_hash" = none :=
    Serde.get_written hf rfl (show chainedDelegationClaimsFields[10]? = some _ from rfl)
  have hr := get_reread P (Json.isObject_canon c.lift.toValue)
  simp only [checkSingleHopMembers, hr, hc, hj, hh, forEach]
  rfl

section

variable {signer : Signer} {token voucherToken : String} {v : GrantVoucherClaims}
  {c : DelegationClaims} {h : SingleHop}

theorem peekClaims_sound {verifier : Aid} (hP : P.ReadsText)
    (h : SoundHop P verifier signer token c.lift) : peekClaims P token = .ok c := by
  obtain ⟨key, hs⟩ := h.lawful
  have ht : P.rereadTime c.exp = some c.exp := h.times.rereadTime hP
  have hd : decodeDelegationClaims (P.reread c.lift.toValue.canon) = some c := by
    rw [c.toValue_lift, DelegationClaims.decode_reread h.writable, ht]
    rfl
  rw [single_peekClaims_eq, openPayload_signCompact hP hs h.writable h.signed, ok_bind]
  simp only [singleReading, if_true, c.checkSingleHopMembers_toValue, ok_bind, readFirst_whole, hd]
  rfl

/-- A hop built from a voucher is sound, and rooted in it. -/
theorem SingleHop.Built.sound (hP : P.ReadsText)
    (hv : SignedVoucher P ctx.verifier voucherToken v) (hl : h.Signs P)
    (hb : h.Built P voucherToken) :
    SoundHop P ctx.verifier h.signer h.issued.token h.issued.claims.lift ∧
      RootedHop P ctx voucherToken v h.issued.claims.lift := by
  obtain ⟨b, hstart, hbuild⟩ := hb
  obtain ⟨signer, key, hs, -, hsig⟩ := hv.signed
  simp only [DelegationBuilder.rootedInVoucher, bind_eq_ok, pure_eq_ok,
    peekVoucher_signCompact hP hs hv.writable (hv.rereadTimes hP) hsig] at hstart
  obtain ⟨_, ⟨rfl, hsub⟩, rfl⟩ := hstart
  simp only [DelegationBuilder.build, DelegationBuilder.draft, bind_eq_ok, okOr_eq_ok, ensure_eq_ok,
    mapErr_eq_ok, forEach_eq_ok, pure_eq_ok, exists_const, Bool.not_eq_true',
    decide_eq_false_iff_not, List.contains_iff_mem] at hbuild
  obtain ⟨claims, ⟨delegatee, -, hne, hself, hscope, key', hk, rfl⟩, token, ht, he⟩ := hbuild
  have hx := hl.times
  rw [← he] at hx ⊢
  rw [← DelegationClaims.toValue_lift] at ht
  constructor
  · exact {
      lawful := hl.lawful
      signed := ht
      writable := ⟨hx.fits, rfl⟩
      times := hx
      ver := rfl
      iss := rfl
      aud := hv.iss
      notSelf := hself
      scope := List.isEmpty_eq_false_iff.mp hne
      cnf := ⟨key', hk, rfl⟩
      jti := by
        intro u hu
        exact absurd hu (by simp [DelegationClaims.lift]) }
  · exact ⟨hv.verified, rfl, hsub, hscope, cappedExpiry_le _ _ _⟩

end

/-- A verifier of single hops accepts a hop built from its voucher while the hop lives. -/
theorem verifyDelegation_built {sctx : DelegationVerifyContext} {signer : Signer}
    {token voucherToken : String} {v : GrantVoucherClaims} {c : DelegationClaims}
    (hP : P.ReadsText) (h : SoundHop P sctx.verifier signer token c.lift)
    (hr : RootedHop P (sctx.chained none) voucherToken v c.lift)
    (hm : (sctx.chained none).Resolves P signer.aid) (hc : sctx.revocation.AnswersClear)
    (hn : sctx.now ≤ c.exp) :
    verifyDelegation P sctx token = .ok ⟨token, c, v, c.scope⟩ := by
  have hs := peekClaims_sound hP h
  have hsingle : Aitp.verifySingleHop P (sctx.chained none) token =
      .ok ⟨token, c.lift, v, c.lift.scope⟩ :=
    verifySingleHop_rooted hP h hr hm hc hn
  rw [verifySingleHop_lift hs (h.peekClaims hP)] at hsingle
  simp only [verifyDelegation, hs, ok_bind]
  cases hv : verifySingleHop P sctx token with
  | error e => simp [hv, Except.map] at hsingle
  | ok w =>
    simp only [hv, mapErr_ok, Except.map, Except.ok.injEq] at hsingle
    obtain ⟨token', ⟨ver, iss, sub, aud, scope, exp, jkt, voucher, ext⟩, v', effective⟩ := w
    cases hsingle
    rfl

/-- A verifier of chains accepts it too, whatever its budget. -/
theorem verifyChainedDelegation_built {signer : Signer} {token voucherToken : String}
    {v : GrantVoucherClaims} {c : DelegationClaims} (hP : P.ReadsText)
    (h : SoundHop P ctx.verifier signer token c.lift)
    (hr : RootedHop P ctx voucherToken v c.lift) (hm : ctx.Resolves P signer.aid)
    (hc : ctx.revocation.AnswersClear) (hn : ctx.now ≤ c.exp) :
    verifyChainedDelegation P ctx token = .ok ⟨token, c.lift, v, c.scope⟩ := by
  have hopt : checkOptIn ctx c.lift = .ok () := by
    unfold checkOptIn
    split_ifs
    · rfl
    · rfl
  simp only [verifyChainedDelegation, h.peekClaims hP, ok_bind, hopt]
  exact verifySingleHop_rooted hP h hr hm hc hn

/-- The verifier of single hops goes by the expiry that it reads in the token. -/
theorem verifyDelegation_read {sctx : DelegationVerifyContext} {signer : Signer} {token : String}
    {c : DelegationClaims} {w : VerifiedDelegation} (hP : P.ReadsText) (hw : c.lift.Writable)
    (h : signCompact signer typDelegation c.toValue = .ok token)
    (hv : verifyDelegation P sctx token = .ok w) :
    P.rereadTime c.exp = some w.claims.exp ∧ sctx.now ≤ w.claims.exp := by
  simp only [verifyDelegation, verifySingleHop, verifyHopJws, bind_eq_ok, ensure_eq_ok, okOr_eq_ok,
    mapErr_eq_ok, pure_eq_ok, exists_const, readClaims_eq_ok, Bool.not_eq_true',
    Timestamp.isInThePast_eq_false] at hv
  obtain ⟨_, -, claims, ⟨_, -, manifest, -, payload, hp, _, hd, -, rfl⟩, -, hlive, _, -, _, -, -, _,
    -, _, -, _, -, rfl⟩ := hv
  have hu := verifyCompact_ok hp
  obtain rfl := payload_of_signCompact h hu
  rw [← c.toValue_lift, hP.document_jcs (hw.readable_toValue hP), Option.bind_some, c.toValue_lift,
    DelegationClaims.decode_reread hw] at hd
  obtain ⟨exp, he, hc⟩ := Option.bind_eq_some_iff.mp hd
  obtain rfl := Option.some.inj hc
  exact ⟨he, hlive⟩

end Delegation

/-! ## Round trips -/

/-- The issuer of a voucher verifies a delegation from it before it expires: it resolves the
manifest of every delegator, and the token it issued is not revoked. -/
structure ChainVerifyContext.Expects (P : Primitives) (ctx : ChainVerifyContext) (issuer : Aid)
    (delegators : List Aid) (exp : Timestamp) : Prop where
  verifier : ctx.verifier = issuer
  resolves : ∀ aid ∈ delegators, ctx.Resolves P aid
  clear : ctx.revocation.AnswersClear
  live : ctx.now ≤ exp

theorem signedVoucher_build {b : TctBuilder} {clock : Timestamp} {key : VerifyingKey}
    {issued : IssuedTct} {voucherToken : String} (hP : P.ReadsText)
    (hw : b.WellTyped P clock) (hs : b.issuerKey.Lawful P key)
    (hb : b.build P clock = .ok issued) (hx : issued.claims.Exact)
    (hv : issued.voucher = some voucherToken) :
    SignedVoucher P b.issuerKey.aid voucherToken issued.claims.voucher := by
  obtain ⟨hsig, hwr, hiss, -⟩ := signCompact_voucher_build hw hb hv
  exact ⟨⟨b.issuerKey, key, hs, rfl, hsig⟩, hwr, hx, hiss, verifyVoucher_build hP hw hs hb hx hv⟩

/-- From a voucher that was issued with a token, every chain that was built is accepted with its
last claims, and so is a token of the stable builder by either verifier. -/
theorem delegation_roundTrip {b : TctBuilder} {clock : Timestamp} {key : VerifyingKey}
    {issued : IssuedTct} {voucherToken : String} (hP : P.ReadsText)
    (hw : b.WellTyped P clock) (hs : b.issuerKey.Lawful P key)
    (hb : b.build P clock = .ok issued) (hx : issued.claims.Exact)
    (hv : issued.voucher = some voucherToken) :
    (∀ (hs : List Hop) (last : Hop) (ctx : ChainVerifyContext),
      Delegated P voucherToken hs last → (∀ h ∈ hs ++ [last], h.Signs P) →
      ((hs ++ [last]).map fun h => h.claims.jti).Nodup →
      ctx.Expects P b.issuerKey.aid ((hs ++ [last]).map fun h => h.signer.aid) last.claims.exp →
      ctx.HopsClear → hs.length + 2 ≤ ctx.maxDelegationHops →
        verifyChainedDelegation P ctx last.token =
          .ok ⟨last.token, last.claims, issued.claims.voucher, last.claims.scope⟩) ∧
      ∀ h : Delegation.SingleHop, h.Built P voucherToken → h.Signs P →
        (∀ ctx : Delegation.DelegationVerifyContext,
          (ctx.chained none).Expects P b.issuerKey.aid [h.signer.aid] h.issued.claims.exp →
            Delegation.verifyDelegation P ctx h.issued.token =
              .ok ⟨h.issued.token, h.issued.claims, issued.claims.voucher, h.issued.claims.scope⟩) ∧
        ∀ ctx : ChainVerifyContext,
          ctx.Expects P b.issuerKey.aid [h.signer.aid] h.issued.claims.exp →
            verifyChainedDelegation P ctx h.issued.token =
              .ok ⟨h.issued.token, h.issued.claims.lift, issued.claims.voucher,
                h.issued.claims.scope⟩ := by
  have hvoucher := signedVoucher_build hP hw hs hb hx hv
  constructor
  · intro hs last ctx hd hl hn he hhops hbudget
    have hm : ∀ h ∈ hs ++ [last], ctx.Resolves P h.signer.aid :=
      fun h hm => he.resolves _ (List.mem_map_of_mem hm)
    exact hd.accepted hP (he.verifier ▸ hvoucher) hl hm hn hbudget he.clear hhops he.live
  · intro h hbuilt hl
    constructor
    · intro ctx he
      have hctx : SignedVoucher P (ctx.chained none).verifier voucherToken issued.claims.voucher :=
        he.verifier ▸ hvoucher
      obtain ⟨hsound, hroot⟩ := hbuilt.sound hP hctx hl
      exact Delegation.verifyDelegation_built hP hsound hroot (he.resolves _ (by simp))
        he.clear he.live
    · intro ctx he
      obtain ⟨hsound, hroot⟩ := hbuilt.sound hP (he.verifier ▸ hvoucher) hl
      exact Delegation.verifyChainedDelegation_built hP hsound hroot (he.resolves _ (by simp))
        he.clear he.live

/-! ## A chain of two hops -/

/-- A builder whose values pass its checks builds, when its signer does not fail. -/
theorem ChainedDelegationBuilder.exists_build {b : ChainedDelegationBuilder} (drawn : RandomV4)
    (clock : Timestamp) {delegatee : Aid} {key signerKey : VerifyingKey}
    (hd : b.delegatee = some delegatee) (hne : b.scope ≠ []) (hself : b.issuerKey.aid ≠ delegatee)
    (hscope : ∀ g ∈ b.scope, g ∈ b.authority.caps.2.1)
    (hj : ∀ u, b.jtiOverride = some u → u.checkV4 = .ok ())
    (hk : VerifyingKey.fromAid P delegatee = .ok key) (hs : b.issuerKey.Total P signerKey) :
    ∃ c token, b.draft P drawn clock = .ok c ∧ b.build P drawn clock = .ok token ∧
      c.sub = delegatee ∧ c.scope = b.scope ∧
        c.exp = cappedExpiry (b.nowOverride.getD clock) b.ttl b.authority.caps.2.2 ∧
        c.jti = (b.authority.ties P b.jtiOverride drawn).jti := by
  obtain ⟨c, hc, hfacts⟩ : ∃ c, b.draft P drawn clock = .ok c ∧ c.sub = delegatee ∧
      c.scope = b.scope ∧
        c.exp = cappedExpiry (b.nowOverride.getD clock) b.ttl b.authority.caps.2.2 ∧
        c.jti = (b.authority.ties P b.jtiOverride drawn).jti := by
    simp only [draft, bind_eq_ok, okOr_eq_ok, ensure_eq_ok, mapErr_eq_ok, pure_eq_ok, exists_const,
      checkScope_eq_ok, ifPresent_eq_ok]
    exact ⟨_, ⟨delegatee, hd, by simpa using hne, by simpa using hself, hscope, (), hj, key, hk,
      rfl⟩, rfl, rfl, rfl, rfl⟩
  obtain ⟨token, ht⟩ : ∃ token, signCompact b.issuerKey typDelegation c.toValue = .ok token :=
    hs.signCompact (by decide) _
  exact ⟨c, token, hc, by simp [build, hc, ht], hfacts⟩

namespace Toy

/-- Agent 0 resolves every manifest and takes chains of two hops. -/
def chainContext : ChainVerifyContext where
  verifier := agent 0
  now := 50
  maxDelegationHops := 3
  revocation := .failOpen
  hopRevocationCheck := none
  issuerManifests := some fun aid => some (manifest aid ["demo.echo"] [] 0)
  insecureLocalhost := false

theorem resolves_chainContext (n : Fin 4) : chainContext.Resolves primitives (agent n) :=
  ⟨_, _, rfl, resolveVerifiedManifest_manifest n (by decide) (by decide) (by decide)
    (show (50 : Timestamp) ≤ Timestamp.saturatingAdd 0 defaultManifestTtl by decide)⟩

/-- A hop by an agent before it is built: its delegatee, its `jti` and how it is started. -/
def hopBuilder (issuer delegatee : Fin 4) (jti : Fin 16) (authority : Authority) :
    ChainedDelegationBuilder where
  issuerKey := signer (agent issuer)
  authority := authority
  delegatee := some (agent delegatee)
  scope := ["demo.echo"]
  ttl := 100
  nowOverride := some 0
  jtiOverride := some (uuid jti)

/-- The hop that was built so. -/
def builtHop (issuer delegatee : Fin 4) (jti : Fin 16) (token : String)
    (claims : ChainedDelegationClaims) : Hop where
  signer := signer (agent issuer)
  delegatee := agent delegatee
  scope := ["demo.echo"]
  ttl := 100
  nowOverride := some 0
  jtiOverride := some (uuid jti)
  drawn := ⟨uuid 0, checkV4_uuid 0⟩
  clock := 0
  token := token
  claims := claims

/-- An agent delegates what an authority confers to another. -/
theorem exists_builtHop (issuer delegatee : Fin 4) (jti : Fin 16) {authority : Authority}
    (hne : agent issuer ≠ agent delegatee) (hg : authority.caps.2.1 = ["demo.echo"])
    (hx : authority.caps.2.2 = 100)
    {start : Except ChainedDelegationError ChainedDelegationBuilder}
    (hs : start = .ok (.under (signer (agent issuer)) authority)) : ∃ h : Hop,
      h.Built primitives start ∧ h.signer = signer (agent issuer) ∧
        h.claims.sub = agent delegatee ∧ h.claims.scope = ["demo.echo"] ∧ h.claims.exp = 100 ∧
        h.claims.jti = some (uuid jti) := by
  have hj : ∀ u, (hopBuilder issuer delegatee jti authority).jtiOverride = some u →
      u.checkV4 = .ok () := by
    rintro u ⟨⟩
    exact checkV4_uuid jti
  obtain ⟨c, token, hc, ht, hsub, hscope, hexp, hjti⟩ :=
    ChainedDelegationBuilder.exists_build ⟨uuid 0, checkV4_uuid 0⟩ 0
      (show (hopBuilder issuer delegatee jti authority).delegatee = some (agent delegatee) from rfl)
      (List.cons_ne_nil _ _) hne (fun g hm => hg ▸ hm) hj (signer_lawful (agent delegatee)).1
      (signer_total (agent issuer))
  refine ⟨builtHop issuer delegatee jti token c, ⟨_, hs, hc, ht⟩, rfl, hsub, hscope, ?_, ?_⟩
  · have he : c.exp = cappedExpiry 0 100 authority.caps.2.2 := hexp
    rw [hx] at he
    exact he.trans (by decide)
  · refine hjti.trans ?_
    cases authority <;> rfl

end Toy

open Toy in
/-- Agent 1 delegates what agent 0 granted to it, agent 2 delegates that on, and agent 0 takes the
chain. -/
theorem delegation_roundTrip_toy : ∃ issued voucherToken first last,
    tctBuilder.build primitives 0 = .ok issued ∧ issued.voucher = some voucherToken ∧
      Delegated primitives voucherToken [first] last ∧ last.claims.sub = agent 3 ∧
      verifyChainedDelegation primitives chainContext last.token =
        .ok ⟨last.token, last.claims, issued.claims.voucher, ["demo.echo"]⟩ := by
  obtain ⟨d, hd, hc⟩ := draft_tctBuilder
  obtain ⟨issued, hb, hi⟩ := TctBuilder.exists_build (signer_total (agent 0)) hd
  obtain ⟨voucherToken, hv⟩ := Option.isSome_iff_exists.mp
    (isSome_voucher_build wellTyped_tctBuilder rfl hb)
  have hclaims : issued.claims = tctBuilder.claims primitives (agent 1) (agentKey 1) (uuid 1) 0 :=
    hi.trans hc
  have hx : issued.claims.Exact := by
    rw [hclaims]
    exact ⟨show Timestamp.Exact 0 by decide, show Timestamp.Exact 100 by decide⟩
  have hsv := signedVoucher_build readsText wellTyped_tctBuilder (signer_lawful _) hb hx hv
  obtain ⟨hsig, -, -, -⟩ := signCompact_voucher_build wellTyped_tctBuilder hb hv
  have hroot : ChainedDelegationBuilder.rootedInVoucher primitives (signer (agent 1)) voucherToken =
      .ok (.under (signer (agent 1)) (.voucher voucherToken issued.claims.voucher)) := by
    simp only [ChainedDelegationBuilder.rootedInVoucher, bind_eq_ok, mapErr_eq_ok, pure_eq_ok]
    refine ⟨_, (peekVoucher_signCompact readsText (signer_lawful _) hsv.writable
      (hsv.rereadTimes readsText) hsig).mpr ⟨rfl, ?_⟩, rfl⟩
    rw [hclaims]
    rfl
  obtain ⟨first, hfirst, hs₁, hsub₁, hscope₁, hexp₁, hj₁⟩ := exists_builtHop 1 2 1
    (by decide +kernel) (by rw [hclaims]; rfl) (by rw [hclaims]; rfl) hroot
  have hl₁ : first.Signs primitives :=
    ⟨⟨_, hs₁ ▸ signer_lawful (agent 1)⟩, by rw [hexp₁]; decide⟩
  rw [← hs₁] at hfirst
  have hlast : LastHop primitives chainContext voucherToken issued.claims.voucher [] first :=
    lastHop_root readsText hsv hl₁ hfirst
  have hext : ChainedDelegationBuilder.extendingPrior primitives (signer (agent 2)) first.token =
      .ok (.under (signer (agent 2)) (.prior first.token first.claims)) :=
    (extendingPrior_signCompact readsText hl₁.lawful.choose_spec hlast.sound.writable
      hlast.sound.times hlast.sound.signed).mpr ⟨rfl, hsub₁, by rw [hj₁]; rfl⟩
  have hg₂ : (Authority.prior first.token first.claims).caps.2.1 = ["demo.echo"] := hscope₁
  have hx₂ : (Authority.prior first.token first.claims).caps.2.2 = 100 := hexp₁
  obtain ⟨last, hlastBuilt, hs₂, hsub₂, hscope₂, hexp₂, hj₂⟩ := exists_builtHop 2 3 2
    (by decide +kernel) hg₂ hx₂ hext
  rw [← hs₂] at hlastBuilt
  have hd : Delegated primitives voucherToken ([] ++ [first]) last :=
    .extend (.root hfirst) hlastBuilt
  have hall : ∀ h ∈ [first] ++ [last], h.Signs primitives := by
    simp only [List.singleton_append, List.forall_mem_cons, List.not_mem_nil, false_implies,
      implies_true, and_true]
    exact ⟨hl₁, ⟨_, hs₂ ▸ signer_lawful (agent 2)⟩, by rw [hexp₂]; decide⟩
  have hexpects : chainContext.Expects primitives (agent 0)
      (([first] ++ [last]).map fun h => h.signer.aid) last.claims.exp := by
    refine ⟨rfl, ?_, fun _ _ => rfl, ?_⟩
    · simp only [List.singleton_append, List.map_cons, List.map_nil, hs₁, hs₂, List.forall_mem_cons,
        List.not_mem_nil, false_implies, implies_true, and_true]
      exact ⟨resolves_chainContext 1, resolves_chainContext 2⟩
    · rw [hexp₂]
      exact show (50 : Timestamp) ≤ 100 by decide
  have hacc := (delegation_roundTrip readsText wellTyped_tctBuilder (signer_lawful _) hb hx hv).1
    [first] last chainContext hd hall
    (by simp only [List.singleton_append, List.map_cons, List.map_nil, hj₁, hj₂]; decide)
    hexpects (fun _ hf => by simp [chainContext] at hf) le_rfl
  rw [hscope₂] at hacc
  exact ⟨issued, voucherToken, first, last, hb, hv, hd, hsub₂, hacc⟩

namespace Toy

/-- A token that is issued with a voucher, and the voucher, for two seconds from `2 ^ 53` on. -/
def lateBuilder : TctBuilder :=
  { tctBuilder with
    ttl := 2
    nowOverride := some (2 ^ 53) }

theorem wellTyped_lateBuilder : lateBuilder.WellTyped primitives 0 :=
  ⟨show Timestamp.Fits (2 ^ 53) by decide, nofun, wellTyped_tctBuilder.subjectPubkey⟩

theorem draft_lateBuilder : ∃ d, lateBuilder.draft primitives 0 = .ok d ∧
    d.claims = lateBuilder.claims primitives (agent 1) (agentKey 1) (uuid 1) (2 ^ 53) := by
  refine ⟨_, (TctBuilder.draft_eq_ok rfl).mpr ⟨agent 1, agentKey 1, uuid 1, rfl, rfl, rfl,
    resolve_tctBuilder, ?_, List.cons_ne_nil _ _, ?_, agent_ne, rfl, rfl⟩, rfl⟩
  · exact show attestationGrant ∉ ["demo.echo"] by decide
  · exact show ∀ g ∈ ["demo.echo"], g.toList.any isWhitespace = false by decide

/-- What agent 1 claims when it delegates for a second. -/
def lateClaims (voucherToken : String) (v : GrantVoucherClaims) : Delegation.DelegationClaims where
  ver := protocolVersion
  iss := agent 1
  sub := agent 2
  aud := v.iss
  scope := ["demo.echo"]
  exp := cappedExpiry (2 ^ 53) 1 v.exp
  jkt := (agentKey 2).toJwkThumbprintSha256 primitives
  voucher := some voucherToken
  ext := none

/-- That delegation, with its token. -/
def lateHop (voucherToken : String) (v : GrantVoucherClaims) (token : String) :
    Delegation.SingleHop where
  signer := signer (agent 1)
  delegatee := agent 2
  scope := ["demo.echo"]
  ttl := 1
  nowOverride := some (2 ^ 53)
  clock := 0
  issued := ⟨token, lateClaims voucherToken v⟩

theorem lateHop_built {voucherToken token : String} {v : GrantVoucherClaims}
    (hp : peekVoucher primitives (agent 1) voucherToken = .ok v) (hg : v.grants = ["demo.echo"])
    (ht : signCompact (signer (agent 1)) typDelegation (lateClaims voucherToken v).toValue =
      .ok token) : (lateHop voucherToken v token).Built primitives voucherToken := by
  have hne : agent 1 ≠ agent 2 := by decide +kernel
  have hk : VerifyingKey.fromAid primitives (agent 2) = .ok (agentKey 2) := (signer_lawful _).1
  have hs : Delegation.DelegationBuilder.rootedInVoucher primitives (signer (agent 1))
      voucherToken =
        .ok ⟨signer (agent 1), voucherToken, v, none, [], defaultDelegationTtl, none⟩ := by
    have hp : peekVoucher primitives (signer (agent 1)).aid voucherToken = .ok v := hp
    simp [Delegation.DelegationBuilder.rootedInVoucher, hp]
  refine ⟨_, hs, ?_⟩
  simp only [Delegation.DelegationBuilder.build, Delegation.DelegationBuilder.draft, bind_eq_ok,
    okOr_eq_ok, ensure_eq_ok, mapErr_eq_ok, forEach_eq_ok, pure_eq_ok, exists_const]
  exact ⟨_, ⟨agent 2, rfl, rfl, by simp [Delegation.SingleHop.set, hne, lateHop, signer],
    by simp [Delegation.SingleHop.set, lateHop, hg], _, hk, rfl⟩, token, ht, rfl⟩

/-- Agent 0, a second later, with a manifest of every agent. -/
def lateContext : Delegation.DelegationVerifyContext where
  verifier := agent 0
  now := 2 ^ 53 + 1
  revocation := .failOpen
  issuerManifests := some fun aid => some (manifest aid ["demo.echo"] [] (2 ^ 53))
  insecureLocalhost := false

/-- The texts of these times are that of `2 ^ 53` and its own. -/
theorem rereadTime_late : primitives.rereadTime (2 ^ 53 + 1) = some (2 ^ 53) ∧
    primitives.rereadTime (2 ^ 53 + 2) = some (2 ^ 53 + 2) := by
  have h₁ : (Json.int (2 ^ 53 + 1)).canon = .int (2 ^ 53) := by decide +kernel
  have h₂ : (Json.int (2 ^ 53 + 2)).canon = .int (2 ^ 53 + 2) := by decide +kernel
  rw [Primitives.rereadTime, h₁, Primitives.rereadTime, h₂,
    readsText.reread_int (by decide) (by decide), readsText.reread_int (by decide) (by decide)]
  decide

end Toy

open Toy in
/-- Agent 1 delegates for a second at a time past which not every text of a time reads back: the
token ends before it was to, and is refused within that second. -/
theorem delegation_roundTrip_rounded : primitives.ReadsText ∧ ∃ issued voucherToken,
    lateBuilder.build primitives 0 = .ok issued ∧ issued.voucher = some voucherToken ∧
      ∃ h : Delegation.SingleHop, h.Built primitives voucherToken ∧
        (∃ key, h.signer.Lawful primitives key) ∧
        (lateContext.chained none).Expects primitives (agent 0) [h.signer.aid]
          h.issued.claims.exp ∧
        ∀ w, Delegation.verifyDelegation primitives lateContext h.issued.token ≠ .ok w := by
  obtain ⟨d, hd, hc⟩ := draft_lateBuilder
  obtain ⟨issued, hb, hi⟩ := TctBuilder.exists_build (signer_total (agent 0)) hd
  obtain ⟨voucherToken, hv⟩ := Option.isSome_iff_exists.mp
    (isSome_voucher_build wellTyped_lateBuilder rfl hb)
  have hclaims : issued.claims =
      lateBuilder.claims primitives (agent 1) (agentKey 1) (uuid 1) (2 ^ 53) := hi.trans hc
  obtain ⟨hsig, hw, -, -⟩ := signCompact_voucher_build wellTyped_lateBuilder hb hv
  have hexp : issued.claims.voucher.exp = 2 ^ 53 + 2 := by
    rw [hclaims]
    decide
  have hreads : primitives.rereadTime issued.claims.voucher.iat = some issued.claims.voucher.iat ∧
      primitives.rereadTime issued.claims.voucher.exp = some issued.claims.voucher.exp := by
    rw [hexp, hclaims]
    exact ⟨(show Timestamp.Exact (2 ^ 53) by decide).rereadTime readsText, rereadTime_late.2⟩
  have hpeek : peekVoucher primitives (agent 1) voucherToken = .ok issued.claims.voucher :=
    (peekVoucher_signCompact readsText (signer_lawful _) hw hreads hsig).mpr
      ⟨rfl, by rw [hclaims]; rfl⟩
  have hlate : (lateClaims voucherToken issued.claims.voucher).exp = 2 ^ 53 + 1 := by
    have hc : cappedExpiry (2 ^ 53) 1 (2 ^ 53 + 2) = 2 ^ 53 + 1 := by decide
    rw [← hc, ← hexp]
    rfl
  have hlift : (lateClaims voucherToken issued.claims.voucher).lift.Writable :=
    ⟨(hlate ▸ by decide : (lateClaims voucherToken issued.claims.voucher).exp.Fits), rfl⟩
  obtain ⟨token, ht⟩ := (signer_total (agent 1)).signCompact
    (by decide : typNeedsNoEscape typDelegation = true)
    (lateClaims voucherToken issued.claims.voucher).toValue
  refine ⟨readsText, issued, voucherToken, hb, hv, lateHop voucherToken issued.claims.voucher token,
    lateHop_built hpeek (by rw [hclaims]; rfl) ht, ⟨_, signer_lawful (agent 1)⟩, ?_, ?_⟩
  · have hm : resolveVerifiedManifest primitives
        (fun aid => some (manifest aid ["demo.echo"] [] (2 ^ 53))) (agent 1)
        ⟨2 ^ 53 + 1, false⟩ = .ok (manifest (agent 1) ["demo.echo"] [] (2 ^ 53)) :=
      resolveVerifiedManifest_manifest 1 (by decide) (by decide) (by decide) (by decide)
    refine ⟨rfl, ?_, fun _ _ => rfl, ?_⟩
    · simp only [List.forall_mem_cons, List.not_mem_nil, false_implies, implies_true, and_true]
      exact ⟨_, _, rfl, hm⟩
    · exact hlate ▸ show (2 ^ 53 + 1 : ℤ) ≤ 2 ^ 53 + 1 by decide
  · intro w hv
    obtain ⟨he, hlive⟩ := Delegation.verifyDelegation_read readsText hlift ht hv
    rw [hlate, rereadTime_late.1] at he
    rw [← Option.some.inj he] at hlive
    exact absurd hlive (by decide)

end Aitp
