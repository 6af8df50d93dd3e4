import Aitp.Core.TimeWords
import Aitp.Tct.Verifier

/-! # The freshness of a token

The freshness test of `tct/verifier.rs` in machine words: what `CoreChecks::verify` runs between
the checks of who issued the token and those of what it grants.
-/

namespace Aitp

/-- The freshness test of `CoreChecks::verify`. -/
def checkFreshness (exp iat now : Int64) (clockSkew : Duration) : Except TctError Unit := do
  let skew := TimeWords.durationSecs clockSkew
  ensure (!decide (exp < I64.saturatingSub now skew)) .expired
  ensure (!decide (iat > I64.saturatingAdd now skew)) .expired

section

variable (P : Primitives)

/-- The checks of `CoreChecks::verify` before the freshness test. -/
def CoreChecks.identify (core : CoreChecks) (token : String)
    (context : TctClaims → Except TctError Unit) : Except TctError TctClaims := do
  peekClaimSet P typTct tctClaimsMembers "jti" token
  let payload ← mapErr .crypto (verifyCompact P core.issuer typTct token)
  let claims ← okOr ((P.document payload).bind decodeTctClaims) .undecodable
  ensure (claims.ver == protocolVersion) .versionUnknown
  ensure (decide (claims.iss = core.issuer)) .issuerMismatch
  context claims
  return claims

/-- The checks of `CoreChecks::verify` after the freshness test. -/
def CoreChecks.admit (core : CoreChecks) (claims : TctClaims) : Except TctError Unit := do
  ifPresent core.issuerManifestExpiresAt fun manifestExpiresAt =>
    ensure (decide (claims.exp ≤ manifestExpiresAt)) .expiresAfterManifest
  ensure (!claims.grants.isEmpty) .emptyGrants
  checkCnf P claims.sub claims.jkt

end

variable {P : Primitives} {token : String}

theorem Serde.fits_of_i64 {v : Json} {z : Timestamp} (h : Serde.i64 v = some z) : z.Fits := by
  cases v with
  | int z' =>
    simp only [Serde.i64] at h
    split_ifs at h with hf
    obtain rfl := Option.some.inj h
    exact ⟨hf.1, Int.le_sub_one_of_lt hf.2⟩
  | _ => simp [Serde.i64] at h

/-- The times of claims that were read are those of an `i64`. -/
theorem fits_of_decodeTctClaims {v : Json} {c : TctClaims} (h : decodeTctClaims v = some c) :
    c.exp.Fits ∧ c.iat.Fits := by
  unfold decodeTctClaims at h
  split at h
  · simp only [Option.bind_eq_bind, Option.bind_eq_some_iff, Option.pure_def,
      Option.some.injEq] at h
    obtain ⟨_, -, _, -, _, -, _, -, _, -, iat, hi, exp, he, _, -, _, -, _, -, rfl⟩ := h
    exact ⟨Serde.fits_of_i64 he, Serde.fits_of_i64 hi⟩
  · simp at h

/-- The test on words is the test on integers. -/
theorem checkFreshness_eq (exp iat now : Int64) (clockSkew : Duration) :
    checkFreshness exp iat now clockSkew = (do
      ensure (decide (Timestamp.saturatingSub now.toInt clockSkew.asSecs.toNat ≤ exp.toInt))
        .expired
      ensure (decide (iat.toInt ≤ Timestamp.saturatingAdd now.toInt clockSkew.asSecs.toNat))
        .expired) := by
  have hs := TimeWords.toInt_saturatingSub now clockSkew
  have ha := TimeWords.toInt_saturatingAdd now clockSkew
  unfold TimeWords.saturatingSub at hs
  unfold TimeWords.saturatingAdd at ha
  simp only [checkFreshness, Int64.lt_iff_toInt_lt, gt_iff_lt, hs, ha, ← decide_not, not_lt]

theorem checkFreshness_iff (exp iat now : Int64) (clockSkew : Duration) :
    checkFreshness exp iat now clockSkew = .ok () ↔
      now.toInt ≤ exp.toInt + durationSecs clockSkew.asSecs.toNat ∧
        iat.toInt ≤ now.toInt + durationSecs clockSkew.asSecs.toNat := by
  have hn := TimeWords.fits_toInt now
  have he := TimeWords.fits_toInt exp
  have hi := TimeWords.fits_toInt iat
  simp only [checkFreshness_eq, bind_eq_ok, ensure_eq_ok, exists_const, decide_eq_true_eq,
    Timestamp.saturatingSub_le_iff hn he, Timestamp.le_saturatingAdd_iff hn hi]

/-- No overflow, wrap or saturation decides whether a timestamp is tolerated or a token is fresh. -/
theorem freshness_exact :
    (∀ (a b : Int64) (d : Duration), d.asSecs.toNat < 2 ^ 63 →
      (TimeWords.isWithinToleranceOf a b d = true ↔
        |a.toInt - b.toInt| ≤ (d.asSecs.toNat : ℤ))) ∧
    ∀ (exp iat now : Int64) (s : Duration),
      checkFreshness exp iat now s = .ok () ↔
        exp.toInt + min (s.asSecs.toNat : ℤ) (2 ^ 63 - 1) ≥ now.toInt ∧
          iat.toInt ≤ now.toInt + min (s.asSecs.toNat : ℤ) (2 ^ 63 - 1) := by
  constructor
  · intro a b d hd
    exact TimeWords.isWithinToleranceOf_iff hd
  · intro exp iat now s
    exact checkFreshness_iff exp iat now s

/-- At the ends of the range, with the longest skew. -/
theorem freshness_exact_extremes :
    TimeWords.isWithinToleranceOf Int64.minValue (-9223372036854775508) ⟨300, 0, by decide⟩ = true ∧
      checkFreshness (-1) 0 Int64.maxValue ⟨18446744073709551615, 0, by decide⟩ ≠ .ok () ∧
      checkFreshness 0 Int64.maxValue Int64.maxValue ⟨18446744073709551615, 0, by decide⟩ =
        .ok () := by
  refine ⟨?_, ?_, ?_⟩
  · exact (freshness_exact.1 _ _ ⟨300, 0, by decide⟩ (by decide)).mpr (by decide)
  · intro h
    exact absurd ((freshness_exact.2 _ _ _ _).mp h).1 (by decide)
  · exact (freshness_exact.2 _ _ _ _).mpr (by decide)

/-! ## The test in its place -/

section

variable {core : CoreChecks} {now : Int64} {clockSkew : Duration}
  {context : TctClaims → Except TctError Unit}

/-- A token is identified, tested for freshness, and admitted. -/
theorem CoreChecks.verify_eq (hn : core.now = now.toInt)
    (hs : core.clockSkew = clockSkew.asSecs.toNat) :
    core.verify P token context = (do
      let claims ← core.identify P token context
      checkFreshness (Int64.ofInt claims.exp) (Int64.ofInt claims.iat) now clockSkew
      core.admit P claims
      return claims) := by
  unfold CoreChecks.verify CoreChecks.identify
  cases peekClaimSet P typTct tctClaimsMembers "jti" token with
  | error e => rfl
  | ok _ =>
    cases mapErr TctError.crypto (verifyCompact P core.issuer typTct token) with
    | error e => rfl
    | ok payload =>
      cases hd : (P.document payload).bind decodeTctClaims with
      | none => simp [hd]
      | some claims =>
        obtain ⟨v, -, hv⟩ := Option.bind_eq_some_iff.mp hd
        obtain ⟨hx, hi⟩ := fits_of_decodeTctClaims hv
        simp only [okOr_some, ok_bind, bind_assoc, pure_bind, hd, checkFreshness_eq,
          TimeWords.toInt_ofInt hx, TimeWords.toInt_ofInt hi, ← hn, ← hs, CoreChecks.admit]

theorem CoreChecks.fits_of_identify {claims : TctClaims}
    (h : core.identify P token context = .ok claims) : claims.exp.Fits ∧ claims.iat.Fits := by
  simp only [CoreChecks.identify, bind_eq_ok, okOr_eq_ok, pure_eq_ok] at h
  obtain ⟨_, -, payload, -, c, hd, _, -, _, -, _, -, rfl⟩ := h
  obtain ⟨v, -, hv⟩ := Option.bind_eq_some_iff.mp hd
  exact fits_of_decodeTctClaims hv

/-- A token is accepted exactly when it is identified, its times are in order as integers, and it
is admitted. -/
theorem CoreChecks.verify_ok_iff (hn : core.now = now.toInt)
    (hs : core.clockSkew = clockSkew.asSecs.toNat) {claims : TctClaims} :
    core.verify P token context = .ok claims ↔
      core.identify P token context = .ok claims ∧
        (core.now ≤ claims.exp + durationSecs core.clockSkew ∧
          claims.iat ≤ core.now + durationSecs core.clockSkew) ∧
        core.admit P claims = .ok () := by
  rw [CoreChecks.verify_eq hn hs, hs, hn]
  simp only [bind_eq_ok, pure_eq_ok]
  constructor
  · rintro ⟨c, hc, _, ht, _, ha, rfl⟩
    obtain ⟨hx, hi⟩ := CoreChecks.fits_of_identify hc
    have ht := (checkFreshness_iff _ _ _ _).mp ht
    rw [TimeWords.toInt_ofInt hx, TimeWords.toInt_ofInt hi] at ht
    exact ⟨hc, ht, ha⟩
  · rintro ⟨hc, ht, ha⟩
    obtain ⟨hx, hi⟩ := CoreChecks.fits_of_identify hc
    refine ⟨claims, hc, (), ?_, (), ha, rfl⟩
    apply (checkFreshness_iff _ _ _ _).mpr
    rwa [TimeWords.toInt_ofInt hx, TimeWords.toInt_ofInt hi]

end

end Aitp
