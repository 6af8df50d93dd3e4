import Aitp.Renewal.RoundTrip

/-! # The lifetime of a renewed token

Step 2 of a renewal accepts a token in the second in which it expires, and the manifest
may expire in that second too. The lifetime it caps is empty then, and the nonce is spent.
-/

namespace Aitp

variable {P : Primitives} {request : TctRenewalPayload} {ctx : RenewalContext}
  {checked : CheckedRenewal} {presented : TctClaims}

/-- A renewal of a token that has not expired, by one that expires after it is issued. -/
structure RenewsLive (ctx : RenewalContext) (presented renewed : TctClaims) : Prop where
  presented : ctx.now < presented.exp
  renewed : renewed.iat < renewed.exp

theorem CheckedRenewal.Renewed.iat_lt_exp_iff {issuerKey : Signer} {drawn : RandomV4}
    {tct : IssuedTct} (h : checked.Renewed issuerKey ctx drawn tct)
    (hm : ctx.manifestExpiresAt.Fits) (ht : 1 ≤ ctx.ttl) :
    tct.claims.iat < tct.claims.exp ↔ ctx.now < ctx.manifestExpiresAt := by
  rw [h.iat, h.exp, lt_min_iff]
  constructor
  · rintro ⟨-, hlt⟩
    exact hlt
  · intro hlt
    exact ⟨Timestamp.lt_saturatingAdd (hlt.trans_le hm.2) ht, hlt⟩

section

variable {σ : Type} {nonceStore : NonceStore σ} {st : σ} {issuerKey : Signer} {drawn : RandomV4}
  {renewed : IssuedTct}

/-- A renewal that is granted renews a live token, for a lifetime, exactly when the token
presented does not expire now. -/
theorem renewsLive_iff (hn : ctx.now.Fits) (hm : ctx.manifestExpiresAt.Fits) (ht : 1 ≤ ctx.ttl)
    (h : (processRenewalRequest P nonceStore st request issuerKey ctx drawn).2 = .ok renewed) :
    ∃ presented, Renewal.peekClaims P request.currentTct = .ok presented ∧
      (RenewsLive ctx presented renewed.claims ↔ presented.exp ≠ ctx.now) := by
  obtain ⟨checked, hc, -, hmint⟩ := processRenewalRequest_eq_ok.mp h
  have he := checkRenewalRequest_ok hn hc
  have hr := mintRenewal_ok he hm hmint
  refine ⟨checked.claims, peekClaims_of_checkRenewalRequest hc, ?_⟩
  constructor
  · rintro ⟨hlt, -⟩
    exact ne_of_gt hlt
  · intro hne
    have hlt : ctx.now < checked.claims.exp := lt_of_le_of_ne he.live hne.symm
    exact ⟨hlt, (hr.iat_lt_exp_iff hm ht).mpr (hlt.trans_le he.cap)⟩

end

namespace Toy

/-- What agent 0 answers when agent 1 presents a token that it issued earlier. -/
theorem exists_renewed (t now : Timestamp) (hl : -1000 ≤ t) (hu : t ≤ 900) (hi : t ≤ now)
    (hx : now ≤ t + 100) : ∃ request, ∃ checked : CheckedRenewal, ∃ renewed,
      Renewal.peekClaims primitives request.currentTct = .ok checked.claims ∧
        checked.Established primitives request (agent 0) (renewalContext now) ∧
        checked.Renewed (signer (agent 0)) (renewalContext now) drawnUuid renewed ∧
        (processRenewalRequest primitives (InMemoryNonceStore.nonceStore roomyStore) .new request
          (signer (agent 0)) (renewalContext now) drawnUuid).2 = .ok renewed := by
  obtain ⟨current, h⟩ := exists_renewable_at hl hu hi hx
  have hs := signer_total (agent 0)
  have hh := signer_total (agent 1)
  obtain ⟨sig, hsig, -⟩ := h.buildRenewalRequest readsText hs.lawful hh renewalNonce
  have hc := h.checkRenewalRequest readsText hs.lawful hh.lawful hsig
  obtain ⟨renewed, hm⟩ := h.mintRenewal hs hh.lawful renewalNonce drawnUuid
  have he := checkRenewalRequest_ok h.now hc
  refine ⟨_, _, renewed, ?_, he, ?_, ?_⟩
  · exact h.peekClaims readsText hs.lawful hh.lawful
  · exact mintRenewal_ok he h.manifestExpiresAt hm
  · exact processRenewalRequest_eq_ok.mpr ⟨_, hc, issue_roomyStore _, hm⟩

end Toy

open Toy in
/-- A token of agent 0 that expires later is renewed for a lifetime. -/
theorem renewsLive_iff_early : ∃ request presented renewed,
    (processRenewalRequest primitives (InMemoryNonceStore.nonceStore roomyStore) .new request
      (signer (agent 0)) (renewalContext 0) drawnUuid).2 = .ok renewed ∧
      Renewal.peekClaims primitives request.currentTct = .ok presented ∧
      (RenewsLive (renewalContext 0) presented renewed.claims ↔ presented.exp ≠ 0) := by
  obtain ⟨request, _, renewed, -, -, -, h⟩ :=
    exists_renewed 0 0 (by decide) (by decide) (by decide) (by decide)
  obtain ⟨presented, hp, hr⟩ := renewsLive_iff (show Timestamp.Fits 0 by decide)
    (show Timestamp.Fits 1000 by decide) (show 1 ≤ 60 by decide) h
  exact ⟨request, presented, renewed, h, hp, hr⟩

open Toy in
/-- In the second in which agent 0's manifest and the token it issued expire, a renewal spends a
nonce on an empty lifetime. -/
theorem renewsLive_expiring : ∃ request presented renewed,
    (processRenewalRequest primitives (InMemoryNonceStore.nonceStore roomyStore) .new request
      (signer (agent 0)) (renewalContext 1000) drawnUuid).2 = .ok renewed ∧
      Renewal.peekClaims primitives request.currentTct = .ok presented ∧
      presented.exp = 1000 ∧ renewed.claims.iat = 1000 ∧ renewed.claims.exp = 1000 ∧
      ¬RenewsLive (renewalContext 1000) presented renewed.claims := by
  obtain ⟨request, checked, renewed, hp, he, hr, h⟩ :=
    exists_renewed 900 1000 (by decide) (by decide) (by decide) (by decide)
  have hexp : checked.claims.exp = 1000 := le_antisymm he.cap he.live
  refine ⟨request, checked.claims, renewed, h, hp, hexp, hr.iat, ?_, ?_⟩
  · exact hr.exp
  · rintro ⟨hlt, -⟩
    exact absurd (hlt.trans_eq hexp) (lt_irrefl _)

end Aitp
