import Aitp.Handshake.Honest
import Aitp.Tct.RoundTrip

/-! # Tokens issued in a handshake

What a party grants to its peer is what the peer requests, within the party's offer and
the answer of its policy, and lasts no longer than the party's manifest. Both limits are
checked again by the peer, against the same manifest, and never stop the token.
-/

namespace Aitp

variable {P : Primitives} {cfg : PeerConfig} {identity : IdentityDescriptor} {peerAid : Aid}
  {peerKey : VerifyingKey} {requested : List String} {drawn : RandomV4} {issued : IssuedTct}

/-! ## Grants -/

namespace PeerConfig

variable (cfg)

/-- What is offered of the requested capabilities. -/
def candidates (requested : List String) : List String :=
  requested.filter fun g => cfg.manifest.offeredCapabilities.contains g

/-- The answer of the grant policy on some candidates; without a policy, all of them. -/
def policyAnswer (identity : IdentityDescriptor) (peerAid : Aid) (candidates : List String) :
    Option (List String) :=
  match cfg.grantPolicy with
  | none => some candidates
  | some policy => policy ⟨identity, peerAid, candidates, cfg.now⟩

theorem filter_candidates (requested permitted : List String) :
    ((cfg.candidates requested).filter fun g => permitted.contains g) =
      requested.filter fun g =>
        cfg.manifest.offeredCapabilities.contains g && permitted.contains g := by
  rw [candidates, List.filter_filter]
  exact List.filter_congr fun g _ => Bool.and_comm _ _

end PeerConfig

/-- The requested capabilities, in their order, that are offered and permitted. -/
structure GrantedOf (cfg : PeerConfig) (identity : IdentityDescriptor) (peerAid : Aid)
    (requested permitted grants : List String) : Prop where
  answer : cfg.policyAnswer identity peerAid (cfg.candidates requested) = some permitted
  grants : grants = requested.filter fun g =>
    cfg.manifest.offeredCapabilities.contains g && permitted.contains g

theorem grantedOf_of_grantsForPeer {grants : List String}
    (h : grantsForPeer cfg identity peerAid requested = .ok grants) :
    ∃ permitted, GrantedOf cfg identity peerAid requested permitted grants := by
  unfold grantsForPeer at h
  split at h
  next hp =>
    obtain rfl := Except.ok.inj h
    refine ⟨cfg.candidates requested, ?_, ?_⟩
    · rw [PeerConfig.policyAnswer, hp]
    · rw [← cfg.filter_candidates]
      refine (List.filter_eq_self.mpr ?_).symm
      intro g hg
      exact List.contains_iff_mem.mpr hg
  next policy hp =>
    simp only [bind_eq_ok, okOr_eq_ok, pure_eq_ok] at h
    obtain ⟨permitted, ha, rfl⟩ := h
    refine ⟨permitted, ?_, cfg.filter_candidates requested permitted⟩
    rw [PeerConfig.policyAnswer, hp]
    exact ha

/-! ## The token -/

theorem issueTtl_nonpos (h : cfg.manifest.expiresAt ≤ cfg.now) : issueTtl cfg ≤ 0 := by
  have hle : min (cfg.now.saturatingAdd defaultTctTtl) cfg.manifest.expiresAt - cfg.now ≤ 0 :=
    sub_nonpos.mpr ((min_le_right _ _).trans h)
  unfold issueTtl saturate
  exact max_le (by decide) ((min_le_right _ _).trans hle)

/-- What was issued to a peer: what it was granted, from now until the default lifetime or the
manifest ends. -/
structure IssuedFor (P : Primitives) (cfg : PeerConfig) (identity : IdentityDescriptor)
    (peerAid : Aid) (requested : List String) (issued : IssuedTct) : Prop where
  signed : signCompact cfg.signingKey typTct issued.claims.toValue = .ok issued.token
  writable : issued.claims.Writable P
  granted : ∃ permitted, GrantedOf cfg identity peerAid requested permitted issued.claims.grants
  iat : issued.claims.iat = cfg.now
  exp : issued.claims.exp = min (cfg.now + defaultTctTtl) cfg.manifest.expiresAt
  live : cfg.now < issued.claims.exp

theorem issueTctForPeer_ok (ht : cfg.now.Fits) (hx : cfg.manifest.expiresAt.Fits)
    (h : issueTctForPeer P cfg identity peerAid peerKey requested drawn = .ok issued) :
    IssuedFor P cfg identity peerAid requested issued := by
  simp only [issueTctForPeer, bind_eq_ok, ensure_eq_ok, mapErr_eq_ok, exists_const,
    decide_eq_true_eq] at h
  obtain ⟨grants, hg, -, httl, hb⟩ := h
  have hn : cfg.now < cfg.manifest.expiresAt := by
    apply lt_of_not_ge
    intro hle
    exact absurd (httl.trans (issueTtl_nonpos hle)) (by decide)
  obtain ⟨-, hexp⟩ := issueTtl_eq cfg ht hx hn
  obtain ⟨d, hd, hs, -, hc⟩ := TctBuilder.build_eq_ok.mp hb
  obtain ⟨subject, key, jti, -, -, -, hj, -, -, -, -, -, rfl⟩ :=
    (TctBuilder.draft_eq_ok rfl).mp hd
  obtain ⟨token, claims, voucher⟩ := issued
  obtain rfl : claims = _ := hc
  rw [Timestamp.min_saturatingAdd ht hx (by decide)] at hexp
  have hlt : cfg.now < min (cfg.now + defaultTctTtl) cfg.manifest.expiresAt :=
    lt_min (lt_add_of_pos_right _ (by decide)) hn
  exact {
    signed := hs
    writable := by
      refine TctClaims.writable_claims (JtiSource.checkV4_of_resolve hj) ht ?_
      rintro _ ⟨⟩
    granted := grantedOf_of_grantsForPeer hg
    iat := rfl
    exp := hexp
    live := hlt.trans_eq hexp.symm }

/-! ## The peer's checks -/

section

variable {members : List String} {typ v4Member token voucher : String} {claims c : TctClaims}

theorem peekClaimSet_failsIn :
    FailsIn (· ≠ TctError.expiresAfterManifest) (peekClaimSet P typ members v4Member token) := by
  unfold peekClaimSet
  split
  · refine .bind (.mapErr nofun) fun _ _ => .bind (.mapErr nofun) fun _ _ => .ifPresent ?_
    intro v _
    refine .bind ?_ fun _ _ => .ifPresent fun _ _ => .mapErr nofun
    unfold ensureMembers
    split
    · rintro _ ⟨⟩
      nofun
    · exact .ok ()
  · exact .ok ()

theorem verifyVoucher_failsIn {issuer : Aid} :
    FailsIn (· ≠ TctError.expiresAfterManifest) (verifyVoucher P voucher issuer) := by
  refine .bind peekClaimSet_failsIn fun _ _ => .bind (.mapErr nofun) fun _ _ =>
    .bind (.okOr nofun) fun _ _ => .bind (.ensure nofun) fun _ _ => ?_
  exact .bind (.ensure nofun) fun _ _ => .bind (.ensure nofun) fun _ _ => .pure _

theorem checkRevocation_failsIn {source : RevocationSource} {now : Timestamp} :
    FailsIn (· ≠ TctError.expiresAfterManifest) (checkRevocation source claims now) := by
  unfold checkRevocation
  split
  · split
    · exact .ok _
    · apply FailsIn.mapErr
      rintro (_ | _ | _) ⟨⟩
  · apply FailsIn.mapErr
    rintro (_ | _ | _) ⟨⟩

/-- A token is not refused for outlasting a manifest that the expiry read from it does not. -/
theorem verifyTctBeforeRevocation_failsIn {signer : Signer} {ctx : TctVerifyContext}
    (hP : P.ReadsText) (hw : c.Writable P) (h : signCompact signer typTct c.toValue = .ok token)
    {t : Timestamp} (ht : ctx.issuerManifestExpiresAt = some t) :
    FailsIn (fun e => (∀ exp, P.rereadTime c.exp = some exp → exp ≤ t) →
      e ≠ TctError.expiresAfterManifest) (verifyTctBeforeRevocation P token ctx) := by
  intro e he hle
  refine (?_ : FailsIn (· ≠ TctError.expiresAfterManifest) _) e he
  unfold verifyTctBeforeRevocation CoreChecks.verify
  refine .bind peekClaimSet_failsIn fun _ _ => .bind (.mapErr nofun) fun payload hv => ?_
  refine .bind (.okOr nofun) fun claims hc => ?_
  obtain ⟨iat, exp, -, hexp, rfl⟩ :=
    hw.read_of_signCompact hP h (mapErr_eq_ok.mp hv) (okOr_eq_ok.mp hc)
  refine .bind (.ensure nofun) fun _ _ => .bind (.ensure nofun) fun _ _ => .bind ?_ fun _ _ => ?_
  · refine .bind (.ensure nofun) fun _ _ => .bind (.ensure nofun) fun _ _ => ?_
    exact .bind (.ensure nofun) fun _ _ => .ensure nofun
  refine .bind (.ensure nofun) fun _ _ => .bind (.ensure nofun) fun _ _ => .bind ?_ fun _ _ => ?_
  · refine .ifPresent fun t' ht' => ?_
    obtain rfl : t = t' := Option.some.inj (ht.symm.trans ht')
    have hcap : exp ≤ t := hle exp hexp
    rw [ensure_eq_ok.mpr (decide_eq_true hcap)]
    exact .ok ()
  · refine .bind (.ensure nofun) fun _ _ => .bind ?_ fun _ _ => .pure _
    exact .bind (.mapErr nofun) fun _ _ => .ensure nofun

/-- A token of offered grants is not refused for its grants, nor for outlasting a manifest that the
expiry read from it does not. -/
theorem verifyReceivedTct_failsIn {signer : Signer} {peer : PeerConfig} {issuer : Aid}
    {expiresAt : Timestamp} {offered : List String} {grantVoucher : Option String}
    (hP : P.ReadsText) (hw : c.Writable P) (h : signCompact signer typTct c.toValue = .ok token)
    (hg : c.grants ⊆ offered) :
    FailsIn (fun e => e ≠ .grantOverflow ∧
        ((∀ exp, P.rereadTime c.exp = some exp → exp ≤ expiresAt) → e ≠ .tct .expiresAfterManifest))
      (verifyReceivedTct P token grantVoucher peer issuer (some expiresAt) offered) := by
  have htct : ∀ e : TctError, e ≠ .expiresAfterManifest →
      HandshakeError.tct e ≠ .grantOverflow ∧ ((∀ exp, P.rereadTime c.exp = some exp →
        exp ≤ expiresAt) → HandshakeError.tct e ≠ .tct .expiresAfterManifest) :=
    fun e he => ⟨nofun, fun _ ho => he (HandshakeError.tct.inj ho)⟩
  unfold verifyReceivedTct
  refine .bind (.mapErr_of (verifyTctBeforeRevocation_failsIn hP hw h rfl) fun e he =>
    ⟨nofun, fun hle ho => he hle (HandshakeError.tct.inj ho)⟩) fun claims hv => ?_
  obtain ⟨payload, hp, hc⟩ := (verifyTctBeforeRevocation_ok (mapErr_eq_ok.mp hv)).signed
  obtain ⟨iat, exp, -, -, rfl⟩ := hw.read_of_signCompact hP h hp hc
  refine .bind (.ifPresent fun v _ => ?_) fun _ _ => .bind (.forEach ?_) fun _ _ => ?_
  · refine .bind (.mapErr_of verifyVoucher_failsIn htct) fun _ _ => .ensure ?_
    exact htct _ nofun
  · intro g hgm
    have hin : offered.contains g = true := List.contains_iff_mem.mpr (hg hgm)
    rw [ensure_eq_ok.mpr hin]
    exact .ok ()
  · refine .bind (.mapErr_of checkRevocation_failsIn ?_) fun _ _ => .bind ?_ fun _ _ => .pure _
    · intro e he
      split
      · exact ⟨nofun, fun _ => nofun⟩
      · exact htct e he
    · exact .ifPresent fun _ _ => .forEach fun _ _ => .ensure ⟨nofun, fun _ => nofun⟩

end

/-! ## Issued tokens at the peer -/

/-- A token issued to a peer: it grants what is requested, offered and permitted, ends with the
manifest at the latest, and no party that goes by the manifest refuses it for what it grants, nor
for how long it lasts if its expiry is a time that is signed as it is. -/
structure IssuanceLaw (P : Primitives) (cfg : PeerConfig) (identity : IdentityDescriptor)
    (peerAid : Aid) (requested : List String) (issued : IssuedTct) : Prop
    extends IssuedFor P cfg identity peerAid requested issued where
  narrowed : issued.claims.grants.Sublist (cfg.candidates requested)
  offered : issued.claims.grants ⊆ cfg.manifest.offeredCapabilities
  cap : issued.claims.exp ≤ cfg.manifest.expiresAt
  received : ∀ (peer : PeerConfig) (issuer : Aid) (grantVoucher : Option String)
    (e : HandshakeError), verifyReceivedTct P issued.token grantVoucher peer issuer
      (some cfg.manifest.expiresAt) cfg.manifest.offeredCapabilities = .error e →
        e ≠ .grantOverflow ∧ (issued.claims.exp.Exact → e ≠ .tct .expiresAfterManifest)

/-- Every token that a party issues keeps the law, and none is issued once its manifest has
expired. -/
theorem issueTctForPeer_law (hP : P.ReadsText) (ht : cfg.now.Fits)
    (hx : cfg.manifest.expiresAt.Fits) :
    (cfg.manifest.expiresAt ≤ cfg.now →
      ∀ issued, issueTctForPeer P cfg identity peerAid peerKey requested drawn ≠ .ok issued) ∧
      ∀ issued, issueTctForPeer P cfg identity peerAid peerKey requested drawn = .ok issued →
        IssuanceLaw P cfg identity peerAid requested issued := by
  have hcap : ∀ issued, IssuedFor P cfg identity peerAid requested issued →
      issued.claims.exp ≤ cfg.manifest.expiresAt := by
    intro issued h
    rw [h.exp]
    exact min_le_right _ _
  constructor
  · intro hle issued h
    have hi := issueTctForPeer_ok ht hx h
    exact absurd (hi.live.trans_le (hcap issued hi)) (not_lt_of_ge hle)
  · intro issued h
    have hi := issueTctForPeer_ok ht hx h
    obtain ⟨permitted, hg⟩ := hi.granted
    have hsub : issued.claims.grants.Sublist (cfg.candidates requested) := by
      rw [hg.grants, ← cfg.filter_candidates]
      exact List.filter_sublist
    have hoff : issued.claims.grants ⊆ cfg.manifest.offeredCapabilities := by
      intro g hm
      exact List.contains_iff_mem.mp (List.mem_filter.mp (hsub.mem hm)).2
    refine { hi with narrowed := hsub, offered := hoff, cap := hcap issued hi, received := ?_ }
    intro peer issuer grantVoucher e he
    obtain ⟨hgo, hma⟩ := verifyReceivedTct_failsIn hP hi.writable hi.signed hoff e he
    refine ⟨hgo, fun hx => hma fun exp he => ?_⟩
    obtain rfl : issued.claims.exp = exp := Option.some.inj ((hx.rereadTime hP).symm.trans he)
    exact hcap issued hi

open Toy in
/-- Agent 0 issues a token to agent 1 that the law describes. -/
theorem issueTctForPeer_law_party : ∃ issued,
    issueTctForPeer primitives (party 0 "demo.echo") (.pinnedKey "agent" "" "") (agent 1)
        (agentKey 1) ["demo.echo"] (drawnV4 1) = .ok issued ∧
      IssuanceLaw primitives (party 0 "demo.echo") (.pinnedKey "agent" "" "") (agent 1)
        ["demo.echo"] issued := by
  have ht : (party 0 "demo.echo").now.Fits := show Timestamp.Fits 0 by decide
  have hx : (party 0 "demo.echo").manifest.expiresAt.Fits :=
    show Timestamp.Fits (Timestamp.saturatingAdd 0 defaultManifestTtl) by decide
  have hn : (party 0 "demo.echo").now < (party 0 "demo.echo").manifest.expiresAt :=
    show (0 : Timestamp) < Timestamp.saturatingAdd 0 defaultManifestTtl by decide
  have hi : Issuable ["demo.echo"] none :=
    ⟨⟨List.cons_ne_nil _ _, by decide, by decide⟩, by decide⟩
  obtain ⟨issued, _, h, -⟩ := issueTctForPeer_honest (drawnV4 1) (party_holds 0 "demo.echo") ht hx hn
    (signer_lawful (agent 1)).1 agent_ne (grantsForPeer_party 0 "demo.echo" 0 _ _) hi
  exact ⟨issued, h, (issueTctForPeer_law readsText ht hx).2 issued h⟩

open Toy in
/-- The manifest of an agent ends at a time whose text in a signed token is that of a later one:
its peer, who reads the manifest's own text, refuses the token that ends with the manifest. -/
theorem issueTctForPeer_late : primitives.ReadsText ∧ latest.Fits ∧
    verifyManifest primitives (lateParty 0 "demo.echo").manifest ⟨2 ^ 53, false⟩ = .ok () ∧
    ∃ issued, issueTctForPeer primitives (lateParty 0 "demo.echo") (.pinnedKey "agent" "" "")
        (agent 1) (agentKey 1) ["demo.echo"] (drawnV4 1) = .ok issued ∧
      verifyReceivedTct primitives issued.token issued.voucher (lateParty 1 "demo.echo") (agent 0)
          (some (lateParty 0 "demo.echo").manifest.expiresAt)
          (lateParty 0 "demo.echo").manifest.offeredCapabilities =
        .error (.tct .expiresAfterManifest) := by
  have ht : (lateParty 0 "demo.echo").now.Fits := show Timestamp.Fits (2 ^ 53) by decide
  have hx : (lateParty 0 "demo.echo").manifest.expiresAt.Fits := show Timestamp.Fits
    (Timestamp.saturatingAdd (latest - defaultManifestTtl) defaultManifestTtl) by decide
  have hn : (lateParty 0 "demo.echo").now < (lateParty 0 "demo.echo").manifest.expiresAt :=
    show (2 ^ 53 : Timestamp) <
      Timestamp.saturatingAdd (latest - defaultManifestTtl) defaultManifestTtl by decide
  have hi : Issuable ["demo.echo"] none :=
    ⟨⟨List.cons_ne_nil _ _, by decide, by decide⟩, by decide⟩
  have hg : grantsForPeer (lateParty 0 "demo.echo") (.pinnedKey "agent" "" "") (agent 1)
      ["demo.echo"] = .ok ["demo.echo"] := by
    simp [grantsForPeer, lateParty, party, manifest, unsignedManifest]
  obtain ⟨issued, _, h, hc, hs, -, -⟩ := issueTctForPeer_honest (drawnV4 1)
    (lateParty_holds 0 "demo.echo") ht hx hn (signer_lawful (agent 1)).1 agent_ne hg hi
  refine ⟨readsText, by decide, ?_, issued, h, ?_⟩
  · exact verifyManifest_manifest 0 (by decide) (by decide) (by decide) (by decide)
  · rw [expiresAt_lateParty]
    exact verifyReceivedTct_late hc hs

end Aitp
