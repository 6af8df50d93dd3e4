import Aitp.SessionBundle.Verifier
import Aitp.Manifest.Builder
import Aitp.Tct.Builder

/-! # What an accepted bundle says of its members

Every entry is a token of the coordinator for the entry's agent, the window ends with
the first of them, and the entries are split by their revocation. An agent that
is listed twice can be on both sides of the split.
-/

namespace Aitp

variable {P : Primitives} {bundle : SessionTrustBundle} {ctx : SessionBundleVerifyContext}
  {outcome : BundleOutcome}

/-! ## Membership -/

/-- An entry with its token as the coordinator issued it. -/
structure VerifiedEntry (P : Primitives) (bundle : SessionTrustBundle)
    (ctx : SessionBundleVerifyContext) (entry : ParticipantEntry) (held : VerifiedTct) : Prop where
  verified : verifyTct P entry.tct (ctx.tctContext bundle.coordinator ctx.cap entry) = .ok held
  iss : held.claims.iss = bundle.coordinator
  aud : held.claims.aud = entry.aid
  sub : held.claims.sub = entry.aid
  cap : ∀ m, ctx.coordinatorKey = .manifest m → held.claims.exp ≤ m.expiresAt

/-- What a bundle and the outcome of verifying it say. -/
structure Membership (P : Primitives) (bundle : SessionTrustBundle)
    (ctx : SessionBundleVerifyContext) (outcome : BundleOutcome) (es : VerifiedEntries) :
    Prop where
  participants : es.map Prod.fst = bundle.participants
  entries : ∀ e ∈ es, VerifiedEntry P bundle ctx e.1 e.2
  nonempty : bundle.participants ≠ []
  member : ∃ p ∈ bundle.participants, p.aid = ctx.verifierAid
  window : IsLeast {t | ∃ e ∈ es, e.2.claims.exp = t} bundle.expiresAt
  notExpired : ctx.now ≤ bundle.expiresAt
  manifest : ∀ m, ctx.coordinatorKey = .manifest m →
    verifyManifest P m ctx.manifestContext = .ok () ∧ m.aid = bundle.coordinator
  signed : ∃ key, VerifyingKey.fromAid P bundle.coordinator = .ok key ∧
    key.verifyJcs P (bundle.toValue.remove "signature").jcs bundle.signature = .ok ()
  active : outcome.activeAids =
    (es.filter fun e => !ctx.isRevoked e.2.claims.jti).map fun e => e.1.aid
  dropped : outcome.droppedAids =
    (es.filter fun e => ctx.isRevoked e.2.claims.jti).map fun e => e.1.aid

theorem verifiedEntry_of_verifyTct {entry : ParticipantEntry} {held : VerifiedTct}
    (h : verifyTct P entry.tct (ctx.tctContext bundle.coordinator ctx.cap entry) = .ok held) :
    VerifiedEntry P bundle ctx entry held := by
  have hv := h
  simp only [verifyTct, bind_eq_ok, pure_eq_ok] at h
  obtain ⟨claims, hc, _, -, rfl⟩ := h
  have hg := verifyTctBeforeRevocation_ok hc
  refine ⟨hv, hg.iss, hg.aud, hg.sub, ?_⟩
  rintro m hm
  exact hg.exp _ (by simp [SessionBundleVerifyContext.tctContext, SessionBundleVerifyContext.cap, hm])

theorem peekTctClaims_of_verifyTct {entry : ParticipantEntry} {held : VerifiedTct}
    {tctCtx : TctVerifyContext} (h : verifyTct P entry.tct tctCtx = .ok held) {peeked : TctClaims}
    (hp : peekTctClaims P entry.tct = .ok peeked) : peeked = held.claims := by
  simp only [verifyTct, bind_eq_ok, pure_eq_ok] at h
  obtain ⟨claims, hc, _, -, rfl⟩ := h
  obtain ⟨payload, hv, hd⟩ := (verifyTctBeforeRevocation_ok hc).signed
  exact peekTctClaims_of_signed hv hd hp

/-- An accepted bundle is the signed membership of its session. -/
theorem verifySessionBundle_membership (h : verifySessionBundle P bundle ctx = .ok outcome) :
    ∃ es, Membership P bundle ctx outcome es := by
  obtain ⟨window, key, es, -, hn, hw, hwin, hne, hk, -, hj, hfst, hes, hm, rfl⟩ :=
    verifySessionBundle_eq_ok.mp h
  refine ⟨es, hfst, fun e he => verifiedEntry_of_verifyTct (hes e he), hne, hm, ?_, hn, hk.manifest,
    ⟨key, hk.key, bundleSigningBytes_eq bundle ▸ hj⟩, ?_, ?_⟩
  · have hpeek : ∀ e ∈ es.map fun e => (e.1, e.2.claims), ∀ c,
        peekTctClaims P e.1.tct = .ok c → c = e.2 := by
      rintro e he c hc
      obtain ⟨e', he', rfl⟩ := List.mem_map.mp he
      exact peekTctClaims_of_verifyTct (hes e' he') hc
    have hmap : (es.map fun e => (e.1, e.2.claims)).map Prod.fst = bundle.participants := by
      simpa [Function.comp_def] using hfst
    have hwindow := peekMinExp_ok hpeek (hmap ▸ hw)
    have hes' : es ≠ [] := fun hn => hne (by rw [← hfst, hn]; rfl)
    obtain ⟨e, rest, rfl⟩ := List.exists_cons_of_ne_nil hes'
    obtain ⟨m, hfold, hleast⟩ :=
      exists_isLeast_minExp e.2.claims.exp (rest.map fun e => e.2.claims.exp)
    obtain rfl := hwin m (by simpa [Function.comp_def, hfold] using hwindow)
    convert hleast using 1
    ext t
    simp [eq_comm]
  · simp [VerifiedEntries.aids]
  · simp [VerifiedEntries.aids]

/-! ## Bundles as they were built -/

/-- A built bundle is accepted while its tokens verify, by those it lists. -/
theorem verifySessionBundle_build {b : SessionBundleBuilder} {key : VerifyingKey} {drawn : RandomV4}
    {clock : Timestamp} {es : VerifiedEntries} (hs : b.coordinatorKey.Lawful P key)
    (hb : b.build P drawn clock = .ok bundle) (hn : ctx.now ≤ bundle.expiresAt)
    (hk : ∀ m, ctx.coordinatorKey = .manifest m →
      verifyManifest P m ctx.manifestContext = .ok () ∧ m.aid = bundle.coordinator)
    (hp : es.map Prod.fst = b.participants)
    (hes : ∀ e ∈ es,
      verifyTct P e.1.tct (ctx.tctContext b.coordinatorKey.aid ctx.cap e.1) = .ok e.2)
    (hm : ∃ p ∈ b.participants, p.aid = ctx.verifierAid) :
    verifySessionBundle P bundle ctx = .ok (.of (es.aids ctx false) (es.aids ctx true)) := by
  obtain ⟨hv, hc, hps, hne, hw, hsig⟩ := SessionBundleBuilder.build_ok hb
  obtain ⟨hparse, hj⟩ := signJcs_verifies hs hsig
  have hwin : ∀ t, some bundle.expiresAt = some t → t = bundle.expiresAt :=
    fun t ht => (Option.some.inj ht).symm
  refine verifySessionBundle_eq_ok.mpr ⟨some bundle.expiresAt, key, es, hv, hn, ?_, hwin, ?_,
    ⟨hc ▸ hs.1, hk⟩, hparse, hj, ?_, ?_, ?_, rfl⟩
  · rw [hps]
    exact peekMinExp_unchecked hw
  · rw [hps]
    exact hne
  · rw [hps]
    exact hp
  · rw [hc]
    exact hes
  · rw [hps]
    exact hm

namespace Toy

/-- What one agent issues to another. -/
def heldClaims (issuer holder : Fin 4) (jti : Fin 16) (exp : Timestamp) : TctClaims where
  ver := protocolVersion
  jti := uuid jti
  iss := agent issuer
  sub := agent holder
  aud := agent holder
  iat := 0
  exp := exp
  grants := ["demo.echo"]
  jkt := (agentKey holder).toJwkThumbprintSha256 primitives
  ext := none

/-- An entry of agent 1 in a bundle of agent 0. -/
def entry (jti : Fin 16) : ParticipantEntry where
  aid := agent 1
  tct := signed (agent 0) typTct (heldClaims 0 1 jti 100).toValue

def held (jti : Fin 16) : VerifiedTct where
  token := (entry jti).tct
  claims := heldClaims 0 1 jti 100
  effectiveGrants := ["demo.echo"]

/-- Agent 1 verifies a bundle of agent 0 that it was told to trust, and holds one token revoked. -/
def bundleContext (revoked : Fin 16) : SessionBundleVerifyContext where
  verifierAid := agent 1
  now := 10
  revocationCheck := some fun u => decide (u = uuid revoked)
  coordinatorKey := .unverifiedAidDangerous
  insecureLocalhostDangerous := false

def bundleBuilder : SessionBundleBuilder where
  coordinatorKey := signer (agent 0)
  sessionId := some (uuid 0)
  participants := [entry 1, entry 2]
  issuedAt := some 0
  extensions := none

theorem writable_heldClaims (jti : Fin 16) : (heldClaims 0 1 jti 100).Writable primitives :=
  ⟨checkV4_uuid jti, show Timestamp.Fits 0 by decide, show Timestamp.Fits 100 by decide, nofun⟩

theorem exact_heldClaims (jti : Fin 16) :
    (heldClaims 0 1 jti 100).iat.Exact ∧ (heldClaims 0 1 jti 100).exp.Exact :=
  ⟨show Timestamp.Exact 0 by decide, show Timestamp.Exact 100 by decide⟩

theorem signCompact_entry (jti : Fin 16) : signCompact (signer (agent 0)) typTct
    (heldClaims 0 1 jti 100).toValue = .ok (entry jti).tct :=
  signCompact_signer (by decide)

theorem verifyTct_entry (revoked jti : Fin 16) : verifyTct primitives (entry jti).tct
    ((bundleContext revoked).tctContext (agent 0) none (entry jti)) = .ok (held jti) := by
  have hne : agent 0 ≠ agent 1 := fun h => agentKey_ne (by simp only [agentKey, h])
  have hcnf : checkCnf primitives (agent 1) (heldClaims 0 1 jti 100).jkt = .ok () := by
    have hk : VerifyingKey.fromAid primitives (agent 1) = .ok (agentKey 1) :=
      (signer_lawful (agent 1)).1
    simp [checkCnf, hk, heldClaims, ensure]
  have hp : (heldClaims 0 1 jti 100).Presentable primitives
      ((bundleContext revoked).tctContext (agent 0) none (entry jti)) := by
    refine ⟨writable_heldClaims jti, exact_heldClaims jti, rfl, rfl, rfl, rfl, hne, ?_, ?_, ?_, ?_,
      List.cons_ne_nil _ _, hcnf⟩
    · exact show attestationGrant ∉ ["demo.echo"] by decide
    · exact show Timestamp.saturatingSub 10 0 ≤ 100 by decide
    · exact show 0 ≤ Timestamp.saturatingAdd 10 0 by decide
    · rintro _ ⟨⟩
  have hv := verifyTctBeforeRevocation_signCompact readsText (signer_lawful (agent 0)) hp rfl
    (signCompact_entry jti)
  simp only [verifyTct, hv, ok_bind]
  rfl

/-- A bundle with two tokens of agent 1 is built and accepted, whichever of them is revoked. -/
theorem exists_bundle : ∃ bundle : SessionTrustBundle,
    bundleBuilder.build primitives ⟨uuid 0, checkV4_uuid 0⟩ 0 = .ok bundle ∧
      ∀ revoked, verifySessionBundle primitives bundle (bundleContext revoked) =
        .ok (.of (VerifiedEntries.aids [(entry 1, held 1), (entry 2, held 2)]
            (bundleContext revoked) false)
          (VerifiedEntries.aids [(entry 1, held 1), (entry 2, held 2)]
            (bundleContext revoked) true)) := by
  have hpeek : ∀ e ∈ [(entry 1, heldClaims 0 1 1 100), (entry 2, heldClaims 0 1 2 100)],
      peekTctClaims primitives e.1.tct = .ok e.2 ∧ bundleBuilder.checkEntry e.1 e.2 = .ok () := by
    have hone : ∀ j, peekTctClaims primitives (entry j).tct = .ok (heldClaims 0 1 j 100) ∧
        bundleBuilder.checkEntry (entry j) (heldClaims 0 1 j 100) = .ok () := by
      rintro j
      refine ⟨peekTctClaims_signCompact readsText (signer_lawful (agent 0))
        (writable_heldClaims j) (exact_heldClaims j) (signCompact_entry j), ?_⟩
      simp [SessionBundleBuilder.checkEntry, heldClaims, bundleBuilder, signer, entry, ensure]
    simpa using ⟨hone 1, hone 2⟩
  have hw : peekMinExp primitives bundleBuilder.checkEntry none bundleBuilder.participants =
      .ok (some 100) := peekMinExp_of_forall hpeek none
  obtain ⟨bundle, hb⟩ : ∃ bundle,
      bundleBuilder.build primitives ⟨uuid 0, checkV4_uuid 0⟩ 0 = .ok bundle := by
    simp only [SessionBundleBuilder.build, SessionBundleBuilder.draft, hw, ok_bind, okOr_some]
    exact ⟨_, rfl⟩
  obtain ⟨-, -, -, -, hw', -⟩ := SessionBundleBuilder.build_ok hb
  have hx : bundle.expiresAt = 100 :=
    (Option.some.inj (Except.ok.inj (hw.symm.trans hw'))).symm
  have hk : ∀ revoked m, (bundleContext revoked).coordinatorKey ≠ .manifest m := by
    simp [bundleContext]
  refine ⟨bundle, hb, fun revoked => verifySessionBundle_build (signer_lawful _) hb ?_
    (fun m hm => absurd hm (hk revoked m)) rfl ?_ ⟨entry 1, List.mem_cons_self, rfl⟩⟩
  · rw [hx]
    exact show (10 : Timestamp) ≤ 100 by decide
  · rintro e he
    simp only [List.mem_cons, List.not_mem_nil, or_false] at he
    obtain rfl | rfl := he
    · exact verifyTct_entry revoked 1
    · exact verifyTct_entry revoked 2

end Toy

/-- A bundle one of whose tokens is revoked. -/
theorem verifySessionBundle_membership_toy : ∃ (bundle : SessionTrustBundle) (outcome : BundleOutcome)
    (es : VerifiedEntries),
    verifySessionBundle Toy.primitives bundle (Toy.bundleContext 1) = .ok outcome ∧
      Membership Toy.primitives bundle (Toy.bundleContext 1) outcome es ∧
      outcome.activeAids = [Toy.agent 1] ∧ outcome.droppedAids = [Toy.agent 1] := by
  obtain ⟨bundle, -, h⟩ := Toy.exists_bundle
  obtain ⟨es, hes⟩ := verifySessionBundle_membership (h 1)
  exact ⟨bundle, _, es, h 1, hes, rfl, rfl⟩

/-! ## Members that are listed twice -/

/-- The outcome reports every agent once, and a revoked one as dropped. -/
structure CleanSplit (P : Primitives) (bundle : SessionTrustBundle)
    (ctx : SessionBundleVerifyContext) (outcome : BundleOutcome) : Prop where
  revoked : ∀ entry ∈ bundle.participants, ∀ held,
    verifyTct P entry.tct (ctx.tctContext bundle.coordinator ctx.cap entry) = .ok held →
    ctx.isRevoked held.claims.jti = true → entry.aid ∉ outcome.activeAids
  disjoint : outcome.activeAids.Disjoint outcome.droppedAids
  active : outcome.activeAids.Nodup
  dropped : outcome.droppedAids.Nodup

theorem nodup_map_iff_filter {α β : Type} (f : α → β) (p : α → Bool) (l : List α) :
    (l.map f).Nodup ↔ ((l.filter fun a => !p a).map f).Disjoint ((l.filter p).map f) ∧
      ((l.filter fun a => !p a).map f).Nodup ∧ ((l.filter p).map f).Nodup := by
  have hp : (l.filter p ++ l.filter fun a => !p a).Perm l := List.filter_append_perm p l
  rw [← (hp.map f).nodup_iff, List.map_append, List.nodup_append_comm, List.nodup_append']
  exact ⟨fun ⟨ha, hd, hx⟩ => ⟨hx, ha, hd⟩, fun ⟨hx, ha, hd⟩ => ⟨ha, hd, hx⟩⟩

/-- The split of an accepted bundle is clean exactly when no agent is listed twice. -/
theorem verifySessionBundle_cleanSplit (h : verifySessionBundle P bundle ctx = .ok outcome) :
    CleanSplit P bundle ctx outcome ↔ (bundle.participants.map ParticipantEntry.aid).Nodup := by
  obtain ⟨window, key, es, -, -, -, -, -, -, -, -, hfst, hes, -, rfl⟩ :=
    verifySessionBundle_eq_ok.mp h
  have hmap : bundle.participants.map ParticipantEntry.aid = es.map fun e => e.1.aid := by
    rw [← hfst, List.map_map]
    rfl
  have hiff := nodup_map_iff_filter (fun e : ParticipantEntry × VerifiedTct => e.1.aid)
    (fun e => ctx.isRevoked e.2.claims.jti) es
  rw [hmap, hiff]
  constructor
  · rintro ⟨-, hx, ha, hd⟩
    exact ⟨by simpa [VerifiedEntries.aids] using hx, by simpa [VerifiedEntries.aids] using ha,
      by simpa [VerifiedEntries.aids] using hd⟩
  · rintro ⟨hx, ha, hd⟩
    refine ⟨?_, by simpa [VerifiedEntries.aids] using hx, by simpa [VerifiedEntries.aids] using ha,
      by simpa [VerifiedEntries.aids] using hd⟩
    rintro entry hentry held hheld hrev hactive
    obtain ⟨e, he, rfl⟩ := List.mem_map.mp (hfst ▸ hentry)
    obtain rfl := Except.ok.inj ((hes e he).symm.trans hheld)
    refine hx (a := e.1.aid) (by simpa [VerifiedEntries.aids] using hactive) ?_
    exact List.mem_map.mpr ⟨e, List.mem_filter.mpr ⟨he, hrev⟩, rfl⟩

open Toy in
/-- An agent with a revoked token beside one in good standing is both active and dropped. -/
theorem verifySessionBundle_bothActiveAndDropped : ∃ bundle : SessionTrustBundle,
    bundleBuilder.build primitives ⟨uuid 0, checkV4_uuid 0⟩ 0 = .ok bundle ∧
      verifySessionBundle primitives bundle (bundleContext 1) =
        .ok (.degradedSubset [agent 1] [agent 1]) ∧
      ¬ CleanSplit primitives bundle (bundleContext 1) (.degradedSubset [agent 1] [agent 1]) := by
  obtain ⟨bundle, hb, h⟩ := exists_bundle
  have h₁ : (bundleContext 1).isRevoked (held 1).claims.jti = true := by
    simp [SessionBundleVerifyContext.isRevoked, bundleContext, held, heldClaims]
  have h₂ : (bundleContext 1).isRevoked (held 2).claims.jti = false := by
    have hne : uuid 2 ≠ uuid 1 := by decide
    simp [SessionBundleVerifyContext.isRevoked, bundleContext, held, heldClaims, hne]
  have hv := h 1
  simp only [VerifiedEntries.aids, List.filter_cons, h₁, h₂, if_true,
    List.filter_nil, Bool.beq_eq_decide_eq, decide_false, decide_true, reduceCtorEq, if_false,
    List.map_cons, List.map_nil, Bool.false_eq_true] at hv
  refine ⟨bundle, hb, hv.trans rfl, ?_⟩
  rintro ⟨-, hd, -⟩
  exact hd (List.mem_singleton_self _) (List.mem_singleton_self _)

open Toy in
theorem verifySessionBundle_cleanSplit_toy : ∃ (bundle : SessionTrustBundle)
    (outcome : BundleOutcome),
    verifySessionBundle primitives bundle (bundleContext 1) = .ok outcome ∧
      (CleanSplit primitives bundle (bundleContext 1) outcome ↔
        (bundle.participants.map ParticipantEntry.aid).Nodup) := by
  obtain ⟨bundle, -, h⟩ := exists_bundle
  exact ⟨bundle, _, h 1, verifySessionBundle_cleanSplit (h 1)⟩

end Aitp
