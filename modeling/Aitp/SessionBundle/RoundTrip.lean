import Aitp.SessionBundle.Membership
import Aitp.SessionBundle.Wire
import Aitp.Tct.RoundTrip

/-! # Session bundles on the wire

A bundle of tokens that its coordinator issued, built, wrapped, written, read and
verified by one of its participants, reports the participants in order. The
coordinator itself is never a participant: its only token is a self-attestation.
-/

namespace Aitp

variable {P : Primitives}

/-! ## Writing and reading -/

/-- A bundle that Rust's types can hold, and the parser can read in its wrapper. -/
structure SessionTrustBundle.Writable (P : Primitives) (bundle : SessionTrustBundle) : Prop where
  issuedAt : bundle.issuedAt.Fits
  expiresAt : bundle.expiresAt.Fits
  extensions : Holdable P (nestingLimit - 2) bundle.extensions

theorem decodeParticipantEntry_toValue (p : ParticipantEntry) :
    decodeParticipantEntry p.toValue = some p := by
  unfold decodeParticipantEntry ParticipantEntry.toValue
  rw [Serde.structFields_obj_written (by decide) rfl (by simp [participantEntryFields])]
  simp [Json.asStr]

namespace SessionTrustBundle.Writable

variable {bundle : SessionTrustBundle}

theorem decode_toValue (h : bundle.Writable P) :
    decodeSessionTrustBundle bundle.toValue = some bundle := by
  have hu : decodeUuid (.str bundle.sessionId.hyphenated) = some bundle.sessionId :=
    Uuid.tryParse_hyphenated _
  have hx := h.extensions.optional_map
  unfold decodeSessionTrustBundle SessionTrustBundle.toValue SessionTrustBundle.body
  rw [Serde.structFields_obj_written (by decide) rfl
    (by simp [sessionTrustBundleFields, bundleSigningBodyFields])]
  simp [Json.asStr, hu, hx, Serde.vec_map decodeParticipantEntry_toValue,
    i64_of_fits h.issuedAt, i64_of_fits h.expiresAt]

theorem readable_toValue (hP : P.ReadsText) (h : bundle.Writable P) :
    bundle.toValue.readable P.keeps (nestingLimit - 1) = true := by
  have hp : (Json.arr (bundle.participants.map ParticipantEntry.toValue)).readable P.keeps 125 =
      true := by
    apply Json.readable_arr
    intro v hv
    obtain ⟨p, -, rfl⟩ := List.mem_map.mp hv
    exact Serde.readable_written (by simp)
  have hx : (bundle.extensions.map Json.obj).all (Json.readable P.keeps · 125) = true :=
    h.extensions.all_readable
  refine Serde.readable_written ?_
  simp only [SessionTrustBundle.body, List.cons_append, List.nil_append, List.all_cons,
    List.all_nil, Option.all_some, Json.readable_str, hp, h.issuedAt.readable_int hP,
    h.expiresAt.readable_int hP, hx, Bool.and_true]

theorem distinctKeys_toValue (h : bundle.Writable P) : bundle.toValue.distinctKeys = true := by
  have hp : (Json.arr (bundle.participants.map ParticipantEntry.toValue)).distinctKeys = true := by
    simp only [Json.distinctKeys, Json.distinctItems_iff, List.mem_map]
    rintro v ⟨p, -, rfl⟩
    exact Serde.distinctKeys_written_of_all (by decide) (by simp)
  refine Serde.distinctKeys_written_of_all (by decide) ?_
  simp only [SessionTrustBundle.body, List.cons_append, List.nil_append, List.all_cons,
    List.all_nil, Option.all_some, Json.distinctKeys_str, Json.distinctKeys_int, hp,
    h.extensions.all_distinctKeys, Bool.and_true]

end SessionTrustBundle.Writable

/-- `Serialize for SessionBundleEnvelope`. -/
def SessionTrustBundle.wrapped (bundle : SessionTrustBundle) : Json :=
  .obj [("session_bundle", bundle.toValue)]

theorem parseSessionBundleEnvelope_sent (hP : P.ReadsText) {bundle : SessionTrustBundle}
    (h : bundle.Writable P) : ∃ value,
      CheckedJson.fromSlice P (utf8 bundle.wrapped.text) = some value ∧
        parseSessionBundleEnvelope value = .ok bundle := by
  have hf : bundle.wrapped.readable P.keeps nestingLimit = true :=
    have hv : bundle.toValue.readable P.keeps 126 = true := h.readable_toValue hP
    Json.readable_obj (by simpa using hv)
  have hd : bundle.wrapped.distinctKeys = true := by
    simp [SessionTrustBundle.wrapped, Json.distinctKeys, Json.distinctMembers,
      h.distinctKeys_toValue]
  refine ⟨⟨bundle.wrapped, hd⟩, CheckedJson.fromSlice_text hP hf hd, ?_⟩
  have hg : bundle.wrapped.get "session_bundle" = some bundle.toValue := by
    simp [SessionTrustBundle.wrapped, Json.get, Json.members]
  have hm : checkMembers bundle.wrapped sessionBundleEnvelopeMembers = none := rfl
  have hb : checkMembers bundle.toValue sessionBundleMembers = none :=
    checkMembers_obj_written (by decide)
  simp [parseSessionBundleEnvelope, parseSessionBundleWire, hg, ensure, ensureMembers, hm, hb,
    h.decode_toValue]

/-! ## Members -/

/-- A participant with the builder of its token, the clock it was built at and what was issued. -/
structure Member where
  aid : Aid
  builder : TctBuilder
  clock : Timestamp
  issued : IssuedTct

/-- The entry of a member in a bundle. -/
def Member.entry (m : Member) : ParticipantEntry where
  aid := m.aid
  tct := m.issued.token

/-- The entry with its token as a grant context accepts it. -/
def Member.verified (P : Primitives) (m : Member) : ParticipantEntry × VerifiedTct :=
  (m.entry, ⟨m.issued.token, m.issued.claims.reread P, m.issued.claims.grants⟩)

/-- The coordinator issued the member's token for its identifier. -/
structure Member.IssuedBy (P : Primitives) (coordinator : Signer) (m : Member) : Prop where
  issuerKey : m.builder.issuerKey = coordinator
  wellTyped : m.builder.WellTyped P m.clock
  built : m.builder.build P m.clock = .ok m.issued
  sub : m.issued.claims.sub = m.aid

namespace Member.IssuedBy

variable {coordinator : Signer} {key : VerifyingKey} {m : Member}

theorem claims (h : m.IssuedBy P coordinator) :
    m.issued.claims.Writable P ∧ m.issued.claims.iss = coordinator.aid ∧
      m.issued.claims.aud = m.aid := by
  obtain ⟨d, hd, -, -, hc⟩ := TctBuilder.build_eq_ok.mp h.built
  have hs := h.sub
  rw [hc] at hs ⊢
  cases ha : m.builder.attestation with
  | false =>
    obtain ⟨_, _, _, -, -, -, hj, -, -, -, -, -, rfl⟩ := (TctBuilder.draft_eq_ok ha).mp hd
    exact ⟨TctClaims.writable_claims (JtiSource.checkV4_of_resolve hj) h.wellTyped.issuedAt
      h.wellTyped.ext, congrArg Signer.aid h.issuerKey, hs⟩
  | true =>
    obtain ⟨_, _, _, -, -, hj, rfl⟩ := (TctBuilder.draft_attestation_eq_ok ha).mp hd
    exact ⟨TctClaims.writable_claims (JtiSource.checkV4_of_resolve hj) h.wellTyped.issuedAt
      h.wellTyped.ext, congrArg Signer.aid h.issuerKey, hs⟩

/-- The coordinator reads the token as it built it, and finds nothing wrong with it. -/
theorem peek (hP : P.ReadsText) (h : m.IssuedBy P coordinator)
    (hs : coordinator.Lawful P key) (hx : m.issued.claims.Exact) {b : SessionBundleBuilder}
    (hb : b.coordinatorKey = coordinator) :
    peekTctClaims P m.entry.tct = .ok (m.issued.claims.reread P) ∧
      b.checkEntry m.entry (m.issued.claims.reread P) = .ok () := by
  obtain ⟨hw, hi, hau⟩ := h.claims
  obtain ⟨d, -, ht, -, hc⟩ := TctBuilder.build_eq_ok.mp h.built
  rw [h.issuerKey, ← hc] at ht
  refine ⟨peekTctClaims_signCompact hP hs hw hx ht, ?_⟩
  simp [SessionBundleBuilder.checkEntry, TctClaims.reread, hi, hau, hb, Member.entry, ensure]

end Member.IssuedBy

/-! ## Building and accepting -/

/-- A builder over the tokens of its members. -/
structure SessionBundleBuilder.Lists (P : Primitives) (b : SessionBundleBuilder)
    (clock : Timestamp) (members : List Member) : Prop where
  participants : b.participants = members.map Member.entry
  issuedBy : ∀ m ∈ members, m.IssuedBy P b.coordinatorKey
  issuedAt : (b.issuedAt.getD clock).Fits
  extensions : Holdable P (nestingLimit - 2) b.extensions

/-- The coordinator's manifest covers the tokens of the members, which all live and are not
revoked. -/
structure SessionBundleVerifyContext.Covers (P : Primitives) (ctx : SessionBundleVerifyContext)
    (coordinator : Aid) (members : List Member) : Prop where
  manifest : ∃ m, ctx.coordinatorKey = .manifest m ∧
    verifyManifest P m ctx.manifestContext = .ok () ∧ m.aid = coordinator ∧
      ∀ i ∈ members, i.issued.claims.exp ≤ m.expiresAt
  iat : ∀ i ∈ members, i.issued.claims.iat ≤ ctx.now
  exp : ∀ i ∈ members, ctx.now ≤ i.issued.claims.exp
  clear : ∀ i ∈ members, ctx.isRevoked i.issued.claims.jti = false

variable {b : SessionBundleBuilder} {clock : Timestamp} {members : List Member}
  {key : VerifyingKey} {ctx : SessionBundleVerifyContext}

/-- A bundle over tokens of the coordinator is built, and ends with the first of them. -/
theorem SessionBundleBuilder.exists_build (drawn : RandomV4) (hP : P.ReadsText)
    (h : b.Lists P clock members) (hexact : ∀ m ∈ members, m.issued.claims.Exact)
    (hs : b.coordinatorKey.Total P key) (hne : members ≠ []) :
    ∃ bundle, b.build P drawn clock = .ok bundle ∧ bundle.Writable P ∧
      IsLeast {t | ∃ m ∈ members, m.issued.claims.exp = t} bundle.expiresAt := by
  have hpeek : ∀ e ∈ members.map fun m => (m.entry, (m.issued.claims.reread P)),
      peekTctClaims P e.1.tct = .ok e.2 ∧ b.checkEntry e.1 e.2 = .ok () := by
    intro e he
    obtain ⟨m, hm, rfl⟩ := List.mem_map.mp he
    exact (h.issuedBy m hm).peek hP hs.lawful (hexact m hm) rfl
  have hw := peekMinExp_of_forall hpeek none
  have hfst : (members.map fun m => (m.entry, (m.issued.claims.reread P))).map Prod.fst =
      b.participants := by
    rw [h.participants, List.map_map]
    rfl
  obtain ⟨m, rest, rfl⟩ := List.exists_cons_of_ne_nil hne
  obtain ⟨t, hfold, hleast⟩ :=
    exists_isLeast_minExp m.issued.claims.exp (rest.map fun m => m.issued.claims.exp)
  have hsnd : ((m :: rest).map fun m => (m.entry, (m.issued.claims.reread P))).map
      (fun e => e.2.exp) = m.issued.claims.exp :: rest.map fun m => m.issued.claims.exp := by
    simp [TctClaims.reread, Function.comp_def]
  rw [hfst, hsnd, hfold] at hw
  have hleast' : IsLeast {t | ∃ i ∈ m :: rest, i.issued.claims.exp = t} t := by
    convert hleast using 1
    ext x
    simp [eq_comm]
  obtain ⟨i, hi, hit⟩ := hleast'.1
  have hx : t.Fits := hit ▸ (h.issuedBy i hi).claims.1.exp
  have hnil : b.participants ≠ [] := by
    rw [h.participants]
    exact List.cons_ne_nil _ _
  obtain ⟨draft, hd, hdt, hdi, hdx⟩ : ∃ draft, b.draft P drawn clock = .ok draft ∧
      draft.expiresAt = t ∧ draft.issuedAt = b.issuedAt.getD clock ∧
        draft.extensions = b.extensions := by
    simp only [SessionBundleBuilder.draft, bind_eq_ok, ensure_eq_ok, okOr_eq_ok, pure_eq_ok,
      exists_const]
    exact ⟨_, ⟨by simpa using hnil, some t, hw, t, rfl, rfl⟩, rfl, rfl, rfl⟩
  obtain ⟨sig, hsig⟩ := hs.signJcs (bundleSigningBytes draft)
  refine ⟨{ draft with signature := sig }, ?_, ⟨?_, ?_, ?_⟩, ?_⟩
  · simp [SessionBundleBuilder.build, hd, hsig]
  · exact hdi ▸ h.issuedAt
  · exact hdt ▸ hx
  · rw [hdx]
    exact h.extensions
  · exact hdt ▸ hleast'

/-- A bundle of tokens that its coordinator issued to holders is built, and what is read of it at
the other end is accepted by every participant while all of them live. -/
theorem sessionBundle_roundTrip (drawn : RandomV4) (hP : P.ReadsText)
    (h : b.Lists P clock members) (hexact : ∀ m ∈ members, m.issued.claims.Exact)
    (hs : b.coordinatorKey.Total P key) (hne : members ≠ [])
    (ha : ∀ m ∈ members, m.builder.attestation = false)
    (hc : ctx.Covers P b.coordinatorKey.aid members)
    (hm : ∃ m ∈ members, m.aid = ctx.verifierAid) :
    ∃ built value received, b.build P drawn clock = .ok built ∧
      CheckedJson.fromSlice P (utf8 built.wrapped.text) = some value ∧
      parseSessionBundleEnvelope value = .ok received ∧
      verifySessionBundle P received ctx = .ok (.clear (members.map Member.aid)) := by
  obtain ⟨bundle, hb, hw, hleast⟩ := SessionBundleBuilder.exists_build drawn
    hP h hexact hs hne
  obtain ⟨value, hv, hp⟩ := parseSessionBundleEnvelope_sent hP hw
  refine ⟨bundle, value, bundle, hb, hv, hp, ?_⟩
  obtain ⟨manifest, hk, hman, hma, hcap⟩ := hc.manifest
  have hbc : bundle.coordinator = b.coordinatorKey.aid := (SessionBundleBuilder.build_ok hb).2.1
  obtain ⟨i, hi, hix⟩ := hleast.1
  have hcapm : ctx.cap = some manifest.expiresAt := by
    simp [SessionBundleVerifyContext.cap, hk]
  have hclear : ∀ e ∈ members.map (Member.verified P), ctx.isRevoked e.2.claims.jti = false := by
    intro e he
    obtain ⟨m, hm, rfl⟩ := List.mem_map.mp he
    exact hc.clear m hm
  obtain ⟨hactive, hdropped⟩ := VerifiedEntries.aids_of_clear hclear
  have hes : verifySessionBundle P bundle ctx =
      .ok (.of (VerifiedEntries.aids (members.map (Member.verified P)) ctx false)
        (VerifiedEntries.aids (members.map (Member.verified P)) ctx true)) := by
    refine verifySessionBundle_build hs.lawful hb (hix ▸ hc.exp i hi) ?_ ?_ ?_ ?_
    · rintro m hm
      obtain rfl := CoordinatorKeySource.manifest.inj (hk.symm.trans hm)
      exact ⟨hman, hma.trans hbc.symm⟩
    · rw [h.participants, List.map_map]
      rfl
    · intro e he
      obtain ⟨m, hm, rfl⟩ := List.mem_map.mp he
      have hi := h.issuedBy m hm
      have hlawful : m.builder.issuerKey.Lawful P key := hi.issuerKey ▸ hs.lawful
      refine verifyTct_build hP hi.wellTyped hlawful (ha m hm) hi.built
        ?_ ?_ (hexact m hm) ⟨hc.iat m hm, hc.exp m hm, ?_⟩ rfl
      · rw [hi.issuerKey]
        rfl
      · exact hi.sub.symm
      · rintro t ht
        obtain rfl := Option.some.inj (hcapm.symm.trans ht)
        exact hcap m hm
    · obtain ⟨m, hm, hv⟩ := hm
      rw [h.participants]
      exact ⟨m.entry, List.mem_map_of_mem hm, hv⟩
  rw [hes, hactive, hdropped, List.map_map]
  rfl

theorem verifySessionBundle_aid_ne {bundle : SessionTrustBundle} {outcome : BundleOutcome}
    (h : verifySessionBundle P bundle ctx = .ok outcome) :
    ∀ p ∈ bundle.participants, p.aid ≠ bundle.coordinator := by
  obtain ⟨-, -, es, -, -, -, -, -, -, -, -, hfst, hes, -⟩ := verifySessionBundle_eq_ok.mp h
  intro p hp
  rw [← hfst] at hp
  obtain ⟨e, he, rfl⟩ := List.mem_map.mp hp
  have hv := hes e he
  simp only [verifyTct, bind_eq_ok] at hv
  obtain ⟨claims, hc, -⟩ := hv
  have hg := verifyTctBeforeRevocation_ok hc
  have hne := hg.notSelf
  rw [hg.iss, hg.sub] at hne
  exact hne.symm

namespace Toy

/-- Agent 0 attests to itself. -/
def attestationBuilder : TctBuilder := { tctBuilder with ext := some [], attestation := true }

/-- A bundle of agent 0 over the given entries. -/
def memberBuilder (members : List Member) : SessionBundleBuilder where
  coordinatorKey := signer (agent 0)
  sessionId := none
  participants := members.map Member.entry
  issuedAt := none
  extensions := some []

/-- The context of a verifier that has the manifest of agent 0. -/
def memberContext (verifier : Aid) : SessionBundleVerifyContext where
  verifierAid := verifier
  now := 50
  revocationCheck := none
  coordinatorKey := .manifest (manifest (agent 0) ["demo.echo"] ["demo.echo"] 0)
  insecureLocalhostDangerous := false

theorem lists_memberBuilder {members : List Member}
    (h : ∀ m ∈ members, m.IssuedBy primitives (signer (agent 0))) :
    (memberBuilder members).Lists primitives 0 members := by
  refine ⟨rfl, h, show Timestamp.Fits 0 by decide, ?_⟩
  rintro ms ⟨⟩
  exact ⟨rfl, rfl⟩

theorem exact_of_times {members : List Member}
    (h : ∀ m ∈ members, m.issued.claims.iat = 0 ∧ m.issued.claims.exp = 100) :
    ∀ m ∈ members, m.issued.claims.Exact := by
  intro m hm
  obtain ⟨hi, hx⟩ := h m hm
  exact ⟨hi ▸ show Timestamp.Exact 0 by decide, hx ▸ show Timestamp.Exact 100 by decide⟩

theorem covers_memberContext {members : List Member} (verifier : Aid)
    (h : ∀ m ∈ members, m.issued.claims.iat = 0 ∧ m.issued.claims.exp = 100) :
    (memberContext verifier).Covers primitives (agent 0) members := by
  have hm : verifyManifest primitives (manifest (agent 0) ["demo.echo"] ["demo.echo"] 0)
      (memberContext verifier).manifestContext = .ok () :=
    verifyManifest_manifest 0 (by decide) (by decide) (by decide)
      (show (50 : Timestamp) ≤ Timestamp.saturatingAdd 0 defaultManifestTtl by decide)
  refine ⟨⟨_, rfl, hm, rfl, ?_⟩, ?_, ?_, fun _ _ => rfl⟩
  · intro m hi
    rw [(h m hi).2]
    exact show (100 : Timestamp) ≤ Timestamp.saturatingAdd 0 defaultManifestTtl by decide
  · intro m hi
    rw [(h m hi).1]
    exact show (0 : Timestamp) ≤ 50 by decide
  · intro m hi
    rw [(h m hi).2]
    exact show (50 : Timestamp) ≤ 100 by decide

end Toy

open Toy in
/-- A bundle over one token of agent 0 for agent 1 reaches agent 1. -/
theorem sessionBundle_roundTrip_toy : ∃ member built value received, member.aid = agent 1 ∧
    (memberBuilder [member]).build primitives ⟨uuid 0, checkV4_uuid 0⟩ 0 = .ok built ∧
      CheckedJson.fromSlice primitives (utf8 built.wrapped.text) = some value ∧
      parseSessionBundleEnvelope value = .ok received ∧
      verifySessionBundle primitives received (memberContext (agent 1)) =
        .ok (.clear [agent 1]) := by
  obtain ⟨d, hd, hc⟩ := draft_tctBuilder
  obtain ⟨issued, hb, hi⟩ := TctBuilder.exists_build (signer_total (agent 0)) hd
  have hl : ∀ m ∈ [Member.mk (agent 1) tctBuilder 0 issued],
      m.IssuedBy primitives (signer (agent 0)) := by
    simp only [List.mem_singleton, forall_eq]
    exact ⟨rfl, wellTyped_tctBuilder, hb, by rw [hi, hc]; rfl⟩
  have ht : ∀ m ∈ [Member.mk (agent 1) tctBuilder 0 issued],
      m.issued.claims.iat = 0 ∧ m.issued.claims.exp = 100 := by
    simp only [List.mem_singleton, forall_eq, hi, hc]
    exact ⟨rfl, rfl⟩
  obtain ⟨built, value, received, h⟩ := sessionBundle_roundTrip ⟨uuid 0, checkV4_uuid 0⟩
    readsText (lists_memberBuilder hl) (exact_of_times ht) (signer_total (agent 0)) (List.cons_ne_nil _ _)
    (by simp only [List.mem_singleton, forall_eq]; rfl) (covers_memberContext (agent 1) ht)
    ⟨_, List.mem_singleton_self _, rfl⟩
  exact ⟨_, built, value, received, rfl, h⟩

namespace Toy

/-- A bundle that lists its coordinator with the self-attestation built for it is not accepted. -/
theorem bundle_attestation : ∃ member built,
    member.IssuedBy primitives (signer (agent 0)) ∧
      (memberBuilder [member]).Lists primitives 0 [member] ∧
      (memberContext (agent 0)).Covers primitives (agent 0) [member] ∧ member.aid = agent 0 ∧
      (memberBuilder [member]).build primitives ⟨uuid 0, checkV4_uuid 0⟩ 0 = .ok built ∧
      ∀ outcome, verifySessionBundle primitives built (memberContext (agent 0)) ≠ .ok outcome := by
  have hd : attestationBuilder.draft primitives 0 = .ok ⟨TctBuilder.claims primitives
      { attestationBuilder with grants := [attestationGrant] } (agent 0) (agentKey 0) (uuid 1) 0,
        none⟩ :=
    (TctBuilder.draft_attestation_eq_ok rfl).mpr ⟨[], agentKey 0, uuid 1, rfl,
      (signer_lawful (agent 0)).1, resolve_tctBuilder, rfl⟩
  obtain ⟨issued, hb, hi⟩ := TctBuilder.exists_build (signer_total (agent 0)) hd
  have hw : attestationBuilder.WellTyped primitives 0 := by
    refine ⟨wellTyped_tctBuilder.issuedAt, ?_, wellTyped_tctBuilder.subjectPubkey⟩
    rintro ms ⟨⟩
    exact ⟨rfl, rfl⟩
  have hm : Member.IssuedBy primitives (signer (agent 0))
      ⟨agent 0, attestationBuilder, 0, issued⟩ := ⟨rfl, hw, hb, by rw [hi]; rfl⟩
  have hl : ∀ m ∈ [Member.mk (agent 0) attestationBuilder 0 issued],
      m.IssuedBy primitives (signer (agent 0)) := by
    simp only [List.mem_singleton, forall_eq]
    exact hm
  have ht : ∀ m ∈ [Member.mk (agent 0) attestationBuilder 0 issued],
      m.issued.claims.iat = 0 ∧ m.issued.claims.exp = 100 := by
    simp only [List.mem_singleton, forall_eq, hi]
    exact ⟨rfl, rfl⟩
  obtain ⟨built, hbuilt, -, -⟩ := SessionBundleBuilder.exists_build
    ⟨uuid 0, checkV4_uuid 0⟩ readsText (lists_memberBuilder hl) (exact_of_times ht)
    (signer_total (agent 0)) (List.cons_ne_nil _ _)
  refine ⟨_, built, hm, lists_memberBuilder hl, covers_memberContext _ ht, rfl, hbuilt, ?_⟩
  intro outcome ho
  obtain ⟨-, hc, hps, -⟩ := SessionBundleBuilder.build_ok hbuilt
  have hne := verifySessionBundle_aid_ne ho ⟨agent 0, issued.token⟩
    (by rw [hps]; exact List.mem_singleton_self _)
  exact hne hc.symm

/-- The context of a verifier that has a manifest of agent 0 for all time. -/
def endlessContext : SessionBundleVerifyContext :=
  { memberContext (agent 1) with
    coordinatorKey := .manifest
      (manifest (agent 0) ["demo.echo"] ["demo.echo"] (i64Max - defaultManifestTtl)) }

/-- A token that is to last as long as a duration can say is not read, so no bundle lists it. -/
theorem bundle_endless : ∃ member : Member,
    member.IssuedBy primitives (signer (agent 0)) ∧ member.builder.attestation = false ∧
      (memberBuilder [member]).Lists primitives 0 [member] ∧
      endlessContext.Covers primitives (agent 0) [member] ∧ member.aid = endlessContext.verifierAid ∧
      ∀ drawn built, (memberBuilder [member]).build primitives drawn 0 ≠ .ok built := by
  obtain ⟨d, hd, hc⟩ := draft_endlessBuilder
  obtain ⟨issued, hb, hi⟩ := TctBuilder.exists_build (signer_total (agent 0)) hd
  obtain ⟨d', hd', ht, -, -⟩ := TctBuilder.build_eq_ok.mp hb
  obtain rfl : d = d' := Except.ok.inj (hd.symm.trans hd')
  rw [hc] at ht
  have hclaims : issued.claims = endlessClaims := hi.trans hc
  have hw : endlessBuilder.WellTyped primitives 0 :=
    ⟨wellTyped_tctBuilder.issuedAt, nofun, wellTyped_tctBuilder.subjectPubkey⟩
  have hm : Member.IssuedBy primitives (signer (agent 0)) ⟨agent 1, endlessBuilder, 0, issued⟩ :=
    ⟨rfl, hw, hb, by rw [hclaims]; rfl⟩
  have hl : ∀ m ∈ [Member.mk (agent 1) endlessBuilder 0 issued],
      m.IssuedBy primitives (signer (agent 0)) := by
    simp only [List.mem_singleton, forall_eq]
    exact hm
  have hman : verifyManifest primitives
      (manifest (agent 0) ["demo.echo"] ["demo.echo"] (i64Max - defaultManifestTtl))
      endlessContext.manifestContext = .ok () :=
    verifyManifest_manifest 0 (by decide) (by decide) (by decide) (by decide)
  refine ⟨_, hm, rfl, lists_memberBuilder hl, ⟨⟨_, rfl, hman, rfl, ?_⟩, ?_, ?_, ?_⟩, rfl, ?_⟩
  · simp only [List.mem_singleton, forall_eq, hclaims, exp_endlessClaims]
    decide
  · simp only [List.mem_singleton, forall_eq, hclaims]
    decide
  · simp only [List.mem_singleton, forall_eq, hclaims, exp_endlessClaims]
    decide
  · exact fun _ _ => rfl
  · intro drawn built h
    obtain ⟨-, -, -, -, hp, -⟩ := SessionBundleBuilder.build_ok h
    simp only [memberBuilder, Member.entry, List.map_cons, List.map_nil, peekMinExp, peekTctClaims,
      bind_eq_ok, mapErr_eq_ok, okOr_eq_ok] at hp
    obtain ⟨_, ⟨payload, hpay, -, -, -, -, hread⟩, -⟩ := hp
    obtain rfl := Except.ok.inj
      (hpay.symm.trans (decodePayloadUnverified_signCompact (signer_lawful (agent 0)) ht))
    rw [decode_endlessClaims] at hread
    cases hread

end Toy

open Toy in
/-- Neither a bundle that lists its coordinator nor one that lists a token whose times cannot be
read reaches its participants. -/
theorem sessionBundle_stopped : primitives.ReadsText ∧
    (∃ member built, member.IssuedBy primitives (signer (agent 0)) ∧
      (memberBuilder [member]).Lists primitives 0 [member] ∧
      (memberContext (agent 0)).Covers primitives (agent 0) [member] ∧ member.aid = agent 0 ∧
      (memberBuilder [member]).build primitives ⟨uuid 0, checkV4_uuid 0⟩ 0 = .ok built ∧
      ∀ outcome, verifySessionBundle primitives built (memberContext (agent 0)) ≠ .ok outcome) ∧
    ∃ member : Member,
      member.IssuedBy primitives (signer (agent 0)) ∧ member.builder.attestation = false ∧
        (memberBuilder [member]).Lists primitives 0 [member] ∧
        endlessContext.Covers primitives (agent 0) [member] ∧
        member.aid = endlessContext.verifierAid ∧
        ∀ drawn built, (memberBuilder [member]).build primitives drawn 0 ≠ .ok built :=
  ⟨readsText, bundle_attestation, bundle_endless⟩

end Aitp
