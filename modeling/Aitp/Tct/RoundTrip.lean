import Aitp.Crypto.Toy
import Aitp.Delegation.Single
import Aitp.Tct.Builder

/-! # Issued tokens are accepted as what they are

A token that the builder issues is accepted by the verifier of its kind, as the
claims it was built with, and its voucher mirrors them. No token is accepted as
two kinds of artifact, whatever the contexts it is presented in.
-/

namespace Aitp

variable {P : Primitives} {b : TctBuilder} {clock : Timestamp}

/-! ## Builders -/

/-- The values of a builder are those of the source's types, and its extension is one that is read
in a token: times are `i64`, the extension is a JSON map that nests one level less than the parser
reads, and a key was read from its bytes. -/
structure TctBuilder.WellTyped (P : Primitives) (b : TctBuilder) (clock : Timestamp) : Prop where
  issuedAt : (b.nowOverride.getD clock).Fits
  ext : ∀ ms, b.ext = some ms → (Json.obj ms).readable P.readsJcs (nestingLimit - 1) = true ∧
    (Json.obj ms).distinctKeys = true
  subjectPubkey : ∀ key, b.subjectPubkey = some key →
    VerifyingKey.fromCompressed P key.bytes = .ok key

/-- Claims whose times a token carries as they are. -/
def TctClaims.Exact (c : TctClaims) : Prop :=
  c.iat.Exact ∧ c.exp.Exact

/-- A time within the life of a token, under a manifest that outlives the token. -/
structure TctClaims.LiveAt (c : TctClaims) (now : Timestamp) (cap : Option Timestamp) : Prop where
  iat : c.iat ≤ now
  exp : now ≤ c.exp
  cap : ∀ t, cap = some t → c.exp ≤ t

namespace TctBuilder

/-- A self-attestation is drafted with a statement, by its issuer about itself. -/
theorem draft_attestation_eq_ok (ha : b.attestation = true) {d : TctDraft} :
    b.draft P clock = .ok d ↔
      ∃ ms key jti, b.ext = some ms ∧ VerifyingKey.fromAid P b.issuerKey.aid = .ok key ∧
        b.jti.resolve P = .ok jti ∧
        d = ⟨({ b with grants := [attestationGrant] } : TctBuilder).claims P b.issuerKey.aid key jti
          clock, none⟩ := by
  have hg : ∀ g ∈ [attestationGrant], g.toList.any isWhitespace = false := by decide
  simp only [draft, settle, ha, if_true, bind_eq_ok, ensure_eq_ok, mapErr_eq_ok, pure_eq_ok,
    exists_const, Option.isSome_iff_exists, draftSettled, okOr_eq_ok, forEach_eq_ok]
  constructor
  · rintro ⟨b', ⟨⟨ms, hx⟩, key, hk, rfl⟩, h⟩
    simp only [Option.some.injEq] at h
    obtain ⟨_, rfl, _, rfl, _, rfl, -, -, -, -, -, jti, hj, rfl⟩ := h
    exact ⟨ms, key, jti, hx, hk, hj, rfl⟩
  · rintro ⟨ms, key, jti, hx, hk, hj, rfl⟩
    have hb : key.bytes = b.issuerKey.aid.pubkeyCompressedBytes := by
      rw [(VerifyingKey.fromAid_eq_ok.mp hk).1]
    exact ⟨_, ⟨⟨ms, hx⟩, key, hk, rfl⟩, _, rfl, _, rfl, key, rfl, rfl, fun g hm => by simp [hg g hm],
      by simp, by simp, by simp [hb], jti, hj, rfl⟩

/-- What a builder claims about a subject and its key is current while it lives. -/
theorem current_claims (hw : b.WellTyped P clock) {subject : Aid} {key : VerifyingKey}
    {jti : Uuid} (ht : (b.claims P subject key jti clock).Exact)
    (hk : VerifyingKey.fromAid P subject = .ok key) (hj : jti.checkV4 = .ok ())
    (hg : b.grants ≠ []) {core : CoreChecks} (hi : core.issuer = b.issuerKey.aid)
    (hl : (b.claims P subject key jti clock).LiveAt core.now core.issuerManifestExpiresAt) :
    (b.claims P subject key jti clock).Current P core := by
  have hn : core.now.Fits :=
    ⟨hw.issuedAt.1.trans hl.iat, hl.exp.trans (saturate_fits _).2⟩
  have hcnf : checkCnf P subject (key.toJwkThumbprintSha256 P) = .ok () := by
    simp [checkCnf, hk, ensure]
  refine ⟨TctClaims.writable_claims hj hw.issuedAt hw.ext, ht, rfl, hi.symm, ?_, ?_, hl.cap, hg,
    hcnf⟩
  · exact (Timestamp.saturatingSub_le hn _).trans hl.exp
  · exact hl.iat.trans (Timestamp.le_saturatingAdd hn _)

theorem presentable_of_draft (hw : b.WellTyped P clock) (ha : b.attestation = false) {d : TctDraft}
    (h : b.draft P clock = .ok d) {ctx : TctVerifyContext} (hi : ctx.issuer = b.issuerKey.aid)
    (hs : ctx.expectedAudience = d.claims.sub) (ht : d.claims.Exact)
    (hl : d.claims.LiveAt ctx.now ctx.issuerManifestExpiresAt) : d.claims.Presentable P ctx := by
  obtain ⟨subject, key, jti, -, -, hpk, hjti, hm, hg, -, hne, hb, rfl⟩ := (draft_eq_ok ha).mp h
  have hk := VerifyingKey.fromAid_of_bytes (hw.subjectPubkey key hpk) hb
  have hcur : (b.claims P subject key jti clock).Current P
      ⟨ctx.issuer, ctx.now, ctx.clockSkew, ctx.issuerManifestExpiresAt⟩ :=
    current_claims hw ht hk (JtiSource.checkV4_of_resolve hjti) hg hi hl
  obtain ⟨writable, times, ver, iss, notExpired, notEarly, cap, grants, cnf⟩ := hcur
  exact ⟨writable, times, ver, iss, hs.symm, rfl, hne.symm, hm, notExpired, notEarly, cap, grants,
    cnf⟩

theorem writable_of_draft (hw : b.WellTyped P clock) (ha : b.attestation = false) {d : TctDraft}
    (h : b.draft P clock = .ok d) : d.claims.Writable P ∧ d.claims.iss = b.issuerKey.aid ∧
      d.claims.grants ≠ [] ∧ d.voucher = if b.mintVoucher then some d.claims.voucher else none := by
  obtain ⟨subject, key, jti, -, -, -, hjti, -, hg, -, -, -, rfl⟩ := (draft_eq_ok ha).mp h
  have hj := JtiSource.checkV4_of_resolve hjti
  exact ⟨TctClaims.writable_claims hj hw.issuedAt hw.ext, rfl, hg, rfl⟩

end TctBuilder

/-! ## What is issued is accepted -/

theorem checkRevocation_reread (source : RevocationSource) (c : TctClaims) (now : Timestamp) :
    checkRevocation source (c.reread P) now = checkRevocation source c now := by
  cases source <;> rfl

section

variable {issued : IssuedTct} {key : VerifyingKey}

/-- A grant context accepts a token issued for its audience while the token lives, as the claims
it was built with. -/
theorem verifyTct_build (hP : P.ReadsText) (hw : b.WellTyped P clock)
    (hs : b.issuerKey.Lawful P key) (ha : b.attestation = false)
    (h : b.build P clock = .ok issued) {ctx : TctVerifyContext}
    (hi : ctx.issuer = b.issuerKey.aid) (hsub : ctx.expectedAudience = issued.claims.sub)
    (hx : issued.claims.Exact) (hl : issued.claims.LiveAt ctx.now ctx.issuerManifestExpiresAt) {effective : List String}
    (hr : checkRevocation ctx.revocation issued.claims ctx.now = .ok effective) :
    verifyTct P issued.token ctx = .ok ⟨issued.token, issued.claims.reread P, effective⟩ := by
  obtain ⟨d, hd, ht, -, hc⟩ := TctBuilder.build_eq_ok.mp h
  rw [hc] at hsub hx hl hr ⊢
  have hp := TctBuilder.presentable_of_draft hw ha hd hi hsub hx hl
  have hv := verifyTctBeforeRevocation_signCompact hP hs hp hi ht
  simp only [verifyTct, bind_eq_ok, pure_eq_ok]
  exact ⟨_, hv, effective, by rw [checkRevocation_reread, hr], rfl⟩

theorem isSome_of_signVoucher {signer : Signer} {v : GrantVoucherClaims} {mint : Bool}
    {voucher : Option String}
    (h : signVoucher signer (if mint then some v else none) = .ok voucher) :
    voucher.isSome = mint := by
  cases mint with
  | false =>
    obtain rfl := Except.ok.inj h
    rfl
  | true =>
    simp only [if_true, signVoucher, bind_eq_ok, pure_eq_ok] at h
    obtain ⟨token, -, rfl⟩ := h
    rfl

theorem isSome_voucher_build (hw : b.WellTyped P clock) (ha : b.attestation = false)
    (h : b.build P clock = .ok issued) : issued.voucher.isSome = b.mintVoucher := by
  obtain ⟨d, hd, -, hsv, -⟩ := TctBuilder.build_eq_ok.mp h
  rw [(TctBuilder.writable_of_draft hw ha hd).2.2.2] at hsv
  exact isSome_of_signVoucher hsv

/-- The voucher issued with a token is signed, and mirrors the token. -/
theorem signCompact_voucher_build (hw : b.WellTyped P clock) (h : b.build P clock = .ok issued)
    {voucher : String} (hv : issued.voucher = some voucher) :
    signCompact b.issuerKey typGrantVoucher issued.claims.voucher.toValue = .ok voucher ∧
      issued.claims.voucher.Writable ∧ issued.claims.iss = b.issuerKey.aid ∧
        issued.claims.grants ≠ [] := by
  obtain ⟨d, hd, -, hsv, hc⟩ := TctBuilder.build_eq_ok.mp h
  have hsome := congrArg Option.isSome hv
  cases ha : b.attestation with
  | true =>
    obtain ⟨_, _, _, -, -, -, rfl⟩ := (TctBuilder.draft_attestation_eq_ok ha).mp hd
    obtain hn : none = issued.voucher := Except.ok.inj hsv
    rw [← hn] at hv
    exact absurd hv (by simp)
  | false =>
    obtain ⟨hwr, hiss, hg, hdv⟩ := TctBuilder.writable_of_draft hw ha hd
    rw [hdv] at hsv
    rw [isSome_of_signVoucher hsv] at hsome
    simp only [Option.isSome_some] at hsome
    simp only [hsome, if_true, signVoucher, bind_eq_ok, mapErr_eq_ok, pure_eq_ok] at hsv
    obtain ⟨token, ht, hx⟩ := hsv
    obtain rfl := Option.some.inj (hx.trans hv)
    rw [hc]
    exact ⟨ht, hwr.voucher, hiss, hg⟩

theorem verifyVoucher_build (hP : P.ReadsText) (hw : b.WellTyped P clock)
    (hs : b.issuerKey.Lawful P key) (h : b.build P clock = .ok issued)
    (hx : issued.claims.Exact) {voucher : String} (hv : issued.voucher = some voucher) :
    verifyVoucher P voucher b.issuerKey.aid = .ok issued.claims.voucher := by
  obtain ⟨ht, hwr, hiss, hg⟩ := signCompact_voucher_build hw h hv
  exact verifyVoucher_signCompact hP hs hwr hx rfl hiss hg ht

/-- A self-attestation is accepted in the context of any statement it carries. -/
theorem verifyAttestation_build (hP : P.ReadsText) (hw : b.WellTyped P clock)
    (hs : b.issuerKey.Lawful P key) (ha : b.attestation = true)
    (h : b.build P clock = .ok issued) {ctx : AttestationVerifyContext}
    (hi : ctx.issuer = b.issuerKey.aid) (ht : issued.claims.Exact)
    (hl : issued.claims.LiveAt ctx.now ctx.issuerManifestExpiresAt) {effective : List String}
    (hr : checkRevocation ctx.revocation issued.claims ctx.now = .ok effective) {statement : Json}
    (hx : b.ext.bind (List.lookup ctx.statementKey) = some statement) :
    verifyAttestation P issued.token ctx =
      .ok ⟨issued.token, issued.claims.reread P, P.reread statement.canon⟩ := by
  obtain ⟨d, hd, hsign, -, hc⟩ := TctBuilder.build_eq_ok.mp h
  obtain ⟨ms, key', jti, hms, hk, hj, rfl⟩ := (TctBuilder.draft_attestation_eq_ok ha).mp hd
  rw [hc] at ht hl hr ⊢
  have hw' : ({ b with grants := [attestationGrant] } : TctBuilder).WellTyped P clock :=
    ⟨hw.issuedAt, hw.ext, hw.subjectPubkey⟩
  have hcur : (({ b with grants := [attestationGrant] } : TctBuilder).claims P b.issuerKey.aid key'
      jti clock).Current P ⟨ctx.issuer, ctx.now, ctx.clockSkew, ctx.issuerManifestExpiresAt⟩ :=
    TctBuilder.current_claims hw' ht hk (JtiSource.checkV4_of_resolve hj) (by simp) hi hl
  have hself : isSelfAttestation ((({ b with grants := [attestationGrant] } : TctBuilder).claims P
      b.issuerKey.aid key' jti clock).reread P) = true := by
    simp [isSelfAttestation, TctBuilder.claims, TctClaims.reread]
  have hv : CoreChecks.verify P ⟨ctx.issuer, ctx.now, ctx.clockSkew, ctx.issuerManifestExpiresAt⟩
      issued.token (fun c => ensure (isSelfAttestation c) .notAttestation) = .ok _ :=
    CoreChecks.verify_signCompact hP hs hcur hi (by rw [hself]; rfl) hsign
  have hnd := (hw.ext ms hms).2
  simp only [Json.distinctKeys, Bool.and_eq_true, decide_eq_true_eq] at hnd
  simp only [hms, Option.bind_some] at hx
  have hst : (((({ b with grants := [attestationGrant] } : TctBuilder).claims P b.issuerKey.aid key'
      jti clock).reread P).ext).bind (List.lookup ctx.statementKey) =
        some (P.reread statement.canon) := by
    simp only [TctBuilder.claims, TctClaims.reread, hms, Option.map_some, Option.bind_some,
      Json.canon, Primitives.reread, Json.mapNumbers, Json.members, Json.lookup_mapMembers]
    rw [Json.lookup_sorted hnd.1, hx, Option.map_some, Option.map_some]
  simp only [verifyAttestation, bind_eq_ok, okOr_eq_ok, pure_eq_ok]
  exact ⟨_, hv, P.reread statement.canon, hst, effective, by rw [checkRevocation_reread, hr], rfl⟩

end

/-! ## One kind of artifact for a token -/

/-- The artifacts that share a signing key and one token encoding. -/
inductive Artifact where
  | grant
  | attestation
  | voucher
  | delegation
  deriving DecidableEq

namespace Artifact

/-- The `typ` of an artifact. -/
def typ : Artifact → String
  | grant | attestation => typTct
  | voucher => typGrantVoucher
  | delegation => typDelegation

/-- A token is accepted as an artifact in some context. -/
def Accepts (P : Primitives) (token : String) : Artifact → Prop
  | grant => ∃ ctx v, verifyTct P token ctx = .ok v
  | attestation => ∃ ctx v, verifyAttestation P token ctx = .ok v
  | voucher => ∃ issuer v, verifyVoucher P token issuer = .ok v
  | delegation => ∃ ctx v, Delegation.verifyDelegation P ctx token = .ok v

variable {token : String}

/-- The claims of a token in a grant context are no self-attestation. -/
theorem grant_signed {ctx : TctVerifyContext} {v : VerifiedTct}
    (h : verifyTct P token ctx = .ok v) : ∃ signer payload claims,
      verifyCompact P signer typTct token = .ok payload ∧
        (P.document payload).bind decodeTctClaims = some claims ∧
          isSelfAttestation claims = false := by
  simp only [verifyTct, bind_eq_ok] at h
  obtain ⟨claims, hc, -⟩ := h
  have hg := verifyTctBeforeRevocation_ok hc
  obtain ⟨payload, hp, hd⟩ := hg.signed
  refine ⟨ctx.issuer, payload, claims, hp, hd, ?_⟩
  simp [isSelfAttestation, Ne.symm hg.notSelf]

/-- The claims of a token in an attestation context are a self-attestation. -/
theorem attestation_signed {ctx : AttestationVerifyContext} {v : VerifiedAttestation}
    (h : verifyAttestation P token ctx = .ok v) : ∃ signer payload claims,
      verifyCompact P signer typTct token = .ok payload ∧
        (P.document payload).bind decodeTctClaims = some claims ∧
          isSelfAttestation claims = true := by
  simp only [verifyAttestation, CoreChecks.verify, bind_eq_ok, ensure_eq_ok, okOr_eq_ok,
    mapErr_eq_ok, pure_eq_ok, exists_const] at h
  obtain ⟨_, ⟨_, -, payload, hp, claims, hd, -, -, hself, -⟩, -⟩ := h
  exact ⟨ctx.issuer, payload, claims, hp, hd, hself⟩

theorem delegation_signed {ctx : Delegation.DelegationVerifyContext}
    {v : Delegation.VerifiedDelegation} (h : Delegation.verifyDelegation P ctx token = .ok v) :
    ∃ signer payload, verifyCompact P signer typDelegation token = .ok payload := by
  simp only [Delegation.verifyDelegation, Delegation.verifySingleHop, Delegation.verifyHopJws,
    bind_eq_ok] at h
  obtain ⟨_, -, _, ⟨_, -, manifest, -, payload, hp, -⟩, -⟩ := h
  exact ⟨manifest.aid, payload, mapErr_eq_ok.mp hp⟩

/-- An accepted token is signed under the `typ` of its artifact. -/
theorem signed_of_accepts {a : Artifact} (h : a.Accepts P token) :
    ∃ signer payload, verifyCompact P signer a.typ token = .ok payload := by
  cases a with
  | grant =>
    obtain ⟨ctx, v, h⟩ := h
    obtain ⟨signer, payload, -, hp, -⟩ := grant_signed h
    exact ⟨signer, payload, hp⟩
  | attestation =>
    obtain ⟨ctx, v, h⟩ := h
    obtain ⟨signer, payload, -, hp, -⟩ := attestation_signed h
    exact ⟨signer, payload, hp⟩
  | voucher =>
    obtain ⟨issuer, v, h⟩ := h
    obtain ⟨-, -, payload, hp, -⟩ := verifyVoucher_ok h
    exact ⟨issuer, payload, hp⟩
  | delegation =>
    obtain ⟨ctx, v, h⟩ := h
    exact delegation_signed h

theorem not_accepts_grant_attestation (hg : grant.Accepts P token)
    (ha : attestation.Accepts P token) : False := by
  obtain ⟨ctx, v, hg⟩ := hg
  obtain ⟨ctx', v', ha⟩ := ha
  obtain ⟨signer, payload, claims, hp, hd, hn⟩ := grant_signed hg
  obtain ⟨signer', payload', claims', hp', hd', hy⟩ := attestation_signed ha
  obtain ⟨-, rfl⟩ := verifyCompact_unique hp hp'
  obtain rfl := Option.some.inj (hd.symm.trans hd')
  exact absurd (hn.symm.trans hy) Bool.false_ne_true

theorem eq_of_typ_eq {a a' : Artifact} (h : a.typ = a'.typ) :
    a = a' ∨ (a = grant ∧ a' = attestation) ∨ (a = attestation ∧ a' = grant) := by
  revert h
  cases a <;> cases a' <;> decide

theorem accepts_unique {a a' : Artifact} (h : a.Accepts P token) (h' : a'.Accepts P token) :
    a = a' := by
  obtain ⟨signer, payload, hp⟩ := signed_of_accepts h
  obtain ⟨signer', payload', hp'⟩ := signed_of_accepts h'
  rcases eq_of_typ_eq (verifyCompact_unique hp hp').1 with he | ⟨rfl, rfl⟩ | ⟨rfl, rfl⟩
  · exact he
  · exact (not_accepts_grant_attestation h h').elim
  · exact (not_accepts_grant_attestation h' h).elim

end Artifact

/-! ## Issuing and accepting -/

/-- What a holder's builder issues is accepted: the token in a grant context for its audience, as
the claims it was built with, their extension as its canonical text is read, and the voucher as
their mirror. -/
structure IssuedTct.AcceptedAsGrant (P : Primitives) (b : TctBuilder) (issued : IssuedTct) :
    Prop where
  tct : ∀ ctx effective, ctx.issuer = b.issuerKey.aid → ctx.expectedAudience = issued.claims.sub →
    issued.claims.LiveAt ctx.now ctx.issuerManifestExpiresAt →
    checkRevocation ctx.revocation issued.claims ctx.now = .ok effective →
    verifyTct P issued.token ctx = .ok ⟨issued.token, issued.claims.reread P, effective⟩
  minted : issued.voucher.isSome = b.mintVoucher
  voucher : ∀ voucher, issued.voucher = some voucher →
    verifyVoucher P voucher b.issuerKey.aid = .ok
      { ver := protocolVersion
        iss := b.issuerKey.aid
        sub := issued.claims.sub
        grants := issued.claims.grants
        iat := issued.claims.iat
        exp := issued.claims.exp
        srcJti := issued.claims.jti
        ext := none }

/-- What a self-attesting builder issues is accepted in the context of every statement that its
extension carries. -/
def IssuedTct.AcceptedAsAttestation (P : Primitives) (b : TctBuilder) (issued : IssuedTct) : Prop :=
  ∀ ctx effective statement, ctx.issuer = b.issuerKey.aid →
    issued.claims.LiveAt ctx.now ctx.issuerManifestExpiresAt →
    checkRevocation ctx.revocation issued.claims ctx.now = .ok effective →
    b.ext.bind (List.lookup ctx.statementKey) = some statement →
    verifyAttestation P issued.token ctx =
      .ok ⟨issued.token, issued.claims.reread P, P.reread statement.canon⟩

/-- What a builder issues within the times that a token carries as they are is accepted as what it
is, and no token is accepted as two artifacts. -/
theorem issued_accepted_uniquely (hP : P.ReadsText) :
    (∀ (b : TctBuilder) (clock : Timestamp) (key : VerifyingKey) (issued : IssuedTct),
      b.WellTyped P clock → b.issuerKey.Lawful P key → b.build P clock = .ok issued →
      issued.claims.Exact →
        (b.attestation = false → issued.AcceptedAsGrant P b) ∧
          (b.attestation = true → issued.AcceptedAsAttestation P b)) ∧
      ∀ (token : String) (a a' : Artifact), a.Accepts P token → a'.Accepts P token → a = a' := by
  constructor
  · intro b clock key issued hw hs h ht
    constructor
    · intro ha
      obtain ⟨d, hd, -, -, hc⟩ := TctBuilder.build_eq_ok.mp h
      obtain ⟨-, hiss, -, -⟩ := TctBuilder.writable_of_draft hw ha hd
      refine ⟨?_, isSome_voucher_build hw ha h, ?_⟩
      · intro ctx effective hi hsub hl hr
        exact verifyTct_build hP hw hs ha h hi hsub ht hl hr
      · intro voucher hv
        rw [verifyVoucher_build hP hw hs h ht hv, TctClaims.voucher, hc, hiss]
    · intro ha ctx effective statement hi hl hr hx
      exact verifyAttestation_build hP hw hs ha h hi ht hl hr hx
  · intro token a a' h h'
    exact Artifact.accepts_unique h h'

namespace Toy

/-- A token from agent 0 to agent 1. -/
def tctBuilder : TctBuilder where
  issuerKey := signer (agent 0)
  subject := some (agent 1)
  audience := some (agent 1)
  grants := ["demo.echo"]
  ttl := 100
  subjectPubkey := some (agentKey 1)
  mintVoucher := true
  nowOverride := some 0
  jti := .fixed (uuid 1)
  ext := none
  attestation := false

def holderContext : TctVerifyContext where
  expectedAudience := agent 1
  issuer := agent 0
  now := 50
  issuerManifestExpiresAt := some 100
  revocation := .failOpen
  clockSkew := 0

theorem signer_total (aid : Aid) :
    (signer aid).Total primitives ⟨aid.algorithm, aid.pubkeyCompressedBytes⟩ :=
  ⟨signer_lawful aid, fun _ => rfl⟩

theorem fromCompressed_agentKey (n : Fin 4) :
    VerifyingKey.fromCompressed primitives (agentKey n).bytes = .ok (agentKey n) := by
  have hf := VerifyingKey.fromCompressed_of_fromAid (signer_lawful (agent n)).1
  simp only [agentKey] at hf ⊢
  exact hf

theorem wellTyped_tctBuilder : tctBuilder.WellTyped primitives 0 := by
  refine ⟨show Timestamp.Fits 0 by decide, nofun, ?_⟩
  rintro key ⟨⟩
  exact fromCompressed_agentKey 1

theorem resolve_tctBuilder : tctBuilder.jti.resolve primitives = .ok (uuid 1) := by
  simp [tctBuilder, JtiSource.resolve, checkV4_uuid]

theorem draft_tctBuilder : ∃ d, tctBuilder.draft primitives 0 = .ok d ∧
    d.claims = tctBuilder.claims primitives (agent 1) (agentKey 1) (uuid 1) 0 := by
  refine ⟨_, (TctBuilder.draft_eq_ok rfl).mpr ⟨agent 1, agentKey 1, uuid 1, rfl, rfl, rfl,
    resolve_tctBuilder, ?_, List.cons_ne_nil _ _, ?_, agent_ne, rfl, rfl⟩, rfl⟩
  · exact show attestationGrant ∉ ["demo.echo"] by decide
  · exact show ∀ g ∈ ["demo.echo"], g.toList.any isWhitespace = false by decide

end Toy

open Toy in
/-- A token that agent 0 issues is accepted from it while it lasts, and as nothing else. -/
theorem issued_accepted_uniquely_toy : ∃ issued : IssuedTct,
    tctBuilder.build primitives 0 = .ok issued ∧
      verifyTct primitives issued.token holderContext =
        .ok ⟨issued.token, issued.claims.reread primitives, ["demo.echo"]⟩ ∧
      ∀ a : Artifact, a.Accepts primitives issued.token → a = .grant := by
  obtain ⟨d, hd, hc⟩ := draft_tctBuilder
  obtain ⟨issued, hb, hi⟩ := TctBuilder.exists_build (signer_total (agent 0)) hd
  have hx := issued_accepted_uniquely readsText
  have ht : issued.claims.Exact := by
    rw [hi, hc]
    exact ⟨show Timestamp.Exact 0 by decide, show Timestamp.Exact 100 by decide⟩
  have hg := (hx.1 tctBuilder 0 _ issued wellTyped_tctBuilder (signer_lawful _) hb ht).1 rfl
  have hl : issued.claims.LiveAt holderContext.now holderContext.issuerManifestExpiresAt := by
    rw [hi, hc]
    refine ⟨show (0 : Timestamp) ≤ 50 by decide, show (50 : Timestamp) ≤ 100 by decide, ?_⟩
    rintro t ⟨⟩
    exact show Timestamp.saturatingAdd 0 100 ≤ 100 by decide
  have hv := hg.tct holderContext ["demo.echo"] rfl (by rw [hi, hc]; rfl) hl (by rw [hi, hc]; rfl)
  exact ⟨issued, hb, hv, fun a ha => hx.2 _ _ _ ha ⟨_, _, hv⟩⟩

namespace Toy

/-- A token that is to last as long as a duration can say. -/
def endlessBuilder : TctBuilder :=
  { tctBuilder with ttl := 2 ^ 64 - 1 }

/-- What it claims. -/
def endlessClaims : TctClaims :=
  endlessBuilder.claims primitives (agent 1) (agentKey 1) (uuid 1) 0

theorem draft_endlessBuilder : ∃ d, endlessBuilder.draft primitives 0 = .ok d ∧
    d.claims = endlessClaims := by
  refine ⟨_, (TctBuilder.draft_eq_ok rfl).mpr ⟨agent 1, agentKey 1, uuid 1, rfl, rfl, rfl,
    resolve_tctBuilder, ?_, List.cons_ne_nil _ _, ?_, agent_ne, rfl, rfl⟩, rfl⟩
  · exact show attestationGrant ∉ ["demo.echo"] by decide
  · exact show ∀ g ∈ ["demo.echo"], g.toList.any isWhitespace = false by decide

theorem writable_endlessClaims : endlessClaims.Writable primitives :=
  TctClaims.writable_claims (checkV4_uuid 1) (show Timestamp.Fits 0 by decide) nofun

theorem exp_endlessClaims : endlessClaims.exp = i64Max := by
  decide

/-- The end of the `i64` range is rounded up, out of it. -/
theorem rereadTime_i64Max : primitives.rereadTime i64Max = none := by
  have hc : (Json.int i64Max).canon = .int 9223372036854776000 := by decide +kernel
  rw [Primitives.rereadTime, hc, readsText.reread_int (by decide) (by decide)]
  decide

theorem decode_endlessClaims :
    (primitives.document endlessClaims.toValue.jcs).bind decodeTctClaims = none := by
  have hw := writable_endlessClaims
  rw [readsText.document_jcs (hw.readable_toValue readsText), Option.bind_some,
    hw.decode_reread, exp_endlessClaims, rereadTime_i64Max]
  cases primitives.rereadTime endlessClaims.iat <;> rfl

theorem verifyTct_endless {token : String} {ctx : TctVerifyContext} (hi : ctx.issuer = agent 0)
    (h : signCompact (signer (agent 0)) typTct endlessClaims.toValue = .ok token) :
    verifyTct primitives token ctx = .error .undecodable := by
  obtain ⟨hp, hv⟩ := writable_endlessClaims.opens_signCompact readsText (signer_lawful (agent 0)) h
  have hv' : verifyCompact primitives (agent 0) typTct token = .ok endlessClaims.toValue.jcs := hv
  simp [verifyTct, verifyTctBeforeRevocation, CoreChecks.verify, hp, hi, hv', decode_endlessClaims]

end Toy

open Toy in
/-- A token that is to last longer than the times a token carries is built and never accepted. -/
theorem issued_accepted_uniquely_endless : primitives.ReadsText ∧ ∃ issued : IssuedTct,
    endlessBuilder.build primitives 0 = .ok issued ∧
      (endlessBuilder.WellTyped primitives 0 ∧ issued.claims.LiveAt 50 none) ∧
      ∀ ctx : TctVerifyContext, ctx.issuer = agent 0 →
        verifyTct primitives issued.token ctx = .error .undecodable := by
  obtain ⟨d, hd, hc⟩ := draft_endlessBuilder
  obtain ⟨issued, hb, hi⟩ := TctBuilder.exists_build (signer_total (agent 0)) hd
  obtain ⟨d', hd', ht, -, hc'⟩ := TctBuilder.build_eq_ok.mp hb
  obtain rfl : d = d' := Except.ok.inj (hd.symm.trans hd')
  rw [hc] at ht
  refine ⟨readsText, issued, hb, ⟨⟨show Timestamp.Fits 0 by decide, nofun, ?_⟩, ?_⟩,
    fun ctx hctx => verifyTct_endless hctx ht⟩
  · exact wellTyped_tctBuilder.subjectPubkey
  · rw [hi, hc]
    exact ⟨show (0 : Timestamp) ≤ 50 by decide, by rw [exp_endlessClaims]; decide, nofun⟩

end Aitp
