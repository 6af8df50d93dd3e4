import Aitp.Manifest.Verifier
import Aitp.Tct.Verifier

/-! # Token issuance

`tct/builder.rs`: the claims of a token and of its companion voucher are drafted,
then both are signed. Random identifiers and the clock are inputs.
-/

namespace Aitp

/-- `DEFAULT_TCT_TTL`, in seconds. -/
def defaultTctTtl : ℕ := 3600

inductive JtiSource where
  | random (drawn : RandomV4)
  | fixed (jti : Uuid)
  | derived (tag : String) (input : Bytes)

/-- `TctBuilder`; the lifetime counts whole seconds. -/
structure TctBuilder where
  issuerKey : Signer
  subject : Option Aid
  audience : Option Aid
  grants : List String
  ttl : ℕ
  subjectPubkey : Option VerifyingKey
  mintVoucher : Bool
  nowOverride : Option Timestamp
  jti : JtiSource
  ext : Option ExtensionsMap
  attestation : Bool

structure IssuedTct where
  token : String
  claims : TctClaims
  voucher : Option String

/-- The claims of a token and of its voucher, ready to sign. -/
structure TctDraft where
  claims : TctClaims
  voucher : Option GrantVoucherClaims

def TctBuilder.new (issuerKey : Signer) (drawn : RandomV4) : TctBuilder where
  issuerKey := issuerKey
  subject := none
  audience := none
  grants := []
  ttl := defaultTctTtl
  subjectPubkey := none
  mintVoucher := true
  nowOverride := none
  jti := .random drawn
  ext := none
  attestation := false

/-- The voucher that mirrors a token. -/
def TctClaims.voucher (c : TctClaims) : GrantVoucherClaims where
  ver := protocolVersion
  iss := c.iss
  sub := c.sub
  grants := c.grants
  iat := c.iat
  exp := c.exp
  srcJti := c.jti
  ext := none

section

variable (P : Primitives)

/-- The `jti` of a token. -/
def JtiSource.resolve : JtiSource → Except TctError Uuid
  | random drawn => .ok drawn.id
  | fixed jti => do
    mapErr .jtiNotV4 jti.checkV4
    return jti
  | derived tag input => okOr (derivedV4 P.sha256 tag input) .invalidJtiTag

namespace TctBuilder

variable (b : TctBuilder)

/-- What a self-attestation overrides; other tokens never carry its marker. -/
def settle : Except TctError TctBuilder :=
  let issuer := b.issuerKey.aid
  if b.attestation then do
    ensure b.ext.isSome (.missingField "ext")
    let key ← mapErr .crypto (VerifyingKey.fromAid P issuer)
    return { b with
      subjectPubkey := some key
      subject := some issuer
      audience := some issuer
      grants := [attestationGrant]
      mintVoucher := false }
  else do
    ensure (!b.grants.contains attestationGrant) .attestationMarker
    return b

/-- The claims of a token for a subject and its key. -/
def claims (subject : Aid) (key : VerifyingKey) (jti : Uuid) (clock : Timestamp) : TctClaims :=
  let issuedAt := b.nowOverride.getD clock
  { ver := protocolVersion
    jti := jti
    iss := b.issuerKey.aid
    sub := subject
    aud := subject
    iat := issuedAt
    exp := issuedAt.saturatingAdd b.ttl
    grants := b.grants
    jkt := key.toJwkThumbprintSha256 P
    ext := b.ext }

/-- The draft of a settled builder. -/
def draftSettled (clock : Timestamp) : Except TctError TctDraft := do
  let issuer := b.issuerKey.aid
  let subject ← okOr b.subject (.missingField "subject")
  let audience ← okOr b.audience (.missingField "audience")
  let subjectPk ← okOr b.subjectPubkey (.missingField "subject_pubkey")
  ensure (!b.grants.isEmpty) .emptyGrants
  forEach b.grants fun g => ensure (!g.toList.any isWhitespace) (.grantWhitespace g)
  ensure (decide (subject = audience)) .audienceMismatch
  ensure (!decide (subject = issuer) || b.attestation) .selfIssued
  ensure (subjectPk.bytes == subject.pubkeyCompressedBytes) .cnfMalformed
  let jti ← b.jti.resolve P
  let claims := b.claims P subject subjectPk jti clock
  return ⟨claims, if b.mintVoucher then some claims.voucher else none⟩

def draft (clock : Timestamp) : Except TctError TctDraft := do
  let b ← b.settle P
  b.draftSettled P clock

end TctBuilder

/-- The companion voucher, signed. -/
def signVoucher (signer : Signer) : Option GrantVoucherClaims → Except TctError (Option String)
  | some v => do
    let token ← mapErr .crypto (signCompact signer typGrantVoucher v.toValue)
    return some token
  | none => .ok none

def TctBuilder.build (b : TctBuilder) (clock : Timestamp) : Except TctError IssuedTct := do
  let draft ← b.draft P clock
  let token ← mapErr .crypto (signCompact b.issuerKey typTct draft.claims.toValue)
  let voucher ← signVoucher b.issuerKey draft.voucher
  return ⟨token, draft.claims, voucher⟩

end

variable {P : Primitives} {b : TctBuilder} {clock : Timestamp}

/-! ## What is issued to a holder -/

theorem JtiSource.checkV4_of_resolve {source : JtiSource} {jti : Uuid}
    (h : source.resolve P = .ok jti) : jti.checkV4 = .ok () := by
  cases source with
  | random drawn =>
    obtain rfl := Except.ok.inj h
    exact drawn.layout
  | fixed u =>
    simp only [JtiSource.resolve, bind_eq_ok, mapErr_eq_ok, pure_eq_ok] at h
    obtain ⟨_, hc, rfl⟩ := h
    exact hc
  | derived tag input => exact checkV4_derivedV4 (okOr_eq_ok.mp h)

namespace TctBuilder

/-- A holder's token is drafted for a subject other than the issuer, under the subject's own key,
with grants that are neither missing nor spaced and never the attestation marker. -/
theorem draft_eq_ok (ha : b.attestation = false) {d : TctDraft} :
    b.draft P clock = .ok d ↔
      ∃ subject key jti, b.subject = some subject ∧ b.audience = some subject ∧
        b.subjectPubkey = some key ∧ b.jti.resolve P = .ok jti ∧
        attestationGrant ∉ b.grants ∧ b.grants ≠ [] ∧
        (∀ g ∈ b.grants, g.toList.any isWhitespace = false) ∧ subject ≠ b.issuerKey.aid ∧
        key.bytes = subject.pubkeyCompressedBytes ∧
        d = ⟨b.claims P subject key jti clock,
          if b.mintVoucher then some (b.claims P subject key jti clock).voucher else none⟩ := by
  simp only [draft, settle, ha, Bool.false_eq_true, if_false, draftSettled, bind_eq_ok, ensure_eq_ok,
    okOr_eq_ok, forEach_eq_ok, pure_eq_ok, exists_const, Bool.not_eq_true',
    decide_eq_true_eq, beq_iff_eq]
  constructor
  · rintro ⟨_, ⟨hm, rfl⟩, subject, hs, audience, hau, key, hk, hg, hw, rfl, hi, hb, jti, hj, rfl⟩
    exact ⟨subject, key, jti, hs, hau, hk, hj, by simpa using hm, by simpa using hg, hw,
      by simpa [ha] using hi, hb, rfl⟩
  · rintro ⟨subject, key, jti, hs, hau, hk, hj, hm, hg, hw, hi, hb, rfl⟩
    exact ⟨b, ⟨by simpa using hm, rfl⟩, subject, hs, subject, hau, key, hk, by simpa using hg, hw,
      rfl, by simpa using Or.inl hi, hb, jti, hj, rfl⟩

theorem build_eq_ok {issued : IssuedTct} : b.build P clock = .ok issued ↔
    ∃ d, b.draft P clock = .ok d ∧
      signCompact b.issuerKey typTct d.claims.toValue = .ok issued.token ∧
      signVoucher b.issuerKey d.voucher = .ok issued.voucher ∧ issued.claims = d.claims := by
  obtain ⟨token, claims, voucher⟩ := issued
  simp only [build, bind_eq_ok, mapErr_eq_ok, pure_eq_ok, IssuedTct.mk.injEq]
  constructor
  · rintro ⟨d, hd, _, ht, _, hv, rfl, rfl, rfl⟩
    exact ⟨d, hd, ht, hv, rfl⟩
  · rintro ⟨d, hd, ht, hv, rfl⟩
    exact ⟨d, hd, token, ht, voucher, hv, rfl, rfl, rfl⟩

end TctBuilder

theorem TctBuilder.exists_build {key : VerifyingKey} (hs : b.issuerKey.Total P key) {d : TctDraft}
    (h : b.draft P clock = .ok d) :
    ∃ issued, b.build P clock = .ok issued ∧ issued.claims = d.claims := by
  obtain ⟨token, ht⟩ : ∃ token, signCompact b.issuerKey typTct d.claims.toValue = .ok token :=
    hs.signCompact (by decide) _
  obtain ⟨voucher, hv⟩ : ∃ voucher, signVoucher b.issuerKey d.voucher = .ok voucher := by
    cases d.voucher with
    | none => exact ⟨none, rfl⟩
    | some v =>
      obtain ⟨t, hv⟩ : ∃ t, signCompact b.issuerKey typGrantVoucher v.toValue = .ok t :=
        hs.signCompact (by decide) _
      exact ⟨some t, by simp [signVoucher, hv]⟩
  exact ⟨⟨token, d.claims, voucher⟩, build_eq_ok.mpr ⟨d, h, ht, hv, rfl⟩, rfl⟩

theorem TctClaims.writable_claims {subject : Aid} {key : VerifyingKey} {jti : Uuid}
    (hj : jti.checkV4 = .ok ()) (hn : (b.nowOverride.getD clock).Fits)
    (hx : ∀ ms, b.ext = some ms → (Json.obj ms).readable P.readsJcs (nestingLimit - 1) = true ∧
      (Json.obj ms).distinctKeys = true) :
    (b.claims P subject key jti clock).Writable P :=
  ⟨hj, hn, saturate_fits _, hx⟩

theorem TctClaims.Writable.voucher {c : TctClaims} (h : c.Writable P) : c.voucher.Writable :=
  ⟨h.jti, h.iat, h.exp, rfl⟩

end Aitp
