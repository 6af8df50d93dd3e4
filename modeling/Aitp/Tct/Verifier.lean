import Aitp.Crypto.RoundTrip
import Aitp.Tct.Revocation

/-! # Token verification

`tct/verifier.rs`: the checks of a trust credential token and of a grant voucher,
and the revocation lookup that follows them.
-/

namespace Aitp

/-- `TctVerifyContext`; the clock skew counts seconds. -/
structure TctVerifyContext where
  expectedAudience : Aid
  issuer : Aid
  now : Timestamp
  issuerManifestExpiresAt : Option Timestamp
  revocation : RevocationSource
  clockSkew : ℕ

structure AttestationVerifyContext where
  issuer : Aid
  statementKey : String
  now : Timestamp
  issuerManifestExpiresAt : Option Timestamp
  revocation : RevocationSource
  clockSkew : ℕ

structure VerifiedAttestation where
  token : String
  claims : TctClaims
  statement : Json

structure CoreChecks where
  issuer : Aid
  now : Timestamp
  clockSkew : ℕ
  issuerManifestExpiresAt : Option Timestamp

def checkV4Member (peek : Json) (member : String) : Except TctError Unit :=
  ifPresent ((peek.get member).bind Json.asStr) fun s =>
    mapErr .jtiNotV4 ((Uuid.parseV4 s).map fun _ => ())

def isSelfAttestation (c : TctClaims) : Bool :=
  decide (c.sub = c.iss) && decide (c.aud = c.iss) && c.grants == [attestationGrant]

def checkRevocation (source : RevocationSource) (claims : TctClaims) (now : Timestamp) :
    Except TctError (List String) :=
  let rejected : RevocationRejection → TctError
    | .revoked => .revoked
    | .unavailable => .revocationUnavailable
    | .safeSubsetEmpty => .safeSubsetEmpty
  match source with
  | .selfAttestation =>
    if isSelfAttestation claims then .ok claims.grants
    else mapErr rejected (applyRevocation source ⟨claims.iss, claims.jti, now⟩ claims.grants)
  | _ => mapErr rejected (applyRevocation source ⟨claims.iss, claims.jti, now⟩ claims.grants)

section

variable (P : Primitives)

/-- `reject_duplicate_keys`, which reads the first value only. -/
def rejectDuplicateKeys (bytes : Bytes) : Except String Unit :=
  match P.first bytes with
  | some (v, _) => ensure v.distinctKeys "duplicate field"
  | none => .error "syntax"

/-- The checks on the unverified payload of a token whose header has the expected `typ`. -/
def peekClaimSet (typ : String) (members : List String) (v4Member token : String) :
    Except TctError Unit :=
  if peekTyp P token = some typ then do
    let peek ← mapErr .crypto (decodePayloadUnverified token)
    mapErr .claimsMalformed (rejectDuplicateKeys P peek)
    ifPresent (P.document peek) fun v => do
      ensureMembers v members .unknownField
      checkV4Member v v4Member
  else .ok ()

/-- The key a subject is bound to. -/
def checkCnf (sub : Aid) (jkt : String) : Except TctError Unit := do
  let subjectKey ← mapErr .crypto (VerifyingKey.fromAid P sub)
  ensure (jkt == subjectKey.toJwkThumbprintSha256 P) .cnfMalformed

def CoreChecks.verify (core : CoreChecks) (token : String)
    (context : TctClaims → Except TctError Unit) : Except TctError TctClaims := do
  peekClaimSet P typTct tctClaimsMembers "jti" token
  let payload ← mapErr .crypto (verifyCompact P core.issuer typTct token)
  let claims ← okOr ((P.document payload).bind decodeTctClaims) .undecodable
  ensure (claims.ver == protocolVersion) .versionUnknown
  ensure (decide (claims.iss = core.issuer)) .issuerMismatch
  context claims
  ensure (decide (core.now.saturatingSub core.clockSkew ≤ claims.exp)) .expired
  ensure (decide (claims.iat ≤ core.now.saturatingAdd core.clockSkew)) .expired
  ifPresent core.issuerManifestExpiresAt fun manifestExpiresAt =>
    ensure (decide (claims.exp ≤ manifestExpiresAt)) .expiresAfterManifest
  ensure (!claims.grants.isEmpty) .emptyGrants
  checkCnf P claims.sub claims.jkt
  return claims

def verifyTctBeforeRevocation (token : String) (ctx : TctVerifyContext) :
    Except TctError TctClaims :=
  let core : CoreChecks := ⟨ctx.issuer, ctx.now, ctx.clockSkew, ctx.issuerManifestExpiresAt⟩
  core.verify P token fun claims => do
    ensure (decide (claims.aud = ctx.expectedAudience)) .audienceMismatch
    ensure (decide (claims.aud = claims.sub)) .audienceMismatch
    ensure (!decide (claims.iss = claims.sub)) .selfIssued
    ensure (!claims.grants.contains attestationGrant) .attestationMarker

def verifyTct (token : String) (ctx : TctVerifyContext) : Except TctError VerifiedTct := do
  let claims ← verifyTctBeforeRevocation P token ctx
  let effectiveGrants ← checkRevocation ctx.revocation claims ctx.now
  return ⟨token, claims, effectiveGrants⟩

def verifyAttestation (token : String) (ctx : AttestationVerifyContext) :
    Except TctError VerifiedAttestation := do
  let core : CoreChecks := ⟨ctx.issuer, ctx.now, ctx.clockSkew, ctx.issuerManifestExpiresAt⟩
  let claims ← core.verify P token fun c => ensure (isSelfAttestation c) .notAttestation
  let statement ← okOr (claims.ext.bind (List.lookup ctx.statementKey))
    (.attestationStatementMissing ctx.statementKey)
  let _ ← checkRevocation ctx.revocation claims ctx.now
  return ⟨token, claims, statement⟩

def verifyVoucher (token : String) (issuer : Aid) : Except TctError GrantVoucherClaims := do
  peekClaimSet P typGrantVoucher grantVoucherClaimsMembers "src_jti" token
  let payload ← mapErr .crypto (verifyCompact P issuer typGrantVoucher token)
  let claims ← okOr ((P.document payload).bind decodeGrantVoucherClaims) .undecodable
  ensure (claims.ver == protocolVersion) .versionUnknown
  ensure (decide (claims.iss = issuer)) .issuerMismatch
  ensure (!claims.grants.isEmpty) .emptyGrants
  return claims

end

variable {P : Primitives} {token : String}

/-- What was checked of the claims of a token in a grant context. -/
structure GrantContext (P : Primitives) (token : String) (ctx : TctVerifyContext)
    (claims : TctClaims) : Prop where
  signed : ∃ payload, verifyCompact P ctx.issuer typTct token = .ok payload ∧
    (P.document payload).bind decodeTctClaims = some claims
  iss : claims.iss = ctx.issuer
  aud : claims.aud = ctx.expectedAudience
  sub : claims.sub = ctx.expectedAudience
  notSelf : claims.iss ≠ claims.sub
  exp : ∀ t, ctx.issuerManifestExpiresAt = some t → claims.exp ≤ t
  grants : claims.grants ≠ []

theorem verifyTctBeforeRevocation_ok {ctx : TctVerifyContext} {claims : TctClaims}
    (h : verifyTctBeforeRevocation P token ctx = .ok claims) :
    GrantContext P token ctx claims := by
  simp only [verifyTctBeforeRevocation, CoreChecks.verify, bind_eq_ok, ensure_eq_ok, okOr_eq_ok,
    mapErr_eq_ok, ifPresent_eq_ok, pure_eq_ok, exists_const, decide_eq_true_eq, Bool.not_eq_true',
    decide_eq_false_iff_not] at h
  obtain ⟨_, -, payload, hp, c, hc, -, hi, ⟨ha, hs, hn, -⟩, -, -, hx, hg, _, -, rfl⟩ := h
  exact ⟨⟨payload, hp, hc⟩, hi, ha, hs ▸ ha, hn, hx, by simpa using hg⟩

/-- A token accepted without skew has not expired, and names the key of its subject. -/
theorem verifyTctBeforeRevocation_live {ctx : TctVerifyContext} {claims : TctClaims}
    (hn : ctx.now.Fits) (hs : ctx.clockSkew = 0)
    (h : verifyTctBeforeRevocation P token ctx = .ok claims) :
    ctx.now ≤ claims.exp ∧ ∃ key, VerifyingKey.fromAid P claims.sub = .ok key ∧
      claims.jkt = key.toJwkThumbprintSha256 P := by
  simp only [verifyTctBeforeRevocation, CoreChecks.verify, checkCnf, bind_eq_ok, ensure_eq_ok,
    okOr_eq_ok, mapErr_eq_ok, pure_eq_ok, exists_const, decide_eq_true_eq, beq_iff_eq] at h
  obtain ⟨_, -, _, -, c, -, -, -, -, he, -, _, -, -, ⟨key, hk, hj⟩, rfl⟩ := h
  rw [hs, Timestamp.saturatingSub_zero hn] at he
  exact ⟨he, key, hk, hj⟩

/-- What was checked of the claims of a voucher. -/
theorem verifyVoucher_ok {issuer : Aid} {claims : GrantVoucherClaims}
    (h : verifyVoucher P token issuer = .ok claims) :
    claims.iss = issuer ∧ claims.grants ≠ [] ∧
      ∃ payload, verifyCompact P issuer typGrantVoucher token = .ok payload ∧
        (P.document payload).bind decodeGrantVoucherClaims = some claims := by
  simp only [verifyVoucher, bind_eq_ok, ensure_eq_ok, okOr_eq_ok, mapErr_eq_ok, pure_eq_ok,
    exists_const, decide_eq_true_eq, Bool.not_eq_true'] at h
  obtain ⟨_, -, payload, hp, c, hc, -, hi, hg, rfl⟩ := h
  exact ⟨hi, by simpa using hg, payload, hp, hc⟩

theorem checkRevocation_sublist {source : RevocationSource} {claims : TctClaims} {now : Timestamp}
    {effective : List String} (h : checkRevocation source claims now = .ok effective) :
    effective.Sublist claims.grants := by
  unfold checkRevocation at h
  split at h
  · split_ifs at h
    · obtain rfl := Except.ok.inj h
      exact List.Sublist.refl _
    · exact applyRevocation_sublist (mapErr_eq_ok.mp h)
  · exact applyRevocation_sublist (mapErr_eq_ok.mp h)

/-- What a list answers of a token that is not rejected: it is clear, or limited to grants that
are safe. -/
theorem checkRevocation_check_ok {f : RevocationCheckFn} {claims : TctClaims} {now : Timestamp}
    {effective : List String} (h : checkRevocation (.check f) claims now = .ok effective) :
    f ⟨claims.iss, claims.jti, now⟩ = some .clear ∨
      ∃ safe, f ⟨claims.iss, claims.jti, now⟩ = some (.softFailSafeSubset safe) ∧
        ∀ g ∈ effective, g ∈ safe := by
  simp only [checkRevocation, mapErr_eq_ok, applyRevocation] at h
  split at h
  next => simp at h
  next hf => exact .inl hf
  next => simp at h
  next safe hf =>
    split_ifs at h
    obtain rfl := Except.ok.inj h
    refine .inr ⟨safe, hf, ?_⟩
    intro g hg
    simpa using (List.mem_filter.mp hg).2

theorem RevocationSource.AnswersClear.check {source : RevocationSource} (h : source.AnswersClear)
    (claims : TctClaims) (now : Timestamp) :
    checkRevocation source claims now = .ok claims.grants := by
  unfold checkRevocation
  split
  · simpa [applyRevocation] using h ⟨claims.iss, claims.jti, now⟩ []
  · simp [h _ _]

/-! ## Tokens as they were signed -/

section

variable {signer : Signer} {key : VerifyingKey} {typ : String} {claims : Json}

theorem rejectDuplicateKeys_jcs (hP : P.ReadsText)
    (hr : claims.readable P.readsJcs nestingLimit = true) (hd : claims.distinctKeys = true) :
    rejectDuplicateKeys P claims.jcs = .ok () := by
  simp [rejectDuplicateKeys, Primitives.document_eq_some.mp (hP.document_jcs hr),
    Primitives.distinctKeys_reread, Json.distinctKeys_canon _ hd]

/-- The claims of a signed token pass the checks made before its signature is. -/
theorem peekClaimSet_signCompact {members : List String} {v4Member : String} (hP : P.ReadsText)
    (hs : signer.Lawful P key) (hr : claims.readable P.readsJcs nestingLimit = true)
    (hd : claims.distinctKeys = true) (ho : claims.isObject = true)
    (hm : checkMembers claims.canon members = none)
    (hv : checkV4Member (P.reread claims.canon) v4Member = .ok ())
    (h : signCompact signer typ claims = .ok token) :
    peekClaimSet P typ members v4Member token = .ok () := by
  have hm : checkMembers (P.reread claims.canon) members = none := by
    rw [checkMembers_reread P (by rw [Json.isObject_canon, ho]), hm]
  unfold peekClaimSet
  rw [if_pos (peekTyp_signCompact hP hs h), decodePayloadUnverified_signCompact hs h]
  simp only [mapErr, bind, Except.bind, rejectDuplicateKeys_jcs hP hr hd, hP.document_jcs hr,
    ifPresent, ensureMembers, hm, hv]

theorem checkV4Member_some {v : Json} {member : String} {u : Uuid} (hv : v.isObject = true)
    (hg : v.get member = some (.str u.hyphenated)) (hu : u.checkV4 = .ok ()) :
    checkV4Member (P.reread v) member = .ok () := by
  simp [checkV4Member, get_reread P hv, hg, ifPresent, Json.asStr, Uuid.parseV4_hyphenated hu,
    Except.map]

/-- Claims that a grant context accepts from their issuer. -/
structure TctClaims.Presentable (P : Primitives) (c : TctClaims) (ctx : TctVerifyContext) :
    Prop where
  writable : c.Writable P
  times : c.iat.Exact ∧ c.exp.Exact
  ver : c.ver = protocolVersion
  iss : c.iss = ctx.issuer
  aud : c.aud = ctx.expectedAudience
  sub : c.aud = c.sub
  notSelf : c.iss ≠ c.sub
  notAttestation : attestationGrant ∉ c.grants
  notExpired : ctx.now.saturatingSub ctx.clockSkew ≤ c.exp
  notEarly : c.iat ≤ ctx.now.saturatingAdd ctx.clockSkew
  cap : ∀ t, ctx.issuerManifestExpiresAt = some t → c.exp ≤ t
  grants : c.grants ≠ []
  cnf : checkCnf P c.sub c.jkt = .ok ()

/-- Claims that pass the checks of every token context under their issuer. -/
structure TctClaims.Current (P : Primitives) (c : TctClaims) (core : CoreChecks) : Prop where
  writable : c.Writable P
  times : c.iat.Exact ∧ c.exp.Exact
  ver : c.ver = protocolVersion
  iss : c.iss = core.issuer
  notExpired : core.now.saturatingSub core.clockSkew ≤ c.exp
  notEarly : c.iat ≤ core.now.saturatingAdd core.clockSkew
  cap : ∀ t, core.issuerManifestExpiresAt = some t → c.exp ≤ t
  grants : c.grants ≠ []
  cnf : checkCnf P c.sub c.jkt = .ok ()

theorem TctClaims.Writable.decode_exact {c : TctClaims} (hP : P.ReadsText) (h : c.Writable P)
    (ht : c.iat.Exact ∧ c.exp.Exact) :
    (P.document c.toValue.jcs).bind decodeTctClaims = some (c.reread P) := by
  rw [hP.document_jcs (h.readable_toValue hP), Option.bind_some, h.decode_reread,
    ht.1.rereadTime hP, ht.2.rereadTime hP]
  rfl

theorem GrantVoucherClaims.Writable.decode_exact {c : GrantVoucherClaims} (hP : P.ReadsText)
    (h : c.Writable) (ht : c.iat.Exact ∧ c.exp.Exact) :
    (P.document c.toValue.jcs).bind decodeGrantVoucherClaims = some c := by
  rw [hP.document_jcs (h.readable_toValue hP), Option.bind_some, h.decode_reread,
    ht.1.rereadTime hP, ht.2.rereadTime hP]
  rfl

theorem TctClaims.Writable.read_toValue {c read : TctClaims} (hP : P.ReadsText)
    (hw : c.Writable P) (hd : (P.document c.toValue.jcs).bind decodeTctClaims = some read) :
    ∃ iat exp, P.rereadTime c.iat = some iat ∧ P.rereadTime c.exp = some exp ∧
      read = { c.reread P with iat := iat, exp := exp } := by
  rw [hP.document_jcs (hw.readable_toValue hP), Option.bind_some, hw.decode_reread] at hd
  obtain ⟨iat, hi, hd⟩ := Option.bind_eq_some_iff.mp hd
  obtain ⟨exp, he, hd⟩ := Option.bind_eq_some_iff.mp hd
  exact ⟨iat, exp, hi, he, (Option.some.inj hd).symm⟩

theorem GrantVoucherClaims.Writable.read_toValue {c read : GrantVoucherClaims} (hP : P.ReadsText)
    (hw : c.Writable) (hd : (P.document c.toValue.jcs).bind decodeGrantVoucherClaims = some read) :
    ∃ iat exp, P.rereadTime c.iat = some iat ∧ P.rereadTime c.exp = some exp ∧
      read = { c with iat := iat, exp := exp } := by
  rw [hP.document_jcs (hw.readable_toValue hP), Option.bind_some, hw.decode_reread] at hd
  obtain ⟨iat, hi, hd⟩ := Option.bind_eq_some_iff.mp hd
  obtain ⟨exp, he, hd⟩ := Option.bind_eq_some_iff.mp hd
  exact ⟨iat, exp, hi, he, (Option.some.inj hd).symm⟩

/-- Whoever reads a signed token reads the claims that were signed, but for the times. -/
theorem TctClaims.Writable.read_of_signCompact {c read : TctClaims} {issuer : Aid}
    {payload : Bytes} (hP : P.ReadsText) (hw : c.Writable P)
    (h : signCompact signer typTct c.toValue = .ok token)
    (hv : verifyCompact P issuer typTct token = .ok payload)
    (hd : (P.document payload).bind decodeTctClaims = some read) :
    ∃ iat exp, P.rereadTime c.iat = some iat ∧ P.rereadTime c.exp = some exp ∧
      read = { c.reread P with iat := iat, exp := exp } := by
  have hu := verifyCompact_ok hv
  obtain rfl := payload_of_signCompact h hu
  exact hw.read_toValue hP hd

/-- A signed token is opened under the agent that signed it. -/
theorem TctClaims.Writable.opens_signCompact {c : TctClaims} (hP : P.ReadsText)
    (hs : signer.Lawful P key) (hw : c.Writable P)
    (h : signCompact signer typTct c.toValue = .ok token) :
    peekClaimSet P typTct tctClaimsMembers "jti" token = .ok () ∧
      verifyCompact P signer.aid typTct token = .ok c.toValue.jcs := by
  have hm : checkMembers c.toValue.canon tctClaimsMembers = none :=
    checkMembers_written (by decide)
  have hj : checkV4Member (P.reread c.toValue.canon) "jti" = .ok () :=
    checkV4Member_some (Json.isObject_canon _) c.get_jti hw.jti
  have hr := hw.readable_toValue hP
  exact ⟨peekClaimSet_signCompact hP hs hr hw.distinctKeys_toValue rfl hm hj h,
    verifyCompact_signCompact hP hs hr rfl h⟩

/-- The checks common to every token pass under the agent that signed it, in a context that takes
its claims. -/
theorem CoreChecks.verify_signCompact {c : TctClaims} {core : CoreChecks}
    {context : TctClaims → Except TctError Unit} (hP : P.ReadsText)
    (hs : signer.Lawful P key) (hc : c.Current P core) (hi : core.issuer = signer.aid)
    (hx : context (c.reread P) = .ok ()) (h : signCompact signer typTct c.toValue = .ok token) :
    core.verify P token context = .ok (c.reread P) := by
  obtain ⟨hp, hv⟩ := hc.writable.opens_signCompact hP hs h
  have hd := hc.writable.decode_exact hP hc.times
  simp only [CoreChecks.verify, hi, bind_eq_ok, ensure_eq_ok, okOr_eq_ok, mapErr_eq_ok,
    ifPresent_eq_ok, pure_eq_ok, exists_const]
  refine ⟨(), hp, c.toValue.jcs, hv, c.reread P, hd, ?_, ?_, (), hx, ?_, ?_, ?_, ?_, (), hc.cnf,
    rfl⟩
  · simp [TctClaims.reread, hc.ver]
  · simp [TctClaims.reread, hc.iss, hi]
  · exact decide_eq_true hc.notExpired
  · exact decide_eq_true hc.notEarly
  · intro t ht
    exact decide_eq_true (hc.cap t ht)
  · simp [TctClaims.reread, hc.grants]

theorem TctClaims.Presentable.current {c : TctClaims} {ctx : TctVerifyContext}
    (h : c.Presentable P ctx) :
    c.Current P ⟨ctx.issuer, ctx.now, ctx.clockSkew, ctx.issuerManifestExpiresAt⟩ where
  writable := h.writable
  times := h.times
  ver := h.ver
  iss := h.iss
  notExpired := h.notExpired
  notEarly := h.notEarly
  cap := h.cap
  grants := h.grants
  cnf := h.cnf

theorem verifyTctBeforeRevocation_signCompact {c : TctClaims} {ctx : TctVerifyContext}
    (hP : P.ReadsText) (hs : signer.Lawful P key) (hc : c.Presentable P ctx)
    (hi : ctx.issuer = signer.aid) (h : signCompact signer typTct c.toValue = .ok token) :
    verifyTctBeforeRevocation P token ctx = .ok (c.reread P) := by
  refine CoreChecks.verify_signCompact hP hs hc.current hi ?_ h
  simp only [bind_eq_ok, ensure_eq_ok, exists_const]
  refine ⟨?_, ?_, ?_, ?_⟩
  · simp [TctClaims.reread, hc.aud]
  · simp [TctClaims.reread, hc.sub]
  · simp [TctClaims.reread, hc.notSelf]
  · simp [TctClaims.reread, hc.notAttestation]

/-- A voucher verifies under the agent that signed it. -/
theorem verifyVoucher_signCompact {c : GrantVoucherClaims} (hP : P.ReadsText)
    (hs : signer.Lawful P key) (hc : c.Writable) (ht : c.iat.Exact ∧ c.exp.Exact)
    (hv : c.ver = protocolVersion) (hi : c.iss = signer.aid) (hg : c.grants ≠ [])
    (h : signCompact signer typGrantVoucher c.toValue = .ok token) :
    verifyVoucher P token signer.aid = .ok c := by
  have hm : checkMembers c.toValue.canon grantVoucherClaimsMembers = none :=
    checkMembers_written (by decide)
  have hj : checkV4Member (P.reread c.toValue.canon) "src_jti" = .ok () :=
    checkV4Member_some (Json.isObject_canon _) c.get_srcJti hc.srcJti
  have hr := hc.readable_toValue hP
  have hp := peekClaimSet_signCompact hP hs hr hc.distinctKeys_toValue rfl hm hj h
  have hx := verifyCompact_signCompact hP hs hr rfl h
  simp only [verifyVoucher, bind_eq_ok, mapErr_eq_ok, okOr_eq_ok, ensure_eq_ok, pure_eq_ok,
    exists_const]
  exact ⟨(), hp, c.toValue.jcs, hx, c, hc.decode_exact hP ht, by simp [hv], by simp [hi],
    by simp [hg], rfl⟩

end

end Aitp
