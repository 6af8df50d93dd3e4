import Aitp.Renewal.Types
import Aitp.Tct.RoundTrip

/-! # Renewing a token

`renewal/issuer.rs`: the issuer verifies the token presented and the holder's proof,
records the nonce, narrows the grants and mints the renewed token. The record is the
one effect; drawn identifiers are inputs.
-/

namespace Aitp

abbrev RenewalGrantPolicyFn := Aid → List String → List String

/-- What a nonce store refuses a record with: `NonceStoreError::Duplicate`, or another error. -/
inductive StoreRefusal where
  | duplicate
  | failed

/-- `NonceStore`, as far as it is used to renew: the store after a record, and its answer. -/
structure NonceStore (σ : Type) where
  issue : σ → IssuedNonce → σ × Except StoreRefusal Unit

/-- `NonceStore for InMemoryNonceStore`. -/
def InMemoryNonceStore.nonceStore (cfg : NonceStoreConfig) : NonceStore InMemoryNonceStore where
  issue st record :=
    match st.issueSync cfg record 0 with
    | (st, .ok ()) => (st, .ok ())
    | (st, .error .duplicate) => (st, .error .duplicate)
    | (st, .error (.atCapacity ..)) => (st, .error .failed)

/-- `RenewalContext`, without the nonce store; the lifetime counts whole seconds. -/
structure RenewalContext where
  manifestExpiresAt : Timestamp
  offeredGrants : List String
  revocation : RevocationSource
  grantPolicy : Option RenewalGrantPolicyFn
  ttl : ℕ
  mintVoucher : Bool
  now : Timestamp

/-- What the first four steps establish. -/
structure CheckedRenewal where
  nonce : Nonce
  claims : TctClaims
  holderPk : VerifyingKey
  effectiveGrants : List String

section

variable (P : Primitives)

/-- What the token presented is verified against. -/
def RenewalContext.verifyContext (ctx : RenewalContext) (issuer audience : Aid) :
    TctVerifyContext where
  expectedAudience := audience
  issuer := issuer
  now := ctx.now
  issuerManifestExpiresAt := some ctx.manifestExpiresAt
  revocation := .failOpen
  clockSkew := 0

/-- The holder's proof: a signature by the key of `sub` over the token's `iss` and `jti` and the
nonce. -/
def verifyRenewalPop (claims : TctClaims) (nonce : Nonce) (popSignature : String) :
    Except TctError VerifyingKey := do
  let holderPk ← mapErr .crypto (VerifyingKey.fromAid P claims.sub)
  let input := renewalPopInput claims.iss.value claims.jti.hyphenated nonce.bytes
  let sig ← mapErr (fun _ => .popFailed) (Signature.parse popSignature)
  mapErr (fun _ => .popFailed) (holderPk.verifyJcs P input sig)
  return holderPk

/-- Steps 1 to 4 of `process_renewal_request`. -/
def checkRenewalRequest (request : TctRenewalPayload) (issuerAid : Aid) (ctx : RenewalContext) :
    Except RenewalError CheckedRenewal := do
  let nonce ← decodeRenewalNonce request.popNonce
  let peek ← mapErr .tct (Renewal.peekClaims P request.currentTct)
  let verified ←
    mapErr .tct (verifyTct P request.currentTct (ctx.verifyContext issuerAid peek.aud))
  let claims := verified.claims
  ensure (decide (claims.aud = claims.sub)) (.tct .audienceMismatch)
  let holderPk ← mapErr .tct (verifyRenewalPop P claims nonce request.popSignature)
  let effectiveGrants ← mapErr .tct (checkRevocation ctx.revocation claims ctx.now)
  return ⟨nonce, claims, holderPk, effectiveGrants⟩

/-- Step 6: what the offer and the policy leave of the grants. -/
def RenewalContext.narrow (ctx : RenewalContext) (sub : Aid) (effective : List String) :
    List String :=
  let grants := effective.filter fun g => ctx.offeredGrants.contains g
  match ctx.grantPolicy with
  | none => grants
  | some policy =>
    let narrowed := policy sub grants
    grants.filter fun g => narrowed.contains g

/-- The lifetime of the renewed token, capped by the manifest. -/
def RenewalContext.cappedTtl (ctx : RenewalContext) : ℕ :=
  min ctx.ttl (saturate (ctx.manifestExpiresAt - ctx.now)).toNat

/-- The builder of steps 7 and 8. -/
def renewalBuilder (checked : CheckedRenewal) (issuerKey : Signer) (ctx : RenewalContext)
    (grants : List String) (drawn : RandomV4) : TctBuilder :=
  { TctBuilder.new issuerKey drawn with
    subject := some checked.claims.sub
    audience := some checked.claims.aud
    grants := grants
    ttl := ctx.cappedTtl
    subjectPubkey := some checked.holderPk
    nowOverride := some ctx.now
    jti := .fixed drawn.id
    mintVoucher := ctx.mintVoucher }

/-- Steps 6 to 8. -/
def mintRenewal (checked : CheckedRenewal) (issuerKey : Signer) (ctx : RenewalContext)
    (drawn : RandomV4) : Except RenewalError IssuedTct := do
  let grants := ctx.narrow checked.claims.sub checked.effectiveGrants
  ensure (!grants.isEmpty) .grantsWithdrawn
  mapErr .tct ((renewalBuilder checked issuerKey ctx grants drawn).build P ctx.now)

/-- The record of an accepted nonce: it lives until the presented token expires. -/
def CheckedRenewal.record (checked : CheckedRenewal) (issuerAid : Aid) (now : Timestamp) :
    IssuedNonce :=
  ⟨checked.nonce, issuerAid, now, checked.claims.exp⟩

/-- `process_renewal_request`, with the store it leaves. -/
def processRenewalRequest {σ : Type} (nonceStore : NonceStore σ) (st : σ)
    (request : TctRenewalPayload) (issuerKey : Signer) (ctx : RenewalContext) (drawn : RandomV4) :
    σ × Except RenewalError IssuedTct :=
  match checkRenewalRequest P request issuerKey.aid ctx with
  | .error e => (st, .error e)
  | .ok checked =>
    match nonceStore.issue st (checked.record issuerKey.aid ctx.now) with
    | (st, .error .duplicate) => (st, .error .replayed)
    | (st, .error .failed) => (st, .error .nonceStore)
    | (st, .ok ()) => (st, mintRenewal P checked issuerKey ctx drawn)

/-- `sign_payload`. -/
def signRenewalPayload (issuerKey : Signer) (messageType : MessageType) (payload : Json)
    (messageId : Uuid) (now : Timestamp) : Except RenewalError AitpEnvelope :=
  mapErr .envelope (signEnvelopeWith issuerKey messageType payload messageId now)

def renewalResponseEnvelope (issuerKey : Signer) (renewed : IssuedTct) (popNonce : String)
    (messageId : Uuid) (now : Timestamp) : Except RenewalError AitpEnvelope :=
  signRenewalPayload issuerKey .tct
    (RenewalResponsePayload.toValue ⟨renewed.token, renewed.voucher, popNonce⟩) messageId now

def renewalErrorEnvelope (issuerKey : Signer) (code : RenewalErrorCode) (reason : String)
    (retryable : Bool) (messageId : Uuid) (now : Timestamp) : Except RenewalError AitpEnvelope :=
  signRenewalPayload issuerKey .error (RenewalErrorPayload.toValue ⟨code, reason, retryable⟩)
    messageId now

end

variable {P : Primitives}

/-! ## What is checked -/

/-- A request that passed the checks: its token is the issuer's, its holder's and unexpired, and
its proof was signed by the holder's key. -/
structure CheckedRenewal.Established (P : Primitives) (request : TctRenewalPayload)
    (issuerAid : Aid) (ctx : RenewalContext) (checked : CheckedRenewal) : Prop where
  nonce : request.popNonce = encodeBase64Url checked.nonce.bytes
  signed : ∃ payload, verifyCompact P issuerAid typTct request.currentTct = .ok payload ∧
    (P.document payload).bind decodeTctClaims = some checked.claims
  iss : checked.claims.iss = issuerAid
  aud : checked.claims.aud = checked.claims.sub
  live : ctx.now ≤ checked.claims.exp
  cap : checked.claims.exp ≤ ctx.manifestExpiresAt
  key : VerifyingKey.fromAid P checked.claims.sub = .ok checked.holderPk
  cnf : checked.claims.jkt = checked.holderPk.toJwkThumbprintSha256 P
  proof : ∃ sig, Signature.parse request.popSignature = .ok sig ∧
    checked.holderPk.verifyJcs P (renewalPopInput checked.claims.iss.value
      checked.claims.jti.hyphenated checked.nonce.bytes) sig = .ok ()
  revocation : checkRevocation ctx.revocation checked.claims ctx.now = .ok checked.effectiveGrants

theorem verifyRenewalPop_eq_ok {claims : TctClaims} {nonce : Nonce} {popSignature : String}
    {key : VerifyingKey} : verifyRenewalPop P claims nonce popSignature = .ok key ↔
      VerifyingKey.fromAid P claims.sub = .ok key ∧ ∃ sig, Signature.parse popSignature = .ok sig ∧
        key.verifyJcs P (renewalPopInput claims.iss.value claims.jti.hyphenated nonce.bytes) sig =
          .ok () := by
  simp only [verifyRenewalPop, bind_eq_ok, mapErr_eq_ok, pure_eq_ok]
  constructor
  · rintro ⟨key, hk, sig, hs, ⟨⟩, hv, rfl⟩
    exact ⟨hk, sig, hs, hv⟩
  · rintro ⟨hk, sig, hs, hv⟩
    exact ⟨key, hk, sig, hs, (), hv, rfl⟩

theorem checkRenewalRequest_ok {request : TctRenewalPayload} {issuerAid : Aid}
    {ctx : RenewalContext} {checked : CheckedRenewal} (hn : ctx.now.Fits)
    (h : checkRenewalRequest P request issuerAid ctx = .ok checked) :
    checked.Established P request issuerAid ctx := by
  simp only [checkRenewalRequest, verifyTct, bind_eq_ok, mapErr_eq_ok, ensure_eq_ok, pure_eq_ok,
    exists_const, decide_eq_true_eq] at h
  obtain ⟨nonce, hd, peek, -, _, ⟨claims, hv, _, -, rfl⟩, hs, key, hk, effective, hr, rfl⟩ := h
  have hg := verifyTctBeforeRevocation_ok hv
  obtain ⟨he, key', hk', hj⟩ := verifyTctBeforeRevocation_live hn rfl hv
  obtain ⟨hkey, hproof⟩ := verifyRenewalPop_eq_ok.mp hk
  obtain rfl := Except.ok.inj (hk'.symm.trans hkey)
  exact {
    nonce := decodeRenewalNonce_eq_ok.mp hd
    signed := hg.signed
    iss := hg.iss
    aud := hs
    live := he
    cap := hg.exp _ rfl
    key := hkey
    cnf := hj
    proof := hproof
    revocation := hr }

theorem Renewal.peekClaims_of_verifyCompact {issuer : Aid} {token : String} {payload : Bytes}
    {claims peeked : TctClaims} (hv : verifyCompact P issuer typTct token = .ok payload)
    (hc : (P.document payload).bind decodeTctClaims = some claims)
    (hp : Renewal.peekClaims P token = .ok peeked) : peeked = claims := by
  have hu := verifyCompact_ok hv
  simp only [Renewal.peekClaims, bind_eq_ok, mapErr_eq_ok, okOr_eq_ok] at hp
  obtain ⟨payload', hu', _, -, value, hd, hp⟩ := hp
  obtain rfl := Except.ok.inj (hu.symm.trans hu')
  rw [hd, Option.bind_some] at hc
  have hdec : decodeTctClaims value = some peeked := by
    split_ifs at hp
    · simp only [bind_eq_ok, okOr_eq_ok] at hp
      exact hp.choose_spec.2
    · exact okOr_eq_ok.mp hp
  exact Option.some.inj (hdec.symm.trans hc)

theorem peekClaims_of_checkRenewalRequest {request : TctRenewalPayload} {issuerAid : Aid}
    {ctx : RenewalContext} {checked : CheckedRenewal}
    (h : checkRenewalRequest P request issuerAid ctx = .ok checked) :
    Renewal.peekClaims P request.currentTct = .ok checked.claims := by
  simp only [checkRenewalRequest, verifyTct, bind_eq_ok, mapErr_eq_ok, pure_eq_ok] at h
  obtain ⟨_, -, peeked, hp, _, ⟨claims, hv, _, -, rfl⟩, _, -, _, -, _, -, rfl⟩ := h
  obtain ⟨payload, hs, hd⟩ := (verifyTctBeforeRevocation_ok hv).signed
  obtain rfl := Renewal.peekClaims_of_verifyCompact hs hd hp
  exact hp

/-- Two requests that present one token present the same claims. -/
theorem CheckedRenewal.Established.claims_eq {request request' : TctRenewalPayload}
    {issuerAid issuerAid' : Aid} {ctx ctx' : RenewalContext} {checked checked' : CheckedRenewal}
    (h : checked.Established P request issuerAid ctx)
    (h' : checked'.Established P request' issuerAid' ctx')
    (ht : request.currentTct = request'.currentTct) : checked.claims = checked'.claims := by
  obtain ⟨payload, hv, hd⟩ := h.signed
  obtain ⟨payload', hv', hd'⟩ := h'.signed
  rw [ht] at hv
  obtain ⟨-, rfl⟩ := verifyCompact_unique hv hv'
  exact Option.some.inj (hd.symm.trans hd')

/-- Two requests that present one nonce are recorded under the same one. -/
theorem CheckedRenewal.Established.nonce_eq {request request' : TctRenewalPayload}
    {issuerAid issuerAid' : Aid} {ctx ctx' : RenewalContext} {checked checked' : CheckedRenewal}
    (h : checked.Established P request issuerAid ctx)
    (h' : checked'.Established P request' issuerAid' ctx')
    (hn : request.popNonce = request'.popNonce) : checked.nonce = checked'.nonce := by
  have he : encodeBase64Url checked.nonce.bytes = encodeBase64Url checked'.nonce.bytes :=
    h.nonce.symm.trans (hn.trans h'.nonce)
  have hb := decodeStrict_encodeBase64Url checked.nonce.bytes
  rw [he, decodeStrict_encodeBase64Url] at hb
  have hb := (Option.some.inj hb).symm
  revert hb
  rcases checked.nonce with ⟨bytes, _⟩
  rcases checked'.nonce with ⟨bytes', _⟩
  rintro rfl
  rfl

/-! ## What is minted -/

namespace RenewalContext

variable {ctx : RenewalContext} {sub : Aid} {effective : List String}

theorem narrow_sublist : (ctx.narrow sub effective).Sublist effective := by
  unfold narrow
  split
  · exact List.filter_sublist
  · exact List.filter_sublist.trans List.filter_sublist

theorem mem_narrow {g : String} : g ∈ ctx.narrow sub effective ↔
    g ∈ effective ∧ g ∈ ctx.offeredGrants ∧ ∀ policy, ctx.grantPolicy = some policy →
      g ∈ policy sub (effective.filter fun g => ctx.offeredGrants.contains g) := by
  unfold narrow
  split
  next hp => simp [hp]
  next policy hp =>
    simp only [hp, List.mem_filter, List.contains_iff_mem, Option.some.injEq, forall_eq']
    exact and_assoc

theorem saturatingAdd_cappedTtl (hm : ctx.manifestExpiresAt.Fits)
    (hle : ctx.now ≤ ctx.manifestExpiresAt) :
    ctx.now.saturatingAdd ctx.cappedTtl =
      min (ctx.now.saturatingAdd ctx.ttl) ctx.manifestExpiresAt := by
  have h0 : 0 ≤ ctx.manifestExpiresAt - ctx.now := sub_nonneg.mpr hle
  have hw : saturate (ctx.manifestExpiresAt - ctx.now) =
      min i64Max (ctx.manifestExpiresAt - ctx.now) := by
    refine max_eq_right (le_trans (by decide) (le_min (show (0 : Int) ≤ i64Max by decide) h0))
  have hc : (0 : Int) ≤ min i64Max (ctx.manifestExpiresAt - ctx.now) :=
    le_min (by decide) h0
  have hd : durationSecs ctx.cappedTtl =
      min (durationSecs ctx.ttl) (ctx.manifestExpiresAt - ctx.now) := by
    rw [durationSecs, durationSecs, cappedTtl, hw, Nat.cast_min, Int.toNat_of_nonneg hc,
      ← min_assoc, min_right_comm, min_eq_left (min_le_right (ctx.ttl : Int) i64Max)]
  rw [Timestamp.saturatingAdd, Timestamp.saturatingAdd, hd, ← min_add_add_left, add_sub_cancel,
    saturate_min hm]

end RenewalContext

/-- The renewed token keeps the parties and the key of the one presented, has the drawn identifier
and lives from now on, under the manifest, with the grants that are left. -/
structure CheckedRenewal.Renewed (checked : CheckedRenewal) (issuerKey : Signer)
    (ctx : RenewalContext) (drawn : RandomV4) (tct : IssuedTct) : Prop where
  signed : signCompact issuerKey typTct tct.claims.toValue = .ok tct.token
  iss : tct.claims.iss = checked.claims.iss
  sub : tct.claims.sub = checked.claims.sub
  aud : tct.claims.aud = checked.claims.aud
  cnf : tct.claims.jkt = checked.claims.jkt
  jti : tct.claims.jti = drawn.id
  iat : tct.claims.iat = ctx.now
  exp : tct.claims.exp = min (ctx.now.saturatingAdd ctx.ttl) ctx.manifestExpiresAt
  grants : tct.claims.grants = ctx.narrow checked.claims.sub checked.effectiveGrants
  nonempty : tct.claims.grants ≠ []
  voucher : tct.voucher.isSome = ctx.mintVoucher
  ext : tct.claims.ext = none

theorem mintRenewal_ok {request : TctRenewalPayload} {issuerKey : Signer} {ctx : RenewalContext}
    {drawn : RandomV4} {checked : CheckedRenewal} {tct : IssuedTct}
    (hc : checked.Established P request issuerKey.aid ctx) (hm : ctx.manifestExpiresAt.Fits)
    (h : mintRenewal P checked issuerKey ctx drawn = .ok tct) :
    checked.Renewed issuerKey ctx drawn tct := by
  simp only [mintRenewal, bind_eq_ok, ensure_eq_ok, mapErr_eq_ok, exists_const] at h
  obtain ⟨-, hb⟩ := h
  obtain ⟨d, hd, ht, hv, hcl⟩ := TctBuilder.build_eq_ok.mp hb
  obtain ⟨subject, key, jti, hs, -, hk, hj, -, hg, -, -, -, rfl⟩ :=
    (TctBuilder.draft_eq_ok rfl).mp hd
  obtain rfl : checked.claims.sub = subject := Option.some.inj hs
  obtain rfl : checked.holderPk = key := Option.some.inj hk
  obtain rfl : drawn.id = jti := by
    simp only [renewalBuilder, JtiSource.resolve, bind_eq_ok, pure_eq_ok] at hj
    exact hj.choose_spec.2
  obtain ⟨token, claims, voucher⟩ := tct
  obtain rfl : claims = _ := hcl
  exact {
    signed := ht
    iss := hc.iss.symm
    sub := rfl
    aud := hc.aud.symm
    cnf := hc.cnf.symm
    jti := rfl
    iat := rfl
    exp := ctx.saturatingAdd_cappedTtl hm (hc.live.trans hc.cap)
    grants := rfl
    nonempty := hg
    voucher := isSome_of_signVoucher hv
    ext := rfl }

/-- What is answered to a request. -/
theorem processRenewalRequest_eq_ok {σ : Type} {nonceStore : NonceStore σ} {st : σ}
    {request : TctRenewalPayload} {issuerKey : Signer} {ctx : RenewalContext} {drawn : RandomV4}
    {tct : IssuedTct} :
    (processRenewalRequest P nonceStore st request issuerKey ctx drawn).2 = .ok tct ↔
      ∃ checked, checkRenewalRequest P request issuerKey.aid ctx = .ok checked ∧
        (nonceStore.issue st (checked.record issuerKey.aid ctx.now)).2 = .ok () ∧
        mintRenewal P checked issuerKey ctx drawn = .ok tct := by
  unfold processRenewalRequest
  constructor
  · intro h
    split at h
    next => simp at h
    next checked hc =>
      refine ⟨checked, hc, ?_⟩
      split at h
      next => simp at h
      next => simp at h
      next heq => exact ⟨by rw [heq], h⟩
  · rintro ⟨checked, hc, hi, hm⟩
    rw [hc]
    simp only
    split
    next heq => simp [heq] at hi
    next heq => simp [heq] at hi
    next => exact hm

/-! ## What the in-memory store takes -/

namespace InMemoryNonceStore

variable {cfg : NonceStoreConfig} {st : InMemoryNonceStore}

theorem reserve_of_lt {now : Timestamp} (h : st.outstanding < cfg.capacity) :
    st.reserve cfg now = ({ st with outstanding := st.outstanding + 1 }, true) := by
  have hr : st.tryReserve cfg = ({ st with outstanding := st.outstanding + 1 }, true) :=
    if_pos h
  simp only [reserve, hr, if_true]

theorem nonceStore_issue_of_vacant {rec : IssuedNonce} (hv : st.held cfg rec.nonce = none)
    (hc : (st.issuePurge cfg rec).2 ≤ st.outstanding) (hr : st.outstanding < cfg.capacity) :
    ((nonceStore cfg).issue st rec).2 = .ok () := by
  have hn : ((st.issuePurge cfg rec).1.shards (shardOf cfg rec.nonce)).map.lookup rec.nonce =
      none := by
    rcases h : ((st.issuePurge cfg rec).1.shards (shardOf cfg rec.nonce)).map.lookup rec.nonce
      with _ | e
    · rfl
    · have hk : st.held cfg rec.nonce = some e := (thins_issuePurge rec).kept h
      rw [hv] at hk
      exact absurd hk (by simp)
  have ho : ((st.issuePurge cfg rec).1.release (st.issuePurge cfg rec).2).outstanding <
      cfg.capacity := by
    have hf : fetchSub st.outstanding (st.issuePurge cfg rec).2 ≤ st.outstanding := by
      rw [fetchSub, if_pos hc]
      exact Nat.sub_le _ _
    exact lt_of_le_of_lt hf hr
  have hi : (st.issueSync cfg rec 0).2 = .ok () := by
    have hins : ∀ s : InMemoryNonceStore, s.shards = (st.issuePurge cfg rec).1.shards →
        (s.issueInsert cfg rec 0).2 = true := by
      intro s hs
      simp [issueInsert, NonceShard.insert, hs, hn]
    have hx := hins { ((st.issuePurge cfg rec).1.release (st.issuePurge cfg rec).2) with
      outstanding := ((st.issuePurge cfg rec).1.release (st.issuePurge cfg rec).2).outstanding + 1 }
      rfl
    simp only [issueSync, reserve_of_lt ho, if_true, hx]
  simp only [nonceStore]
  rcases h : st.issueSync cfg rec 0 with ⟨st', r⟩
  rw [h] at hi
  obtain rfl : r = .ok () := hi
  rfl

end InMemoryNonceStore
end Aitp
