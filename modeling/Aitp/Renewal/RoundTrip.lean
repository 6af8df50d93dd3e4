import Aitp.Renewal.Holder
import Aitp.Renewal.Issuer

/-! # Renewals are accepted

A holder that asks to renew a token it was issued is answered, and accepts the answer
as what the issuer minted, when the nonce store takes the nonce and the clock can be
written in an envelope.
-/

namespace Aitp

variable {P : Primitives}

/-- A token issued to a holder that its issuer can renew: its times are signed as they are, it is
live and not revoked, and some grant is left. -/
structure Renewable (P : Primitives) (b : TctBuilder) (clock : Timestamp) (current : IssuedTct)
    (holder : Signer) (ctx : RenewalContext) (effective : List String) : Prop where
  wellTyped : b.WellTyped P clock
  grant : b.attestation = false
  built : b.build P clock = .ok current
  exact : current.claims.Exact
  subject : b.subject = some holder.aid
  now : ctx.now.Fits
  manifestExpiresAt : ctx.manifestExpiresAt.Fits
  live : current.claims.LiveAt ctx.now (some ctx.manifestExpiresAt)
  unrevoked : checkRevocation ctx.revocation current.claims ctx.now = .ok effective
  left : ctx.narrow holder.aid effective ≠ []

namespace Renewable

variable {b : TctBuilder} {clock : Timestamp} {current : IssuedTct} {holder : Signer}
  {ctx : RenewalContext} {effective : List String} {ikey hkey : VerifyingKey}

/-- The claims of the token presented, and the key they bind. -/
theorem claims (h : Renewable P b clock current holder ctx effective)
    (hh : holder.Lawful P hkey) :
    current.claims.Writable P ∧ current.claims.iss = b.issuerKey.aid ∧
      current.claims.sub = holder.aid ∧ current.claims.aud = holder.aid ∧
      current.claims.jkt = hkey.toJwkThumbprintSha256 P ∧
      holder.aid ≠ b.issuerKey.aid ∧ attestationGrant ∉ current.claims.grants ∧
      (∀ g ∈ current.claims.grants, g.toList.any isWhitespace = false) ∧
      signCompact b.issuerKey typTct current.claims.toValue = .ok current.token := by
  obtain ⟨d, hd, ht, -, hc⟩ := TctBuilder.build_eq_ok.mp h.built
  obtain ⟨hw, hi, -, -⟩ := TctBuilder.writable_of_draft h.wellTyped h.grant hd
  obtain ⟨subject, key, jti, hs, -, hk, -, hm, -, hsp, hne, hb, rfl⟩ :=
    (TctBuilder.draft_eq_ok h.grant).mp hd
  obtain rfl : subject = holder.aid := Option.some.inj (hs.symm.trans h.subject)
  have haid := VerifyingKey.fromAid_of_bytes (h.wellTyped.subjectPubkey key hk) hb
  obtain rfl : key = hkey := Except.ok.inj (haid.symm.trans hh.1)
  rw [hc]
  exact ⟨hw, hi, rfl, rfl, rfl, hne, hm, hsp, ht⟩

theorem exact_now (h : Renewable P b clock current holder ctx effective) : ctx.now.Exact :=
  ⟨h.exact.1.1.trans h.live.iat, h.live.exp.trans h.exact.2.2⟩

theorem peekClaims (h : Renewable P b clock current holder ctx effective)
    (hP : P.ReadsText) (hi : b.issuerKey.Lawful P ikey) (hh : holder.Lawful P hkey) :
    Renewal.peekClaims P current.token = .ok (current.claims.reread P) := by
  obtain ⟨hw, -, -, -, -, -, -, -, ht⟩ := h.claims hh
  exact Renewal.peekClaims_signCompact hP hi hw h.exact ht

/-- The holder's request is built over the issuer and the identifier of its token. -/
theorem buildRenewalRequest (h : Renewable P b clock current holder ctx effective)
    (hP : P.ReadsText) (hi : b.issuerKey.Lawful P ikey) (hh : holder.Total P hkey)
    (nonce : Nonce) : ∃ sig,
      holder.signJcs (renewalPopInput current.claims.iss.value current.claims.jti.hyphenated
        nonce.bytes) = .ok sig ∧
      buildRenewalRequest P holder current.token (encodeBase64Url nonce.bytes) =
        .ok ⟨current.token, encodeBase64Url nonce.bytes, sig⟩ := by
  obtain ⟨sig, hs⟩ := hh.signJcs (renewalPopInput current.claims.iss.value
    current.claims.jti.hyphenated nonce.bytes)
  refine ⟨sig, hs, buildRenewalRequest_eq_ok.mpr ?_⟩
  exact ⟨nonce.bytes, (current.claims.reread P), sig, decodeStrict_encodeBase64Url _,
    h.peekClaims hP hi hh.lawful, hs, rfl⟩

/-- Such a request passes the checks of the issuer. -/
theorem checkRenewalRequest (h : Renewable P b clock current holder ctx effective)
    (hP : P.ReadsText) (hi : b.issuerKey.Lawful P ikey) (hh : holder.Lawful P hkey)
    {nonce : Nonce} {sig : String}
    (hs : holder.signJcs (renewalPopInput current.claims.iss.value
      current.claims.jti.hyphenated nonce.bytes) = .ok sig) :
    checkRenewalRequest P ⟨current.token, encodeBase64Url nonce.bytes, sig⟩ b.issuerKey.aid ctx =
      .ok ⟨nonce, (current.claims.reread P), hkey, effective⟩ := by
  obtain ⟨-, -, hsub, haud, -, -, -, -, -⟩ := h.claims hh
  have hv : verifyTct P current.token (ctx.verifyContext b.issuerKey.aid current.claims.aud) =
      .ok ⟨current.token, (current.claims.reread P), current.claims.grants⟩ :=
    verifyTct_build hP h.wellTyped hi h.grant h.built rfl (haud.trans hsub.symm) h.exact h.live
      rfl
  obtain ⟨hparse, hsig⟩ := signJcs_verifies hh hs
  have hpop : verifyRenewalPop P (current.claims.reread P) nonce sig = .ok hkey := by
    refine verifyRenewalPop_eq_ok.mpr ⟨?_, sig, hparse, hsig⟩
    rw [TctClaims.reread, hsub]
    exact hh.1
  simp only [Aitp.checkRenewalRequest, bind_eq_ok, mapErr_eq_ok, ensure_eq_ok, pure_eq_ok,
    exists_const]
  refine ⟨nonce, decodeRenewalNonce_eq_ok.mpr rfl, (current.claims.reread P),
    h.peekClaims hP hi hh, _, hv, ?_, hkey, hpop, effective, ?_, rfl⟩
  · exact decide_eq_true (haud.trans hsub.symm)
  · rw [checkRevocation_reread]
    exact h.unrevoked

/-- What the issuer mints then, with a signer that does not fail. -/
theorem mintRenewal (h : Renewable P b clock current holder ctx effective)
    (hi : b.issuerKey.Total P ikey) (hh : holder.Lawful P hkey) (nonce : Nonce)
    (drawn : RandomV4) : ∃ renewed,
      mintRenewal P ⟨nonce, (current.claims.reread P), hkey, effective⟩ b.issuerKey ctx drawn =
        .ok renewed := by
  obtain ⟨-, -, hsub, haud, -, hne, hm, hsp, -⟩ := h.claims hh
  have hsubset : ∀ g ∈ ctx.narrow holder.aid effective, g ∈ current.claims.grants := by
    intro g hg
    exact (checkRevocation_sublist h.unrevoked).mem (RenewalContext.narrow_sublist.mem hg)
  have hd : ∃ d, (renewalBuilder ⟨nonce, (current.claims.reread P), hkey, effective⟩ b.issuerKey ctx
      (ctx.narrow holder.aid effective) drawn).draft P ctx.now = .ok d := by
    refine ⟨_, (TctBuilder.draft_eq_ok rfl).mpr ⟨holder.aid, hkey, drawn.id, ?_, ?_, rfl, ?_, ?_,
      h.left, ?_, hne, ?_, rfl⟩⟩
    · exact congrArg some hsub
    · exact congrArg some haud
    · simp [renewalBuilder, JtiSource.resolve, drawn.layout]
    · exact fun hg => hm (hsubset _ hg)
    · exact fun g hg => hsp g (hsubset g hg)
    · rw [(VerifyingKey.fromAid_eq_ok.mp hh.1).1]
  obtain ⟨d, hd⟩ := hd
  obtain ⟨renewed, hb, -⟩ := TctBuilder.exists_build
    (b := renewalBuilder ⟨nonce, (current.claims.reread P), hkey, effective⟩ b.issuerKey ctx
      (ctx.narrow holder.aid effective) drawn) hi hd
  refine ⟨renewed, ?_⟩
  simp only [Aitp.mintRenewal, bind_eq_ok, ensure_eq_ok, mapErr_eq_ok, exists_const]
  have hsub' : (current.claims.reread P).sub = holder.aid := hsub
  rw [hsub']
  exact ⟨by simpa using h.left, hb⟩

end Renewable

theorem TctClaims.reread_of_ext {c : TctClaims} (h : c.ext = none) : c.reread P = c := by
  cases c
  subst h
  rfl

theorem CheckedRenewal.Established.wellTyped {request : TctRenewalPayload} {issuerKey : Signer}
    {ctx : RenewalContext} {checked : CheckedRenewal}
    (hc : checked.Established P request issuerKey.aid ctx) (hn : ctx.now.Fits)
    (drawn : RandomV4) : (renewalBuilder checked issuerKey ctx
      (ctx.narrow checked.claims.sub checked.effectiveGrants) drawn).WellTyped P ctx.now := by
  refine ⟨hn, by rintro _ ⟨⟩, ?_⟩
  rintro key ⟨⟩
  have hk := VerifyingKey.fromCompressed_of_fromAid hc.key
  rwa [(VerifyingKey.fromAid_eq_ok.mp hc.key).1] at hk ⊢

theorem writable_mintRenewal {request : TctRenewalPayload} {issuerKey : Signer}
    {ctx : RenewalContext} {checked : CheckedRenewal} {drawn : RandomV4} {renewed : IssuedTct}
    (hc : checked.Established P request issuerKey.aid ctx) (hn : ctx.now.Fits)
    (h : mintRenewal P checked issuerKey ctx drawn = .ok renewed) : renewed.claims.Writable P := by
  simp only [mintRenewal, bind_eq_ok, ensure_eq_ok, mapErr_eq_ok, exists_const] at h
  obtain ⟨-, hb⟩ := h
  obtain ⟨d, hd, -, -, hcl⟩ := TctBuilder.build_eq_ok.mp hb
  rw [hcl]
  exact (TctBuilder.writable_of_draft (hc.wellTyped hn drawn) rfl hd).1

/-- What the issuer mints is what the holder accepts while it lives, under the key and within the
grants of the token it presented. -/
theorem verifyRenewedTct_mintRenewal {request : TctRenewalPayload} {issuerKey : Signer}
    {key : VerifyingKey} {ctx : RenewalContext} {checked : CheckedRenewal} {drawn : RandomV4}
    {renewed : IssuedTct} (hP : P.ReadsText) (hi : issuerKey.Lawful P key)
    (hc : checked.Established P request issuerKey.aid ctx) (hn : ctx.now.Fits)
    (hm : ctx.manifestExpiresAt.Fits) (h : mintRenewal P checked issuerKey ctx drawn = .ok renewed)
    (hx : renewed.claims.Exact) {rctx : RenewalResponseContext}
    (hself : rctx.selfAid = checked.claims.sub)
    (hl : renewed.claims.LiveAt rctx.now rctx.issuerManifestExpiresAt) :
    verifyRenewedTct P renewed.token checked.claims rctx =
      .ok ⟨renewed.token, renewed.claims, renewed.claims.grants⟩ := by
  have hr := mintRenewal_ok hc hm h
  simp only [mintRenewal, bind_eq_ok, ensure_eq_ok, mapErr_eq_ok, exists_const] at h
  obtain ⟨-, hb⟩ := h
  have hv : verifyTct P renewed.token (rctx.verifyContext checked.claims.iss) =
      .ok ⟨renewed.token, renewed.claims.reread P, renewed.claims.grants⟩ :=
    verifyTct_build hP (hc.wellTyped hn drawn) hi rfl hb hc.iss (hself.trans hr.sub.symm) hx hl rfl
  rw [TctClaims.reread_of_ext hr.ext] at hv
  have hg : ∀ g ∈ renewed.claims.grants, g ∈ checked.claims.grants := by
    rw [hr.grants]
    intro g hg
    exact (RenewalContext.narrow_sublist.trans (checkRevocation_sublist hc.revocation)).mem hg
  simp only [verifyRenewedTct, bind_eq_ok, mapErr_eq_ok, ensure_eq_ok, pure_eq_ok, exists_const]
  refine ⟨_, hv, ?_, ?_, rfl⟩
  · simp [hr.sub, hr.cnf, hself]
  · simpa using hg

/-- An answer the issuer signed at the same clock is read, from its serialisation, as what it
minted. -/
theorem verifyRenewalResponse_renewed {request : TctRenewalPayload} {issuerKey : Signer}
    {key : VerifyingKey} {ctx : RenewalContext} {checked : CheckedRenewal} {drawn : RandomV4}
    {renewed : IssuedTct} {messageId : Uuid} {e : AitpEnvelope} (hP : P.ReadsText)
    (hi : issuerKey.Lawful P key) (hc : checked.Established P request issuerKey.aid ctx)
    (hn : ctx.now.Fits) (hm : ctx.manifestExpiresAt.Fits)
    (h : mintRenewal P checked issuerKey ctx drawn = .ok renewed) (hx : renewed.claims.Exact)
    (he : renewalResponseEnvelope issuerKey renewed request.popNonce messageId ctx.now = .ok e)
    (rctx : RenewalResponseContext) (hself : rctx.selfAid = checked.claims.sub)
    (hnow : rctx.now = ctx.now) (hsent : rctx.sentPopNonce = request.popNonce)
    (hpeek : Renewal.peekClaims P rctx.currentTct = .ok checked.claims)
    (hcap : ∀ t, rctx.issuerManifestExpiresAt = some t → ctx.manifestExpiresAt ≤ t) :
    (∃ wire, CheckedJson.fromSlice P (utf8 e.toValue.text) = some wire ∧
        parseEnvelopeWire wire = .ok e) ∧
      verifyRenewalResponse P e rctx =
        .ok ⟨⟨renewed.token, renewed.claims, renewed.claims.grants⟩, renewed.voucher⟩ := by
  have hs := mapErr_eq_ok.mp he
  constructor
  · obtain ⟨hf, hd, hp⟩ := parseEnvelopeWire_signEnvelopeWith hP hi hn
      RenewalResponsePayload.distinctKeys_toValue RenewalResponsePayload.readable_toValue hs
    exact ⟨⟨e.toValue, hd⟩, CheckedJson.fromSlice_text hP hf hd, hp⟩
  · have hsend := checkRenewalSender_signEnvelopeWith (P := P) hi hc.iss hs
    have hr := mintRenewal_ok hc hm h
    have hl : renewed.claims.LiveAt rctx.now rctx.issuerManifestExpiresAt := by
      constructor
      · rw [hr.iat, hnow]
      · rw [hr.exp, hnow]
        exact le_min (Timestamp.le_saturatingAdd hn _) (hc.live.trans hc.cap)
      · intro t ht
        rw [hr.exp]
        exact (min_le_right _ _).trans (hcap t ht)
    have hv := verifyRenewedTct_mintRenewal hP hi hc hn hm h hx hself hl
    obtain ⟨-, -, -, sig, -, rfl⟩ := signEnvelopeWith_eq_ok.mp hs
    simp only [verifyRenewalResponse, bind_eq_ok, mapErr_eq_ok, ensureMembers_eq_ok, okOr_eq_ok,
      ensure_eq_ok, pure_eq_ok, exists_const]
    refine ⟨checked.claims, hpeek, (), by rw [hnow]; exact hsend, ?_, _,
      RenewalResponsePayload.decode_toValue, ?_, _, hv, rfl⟩
    · exact checkMembers_obj_written (by decide)
    · simp [hsent]

section

variable {b : TctBuilder} {clock : Timestamp} {current : IssuedTct} {holder : Signer}
  {ctx : RenewalContext} {effective : List String} {ikey hkey : VerifyingKey}

/-- An honest renewal succeeds once the nonce store takes its record, at a clock that an envelope
can carry and for an expiry that is signed as it is, and the holder is left with what the issuer
minted. -/
theorem renewal_roundTrip {σ : Type} {nonceStore : NonceStore σ} {st : σ} (hP : P.ReadsText)
    (hi : b.issuerKey.Total P ikey) (hh : holder.Total P hkey)
    (h : Renewable P b clock current holder ctx effective)
    (hx : (min (ctx.now.saturatingAdd ctx.ttl) ctx.manifestExpiresAt).Exact) (nonce : Nonce)
    (hs : (nonceStore.issue st ⟨nonce, b.issuerKey.aid, ctx.now, current.claims.exp⟩).2 = .ok ())
    (h0 : 0 ≤ ctx.now) (drawn messageId : RandomV4) (cap : Option Timestamp)
    (hcap : ∀ t, cap = some t → ctx.manifestExpiresAt ≤ t) :
    ∃ request renewed envelope wire,
      buildRenewalRequest P holder current.token (encodeBase64Url nonce.bytes) = .ok request ∧
      parseRenewalRequest P (utf8 request.toValue.text) = .ok request ∧
      (processRenewalRequest P nonceStore st request b.issuerKey ctx drawn).2 = .ok renewed ∧
      renewalResponseEnvelope b.issuerKey renewed request.popNonce messageId.id ctx.now =
        .ok envelope ∧
      CheckedJson.fromSlice P (utf8 envelope.toValue.text) = some wire ∧
      parseEnvelopeWire wire = .ok envelope ∧
      verifyRenewalResponse P envelope
          ⟨holder.aid, current.token, encodeBase64Url nonce.bytes, ctx.now, cap⟩ =
        .ok ⟨⟨renewed.token, renewed.claims, renewed.claims.grants⟩, renewed.voucher⟩ := by
  obtain ⟨sig, hsig, hreq⟩ := h.buildRenewalRequest hP hi.lawful hh nonce
  have hchk := h.checkRenewalRequest hP hi.lawful hh.lawful hsig
  have hest := checkRenewalRequest_ok h.now hchk
  obtain ⟨renewed, hmint⟩ := h.mintRenewal hi hh.lawful nonce drawn
  have hexact : renewed.claims.Exact := by
    have hr := mintRenewal_ok hest h.manifestExpiresAt hmint
    rw [TctClaims.Exact, hr.iat, hr.exp]
    exact ⟨h.exact_now, hx⟩
  obtain ⟨envelope, henv⟩ : ∃ e, renewalResponseEnvelope b.issuerKey renewed
      (encodeBase64Url nonce.bytes) messageId.id ctx.now = .ok e := by
    let response : RenewalResponsePayload :=
      ⟨renewed.token, renewed.voucher, encodeBase64Url nonce.bytes⟩
    have ho : response.toValue.isObject = true := rfl
    obtain ⟨e, he⟩ := hi.signEnvelopeWith .tct messageId.layout ho h0
    exact ⟨e, mapErr_eq_ok.mpr he⟩
  obtain ⟨-, -, hsub, -, -, -, -, -, -⟩ := h.claims hh.lawful
  obtain ⟨⟨wire, hw, hparse⟩, hv⟩ := verifyRenewalResponse_renewed hP hi.lawful hest h.now
    h.manifestExpiresAt hmint hexact henv
    ⟨holder.aid, current.token, encodeBase64Url nonce.bytes, ctx.now, cap⟩ hsub.symm rfl rfl
    (h.peekClaims hP hi.lawful hh.lawful) hcap
  refine ⟨_, renewed, envelope, wire, hreq, parseRenewalRequest_text hP _, ?_, henv, hw, hparse,
    hv⟩
  exact processRenewalRequest_eq_ok.mpr ⟨_, hchk, hs, hmint⟩

end

namespace Toy

/-- A token that agent 1 holds from a clock reading on. -/
def heldBuilder (t : Timestamp) : TctBuilder := { tctBuilder with nowOverride := some t }

def renewalContext (t : Timestamp) : RenewalContext where
  manifestExpiresAt := 1000
  offeredGrants := ["demo.echo"]
  revocation := .failOpen
  grantPolicy := none
  ttl := 60
  mintVoucher := true
  now := t

def renewalNonce : Nonce := ⟨List.replicate 16 0, length_zeroes⟩

def roomyStore : NonceStoreConfig := ⟨1, 2, fun _ => 0⟩

def fullStore : NonceStoreConfig := ⟨1, 0, fun _ => 0⟩

def drawnUuid : RandomV4 := ⟨uuid 2, checkV4_uuid 2⟩

/-- The issuer's context under a Manifest that ends at another time. -/
def renewalContextUntil (m now : Timestamp) : RenewalContext :=
  { renewalContext now with manifestExpiresAt := m }

theorem exists_renewable_until {m t now : Timestamp} (hl : -1000 ≤ t) (hu : t ≤ 2 ^ 53 - 100)
    (hi : t ≤ now) (hx : now ≤ t + 100) (hm : t + 100 ≤ m) (hf : m.Fits) :
    ∃ current, Renewable primitives (heldBuilder t) t current (signer (agent 1))
      (renewalContextUntil m now) ["demo.echo"] := by
  have ht : t.Exact := by
    constructor
    · exact le_trans (by decide) hl
    · exact le_trans hu (by decide)
  have htu : (t + 100).Exact := by
    constructor
    · exact ht.1.trans (by linarith)
    · exact show t + 100 ≤ 2 ^ 53 by linarith
  have hn : now.Exact := by
    constructor
    · exact ht.1.trans hi
    · exact hx.trans htu.2
  have hw : (heldBuilder t).WellTyped primitives t := by
    refine ⟨ht.fits, nofun, ?_⟩
    rintro key ⟨⟩
    exact fromCompressed_agentKey 1
  have he : t.saturatingAdd 100 = t + 100 :=
    Timestamp.saturatingAdd_of_fits (by decide) htu.fits
  have hd : ∃ d, (heldBuilder t).draft primitives t = .ok d ∧
      d.claims = (heldBuilder t).claims primitives (agent 1) (agentKey 1) (uuid 1) t := by
    refine ⟨_, (TctBuilder.draft_eq_ok rfl).mpr ⟨agent 1, agentKey 1, uuid 1, rfl, rfl, rfl,
      resolve_tctBuilder, ?_, List.cons_ne_nil _ _, ?_, agent_ne, rfl, rfl⟩, rfl⟩
    · exact show attestationGrant ∉ ["demo.echo"] by decide
    · exact show ∀ g ∈ ["demo.echo"], g.toList.any isWhitespace = false by decide
  obtain ⟨d, hd, hc⟩ := hd
  obtain ⟨current, hb, hi'⟩ := TctBuilder.exists_build (b := heldBuilder t)
    (signer_total (agent 0)) hd
  refine ⟨current, hw, rfl, hb, ?_, rfl, hn.fits, hf, ?_, ?_, ?_⟩
  · rw [hi', hc]
    refine ⟨ht, ?_⟩
    show (t.saturatingAdd 100).Exact
    rw [he]
    exact htu
  · rw [hi', hc]
    refine ⟨hi, ?_, ?_⟩
    · show now ≤ t.saturatingAdd 100
      rw [he]
      exact hx
    · rintro m ⟨⟩
      show t.saturatingAdd 100 ≤ _
      rw [he]
      exact hm
  · rw [hi', hc]
    rfl
  · exact show (["demo.echo"].filter fun g => ["demo.echo"].contains g) ≠ [] by decide

theorem exists_renewable_at {t now : Timestamp} (hl : -1000 ≤ t) (hu : t ≤ 900) (hi : t ≤ now)
    (hx : now ≤ t + 100) : ∃ current, Renewable primitives (heldBuilder t) t current
      (signer (agent 1)) (renewalContext now) ["demo.echo"] :=
  exists_renewable_until hl (by linarith) hi hx (by linarith) (show Timestamp.Fits 1000 by decide)

theorem exists_renewable {t : Timestamp} (hl : -1000 ≤ t) (hu : t ≤ 900) :
    ∃ current, Renewable primitives (heldBuilder t) t current (signer (agent 1)) (renewalContext t)
      ["demo.echo"] :=
  exists_renewable_at hl hu (le_refl t) (by linarith)

theorem issue_roomyStore (rec : IssuedNonce) :
    ((InMemoryNonceStore.nonceStore roomyStore).issue .new rec).2 = .ok () :=
  InMemoryNonceStore.nonceStore_issue_of_vacant rfl (Nat.le_refl 0) (by decide)

end Toy

open Toy in
/-- Agent 1 renews a token of agent 0 and holds what that agent minted. -/
theorem renewal_roundTrip_toy : ∃ (current renewed : IssuedTct) (envelope : AitpEnvelope),
    (heldBuilder 0).build primitives 0 = .ok current ∧
      verifyRenewalResponse primitives envelope
          ⟨agent 1, current.token, encodeBase64Url renewalNonce.bytes, 0, some 1000⟩ =
        .ok ⟨⟨renewed.token, renewed.claims, renewed.claims.grants⟩, renewed.voucher⟩ := by
  obtain ⟨current, h⟩ := exists_renewable (t := 0) (by decide) (by decide)
  have hcap : ∀ t, some (1000 : Timestamp) = some t → (renewalContext 0).manifestExpiresAt ≤ t := by
    rintro t ⟨⟩
    exact le_refl _
  obtain ⟨_, renewed, envelope, _, -, -, -, -, -, -, hv⟩ := renewal_roundTrip readsText
    (signer_total (agent 0)) (signer_total (agent 1)) h
    (show Timestamp.Exact (min (Timestamp.saturatingAdd 0 60) 1000) by decide) renewalNonce (issue_roomyStore _)
    (le_refl 0) drawnUuid drawnUuid (some 1000) hcap
  exact ⟨current, renewed, envelope, h.built, hv⟩

namespace Toy

/-- Agent 0 renews under a Manifest that ends three seconds past the last exact time. -/
def lateRenewal : RenewalContext := renewalContextUntil (2 ^ 53 + 3) (2 ^ 53 - 50)

/-- A token that ends then is not accepted as the one that was minted. -/
theorem claims_ne_of_late {current : TctClaims} {rctx : RenewalResponseContext}
    {renewed : IssuedTct} {received : VerifiedTct} (hw : renewed.claims.Writable primitives)
    (hs : signCompact (signer (agent 0)) typTct renewed.claims.toValue = .ok renewed.token)
    (hx : renewed.claims.exp = 2 ^ 53 + 3)
    (h : verifyRenewedTct primitives renewed.token current rctx = .ok received) :
    received.claims ≠ renewed.claims := by
  simp only [verifyRenewedTct, bind_eq_ok, mapErr_eq_ok, ensure_eq_ok, pure_eq_ok,
    exists_const] at h
  obtain ⟨verified, hv, -, -, rfl⟩ := h
  simp only [verifyTct, bind_eq_ok, pure_eq_ok] at hv
  obtain ⟨claims, hc, _, -, rfl⟩ := hv
  obtain ⟨payload, hp, hd⟩ := (verifyTctBeforeRevocation_ok hc).signed
  obtain ⟨iat, exp, -, he, rfl⟩ := hw.read_of_signCompact readsText hs hp hd
  intro heq
  have hexp : exp = 2 ^ 53 + 3 := (congrArg TctClaims.exp heq).trans hx
  have hlate : primitives.rereadTime (2 ^ 53 + 3) = some (2 ^ 53 + 4) := by
    have hcanon : (Json.int (2 ^ 53 + 3)).canon = .int (2 ^ 53 + 4) := by decide +kernel
    rw [Primitives.rereadTime, hcanon, readsText.reread_int (by decide) (by decide)]
    decide
  rw [hx, hexp, hlate] at he
  exact absurd (Option.some.inj he) (by decide)

end Toy

open Toy in
/-- A renewal of a live token on an unused nonce is not recorded by a full store, is not answered
at a clock before the epoch, and does not leave the holder with what was minted where that ends at
a time whose canonical text is that of another. -/
theorem renewal_unanswered :
    (∃ current request, Renewable primitives (heldBuilder 0) 0 current (signer (agent 1))
        (renewalContext 0) ["demo.echo"] ∧
      buildRenewalRequest primitives (signer (agent 1)) current.token
        (encodeBase64Url renewalNonce.bytes) = .ok request ∧
      InMemoryNonceStore.new.held fullStore renewalNonce = none ∧
      (processRenewalRequest primitives (InMemoryNonceStore.nonceStore fullStore) .new request
        (signer (agent 0)) (renewalContext 0) drawnUuid).2 = .error .nonceStore) ∧
    (∃ current request renewed, Renewable primitives (heldBuilder (-100)) (-100) current
        (signer (agent 1)) (renewalContext (-100)) ["demo.echo"] ∧
      buildRenewalRequest primitives (signer (agent 1)) current.token
        (encodeBase64Url renewalNonce.bytes) = .ok request ∧
      (processRenewalRequest primitives (InMemoryNonceStore.nonceStore roomyStore) .new request
        (signer (agent 0)) (renewalContext (-100)) drawnUuid).2 = .ok renewed ∧
      ∀ messageId envelope, renewalResponseEnvelope (signer (agent 0)) renewed request.popNonce
        messageId (-100) ≠ .ok envelope) ∧
    ∃ current request renewed envelope,
      Renewable primitives (heldBuilder (2 ^ 53 - 100)) (2 ^ 53 - 100) current (signer (agent 1))
        lateRenewal ["demo.echo"] ∧
      buildRenewalRequest primitives (signer (agent 1)) current.token
        (encodeBase64Url renewalNonce.bytes) = .ok request ∧
      (processRenewalRequest primitives (InMemoryNonceStore.nonceStore roomyStore) .new request
        (signer (agent 0)) lateRenewal drawnUuid).2 = .ok renewed ∧
      renewalResponseEnvelope (signer (agent 0)) renewed request.popNonce drawnUuid.id
        lateRenewal.now = .ok envelope ∧
      ∀ rctx received, verifyRenewalResponse primitives envelope rctx = .ok received →
        received.tct.claims ≠ renewed.claims := by
  have hi := signer_total (agent 0)
  have hh := signer_total (agent 1)
  refine ⟨?_, ?_, ?_⟩
  · obtain ⟨current, h⟩ := exists_renewable (t := 0) (by decide) (by decide)
    obtain ⟨sig, hsig, hreq⟩ := h.buildRenewalRequest readsText hi.lawful hh renewalNonce
    have hc := h.checkRenewalRequest readsText hi.lawful hh.lawful hsig
    refine ⟨current, _, h, hreq, rfl, ?_⟩
    unfold processRenewalRequest
    rw [show checkRenewalRequest primitives _ (signer (agent 0)).aid (renewalContext 0) = _ from hc]
    rfl
  · obtain ⟨current, h⟩ := exists_renewable (t := -100) (by decide) (by decide)
    obtain ⟨sig, hsig, hreq⟩ := h.buildRenewalRequest readsText hi.lawful hh renewalNonce
    have hc := h.checkRenewalRequest readsText hi.lawful hh.lawful hsig
    obtain ⟨renewed, hm⟩ := h.mintRenewal hi hh.lawful renewalNonce drawnUuid
    refine ⟨current, _, renewed, h, hreq,
      processRenewalRequest_eq_ok.mpr ⟨_, hc, issue_roomyStore _, hm⟩, ?_⟩
    intro messageId envelope he
    obtain ⟨-, -, h0, -⟩ := signEnvelopeWith_eq_ok.mp (mapErr_eq_ok.mp he)
    exact absurd h0 (by decide)
  · obtain ⟨current, h⟩ : ∃ current, Renewable primitives (heldBuilder (2 ^ 53 - 100))
        (2 ^ 53 - 100) current (signer (agent 1)) lateRenewal ["demo.echo"] :=
      exists_renewable_until (by decide) (by decide) (by decide) (by decide) (by decide) (by decide)
    obtain ⟨sig, hsig, hreq⟩ := h.buildRenewalRequest readsText hi.lawful hh renewalNonce
    have hc := h.checkRenewalRequest readsText hi.lawful hh.lawful hsig
    obtain ⟨renewed, hm⟩ := h.mintRenewal hi hh.lawful renewalNonce drawnUuid
    have hest := checkRenewalRequest_ok h.now hc
    have hr := mintRenewal_ok hest h.manifestExpiresAt hm
    let response : RenewalResponsePayload :=
      ⟨renewed.token, renewed.voucher, encodeBase64Url renewalNonce.bytes⟩
    obtain ⟨envelope, henv⟩ := hi.signEnvelopeWith .tct drawnUuid.layout
      (show response.toValue.isObject = true from rfl) (show (0 : ℤ) ≤ 2 ^ 53 - 50 by decide)
    have hresponse : renewalResponseEnvelope (signer (agent 0)) renewed
        (encodeBase64Url renewalNonce.bytes) drawnUuid.id lateRenewal.now = .ok envelope := by
      rw [renewalResponseEnvelope, signRenewalPayload, mapErr_eq_ok]
      exact henv
    refine ⟨current, _, renewed, envelope, h, hreq,
      processRenewalRequest_eq_ok.mpr ⟨_, hc, issue_roomyStore _, hm⟩, hresponse, ?_⟩
    intro rctx received hv
    obtain ⟨-, -, -, _, -, rfl⟩ := signEnvelopeWith_eq_ok.mp henv
    simp only [verifyRenewalResponse, bind_eq_ok, mapErr_eq_ok, okOr_eq_ok, ensure_eq_ok,
      pure_eq_ok, exists_const] at hv
    obtain ⟨checked, -, _, -, _, -, payload, hp, -, verified, hv, rfl⟩ := hv
    obtain rfl : response = payload := Option.some.inj
      (RenewalResponsePayload.decode_toValue.symm.trans hp)
    exact claims_ne_of_late (writable_mintRenewal hest h.now hm) hr.signed (hr.exp.trans (by decide)) hv

end Aitp
