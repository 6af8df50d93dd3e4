import Aitp.Renewal.Types

/-! # Holding a renewed token

`renewal/holder.rs`: the holder builds a renewal request on the token it holds, and
checks the answer against that token.
-/

namespace Aitp

structure RenewalResponseContext where
  selfAid : Aid
  currentTct : String
  sentPopNonce : String
  now : Timestamp
  issuerManifestExpiresAt : Option Timestamp

structure RenewedTct where
  tct : VerifiedTct
  grantVoucher : Option String

/-- What the renewed token is verified against. -/
def RenewalResponseContext.verifyContext (ctx : RenewalResponseContext) (issuer : Aid) :
    TctVerifyContext where
  expectedAudience := ctx.selfAid
  issuer := issuer
  now := ctx.now
  issuerManifestExpiresAt := ctx.issuerManifestExpiresAt
  revocation := .failOpen
  clockSkew := 0

/-- What the payload of an `error` envelope answers. -/
def refusedWith (payload : Json) : RenewalResponseError :=
  match decodeRenewalErrorPayload payload with
  | some refusal => .refused refusal.code refusal.reason refusal.retryable
  | none => .invalidEnvelope

section

variable (P : Primitives)

def buildRenewalRequest (holderKey : Signer) (currentTct popNonce : String) :
    Except RenewalError TctRenewalPayload := do
  let nonceBytes ← okOr (decodeStrict popNonce) .nonceMalformed
  let current ← mapErr .tct (Renewal.peekClaims P currentTct)
  let input := renewalPopInput current.iss.value current.jti.hyphenated nonceBytes
  let popSignature ← mapErr (fun e => .tct (.crypto e)) (holderKey.signJcs input)
  return ⟨currentTct, popNonce, popSignature⟩

/-- Steps 1 and 2 of `verify_renewal_response`, given the claims of the token presented. -/
def checkRenewalSender (envelope : AitpEnvelope) (current : TctClaims) (now : Timestamp) :
    Except RenewalResponseError Unit := do
  ensure (envelope.timestamp.isWithinToleranceOf now defaultTimestampTolerance) .timestampExpired
  ensure (decide (envelope.messageType = .tct ∨ envelope.messageType = .error)) .invalidEnvelope
  let senderPk ← mapErr (fun _ => .invalidSignature) (VerifyingKey.fromAid P envelope.sender)
  mapErr (fun _ => .invalidSignature) (verifyEnvelopeSignature P envelope senderPk)
  ensure (envelope.sender.value == current.iss.value) .peerMismatch
  ensure (!decide (envelope.messageType = .error)) (refusedWith envelope.payload)

/-- Steps 4 to 6: the renewed token is the holder's, under the key and within the grants of the
one presented. -/
def verifyRenewedTct (tct : String) (current : TctClaims) (ctx : RenewalResponseContext) :
    Except RenewalResponseError VerifiedTct := do
  let renewed ← mapErr .tct (verifyTct P tct (ctx.verifyContext current.iss))
  ensure (decide (renewed.claims.sub = ctx.selfAid) && renewed.claims.jkt == current.jkt)
    .audienceMismatch
  ensure (renewed.claims.grants.all fun g => current.grants.contains g) .grantOverflow
  return renewed

def verifyRenewalResponse (envelope : AitpEnvelope) (ctx : RenewalResponseContext) :
    Except RenewalResponseError RenewedTct := do
  let current ← mapErr .tct (Renewal.peekClaims P ctx.currentTct)
  checkRenewalSender P envelope current ctx.now
  ensureMembers envelope.payload renewalResponsePayloadMembers .unknownField
  let payload ← okOr (decodeRenewalResponsePayload envelope.payload) .invalidEnvelope
  ensure (payload.popNonceEcho == ctx.sentPopNonce) .nonceMismatch
  let renewed ← verifyRenewedTct P payload.tct current ctx
  return ⟨renewed, payload.grantVoucher⟩

end

variable {P : Primitives}

theorem buildRenewalRequest_eq_ok {holderKey : Signer} {currentTct popNonce : String}
    {request : TctRenewalPayload} :
    buildRenewalRequest P holderKey currentTct popNonce = .ok request ↔
      ∃ nonce current sig, decodeStrict popNonce = some nonce ∧
        Renewal.peekClaims P currentTct = .ok current ∧
        holderKey.signJcs (renewalPopInput current.iss.value current.jti.hyphenated nonce) =
          .ok sig ∧ request = ⟨currentTct, popNonce, sig⟩ := by
  simp only [buildRenewalRequest, bind_eq_ok, okOr_eq_ok, mapErr_eq_ok, pure_eq_ok]
  constructor
  · rintro ⟨nonce, hn, current, hc, sig, hs, rfl⟩
    exact ⟨nonce, current, sig, hn, hc, hs, rfl⟩
  · rintro ⟨nonce, current, sig, hn, hc, hs, rfl⟩
    exact ⟨nonce, hn, current, hc, sig, hs, rfl⟩

/-- The claims of a token its issuer signed, unverified. -/
theorem Renewal.peekClaims_signCompact {signer : Signer} {key : VerifyingKey} {c : TctClaims}
    {token : String} (hP : P.ReadsText) (hs : signer.Lawful P key) (hc : c.Writable P)
    (ht : c.iat.Exact ∧ c.exp.Exact)
    (h : signCompact signer typTct c.toValue = .ok token) :
    Renewal.peekClaims P token = .ok (c.reread P) := by
  have hm : checkMembers (P.reread c.toValue.canon) tctClaimsMembers = none := by
    rw [checkMembers_reread P (Json.isObject_canon _)]
    exact checkMembers_written (by decide)
  have hr := hc.readable_toValue hP
  have hd := hc.decode_exact hP ht
  rw [hP.document_jcs hr, Option.bind_some] at hd
  simp only [Renewal.peekClaims, bind_eq_ok, mapErr_eq_ok, okOr_eq_ok]
  refine ⟨_, decodePayloadUnverified_signCompact hs h, (),
    rejectDuplicateKeys_jcs hP hr hc.distinctKeys_toValue, _, hP.document_jcs hr, ?_⟩
  rw [peekTyp_signCompact hP hs h, if_pos rfl]
  simp only [bind_eq_ok, ensureMembers_eq_ok, okOr_eq_ok]
  exact ⟨(), hm, hd⟩

/-- The checks of an answer pass for a `tct` envelope that the issuer signed at the same clock. -/
theorem checkRenewalSender_signEnvelopeWith {signer : Signer} {key : VerifyingKey} {payload : Json}
    {messageId : Uuid} {now : Timestamp} {e : AitpEnvelope} {current : TctClaims}
    (hs : signer.Lawful P key) (hi : current.iss = signer.aid)
    (h : signEnvelopeWith signer .tct payload messageId now = .ok e) :
    checkRenewalSender P e current now = .ok () := by
  have hv := (verifyEnvelopeSignature_signEnvelopeWith hs h).2
  have ht : now.isWithinToleranceOf now defaultTimestampTolerance = true :=
    Timestamp.isWithinToleranceOf_of_le (by simp) (by simp) (by decide)
  obtain ⟨-, -, -, sig, -, rfl⟩ := signEnvelopeWith_eq_ok.mp h
  simp only [checkRenewalSender, bind_eq_ok, ensure_eq_ok, mapErr_eq_ok, exists_const]
  refine ⟨ht, rfl, key, hs.1, (), hv, ?_, rfl⟩
  simp [AitpEnvelope.unsigned, hi]

end Aitp
