import Aitp.Crypto.Reveal
import Aitp.Handshake.PopMessages

/-! # The envelopes that a handshake signs

The key that signs a handshake's envelopes also signs identity proofs, proofs of
possession and tokens. None of these is over the bytes of an envelope as long as nonces are
of their length, so a call can do without its key's signature of any envelope but its own.
-/

namespace Aitp

/-- What the signature of an envelope is over. -/
def AitpEnvelope.target (e : AitpEnvelope) : Target :=
  .digest (envelopeSigningInput e)

/-- A configuration whose backend refuses one target. -/
def PeerConfig.without (cfg : PeerConfig) (t : Target) : PeerConfig :=
  { cfg with signingKey := cfg.signingKey.without t }

variable {P : Primitives} {J : Jose} {signer : Signer} {cfg : PeerConfig} {e : AitpEnvelope}

/-! ## What is not over the bytes of an envelope -/

theorem head?_envelopeSigningInput (e : AitpEnvelope) :
    (envelopeSigningInput e).head? = some 0x61 := by
  have ht : envelopeSigningDomainTag = 0x61 :: asBytes "itp-envelope-v2" := by decide
  rw [envelopeSigningInput, signingInputOf, ht, List.cons_append, List.head?_cons]

theorem rawTarget_ne_target {aid : Aid} {typ input : String} {claims : Json}
    (h : compactSigningInput aid typ claims = .ok input) :
    rawTarget aid.algorithm (asBytes input) ≠ e.target := by
  intro ht
  unfold rawTarget AitpEnvelope.target at ht
  split at ht
  · cases ht
  · have hhead := head?_compactSigningInput h
    rw [Target.digest.inj ht, head?_envelopeSigningInput] at hhead
    exact absurd hhead (by decide)

theorem signCompact_without (typ : String) (claims : Json) :
    signCompact (signer.without e.target) typ claims = signCompact signer typ claims := by
  unfold signCompact
  cases hi : compactSigningInput signer.aid typ claims with
  | error err => simp only [Signer.without_aid, hi, error_bind]
  | ok input =>
    simp only [Signer.without_aid, hi, ok_bind, Signer.signRaw_without (rawTarget_ne_target hi)]

theorem build_without {b : TctBuilder} (ha : b.attestation = false) (clock : Timestamp) :
    TctBuilder.build P { b with issuerKey := b.issuerKey.without e.target } clock =
      b.build P clock := by
  have hd : TctBuilder.draft P { b with issuerKey := b.issuerKey.without e.target } clock =
      b.draft P clock := by
    obtain ⟨issuerKey, subject, audience, grants, ttl, subjectPubkey, mintVoucher, nowOverride, jti,
      ext, attestation⟩ := b
    subst ha
    simp only [TctBuilder.draft, TctBuilder.settle, Bool.false_eq_true, if_false]
    cases ensure (!grants.contains attestationGrant) TctError.attestationMarker with
    | error err => rfl
    | ok u => rfl
  have hv : ∀ v, signVoucher (b.issuerKey.without e.target) v = signVoucher b.issuerKey v := by
    intro v
    cases v with
    | none => rfl
    | some v => simp only [signVoucher, signCompact_without]
  simp only [TctBuilder.build, hd, signCompact_without, hv]

theorem issueTctForPeer_without (identity : IdentityDescriptor) (aid : Aid) (key : VerifyingKey)
    (requested : List String) (drawn : RandomV4) :
    issueTctForPeer P (cfg.without e.target) identity aid key requested drawn =
      issueTctForPeer P cfg identity aid key requested drawn := by
  have hg : grantsForPeer (cfg.without e.target) identity aid requested =
      grantsForPeer cfg identity aid requested := rfl
  have ht : issueTtl (cfg.without e.target) = issueTtl cfg := rfl
  simp only [issueTctForPeer, hg, ht]
  refine bind_congr fun grants => bind_congr fun _ => bind_congr fun _ => ?_
  exact congrArg (mapErr HandshakeError.tct) <| build_without
    (b := { TctBuilder.new cfg.signingKey drawn with
      subject := some aid
      audience := some aid
      grants := grants
      ttl := (issueTtl cfg).toNat
      subjectPubkey := some key
      nowOverride := some cfg.now }) rfl cfg.now

/-! ## Proofs -/

theorem proofInput_ne {senderAid receiverAid : Aid} {messageId : Uuid} {timestamp : Timestamp}
    {popNonce : String} {input : Bytes}
    (h : pinnedKeyProofInput senderAid receiverAid messageId timestamp popNonce = .ok input) :
    Target.digest input ≠ e.target := by
  simp only [pinnedKeyProofInput, handshakeProofInput, bind_eq_ok, pure_eq_ok] at h
  obtain ⟨nonce, -, _, -, rfl⟩ := h
  intro ht
  have hb := congrArg (List.take 6) (Target.digest.inj ht)
  have hp : pinnedKeyProofDomain = asBytes "aitp-p" ++ asBytes "inned-key-v1\x00" := by decide
  have he : envelopeSigningDomainTag = asBytes "aitp-e" ++ asBytes "nvelope-v2" := by decide
  rw [envelopeSigningInput, signingInputOf, hp, he] at hb
  simp only [List.append_assoc] at hb
  have hl : ∀ s : String, (asBytes s).length = 6 → ∀ bs, (asBytes s ++ bs).take 6 = asBytes s := by
    intro s hs bs
    rw [← hs, List.take_left]
  rw [hl _ (by decide), hl _ (by decide)] at hb
  exact absurd hb (by decide)

theorem buildDescriptor_without (identity : PresentedIdentity) (ctx : IdentityPresentationContext) :
    identity.buildDescriptor P ctx (signer.without e.target) =
      identity.buildDescriptor P ctx signer := by
  cases identity with
  | pinnedKey subject =>
    have hs : signPinnedKeyProof (signer.without e.target) ctx.senderAid ctx.receiverAid
        ctx.envelopeMessageId ctx.envelopeTimestamp ctx.popNonce =
        signPinnedKeyProof signer ctx.senderAid ctx.receiverAid ctx.envelopeMessageId
          ctx.envelopeTimestamp ctx.popNonce := by
      unfold signPinnedKeyProof
      cases hi : pinnedKeyProofInput ctx.senderAid ctx.receiverAid ctx.envelopeMessageId
        ctx.envelopeTimestamp ctx.popNonce with
      | error err => rfl
      | ok input => simp only [ok_bind, Signer.signJcs_without (proofInput_ne hi)]
    simp only [PresentedIdentity.buildDescriptor, hs, Signer.without_aid]
  | oidc issuer subject proofJwt => rfl
  | oidcMinter issuer subject mintJwt => rfl

theorem signPop_without {nonce : String} (hn : nonce.length = 22) :
    signPop (signer.without e.target) nonce = signPop signer nonce := by
  unfold signPop signNonce
  cases hd : decodeStrict nonce with
  | none => rfl
  | some bytes =>
    have hl := (length_of_decodeStrict hd).mpr hn
    have hne : Target.digest bytes ≠ e.target := by
      intro ht
      exact (popMessage_iff.mpr hl).envelope e (Target.digest.inj ht)
    simp only [okOr_some, ok_bind, Signer.signJcs_without hne]

theorem commitTo_without {identity : IdentityDescriptor} {aid : Aid} {key : VerifyingKey}
    {requested : List String} {popNonce : String} (hn : popNonce.length = 22) (drawn : RandomV4) :
    commitTo P (cfg.without e.target) identity aid key requested popNonce drawn =
      commitTo P cfg identity aid key requested popNonce drawn := by
  have hp : signPop (cfg.without e.target).signingKey popNonce = signPop cfg.signingKey popNonce :=
    signPop_without hn
  simp only [commitTo, issueTctForPeer_without, hp]

/-! ## Envelopes -/

theorem signEnvelopeWith_without {messageType : MessageType} {payload : Json} {messageId : Uuid}
    {timestamp : Timestamp}
    (h : (AitpEnvelope.unsigned signer.aid messageType payload messageId timestamp).target ≠
      e.target) :
    signEnvelopeWith (signer.without e.target) messageType payload messageId timestamp =
      signEnvelopeWith signer messageType payload messageId timestamp := by
  unfold signEnvelopeWith signPreparedEnvelope
  rw [Signer.without_aid]
  cases hd : envelopeDigest signer.aid
    (AitpEnvelope.unsigned signer.aid messageType payload messageId timestamp) with
  | error err => rfl
  | ok preimage =>
    simp only [envelopeDigest, bind_eq_ok, pure_eq_ok] at hd
    obtain ⟨_, -, _, -, _, -, _, -, rfl⟩ := hd
    simp only [ok_bind, Signer.signJcs_without h]

end Aitp
