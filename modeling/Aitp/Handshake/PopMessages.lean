import Aitp.Core.EnvelopeSign
import Aitp.Handshake.Completion
import Aitp.SessionBundle.Types

/-! # What a proof of possession signs

The key that signs an agent's artifacts also signs the bytes that a peer's nonce
encodes. They are those of no artifact as long as the nonce is of its length, which
only the verifier of pinned keys checks.
-/

namespace Aitp

variable {P : Primitives} {J : Jose}

/-! ## The bytes that artifacts are signed over -/

/-- The bytes of a nonce, over which no artifact is signed. -/
structure PopMessage (m : Bytes) : Prop where
  length : m.length = nonceLen
  envelope (e : AitpEnvelope) : m ≠ envelopeSigningInput e
  manifest (x : Manifest) : m ≠ manifestSigningBytes x
  revocationList (l : RevocationList) : revocationSigningBytes l ≠ .ok m
  bundle (b : SessionTrustBundle) : m ≠ bundleSigningBytes b

theorem nonceLen_lt_envelopeSigningInput (e : AitpEnvelope) :
    nonceLen < (envelopeSigningInput e).length := by
  have ht : envelopeSigningDomainTag.length = nonceLen := by decide
  rw [envelopeSigningInput, signingInputOf, List.length_append, List.length_cons, ht]
  omega

theorem nonceLen_lt_jcs {v w : Json} {k : String} (h : v.get k = some w)
    (hk : 12 ≤ k.toList.length) : nonceLen < v.jcs.length := by
  have hl := Json.length_le_jcs h
  have hn : nonceLen = 16 := rfl
  omega

theorem nonceLen_lt_manifestSigningBytes (m : Manifest) :
    nonceLen < (manifestSigningBytes m).length := by
  have hg : m.toValue.get "handshake_endpoint" = some (.str m.handshakeEndpoint) :=
    Serde.get_obj_written (by decide) rfl (f := ⟨"handshake_endpoint", .required⟩) (i := 4) rfl
  have hr : (m.toValue.remove "signature").get "handshake_endpoint" =
      some (.str m.handshakeEndpoint) :=
    (Json.lookup_filter_ne _ "signature" "handshake_endpoint").trans
      ((if_neg (by decide)).trans hg)
  exact nonceLen_lt_jcs hr (by decide)

theorem nonceLen_lt_revocationSigningBytes {l : RevocationList} {m : Bytes}
    (h : revocationSigningBytes l = .ok m) : nonceLen < m.length := by
  simp only [revocationSigningBytes, bind_eq_ok, pure_eq_ok] at h
  obtain ⟨-, -, rfl⟩ := h
  have hg : l.toValue.get "published_at" = some (.int l.publishedAt) :=
    Serde.get_obj_written (by decide) rfl (f := ⟨"published_at", .required⟩) (i := 2) rfl
  exact nonceLen_lt_jcs hg (by decide)

theorem nonceLen_lt_bundleSigningBytes (b : SessionTrustBundle) :
    nonceLen < (bundleSigningBytes b).length := by
  have hg : (Json.obj (Serde.written bundleSigningBodyFields b.body)).get "participants" =
      (b.body[5]?).getD none :=
    Serde.get_obj_written (by decide) rfl (f := ⟨"participants", .required⟩) (i := 5) rfl
  exact nonceLen_lt_jcs hg (by decide)

theorem popMessage_iff {m : Bytes} : PopMessage m ↔ m.length = nonceLen := by
  constructor
  · intro h
    exact h.length
  · intro h
    have hlt : ∀ b : Bytes, nonceLen < b.length → m ≠ b := by
      rintro b hb rfl
      omega
    refine ⟨h, ?_, ?_, ?_, ?_⟩
    · intro e
      exact hlt _ (nonceLen_lt_envelopeSigningInput e)
    · intro x
      exact hlt _ (nonceLen_lt_manifestSigningBytes x)
    · intro l hl
      exact hlt m (nonceLen_lt_revocationSigningBytes hl) rfl
    · intro b
      exact hlt _ (nonceLen_lt_bundleSigningBytes b)

theorem length_of_decodeStrict {s : String} {bs : Bytes} (h : decodeStrict s = some bs) :
    bs.length = nonceLen ↔ s.length = 22 := by
  have hl := Base64Url.length_of_decodeChars (decodeChars_of_decodeStrict h)
  have hn : nonceLen = 16 := rfl
  rw [← String.length_toList, hl, hn]
  omega

/-! ## The proofs that an agent signs -/

/-- An agent signs a proof of possession over a nonce that it was sent: for a token that it holds,
in a COMMIT, or in a COMMIT_ACK after any calls. -/
inductive PopSigned (P : Primitives) (J : Jose) : Signer → String → String → Prop
  | popResponse {challenge : PopChallenge} {holderKey : Signer} {response : PopResponse}
      (h : signPopResponse challenge holderKey = .ok response) :
      PopSigned P J holderKey challenge.nonce response.popSignature
  | commit {s s' : Initiator} {envelope : AitpEnvelope} {ack : MutualHelloAckPayload}
      {cfg : PeerConfig} {drawn : RandomV4} {m : MutualCommitPayload}
      (h : s.onHelloAck P J envelope ack cfg drawn = (s', .ok m)) :
      PopSigned P J cfg.signingKey ack.popNonce m.popSignature
  | commitAck {s s' : Responder} {helloEnvelope commitEnvelope : AitpEnvelope}
      {hello : MutualHelloPayload} {identity : PresentedIdentity} {messageId : Uuid}
      {timestamp : Timestamp} {cfg cfg' : PeerConfig} {grants : List String} {n : Option Nonce}
      {helloAck : MutualHelloAckPayload} {commit : MutualCommitPayload} {drawn : RandomV4}
      {m : MutualCommitAckPayload} {completed : CompletedHandshake}
      (hello_ok : Responder.onHello P J helloEnvelope hello identity messageId timestamp cfg grants
        n = .ok (s, helloAck))
      (calls : List ResponderCall)
      (h : (s.run P calls).onCommit P commitEnvelope commit cfg' drawn = (s', .ok (m, completed))) :
      PopSigned P J cfg'.signingKey hello.popNonce m.popSignature

theorem signNonce_of_commitTo {cfg : PeerConfig} {identity : IdentityDescriptor} {aid : Aid}
    {key : VerifyingKey} {requested : List String} {popNonce : String} {drawn : RandomV4}
    {m : MutualCommitPayload}
    (h : commitTo P cfg identity aid key requested popNonce drawn = .ok m) :
    ∃ bytes, decodeStrict popNonce = some bytes ∧
      cfg.signingKey.signJcs bytes = .ok m.popSignature := by
  simp only [commitTo, bind_eq_ok, pure_eq_ok] at h
  obtain ⟨issued, -, sig, hs, rfl⟩ := h
  exact signNonce_ok hs

theorem PopSigned.signs {key : Signer} {nonce sig : String} (h : PopSigned P J key nonce sig) :
    ∃ m, decodeStrict nonce = some m ∧ key.signJcs m = .ok sig := by
  cases h with
  | popResponse h =>
    simp only [signPopResponse, bind_eq_ok, pure_eq_ok] at h
    obtain ⟨sig, hs, rfl⟩ := h
    exact signNonce_ok hs
  | commit h =>
    obtain ⟨_, _, _, -, -, hm, -⟩ := Initiator.onHelloAck_eq_ok.mp h
    exact signNonce_of_commitTo hm
  | commitAck hello_ok calls h =>
    obtain ⟨w, hw, -, -, hm, -⟩ := Responder.onCommit_eq_ok.mp h
    simp only [Responder.onHello, bind_eq_ok, pure_eq_ok, Prod.mk.injEq] at hello_ok
    obtain ⟨_, -, _, -, _, -, _, -, rfl, -⟩ := hello_ok
    rcases Responder.run_cases (P := P) _ calls with hr | hr | hr
    · obtain rfl := Responder.awaitingCommit.inj (hr.symm.trans hw)
      exact signNonce_of_commitTo hm
    · rw [hr] at hw
      cases hw
    · rw [hr] at hw
      cases hw

theorem length_of_pinnedKey {envelope : AitpEnvelope} {manifest : Manifest}
    {identity : IdentityDescriptor} {popNonce : String} {cfg : PeerConfig} {key : VerifyingKey}
    (h : bootstrapVerifyPeer P J envelope manifest identity popNonce cfg = .ok key)
    (hk : identity.kind = .pinnedKey) : popNonce.length = 22 := by
  simp only [bootstrapVerifyPeer, bind_eq_ok] at h
  obtain ⟨_, -, _, -, _, -, _, -, _, -, hp⟩ := h
  simp only [verifyIdentityProof, hk, bind_eq_ok] at hp
  obtain ⟨verified, hv, -⟩ := hp
  obtain ⟨-, input, hi, -⟩ := verifyPinnedKey_ok hv
  simp only [pinnedKeyProofInput, handshakeProofInput, bind_eq_ok, okOr_eq_ok, ensure_eq_ok,
    beq_iff_eq] at hi
  obtain ⟨bytes, hb, _, hl, -⟩ := hi
  exact (length_of_decodeStrict hb).mp hl

/-- The message signed is a nonce's, and no artifact's, exactly when the nonce is written in
22 characters. -/
theorem popMessage_of_popSigned {key : Signer} {nonce sig : String}
    (h : PopSigned P J key nonce sig) :
    ∃ m, decodeStrict nonce = some m ∧ key.signJcs m = .ok sig ∧
      (PopMessage m ↔ nonce.length = 22) := by
  obtain ⟨m, hm, hs⟩ := h.signs
  exact ⟨m, hm, hs, popMessage_iff.trans (length_of_decodeStrict hm)⟩

open Toy in
/-- A nonce of 16 bytes. -/
theorem popMessage_of_popSigned_drawn : ∃ m response,
    signPopResponse ⟨uuid 0, encodeBase64Url (nonce 1).bytes, 10⟩ (signer (agent 0)) =
      .ok response ∧
    decodeStrict (encodeBase64Url (nonce 1).bytes) = some m ∧ PopMessage m := by
  have hk : (signer (agent 0)).Total primitives (agentKey 0) := ⟨signer_lawful _, fun _ => rfl⟩
  obtain ⟨sig, hs⟩ := hk.signNonce TctError.popFailed .crypto (nonce 1).bytes
  have h : signPopResponse ⟨uuid 0, encodeBase64Url (nonce 1).bytes, 10⟩ (signer (agent 0)) =
      .ok ⟨uuid 0, encodeBase64Url (nonce 1).bytes, sig⟩ := by
    simp only [signPopResponse, bind_eq_ok, pure_eq_ok]
    exact ⟨sig, hs, rfl⟩
  obtain ⟨m, hm, -, hiff⟩ := popMessage_of_popSigned (P := primitives) (J := jose) (.popResponse h)
  have hl : (encodeBase64Url (nonce 1).bytes).length = 22 :=
    (length_of_decodeStrict hm).mp (by
      rw [← Option.some.inj ((decodeStrict_encodeBase64Url _).symm.trans hm)]
      rfl)
  exact ⟨m, _, h, hm, hiff.mpr hl⟩

open Toy in
/-- The response to a challenge is the signature of an envelope that the challenger chose. -/
theorem popResponse_signs_envelope : ∃ (e : AitpEnvelope) (response : PopResponse),
    signPopResponse ⟨uuid 0, encodeBase64Url (envelopeSigningInput e), 10⟩ (signer (agent 0)) =
      .ok response ∧
    decodeStrict (encodeBase64Url (envelopeSigningInput e)) = some (envelopeSigningInput e) ∧
    ¬ PopMessage (envelopeSigningInput e) ∧ e.sender = agent 0 ∧
    verifyEnvelopeSignature primitives { e with signature := response.popSignature }
      (agentKey 0) = .ok () := by
  have hk : (signer (agent 0)).Total primitives (agentKey 0) := ⟨signer_lawful _, fun _ => rfl⟩
  let e := AitpEnvelope.unsigned (agent 0) .error (.obj []) (uuid 3) 10
  obtain ⟨sig, hs⟩ := hk.signNonce TctError.popFailed .crypto (envelopeSigningInput e)
  obtain ⟨m, hm, hj⟩ := signNonce_ok hs
  obtain rfl := Option.some.inj ((decodeStrict_encodeBase64Url _).symm.trans hm)
  have he : signEnvelopeWith (signer (agent 0)) .error (.obj []) (uuid 3) 10 =
      .ok { e with signature := sig } :=
    signEnvelopeWith_eq_ok.mpr ⟨checkV4_uuid 3, rfl, by decide, sig, hj, rfl⟩
  refine ⟨e, ⟨uuid 0, encodeBase64Url (envelopeSigningInput e), sig⟩, ?_, hm, ?_, rfl, ?_⟩
  · simp only [signPopResponse, bind_eq_ok, pure_eq_ok]
    exact ⟨sig, hs, rfl⟩
  · intro h
    exact h.envelope e rfl
  · exact (verifyEnvelopeSignature_signEnvelopeWith hk.lawful he).2

end Aitp
