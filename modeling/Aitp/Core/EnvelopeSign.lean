import Aitp.Core.Envelope
import Aitp.Core.Wire
import Aitp.Crypto.RoundTrip

/-! # Signing envelopes

`envelope/mod.rs`. What is signed is read back from its serialisation as it was,
and verifies under the key of its sender.
-/

namespace Aitp

inductive EnvelopeError where
  | unsupportedVersion (version : String)
  | messageId (error : V4Error)
  | structure (error : EnvelopeStructureError)
  | senderMismatch (sender signer : Aid)
  | signer
  deriving DecidableEq

/-- `envelope_digest`: what the signature of an envelope about to be signed covers. -/
def envelopeDigest (signer : Aid) (envelope : AitpEnvelope) : Except EnvelopeError Bytes := do
  ensure (envelope.version == protocolVersion) (.unsupportedVersion envelope.version)
  mapErr .messageId envelope.messageId.checkV4
  mapErr .structure (checkUnsignedEnvelopeStructure envelope)
  ensure (decide (envelope.sender = signer)) (.senderMismatch envelope.sender signer)
  return envelopeSigningInput envelope

def signPreparedEnvelope (signingKey : Signer) (envelope : AitpEnvelope) :
    Except EnvelopeError AitpEnvelope := do
  let preimage ← envelopeDigest signingKey.aid envelope
  let signature ← mapErr (fun _ => .signer) (signingKey.signJcs preimage)
  return { envelope with signature := signature }

def signEnvelopeWith (signingKey : Signer) (messageType : MessageType) (payload : Json)
    (messageId : Uuid) (timestamp : Timestamp) : Except EnvelopeError AitpEnvelope :=
  signPreparedEnvelope signingKey (.unsigned signingKey.aid messageType payload messageId timestamp)

def verifyEnvelopeSignature (P : Primitives) (envelope : AitpEnvelope)
    (senderPubkey : VerifyingKey) : Except CryptoError Unit := do
  let sig ← Signature.parse envelope.signature
  senderPubkey.verifyJcs P (envelopeSigningInput envelope) sig

variable {P : Primitives} {signer : Signer} {key : VerifyingKey} {messageType : MessageType}
  {payload : Json} {messageId : Uuid} {timestamp : Timestamp} {e : AitpEnvelope}

theorem envelopeSigningInput_signature (e : AitpEnvelope) (s : String) :
    envelopeSigningInput { e with signature := s } = envelopeSigningInput e := by
  simp only [envelopeSigningInput, signingInputOf, AitpEnvelope.toValue, Serde.remove_written]
  rfl

/-- An envelope of the right form is signed unless the backend fails. -/
theorem signEnvelopeWith_eq_ok :
    signEnvelopeWith signer messageType payload messageId timestamp = .ok e ↔
      messageId.checkV4 = .ok () ∧ payload.isObject = true ∧ 0 ≤ timestamp ∧ ∃ sig,
        signer.signJcs (envelopeSigningInput
          (.unsigned signer.aid messageType payload messageId timestamp)) = .ok sig ∧
        e = { AitpEnvelope.unsigned signer.aid messageType payload messageId timestamp with
          signature := sig } := by
  simp only [signEnvelopeWith, signPreparedEnvelope, envelopeDigest, bind_eq_ok, ensure_eq_ok,
    mapErr_eq_ok, pure_eq_ok, exists_const, checkUnsignedEnvelopeStructure, decide_eq_true_eq]
  constructor
  · rintro ⟨_, ⟨-, _, hm, ⟨hp, ht⟩, -, rfl⟩, sig, hsig, rfl⟩
    exact ⟨hm, hp, ht, sig, hsig, rfl⟩
  · rintro ⟨hm, hp, ht, sig, hsig, rfl⟩
    exact ⟨_, ⟨by simp [AitpEnvelope.unsigned], (), hm, ⟨hp, ht⟩, rfl, rfl⟩, sig, hsig, rfl⟩

theorem Signer.Total.signEnvelopeWith (hs : signer.Total P key) (messageType : MessageType)
    (hm : messageId.checkV4 = .ok ()) (hp : payload.isObject = true) (ht : 0 ≤ timestamp) :
    ∃ e, Aitp.signEnvelopeWith signer messageType payload messageId timestamp = .ok e := by
  obtain ⟨sig, hsig⟩ := hs.signJcs (envelopeSigningInput
    (.unsigned signer.aid messageType payload messageId timestamp))
  exact ⟨_, signEnvelopeWith_eq_ok.mpr ⟨hm, hp, ht, sig, hsig, rfl⟩⟩

theorem verifyEnvelopeSignature_signEnvelopeWith (hk : signer.Lawful P key)
    (h : signEnvelopeWith signer messageType payload messageId timestamp = .ok e) :
    Signature.parse e.signature = .ok e.signature ∧
      verifyEnvelopeSignature P e key = .ok () := by
  obtain ⟨-, -, -, sig, hsig, rfl⟩ := signEnvelopeWith_eq_ok.mp h
  obtain ⟨hparse, hv⟩ := signJcs_verifies hk hsig
  refine ⟨hparse, ?_⟩
  simp only [verifyEnvelopeSignature, bind_eq_ok]
  refine ⟨sig, hparse, ?_⟩
  rw [envelopeSigningInput_signature]
  exact hv

/-! ## Envelopes on the wire -/

theorem untagged_eq_payload (s : String) : untagged s = Signature.payload s := by
  unfold untagged Signature.payload
  cases stripPrefix "ed25519." s <;> rfl

theorem MessageType.decode_asWireStr (t : MessageType) : decode (.str t.asWireStr) = some t := by
  cases t <;> rfl

theorem decodeSender_value (a : Aid) :
    decodeSender (.obj [("agent_id", .str a.value)]) = some a := by
  have h : Serde.structFields senderFields (.obj (Serde.written senderFields [some (.str a.value)]))
      = some [some (.str a.value)] :=
    Serde.structFields_obj_written (by decide) rfl (by simp [senderFields])
  have hw : Serde.written senderFields [some (.str a.value)] = [("agent_id", .str a.value)] := rfl
  rw [hw] at h
  simp [decodeSender, h]

theorem decodeEnvelope_toValue (hm : e.messageId.checkV4 = .ok ()) (ht : e.timestamp.Fits)
    (hx : ∀ ms, e.extensions = some ms → (Json.obj ms).distinctKeys = true) :
    decodeEnvelope e.toValue = some e := by
  have hf := @Serde.structFields_obj_written envelopeFields
    [some (.str e.version), some (.str e.messageType.asWireStr),
      some (.str e.messageId.hyphenated), some (.int e.timestamp),
      some (.obj [("agent_id", .str e.sender.value)]), some e.payload,
      e.extensions.map .obj, some (.str e.signature)] (by decide) rfl (by simp [envelopeFields])
  have hext : Serde.optional Serde.map (e.extensions.map .obj) = some e.extensions := by
    cases he : e.extensions with
    | none => rfl
    | some ms => simp [Serde.optional, Serde.map_of_distinct (hx ms he)]
  unfold decodeEnvelope AitpEnvelope.toValue
  rw [hf]
  simp [MessageType.decode_asWireStr, Uuid.parseV4_hyphenated hm, i64_of_fits ht,
    decodeSender_value, hext, Except.toOption]

theorem parseEnvelopeWire_toValue (hv : e.version = protocolVersion)
    (hm : e.messageId.checkV4 = .ok ()) (ht : e.timestamp.Fits)
    (hs : checkEnvelopeStructure e = .ok ()) (hd : e.toValue.distinctKeys = true) :
    parseEnvelopeWire ⟨e.toValue, hd⟩ = .ok e := by
  have hver : e.toValue.get "version" = some (.str e.version) :=
    Serde.get_obj_written (by decide) rfl (f := ⟨"version", .required⟩) (i := 0) rfl
  have hext : e.toValue.get "extensions" = e.extensions.map .obj :=
    Serde.get_obj_written (by decide) rfl (f := ⟨"extensions", .default⟩) (i := 6) rfl
  have hmem : checkMembers e.toValue aitpEnvelopeMembers = none :=
    checkMembers_obj_written (by decide)
  have hdec := decodeEnvelope_toValue hm ht fun ms hx =>
    Json.distinctKeys_of_get hd (hext.trans (by rw [hx]; rfl))
  simp only [parseEnvelopeWire, bind_eq_ok, ensure_eq_ok, okOr_eq_ok, mapErr_eq_ok, pure_eq_ok,
    exists_const]
  refine ⟨rfl, (), ?_, (), ?_, ?_, e, hdec, (), hs, rfl⟩
  · simp [hver, checkVersion, hv]
  · simp [ensureMembers, hmem]
  · cases hx : e.extensions <;> simp [hext, hx, Json.isObject]

theorem readable_signEnvelopeWith (hP : P.ReadsText) {n : ℕ} (ht : timestamp.Fits)
    (hr : payload.readable P.keeps (n + 1) = true)
    (h : signEnvelopeWith signer messageType payload messageId timestamp = .ok e) :
    e.toValue.readable P.keeps (n + 2) = true := by
  obtain ⟨-, -, -, sig, -, rfl⟩ := signEnvelopeWith_eq_ok.mp h
  have ho : (Json.obj [("agent_id", .str signer.aid.value)]).readable P.keeps (n + 1) = true :=
    Json.readable_obj (by simp)
  refine Serde.readable_written ?_
  simp [AitpEnvelope.unsigned, hr, ht.readable_int hP, ho]

/-- A signed envelope is parsed from its serialisation. -/
theorem parseEnvelopeWire_signEnvelopeWith (hP : P.ReadsText) (hk : signer.Lawful P key)
    (ht : timestamp.Fits) (hd : payload.distinctKeys = true)
    (hr : payload.readable P.keeps (nestingLimit - 1) = true)
    (h : signEnvelopeWith signer messageType payload messageId timestamp = .ok e) :
    e.toValue.readable P.keeps nestingLimit = true ∧
      ∃ hd, parseEnvelopeWire ⟨e.toValue, hd⟩ = .ok e := by
  have hparse := (verifyEnvelopeSignature_signEnvelopeWith hk h).1
  have hreadable := readable_signEnvelopeWith (n := 125) hP ht hr h
  obtain ⟨hm, hp, h0, sig, -, rfl⟩ := signEnvelopeWith_eq_ok.mp h
  have hs : validateB64UrlSignature (Signature.payload sig) = true := by
    simp only [Signature.parse, bind_eq_ok, ensure_eq_ok] at hparse
    obtain ⟨_, -, _, hv, -⟩ := hparse
    exact hv
  refine ⟨hreadable, Serde.distinctKeys_written (by decide) ?_, ?_⟩
  · simp [AitpEnvelope.unsigned, Json.distinctKeys, Json.distinctMembers, hd]
  · refine parseEnvelopeWire_toValue rfl hm ht ?_ _
    simp only [checkEnvelopeStructure, checkUnsignedEnvelopeStructure, bind_eq_ok, ensure_eq_ok,
      exists_const, untagged_eq_payload]
    exact ⟨⟨hp, decide_eq_true h0⟩, hs⟩

end Aitp
