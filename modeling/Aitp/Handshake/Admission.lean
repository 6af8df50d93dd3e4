import Aitp.Core.EnvelopeSign
import Aitp.Handshake.DenyList
import Aitp.Handshake.PinnedKey

/-! # Pinned-key admission

`handshake/admission/mod.rs`: a verifier issues a challenge, and admits the
presentation that answers it. The checks between two store operations are one
definition each.
-/

namespace Aitp

/-- `MAX_NONCE_TTL`, in seconds. -/
def maxNonceTtl : ℕ := 300

def identityPresentationPayloadMembers : List String := ["identity", "pop_nonce"]

structure AdmissionChallenge where
  popNonce : String
  verifierAid : Aid
  expiresAt : Timestamp

structure IdentityPresentationPayload where
  identity : IdentityDescriptor
  popNonce : String

structure Admitted where
  key : VerifiedPinnedKey
  subject : String
  messageId : Uuid
  deriving DecidableEq

inductive RefusalCause where
  | atCapacity
  deriving DecidableEq

/-- `AdmissionError`; a `retryAfter` counts seconds. -/
inductive AdmissionError where
  | invalidEnvelope (reason : String)
  | unknownField (field : String)
  | unknownVersion (found : String)
  | replay
  | rateLimited (retryAfter : ℕ)
  | timestampExpired
  | identity (reason : String)
  | invalidSignature
  | challengeRefused (retryAfter : Option ℕ) (cause : RefusalCause)
  | denyList (error : DenyListError)
  | crypto (error : CryptoError)
  | rng
  deriving DecidableEq

/-- `PinnedAdmission`, with the bounds its builder clamps to. -/
structure PinnedAdmission where
  verifierAid : Aid
  nonces : NonceStoreConfig
  pinnedKeys : PinnedKeyStore
  denyList : DenyListConfig
  ttl : ℕ
  ttl_bounds : 1 ≤ ttl ∧ ttl ≤ maxNonceTtl
  tolerance : ℕ
  tolerance_le : tolerance ≤ defaultTimestampTolerance
  subject : SubjectBinding

/-- The fields of `IdentityPresentationPayload`. -/
def identityPresentationPayloadFields : List FieldSpec :=
  [⟨"identity", .required⟩, ⟨"pop_nonce", .required⟩]

/-- `Deserialize for IdentityPresentationPayload`. -/
def decodeIdentityPresentationPayload (v : Json) : Option IdentityPresentationPayload :=
  match Serde.structFields identityPresentationPayloadFields v with
  | some [some identity, some popNonce] => do
    return {
      identity := ← decodeIdentityDescriptor identity
      popNonce := ← popNonce.asStr }
  | _ => none

/-- `Serialize for IdentityPresentationPayload`. -/
def IdentityPresentationPayload.toValue (p : IdentityPresentationPayload) : Json :=
  .obj <| Serde.written identityPresentationPayloadFields
    [some p.identity.toValue, some (.str p.popNonce)]

/-- A presentation that passed every check but those of the two stores. -/
structure Presented where
  nonce : Nonce
  key : VerifiedPinnedKey
  subject : String
  messageId : Uuid
  timestamp : Timestamp

/-- `base64url::decode_strict_exact` to a nonce. -/
def decodeNonce (s : String) : Option Nonce :=
  match h : decodeStrictExact nonceLen s with
  | some bs => some ⟨bs, by
      obtain ⟨-, hb⟩ := Option.filter_eq_some_iff.mp h
      simpa using hb⟩
  | none => none

/-- The limiter's answer: pass, or how long to wait. -/
def checkLimiter (limiter : Option ℕ) : Except AdmissionError Unit :=
  ifPresent limiter fun retryAfter => .error (.rateLimited retryAfter)

namespace PinnedAdmission

variable (P : Primitives) (adm : PinnedAdmission)

/-- The record issued for a nonce drawn by `issue_challenge`. -/
def challengeRecord (nonce : Nonce) (now : Timestamp) : IssuedNonce where
  nonce := nonce
  verifier := adm.verifierAid
  issuedAt := now
  expiresAt := now.saturatingAdd adm.ttl

/-- The challenge handed out for an issued nonce. -/
def challengeFor (rec : IssuedNonce) : AdmissionChallenge where
  popNonce := encodeBase64Url rec.nonce.bytes
  verifierAid := rec.verifier
  expiresAt := rec.expiresAt

/-- The `message_id` of a raw envelope, in any form of a UUID. -/
def gateMessageId (envelope : CheckedJson) : Option Uuid :=
  ((envelope.value.get "message_id").bind Json.asStr).bind Uuid.tryParse

/-- The checks of `gate` after the deny list's. -/
def gate (limiter : Option ℕ) (timestamp : Option Timestamp) (now : Timestamp) :
    Except AdmissionError Unit := do
  checkLimiter limiter
  ifPresent timestamp fun ts =>
    ensure (ts.isWithinToleranceOf now adm.tolerance) .timestampExpired

/-- The parse error reported for an envelope. -/
def parseError : EnvelopeParseError → AdmissionError
  | .unknownVersion v => .unknownVersion v
  | .unknownField f => .unknownField f
  | _ => .invalidEnvelope "envelope"

/-- The checks of `verify` before the nonce is consumed. -/
def verify (env : AitpEnvelope) : Except AdmissionError Presented := do
  ensure (env.version == protocolVersion) (.unknownVersion env.version)
  ensure (decide (env.messageType = .identityPresentation))
    (.invalidEnvelope "message_type is not identity_presentation")
  ensure env.messageId.checkV4.isOk (.invalidEnvelope "message_id is not a UUID v4")
  ensureMembers env.payload identityPresentationPayloadMembers .unknownField
  let payload ← okOr (decodeIdentityPresentationPayload env.payload) (.invalidEnvelope "payload")
  let nonce ← okOr (decodeNonce payload.popNonce)
    (.identity "pop_nonce must be 16 bytes, base64url-unpadded")
  let ctx : PinnedKeyVerifyContext :=
    ⟨env.sender, adm.verifierAid, env.messageId, env.timestamp, payload.popNonce, adm.subject⟩
  let key ← mapErr (fun _ => .identity "pinned key")
    (resolvePinnedKey P payload.identity ctx adm.pinnedKeys)
  let sig ← mapErr (fun _ => .invalidSignature) (Signature.parse env.signature)
  mapErr (fun _ => .invalidSignature) (key.key.verifyJcs P (envelopeSigningInput env) sig)
  mapErr (fun _ => .identity "proof") (checkPinnedKeyProof P payload.identity ctx key)
  return ⟨nonce, key, payload.identity.subject, env.messageId, env.timestamp⟩

/-- What `admit_wire` does between the deny list's answer and the nonce store. -/
def checkWire (limiter : Option ℕ) (envelope : CheckedJson) (now : Timestamp) :
    Except AdmissionError Presented := do
  adm.gate limiter ((envelope.value.get "timestamp").bind Serde.i64) now
  let env ← mapErr parseError (parseEnvelopeWire envelope)
  adm.verify P env

/-- The last second a presentation is timely. -/
def keptUntil (timestamp : Timestamp) : Timestamp :=
  timestamp.saturatingAdd adm.tolerance

end PinnedAdmission

/-- `present_pinned`, for a message identifier. -/
def presentPinned (signer : Signer) (subject : String) (challenge : AdmissionChallenge)
    (messageId : Uuid) (now : Timestamp) : Except AdmissionError AitpEnvelope := do
  let input ← mapErr (fun _ => .identity "pop_nonce")
    (pinnedKeyProofInput signer.aid challenge.verifierAid messageId now challenge.popNonce)
  let proof ← mapErr .crypto (signer.signJcs input)
  let identity := IdentityDescriptor.pinnedKey subject
    (encodeBase64Url signer.aid.pubkeyCompressedBytes) proof
  let payload := IdentityPresentationPayload.toValue ⟨identity, challenge.popNonce⟩
  let envelope := AitpEnvelope.unsigned signer.aid .identityPresentation payload messageId now
  let signature ← mapErr .crypto (signer.signJcs (envelopeSigningInput envelope))
  return { envelope with signature := signature }

variable {P : Primitives} {adm : PinnedAdmission}

/-- What was checked of a presentation: its key is its sender's, pinned, and signed both the
envelope and the proof over the nonce, which are those of the envelope. -/
theorem PinnedAdmission.verify_ok {env : AitpEnvelope} {p : Presented}
    (h : adm.verify P env = .ok p) :
    p.messageId = env.messageId ∧ p.timestamp = env.timestamp ∧
      VerifyingKey.fromAid P env.sender = .ok p.key.key ∧ adm.pinnedKeys p.key.key = true ∧
      verifyEnvelopeSignature P env p.key.key = .ok () ∧
      ∃ payload input, decodeIdentityPresentationPayload env.payload = some payload ∧
        decodeNonce payload.popNonce = some p.nonce ∧
        pinnedKeyProofInput env.sender adm.verifierAid env.messageId env.timestamp
          payload.popNonce = .ok input ∧
        p.key.key.verifyJcs P input payload.identity.proof = .ok () := by
  simp only [verify, bind_eq_ok, ensure_eq_ok, okOr_eq_ok, mapErr_eq_ok, pure_eq_ok] at h
  obtain ⟨_, -, _, -, _, -, _, -, payload, hd, nonce, hn, key, hk, sig, hsig, _, hv, _, hp, rfl⟩ :=
    h
  obtain ⟨-, ha, -, hs⟩ := resolvePinnedKey_ok hk
  obtain ⟨input, hi, hproof⟩ := checkPinnedKeyProof_ok hp
  refine ⟨rfl, rfl, ha, hs, ?_, payload, input, hd, hn, hi, hproof⟩
  simp only [verifyEnvelopeSignature, bind_eq_ok]
  exact ⟨sig, hsig, hv⟩

end Aitp
