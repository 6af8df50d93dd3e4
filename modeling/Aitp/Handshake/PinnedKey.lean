import Aitp.Core.NonceStore
import Aitp.Handshake.Error

/-! # Pinned-key identity proofs

`handshake/pinned_key.rs`: the proof input, the two halves of its verification,
and its signing.
-/

namespace Aitp

def pinnedKeyProofDomain : Bytes := asBytes "aitp-pinned-key-v1\x00"

def handshakeProofInput (domain : Bytes) (senderAid receiverAid : Aid) (messageId : Uuid)
    (timestamp : Timestamp) (popNonce : String) : Except HandshakeError Bytes := do
  let popNonceBytes ← okOr (decodeStrict popNonce) (.identity "pop_nonce is not valid base64url")
  ensure (popNonceBytes.length == nonceLen)
    (.identity ("pop_nonce must decode to exactly 16 bytes, got " ++ toString popNonceBytes.length))
  return domain ++ asBytes senderAid.value ++ 0 :: asBytes receiverAid.value ++
    0 :: asBytes messageId.hyphenated ++ 0 :: utf8 (intText timestamp) ++ 0 :: popNonceBytes

def pinnedKeyProofInput : Aid → Aid → Uuid → Timestamp → String → Except HandshakeError Bytes :=
  handshakeProofInput pinnedKeyProofDomain

/-- `PinnedKeyStore`: whether a key is trusted. -/
abbrev PinnedKeyStore := VerifyingKey → Bool

inductive SubjectBinding where
  | unchecked
  | senderAid
  deriving DecidableEq

structure PinnedKeyVerifyContext where
  senderAid : Aid
  receiverAid : Aid
  messageId : Uuid
  timestamp : Timestamp
  popNonce : String
  subject : SubjectBinding

structure VerifiedPinnedKey where
  algorithm : AidAlgorithm
  key : VerifyingKey
  aid : Aid
  deriving DecidableEq

section

variable (P : Primitives) (descriptor : IdentityDescriptor) (ctx : PinnedKeyVerifyContext)

def resolvePinnedKey (store : PinnedKeyStore) : Except HandshakeError VerifiedPinnedKey := do
  ensure (descriptor.kind == .pinnedKey)
    (.identity "pinned-key verification requires identity.type = pinned_key")
  ensure descriptor.issuer.isNone (.identity "pinned_key descriptor must not carry issuer")
  ensure (ctx.subject != .senderAid || descriptor.subject == ctx.senderAid.value)
    (.identity "pinned_key subject does not equal the sender AID")
  let algorithm := ctx.senderAid.algorithm
  let publicKey ← okOr descriptor.publicKey (.identity "pinned_key missing public_key")
  let pkBytes ← okOr (decodeStrict publicKey) (.identity "public_key malformed base64url")
  ensure (pkBytes.length == compressedLen algorithm)
    (.identity "public_key must decode to the sender's key length")
  ensure (algorithm != .p256 || pkBytes.head? == some 2 || pkBytes.head? == some 3)
    (.identity "public_key must be a SEC1 compressed P-256 point")
  ensure (pkBytes == ctx.senderAid.pubkeyCompressedBytes)
    (.identity "public_key does not match sender AID")
  let key ← mapErr (fun _ => .identity "public_key is not a valid point")
    (VerifyingKey.fromCompressed P pkBytes)
  ensure (store key) (.identity "pinned_key not in local trust store")
  return ⟨algorithm, key, ctx.senderAid⟩

def checkPinnedKeyProof (key : VerifiedPinnedKey) : Except HandshakeError Unit := do
  let input ← pinnedKeyProofInput ctx.senderAid ctx.receiverAid ctx.messageId ctx.timestamp
    ctx.popNonce
  let sig ← mapErr (fun _ => .identity "proof malformed") (Signature.parse descriptor.proof)
  mapErr (fun _ => .identity "pinned_key signature invalid") (key.key.verifyJcs P input sig)

def verifyPinnedKey (store : PinnedKeyStore) : Except HandshakeError VerifiedPinnedKey := do
  let key ← resolvePinnedKey P descriptor ctx store
  checkPinnedKeyProof P descriptor ctx key
  return key

end

def signPinnedKeyProof (signingKey : Signer) (senderAid receiverAid : Aid) (messageId : Uuid)
    (timestamp : Timestamp) (popNonce : String) : Except HandshakeError String := do
  let input ← pinnedKeyProofInput senderAid receiverAid messageId timestamp popNonce
  mapErr .crypto (signingKey.signJcs input)

variable {P : Primitives} {descriptor : IdentityDescriptor} {ctx : PinnedKeyVerifyContext}
  {store : PinnedKeyStore} {key : VerifiedPinnedKey}

theorem resolvePinnedKey_ok (h : resolvePinnedKey P descriptor ctx store = .ok key) :
    descriptor.kind = .pinnedKey ∧ VerifyingKey.fromAid P ctx.senderAid = .ok key.key ∧
      key.aid = ctx.senderAid ∧ store key.key = true := by
  simp only [resolvePinnedKey, bind_eq_ok, ensure_eq_ok, okOr_eq_ok, mapErr_eq_ok, pure_eq_ok,
    exists_const, beq_iff_eq] at h
  obtain ⟨hk, -, -, publicKey, -, pk, -, hl, -, rfl, k, hc, hs, rfl⟩ := h
  obtain ⟨hb, hn, hp⟩ := VerifyingKey.fromCompressed_ok hc
  have ha : k.algorithm = ctx.senderAid.algorithm := by
    rw [hl] at hn
    cases hka : k.algorithm <;> cases hca : ctx.senderAid.algorithm <;>
      simp [hka, hca, compressedLen] at hn ⊢
  refine ⟨hk, VerifyingKey.fromAid_eq_ok.mpr ⟨?_, ha ▸ hp⟩, rfl, hs⟩
  obtain ⟨algorithm, bytes⟩ := k
  exact congrArg₂ VerifyingKey.mk ha hb

theorem checkPinnedKeyProof_ok {u : Unit}
    (h : checkPinnedKeyProof P descriptor ctx key = .ok u) :
    ∃ input, pinnedKeyProofInput ctx.senderAid ctx.receiverAid ctx.messageId ctx.timestamp
      ctx.popNonce = .ok input ∧ key.key.verifyJcs P input descriptor.proof = .ok () := by
  simp only [checkPinnedKeyProof, bind_eq_ok, mapErr_eq_ok] at h
  obtain ⟨input, hi, sig, hs, hv⟩ := h
  obtain rfl := Signature.eq_of_parse hs
  exact ⟨input, hi, hv⟩

end Aitp
