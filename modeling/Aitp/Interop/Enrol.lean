import Aitp.Core.NonceBook
import Aitp.Foundation.Separated
import Aitp.Handshake.Admission
import Aitp.Interop.EnrolledKeys
import Aitp.Spiffe.ProofInput

/-! # Enrolment

`enrol.rs` and the enrolment routes of the interop peer in `serve.rs`, up to its stores. A caller
signs a challenge of the peer under the key that it enrols. What it signs says which key it enrols
at which peer over which challenge, and the answer to a challenge passes the checks of its peer.
-/

namespace Aitp

/-! ## Wire format -/

/-- `Challenge`. -/
structure EnrollChallenge where
  nonce : String
  peerAid : Aid
  expiresAt : Timestamp

structure EnrollRequest where
  aid : String
  nonce : String
  signature : String

structure Enrolled where
  aid : RawAid
  expiresAt : Timestamp
  capabilities : List String

structure ParsedEnroll where
  aid : Aid
  key : VerifyingKey
  nonce : Nonce
  signature : String
  deriving DecidableEq

/-- Why `parse_enroll` refuses a body. -/
inductive EnrollError where
  | body
  | aid
  | key (error : CryptoError)
  | nonce
  | signature (error : CryptoError)

/-- The fields of `Challenge`. -/
def enrollChallengeFields : List FieldSpec :=
  [⟨"nonce", .required⟩, ⟨"peer_aid", .required⟩, ⟨"expires_at", .required⟩]

/-- The fields of `EnrollRequest`. -/
def enrollRequestFields : List FieldSpec :=
  [⟨"aid", .required⟩, ⟨"nonce", .required⟩, ⟨"signature", .required⟩]

/-- `Serialize for Challenge`. -/
def EnrollChallenge.toValue (c : EnrollChallenge) : Json :=
  .obj <| Serde.written enrollChallengeFields
    [some (.str c.nonce), some (.str c.peerAid.value), some (.int c.expiresAt)]

/-- `Serialize for EnrollRequest`. -/
def EnrollRequest.toValue (r : EnrollRequest) : Json :=
  .obj <| Serde.written enrollRequestFields
    [some (.str r.aid), some (.str r.nonce), some (.str r.signature)]

/-- `Deserialize for Challenge`. -/
def decodeEnrollChallenge (v : Json) : Option EnrollChallenge :=
  match Serde.structFields enrollChallengeFields v with
  | some [some nonce, some peerAid, some expiresAt] => do
    return {
      nonce := ← nonce.asStr
      peerAid := ← decodeAid peerAid
      expiresAt := ← Serde.i64 expiresAt }
  | _ => none

/-- `Deserialize for EnrollRequest`. -/
def decodeEnrollRequest (v : Json) : Option EnrollRequest :=
  match Serde.structFields enrollRequestFields v with
  | some [some aid, some nonce, some signature] => do
    return {
      aid := ← aid.asStr
      nonce := ← nonce.asStr
      signature := ← signature.asStr }
  | _ => none

/-- `enrol::DOMAIN`. -/
def enrolDomain : String := "aitp-interop-enrol-v1"

/-- What comes before the nonce in the digest of `signing_digest`, a zero byte after each. -/
def enrolFields (aid peerAid : Aid) : List Bytes :=
  [asBytes enrolDomain, asBytes aid.value, asBytes peerAid.value]

/-- What the digest of `signing_digest` is of. -/
def enrolSigningInput (aid peerAid : Aid) (nonce : Nonce) : Bytes :=
  Separated.join 0 (enrolFields aid peerAid) nonce.bytes

def parseEnroll (P : Primitives) (body : Bytes) : Except EnrollError ParsedEnroll := do
  let req ← okOr ((P.document body).bind decodeEnrollRequest) .body
  let aid ← okOr (Aid.parse req.aid) .aid
  let key ← mapErr .key (VerifyingKey.fromAid P aid)
  let nonce ← okOr (decodeNonce req.nonce) .nonce
  let signature ← mapErr .signature (Signature.parse req.signature)
  return ⟨aid, key, nonce, signature⟩

def signEnroll (key : Signer) (challenge : EnrollChallenge) : Option EnrollRequest := do
  let nonce ← decodeNonce challenge.nonce
  let signature ← (key.signJcs (enrolSigningInput key.aid challenge.peerAid nonce)).toOption
  return ⟨key.aid.value, challenge.nonce, signature⟩

/-- `enroll_async`, from the body of the challenge to the body that answers it. -/
def answerEnrollChallenge (P : Primitives) (key : Signer) (reply : Bytes) : Option Bytes := do
  let challenge ← (P.document reply).bind decodeEnrollChallenge
  let request ← signEnroll key challenge
  return utf8 request.toValue.text

/-! ## The routes -/

def echoCap : String := "aitp.interop.echo"

/-- `CHALLENGE_TTL`, in seconds. -/
def challengeTtl : ℕ := 60

/-- What `refuse` answers, without the message: the status, the code and a `Retry-After`. -/
structure Refusal where
  status : ℕ
  error : String
  retryAfter : Option ℕ
  deriving DecidableEq

namespace Refusal

def rateLimited (retryAfter : ℕ) : Refusal := ⟨429, "rate_limited", some (max retryAfter 1)⟩

/-- The answer to an error of the nonce store, under the code of a route. -/
def busy (code : String) : NonceStoreError → Refusal
  | .atCapacity _ retryAfter => ⟨503, code, retryAfter.map fun secs => max secs 1⟩
  | .duplicate => ⟨503, code, none⟩

/-- The limiter's answer: pass, or how long to wait. -/
def checkRate (limiter : Option ℕ) : Except Refusal Unit :=
  ifPresent limiter fun retryAfter => .error (rateLimited retryAfter)

end Refusal

/-- The parts of `Interop` that its routes read. -/
structure Interop where
  key : Signer
  enrolCap : ℕ
  enrolTtl : ℕ
  nonces : NonceStoreConfig
  echoNonces : NonceStoreConfig

namespace Interop

variable (P : Primitives) (peer : Interop)

def aid : Aid := peer.key.aid

/-- The record issued for a nonce drawn by `enroll_challenge`. -/
def enrollRecord (nonce : Nonce) (now : Timestamp) : IssuedNonce where
  nonce := nonce
  verifier := peer.aid
  issuedAt := now
  expiresAt := now.saturatingAdd challengeTtl

def enrollChallenge (nonces : NonceBook) (limiter : Option ℕ) (drawn : Option Nonce)
    (now : Timestamp) : NonceBook × Except Refusal EnrollChallenge :=
  match Refusal.checkRate limiter, drawn with
  | .error e, _ => (nonces, .error e)
  | .ok (), none => (nonces, .error ⟨500, "enrol_busy", none⟩)
  | .ok (), some nonce =>
    let record := peer.enrollRecord nonce now
    let r := nonces.issue peer.nonces record
    (r.1, mapErr (Refusal.busy "enrol_busy") (r.2.map fun () =>
      ⟨encodeBase64Url nonce.bytes, peer.aid, record.expiresAt⟩))

/-- `enroll`, up to the nonce store. -/
def checkEnroll (limiter : Option ℕ) (body : Bytes) : Except Refusal ParsedEnroll := do
  Refusal.checkRate limiter
  let request ← mapErr (fun _ => ⟨400, "bad_request", none⟩) (parseEnroll P body)
  mapErr (fun _ => ⟨401, "bad_signature", none⟩)
    (request.key.verifyJcs P (enrolSigningInput request.aid peer.aid request.nonce)
      request.signature)
  return request

/-- What `enroll` answers when the challenge was not consumed. -/
def badNonce : Refusal := ⟨401, "bad_nonce", none⟩

end Interop

variable {P : Primitives} {peer : Interop} {request : ParsedEnroll} {signer : Signer}
  {key : VerifyingKey} {nonce : Nonce} {c : EnrollChallenge}

/-! ## What is signed -/

theorem Nonce.ext {n n' : Nonce} (h : n.bytes = n'.bytes) : n = n' := by
  cases n
  cases n'
  obtain rfl := h
  rfl

theorem enrolSigningInput_inj {aid aid' peerAid peerAid' : Aid} {nonce nonce' : Nonce}
    (h : enrolSigningInput aid peerAid nonce = enrolSigningInput aid' peerAid' nonce') :
    aid = aid' ∧ peerAid = peerAid' ∧ nonce = nonce' := by
  have hz : ∀ aid peerAid : Aid, ∀ f ∈ enrolFields aid peerAid, 0 ∉ f := by
    intro aid peerAid
    simp only [enrolFields, List.forall_mem_cons]
    exact ⟨by decide, (isPlain_value aid).zero_notMem, (isPlain_value peerAid).zero_notMem,
      List.forall_mem_nil _⟩
  have hl : (enrolFields aid peerAid).length = (enrolFields aid' peerAid').length := rfl
  obtain ⟨hf, hn⟩ := Separated.join_inj hl (hz aid peerAid) (hz aid' peerAid') h
  simp only [enrolFields, List.cons.injEq, true_and, and_true] at hf
  exact ⟨Aid.ext (asBytes_injective hf.1), Aid.ext (asBytes_injective hf.2), Nonce.ext hn⟩

/-- Bytes that are signed to enrol one agent at one peer over one nonce, and for nothing else. -/
def EnrolsOnly (input : Bytes) (aid peerAid : Aid) (nonce : Nonce) : Prop :=
  ∀ aid' peerAid' nonce', enrolSigningInput aid' peerAid' nonce' = input ↔
    aid' = aid ∧ peerAid' = peerAid ∧ nonce' = nonce

theorem enrolsOnly_signingInput (aid peerAid : Aid) (nonce : Nonce) :
    EnrolsOnly (enrolSigningInput aid peerAid nonce) aid peerAid nonce := by
  intro aid' peerAid' nonce'
  constructor
  · exact enrolSigningInput_inj
  · rintro ⟨rfl, rfl, rfl⟩
    rfl

/-- What a request shows that passes the checks before the nonce store. -/
theorem checkEnroll_ok {limiter : Option ℕ} {body : Bytes}
    (h : peer.checkEnroll P limiter body = .ok request) :
    VerifyingKey.fromAid P request.aid = .ok request.key ∧
      request.key.verifyJcs P (enrolSigningInput request.aid peer.aid request.nonce)
        request.signature = .ok () := by
  simp only [Interop.checkEnroll, parseEnroll, bind_eq_ok, mapErr_eq_ok, okOr_eq_ok,
    pure_eq_ok] at h
  obtain ⟨-, -, _, ⟨_, -, aid, -, key, hk, nonce, -, signature, -, rfl⟩, _, hv, rfl⟩ := h
  exact ⟨hk, hv⟩

/-! ## What is answered -/

theorem decodeNonce_encode (nonce : Nonce) :
    decodeNonce (encodeBase64Url nonce.bytes) = some nonce := by
  have hd : decodeStrictExact nonceLen (encodeBase64Url nonce.bytes) = some nonce.bytes := by
    rw [decodeStrictExact, decodeStrict_encodeBase64Url, Option.filter_some, nonce.length_eq]
    rfl
  unfold decodeNonce
  split
  · next bs h => exact congrArg some (Nonce.ext (Option.some.inj (h.symm.trans hd)))
  · next h => rw [hd] at h; cases h

theorem decode_enrollChallenge {c : EnrollChallenge} (h : c.expiresAt.Fits) :
    decodeEnrollChallenge c.toValue = some c := by
  unfold decodeEnrollChallenge EnrollChallenge.toValue
  rw [Serde.structFields_obj_written (by decide) rfl (by simp [enrollChallengeFields])]
  simp [Json.asStr, i64_of_fits h]

theorem decode_enrollRequest (r : EnrollRequest) : decodeEnrollRequest r.toValue = some r := by
  unfold decodeEnrollRequest EnrollRequest.toValue
  rw [Serde.structFields_obj_written (by decide) rfl (by simp [enrollRequestFields])]
  simp [Json.asStr]

theorem document_enrollChallenge (hP : P.ReadsText) {c : EnrollChallenge} (h : c.expiresAt.Fits) :
    P.document (utf8 c.toValue.text) = some c.toValue := by
  refine hP.document_text (Serde.readable_written ?_)
  simp only [List.all_cons, List.all_nil, Option.all_some, Json.readable_str, h.readable_int hP,
    Bool.and_true]

theorem document_enrollRequest (hP : P.ReadsText) (r : EnrollRequest) :
    P.document (utf8 r.toValue.text) = some r.toValue := by
  refine hP.document_text (Serde.readable_written ?_)
  simp only [List.all_cons, List.all_nil, Option.all_some, Json.readable_str, Bool.and_true]

/-- The answer to a challenge passes the checks of the peer that issued it. -/
theorem checkEnroll_answer (hP : P.ReadsText) (hs : signer.Total P key)
    (hn : c.nonce = encodeBase64Url nonce.bytes) (hp : c.peerAid = peer.aid)
    (hx : c.expiresAt.Fits) :
    ∃ body sig, answerEnrollChallenge P signer (utf8 c.toValue.text) = some body ∧
      peer.checkEnroll P none body = .ok ⟨signer.aid, key, nonce, sig⟩ := by
  obtain ⟨sig, hsig⟩ := hs.signJcs (enrolSigningInput signer.aid peer.aid nonce)
  obtain ⟨hparse, hv⟩ := signJcs_verifies hs.lawful hsig
  let request : EnrollRequest := ⟨signer.aid.value, c.nonce, sig⟩
  refine ⟨utf8 request.toValue.text, sig, ?_, ?_⟩
  · have hsign : signEnroll signer c = some request := by
      simp [signEnroll, hn, decodeNonce_encode, hp, hsig, Except.toOption, request]
    simp [answerEnrollChallenge, document_enrollChallenge hP hx, decode_enrollChallenge hx, hsign]
  · have hnonce : decodeNonce request.nonce = some nonce := by
      change decodeNonce c.nonce = some nonce
      rw [hn, decodeNonce_encode]
    have hbody : parseEnroll P (utf8 request.toValue.text) =
        .ok ⟨signer.aid, key, nonce, sig⟩ := by
      have hd : (P.document (utf8 request.toValue.text)).bind decodeEnrollRequest =
          some request := by
        rw [document_enrollRequest hP request, Option.bind_some, decode_enrollRequest]
      simp only [parseEnroll, bind_eq_ok, mapErr_eq_ok, okOr_eq_ok, pure_eq_ok]
      exact ⟨request, hd, signer.aid, Aid.parse_value _, key, hs.lawful.1, nonce, hnonce, sig,
        hparse, rfl⟩
    simp only [Interop.checkEnroll, bind_eq_ok, mapErr_eq_ok, pure_eq_ok]
    exact ⟨(), rfl, _, hbody, (), hv, rfl⟩

namespace Toy

/-- A peer with room for two challenges and two keys. -/
def interop : Interop where
  key := Toy.signer (agent 0)
  enrolCap := 2
  enrolTtl := 60
  nonces := ⟨1, 2, fun _ => 0⟩
  echoNonces := ⟨1, 2, fun _ => 0⟩

/-- A nonce of one octet over and over. -/
def octetNonce (b : UInt8) : Nonce := ⟨List.replicate nonceLen b, rfl⟩

end Toy

end Aitp
