import Aitp.Core.EnvelopeSign
import Aitp.Core.Ids
import Aitp.Interop.Enrol
import Aitp.Tct.Pop
import Aitp.Tct.RoundTrip

/-! # The echo route

`echo.rs` and the echo routes of the interop peer in `serve.rs`, between its stores. The peer
challenges whoever shows it a token of its own, and takes the answer only from the subject of the
token: the envelope and the proof are both under the key that the subject names.
-/

namespace Aitp

/-! ## Wire format -/

/-- `EchoRequest`; the envelope is kept as it was sent. -/
structure EchoRequest where
  tct : String
  popResponse : Json

/-- `ChallengePayload`. -/
structure EchoChallengePayload where
  tctJti : Uuid
  nonce : String
  deriving DecidableEq

/-- The fields of `ChallengeRequest`. -/
def echoChallengeRequestFields : List FieldSpec := [⟨"tct", .required⟩]

/-- The fields of `EchoRequest`. -/
def echoRequestFields : List FieldSpec := [⟨"tct", .required⟩, ⟨"pop_response", .required⟩]

/-- The fields of `ChallengePayload`. -/
def echoChallengePayloadFields : List FieldSpec := [⟨"tct_jti", .required⟩, ⟨"nonce", .required⟩]

/-- The fields of `PopResponse`. -/
def popResponseFields : List FieldSpec :=
  [⟨"tct_jti", .required⟩, ⟨"nonce_echo", .required⟩, ⟨"pop_signature", .required⟩]

/-- `Serialize for ChallengeRequest`. -/
def echoChallengeRequestValue (tct : String) : Json :=
  .obj <| Serde.written echoChallengeRequestFields [some (.str tct)]

/-- `Serialize for EchoRequest`. -/
def EchoRequest.toValue (r : EchoRequest) : Json :=
  .obj <| Serde.written echoRequestFields [some (.str r.tct), some r.popResponse]

/-- `Serialize for ChallengePayload`. -/
def EchoChallengePayload.toValue (p : EchoChallengePayload) : Json :=
  .obj <| Serde.written echoChallengePayloadFields
    [some (.str p.tctJti.hyphenated), some (.str p.nonce)]

/-- `Serialize for PopResponse`. -/
def PopResponse.toValue (r : PopResponse) : Json :=
  .obj <| Serde.written popResponseFields
    [some (.str r.tctJti.hyphenated), some (.str r.nonceEcho), some (.str r.popSignature)]

/-- `Deserialize for ChallengeRequest`. -/
def decodeEchoChallengeRequest (v : Json) : Option String :=
  match Serde.structFields echoChallengeRequestFields v with
  | some [some tct] => tct.asStr
  | _ => none

/-- `Deserialize for EchoRequest`. -/
def decodeEchoRequest (v : Json) : Option EchoRequest :=
  match Serde.structFields echoRequestFields v with
  | some [some tct, some popResponse] => do
    return {
      tct := ← tct.asStr
      popResponse := popResponse.collapse }
  | _ => none

/-- `Deserialize for ChallengePayload`. -/
def decodeEchoChallengePayload (v : Json) : Option EchoChallengePayload :=
  match Serde.structFields echoChallengePayloadFields v with
  | some [some tctJti, some nonce] => do
    return {
      tctJti := ← decodeUuid tctJti
      nonce := ← nonce.asStr }
  | _ => none

/-- `Deserialize for PopResponse`. -/
def decodePopResponse (v : Json) : Option PopResponse :=
  match Serde.structFields popResponseFields v with
  | some [some tctJti, some nonceEcho, some popSignature] => do
    return {
      tctJti := ← decodeUuid tctJti
      nonceEcho := ← nonceEcho.asStr
      popSignature := ← popSignature.asStr }
  | _ => none

def Uuid.asBytes (u : Uuid) : Bytes := (List.range 16).map u.octet

/-- The digest that `echo_slot` takes the first bytes of is of these. -/
def echoSlotInput (jti : Uuid) (nonce : String) : Bytes :=
  asBytes "aitp-interop-echo-v1\x00" ++ jti.asBytes ++ asBytes nonce

/-- `echo_slot`: the first bytes of a digest, which has more of them. -/
def echoSlot (P : Primitives) (jti : Uuid) (nonce : String) : Nonce where
  bytes := (P.sha256 (echoSlotInput jti nonce) ++ List.replicate nonceLen 0).take nonceLen
  length_eq := by simp

theorem Uuid.asBytes_injective {u v : Uuid} (h : u.asBytes = v.asBytes) : u = v := by
  have ho : ∀ i < 16, u.octet i = v.octet i := fun i hi =>
    List.map_inj_left.mp h i (List.mem_range.mpr hi)
  have hn : u.nibbles = v.nibbles := by
    apply List.ext_getElem?
    intro n
    by_cases hlt : n < 32
    · obtain ⟨hu₀, hu₁⟩ := u.nibbles_of_octet (i := n / 2) (by omega)
      obtain ⟨hv₀, hv₁⟩ := v.nibbles_of_octet (i := n / 2) (by omega)
      rw [ho (n / 2) (by omega)] at hu₀ hu₁
      rcases Nat.mod_two_eq_zero_or_one n with hm | hm
      · rw [show n = 2 * (n / 2) by omega, hu₀, hv₀]
      · rw [show n = 2 * (n / 2) + 1 by omega, hu₁, hv₁]
    · rw [List.getElem?_eq_none (by rw [u.length_eq]; omega),
        List.getElem?_eq_none (by rw [v.length_eq]; omega)]
  obtain ⟨ns, hu, hx⟩ := u
  obtain ⟨ns', hv, hy⟩ := v
  obtain rfl : ns = ns' := hn
  rfl

theorem echoSlotInput_injective {jti jti' : Uuid} {nonce nonce' : String}
    (h : echoSlotInput jti nonce = echoSlotInput jti' nonce') : jti = jti' ∧ nonce = nonce' := by
  rw [echoSlotInput, echoSlotInput, List.append_assoc, List.append_assoc] at h
  have hl : jti.asBytes.length = jti'.asBytes.length := by simp [Uuid.asBytes]
  obtain ⟨hj, hn⟩ := List.append_inj (List.append_cancel_left h) hl
  exact ⟨Uuid.asBytes_injective hj, asBytes_injective hn⟩

/-- The digests of two different inputs begin alike. -/
def SlotsCollide (P : Primitives) (jti jti' : Uuid) (nonce nonce' : String) : Prop :=
  echoSlotInput jti nonce ≠ echoSlotInput jti' nonce' ∧
    echoSlot P jti nonce = echoSlot P jti' nonce'

theorem eq_or_slotsCollide {P : Primitives} {jti jti' : Uuid} {nonce nonce' : String}
    (h : echoSlot P jti nonce = echoSlot P jti' nonce') :
    (jti = jti' ∧ nonce = nonce') ∨ SlotsCollide P jti jti' nonce nonce' := by
  by_cases hi : echoSlotInput jti nonce = echoSlotInput jti' nonce'
  · exact .inl (echoSlotInput_injective hi)
  · exact .inr ⟨hi, h⟩

/-! ## The routes -/

/-- What `/echo` reads of a request before it consumes the challenge. -/
structure EchoPresented where
  token : String
  claims : TctClaims
  envelope : AitpEnvelope
  response : PopResponse

namespace Refusal

def pop : Refusal := ⟨401, "POP_RESPONSE_INVALID", none⟩

/-- A token that `verify_own_tct` rejects as not its own. -/
def invalidTct : Refusal := ⟨401, "TCT_SIGNATURE_INVALID", none⟩

/-- A token that does not grant the capability. -/
def policy : Refusal := ⟨403, "POLICY_VIOLATION", none⟩

/-- The answer of `verify_own_tct` to an error of `verify_tct`. -/
def ofTct : TctError → Refusal
  | .expired => ⟨401, "TCT_EXPIRED", none⟩
  | .safeSubsetEmpty => policy
  | _ => invalidTct

/-- A body that does not parse. -/
def badRequest : Refusal := ⟨400, "bad_request", none⟩

end Refusal

/-- The context in which `verify_own_tct` verifies a token. -/
def ownTctContext (selfAid sub : Aid) (now : Timestamp) : TctVerifyContext where
  expectedAudience := sub
  issuer := selfAid
  now := now
  issuerManifestExpiresAt := none
  revocation := .failOpen
  clockSkew := 0

namespace Interop

variable (P : Primitives) (peer : Interop)

/-- The `sub` of a payload that is not verified yet. -/
def peekSub (payload : Bytes) : Option Aid :=
  (((P.document payload).map Json.collapse).bind fun v => (v.get "sub").bind Json.asStr).bind
    Aid.parse

def verifyOwnTct (token : String) (selfAid : Aid) (now : Timestamp) :
    Except Refusal TctClaims := do
  let payload ← mapErr (fun _ => .invalidTct) (decodePayloadUnverified token)
  let sub ← okOr (peekSub P payload) .invalidTct
  let verified ← mapErr .ofTct (verifyTct P token (ownTctContext selfAid sub now))
  ensure (verified.claims.grants.contains echoCap) .policy
  return verified.claims

/-- `echo_challenge`, up to the nonce store: the token challenged, and the nonce drawn. -/
def prepareEchoChallenge (limiter : Option ℕ) (body : Bytes) (drawn : Option Nonce)
    (now : Timestamp) : Except Refusal (TctClaims × Nonce) := do
  Refusal.checkRate limiter
  let tct ← okOr ((P.document body).bind decodeEchoChallengeRequest) .badRequest
  let claims ← verifyOwnTct P tct peer.aid now
  let nonce ← okOr drawn ⟨500, "echo_busy", none⟩
  return (claims, nonce)

/-- The payload of a challenge. -/
def echoPayload (claims : TctClaims) (nonce : Nonce) : EchoChallengePayload :=
  ⟨claims.jti, encodeBase64Url nonce.bytes⟩

/-- The record issued for a challenge of a token. -/
def echoRecord (payload : EchoChallengePayload) (now : Timestamp) : IssuedNonce where
  nonce := echoSlot P payload.tctJti payload.nonce
  verifier := peer.aid
  issuedAt := now
  expiresAt := now.saturatingAdd challengeTtl

/-- `echo_challenge`, once the record is issued. -/
def signEchoChallenge (payload : EchoChallengePayload) (messageId : Uuid)
    (timestamp : Timestamp) : Except Refusal AitpEnvelope :=
  mapErr (fun _ => ⟨500, "echo_busy", none⟩)
    (signEnvelopeWith peer.key .popChallenge payload.toValue messageId timestamp)

/-- `echo` and `check_echo`, up to the nonce store. -/
def readEcho (limiter : Option ℕ) (body : Bytes) (now : Timestamp) :
    Except Refusal EchoPresented := do
  Refusal.checkRate limiter
  let request ← okOr ((P.document body).bind decodeEchoRequest) .badRequest
  let claims ← verifyOwnTct P request.tct peer.aid now
  let checked ← okOr (CheckedJson.fromSlice P (utf8 request.popResponse.text)) .pop
  let envelope ← mapErr (fun _ => .pop) (parseEnvelopeWire checked)
  let response ← okOr (decodePopResponse envelope.payload) .pop
  return ⟨request.tct, claims, envelope, response⟩

/-- `check_echo`, once the challenge is consumed; the list of the peer revokes nothing. -/
def proveEcho (p : EchoPresented) (now : Timestamp) : Except Refusal Unit := do
  ensure (decide (p.envelope.messageType = .popResponse)) .pop
  ensure (decide (p.envelope.sender = p.claims.sub)) .pop
  let subKey ← mapErr (fun _ => .pop) (VerifyingKey.fromAid P p.claims.sub)
  mapErr (fun _ => .pop) (verifyEnvelopeSignature P p.envelope subKey)
  mapErr (fun _ => .pop)
    (verifyPopResponse P ⟨p.claims.jti, p.response.nonceEcho, now⟩ p.response p.claims now)

/-- What `check_echo` answers when it does not consume a challenge. -/
def echoRefused : ConsumeOutcome → Refusal
  | .expired => ⟨401, "POP_CHALLENGE_INVALID", none⟩
  | _ => .pop

end Interop

/-! ## The holder -/

/-- `respond`. -/
def respondEcho (P : Primitives) (key : Signer) (peerAid : Aid) (jti : Uuid)
    (challenge : AitpEnvelope) (messageId : Uuid) (timestamp : Timestamp) :
    Option AitpEnvelope := do
  guard (challenge.messageType = .popChallenge)
  guard (challenge.sender = peerAid)
  let peerKey ← (VerifyingKey.fromAid P peerAid).toOption
  let _ ← (verifyEnvelopeSignature P challenge peerKey).toOption
  let payload ← decodeEchoChallengePayload challenge.payload
  guard (payload.tctJti = jti)
  -- The expiry of the challenge is not signed.
  let response ← (signPopResponse ⟨jti, payload.nonce, timestamp⟩ key).toOption
  (signEnvelopeWith key .popResponse response.toValue messageId timestamp).toOption

/-- `echo`, from the body of the challenge to the body that answers it. -/
def answerEchoChallenge (P : Primitives) (key : Signer) (peerAid : Aid) (token : String)
    (jti : Uuid) (reply : Bytes) (messageId : Uuid) (timestamp : Timestamp) : Option Bytes := do
  let challenge ← (P.document reply).bind decodeEnvelope
  let response ← respondEcho P key peerAid jti challenge messageId timestamp
  return utf8 (EchoRequest.toValue ⟨token, response.toValue⟩).text

/-! ## Messages read back -/

theorem decode_echoChallengeRequest (tct : String) :
    decodeEchoChallengeRequest (echoChallengeRequestValue tct) = some tct := by
  unfold decodeEchoChallengeRequest echoChallengeRequestValue
  rw [Serde.structFields_obj_written (by decide) rfl (by simp [echoChallengeRequestFields])]
  rfl

theorem decode_echoRequest {r : EchoRequest} (h : r.popResponse.distinctKeys = true) :
    decodeEchoRequest r.toValue = some r := by
  unfold decodeEchoRequest EchoRequest.toValue
  rw [Serde.structFields_obj_written (by decide) rfl (by simp [echoRequestFields])]
  simp [Json.asStr, Json.collapse_of_distinct _ h]

theorem decode_echoChallengePayload (p : EchoChallengePayload) :
    decodeEchoChallengePayload p.toValue = some p := by
  unfold decodeEchoChallengePayload EchoChallengePayload.toValue
  rw [Serde.structFields_obj_written (by decide) rfl (by simp [echoChallengePayloadFields])]
  simp [Json.asStr, decodeUuid, Uuid.tryParse_hyphenated]

theorem decode_popResponse (r : PopResponse) : decodePopResponse r.toValue = some r := by
  unfold decodePopResponse PopResponse.toValue
  rw [Serde.structFields_obj_written (by decide) rfl (by simp [popResponseFields])]
  simp [Json.asStr, decodeUuid, Uuid.tryParse_hyphenated]

theorem readable_echoChallengeRequest {p : Json → Bool} {n : ℕ} (tct : String) :
    (echoChallengeRequestValue tct).readable p (n + 1) = true := by
  refine Serde.readable_written ?_
  simp only [List.all_cons, List.all_nil, Option.all_some, Json.readable_str, Bool.and_true]

theorem readable_echoRequest {p : Json → Bool} {n : ℕ} {r : EchoRequest}
    (h : r.popResponse.readable p n = true) : r.toValue.readable p (n + 1) = true := by
  refine Serde.readable_written ?_
  simp only [List.all_cons, List.all_nil, Option.all_some, Json.readable_str, h, Bool.and_true]

theorem readable_echoChallengePayload {p : Json → Bool} {n : ℕ} (c : EchoChallengePayload) :
    c.toValue.readable p (n + 1) = true := by
  refine Serde.readable_written ?_
  simp only [List.all_cons, List.all_nil, Option.all_some, Json.readable_str, Bool.and_true]

theorem readable_popResponse {p : Json → Bool} {n : ℕ} (r : PopResponse) :
    r.toValue.readable p (n + 1) = true := by
  refine Serde.readable_written ?_
  simp only [List.all_cons, List.all_nil, Option.all_some, Json.readable_str, Bool.and_true]

theorem distinctKeys_popResponse (r : PopResponse) : r.toValue.distinctKeys = true := by
  apply Serde.distinctKeys_written_of_all (by decide)
  simp only [List.all_cons, List.all_nil, Option.all_some, Json.distinctKeys_str, Bool.and_true]

variable {P : Primitives}

/-- An envelope that was signed is decoded from its text. -/
theorem decodeEnvelope_signed (hP : P.ReadsText) {signer : Signer} {messageType : MessageType}
    {payload : Json} {messageId : Uuid} {timestamp : Timestamp} {e : AitpEnvelope}
    (ht : timestamp.Fits) (hr : payload.readable P.keeps 126 = true)
    (h : signEnvelopeWith signer messageType payload messageId timestamp = .ok e) :
    (P.document (utf8 e.toValue.text)).bind decodeEnvelope = some e := by
  have hreadable := readable_signEnvelopeWith (n := 125) hP ht hr h
  obtain ⟨hm, -, -, sig, -, rfl⟩ := signEnvelopeWith_eq_ok.mp h
  rw [hP.document_text hreadable, Option.bind_some]
  apply decodeEnvelope_toValue hm ht
  rintro ms ⟨⟩

/-! ## A holder and its token -/

/-- A token with the capability that the peer issued to a holder. -/
structure EchoToken (P : Primitives) (peer : Interop) (holder : Signer) (b : TctBuilder)
    (clock : Timestamp) (issued : IssuedTct) : Prop where
  wellTyped : b.WellTyped P clock
  issuer : b.issuerKey = peer.key
  grant : b.attestation = false
  built : b.build P clock = .ok issued
  subject : b.subject = some holder.aid
  capability : echoCap ∈ b.grants

/-- What the two parties draw and read of their clocks for the envelopes of an exchange. -/
structure EchoEnv where
  challengeId : Uuid
  challengeTime : Timestamp
  responseId : Uuid
  responseTime : Timestamp

/-- Identifiers of version 4, and clocks after the epoch. -/
structure EchoEnv.Valid (env : EchoEnv) : Prop where
  challengeId : env.challengeId.checkV4 = .ok ()
  responseId : env.responseId.checkV4 = .ok ()
  challengeTime : 0 ≤ env.challengeTime ∧ env.challengeTime.Fits
  responseTime : 0 ≤ env.responseTime ∧ env.responseTime.Fits

section

variable {peer : Interop} {holder : Signer} {b : TctBuilder} {clock now : Timestamp}
  {issued : IssuedTct} {kp kh : VerifyingKey}

namespace EchoToken

theorem claims (h : EchoToken P peer holder b clock issued) (hh : holder.Lawful P kh) :
    issued.claims.Writable P ∧ issued.claims.sub = holder.aid ∧
      issued.claims.jkt = kh.toJwkThumbprintSha256 P ∧ echoCap ∈ issued.claims.grants ∧
      signCompact b.issuerKey typTct issued.claims.toValue = .ok issued.token := by
  obtain ⟨d, hd, ht, -, hc⟩ := TctBuilder.build_eq_ok.mp h.built
  obtain ⟨hw, -, -, -⟩ := TctBuilder.writable_of_draft h.wellTyped h.grant hd
  obtain ⟨subject, key, jti, hs, -, hk, -, -, -, -, -, hb, rfl⟩ :=
    (TctBuilder.draft_eq_ok h.grant).mp hd
  obtain rfl : subject = holder.aid := Option.some.inj (hs.symm.trans h.subject)
  have haid := VerifyingKey.fromAid_of_bytes (h.wellTyped.subjectPubkey key hk) hb
  obtain rfl : key = kh := Except.ok.inj (haid.symm.trans hh.1)
  rw [hc]
  exact ⟨hw, rfl, rfl, h.capability, ht⟩

theorem verifyOwnTct (h : EchoToken P peer holder b clock issued) (hP : P.ReadsText)
    (hi : peer.key.Lawful P kp) (hh : holder.Lawful P kh) (hx : issued.claims.Exact)
    (hl : issued.claims.LiveAt now none) :
    Interop.verifyOwnTct P issued.token peer.aid now = .ok (issued.claims.reread P) := by
  obtain ⟨hw, -, -, hcap, ht⟩ := h.claims hh
  have hlawful : b.issuerKey.Lawful P kp := h.issuer ▸ hi
  have hpayload := decodePayloadUnverified_signCompact hlawful ht
  have hget : issued.claims.toValue.canon.get "sub" = some (.str issued.claims.sub.value) := by
    have hf : tctClaimsFields[3]? = some ⟨"sub", .required⟩ := rfl
    exact Serde.get_written (by decide) rfl hf
  have hreread : (P.reread issued.claims.toValue.canon).get "sub" =
      some (.str issued.claims.sub.value) := by
    rw [get_reread P (Json.isObject_canon _), hget]
    rfl
  have hpeek : Interop.peekSub P issued.claims.toValue.jcs = some issued.claims.sub := by
    have hd : (P.reread issued.claims.toValue.canon).distinctKeys = true := by
      rw [Primitives.distinctKeys_reread, Json.distinctKeys_canon _ hw.distinctKeys_toValue]
    simp only [Interop.peekSub, hP.document_jcs (hw.readable_toValue hP), Option.map_some,
      Option.bind_some, Json.collapse_of_distinct _ hd, hreread, Json.asStr, Aid.parse_value]
  have hv : verifyTct P issued.token (ownTctContext peer.aid issued.claims.sub now) =
      .ok ⟨issued.token, issued.claims.reread P, issued.claims.grants⟩ :=
    verifyTct_build hP h.wellTyped hlawful h.grant h.built (congrArg Signer.aid h.issuer.symm) rfl
      hx hl rfl
  simp only [Interop.verifyOwnTct, bind_eq_ok, mapErr_eq_ok, okOr_eq_ok, ensure_eq_ok, pure_eq_ok,
    exists_const]
  exact ⟨_, hpayload, _, hpeek, _, hv, by simpa [TctClaims.reread] using hcap, rfl⟩

end EchoToken

/-- The peer signs its challenge, and the holder answers it. -/
theorem answerEchoChallenge_signed (hP : P.ReadsText) (hi : peer.key.Total P kp)
    (hh : holder.Total P kh) {env : EchoEnv} (he : env.Valid) (token : String) (jti : Uuid)
    (nonce : Nonce) :
    ∃ challenge sig envelope,
      peer.signEchoChallenge ⟨jti, encodeBase64Url nonce.bytes⟩ env.challengeId
        env.challengeTime = .ok challenge ∧
      holder.signJcs nonce.bytes = .ok sig ∧
      signEnvelopeWith holder .popResponse
        (PopResponse.toValue ⟨jti, encodeBase64Url nonce.bytes, sig⟩) env.responseId
        env.responseTime = .ok envelope ∧
      answerEchoChallenge P holder peer.aid token jti (utf8 challenge.toValue.text)
        env.responseId env.responseTime =
          some (utf8 (EchoRequest.toValue ⟨token, envelope.toValue⟩).text) := by
  let payload : EchoChallengePayload := ⟨jti, encodeBase64Url nonce.bytes⟩
  have hpayload : payload.toValue.isObject = true := rfl
  obtain ⟨challenge, hc⟩ := hi.signEnvelopeWith .popChallenge he.challengeId hpayload
    he.challengeTime.1
  obtain ⟨sig, hsig⟩ := hh.signJcs nonce.bytes
  let response : PopResponse := ⟨jti, encodeBase64Url nonce.bytes, sig⟩
  have hresponse : response.toValue.isObject = true := rfl
  obtain ⟨envelope, hr⟩ := hh.signEnvelopeWith .popResponse he.responseId hresponse
    he.responseTime.1
  refine ⟨challenge, sig, envelope, ?_, hsig, hr, ?_⟩
  · exact mapErr_eq_ok.mpr hc
  · have hdecode := decodeEnvelope_signed hP he.challengeTime.2
      (readable_echoChallengePayload payload) hc
    have hverify := (verifyEnvelopeSignature_signEnvelopeWith hi.lawful hc).2
    have hpop : ∀ t, signPopResponse ⟨jti, encodeBase64Url nonce.bytes, t⟩ holder =
        .ok response := by
      intro t
      simp only [signPopResponse, signNonce, decodeStrict_encodeBase64Url, okOr_some, ok_bind,
        hsig, mapErr_ok]
      rfl
    have hkey : VerifyingKey.fromAid P peer.aid = .ok kp := hi.lawful.1
    have hparts : challenge.messageType = .popChallenge ∧ challenge.sender = peer.aid ∧
        challenge.payload = payload.toValue := by
      obtain ⟨-, -, -, _, -, rfl⟩ := signEnvelopeWith_eq_ok.mp hc
      exact ⟨rfl, rfl, rfl⟩
    have hrespond : respondEcho P holder peer.aid jti challenge env.responseId
        env.responseTime = some envelope := by
      simp only [respondEcho, hparts.1, hparts.2.1, hparts.2.2, guard, if_true, hkey, hverify,
        Except.toOption, decode_echoChallengePayload, hpop, hr, Option.bind_eq_bind,
        Option.bind_some, Option.pure_def, payload, response]
    simp only [answerEchoChallenge, hdecode, Option.bind_eq_bind, Option.bind_some, hrespond,
      Option.pure_def]

/-- The peer is asked to challenge the token while it lives. -/
theorem EchoToken.prepareEchoChallenge (h : EchoToken P peer holder b clock issued)
    (hP : P.ReadsText) (hi : peer.key.Lawful P kp) (hh : holder.Lawful P kh)
    (hx : issued.claims.Exact) (hl : issued.claims.LiveAt now none) (nonce : Nonce) :
    peer.prepareEchoChallenge P none (utf8 (echoChallengeRequestValue issued.token).text)
      (some nonce) now = .ok (issued.claims.reread P, nonce) := by
  have hbody : (P.document (utf8 (echoChallengeRequestValue issued.token).text)).bind
      decodeEchoChallengeRequest = some issued.token := by
    rw [hP.document_text (readable_echoChallengeRequest (n := 126) issued.token), Option.bind_some,
      decode_echoChallengeRequest]
  have hclaims := h.verifyOwnTct hP hi hh hx hl
  simp only [Interop.prepareEchoChallenge, bind_eq_ok, okOr_eq_ok, pure_eq_ok]
  exact ⟨(), rfl, _, hbody, _, hclaims, nonce, rfl, rfl⟩

/-- The peer reads the answer of a holder to a challenge of its token, and takes its proof. -/
theorem EchoToken.readEcho (h : EchoToken P peer holder b clock issued) (hP : P.ReadsText)
    (hi : peer.key.Lawful P kp) (hh : holder.Lawful P kh) (hx : issued.claims.Exact)
    (hl : issued.claims.LiveAt now none)
    {nonce : Nonce} {sig : String} {envelope : AitpEnvelope} {messageId : Uuid}
    {timestamp : Timestamp} (ht : timestamp.Fits) (hsig : holder.signJcs nonce.bytes = .ok sig)
    (he : signEnvelopeWith holder .popResponse
      (PopResponse.toValue ⟨issued.claims.jti, encodeBase64Url nonce.bytes, sig⟩) messageId
      timestamp = .ok envelope) :
    peer.readEcho P none (utf8 (EchoRequest.toValue ⟨issued.token, envelope.toValue⟩).text) now =
        .ok ⟨issued.token, issued.claims.reread P, envelope,
          ⟨issued.claims.jti, encodeBase64Url nonce.bytes, sig⟩⟩ ∧
      Interop.proveEcho P ⟨issued.token, issued.claims.reread P, envelope,
        ⟨issued.claims.jti, encodeBase64Url nonce.bytes, sig⟩⟩ now = .ok () := by
  let response : PopResponse := ⟨issued.claims.jti, encodeBase64Url nonce.bytes, sig⟩
  obtain ⟨-, hsub, hjkt, -, -⟩ := h.claims hh
  have hreadable := readable_signEnvelopeWith (n := 124) hP ht (readable_popResponse response) he
  obtain ⟨hlimit, hdistinct, hparse⟩ := parseEnvelopeWire_signEnvelopeWith hP hh ht
    (distinctKeys_popResponse response) (readable_popResponse response) he
  have hverify := (verifyEnvelopeSignature_signEnvelopeWith hh he).2
  have hparts : envelope.messageType = .popResponse ∧ envelope.sender = holder.aid ∧
      envelope.payload = response.toValue := by
    obtain ⟨-, -, -, _, -, rfl⟩ := signEnvelopeWith_eq_ok.mp he
    exact ⟨rfl, rfl, rfl⟩
  constructor
  · have hbody : (P.document (utf8 (EchoRequest.toValue ⟨issued.token, envelope.toValue⟩).text)).bind
        decodeEchoRequest = some ⟨issued.token, envelope.toValue⟩ := by
      rw [hP.document_text (readable_echoRequest (n := 126) hreadable), Option.bind_some,
        decode_echoRequest hdistinct]
    have hclaims := h.verifyOwnTct hP hi hh hx hl
    have hresponse : decodePopResponse envelope.payload = some response := by
      rw [hparts.2.2, decode_popResponse]
    simp only [Interop.readEcho, bind_eq_ok, okOr_eq_ok, mapErr_eq_ok, pure_eq_ok]
    exact ⟨(), rfl, _, hbody, _, hclaims, _, CheckedJson.fromSlice_text hP hlimit hdistinct, _,
      hparse, response, hresponse, rfl⟩
  · have hkey : VerifyingKey.fromAid P (issued.claims.reread P).sub = .ok kh := by
      rw [TctClaims.reread, hsub]
      exact hh.1
    have hnonce : verifyNonce P kh (encodeBase64Url nonce.bytes) sig TctError.popFailed =
        .ok () := by
      obtain ⟨hs, hv⟩ := signJcs_verifies hh hsig
      exact verifyNonce_eq_ok.mpr ⟨nonce.bytes, decodeStrict_encodeBase64Url _, hs, hv⟩
    have hpast : now.isInTheFuture now = false := by simp [Timestamp.isInTheFuture]
    simp only [Interop.proveEcho, verifyPopResponse, bind_eq_ok, mapErr_eq_ok, ensure_eq_ok,
      exists_const]
    refine ⟨decide_eq_true hparts.1, decide_eq_true (hparts.2.1.trans hsub.symm), kh, hkey, (),
      hverify, ?_, beq_self_eq_true _, ?_, kh, hkey, ?_, hnonce⟩
    · simp [TctClaims.reread]
    · rw [hpast]
      rfl
    · simpa [TctClaims.reread] using hjkt

end

end Aitp
