import Aitp.Core.EnvelopeSign
import Aitp.Core.Error
import Aitp.Core.NonceStore
import Aitp.Tct.Verifier

/-! # Renewal messages

`renewal/wire.rs`, `renewal/pop.rs`, `renewal/peek.rs` and `renewal/error.rs`: what a
holder sends to renew a token, what it is answered, and the input its proof of
possession signs.
-/

namespace Aitp

/-! ## The proof of possession -/

def renewalPopDomainTag : Bytes :=
  asBytes "aitp-renewal-pop-v1" ++ [0]

def renewalPopInput (iss jti : String) (popNonce : Bytes) : Bytes :=
  renewalPopDomainTag ++ asBytes iss ++ 0 :: asBytes jti ++ 0 :: popNonce

/-! ## Messages -/

structure TctRenewalPayload where
  currentTct : String
  popNonce : String
  popSignature : String

structure RenewalResponsePayload where
  tct : String
  grantVoucher : Option String
  popNonceEcho : String

def renewalResponsePayloadMembers : List String :=
  ["tct", "grant_voucher", "pop_nonce_echo"]

inductive RenewalErrorCode where
  | registered (code : ErrorCode)
  | renewalUnavailable
  deriving DecidableEq

namespace RenewalErrorCode

def asStr : RenewalErrorCode → String
  | registered code => code.asStr
  | renewalUnavailable => "RENEWAL_UNAVAILABLE"

/-- `FromStr for RenewalErrorCode`. -/
def fromStr (s : String) : Option RenewalErrorCode :=
  if s = "RENEWAL_UNAVAILABLE" then some renewalUnavailable
  else (ErrorCode.fromStr s).map registered

end RenewalErrorCode

structure RenewalErrorPayload where
  code : RenewalErrorCode
  reason : String
  retryable : Bool

def tctRenewalPayloadFields : List FieldSpec :=
  [⟨"current_tct", .required⟩, ⟨"pop_nonce", .required⟩, ⟨"pop_signature", .required⟩]

def renewalResponsePayloadFields : List FieldSpec :=
  [⟨"tct", .required⟩, ⟨"grant_voucher", .default⟩, ⟨"pop_nonce_echo", .required⟩]

def renewalErrorPayloadFields : List FieldSpec :=
  [⟨"code", .required⟩, ⟨"reason", .default⟩, ⟨"retryable", .default⟩]

def decodeTctRenewalPayload (v : Json) : Option TctRenewalPayload :=
  match Serde.structFields tctRenewalPayloadFields v with
  | some [some currentTct, some popNonce, some popSignature] => do
    return {
      currentTct := ← currentTct.asStr
      popNonce := ← popNonce.asStr
      popSignature := ← popSignature.asStr }
  | _ => none

def decodeRenewalResponsePayload (v : Json) : Option RenewalResponsePayload :=
  match Serde.structFields renewalResponsePayloadFields v with
  | some [some tct, grantVoucher, some popNonceEcho] => do
    return {
      tct := ← tct.asStr
      grantVoucher := ← Serde.optional Json.asStr grantVoucher
      popNonceEcho := ← popNonceEcho.asStr }
  | _ => none

def decodeRetryable : Json → Option Bool
  | .bool b => some b
  | _ => none

def decodeRenewalErrorPayload (v : Json) : Option RenewalErrorPayload :=
  match Serde.openStructFields renewalErrorPayloadFields v with
  | some [some code, reason, retryable] => do
    return {
      code := ← code.asStr.bind RenewalErrorCode.fromStr
      reason := (← Serde.present Json.asStr reason).getD ""
      retryable := (← Serde.present decodeRetryable retryable).getD false }
  | _ => none

def TctRenewalPayload.toValue (m : TctRenewalPayload) : Json :=
  .obj <| Serde.written tctRenewalPayloadFields
    [some (.str m.currentTct), some (.str m.popNonce), some (.str m.popSignature)]

def RenewalResponsePayload.toValue (m : RenewalResponsePayload) : Json :=
  .obj <| Serde.written renewalResponsePayloadFields
    [some (.str m.tct), m.grantVoucher.map .str, some (.str m.popNonceEcho)]

def RenewalErrorPayload.toValue (m : RenewalErrorPayload) : Json :=
  .obj <| Serde.written renewalErrorPayloadFields
    [some (.str m.code.asStr), some (.str m.reason), some (.bool m.retryable)]

/-! ## Errors -/

/-- `RenewalError`, without message texts. -/
inductive RenewalError where
  | requestMalformed
  | nonceMalformed
  | replayed
  | grantsWithdrawn
  | nonceStore
  | tct (error : TctError)
  | envelope (error : EnvelopeError)
  deriving DecidableEq

/-- `RenewalResponseError`, without message texts. -/
inductive RenewalResponseError where
  | invalidEnvelope
  | unknownField (field : String)
  | timestampExpired
  | invalidSignature
  | peerMismatch
  | nonceMismatch
  | tct (error : TctError)
  | audienceMismatch
  | grantOverflow
  | refused (code : RenewalErrorCode) (reason : String) (retryable : Bool)
  deriving DecidableEq

/-! ## What is read without verifying -/

def decodeRenewalNonce (popNonce : String) : Except RenewalError Nonce := do
  let bytes ← okOr (decodeStrict popNonce) .nonceMalformed
  if h : bytes.length = nonceLen then return ⟨bytes, h⟩ else .error .nonceMalformed

section

variable (P : Primitives)

def parseRenewalRequest (body : Bytes) : Except RenewalError TctRenewalPayload := do
  mapErr (fun _ => .requestMalformed) (rejectDuplicateKeys P body)
  okOr ((P.document body).bind decodeTctRenewalPayload) .requestMalformed

def Renewal.peekClaims (token : String) : Except TctError TctClaims := do
  let peek ← mapErr .crypto (decodePayloadUnverified token)
  mapErr .claimsMalformed (rejectDuplicateKeys P peek)
  let value ← okOr (P.document peek) .undecodable
  if peekTyp P token = some typTct then
    ensureMembers value tctClaimsMembers .unknownField
  okOr (decodeTctClaims value) .undecodable

end

/-! ## Reading what was written -/

variable {P : Primitives}

theorem decodeRenewalNonce_eq_ok {popNonce : String} {n : Nonce} :
    decodeRenewalNonce popNonce = .ok n ↔ popNonce = encodeBase64Url n.bytes := by
  simp only [decodeRenewalNonce, bind_eq_ok, okOr_eq_ok]
  constructor
  · rintro ⟨bytes, hb, h⟩
    split_ifs at h
    obtain rfl := Except.ok.inj h
    exact decodeStrict_injective hb (decodeStrict_encodeBase64Url bytes)
  · rintro rfl
    refine ⟨n.bytes, decodeStrict_encodeBase64Url _, ?_⟩
    rw [dif_pos n.length_eq]
    rfl

namespace TctRenewalPayload

variable {m : TctRenewalPayload}

theorem decode_toValue : decodeTctRenewalPayload m.toValue = some m := by
  unfold decodeTctRenewalPayload toValue
  rw [Serde.structFields_obj_written (by decide) rfl (by simp [tctRenewalPayloadFields])]
  simp [Json.asStr]

theorem readable_toValue {n : ℕ} : m.toValue.readable P.keeps (n + 1) = true := by
  refine Serde.readable_written ?_
  simp only [List.all_cons, List.all_nil, Option.all_some, Json.readable_str, Bool.and_true]

theorem distinctKeys_toValue : m.toValue.distinctKeys = true := by
  refine Serde.distinctKeys_written_of_all (by decide) ?_
  simp only [List.all_cons, List.all_nil, Option.all_some, Json.distinctKeys_str, Bool.and_true]

end TctRenewalPayload

theorem parseRenewalRequest_text (hP : P.ReadsText) (m : TctRenewalPayload) :
    parseRenewalRequest P (utf8 m.toValue.text) = .ok m := by
  have hd : P.document (utf8 m.toValue.text) = some m.toValue :=
    hP.document_text TctRenewalPayload.readable_toValue
  have hf := Primitives.document_eq_some.mp hd
  have hr : rejectDuplicateKeys P (utf8 m.toValue.text) = .ok () := by
    simp only [rejectDuplicateKeys, hf, TctRenewalPayload.distinctKeys_toValue, ensure]
    rfl
  simp only [parseRenewalRequest, bind_eq_ok, mapErr_eq_ok, okOr_eq_ok]
  refine ⟨(), hr, ?_⟩
  rw [hd, Option.bind_some]
  exact TctRenewalPayload.decode_toValue

namespace RenewalResponsePayload

variable {m : RenewalResponsePayload}

theorem decode_toValue : decodeRenewalResponsePayload m.toValue = some m := by
  have hs : ∀ o : Option String, Serde.optional Json.asStr (o.map .str) = some o :=
    Serde.optional_map_of fun _ => ⟨by simp, rfl⟩
  unfold decodeRenewalResponsePayload toValue
  rw [Serde.structFields_obj_written (by decide) rfl (by simp [renewalResponsePayloadFields])]
  simp [Json.asStr, hs]

theorem readable_toValue {n : ℕ} : m.toValue.readable P.keeps (n + 1) = true := by
  refine Serde.readable_written ?_
  simp only [List.all_cons, List.all_nil, Option.all_some, Json.readable_str,
    Json.readable_map_str, Bool.and_true]

theorem distinctKeys_toValue : m.toValue.distinctKeys = true := by
  refine Serde.distinctKeys_written_of_all (by decide) ?_
  simp only [List.all_cons, List.all_nil, Option.all_some, Json.distinctKeys_str,
    Json.all_distinctKeys_map_str, Bool.and_true]

end RenewalResponsePayload

end Aitp
