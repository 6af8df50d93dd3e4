import Aitp.Foundation.WindowTable
import Aitp.Renewal.IssuerRuns
import Aitp.Transport.RateLimit
import Aitp.Transport.RevocationFetch
import Aitp.Transport.SourceIp

/-! # The renewal endpoint

`renewal/server.rs` and the exchange of `renewal/client.rs`. A request passes the limiter of its
source, is read, and is processed against the issuer's own revocation list. What the holder makes of
the answer is what the issuer decided.
-/

namespace Aitp

open SlidingWindow

/-! ## Codes -/

def tctErrorCode : TctError → RenewalErrorCode
  | .popFailed => .registered .popResponseInvalid
  | .revoked => .registered .tctRevoked
  | .revocationUnavailable => .renewalUnavailable
  | .safeSubsetEmpty => .registered .policyViolation
  | .expired => .registered .tctExpired
  | .expiresAfterManifest => .registered .tctExpiresAfterManifest
  | .unknownField _ => .registered .unknownField
  | .versionUnknown => .registered .unknownVersion
  | .claimsMalformed _ | .undecodable | .missingField _ | .cnfMalformed | .emptyGrants
  | .grantWhitespace _ | .crypto (.jwsMalformed _) => .registered .invalidEnvelope
  | .crypto (.algMismatch _) => .registered .tokenAlgMismatch
  | .crypto (.typMismatch ..) => .registered .tokenTypMismatch
  | _ => .registered .tctSignatureInvalid

namespace RenewalError

def errorCode : RenewalError → RenewalErrorCode
  | requestMalformed | nonceMalformed => .registered .popResponseInvalid
  | replayed => .registered .replayDetected
  | grantsWithdrawn => .registered .policyViolation
  | nonceStore => .renewalUnavailable
  | tct e => tctErrorCode e
  | envelope _ => .registered .invalidEnvelope

def isLocalFault : RenewalError → Bool
  | nonceStore | envelope _ | tct (.crypto .signer) => true
  | _ => false

end RenewalError

/-! ## Requests and answers -/

/-- What comes of reading a body. -/
inductive RequestBody where
  | read (body : Bytes)
  | unreadable
  | tooSlow

/-- A request: the address of its connection, if the listener gives one, what is read of its
headers, and its body. -/
structure RenewalHttpRequest where
  peer : Option IpAddr
  forwarding : ForwardingHeaders
  contentType : Option Bytes
  body : RequestBody

/-- What a request finds: the limiter's clock, the issuer's list if it can be had, the clock of the
renewal and that of a refusal, the identifiers drawn, and the texts of errors. -/
structure RenewalEnv where
  instant : ℕ
  list : Option RevocationListEnvelope
  now : Timestamp
  refusedAt : Timestamp
  jti : RandomV4
  messageId : RandomV4
  text : String
  signerText : String

/-- The rate limit of a `RenewalServer`, in requests in any rolling 60 seconds. -/
structure RenewalRateLimit where
  requestsPerSource : ℕ
  trustedProxies : List TrustedProxy

/-- `RenewalServer`; what it calls is passed to its handler. -/
structure RenewalServer where
  signer : Signer
  manifest : Manifest
  grantPolicy : Option RenewalGrantPolicyFn
  rateLimit : Option RenewalRateLimit
  bodyLimit : ℕ
  /-- `KeyMismatch` otherwise. -/
  keyed : signer.aid = manifest.aid

/-- `RouteState`: the limiter's events, and the nonce store. -/
structure RouteState (σ : Type) where
  events : Table String
  store : σ

/-- A response. -/
inductive RenewalAnswer where
  | renewed (envelope : AitpEnvelope)
  | refused (status : ℕ) (envelope : AitpEnvelope)
  | signerFailure (text : String)
  | tooManyRequests

namespace RenewalAnswer

def status : RenewalAnswer → ℕ
  | renewed _ => 200
  | refused status _ => status
  | signerFailure _ => 500
  | tooManyRequests => 429

/-- The unsigned body of `local_signer_failure`. -/
def signerFailureValue (text : String) : Json :=
  .obj [("error", .obj [("code", .str ErrorCode.invalidEnvelope.asStr),
    ("message", .str ("internal error: local signing backend failed: " ++ text))])]

def body : RenewalAnswer → Bytes
  | renewed e | refused _ e => utf8 e.toValue.text
  | signerFailure text => utf8 (signerFailureValue text).text
  | tooManyRequests => []

end RenewalAnswer

/-! ## The handler -/

def rateLimitSweepThreshold : ℕ := 4096

def rateLimitAllows (limit : RenewalRateLimit) (events : Table String) (source : IpAddr)
    (now : ℕ) : Bool × Table String :=
  events.allow rateWindow rateLimitSweepThreshold limit.requestsPerSource now
    (transportKey (some source))

def refusal (signer : Signer) (env : RenewalEnv) (status : ℕ) (code : RenewalErrorCode)
    (reason : String) (retryable : Bool) : RenewalAnswer :=
  match renewalErrorEnvelope signer code reason retryable env.messageId.id env.refusedAt with
  | .ok e => .refused status e
  | .error _ => .signerFailure env.signerText

def failure (signer : Signer) (env : RenewalEnv) (err : RenewalError) : RenewalAnswer :=
  match err.errorCode with
  | .renewalUnavailable => refusal signer env 503 .renewalUnavailable env.text true
  | code =>
    if err.isLocalFault then .signerFailure env.text
    else refusal signer env 400 code env.text false

/-- The check against the issuer's own list. -/
def ownRevocation (list : Option RevocationListEnvelope) : RevocationCheckFn := fun query =>
  list.map fun env => if query.jti ∈ env.revoked then .revoked else .clear

namespace RenewalServer

variable (P : Primitives) (s : RenewalServer)

/-- The source of a request from an address. -/
def sourceOf (limit : RenewalRateLimit) (peer : IpAddr) (request : RenewalHttpRequest) : IpAddr :=
  resolveSourceIp peer request.forwarding limit.trustedProxies

/-- The limiter of `handle_renew`: its answer, unless the request goes on. -/
def throttle (events : Table String) (request : RenewalHttpRequest) (env : RenewalEnv) :
    Option RenewalAnswer × Table String :=
  match s.rateLimit with
  | none => (none, events)
  | some limit =>
    match request.peer with
    | none =>
      (some (refusal s.signer env 500 (.registered .invalidEnvelope)
        "internal error: no client address for the rate limit" true), events)
    | some peer =>
      let (allowed, events) := rateLimitAllows limit events (sourceOf limit peer request) env.instant
      (if allowed then none else some .tooManyRequests, events)

/-- What `handle_renew` reads of a request, or its answer. -/
def readRequest (request : RenewalHttpRequest) (env : RenewalEnv) :
    Except RenewalAnswer TctRenewalPayload := do
  let contentType := ((request.contentType.bind headerToStr).getD []).map Char.toLower
  ensure ("application/json".toList.isPrefixOf contentType)
    (refusal s.signer env 400 (.registered .popResponseInvalid)
      "expected Content-Type: application/json" false)
  let tooLarge := refusal s.signer env 400 (.registered .invalidEnvelope)
    ("oversized or unreadable body: " ++ env.text) false
  match request.body with
  | .unreadable => .error tooLarge
  | .tooSlow =>
    .error (refusal s.signer env 400 (.registered .invalidEnvelope) "body read exceeded 5s" false)
  | .read body =>
    ensure (decide (body.length ≤ s.bodyLimit)) tooLarge
    mapErr (failure s.signer env) (parseRenewalRequest P body)

/-- What a request is processed with. -/
def context (env : RenewalEnv) : RenewalContext where
  manifestExpiresAt := s.manifest.expiresAt
  offeredGrants := s.manifest.offeredCapabilities
  revocation := .check (ownRevocation env.list)
  grantPolicy := s.grantPolicy
  ttl := defaultTctTtl
  mintVoucher := true
  now := env.now

/-- The answer to a request that was processed. -/
def answer (payload : TctRenewalPayload) (env : RenewalEnv) :
    Except RenewalError IssuedTct → RenewalAnswer
  | .error e => failure s.signer env e
  | .ok renewed =>
    match renewalResponseEnvelope s.signer renewed payload.popNonce env.messageId.id env.now with
    | .ok e => .renewed e
    | .error _ => .signerFailure env.signerText

def handleRenew {σ : Type} (nonceStore : NonceStore σ) (st : RouteState σ)
    (request : RenewalHttpRequest) (env : RenewalEnv) : RouteState σ × RenewalAnswer :=
  match s.throttle st.events request env with
  | (some answer, events) => (⟨events, st.store⟩, answer)
  | (none, events) =>
    match s.readRequest P request env with
    | .error answer => (⟨events, st.store⟩, answer)
    | .ok payload =>
      let r := processRenewalRequest P nonceStore st.store payload s.signer (s.context env) env.jti
      (⟨events, r.1⟩, s.answer payload env r.2)

end RenewalServer

/-! ## The holder -/

/-- The request that `renew` posts. -/
def TctRenewalPayload.posted (payload : TctRenewalPayload) (peer : Option IpAddr)
    (forwarding : ForwardingHeaders) : RenewalHttpRequest where
  peer := peer
  forwarding := forwarding
  contentType := some (asBytes "application/json")
  body := .read (utf8 payload.toValue.text)

theorem Serde.openStructFields_of_structFields {fs : List FieldSpec} {v : Json}
    {ws : List (Option Json)} (h : Serde.structFields fs v = some ws) :
    Serde.openStructFields fs v = some ws := by
  cases v with
  | obj ms =>
    rw [Serde.structFields] at h
    split_ifs at h with hc
    have hd := (Bool.and_eq_true _ _ ▸ hc).1
    rw [Serde.openStructFields, if_pos ((of_decide_eq_true hd).filter _), h]
  | arr vs => exact h
  | _ => cases h

theorem ErrorCode.fromStr_asStr (c : ErrorCode) : ErrorCode.fromStr c.asStr = some c := by
  cases c <;> rfl

theorem RenewalErrorCode.fromStr_asStr (c : RenewalErrorCode) :
    RenewalErrorCode.fromStr c.asStr = some c := by
  cases c with
  | registered code =>
    have hne : code.asStr ≠ "RENEWAL_UNAVAILABLE" := by cases code <;> decide
    rw [fromStr, asStr, if_neg hne, ErrorCode.fromStr_asStr, Option.map_some]
  | renewalUnavailable => rfl

namespace RenewalErrorPayload

variable {m : RenewalErrorPayload}

theorem decode_toValue : decodeRenewalErrorPayload m.toValue = some m := by
  unfold decodeRenewalErrorPayload toValue
  rw [Serde.openStructFields_of_structFields (Serde.structFields_obj_written (by decide) rfl
    (by simp [renewalErrorPayloadFields]))]
  simp [Json.asStr, Serde.present, decodeRetryable, RenewalErrorCode.fromStr_asStr]

theorem readable_toValue {p : Json → Bool} {n : ℕ} : m.toValue.readable p (n + 1) = true := by
  refine Serde.readable_written ?_
  simp only [List.all_cons, List.all_nil, Option.all_some, Json.readable_str, Bool.and_true]
  rfl

theorem distinctKeys_toValue : m.toValue.distinctKeys = true := by
  refine Serde.distinctKeys_written_of_all (by decide) ?_
  simp only [List.all_cons, List.all_nil, Option.all_some, Json.distinctKeys_str, Bool.and_true]
  rfl

end RenewalErrorPayload

/-! ## What the holder learns -/

section

variable {P : Primitives} {signer : Signer} {key : VerifyingKey} {env : RenewalEnv}
  {e : AitpEnvelope} {ctx : RenewalResponseContext} {claims : TctClaims}

end

section

variable {P : Primitives} {key : VerifyingKey} {request : TctRenewalPayload} {issuerKey : Signer}
  {ctx : RenewalContext} {checked : CheckedRenewal} {drawn : RandomV4} {renewed : IssuedTct}
  {rctx : RenewalResponseContext}

end

/-! ## Over HTTP -/

/-- A holder asks to renew a token that names it and the issuer: its request is one that the
endpoint reads, it knows the issuer's manifest, its clock is at most the tolerance ahead, and what
it would be granted expires at a time that is signed as it is. -/
structure RenewalServer.Asked (P : Primitives) (s : RenewalServer) (payload : TctRenewalPayload)
    (env : RenewalEnv) (ctx : RenewalResponseContext) (claims : TctClaims) : Prop where
  current : ctx.currentTct = payload.currentTct
  nonce : ctx.sentPopNonce = payload.popNonce
  token : Renewal.peekClaims P payload.currentTct = .ok claims
  iss : claims.iss = s.signer.aid
  sub : claims.sub = ctx.selfAid
  manifest : ctx.issuerManifestExpiresAt = some s.manifest.expiresAt
  manifestFits : s.manifest.expiresAt.Fits
  size : (utf8 payload.toValue.text).length ≤ s.bodyLimit
  epoch : 0 ≤ env.now ∧ 0 ≤ env.refusedAt
  fits : ctx.now.Fits ∧ env.refusedAt.Fits
  now : env.now ≤ ctx.now ∧ ctx.now ≤ env.now + defaultTimestampTolerance
  refusedAt : env.refusedAt.isWithinToleranceOf ctx.now defaultTimestampTolerance = true
  live : ctx.now ≤ s.manifest.expiresAt
  exact : (min (env.now.saturatingAdd defaultTctTtl) s.manifest.expiresAt).Exact

namespace RenewalServer

variable {P : Primitives} {s : RenewalServer} {key : VerifyingKey} {payload : TctRenewalPayload}
  {env : RenewalEnv} {ctx : RenewalResponseContext} {claims : TctClaims} {peer : Option IpAddr}
  {forwarding : ForwardingHeaders}

theorem readRequest_posted (hP : P.ReadsText)
    (hsize : (utf8 payload.toValue.text).length ≤ s.bodyLimit) :
    s.readRequest P (payload.posted peer forwarding) env = .ok payload := by
  have htype : "application/json".toList.isPrefixOf
      (((some (asBytes "application/json")).bind headerToStr).getD [] |>.map Char.toLower) =
        true := by decide
  simp only [readRequest, TctRenewalPayload.posted, bind_eq_ok, ensure_eq_ok, mapErr_eq_ok,
    exists_const]
  exact ⟨htype, decide_eq_true hsize, parseRenewalRequest_text hP payload⟩

theorem failure_eq (signer : Signer) (err : RenewalError) : failure signer env err =
    if err.errorCode = .renewalUnavailable then
      refusal signer env 503 .renewalUnavailable env.text true
    else if err.isLocalFault then .signerFailure env.text
    else refusal signer env 400 err.errorCode env.text false := by
  unfold failure
  cases err.errorCode with
  | renewalUnavailable => rfl
  | registered code => rw [if_neg (by rintro ⟨⟩)]

end RenewalServer

end Aitp
