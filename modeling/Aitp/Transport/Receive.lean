import Aitp.Core.EnvelopeWire
import Aitp.Core.Error
import Aitp.Crypto.Keys
import Aitp.Transport.ReplayStore

/-! # Receiving an envelope

`receive_envelope` of `transport/server.rs`: the checks every handshake request
passes before its handler runs, in order, and what they leave in the server's
replay guard and rate limiter. The clock is read once for a request.
-/

namespace Aitp

/-- `ResponseError`, without message texts. -/
inductive ResponseError where
  | body
  | aitp (code : ErrorCode)
  | tooManyRequests
  deriving DecidableEq

/-- `RateLimitConfig`, requests in any rolling 60 seconds. -/
structure RateLimitConfig where
  requestsPerSource : ℕ
  requestsPerAid : Option ℕ

/-- What a handshake server is configured with. -/
structure ServerConfig where
  replayWindow : ℕ := 300 * nanosPerSec
  rateLimit : Option RateLimitConfig

/-- The `rate_limit_events` map: when each key's requests were allowed. -/
abbrev Events := String → Option (List ℕ)

/-- `entry(key).or_default()`. -/
def Events.entry (events : Events) (key : String) : List ℕ :=
  (events key).getD []

/-- The replay guard and the rate limiter's events. -/
structure ServerState where
  seen : Seen
  events : Events

/-- A request: its `Content-Type`, its body unless reading it failed, the rate limiter's key for
its source, and the clock when it is handled. -/
structure Request where
  contentType : String
  body : Option Bytes
  source : String
  now : ℕ

/-- `Timestamp::now`, from a clock that counts from the epoch. -/
def timestampAt (now : ℕ) : Timestamp :=
  (now / nanosPerSec : ℕ)

/-- The events of one key in the last 60 seconds. -/
def recent (events : Events) (now : ℕ) (key : String) : Events :=
  Function.update events key
    (some ((events.entry key).filter fun t => decide (now - t < 60 * nanosPerSec)))

/-- Record an event. -/
def addEvent (events : Events) (now : ℕ) (key : String) : Events :=
  Function.update events key (some (events.entry key ++ [now]))

/-- `rate_limit_check`: whether the request is allowed. -/
def rateLimitCheck (config : Option RateLimitConfig) (events : Events) (source : String)
    (peer : Option Aid) (now : ℕ) : Bool × Events :=
  match config with
  | none => (true, events)
  | some c =>
    let events := recent events now source
    if c.requestsPerSource ≤ (events.entry source).length then (false, events)
    else
      match c.requestsPerAid, peer with
      | some limit, some aid =>
        let key := "aid:" ++ aid.value
        let events := recent events now key
        if limit ≤ (events.entry key).length then (false, events)
        else (true, addEvent (addEvent events now source) now key)
      | _, _ => (true, addEvent events now source)

/-- The error code of a parse error. -/
def EnvelopeParseError.errorCode : EnvelopeParseError → ErrorCode
  | .unknownVersion _ => .unknownVersion
  | .unknownField _ => .unknownField
  | _ => .invalidEnvelope

namespace Request

variable (P : Primitives) (request : Request)

/-- The body as checked JSON. -/
def value : Option CheckedJson :=
  (request.body.bind P.document).bind CheckedJson.ofDocument

/-- A member of the body. -/
def member (k : String) : Option Json :=
  (request.value P).bind fun v => v.value.get k

/-- The `message_id` of the body, in any form of a UUID. -/
def messageId : Option Uuid :=
  ((request.member P "message_id").bind Json.asStr).bind Uuid.tryParse

/-- The `sender` of the body, not authenticated. -/
def sender : Option Aid :=
  (((request.member P "sender").bind fun v => v.get "agent_id").bind Json.asStr).bind Aid.parse

/-- The check of the body's `timestamp`, if it is an integer. -/
def checkTimestamp : Except ResponseError Unit :=
  ifPresent ((request.member P "timestamp").bind Serde.i64) fun ts =>
    ensure (Timestamp.isWithinToleranceOf ts (timestampAt request.now) defaultTimestampTolerance)
      (.aitp .timestampExpired)

/-- The checks of `receive_envelope` that leave no trace. -/
def parse (expected : MessageType) : Except ResponseError AitpEnvelope := do
  request.checkTimestamp P
  ensure ("application/json".toList.isPrefixOf (request.contentType.toList.map Char.toLower))
    (.aitp .invalidEnvelope)
  let value ← okOr (request.value P) (.aitp .invalidEnvelope)
  let envelope ← mapErr (fun e => .aitp e.errorCode) (parseEnvelopeWire value)
  ensure (decide (envelope.messageType = expected)) (.aitp .invalidEnvelope)
  return envelope

/-- `check_and_record_message_id`, when the body has a `message_id`. -/
def checkMessageId (config : ServerConfig) (seen : Seen) : Bool × Seen :=
  match request.messageId P with
  | some mid => seen.checkAndRecord mid.hyphenated request.now config.replayWindow
  | none => (true, seen)

end Request

def receiveEnvelope (P : Primitives) (config : ServerConfig) (state : ServerState)
    (request : Request) (expected : MessageType) :
    Except ResponseError AitpEnvelope × ServerState :=
  if request.body.isNone then (.error .body, state)
  else
    let (fresh, seen) := request.checkMessageId P config state.seen
    if !fresh then (.error (.aitp .replayDetected), { state with seen := seen })
    else
      let (allowed, events) :=
        rateLimitCheck config.rateLimit state.events request.source (request.sender P) request.now
      if !allowed then (.error .tooManyRequests, ⟨seen, events⟩)
      else (request.parse P expected, ⟨seen, events⟩)

variable {P : Primitives} {config : ServerConfig} {state : ServerState} {request : Request}
  {expected : MessageType} {e : AitpEnvelope}

/-- What `receive_envelope` checked of an envelope it returns. -/
structure Passes (P : Primitives) (config : ServerConfig) (state : ServerState)
    (request : Request) (expected : MessageType) (e : AitpEnvelope) : Prop where
  fresh : (state.seen.checkAndRecord e.messageId.hyphenated request.now config.replayWindow).1
  allowed : (rateLimitCheck config.rateLimit state.events request.source (request.sender P)
    request.now).1
  timely : e.timestamp.isWithinToleranceOf (timestampAt request.now) defaultTimestampTolerance
  json : "application/json".toList.isPrefixOf (request.contentType.toList.map Char.toLower)
  parses : ∃ value, request.value P = some value ∧ parseEnvelopeWire value = .ok e
  messageType : e.messageType = expected

theorem members_of_parses
    (h : ∃ value, request.value P = some value ∧ parseEnvelopeWire value = .ok e) :
    request.messageId P = some e.messageId ∧
      (request.member P "timestamp").bind Serde.i64 = some e.timestamp := by
  obtain ⟨value, hv, hp⟩ := h
  obtain ⟨ms, hm, hr, -, -⟩ := parseEnvelopeWire_ok hp
  constructor
  · simp only [Request.messageId, Request.member, hv, Option.bind_some, hm, Json.get,
      Json.members, hr.messageId, Json.asStr, Uuid.tryParse_hyphenated]
  · simp only [Request.member, hv, Option.bind_some, hm, Json.get, Json.members, hr.timestamp]
    exact hr.timestampRange

theorem parse_ok_iff : request.parse P expected = .ok e ↔
    (∀ ts, (request.member P "timestamp").bind Serde.i64 = some ts →
      Timestamp.isWithinToleranceOf ts (timestampAt request.now) defaultTimestampTolerance) ∧
    "application/json".toList.isPrefixOf (request.contentType.toList.map Char.toLower) ∧
    (∃ value, request.value P = some value ∧ parseEnvelopeWire value = .ok e) ∧
    e.messageType = expected := by
  simp only [Request.parse, Request.checkTimestamp, bind_eq_ok, ifPresent_eq_ok, ensure_eq_ok,
    okOr_eq_ok, mapErr_eq_ok, pure_eq_ok, exists_const, decide_eq_true_eq]
  constructor
  · rintro ⟨ht, hj, value, hv, e', hp, he, rfl⟩
    exact ⟨ht, hj, ⟨value, hv, hp⟩, he⟩
  · rintro ⟨ht, hj, ⟨value, hv, hp⟩, he⟩
    exact ⟨ht, hj, value, hv, e, hp, he, rfl⟩

theorem checkMessageId_of_parses {seen : Seen}
    (h : ∃ value, request.value P = some value ∧ parseEnvelopeWire value = .ok e) :
    request.checkMessageId P config seen =
      seen.checkAndRecord e.messageId.hyphenated request.now config.replayWindow := by
  simp only [Request.checkMessageId, (members_of_parses h).1]

theorem body_of_parses
    (h : ∃ value, request.value P = some value ∧ parseEnvelopeWire value = .ok e) :
    request.body.isNone = false := by
  obtain ⟨value, hv, -⟩ := h
  cases hb : request.body with
  | none => simp [Request.value, hb] at hv
  | some => rfl

theorem receiveEnvelope_ok_iff :
    (receiveEnvelope P config state request expected).1 = .ok e ↔
      Passes P config state request expected e := by
  constructor
  · intro h
    unfold receiveEnvelope at h
    split_ifs at h with hb
    simp only at h
    split_ifs at h with hf ha
    obtain ⟨ht, hj, hp, he⟩ := parse_ok_iff.mp h
    rw [checkMessageId_of_parses hp] at hf
    exact ⟨by simpa using hf, by simpa using ha, ht _ (members_of_parses hp).2, hj, hp, he⟩
  · rintro ⟨hf, ha, ht, hj, hp, he⟩
    have hr : request.parse P expected = .ok e := by
      refine parse_ok_iff.mpr ⟨fun ts hts => ?_, hj, hp, he⟩
      rw [(members_of_parses hp).2] at hts
      exact Option.some.inj hts ▸ ht
    simp only [receiveEnvelope, body_of_parses hp, checkMessageId_of_parses hp, hf, ha, hr,
      Bool.not_true, Bool.false_eq_true, if_false]

theorem seen_receiveEnvelope :
    (receiveEnvelope P config state request expected).2.seen =
      if request.body.isNone then state.seen
      else (request.checkMessageId P config state.seen).2 := by
  simp only [receiveEnvelope]
  split_ifs <;> rfl

theorem seen_kept {key : String} {exp : ℕ} (hs : state.seen key = some exp)
    (hlt : request.now < exp) :
    (receiveEnvelope P config state request expected).2.seen key = some exp := by
  rw [seen_receiveEnvelope]
  split_ifs
  · exact hs
  · unfold Request.checkMessageId
    split
    · exact Seen.checkAndRecord_kept hs hlt
    · exact hs

theorem seen_recorded (h : Passes P config state request expected e) :
    (receiveEnvelope P config state request expected).2.seen e.messageId.hyphenated =
      some (expiryAt request.now config.replayWindow) := by
  rw [seen_receiveEnvelope, body_of_parses h.parses, checkMessageId_of_parses h.parses]
  exact Seen.checkAndRecord_self h.fresh

theorem mem_recent {events : Events} {now t : ℕ} {key k : String}
    (h : t ∈ (recent events now key).entry k) : t ∈ events.entry k := by
  unfold recent Events.entry at h
  by_cases hk : k = key
  · subst hk
    rw [Function.update_self] at h
    exact List.mem_of_mem_filter h
  · rwa [Function.update_of_ne hk] at h

theorem mem_addEvent {events : Events} {now t : ℕ} {key k : String}
    (h : t ∈ (addEvent events now key).entry k) : t ∈ events.entry k ∨ t = now := by
  unfold addEvent Events.entry at h
  by_cases hk : k = key
  · subst hk
    rw [Function.update_self] at h
    simpa [Events.entry] using h
  · rw [Function.update_of_ne hk] at h
    exact .inl h

theorem mem_rateLimitCheck {limits : Option RateLimitConfig} {events : Events} {source : String}
    {peer : Option Aid} {now t : ℕ} {k : String}
    (h : t ∈ (rateLimitCheck limits events source peer now).2.entry k) :
    t ∈ events.entry k ∨ t = now := by
  unfold rateLimitCheck at h
  split at h
  · exact .inl h
  · simp only at h
    split_ifs at h with hs
    · exact .inl (mem_recent h)
    · split at h
      · split_ifs at h with ha
        · exact .inl (mem_recent (mem_recent h))
        · rcases mem_addEvent h with h | h
          · rcases mem_addEvent h with h | h
            · exact .inl (mem_recent (mem_recent h))
            · exact .inr h
          · exact .inr h
      · rcases mem_addEvent h with h | h
        · exact .inl (mem_recent h)
        · exact .inr h

/-- Every event is over a minute old. -/
def Events.Quiet (events : Events) (now : ℕ) : Prop :=
  ∀ k, ∀ t ∈ events.entry k, t + 60 * nanosPerSec ≤ now

theorem entry_recent_of_quiet {events : Events} {now : ℕ} {key : String} (h : events.Quiet now) :
    (recent events now key).entry key = [] := by
  rw [recent, Events.entry, Function.update_self, Option.getD_some, List.filter_eq_nil_iff]
  intro t ht
  have := h key t ht
  simp only [decide_eq_true_eq]
  omega

theorem rateLimitCheck_of_quiet {limits : Option RateLimitConfig} {events events' : Events}
    {source : String} {peer : Option Aid} {now now' : ℕ}
    (h : (rateLimitCheck limits events source peer now).1 = true) (hq : events'.Quiet now') :
    (rateLimitCheck limits events' source peer now').1 = true := by
  have hr : ∀ key, (recent events' now' key).Quiet now' :=
    fun key k t ht => hq k t (mem_recent ht)
  unfold rateLimitCheck at h ⊢
  split at h
  · rfl
  · simp only [entry_recent_of_quiet hq, List.length_nil] at h ⊢
    split_ifs at h with hs
    rw [if_neg (by omega)]
    split at h
    · split_ifs at h with ha
      rw [entry_recent_of_quiet (hr _), List.length_nil, if_neg (by omega)]
    · rfl

end Aitp
