import Aitp.Transport.HelloHandler
import Aitp.Transport.ReplayRuns

/-! # What the replay guard remembers

The endpoint looks for a replay first, so that a replay does not count against its sender's
rate limit. With that a message identifier is recorded, whatever becomes of the request. It
is remembered until its window ends.
-/

namespace Aitp

open Transition Seen

/-- An endpoint: what is received is passed on to the handler of the message. -/
def serve (P : Primitives) (config : ServerConfig) (state : ServerState) (request : Request)
    (expected : MessageType) {α : Type} (handler : AitpEnvelope → Except HandlerError α) :
    Except HandlerError α × ServerState :=
  let (received, state) := receiveEnvelope P config state request expected
  (mapErr .response received >>= handler, state)

/-- The key under which the guard looks for a request. -/
def Request.replayKey (P : Primitives) (request : Request) : Option String :=
  (request.messageId P).map Uuid.hyphenated

variable {P : Primitives} {J : Jose} {config : ServerConfig} {state : ServerState}
  {request : Request} {expected : MessageType} {α : Type}
  {handler : AitpEnvelope → Except HandlerError α} {error : HandlerError} {key : String}

theorem handleHello_eq_serve (server : HandshakeServer) (draws : HelloDraws) :
    server.handleHello P J state request draws =
      serve P server.config state request .mutualHello fun envelope =>
        server.answerHello P J envelope draws :=
  rfl

/-! ## One request -/

theorem checkMessageId_eq {seen : Seen} : request.checkMessageId P config seen =
    match request.replayKey P with
    | some key => seen.checkAndRecord key request.now config.replayWindow
    | none => (true, seen) := by
  unfold Request.checkMessageId Request.replayKey
  cases request.messageId P <;> rfl

theorem replayKey_of_body (h : request.body.isNone = true) : request.replayKey P = none := by
  rw [Option.isNone_iff_eq_none] at h
  simp [Request.replayKey, Request.messageId, Request.member, Request.value, h]

theorem checkMessageId_replay_iff {seen : Seen} :
    (request.checkMessageId P config seen).1 = false ↔
      ∃ key exp, request.replayKey P = some key ∧ seen key = some exp ∧ request.now < exp := by
  rw [checkMessageId_eq]
  cases request.replayKey P with
  | none => simp
  | some key =>
    rw [← Bool.not_eq_true, checkAndRecord_fresh]
    simp

theorem seen_eq : (receiveEnvelope P config state request expected).2.seen =
    (request.checkMessageId P config state.seen).2 := by
  rw [seen_receiveEnvelope]
  split_ifs with hb
  · rw [checkMessageId_eq, replayKey_of_body hb]
  · rfl

theorem ne_replay_of_parse :
    FailsIn (fun e => e ≠ .aitp .replayDetected) (request.parse P expected) := by
  unfold Request.parse Request.checkTimestamp
  refine .bind ?_ fun _ _ => .bind (.ensure nofun) fun _ _ => .bind (.okOr nofun) fun value _ =>
    .bind (.mapErr ?_) fun envelope _ => .bind (.ensure nofun) fun _ _ => .pure _
  · cases (request.member P "timestamp").bind Serde.i64 with
    | none => exact .ok _
    | some ts => exact .ensure nofun
  · intro e
    cases e <;> exact nofun

theorem receiveEnvelope_replay_iff :
    (receiveEnvelope P config state request expected).1 = .error (.aitp .replayDetected) ↔
      (request.checkMessageId P config state.seen).1 = false := by
  unfold receiveEnvelope
  split_ifs with hb
  · simp [checkMessageId_eq, replayKey_of_body hb]
  · cases hf : (request.checkMessageId P config state.seen).1 with
    | false => simp [hf]
    | true =>
      simp only [hf, Bool.not_true, Bool.false_eq_true, if_false]
      split_ifs
      · simp
      · exact iff_of_false (fun h => ne_replay_of_parse _ h rfl) (by decide)

/-- What is remembered after a request: what was remembered before, and its own key, unless it was
answered as a replay. -/
theorem seen_receiveEnvelope_iff {exp t : ℕ} (hn : request.now ≤ t) (ht : t < exp) :
    (receiveEnvelope P config state request expected).2.seen key = some exp ↔
      state.seen key = some exp ∨
        (receiveEnvelope P config state request expected).1 ≠ .error (.aitp .replayDetected) ∧
          request.replayKey P = some key ∧ exp = expiryAt request.now config.replayWindow := by
  have hkept : ∀ k, state.seen.retain request.now k = some exp ↔ state.seen k = some exp :=
    fun k => retain_eq_some.trans (and_iff_left (by omega))
  rw [Ne, receiveEnvelope_replay_iff, seen_eq, checkMessageId_eq]
  cases request.replayKey P with
  | none => simp
  | some own =>
    simp only [checkAndRecord]
    split_ifs with hseen
    · simp [hkept]
    · by_cases hk : own = key
      · subst hk
        have hnone : state.seen own ≠ some exp := by
          intro hs
          rw [(hkept own).mpr hs] at hseen
          exact hseen rfl
        simp [hnone, eq_comm]
      · simp [Function.update_of_ne (Ne.symm hk), hkept, hk]

theorem retain_update_retain (seen : Seen) (now : ℕ) (k : String) (v : Option ℕ) :
    Seen.retain (Function.update (seen.retain now) k v) now =
      Seen.retain (Function.update seen k v) now := by
  funext k'
  apply Option.ext
  intro exp
  rw [retain_eq_some, retain_eq_some]
  by_cases hk : k' = k
  · subst hk
    rw [Function.update_self, Function.update_self]
  · rw [Function.update_of_ne hk, Function.update_of_ne hk, retain_eq_some, and_assoc, and_self]

/-- The key of a request recorded for the window. -/
def Request.recordIn (P : Primitives) (config : ServerConfig) (request : Request) (seen : Seen) :
    Seen :=
  match request.replayKey P with
  | some key => Function.update seen key (some (expiryAt request.now config.replayWindow))
  | none => seen

theorem received_of_serve_error (h : (serve P config state request expected handler).1 =
      .error error) (he : error ≠ .response (.aitp .replayDetected)) :
    (request.checkMessageId P config state.seen).1 = true := by
  by_contra hf
  have hreplay : (receiveEnvelope P config state request expected).1 =
      .error (.aitp .replayDetected) :=
    receiveEnvelope_replay_iff.mpr (Bool.not_eq_true _ ▸ hf)
  simp only [serve, hreplay, mapErr_error, error_bind] at h
  exact he (Except.error.inj h).symm

theorem retain_serve (h : (serve P config state request expected handler).1 = .error error)
    (he : error ≠ .response (.aitp .replayDetected)) :
    (serve P config state request expected handler).2.seen.retain request.now =
      (request.recordIn P config state.seen).retain request.now := by
  have hf := received_of_serve_error h he
  show (receiveEnvelope P config state request expected).2.seen.retain request.now = _
  rw [seen_eq]
  rw [checkMessageId_eq] at hf ⊢
  unfold Request.recordIn
  cases hk : request.replayKey P with
  | none => rfl
  | some key =>
    simp only [hk, checkAndRecord] at hf ⊢
    split_ifs at hf ⊢
    exact retain_update_retain ..

/-- What is remembered stays as it was only if there is nothing to remember. -/
theorem retain_serve_eq_iff
    (h : (serve P config state request expected handler).1 = .error error)
    (he : error ≠ .response (.aitp .replayDetected)) :
    (serve P config state request expected handler).2.seen.retain request.now =
        state.seen.retain request.now ↔
      ∀ key, request.replayKey P = some key →
        expiryAt request.now config.replayWindow ≤ request.now := by
  have hf := received_of_serve_error h he
  rw [retain_serve h he]
  rw [checkMessageId_eq] at hf
  unfold Request.recordIn
  cases hk : request.replayKey P with
  | none => simp
  | some key =>
    simp only [hk] at hf ⊢
    have hfresh := checkAndRecord_fresh.mp hf
    constructor
    · rintro heq _ ⟨⟩
      by_contra hlt
      have hself := Function.update_self key
        (some (expiryAt request.now config.replayWindow)) state.seen
      have hown := retain_eq_some.mpr ⟨hself, Nat.not_le.mp hlt⟩
      rw [heq] at hown
      exact hlt (hfresh _ (retain_eq_some.mp hown).1)
    · intro hle
      funext k
      apply Option.ext
      intro exp
      rw [retain_eq_some, retain_eq_some]
      by_cases hkey : k = key
      · subst hkey
        constructor
        · rintro ⟨hself, hlt⟩
          rw [Function.update_self] at hself
          cases hself
          exact absurd (hle _ rfl) (Nat.not_le.mpr hlt)
        · rintro ⟨hs, hlt⟩
          exact absurd (hfresh _ hs) (Nat.not_le.mpr hlt)
      · rw [Function.update_of_ne hkey]

/-! ## Runs of requests -/

/-- The request was answered as a replay. -/
def answersReplay : Except ResponseError AitpEnvelope → Bool
  | .error (.aitp .replayDetected) => true
  | _ => false

theorem answersReplay_iff {r : Except ResponseError AitpEnvelope} :
    answersReplay r = true ↔ r = .error (.aitp .replayDetected) := by
  unfold answersReplay
  split
  · exact iff_of_true rfl rfl
  · next h => exact iff_of_false (by decide) h

/-- A server, its clock, and the keys of the requests it did not answer as replays, with the
instant of each. -/
structure Serving where
  state : ServerState
  clock : ℕ
  carried : List (String × ℕ)

section

variable (P : Primitives) (config : ServerConfig)

/-- The server after a request, of anyone. -/
def Serving.after (s : Serving) (p : Presentation) : Serving where
  state := (receiveEnvelope P config s.state p.request p.expected).2
  clock := p.request.now
  carried :=
    if answersReplay (receiveEnvelope P config s.state p.request p.expected).1 then s.carried
    else ((p.request.replayKey P).map fun key => (key, p.request.now)).toList ++ s.carried

/-- Any sequence of requests to a new server, under a clock that does not go back. -/
def serving : System Serving Presentation where
  init s := (∀ key, s.state.seen key = none) ∧ s.carried = []
  step s p s' := s.clock ≤ p.request.now ∧ s' = s.after P config p

end

variable {s : Serving} {p : Presentation}

theorem mem_carried_after {n : ℕ} : (key, n) ∈ (s.after P config p).carried ↔
    (key, n) ∈ s.carried ∨
      (receiveEnvelope P config s.state p.request p.expected).1 ≠ .error (.aitp .replayDetected) ∧
        p.request.replayKey P = some key ∧ n = p.request.now := by
  rw [Ne, ← answersReplay_iff]
  unfold Serving.after
  simp only
  split_ifs with hr
  · exact (or_iff_left fun h => h.1 hr).symm
  · rw [List.mem_append, Option.mem_toList, Option.map_eq_some_iff, or_comm]
    refine or_congr_right ⟨?_, ?_⟩
    · rintro ⟨own, hk, he⟩
      cases he
      exact ⟨hr, hk, rfl⟩
    · rintro ⟨-, hk, rfl⟩
      exact ⟨key, hk, rfl⟩

theorem seen_iff_of_reachable (h : (serving P config).Reachable s) {exp t : ℕ}
    (hn : s.clock ≤ t) (ht : t < exp) :
    s.state.seen key = some exp ↔
      ∃ n, (key, n) ∈ s.carried ∧ exp = expiryAt n config.replayWindow := by
  induction h generalizing t with
  | init hi => simp [hi.1, hi.2]
  | @step s p _ _ hs ih =>
    obtain ⟨hc, rfl⟩ := hs
    rw [show (s.after P config p).state =
      (receiveEnvelope P config s.state p.request p.expected).2 from rfl]
    rw [seen_receiveEnvelope_iff hn ht, ih (hc.trans hn) ht]
    simp only [mem_carried_after]
    constructor
    · rintro (⟨n, hm, he⟩ | ⟨hr, hk, he⟩)
      · exact ⟨n, .inl hm, he⟩
      · exact ⟨_, .inr ⟨hr, hk, rfl⟩, he⟩
    · rintro ⟨n, hm | ⟨hr, hk, rfl⟩, he⟩
      · exact .inl ⟨n, hm, he⟩
      · exact .inr ⟨hr, hk, he⟩

/-- A request that is rejected, though not as a replay, has its own key recorded and nothing else:
it leaves the memory as it was only if it carries none, or the window is empty. In a run of
requests the replays are those that carry a key an earlier request carried within the window. -/
theorem replayMemory_exact (P : Primitives) (config : ServerConfig) :
    (∀ (state : ServerState) (request : Request) (expected : MessageType) (α : Type)
        (handler : AitpEnvelope → Except HandlerError α) (error : HandlerError),
      (serve P config state request expected handler).1 = .error error →
        error ≠ .response (.aitp .replayDetected) →
          (serve P config state request expected handler).2.seen.retain request.now =
              (request.recordIn P config state.seen).retain request.now ∧
            ((serve P config state request expected handler).2.seen.retain request.now =
                state.seen.retain request.now ↔
              ∀ key, request.replayKey P = some key →
                expiryAt request.now config.replayWindow ≤ request.now)) ∧
      ∀ s, (serving P config).Reachable s → ∀ p : Presentation, s.clock ≤ p.request.now →
        ((receiveEnvelope P config s.state p.request p.expected).1 =
            .error (.aitp .replayDetected) ↔
          ∃ key n, p.request.replayKey P = some key ∧ (key, n) ∈ s.carried ∧
            p.request.now < expiryAt n config.replayWindow) := by
  constructor
  · intro state request expected α handler error h he
    exact ⟨retain_serve h he, retain_serve_eq_iff h he⟩
  · intro s hs p hc
    rw [receiveEnvelope_replay_iff, checkMessageId_replay_iff]
    constructor
    · rintro ⟨key, exp, hk, hseen, hlt⟩
      obtain ⟨n, hm, rfl⟩ := (seen_iff_of_reachable hs hc hlt).mp hseen
      exact ⟨key, n, hk, hm, hlt⟩
    · rintro ⟨key, n, hk, hm, hlt⟩
      exact ⟨key, _, hk, (seen_iff_of_reachable hs hc hlt).mpr ⟨n, hm, rfl⟩, hlt⟩

/-- A request with the key of one that was not answered as a replay is a replay in its window. -/
theorem receiveEnvelope_replay_after {request' : Request} {expected' : MessageType}
    (hr : (receiveEnvelope P config state request expected).1 ≠ .error (.aitp .replayDetected))
    (hk : request.replayKey P = some key) (hk' : request'.replayKey P = some key)
    (hle : request.now ≤ request'.now)
    (hlt : request'.now < expiryAt request.now config.replayWindow) :
    (receiveEnvelope P config (receiveEnvelope P config state request expected).2 request'
      expected').1 = .error (.aitp .replayDetected) := by
  rw [receiveEnvelope_replay_iff, checkMessageId_replay_iff]
  refine ⟨key, _, hk', ?_, hlt⟩
  exact (seen_receiveEnvelope_iff hle hlt).mpr (.inr ⟨hr, hk, rfl⟩)

theorem receiveEnvelope_contentType {e : AitpEnvelope} (contentType : String)
    (h : Passes P config state request expected e)
    (hc : "application/json".toList.isPrefixOf (contentType.toList.map Char.toLower) = false) :
    (receiveEnvelope P config state { request with contentType := contentType } expected).1 =
      .error (.aitp .invalidEnvelope) := by
  have hbody := body_of_parses h.parses
  have hfresh : (request.checkMessageId P config state.seen).1 = true :=
    (congrArg Prod.fst (checkMessageId_of_parses h.parses)).trans h.fresh
  have htime : request.checkTimestamp P = .ok () := by
    unfold Request.checkTimestamp
    rw [(members_of_parses h.parses).2]
    exact ensure_eq_ok.mpr h.timely
  have hparse : ({ request with contentType := contentType } : Request).parse P expected =
      .error (.aitp .invalidEnvelope) := by
    unfold Request.parse
    rw [show ({ request with contentType := contentType } : Request).checkTimestamp P = .ok ()
      from htime, ok_bind, hc]
    rfl
  unfold receiveEnvelope
  rw [if_neg (by rw [hbody]; decide)]
  show (if !(request.checkMessageId P config state.seen).1 then _ else
    if !(rateLimitCheck config.rateLimit state.events request.source (request.sender P)
      request.now).1 then _ else _ : _ × _).1 = _
  rw [hfresh, h.allowed, hparse]
  rfl

/-- A HELLO sent as text is refused for its content type, and then the same HELLO sent as JSON is a
replay. -/
theorem replayMemory_text :
    let hello := (helloPresentation 1).request
    let text := { hello with contentType := "text/plain" }
    let receive := fun state request =>
      receiveEnvelope Toy.primitives (defaultConfig none) state request .mutualHello
    (receive newReceiving.state text).1 = .error (.aitp .invalidEnvelope) ∧
      (∃ e, (receive newReceiving.state hello).1 = .ok e) ∧
      (receive (receive newReceiving.state text).2 hello).1 = .error (.aitp .replayDetected) := by
  intro hello text receive
  obtain ⟨e, he, -⟩ := passes_helloPresentation 1
  have htext := receiveEnvelope_contentType "text/plain" he (by decide)
  have hkey : hello.replayKey Toy.primitives = some e.messageId.hyphenated :=
    congrArg (Option.map Uuid.hyphenated) (members_of_parses he.parses).1
  have hne : (receive newReceiving.state text).1 ≠ .error (.aitp .replayDetected) := by
    intro h
    cases htext.symm.trans h
  refine ⟨htext, ⟨e, receiveEnvelope_ok_iff.mpr he⟩, ?_⟩
  exact receiveEnvelope_replay_after hne hkey hkey le_rfl (by decide)

/-- The HELLO sent as text changes what is remembered. -/
theorem replayMemory_exact_text :
    let hello := (helloPresentation 1).request
    let text := { hello with contentType := "text/plain" }
    (serve Toy.primitives (defaultConfig none) newReceiving.state text .mutualHello
        (fun envelope => .ok envelope)).2.seen.retain text.now ≠
      newReceiving.state.seen.retain text.now := by
  intro hello text
  obtain ⟨e, he, -⟩ := passes_helloPresentation 1
  have htext := receiveEnvelope_contentType "text/plain" he (by decide)
  have herror : (serve Toy.primitives (defaultConfig none) newReceiving.state text .mutualHello
      (fun envelope => .ok envelope)).1 = .error (.response (.aitp .invalidEnvelope)) := by
    unfold serve
    exact congrArg (fun r => mapErr HandlerError.response r >>= fun envelope => .ok envelope) htext
  have hkey : text.replayKey Toy.primitives = some e.messageId.hyphenated :=
    congrArg (Option.map Uuid.hyphenated) (members_of_parses he.parses).1
  intro hsame
  have hexact := (replayMemory_exact Toy.primitives (defaultConfig none)).1
  have hempty := (hexact _ _ _ _ _ _ herror nofun).2.mp hsame _ hkey
  exact absurd hempty (by decide)

end Aitp
