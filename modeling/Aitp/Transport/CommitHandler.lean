import Aitp.Transport.HelloHandler
import Aitp.Transport.SessionTable

/-! # Handling a handshake's requests

`handle_hello_inner` and `handle_commit_inner` of `transport/server.rs`, with the table
of sessions between them. A COMMIT takes its session out of the table whatever becomes
of it, and completes the session before its answer is signed.
-/

namespace Aitp

/-- What a handshake server changes as it handles requests. -/
structure HandshakeState where
  guard : ServerState
  sessions : SessionTable

/-- What the handler of a COMMIT draws, is answered about revocation, and reads of the clock. -/
structure CommitDraws where
  now : Timestamp
  prepared : Aid → Option String → RevocationCheckFn
  jti : RandomV4
  ackMessageId : Uuid
  ackTimestamp : Timestamp

/-- A session that `on_commit` completed: what it waited for, the COMMIT, the answer to it, and
what the server holds. -/
structure CompletedSession where
  session : AwaitingCommit
  commit : AitpEnvelope
  ack : MutualCommitAckPayload
  held : CompletedHandshake

/-- The session of a responder that waits for a COMMIT: `Responder::peer_aid` and its likes. -/
def Responder.awaiting : Responder → Option AwaitingCommit
  | awaitingCommit w => some w
  | _ => none

/-- The error codes for a session that is not there. -/
def NoSession.errorCode : NoSession → ErrorCode
  | expired => .timestampExpired
  | unknown => .invalidEnvelope

namespace HandshakeServer

variable (P : Primitives) (J : Jose) (server : HandshakeServer) (limits : SessionLimits)
  (state : HandshakeState) (request : Request)

/-! ## HELLO -/

/-- The responder and the answer of a received HELLO. -/
def takeHello (envelope : AitpEnvelope) (draws : HelloDraws) :
    Except HandlerError (Responder × MutualHelloAckPayload) := do
  let payload ← readHello P envelope
  mapErr .handshake
    (Responder.onHello P J envelope payload (.pinnedKey server.subject) draws.ackMessageId
      draws.ackTimestamp (server.helloConfig draws.now) server.requestedGrants draws.popNonce)

/-- The envelope of the answer to a HELLO. -/
def signHelloAck (ack : MutualHelloAckPayload) (draws : HelloDraws) :
    Except HandlerError AitpEnvelope :=
  mapErr (fun _ => .server)
    (signEnvelopeWith server.signingKey .mutualHelloAck ack.toValue draws.ackMessageId
      draws.ackTimestamp)

/-- `handle_hello_inner`, until its session is open. -/
def receiveHello (draws : HelloDraws) (clock : TableClock) :
    Except HandlerError (Responder × MutualHelloAckPayload) × HandshakeState :=
  let (received, guard) := receiveEnvelope P server.config state.guard request .mutualHello
  match mapErr .response received >>= fun e => server.takeHello P J e draws with
  | .error e => (.error e, { state with guard := guard })
  | .ok (responder, ack) =>
    (.ok (responder, ack),
      ⟨guard, state.sessions.openSession limits clock draws.sessionId responder⟩)

/-- `handle_hello_inner`: the session stays open even if its answer cannot be signed. -/
def serveHello (draws : HelloDraws) (clock : TableClock) :
    Except HandlerError AitpEnvelope × HandshakeState :=
  let (taken, state) := server.receiveHello P J limits state request draws clock
  (taken >>= fun (_, ack) => server.signHelloAck ack draws, state)

/-! ## COMMIT -/

/-- The payload of a COMMIT whose signature verifies under the key of its sender. -/
def readCommit (envelope : AitpEnvelope) : Except HandlerError MutualCommitPayload := do
  ensureMembers envelope.payload mutualCommitPayloadMembers fun _ =>
    .response (.aitp .unknownField)
  let payload ← okOr (decodeMutualCommitPayload envelope.payload) .undecodable
  let peerPk ← mapErr (fun _ => .response (.aitp .invalidEnvelope))
    (VerifyingKey.fromAid P envelope.sender)
  mapErr (fun _ => .response (.aitp .invalidSignature)) (verifyEnvelopeSignature P envelope peerPk)
  return payload

/-- The configuration of the responder while it takes a COMMIT. -/
def commitConfig (revocation : RevocationSource) (now : Timestamp) : PeerConfig :=
  { server.helloConfig now with revocation := revocation }

/-- What a session that was taken out of the table completes with. -/
def takeCommit (responder : Responder) (envelope : AitpEnvelope) (draws : CommitDraws) :
    Except HandlerError CompletedSession := do
  let payload ← readCommit P envelope
  let w ← okOr responder.awaiting .server
  let revocation := draws.prepared w.peer.aid w.peer.revocationListUri
  let (ack, held) ← mapErr .handshake
    (responder.onCommit P envelope payload (server.commitConfig (.check revocation) draws.now)
      draws.jti).2
  return ⟨w, envelope, ack, held⟩

/-- `handle_commit_inner`, until `on_commit` returns. -/
def receiveCommit (sessionId : Option String) (draws : CommitDraws) (clock : TableClock) :
    Except HandlerError CompletedSession × HandshakeState :=
  let (received, guard) := receiveEnvelope P server.config state.guard request .mutualCommit
  match received, sessionId.bind Uuid.tryParse with
  | .error e, _ => (.error (.response e), { state with guard := guard })
  | .ok _, none => (.error (.response (.aitp .invalidEnvelope)), { state with guard := guard })
  | .ok envelope, some id =>
    let (taken, sessions) := state.sessions.takeSession limits clock id
    (mapErr (fun e => .response (.aitp e.errorCode)) taken >>= fun entry =>
        server.takeCommit P entry.responder envelope draws,
      ⟨guard, sessions⟩)

/-- The envelope of the answer to a COMMIT. -/
def signCommitAck (completed : CompletedSession) (draws : CommitDraws) :
    Except HandlerError AitpEnvelope :=
  mapErr (fun _ => .server)
    (signEnvelopeWith server.signingKey .mutualCommitAck completed.ack.toValue draws.ackMessageId
      draws.ackTimestamp)

/-- `handle_commit_inner`. -/
def serveCommit (sessionId : Option String) (draws : CommitDraws) (clock : TableClock) :
    Except HandlerError AitpEnvelope × HandshakeState :=
  let (completed, state) := server.receiveCommit P limits state request sessionId draws clock
  (completed >>= fun c => server.signCommitAck c draws, state)

variable {P J server limits state request} {envelope : AitpEnvelope} {draws : CommitDraws}
  {completed : CompletedSession}

/-- A HELLO whose session is opened was received, and its responder waits for a COMMIT. -/
theorem receiveHello_ok {draws : HelloDraws} {clock : TableClock} {responder : Responder}
    {ack : MutualHelloAckPayload} {left : HandshakeState}
    (h : server.receiveHello P J limits state request draws clock =
      (.ok (responder, ack), left)) :
    ∃ hello, (receiveEnvelope P server.config state.guard request .mutualHello).1 = .ok hello ∧
      server.takeHello P J hello draws = .ok (responder, ack) ∧
      left.sessions = state.sessions.openSession limits clock draws.sessionId responder := by
  unfold receiveHello at h
  simp only at h
  split at h
  · cases h
  · rename_i responder' ack' htaken
    obtain ⟨hr, rfl⟩ := Prod.mk.inj h
    obtain ⟨rfl, rfl⟩ := Prod.mk.inj (Except.ok.inj hr)
    simp only [bind_eq_ok, mapErr_eq_ok] at htaken
    obtain ⟨hello, hreceived, htaken⟩ := htaken
    exact ⟨hello, hreceived, htaken, rfl⟩

theorem receiveHello_error {draws : HelloDraws} {clock : TableClock} {err : HandlerError}
    {left : HandshakeState}
    (h : server.receiveHello P J limits state request draws clock = (.error err, left)) :
    left.sessions = state.sessions := by
  unfold receiveHello at h
  simp only at h
  split at h
  · obtain ⟨-, rfl⟩ := Prod.mk.inj h
    rfl
  · cases h

theorem serveHello_eq_handleHello (draws : HelloDraws) (clock : TableClock) :
    (server.serveHello P J limits state request draws clock).1 =
      (server.handleHello P J state.guard request draws).1.map HelloAnswer.envelope := by
  simp only [serveHello, receiveHello, handleHello, answerHello, takeHello, signHelloAck]
  cases (receiveEnvelope P server.config state.guard request .mutualHello).1 with
  | error e => rfl
  | ok envelope =>
    simp only [mapErr_ok, ok_bind]
    cases readHello P envelope with
    | error e => rfl
    | ok payload =>
      simp only [ok_bind]
      cases Responder.onHello P J envelope payload (.pinnedKey server.subject) draws.ackMessageId
        draws.ackTimestamp (server.helloConfig draws.now) server.requestedGrants draws.popNonce with
      | error e => rfl
      | ok taken =>
        simp only [mapErr_ok, ok_bind]
        cases signEnvelopeWith server.signingKey .mutualHelloAck taken.2.toValue draws.ackMessageId
          draws.ackTimestamp with
        | error e => rfl
        | ok e => rfl

theorem readCommit_eq_ok {payload : MutualCommitPayload} :
    readCommit P envelope = .ok payload ↔
      checkMembers envelope.payload mutualCommitPayloadMembers = none ∧
      decodeMutualCommitPayload envelope.payload = some payload ∧
      ∃ key, VerifyingKey.fromAid P envelope.sender = .ok key ∧
        verifyEnvelopeSignature P envelope key = .ok () := by
  simp only [readCommit, bind_eq_ok, mapErr_eq_ok, ensureMembers_eq_ok, okOr_eq_ok, pure_eq_ok]
  constructor
  · rintro ⟨_, hm, _, hd, key, hk, _, hv, rfl⟩
    exact ⟨hm, hd, key, hk, hv⟩
  · rintro ⟨hm, hd, key, hk, hv⟩
    exact ⟨(), hm, payload, hd, key, hk, (), hv, rfl⟩

/-- A session completes with the COMMIT that its responder takes. -/
theorem takeCommit_eq_ok {responder : Responder} :
    server.takeCommit P responder envelope draws = .ok completed ↔
      ∃ payload s', completed.commit = envelope ∧ readCommit P envelope = .ok payload ∧
        responder = .awaitingCommit completed.session ∧
        responder.onCommit P envelope payload
          (server.commitConfig (.check (draws.prepared completed.session.peer.aid
            completed.session.peer.revocationListUri)) draws.now) draws.jti =
          (s', .ok (completed.ack, completed.held)) := by
  obtain ⟨session, commit, ack, held⟩ := completed
  simp only [takeCommit, bind_eq_ok, mapErr_eq_ok, okOr_eq_ok, pure_eq_ok, Prod.exists,
    CompletedSession.mk.injEq]
  constructor
  · rintro ⟨payload, hp, w, hw, ack', held', hc, rfl, rfl, rfl, rfl⟩
    cases responder with
    | awaitingCommit w' =>
      obtain rfl := Option.some.inj hw
      exact ⟨payload, _, rfl, hp, rfl, Prod.ext rfl hc⟩
    | done => cases hw
    | failed => cases hw
  · rintro ⟨payload, s', rfl, hp, rfl, hc⟩
    exact ⟨payload, hp, session, rfl, ack, held, by rw [hc], rfl, rfl, rfl, rfl⟩

/-- A COMMIT that completes a session was received, and its session was in the table. -/
theorem receiveCommit_ok {sessionId : Option String} {clock : TableClock} {left : HandshakeState}
    (h : server.receiveCommit P limits state request sessionId draws clock =
      (.ok completed, left)) :
    ∃ id entry, (receiveEnvelope P server.config state.guard request .mutualCommit).1 =
        .ok completed.commit ∧
      state.sessions.takeSession limits clock id = (.ok entry, left.sessions) ∧
      server.takeCommit P entry.responder completed.commit draws = .ok completed := by
  unfold receiveCommit at h
  simp only at h
  split at h
  · cases h
  · cases h
  · rename_i envelope id hreceived hid
    rcases ht : state.sessions.takeSession limits clock id with ⟨taken, sessions⟩
    rw [ht] at h
    obtain ⟨hc, rfl⟩ := Prod.mk.inj h
    simp only [bind_eq_ok, mapErr_eq_ok] at hc
    obtain ⟨entry, rfl, hc⟩ := hc
    obtain ⟨payload, s', rfl, -⟩ := takeCommit_eq_ok.mp hc
    exact ⟨id, entry, hreceived, ht, hc⟩

theorem receiveCommit_sublist {sessionId : Option String} {clock : TableClock} :
    (server.receiveCommit P limits state request sessionId draws clock).2.sessions.entries.Sublist
      state.sessions.entries := by
  unfold receiveCommit
  simp only
  split
  · exact List.Sublist.refl _
  · exact List.Sublist.refl _
  · exact SessionTable.takeSession_sublist

end HandshakeServer

end Aitp
