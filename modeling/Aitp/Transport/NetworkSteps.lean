import Aitp.Handshake.Issuance
import Aitp.Transport.NetworkReveals

/-! # What each message is accepted for

What a step of either party found when it succeeded: the nonces that the message echoes,
the name it was sent under, and the party that the token in it is for.
-/

namespace Aitp

variable {P : Primitives} {J : Jose}

/-! ## Tokens -/

/-- Only the agent that the token is for accepts it as its own. -/
def TokenFor (P : Primitives) (token : String) (aid : Aid) : Prop :=
  ∀ ctx claims, verifyTctBeforeRevocation P token ctx = .ok claims → ctx.expectedAudience = aid

section

variable {cfg : PeerConfig} {identity : IdentityDescriptor} {aid : Aid} {key : VerifyingKey}
  {requested : List String} {popNonce : String} {drawn : RandomV4} {m : MutualCommitPayload}

theorem tokenFor_build {b : TctBuilder} {clock : Timestamp} {issued : IssuedTct}
    (hP : P.ReadsText) (ha : b.attestation = false) (hx : b.ext = none)
    (hn : (b.nowOverride.getD clock).Fits) (hs : b.subject = some aid)
    (h : b.build P clock = .ok issued) : TokenFor P issued.token aid := by
  obtain ⟨d, hd, hsigned, -, -⟩ := TctBuilder.build_eq_ok.mp h
  obtain ⟨subject, pk, jti, hsub, -, -, hj, -, -, -, -, -, rfl⟩ := (TctBuilder.draft_eq_ok ha).mp hd
  obtain rfl := Option.some.inj (hs.symm.trans hsub)
  have hw : (b.claims P aid pk jti clock).Writable P := by
    refine TctClaims.writable_claims (JtiSource.checkV4_of_resolve hj) hn ?_
    rw [hx]
    rintro _ ⟨⟩
  intro ctx claims hv
  have hg := verifyTctBeforeRevocation_ok hv
  obtain ⟨payload, hp, hdec⟩ := hg.signed
  have haud := hg.aud
  obtain ⟨iat, exp, -, -, rfl⟩ := hw.read_of_signCompact hP hsigned hp hdec
  exact haud.symm

theorem tokenFor_issueTctForPeer {issued : IssuedTct} (hP : P.ReadsText) (ht : cfg.now.Fits)
    (h : issueTctForPeer P cfg identity aid key requested drawn = .ok issued) :
    TokenFor P issued.token aid := by
  simp only [issueTctForPeer, bind_eq_ok, mapErr_eq_ok] at h
  obtain ⟨grants, -, _, -, _, -, hb⟩ := h
  refine tokenFor_build hP ?_ ?_ ?_ ?_ hb
  exacts [rfl, rfl, ht, rfl]

theorem commitTo_ok (hP : P.ReadsText) (ht : cfg.now.Fits)
    (h : commitTo P cfg identity aid key requested popNonce drawn = .ok m) :
    TokenFor P m.tct aid ∧ m.popNonceEcho = popNonce ∧
      decodeMutualCommitPayload m.toValue = some m := by
  simp only [commitTo, bind_eq_ok, pure_eq_ok] at h
  obtain ⟨issued, hi, _, -, rfl⟩ := h
  have hnone : Holdable P 0 none := .none
  exact ⟨tokenFor_issueTctForPeer hP ht hi, rfl, MutualCommitPayload.decode_toValue hnone⟩

theorem acceptCommit_ok {myPopNonce : String} {peer : BoundPeer} {completed : CompletedHandshake}
    (h : acceptCommit P myPopNonce peer m cfg = .ok completed) :
    completed.tct.token = m.tct ∧ ∀ aid, TokenFor P m.tct aid → cfg.manifest.aid = aid := by
  simp only [acceptCommit, verifyReceivedTct, bind_eq_ok, mapErr_eq_ok, pure_eq_ok] at h
  obtain ⟨_, -, v, ⟨claims, hc, _, -, _, -, _, -, _, -, rfl⟩, rfl⟩ := h
  refine ⟨rfl, ?_⟩
  intro aid hfor
  exact hfor _ claims hc

end

/-! ## Steps of the initiator -/

section

variable {config : InitiatorConfig} {env : Surroundings} {peerManifest : Manifest}
  {initiator next : Initiator} {hello commit : AitpEnvelope} {peerPk : VerifyingKey}
  {response : Response} {popNonce : String}

theorem startHandshake_ok (hn : freshNonce env.popNonce = .ok popNonce)
    (h : config.startHandshake P env = .ok (peerManifest, initiator, hello)) :
    initiator = .awaitingHelloAck popNonce peerManifest.aid ∧
      ∃ payload : MutualHelloPayload, hello.payload = payload.toValue := by
  simp only [InitiatorConfig.startHandshake, bind_eq_ok, mapErr_eq_ok, pure_eq_ok, Prod.exists,
    Prod.mk.injEq] at h
  obtain ⟨m, -, _, -, i, payload, hs, e, hsign, _, -, rfl, rfl, rfl⟩ := h
  simp only [Initiator.start, bind_eq_ok, pure_eq_ok, Prod.mk.injEq] at hs
  obtain ⟨n, hn', _, -, rfl, -⟩ := hs
  obtain rfl := Except.ok.inj (hn.symm.trans hn')
  obtain ⟨-, -, -, sig, -, rfl⟩ := signEnvelopeWith_eq_ok.mp hsign
  exact ⟨rfl, payload, rfl⟩

/-- What an accepted HELLO_ACK was and what answers it. -/
structure HelloAckTaken (P : Primitives) (popNonce : String) (intended : Aid)
    (peerPk : VerifyingKey) (e commit : AitpEnvelope) (ack : MutualHelloAckPayload)
    (payload : MutualCommitPayload) : Prop where
  verified : verifyEnvelopeSignature P e peerPk = .ok ()
  key : VerifyingKey.fromAid P intended = .ok peerPk
  sender : e.sender = intended
  read : decodeMutualHelloAckPayload e.payload = some ack
  echo : ack.popNonceEcho = popNonce
  token : TokenFor P payload.tct intended
  answers : payload.popNonceEcho = ack.popNonce
  messageType : commit.messageType = .mutualCommit
  posted : commit.payload = payload.toValue
  written : decodeMutualCommitPayload payload.toValue = some payload

theorem takeHelloAck_ok {intended : Aid} (hP : P.ReadsText) (ht : env.helloAckNow.Fits)
    (h : (config.takeHelloAck P J env (.awaitingHelloAck popNonce intended) response).2 =
      .ok (next, commit, peerPk)) :
    ∃ e ack payload peer, readAitpEnvelopeResponse P response = .ok e ∧
      HelloAckTaken P popNonce intended peerPk e commit ack payload ∧
      next = .awaitingCommitAck popNonce peer ∧ peer.aid = intended := by
  unfold InitiatorConfig.takeHelloAck at h
  split at h
  · cases h
  · rename_i e ack key hread
    obtain ⟨hres, hkey, hver, -, hdec⟩ := readHelloAck_eq_ok.mp hread
    simp only at h
    split at h
    · cases h
    · rename_i s' payload hstep
      simp only [bind_eq_ok, mapErr_eq_ok, pure_eq_ok, Prod.mk.injEq] at h
      obtain ⟨e', hsign, rfl, rfl, rfl⟩ := h
      obtain ⟨_, _, pk, hawait, hbind, hcommit, rfl⟩ := Initiator.onHelloAck_eq_ok.mp hstep
      obtain ⟨rfl, rfl⟩ := Initiator.awaitingHelloAck.inj hawait
      simp only [Initiator.bindPeer, bind_eq_ok, ensure_eq_ok, pure_eq_ok, exists_const,
        decide_eq_true_eq, beq_iff_eq] at hbind
      obtain ⟨hsender, haid, hecho, -⟩ := hbind
      obtain ⟨htoken, hanswer, hwritten⟩ := commitTo_ok hP ht hcommit
      obtain ⟨-, -, -, sig, -, rfl⟩ := signEnvelopeWith_eq_ok.mp hsign
      refine ⟨e, ack, payload, _, hres, ?_, rfl, haid⟩
      exact {
        verified := hver
        key := hsender ▸ hkey
        sender := hsender
        read := hdec
        echo := hecho
        token := haid ▸ htoken
        answers := hanswer
        messageType := rfl
        posted := rfl
        written := hwritten }

/-- What the COMMIT_ACK was that a run returned on. -/
structure CommitAckTaken (P : Primitives) (own : Aid) (popNonce : String) (intended : Aid)
    (e : AitpEnvelope) (m : MutualCommitPayload) (session : SessionContext) : Prop where
  sender : e.sender = intended
  read : decodeMutualCommitPayload e.payload = some m
  echo : m.popNonceEcho = popNonce
  held : session.heldTct.token = m.tct
  forOwn : ∀ aid, TokenFor P m.tct aid → own = aid

theorem takeCommitAck_ok {peer : BoundPeer} {session : SessionContext}
    (h : (config.takeCommitAck P env peerManifest (.awaitingCommitAck popNonce peer) peerPk
      response).2 = .ok session) :
    ∃ e m, readAitpEnvelopeResponse P response = .ok e ∧
      verifyEnvelopeSignature P e peerPk = .ok () ∧
      CommitAckTaken P config.ownManifest.aid popNonce peer.aid e m session := by
  unfold InitiatorConfig.takeCommitAck at h
  split at h
  · cases h
  · rename_i e m hread
    simp only [readCommitAck, bind_eq_ok, mapErr_eq_ok, okOr_eq_ok, pure_eq_ok,
      Prod.mk.injEq] at hread
    obtain ⟨_, hres, _, hver, _, -, _, hdec, rfl, rfl⟩ := hread
    simp only at h
    split at h
    · cases h
    · rename_i s' completed hstep
      obtain rfl := Except.ok.inj h
      obtain ⟨_, _, hawait, hbound, haccept, -⟩ := Initiator.onCommitAck_eq_ok.mp hstep
      obtain ⟨rfl, rfl⟩ := Initiator.awaitingCommitAck.inj hawait
      obtain ⟨hsender, hecho⟩ := checkBound_eq_ok.mp hbound
      obtain ⟨htoken, hown⟩ := acceptCommit_ok haccept
      exact ⟨_, _, hres, hver, hsender, hdec, hecho, htoken, hown⟩

end

/-- The acts of a run that succeed in turn are `run_initiator_handshake`. -/
theorem runs_of_runInitiatorHandshake {config : InitiatorConfig} {env : Surroundings}
    {session : SessionContext} (p : Party)
    (h : (config.runInitiatorHandshake P J env).2 = .ok session) :
    ∃ helloResponse commitResponse run, env.helloResponse = some helloResponse ∧
      env.commitResponse = some commitResponse ∧ run.session = some session ∧
      (((p.startRun P config env).takeHelloAck P J p.runs.length env helloResponse).takeCommitAck P
        p.runs.length env commitResponse).runs = p.runs ++ [run] := by
  unfold InitiatorConfig.runInitiatorHandshake at h
  split at h
  · cases h
  · rename_i peerManifest initiator hello hstart
    split at h
    · cases h
    · rename_i helloResponse hhello
      split at h
      · cases h
      · rename_i acts initiator' commit peerPk htake
        split at h
        · cases h
        · rename_i commitResponse hcommit
          obtain ⟨popNonce, hnonce⟩ : ∃ popNonce, freshNonce env.popNonce = .ok popNonce := by
            simp only [InitiatorConfig.startHandshake, bind_eq_ok, mapErr_eq_ok] at hstart
            obtain ⟨_, -, _, -, _, hs, -⟩ := hstart
            simp only [Initiator.start, bind_eq_ok] at hs
            obtain ⟨popNonce, hn, -⟩ := hs
            exact ⟨popNonce, hn⟩
          have hfinish : (config.takeCommitAck P env peerManifest initiator' peerPk
              commitResponse).2 = .ok session := h
          refine ⟨helloResponse, commitResponse,
            ⟨config, peerManifest, popNonce, none, some (commit, peerPk), some session⟩, hhello,
            hcommit, rfl, ?_⟩
          simp only [Party.startRun, hstart, hnonce, Party.takeHelloAck, Party.takeCommitAck,
            List.getElem?_concat_length, htake, List.set_append_right, le_refl, Nat.sub_self,
            List.set_cons_zero, hfinish]

/-! ## Steps of the responder -/

section

variable {server : HandshakeServer} {responder : Responder} {envelope : AitpEnvelope}

theorem payload_of_signHelloAck {ack : MutualHelloAckPayload} {draws : HelloDraws}
    (h : server.signHelloAck ack draws = .ok envelope) : envelope.payload = ack.toValue := by
  obtain ⟨-, -, -, sig, -, rfl⟩ := signEnvelopeWith_eq_ok.mp (mapErr_eq_ok.mp h)
  rfl

theorem payload_of_signCommitAck {completed : CompletedSession} {draws : CommitDraws}
    (h : server.signCommitAck completed draws = .ok envelope) :
    envelope.messageType = .mutualCommitAck ∧ envelope.payload = completed.ack.toValue := by
  obtain ⟨-, -, -, sig, -, rfl⟩ := signEnvelopeWith_eq_ok.mp (mapErr_eq_ok.mp h)
  exact ⟨rfl, rfl⟩

theorem parse_of_receiveEnvelope {config : ServerConfig} {state : ServerState} {request : Request}
    {expected : MessageType} (h : (receiveEnvelope P config state request expected).1 = .ok envelope) :
    request.parse P expected = .ok envelope := by
  obtain ⟨-, -, ht, hj, hp, he⟩ := receiveEnvelope_ok_iff.mp h
  refine parse_ok_iff.mpr ⟨?_, hj, hp, he⟩
  intro ts hts
  rw [(members_of_parses hp).2] at hts
  exact Option.some.inj hts ▸ ht

/-- A session that a HELLO opens waits for an echo of its nonce, which is the one it answers
with. -/
theorem takeHello_ok {draws : HelloDraws} {ack : MutualHelloAckPayload}
    (ha : server.trustAnchors = []) (hv : server.identityVerifier = none)
    (h : server.takeHello P J envelope draws = .ok (responder, ack)) :
    ∃ w, responder = .awaitingCommit w ∧ freshNonce draws.popNonce = .ok w.myPopNonce ∧
      ack.popNonce = w.myPopNonce ∧ ack.popNonceEcho = w.peerPopNonce ∧
      w.peerPopNonce.length = 22 := by
  simp only [HandshakeServer.takeHello, bind_eq_ok, mapErr_eq_ok] at h
  obtain ⟨payload, -, h⟩ := h
  simp only [Responder.onHello, bind_eq_ok, pure_eq_ok, Prod.mk.injEq] at h
  obtain ⟨pk, hboot, _, -, n, hn, _, -, rfl, rfl⟩ := h
  exact ⟨_, rfl, hn, rfl, rfl, length_of_pinnedKey hboot (pinnedKey_of_bootstrap ha hv hboot)⟩

/-- What the COMMIT was that completed a session, and what answers it. -/
structure CommitTaken (P : Primitives) (own : Aid) (c : CompletedSession)
    (m : MutualCommitPayload) : Prop where
  verified : ∃ vk, VerifyingKey.fromAid P c.commit.sender = .ok vk ∧
    verifyEnvelopeSignature P c.commit vk = .ok ()
  sender : c.commit.sender = c.session.peer.aid
  read : decodeMutualCommitPayload c.commit.payload = some m
  echo : m.popNonceEcho = c.session.myPopNonce
  held : c.held.tct.token = m.tct
  forOwn : ∀ aid, TokenFor P m.tct aid → own = aid
  token : TokenFor P c.ack.tct c.session.peer.aid
  answers : c.ack.popNonceEcho = c.session.peerPopNonce

theorem takeCommit_ok {draws : CommitDraws} {completed : CompletedSession} (hP : P.ReadsText)
    (ht : draws.now.Fits) (h : server.takeCommit P responder envelope draws = .ok completed) :
    responder = .awaitingCommit completed.session ∧
      ∃ m, CommitTaken P server.manifest.aid completed m := by
  obtain ⟨m, s', rfl, hread, hw, hstep⟩ := HandshakeServer.takeCommit_eq_ok.mp h
  obtain ⟨-, hdec, vk, hvk, hver⟩ := HandshakeServer.readCommit_eq_ok.mp hread
  obtain ⟨w, hawait, hbound, haccept, hcommit, -⟩ := Responder.onCommit_eq_ok.mp hstep
  obtain rfl := Responder.awaitingCommit.inj (hw.symm.trans hawait)
  obtain ⟨hsender, hecho⟩ := checkBound_eq_ok.mp hbound
  obtain ⟨hheld, hown⟩ := acceptCommit_ok haccept
  obtain ⟨htoken, hanswer, -⟩ := commitTo_ok hP ht hcommit
  exact ⟨hw, m, {
    verified := ⟨vk, hvk, hver⟩
    sender := hsender
    read := hdec
    echo := hecho
    held := hheld
    forOwn := hown
    token := htoken
    answers := hanswer }⟩

end

end Aitp
