import Aitp.Crypto.AidConstructors
import Aitp.Transport.NetworkSteps
import Aitp.Transport.ReplayWindows
import Aitp.Transport.WireHandshake

/-! # An honest handshake in the network

From any state that honest agents reach, two of them that trust each other can complete a
handshake: what each of them is given is what the other signed, so nothing is forged.
-/

namespace Aitp

open Transition

variable {P : Primitives} {J : Jose} {e : AitpEnvelope}

/-! ## What an agent posts, it signed -/

section

variable {signer : Signer} {messageType : MessageType} {payload : Json} {messageId : Uuid}
  {timestamp : Timestamp}

theorem sender_of_signEnvelopeWith
    (h : signEnvelopeWith signer messageType payload messageId timestamp = .ok e) :
    e.sender = signer.aid := by
  obtain ⟨-, -, -, sig, -, rfl⟩ := signEnvelopeWith_eq_ok.mp h
  rfl

theorem sign_target_of_signEnvelopeWith
    (h : signEnvelopeWith signer messageType payload messageId timestamp = .ok e) :
    signer.sign e.target ≠ none := by
  obtain ⟨-, -, -, sig, hs, -⟩ := signEnvelopeWith_eq_ok.mp h
  have ht := target_of_signEnvelopeWith h
  rw [← ht]
  intro hn
  have hd : signer.sign (.digest (envelopeSigningInput
      (.unsigned signer.aid messageType payload messageId timestamp))) = none := hn
  simp only [Signer.signJcs, hd] at hs
  cases hs

end

namespace Party

variable {p p' : Party}

theorem target_mem_reveal {α : Type} {signer : Signer} {f : Signer → Except α AitpEnvelope}
    (hf : f signer = .ok e) (hs : ∀ k e', f k = .ok e' → k.sign e'.target ≠ none) :
    e.target ∈ reveal signer f := by
  refine ⟨e, toOption_eq_some.mpr hf, ?_⟩
  intro hw
  have hsign := hs _ e (toOption_eq_some.mp hw)
  simp [Signer.without] at hsign

section

variable {config : InitiatorConfig} {env : Surroundings} {peerManifest : Manifest}
  {initiator next : Initiator} {hello commit : AitpEnvelope} {popNonce : String}
  {peerPk : VerifyingKey} {response : Response} {runs : List InitiatorRun}

theorem after_start (hafter : p' = p.after P J (.start config env))
    (hn : freshNonce env.popNonce = .ok popNonce)
    (h : config.startHandshake P env = .ok (peerManifest, initiator, hello)) :
    p'.runs = p.runs ++ [⟨config, peerManifest, popNonce, some initiator, none, none⟩] ∧
      hello.target ∈ p'.signed := by
  subst hafter
  simp only [after, startRun, h, hn, true_and]
  refine .inr (target_mem_reveal (by rw [h]; rfl) ?_)
  intro k e' hk
  rcases hs : InitiatorConfig.startHandshake P { config with signingKey := k } env with
    _ | ⟨m, i, posted⟩
  · rw [hs] at hk
    cases hk
  · rw [hs] at hk
    obtain rfl := Except.ok.inj hk
    simp only [InitiatorConfig.startHandshake, bind_eq_ok, mapErr_eq_ok, pure_eq_ok, Prod.exists,
      Prod.mk.injEq] at hs
    obtain ⟨_, -, _, -, _, payload, -, _, hsign, _, -, -, -, rfl⟩ := hs
    exact sign_target_of_signEnvelopeWith hsign

theorem after_helloAck (hafter : p' = p.after P J (.helloAck runs.length env response))
    (hruns : p.runs = runs ++ [⟨config, peerManifest, popNonce, some initiator, none, none⟩])
    (h : (config.takeHelloAck P J env initiator response).2 = .ok (next, commit, peerPk)) :
    p'.runs = runs ++
        [⟨config, peerManifest, popNonce, some next, some (commit, peerPk), none⟩] ∧
      commit.target ∈ p'.signed := by
  subst hafter
  simp only [after, takeHelloAck, hruns, List.getElem?_concat_length, h, List.set_append_right, le_refl,
    Nat.sub_self, List.set_cons_zero, true_and]
  refine .inr (target_mem_reveal (by rw [h]; rfl) ?_)
  intro k e' hk
  rcases hs : (InitiatorConfig.takeHelloAck P J { config with signingKey := k } env initiator
    response).2 with _ | ⟨s', posted, pk⟩
  · rw [hs] at hk
    cases hk
  · rw [hs] at hk
    obtain rfl := Except.ok.inj hk
    unfold InitiatorConfig.takeHelloAck at hs
    split at hs
    · cases hs
    · simp only at hs
      split at hs
      · cases hs
      · simp only [bind_eq_ok, mapErr_eq_ok, pure_eq_ok, Prod.mk.injEq] at hs
        obtain ⟨_, hsign, -, rfl, -⟩ := hs
        exact sign_target_of_signEnvelopeWith hsign

theorem after_commitAck {session : SessionContext}
    (hafter : p' = p.after P J (.commitAck runs.length env response))
    (hruns : p.runs = runs ++
      [⟨config, peerManifest, popNonce, some initiator, some (commit, peerPk), none⟩])
    (h : (config.takeCommitAck P env peerManifest initiator peerPk response).2 = .ok session) :
    p'.runs = runs ++
      [⟨config, peerManifest, popNonce, none, some (commit, peerPk), some session⟩] := by
  subst hafter
  simp only [after, takeCommitAck, hruns, List.getElem?_concat_length, h, List.set_append_right, le_refl,
    Nat.sub_self, List.set_cons_zero]

end

section

variable {server : HandshakeServer} {limits : SessionLimits} {request : Request}
  {clock : TableClock}

theorem after_hello {draws : HelloDraws}
    (hafter : p' = p.after P J (.hello server limits request draws clock))
    (h : (server.serveHello P J limits p.state request draws clock).1 = .ok e) :
    p'.state = (server.serveHello P J limits p.state request draws clock).2 ∧
      e.target ∈ p'.signed := by
  subst hafter
  simp only [after, handleHello]
  split
  · next hr =>
    simp only [HandshakeServer.serveHello, hr] at h
    cases h
  · next hr =>
    constructor
    · simp only [HandshakeServer.serveHello, hr]
    · refine .inr (target_mem_reveal h ?_)
      intro k e' hk
      simp only [HandshakeServer.serveHello, HandshakeServer.signHelloAck, bind_eq_ok,
        mapErr_eq_ok] at hk
      obtain ⟨_, -, hsign⟩ := hk
      exact sign_target_of_signEnvelopeWith hsign

theorem after_commit {sessionId : Option String} {draws : CommitDraws}
    {completed : CompletedSession}
    (hafter : p' = p.after P J (.commit server limits request sessionId draws clock))
    (hc : (server.receiveCommit P limits p.state request sessionId draws clock).1 = .ok completed)
    (h : (server.serveCommit P limits p.state request sessionId draws clock).1 = .ok e) :
    p'.completed = p.completed ++ [completed] ∧ e.target ∈ p'.signed := by
  subst hafter
  simp only [after, handleCommit]
  split
  · next hr =>
    rw [hr] at hc
    cases hc
  · next hr =>
    rw [hr] at hc
    obtain rfl := Except.ok.inj hc
    refine ⟨rfl, .inr (target_mem_reveal h ?_)⟩
    intro k e' hk
    simp only [HandshakeServer.serveCommit, HandshakeServer.signCommitAck, bind_eq_ok,
      mapErr_eq_ok] at hk
    obtain ⟨_, -, hsign⟩ := hk
    exact sign_target_of_signEnvelopeWith hsign

end

end Party

/-! ## What is delivered -/

theorem eq_of_parse_posting {source : String} {now : ℕ} {expected : MessageType}
    {e' : AitpEnvelope} (h : e.Readable P)
    (hp : (Request.posting e source now).parse P expected = .ok e') : e' = e := by
  obtain ⟨hd, hv, hparse⟩ := h
  obtain ⟨-, -, ⟨value, hv', hparse'⟩, -⟩ := parse_ok_iff.mp hp
  have hvalue : (Request.posting e source now).value P = some ⟨e.toValue, hd⟩ := hv
  obtain rfl := Option.some.inj (hvalue.symm.trans hv')
  exact Except.ok.inj (hparse'.symm.trans hparse)

theorem eq_of_read_carrying {sessionId : String} {e' : AitpEnvelope} (h : e.Readable P)
    (hlen : e.FitsResponse)
    (hr : readAitpEnvelopeResponse P (.carrying sessionId e) = .ok e') : e' = e :=
  Except.ok.inj (hr.symm.trans (readAitpEnvelopeResponse_carrying h hlen))

/-- A guard that limits no rate remembers a message that is posted, and lets any other through that
it does not remember. -/
theorem admits_of_posted {config : ServerConfig} {state : ServerState} {expected : MessageType}
    {source source' : String} {now now' : ℕ} {messageId : Uuid} {sender : Aid}
    (hlimit : config.rateLimit = none) (h : e.Readable P) (hne : e.messageId ≠ messageId)
    (hseen : state.seen messageId.hyphenated = none) :
    (receiveEnvelope P config state (.posting e source now) expected).2.Admits config messageId
      sender source' now' := by
  have hparses : ∃ value, (Request.posting e source now).value P = some value ∧
      parseEnvelopeWire value = .ok e := by
    obtain ⟨hd, hv, hp⟩ := h
    exact ⟨_, hv, hp⟩
  have hkept : (state.seen.checkAndRecord e.messageId.hyphenated now config.replayWindow).2
      messageId.hyphenated = none := by
    rw [Seen.checkAndRecord_of_ne fun he => hne (Uuid.hyphenated_injective he).symm]
    simp only [Seen.retain, hseen, Option.filter_none]
  have hleft : (receiveEnvelope P config state (.posting e source now) expected).2.seen =
      (state.seen.checkAndRecord e.messageId.hyphenated now config.replayWindow).2 := by
    have hbody := body_of_parses hparses
    simp only [receiveEnvelope, hbody, Bool.false_eq_true, if_false,
      checkMessageId_of_parses hparses]
    split_ifs <;> rfl
  constructor
  · rw [hleft]
    refine Seen.checkAndRecord_fresh.mpr ?_
    rw [hkept]
    intro t ht
    cases ht
  · rw [hlimit]
    rfl

section

variable {ι : Type} {key : ι → Signer} {w : ι → Party} {a : ι}

theorem unforged_of_signed (hkey : Function.Injective fun c => (key c).aid)
    (hs : e.sender = (key a).aid) (ht : e.target ∈ (w a).signed) : Unforged P key w e := by
  intro a' vk hs' _ _
  obtain rfl := hkey (hs.symm.trans hs')
  exact ht

theorem exists_act [DecidableEq ι] {act : Act} (h : ((network P J).restrict (Honestly P key)).Reachable w)
    (hact : Honestly P key w (a, act)) :
    ∃ w', ((network P J).restrict (Honestly P key)).Reachable w' ∧ w' a = (w a).after P J act ∧
      ∀ c, c ≠ a → w' c = w c :=
  ⟨_, .step h ⟨hact, rfl⟩, Function.update_self .., fun _ hc => Function.update_of_ne hc ..⟩

end

/-! ## The handshake -/

namespace HttpHandshake

section

variable {ι : Type} (P : Primitives) (x : HttpHandshake) (key : ι → Signer) (a b : ι)

/-- The handshake is one of two agents, each of which acts for itself. -/
structure Between : Prop where
  initiator : x.config.signingKey = key a
  responder : x.server.signingKey = key b
  pinned : ∃ store, x.config.trustMode = .pinnedKeys store
  trustAnchors : x.server.trustAnchors = []
  identityVerifier : x.server.identityVerifier = none
  distinct : Function.Injective fun c => (key c).aid

/-- A server's guard limits no rate and has seen neither message. -/
structure Unseen (guard : ServerState) : Prop where
  unlimited : x.server.config.rateLimit = none
  hello : guard.seen x.env.helloMessageId.hyphenated = none
  commit : guard.seen x.env.commitMessageId.hyphenated = none
  distinct : x.env.helloMessageId ≠ x.env.commitMessageId

/-- The answers of the server are not too large to be read. -/
structure AnswersFit (ki kr : VerifyingKey) : Prop where
  helloAck : ∀ input proof e, pinnedKeyProofInput x.server.signingKey.aid
      x.config.ownManifest.aid x.helloDraws.ackMessageId x.helloDraws.ackTimestamp
      (encodeBase64Url x.serverNonce.bytes) = .ok input →
    x.server.signingKey.signJcs input = .ok proof →
    signEnvelopeWith x.server.signingKey .mutualHelloAck (x.helloAckPayload kr proof).toValue
      x.helloDraws.ackMessageId x.helloDraws.ackTimestamp = .ok e → e.FitsResponse
  commitAck : ∀ proof m e, commitTo P x.acknowledger (x.awaiting ki proof).peerIdentity
      x.config.ownManifest.aid ki x.config.requestedGrants (encodeBase64Url x.initiatorNonce.bytes)
      x.commitDraws.jti = .ok m →
    signEnvelopeWith x.server.signingKey .mutualCommitAck m.toValue x.commitDraws.ackMessageId
      x.commitDraws.ackTimestamp = .ok e → e.FitsResponse

/-- The session is in the table when the COMMIT arrives. -/
def InTime : Prop :=
  x.commitClock.first - x.helloClock.second ≤ x.limits.sessionTtl ∧
    x.commitClock.second - x.helloClock.second ≤ x.limits.sessionTtl

end

theorem Unseen.admits_hello {x : HttpHandshake} {guard : ServerState} (h : x.Unseen guard) :
    guard.Admits x.server.config x.env.helloMessageId x.config.ownManifest.aid x.helloSource
      x.helloReceived := by
  constructor
  · refine Seen.checkAndRecord_fresh.mpr ?_
    rw [h.hello]
    nofun
  · rw [h.unlimited]
    rfl

theorem Unseen.admits_commit {x : HttpHandshake} {state left : HandshakeState} {payload : Json}
    (h : x.Unseen state.guard)
    (hleft : left = (x.server.serveHello P J x.limits state (x.helloRequest e) x.helloDraws
      x.helloClock).2)
    (hr : e.Readable P)
    (he : signEnvelopeWith x.config.signingKey .mutualHello payload x.env.helloMessageId
      x.env.helloTimestamp = .ok e) :
    left.guard.Admits x.server.config x.env.commitMessageId x.config.ownManifest.aid
      x.commitSource x.commitReceived := by
  have hid : e.messageId = x.env.helloMessageId := by
    obtain ⟨-, -, -, sig, -, rfl⟩ := signEnvelopeWith_eq_ok.mp he
    rfl
  have hguard : left.guard = (receiveEnvelope P x.server.config state.guard (x.helloRequest e)
      .mutualHello).2 := by
    rw [hleft]
    simp only [HandshakeServer.serveHello, HandshakeServer.receiveHello]
    split <;> rfl
  rw [hguard]
  exact admits_of_posted h.unlimited hr (hid ▸ h.distinct) h.commit

variable {ι : Type} [DecidableEq ι] {x : HttpHandshake} {key : ι → Signer} {w : ι → Party} {a b : ι}
  {ki kr : VerifyingKey} {grantsI grantsR : List String}

/-- From any state that honest agents reach, two of them that trust each other may complete a
handshake with each other. -/
theorem Honest.exists_completed (hP : P.ReadsText) (h : x.Honest P ki kr grantsI grantsR)
    (hx : x.Between key a b) (hfit : x.AnswersFit P ki kr) (htime : x.InTime)
    (hw : ((network P J).restrict (Honestly P key)).Reachable w)
    (hfresh : x.initiatorNonce ∉ (w a).drawn ∧ x.serverNonce ∉ (w b).drawn)
    (hguard : x.Unseen (w b).state.guard) :
    ∃ w', ((network P J).restrict (Honestly P key)).Reachable w' ∧
      (∃ run ∈ (w' a).runs, ∃ session, run.session = some session ∧
        run.peerManifest.aid = (key b).aid) ∧
      ∃ c ∈ (w' b).completed, c.session.peer.aid = (key a).aid := by
  have hown : x.config.ownManifest.aid = (key a).aid :=
    h.initiatorHolds.aid.symm.trans (congrArg Signer.aid hx.initiator)
  have hpeer : x.server.manifest.aid = (key b).aid :=
    h.responderHolds.aid.symm.trans (congrArg Signer.aid hx.responder)
  have hab : a ≠ b := by
    rintro rfl
    exact h.aid_ne (hown.trans hpeer.symm)
  obtain ⟨proof, input, hello, hstart, hs, hi, hp, he⟩ := h.exists_hello
  have hnonce : freshNonce x.env.popNonce = .ok (encodeBase64Url x.initiatorNonce.bytes) := by
    rw [h.nonces.1]
    rfl
  -- The run starts.
  have hact₁ : Honestly P key w (a, .start x.config x.env) := by
    refine ⟨⟨hx.initiator, hown, hx.pinned, ?_⟩, ?_⟩
    · rw [h.nonces.1]
      rintro n ⟨⟩
      exact hfresh.1
    · rintro e ⟨⟩
  obtain ⟨w₁, hw₁, hself₁, hrest₁⟩ := exists_act hw hact₁
  obtain ⟨hruns₁, hhello⟩ := Party.after_start hself₁ hnonce hstart
  have hb₁ := hrest₁ b hab.symm
  -- The server answers the HELLO.
  have hreadable := h.readable_hello hP hs he
  obtain ⟨proof', input', helloAck, hserve, hopened, hi', hp', hack⟩ :=
    h.exists_helloAck (J := J) hP hguard.admits_hello hs hi hp he
  have hact₂ : Honestly P key w₁
      (b, .hello x.server x.limits (x.helloRequest hello) x.helloDraws x.helloClock) := by
    refine ⟨⟨hx.responder, hpeer, hx.trustAnchors, hx.identityVerifier, ?_⟩, ?_⟩
    · rw [h.nonces.2, hb₁]
      rintro n ⟨⟩
      exact hfresh.2
    · intro e hd
      obtain rfl := eq_of_parse_posting hreadable hd
      refine unforged_of_signed hx.distinct ?_ hhello
      exact (sender_of_signEnvelopeWith he).trans (congrArg Signer.aid hx.initiator)
  obtain ⟨w₂, hw₂, hself₂, hrest₂⟩ := exists_act hw₁ hact₂
  obtain ⟨hstate₂, hhelloAck⟩ := Party.after_hello hself₂ (by rw [hb₁]; exact hserve)
  rw [hb₁] at hstate₂
  have hruns₂ := (congrArg Party.runs (hrest₂ a hab)).trans hruns₁
  -- The run takes the answer, and posts its COMMIT.
  have hlen := hfit.helloAck input' proof' helloAck hi' hp' hack
  obtain ⟨c, m, commit, hm, hcommit, hext, htake⟩ :=
    h.exists_commit (J := J) hP hi' hp' hack hlen
  have hact₃ : Honestly P key w₂
      (a, .helloAck (w a).runs.length x.env (.carrying x.sessionHeader helloAck)) := by
    refine ⟨h.exact.1.fits, ?_⟩
    intro e hd
    obtain rfl := eq_of_read_carrying (h.readable_helloAck hP hack) hlen hd
    refine unforged_of_signed hx.distinct ?_ hhelloAck
    exact (sender_of_signEnvelopeWith hack).trans (congrArg Signer.aid hx.responder)
  obtain ⟨w₃, hw₃, hself₃, hrest₃⟩ := exists_act hw₂ hact₃
  obtain ⟨hruns₃, hposted⟩ := Party.after_helloAck hself₃ hruns₂ (by rw [htake])
  have hstate₃ := (congrArg Party.state (hrest₃ b hab.symm)).trans hstate₂
  -- The server completes the session of the HELLO.
  have hmem : (x.helloDraws.sessionId, ⟨.awaitingCommit (x.awaiting ki proof),
      x.helloClock.second⟩) ∈ (w₃ b).state.sessions.entries := by
    rw [hstate₃, hopened]
    exact List.mem_cons_self
  obtain ⟨c', completed, commitAck, hcompleted, hanswered, hsession, -, hissued, hm', hext',
    hack'⟩ := h.exists_commitAck hP (hguard.admits_commit hstate₃ hreadable he) hmem rfl htime hm
      hext hcommit
  have hact₄ : Honestly P key w₃ (b, .commit x.server x.limits (x.commitRequest commit)
      (some x.sessionHeader) x.commitDraws x.commitClock) := by
    refine ⟨⟨hx.responder, hpeer, h.readings.1.1⟩, ?_⟩
    intro e hd
    obtain rfl := eq_of_parse_posting (h.readable_commit hP hext hcommit) hd
    refine unforged_of_signed hx.distinct ?_ hposted
    exact (sender_of_signEnvelopeWith hcommit).trans (congrArg Signer.aid hx.initiator)
  obtain ⟨w₄, hw₄, hself₄, hrest₄⟩ := exists_act hw₃ hact₄
  obtain ⟨hcompleted₄, hcommitAck⟩ := Party.after_commit hself₄ hcompleted hanswered
  have hruns₄ := (congrArg Party.runs (hrest₄ a hab)).trans hruns₃
  -- The run returns.
  have hlen' := hfit.commitAck proof completed.ack commitAck hissued hack'
  have hact₅ : Honestly P key w₄
      (a, .commitAck (w a).runs.length x.env (.carrying "" commitAck)) := by
    refine ⟨trivial, ?_⟩
    intro e hd
    obtain rfl := eq_of_read_carrying (h.readable_commitAck hP hext' hack') hlen' hd
    refine unforged_of_signed hx.distinct ?_ hcommitAck
    exact (sender_of_signEnvelopeWith hack').trans (congrArg Signer.aid hx.responder)
  obtain ⟨w₅, hw₅, hself₅, hrest₅⟩ := exists_act hw₄ hact₅
  have hruns₅ := Party.after_commitAck hself₅ hruns₄
    (by rw [h.takeCommitAck_ok hP "" hm' hext' hack' hlen'])
  refine ⟨w₅, hw₅, ⟨_, hruns₅ ▸ List.mem_append_right _ List.mem_cons_self, _, rfl, hpeer⟩,
    completed, ?_, ?_⟩
  · rw [hrest₅ b hab.symm, hcompleted₄]
    exact List.mem_append_right _ List.mem_cons_self
  · rw [hsession]
    exact hown

end HttpHandshake

/-! ## Two agents that pin each other's keys -/

/-- The length of an envelope's text. -/
theorem AitpEnvelope.length_text_le (hx : e.extensions = none) :
    e.toValue.text.length ≤ (strText e.version).length + (strText e.messageType.asWireStr).length +
      (strText e.messageId.hyphenated).length + (intText e.timestamp).length +
      (strText e.sender.value).length + e.payload.text.length + (strText e.signature).length +
      200 := by
  have hv : e.toValue = .obj [("version", .str e.version),
      ("message_type", .str e.messageType.asWireStr), ("message_id", .str e.messageId.hyphenated),
      ("timestamp", .int e.timestamp), ("sender", .obj [("agent_id", .str e.sender.value)]),
      ("payload", e.payload), ("signature", .str e.signature)] := by
    unfold AitpEnvelope.toValue
    rw [hx]
    rfl
  have hk : ∀ k ∈ ["version", "message_type", "message_id", "timestamp", "sender", "agent_id",
      "payload", "signature"], (strText k).length ≤ 14 := by decide
  rw [hv]
  simp only [List.forall_mem_cons] at hk
  simp only [Json.text, Json.textMembers, List.length_cons, List.length_append, List.length_nil]
  omega

theorem MutualCommitPayload.length_text_le {m : MutualCommitPayload} {v : String}
    (hx : m.extensions = none) (hv : m.grantVoucher = some v) :
    m.toValue.text.length ≤ (strText m.tct).length + (strText v).length +
      (strText m.popSignature).length + (strText m.popNonceEcho).length + 100 := by
  have hvalue : m.toValue = .obj [("tct", .str m.tct), ("grant_voucher", .str v),
      ("pop_signature", .str m.popSignature), ("pop_nonce_echo", .str m.popNonceEcho)] := by
    unfold MutualCommitPayload.toValue
    rw [hx, hv]
    rfl
  have hk : ∀ k ∈ ["tct", "grant_voucher", "pop_signature", "pop_nonce_echo"],
      (strText k).length ≤ 16 := by decide
  rw [hvalue]
  simp only [List.forall_mem_cons] at hk
  simp only [Json.text, Json.textMembers, List.length_cons, List.length_append, List.length_nil]
  omega

/-- A HELLO_ACK is as long as the manifest and the strings in it. -/
theorem MutualHelloAckPayload.length_text_le {m : MutualHelloAckPayload}
    {subject publicKey proof : String} (hx : m.extensions = none)
    (hi : m.identity = .pinnedKey subject publicKey proof) :
    m.toValue.text.length ≤ (strText subject).length + (strText publicKey).length +
      (strText proof).length + m.manifest.toValue.text.length +
      (stringsValue m.requestedGrants).text.length + (strText m.popNonce).length +
      (strText m.popNonceEcho).length + 300 := by
  have hvalue : m.toValue = .obj [("identity", .obj [("type", .str "pinned_key"),
      ("subject", .str subject), ("proof", .str proof), ("public_key", .str publicKey)]),
      ("manifest", m.manifest.toValue), ("requested_grants", stringsValue m.requestedGrants),
      ("pop_nonce", .str m.popNonce), ("pop_nonce_echo", .str m.popNonceEcho)] := by
    unfold MutualHelloAckPayload.toValue
    rw [hx, hi]
    rfl
  have hk : ∀ k ∈ ["identity", "type", "pinned_key", "subject", "proof", "public_key", "manifest",
      "requested_grants", "pop_nonce", "pop_nonce_echo"], (strText k).length ≤ 20 := by decide
  rw [hvalue]
  simp only [List.forall_mem_cons] at hk
  simp only [Json.text, Json.textMembers, List.length_cons, List.length_append, List.length_nil]
  omega

namespace Toy

theorem length_signature (t : Target) : (signature t).length = rawSignatureLen :=
  List.length_replicate

theorem algorithm_agent : (agent 0).algorithm = .ed25519 := by decide +kernel

theorem length_of_signJcs {m : Bytes} {sig : String}
    (h : (signer (agent 0)).signJcs m = .ok sig) : sig.length = 86 := by
  simp only [Signer.signJcs, signer, algorithm_agent, Signature.fromRaw] at h
  obtain rfl := Except.ok.inj h
  exact Signature.length_encodeBase64Url (length_signature _)

/-- A token is as long as its claims. -/
theorem length_of_signCompact {typ token : String} {claims : Json}
    (ht : (asBytes ("\x7b\"alg\":\"" ++ joseAlg .ed25519 ++ "\",\"typ\":\"" ++ typ ++
      "\"\x7d")).length ≤ 100)
    (h : signCompact (signer (agent 0)) typ claims = .ok token) :
    token.length ≤ 2 * claims.jcs.length + 300 := by
  simp only [signCompact, compactSigningInput, bind_eq_ok, pure_eq_ok] at h
  obtain ⟨_, ⟨_, -, rfl⟩, sig, hs, rfl⟩ := h
  have hsig : sig.length = 64 := by
    simp only [Signer.signRaw, signer] at hs
    rw [← Except.ok.inj hs]
    exact length_signature _
  have ha : (signer (agent 0)).aid.algorithm = .ed25519 := algorithm_agent
  rw [ha]
  have hdot : ".".length = 1 := rfl
  simp only [String.length_append, RawAid.length_encode, hsig, hdot]
  omega

theorem fitsResponse_of_signed {messageType : MessageType} {payload : Json} {n : Fin 16}
    {t : Timestamp}
    (he : signEnvelopeWith (signer (agent 0)) messageType payload (uuid n) t = .ok e)
    (ht : (intText t).length ≤ 20) (hp : payload.text.length ≤ 60000) : e.FitsResponse := by
  have hfields : e.extensions = none ∧ e.version = protocolVersion ∧ e.messageType = messageType ∧
      e.messageId = uuid n ∧ e.timestamp = t ∧ e.sender = agent 0 ∧ e.payload = payload ∧
      e.signature.length = 86 := by
    obtain ⟨-, -, -, sig, hs, rfl⟩ := signEnvelopeWith_eq_ok.mp he
    exact ⟨rfl, rfl, rfl, rfl, rfl, rfl, rfl, length_of_signJcs hs⟩
  obtain ⟨hx, hv, hm, hi, ht', ha, hp', hs⟩ := hfields
  have hlen := AitpEnvelope.length_text_le hx
  rw [hv, hm, hi, ht', ha, hp'] at hlen
  have hs' := Json.length_strText_le e.signature
  have ha : (strText (agent 0).value).length ≤ 100 := by decide +kernel
  have hv : (strText protocolVersion).length ≤ 100 := by decide +kernel
  have hi := Json.length_strText_le (uuid n).hyphenated
  rw [← String.length_toList, Uuid.length_hyphenated] at hi
  have hm : (strText messageType.asWireStr).length ≤ 200 := by
    cases messageType <;> decide +kernel
  have hle : e.toValue.text.length ≤ 65536 := by omega
  calc (utf8 e.toValue.text).length ≤ 4 * e.toValue.text.length := length_utf8_le _
    _ ≤ 4 * 65536 := Nat.mul_le_mul_left 4 hle
    _ = maxResponseBytes := rfl

theorem length_manifest : (namedManifest (some "agent")).toValue.text.length ≤ 10000 := by
  decide +kernel

theorem length_nonceText (n : Fin 4) :
    (strText (encodeBase64Url (nonce n).bytes)).length ≤ 200 := by
  have hn := Json.length_strText_le (encodeBase64Url (nonce n).bytes)
  have hlen : (nonce n).bytes.length = 16 := (nonce n).length_eq
  rw [RawAid.length_encode, hlen] at hn
  omega

/-- What agent 0 issues to agent 1. -/
def httpBuilder : TctBuilder :=
  { TctBuilder.new (signer (agent 0)) (drawnV4 6) with
    subject := some (agent 1)
    audience := some (agent 1)
    grants := ["demo.echo"]
    ttl := (issueTtl httpHandshake.acknowledger).toNat
    subjectPubkey := some (agentKey 1)
    nowOverride := some 12 }

theorem length_httpBuilder {d : TctDraft} (h : httpBuilder.draft primitives 12 = .ok d) :
    d.claims.toValue.jcs.length ≤ 2000 ∧
      ∃ v, d.voucher = some v ∧ v.toValue.jcs.length ≤ 2000 := by
  have hall : (httpBuilder.draft primitives 12).toOption.all (fun d =>
      decide (d.claims.toValue.jcs.length ≤ 2000) &&
        d.voucher.any fun v => decide (v.toValue.jcs.length ≤ 2000)) = true := by
    decide +kernel
  rw [h] at hall
  simpa [Except.toOption, Option.any_eq_true] using hall

theorem httpHandshake_answersFit :
    httpHandshake.AnswersFit primitives (agentKey 1) (agentKey 0) where
  helloAck := by
    intro input proof e _ hp he
    let m := httpHandshake.helloAckPayload (agentKey 0) proof
    refine fitsResponse_of_signed he (by decide) (show m.toValue.text.length ≤ 60000 from ?_)
    have hlen : m.toValue.text.length ≤ _ := MutualHelloAckPayload.length_text_le rfl rfl
    have hsubject : (strText httpHandshake.server.subject).length ≤ 100 := by decide +kernel
    have hkey : (strText (encodeBase64Url (agentKey 0).bytes)).length ≤ 500 := by decide +kernel
    have hproof := Json.length_strText_le proof
    rw [length_of_signJcs hp] at hproof
    have hmanifest : m.manifest.toValue.text.length ≤ 10000 := length_manifest
    have hgrants : (stringsValue m.requestedGrants).text.length ≤ 100 :=
      show (stringsValue ["demo.echo"]).text.length ≤ 100 by decide
    have hnonce : (strText m.popNonce).length ≤ 200 := length_nonceText 2
    have hecho : (strText m.popNonceEcho).length ≤ 200 := length_nonceText 1
    omega
  commitAck := by
    intro proof m e hm he
    refine fitsResponse_of_signed he (by decide) ?_
    simp only [commitTo, issueTctForPeer, bind_eq_ok, mapErr_eq_ok, pure_eq_ok] at hm
    obtain ⟨issued, ⟨grants, hg, _, -, _, -, hb⟩, sig, hs, hm⟩ := hm
    obtain rfl : ["demo.echo"] = grants := Except.ok.inj hg
    obtain ⟨d, hd, ht, hv, -⟩ := TctBuilder.build_eq_ok.mp hb
    obtain ⟨hclaims, v, hvoucher, hvclaims⟩ := length_httpBuilder hd
    simp only [hvoucher, signVoucher, bind_eq_ok, mapErr_eq_ok, pure_eq_ok] at hv
    obtain ⟨token, hv, hvtoken⟩ := hv
    simp only [signPop, signNonce, bind_eq_ok, mapErr_eq_ok] at hs
    obtain ⟨_, -, hs⟩ := hs
    have hvoucher' : m.grantVoucher = some token := by
      rw [← hm]
      exact hvtoken.symm
    have hlen := MutualCommitPayload.length_text_le (by rw [← hm]) hvoucher'
    have htct : (strText m.tct).length ≤ 6 * issued.token.length + 2 := by
      rw [← hm]
      exact Json.length_strText_le issued.token
    have htoken := length_of_signCompact (by decide +kernel) ht
    have hvtext := Json.length_strText_le token
    have hvlen := length_of_signCompact (by decide +kernel) hv
    have hsig : (strText m.popSignature).length ≤ 6 * sig.length + 2 := by
      rw [← hm]
      exact Json.length_strText_le sig
    rw [length_of_signJcs hs] at hsig
    have hecho : (strText m.popNonceEcho).length ≤ 200 := by
      rw [← hm]
      exact length_nonceText 1
    omega

theorem httpHandshake_between : httpHandshake.Between (fun n : Fin 4 => signer (agent n)) 1 0 where
  initiator := rfl
  responder := rfl
  pinned := ⟨_, rfl⟩
  trustAnchors := rfl
  identityVerifier := rfl
  distinct := agent_injective

theorem httpHandshake_unseen : httpHandshake.Unseen newServerState where
  unlimited := rfl
  hello := rfl
  commit := rfl
  distinct := by decide

end Toy

end Aitp
