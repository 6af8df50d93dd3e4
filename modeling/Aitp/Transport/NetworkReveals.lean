import Aitp.Transport.Network

/-! # What an honest agent reveals

Each act reveals the signature of one envelope, the one it posts or answers with, and of
no other: the proofs and the tokens beside it are signed over other bytes. This is where
nonces must be of their length, which the verifier of pinned keys checks.
-/

namespace Aitp

variable {P : Primitives} {J : Jose} {e : AitpEnvelope}

namespace Party

theorem notMem_reveal {α : Type} {signer : Signer} {f : Signer → Except α AitpEnvelope} {t : Target}
    (h : f (signer.without t) = f signer) : t ∉ reveal signer f :=
  Signer.not_reveals (f := fun k => (f k).toOption) (congrArg Except.toOption h)

theorem exists_of_mem_reveal {α : Type} {signer : Signer} {f : Signer → Except α AitpEnvelope}
    {t : Target} (h : t ∈ reveal signer f) : ∃ e, f signer = .ok e := by
  obtain ⟨r, hr, -⟩ := h
  exact ⟨r, toOption_eq_some.mp hr⟩

theorem target_of_mem_reveal {α : Type} {signer : Signer} {f : Signer → Except α AitpEnvelope}
    (he : e.target ∈ reveal signer f) {answer : AitpEnvelope} (hf : f signer = .ok answer)
    (h : answer.target ≠ e.target → f (signer.without e.target) = .ok answer) :
    e.target = answer.target := by
  by_contra hne
  exact notMem_reveal ((h (Ne.symm hne)).trans hf.symm) he

end Party

/-! ## The peer's identity -/

section

variable {cfg : PeerConfig} {envelope : AitpEnvelope} {key : VerifyingKey}

theorem pinnedKey_of_bootstrap {manifest : Manifest} {identity : IdentityDescriptor}
    {popNonce : String} (ha : cfg.trustAnchors = []) (hv : cfg.identityVerifier = none)
    (h : bootstrapVerifyPeer P J envelope manifest identity popNonce cfg = .ok key) :
    identity.kind = .pinnedKey := by
  simp only [bootstrapVerifyPeer, bind_eq_ok] at h
  obtain ⟨_, -, _, -, _, -, _, -, _, -, hp⟩ := h
  unfold verifyIdentityProof at hp
  cases hk : identity.kind with
  | pinnedKey => rfl
  | oidc =>
    simp only [hk, bind_eq_ok, verifyOidc, ha, ensure_eq_ok] at hp
    obtain ⟨_, -, _, -, _, ⟨_, -, _, -, _, hanchor, -⟩, -⟩ := hp
    simp at hanchor
  | spiffe =>
    simp only [hk, bind_eq_ok, verifyOtherIdentity, hv, okOr_eq_ok] at hp
    obtain ⟨_, ⟨_, hnone, -⟩, -⟩ := hp
    cases hnone

theorem onHelloAck_without (s : Initiator) {ack : MutualHelloAckPayload} (drawn : RandomV4)
    (ha : cfg.trustAnchors = []) (hv : cfg.identityVerifier = none) :
    s.onHelloAck P J envelope ack (cfg.without e.target) drawn =
      s.onHelloAck P J envelope ack cfg drawn := by
  unfold Initiator.onHelloAck
  split
  · rename_i myPopNonce intended
    have hwithout : Initiator.bindPeer P J myPopNonce intended envelope ack (cfg.without e.target) =
        Initiator.bindPeer P J myPopNonce intended envelope ack cfg := rfl
    rw [hwithout]
    cases hb : Initiator.bindPeer P J myPopNonce intended envelope ack cfg with
    | error err => rfl
    | ok peerPk =>
      have hn : ack.popNonce.length = 22 := by
        simp only [Initiator.bindPeer, bind_eq_ok, pure_eq_ok] at hb
        obtain ⟨_, -, _, -, _, -, _, hboot, _, -, rfl⟩ := hb
        exact length_of_pinnedKey hboot (pinnedKey_of_bootstrap ha hv hboot)
      simp only [commitTo_without hn]
  · rfl

end

/-! ## The initiator -/

section

variable {config : InitiatorConfig} {env : Surroundings} {peerManifest : Manifest}
  {initiator initiator' : Initiator} {hello commit : AitpEnvelope} {peerPk : VerifyingKey}
  {response : Response}

theorem target_of_signEnvelopeWith {signer : Signer} {messageType : MessageType} {payload : Json}
    {messageId : Uuid} {timestamp : Timestamp}
    (h : signEnvelopeWith signer messageType payload messageId timestamp = .ok e) :
    (AitpEnvelope.unsigned signer.aid messageType payload messageId timestamp).target =
      e.target := by
  obtain ⟨-, -, -, sig, -, rfl⟩ := signEnvelopeWith_eq_ok.mp h
  exact congrArg Target.digest (envelopeSigningInput_signature _ sig).symm

/-- An envelope is signed without the signature of another. -/
theorem signEnvelopeWith_without_of_ne {signer : Signer} {messageType : MessageType}
    {payload : Json} {messageId : Uuid} {timestamp : Timestamp} {signed : AitpEnvelope}
    (h : signEnvelopeWith signer messageType payload messageId timestamp = .ok signed)
    (hne : signed.target ≠ e.target) :
    signEnvelopeWith (signer.without e.target) messageType payload messageId timestamp =
      .ok signed := by
  refine (signEnvelopeWith_without ?_).trans h
  rwa [target_of_signEnvelopeWith h]

theorem start_without (cfg : PeerConfig) (identity : PresentedIdentity) (peerAid : Aid)
    (messageId : Uuid) (timestamp : Timestamp) (grants : List String) (drawn : Option Nonce) :
    Initiator.start P (cfg.without e.target) identity peerAid messageId timestamp grants drawn =
      Initiator.start P cfg identity peerAid messageId timestamp grants drawn := by
  have hd : ∀ ctx, identity.buildDescriptor P ctx (cfg.without e.target).signingKey =
      identity.buildDescriptor P ctx cfg.signingKey := buildDescriptor_without identity
  simp only [Initiator.start, hd]
  rfl

/-- A run's configuration whose backend refuses one target. -/
def InitiatorConfig.without (config : InitiatorConfig) (t : Target) : InitiatorConfig :=
  { config with signingKey := config.signingKey.without t }

theorem startHandshake_without
    (h : config.startHandshake P env = .ok (peerManifest, initiator, hello))
    (hne : hello.target ≠ e.target) :
    (config.without e.target).startHandshake P env = config.startHandshake P env := by
  rw [h]
  simp only [InitiatorConfig.startHandshake, bind_eq_ok, mapErr_eq_ok, pure_eq_ok, Prod.exists,
    Prod.mk.injEq] at h
  obtain ⟨m, hm, _, hc, i, payload, hs, e', hsign, _, hr, rfl, rfl, rfl⟩ := h
  have hsign' : signEnvelopeWith (config.without e.target).signingKey .mutualHello payload.toValue
      env.helloMessageId env.helloTimestamp = .ok e' :=
    signEnvelopeWith_without_of_ne hsign hne
  have hcfg : ∀ revocation now, (config.without e.target).peerConfig revocation now =
      (config.peerConfig revocation now).without e.target := fun _ _ => rfl
  simp only [InitiatorConfig.startHandshake, hcfg, start_without, hm, ok_bind]
  simp only [InitiatorConfig.without] at hsign' ⊢
  simp only [hc, hs, hsign', hr, mapErr_ok, ok_bind]
  rfl

theorem reveal_startHandshake (h : config.startHandshake P env = .ok (peerManifest, initiator, hello))
    (he : e.target ∈ Party.reveal config.signingKey fun k =>
      (InitiatorConfig.startHandshake P { config with signingKey := k } env).map fun r => r.2.2) :
    e.target = hello.target := by
  apply Party.target_of_mem_reveal he (congrArg (Except.map _) h)
  intro hne
  exact congrArg (Except.map _) ((startHandshake_without h hne).trans h)

theorem takeHelloAck_without {store : PinnedKeyStore}
    (hstore : config.trustMode = .pinnedKeys store)
    (h : (config.takeHelloAck P J env initiator response).2 = .ok (initiator', commit, peerPk))
    (hne : commit.target ≠ e.target) :
    ((config.without e.target).takeHelloAck P J env initiator response).2 =
      (config.takeHelloAck P J env initiator response).2 := by
  have ha : (config.peerConfig noTctYet env.helloAckNow).trustAnchors = [] := by
    simp only [InitiatorConfig.peerConfig, hstore]
  have hcfg : ∀ revocation now, (config.without e.target).peerConfig revocation now =
      (config.peerConfig revocation now).without e.target := fun _ _ => rfl
  rw [h]
  unfold InitiatorConfig.takeHelloAck at h ⊢
  split at h
  · cases h
  · rename_i envelope ack key hread
    simp only [hcfg, onHelloAck_without initiator env.jti ha rfl]
    simp only at h
    split at h
    · cases h
    · rename_i next payload hstep
      simp only [bind_eq_ok, mapErr_eq_ok, pure_eq_ok, Prod.mk.injEq] at h
      obtain ⟨e', hsign, rfl, rfl, rfl⟩ := h
      have hsign' : signEnvelopeWith (config.without e.target).signingKey .mutualCommit
          payload.toValue env.commitMessageId env.commitTimestamp = .ok e' :=
        signEnvelopeWith_without_of_ne hsign hne
      simp only [hsign', mapErr_ok, ok_bind]
      rfl

theorem reveal_takeHelloAck {store : PinnedKeyStore} (hstore : config.trustMode = .pinnedKeys store)
    (h : (config.takeHelloAck P J env initiator response).2 = .ok (initiator', commit, peerPk))
    (he : e.target ∈ Party.reveal config.signingKey fun k =>
      (InitiatorConfig.takeHelloAck P J { config with signingKey := k } env initiator
        response).2.map fun r => r.2.1) :
    e.target = commit.target := by
  apply Party.target_of_mem_reveal he (congrArg (Except.map _) h)
  intro hne
  exact congrArg (Except.map _) ((takeHelloAck_without hstore h hne).trans h)

end

/-! ## The responder -/

section

variable {server : HandshakeServer} {limits : SessionLimits} {state : HandshakeState}
  {request : Request} {responder : Responder} {ack : MutualHelloAckPayload} {left : HandshakeState}
  {clock : TableClock}

/-- A server whose backend refuses one target. -/
def HandshakeServer.without (server : HandshakeServer) (t : Target) : HandshakeServer :=
  { server with signingKey := server.signingKey.without t }

theorem onHello_without (cfg : PeerConfig) (hello : AitpEnvelope) (payload : MutualHelloPayload)
    (identity : PresentedIdentity) (messageId : Uuid) (timestamp : Timestamp)
    (grants : List String) (drawn : Option Nonce) :
    Responder.onHello P J hello payload identity messageId timestamp (cfg.without e.target) grants
        drawn =
      Responder.onHello P J hello payload identity messageId timestamp cfg grants drawn := by
  have hd : ∀ ctx, identity.buildDescriptor P ctx (cfg.without e.target).signingKey =
      identity.buildDescriptor P ctx cfg.signingKey := buildDescriptor_without identity
  simp only [Responder.onHello, hd]
  rfl

theorem receiveHello_without (server : HandshakeServer) (draws : HelloDraws) :
    (server.without e.target).receiveHello P J limits state request draws clock =
      server.receiveHello P J limits state request draws clock := by
  have hcfg : ∀ now, (server.without e.target).helloConfig now =
      (server.helloConfig now).without e.target := fun _ => rfl
  simp only [HandshakeServer.receiveHello, HandshakeServer.takeHello, hcfg, onHello_without]
  rfl

theorem reveal_serveHello {draws : HelloDraws}
    (h : server.receiveHello P J limits state request draws clock = (.ok (responder, ack), left))
    (he : e.target ∈ Party.reveal server.signingKey fun k =>
      (HandshakeServer.serveHello P J { server with signingKey := k } limits state request draws
        clock).1) :
    ∃ answer, server.signHelloAck ack draws = .ok answer ∧ e.target = answer.target := by
  obtain ⟨answer, hanswer⟩ := Party.exists_of_mem_reveal he
  have hsign : server.signHelloAck ack draws = .ok answer := by
    simpa only [HandshakeServer.serveHello, h, ok_bind] using hanswer
  refine ⟨answer, hsign, Party.target_of_mem_reveal he hanswer ?_⟩
  intro hne
  have hwithout : (server.without e.target).signHelloAck ack draws = .ok answer := by
    simp only [HandshakeServer.signHelloAck, mapErr_eq_ok] at hsign ⊢
    exact signEnvelopeWith_without_of_ne hsign hne
  change ((server.without e.target).serveHello P J limits state request draws clock).1 = .ok answer
  simp only [HandshakeServer.serveHello, receiveHello_without, h, ok_bind, hwithout]

theorem onCommit_without (s : Responder) (cfg : PeerConfig) (commit : AitpEnvelope)
    (payload : MutualCommitPayload) (drawn : RandomV4)
    (hn : ∀ w, s = .awaitingCommit w → w.peerPopNonce.length = 22) :
    s.onCommit P commit payload (cfg.without e.target) drawn =
      s.onCommit P commit payload cfg drawn := by
  cases s with
  | awaitingCommit w =>
    simp only [Responder.onCommit, commitTo_without (hn w rfl)]
    rfl
  | done => rfl
  | failed => rfl

theorem receiveCommit_without (server : HandshakeServer) (sessionId : Option String)
    (draws : CommitDraws) (hn : ∀ x ∈ state.sessions.entries, ∀ w,
      x.2.responder = .awaitingCommit w → w.peerPopNonce.length = 22) :
    (server.without e.target).receiveCommit P limits state request sessionId draws clock =
      server.receiveCommit P limits state request sessionId draws clock := by
  have hcfg : ∀ revocation now, (server.without e.target).commitConfig revocation now =
      (server.commitConfig revocation now).without e.target := fun _ _ => rfl
  have htake : ∀ id entry sessions envelope,
      state.sessions.takeSession limits clock id = (.ok entry, sessions) →
      (server.without e.target).takeCommit P entry.responder envelope draws =
        server.takeCommit P entry.responder envelope draws := by
    intro id entry sessions envelope ht
    have hmem := (SessionTable.takeSession_ok ht).mem_iff.mpr List.mem_cons_self
    have hlen := hn _ ((SessionTable.sweepExpired_sublist _).subset hmem)
    simp only [HandshakeServer.takeCommit, hcfg, onCommit_without _ _ _ _ _ hlen]
  unfold HandshakeServer.receiveCommit
  have hr : receiveEnvelope P (server.without e.target).config = receiveEnvelope P server.config :=
    rfl
  simp only [hr]
  split
  · rfl
  · rfl
  · rename_i envelope id _ _
    rcases ht : state.sessions.takeSession limits clock id with ⟨taken, sessions⟩
    cases taken with
    | error err => rfl
    | ok entry => simp only [mapErr_ok, ok_bind, htake id entry sessions envelope ht]

/-- A session that completes reveals the signature of its COMMIT_ACK. -/
theorem reveal_serveCommit {sessionId : Option String} {draws : CommitDraws}
    {completed : CompletedSession}
    (hn : ∀ x ∈ state.sessions.entries, ∀ w,
      x.2.responder = .awaitingCommit w → w.peerPopNonce.length = 22)
    (h : server.receiveCommit P limits state request sessionId draws clock = (.ok completed, left))
    (he : e.target ∈ Party.reveal server.signingKey fun k =>
      (HandshakeServer.serveCommit P { server with signingKey := k } limits state request sessionId
        draws clock).1) :
    ∃ answer, server.signCommitAck completed draws = .ok answer ∧ e.target = answer.target := by
  obtain ⟨answer, hanswer⟩ := Party.exists_of_mem_reveal he
  have hsign : server.signCommitAck completed draws = .ok answer := by
    simpa only [HandshakeServer.serveCommit, h, ok_bind] using hanswer
  refine ⟨answer, hsign, Party.target_of_mem_reveal he hanswer ?_⟩
  intro hne
  have hwithout : (server.without e.target).signCommitAck completed draws = .ok answer := by
    simp only [HandshakeServer.signCommitAck, mapErr_eq_ok] at hsign ⊢
    exact signEnvelopeWith_without_of_ne hsign hne
  change ((server.without e.target).serveCommit P limits state request sessionId draws clock).1 =
    .ok answer
  simp only [HandshakeServer.serveCommit, receiveCommit_without _ _ _ hn, h, ok_bind, hwithout]

end

end Aitp
