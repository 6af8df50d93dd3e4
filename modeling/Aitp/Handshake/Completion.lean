import Aitp.Handshake.Honest
import Mathlib.Data.List.Induction

/-! # What a completed handshake means

A driver is fed any messages under any configurations. If it completes, the token
it holds is bound to the peer that it verified when the handshake began, and the
proof of possession is over the nonce that it drew for this run.
-/

namespace Aitp

variable {P : Primitives} {J : Jose}

/-! ## Runs -/

/-- A call on an initiator. -/
inductive InitiatorCall where
  | helloAck (envelope : AitpEnvelope) (ack : MutualHelloAckPayload) (cfg : PeerConfig)
      (drawn : RandomV4)
  | commitAck (envelope : AitpEnvelope) (ack : MutualCommitAckPayload) (cfg : PeerConfig)

/-- A call on a responder that answered a HELLO. -/
structure ResponderCall where
  envelope : AitpEnvelope
  commit : MutualCommitPayload
  cfg : PeerConfig
  drawn : RandomV4

section

variable (P J)

def Initiator.step (s : Initiator) : InitiatorCall → Initiator
  | .helloAck envelope ack cfg drawn => (s.onHelloAck P J envelope ack cfg drawn).1
  | .commitAck envelope ack cfg => (s.onCommitAck P envelope ack cfg).1

/-- The state after some calls. -/
def Initiator.run (s : Initiator) (calls : List InitiatorCall) : Initiator :=
  calls.foldl (Initiator.step P J) s

def Responder.step (s : Responder) (c : ResponderCall) : Responder :=
  (s.onCommit P c.envelope c.commit c.cfg c.drawn).1

def Responder.run (s : Responder) (calls : List ResponderCall) : Responder :=
  calls.foldl (Responder.step P) s

end

/-! ## What an initiator keeps between its calls -/

/-- A HELLO_ACK that binds an initiator to the peer it was started for. -/
structure Binds (P : Primitives) (J : Jose) (s : Initiator) (envelope : AitpEnvelope)
    (ack : MutualHelloAckPayload) (cfg : PeerConfig) (drawn : RandomV4) (intended : Aid)
    (popNonce : String) (peer : BoundPeer) : Prop where
  accepted : ∃ s' m, s.onHelloAck P J envelope ack cfg drawn = (s', .ok m)
  sender : envelope.sender = intended
  aid : ack.manifest.aid = intended
  echo : ack.popNonceEcho = popNonce
  key : VerifyingKey.fromAid P intended = .ok peer.pubkey
  kept : peer = .ofManifest ack.manifest peer.pubkey

/-- Among some calls is one that bound the initiator to its peer. -/
def BoundAmong (P : Primitives) (J : Jose) (s₀ : Initiator) (calls : List InitiatorCall)
    (intended : Aid) (popNonce : String) (peer : BoundPeer) : Prop :=
  ∃ before envelope ack cfg drawn after,
    calls = before ++ .helloAck envelope ack cfg drawn :: after ∧
      Binds P J (s₀.run P J before) envelope ack cfg drawn intended popNonce peer

/-- What holds of an initiator after some calls. -/
def Initiator.Inv (P : Primitives) (J : Jose) (s₀ : Initiator) (calls : List InitiatorCall)
    (intended : Aid) (popNonce : String) : Initiator → Prop
  | awaitingHelloAck n a => n = popNonce ∧ a = intended
  | awaitingCommitAck n peer => n = popNonce ∧ BoundAmong P J s₀ calls intended popNonce peer
  | done | failed => True

theorem Initiator.bindPeer_ok {popNonce : String} {intended : Aid} {envelope : AitpEnvelope}
    {ack : MutualHelloAckPayload} {cfg : PeerConfig} {key : VerifyingKey}
    (h : bindPeer P J popNonce intended envelope ack cfg = .ok key) :
    envelope.sender = intended ∧ ack.manifest.aid = intended ∧ ack.popNonceEcho = popNonce ∧
      VerifyingKey.fromAid P intended = .ok key := by
  simp only [bindPeer, bind_eq_ok, ensure_eq_ok, pure_eq_ok, exists_const, decide_eq_true_eq,
    beq_iff_eq] at h
  obtain ⟨hs, ha, he, k, hb, -, -, rfl⟩ := h
  exact ⟨hs, ha, he, ha ▸ (bootstrapVerifyPeer_ok hb).2.1⟩

/-- A HELLO_ACK leaves the initiator as it was, or failed, or bound to its peer. -/
theorem Initiator.onHelloAck_cases (s : Initiator) (envelope : AitpEnvelope)
    (ack : MutualHelloAckPayload) (cfg : PeerConfig) (drawn : RandomV4) :
    (s.onHelloAck P J envelope ack cfg drawn).1 = s ∨
      (s.onHelloAck P J envelope ack cfg drawn).1 = failed ∨
      ∃ s' m, s.onHelloAck P J envelope ack cfg drawn = (s', .ok m) := by
  cases hr : (s.onHelloAck P J envelope ack cfg drawn).2 with
  | ok m => exact .inr (.inr ⟨_, m, Prod.ext rfl hr⟩)
  | error e =>
    unfold onHelloAck at hr ⊢
    split at hr
    · split at hr
      · simp_all
      · split at hr
        · simp_all
        · simp at hr
    · simp_all

theorem Initiator.onCommitAck_cases (s : Initiator) (envelope : AitpEnvelope)
    (ack : MutualCommitAckPayload) (cfg : PeerConfig) :
    (s.onCommitAck P envelope ack cfg).1 = s ∨ (s.onCommitAck P envelope ack cfg).1 = failed ∨
      (s.onCommitAck P envelope ack cfg).1 = done := by
  unfold onCommitAck
  split
  · split
    · exact .inr (.inl rfl)
    · split
      · exact .inl rfl
      · exact .inr (.inr rfl)
  · exact .inl rfl

namespace Initiator.Inv

variable {s₀ s : Initiator} {calls : List InitiatorCall} {intended : Aid} {popNonce : String}

theorem snoc (h : Inv P J s₀ calls intended popNonce s) (c : InitiatorCall) :
    Inv P J s₀ (calls ++ [c]) intended popNonce s := by
  cases s with
  | awaitingCommitAck n peer =>
    obtain ⟨hn, before, envelope, ack, cfg, drawn, after, rfl, hb⟩ := h
    exact ⟨hn, before, envelope, ack, cfg, drawn, after ++ [c], by simp, hb⟩
  | awaitingHelloAck n a => exact h
  | done | failed => trivial

theorem step (h : Inv P J s₀ calls intended popNonce (s₀.run P J calls)) (c : InitiatorCall) :
    Inv P J s₀ (calls ++ [c]) intended popNonce ((s₀.run P J calls).step P J c) := by
  cases c with
  | helloAck envelope ack cfg drawn =>
    obtain hs | hf | ⟨s', m, ho⟩ :=
      (s₀.run P J calls).onHelloAck_cases (P := P) (J := J) envelope ack cfg drawn
    · rw [Initiator.step, hs]
      exact h.snoc _
    · rw [Initiator.step, hf]
      trivial
    · obtain ⟨n, a, key, hs, hb, -, rfl⟩ := onHelloAck_eq_ok.mp ho
      have hi := h
      rw [hs] at hi
      obtain ⟨rfl, rfl⟩ := hi
      obtain ⟨hsend, haid, hecho, hkey⟩ := bindPeer_ok hb
      rw [Initiator.step, ho]
      exact ⟨rfl, calls, envelope, ack, cfg, drawn, [], rfl, ⟨⟨_, m, ho⟩, hsend, haid, hecho, hkey,
        rfl⟩⟩
  | commitAck envelope ack cfg =>
    obtain hs | hf | hd := (s₀.run P J calls).onCommitAck_cases (P := P) envelope ack cfg
    · rw [Initiator.step, hs]
      exact h.snoc _
    · rw [Initiator.step, hf]
      trivial
    · rw [Initiator.step, hd]
      trivial

theorem run (h : Inv P J s₀ [] intended popNonce s₀) (calls : List InitiatorCall) :
    Inv P J s₀ calls intended popNonce (s₀.run P J calls) := by
  induction calls using List.reverseRecOn with
  | nil => exact h
  | append_singleton calls c ih =>
    have hr : s₀.run P J (calls ++ [c]) = (s₀.run P J calls).step P J c := by
      simp [Initiator.run]
    rw [hr]
    exact ih.step c

end Initiator.Inv

theorem Responder.run_cases (s : Responder) (calls : List ResponderCall) :
    s.run P calls = s ∨ s.run P calls = failed ∨ s.run P calls = done := by
  have hstep : ∀ (s : Responder) c, s.step P c = s ∨ s.step P c = failed ∨ s.step P c = done := by
    rintro s c
    unfold Responder.step onCommit
    split
    · split
      · exact .inr (.inl rfl)
      · split
        · exact .inl rfl
        · split
          · exact .inl rfl
          · exact .inr (.inr rfl)
    · exact .inl rfl
  have hend : ∀ (s : Responder) c, s = failed ∨ s = done → s.step P c = s := by
    rintro s c (rfl | rfl) <;> rfl
  induction calls using List.reverseRecOn with
  | nil => exact .inl rfl
  | append_singleton calls c ih =>
    have hr : s.run P (calls ++ [c]) = (s.run P calls).step P c := by
      simp [Responder.run]
    rw [hr]
    rcases ih with h | h | h
    · rw [h]
      exact hstep s c
    · rw [hend _ c (.inl h)]
      exact .inr (.inl h)
    · rw [hend _ c (.inr h)]
      exact .inr (.inr h)

/-! ## Completion -/

/-- What a completed handshake holds of the peer's manifest and of the nonce drawn for it. -/
structure Completion (P : Primitives) (cfg : PeerConfig) (peer : Manifest) (nonce : Nonce)
    (m : MutualCommitPayload) (completed : CompletedHandshake) : Prop where
  token : completed.tct.token = m.tct
  issuer : completed.tct.claims.iss = peer.aid
  audience : completed.tct.claims.aud = cfg.manifest.aid
  subject : completed.tct.claims.sub = cfg.manifest.aid
  offered : completed.tct.claims.grants ⊆ peer.offeredCapabilities
  covers : cfg.manifest.requiredPeerCapabilities.getD [] ⊆ completed.tct.claims.grants
  expiry : completed.tct.claims.exp ≤ peer.expiresAt
  possession : ∃ key, VerifyingKey.fromAid P peer.aid = .ok key ∧
    key.verifyJcs P nonce.bytes m.popSignature = .ok ()
  effective : cfg.manifest.requiredPeerCapabilities.getD [] ⊆ completed.effectiveGrants

theorem completion_of_acceptCommit {cfg : PeerConfig} {peer : Manifest} {key : VerifyingKey}
    {nonce : Nonce} {m : MutualCommitPayload} {completed : CompletedHandshake}
    (hk : VerifyingKey.fromAid P peer.aid = .ok key)
    (h : acceptCommit P (encodeBase64Url nonce.bytes) (.ofManifest peer key) m cfg =
      .ok completed) : Completion P cfg peer nonce m completed := by
  simp only [acceptCommit, verifyPop, bind_eq_ok, pure_eq_ok, verifyNonce_eq_ok] at h
  obtain ⟨u, ⟨bytes, hb, -, hv⟩, verified, hr, rfl⟩ := h
  obtain rfl := Option.some.inj ((decodeStrict_encodeBase64Url _).symm.trans hb)
  obtain ⟨ht, hrec⟩ := verifyReceivedTct_ok hr
  exact ⟨ht, hrec.iss, hrec.aud, hrec.sub, hrec.offered,
    List.Subset.trans hrec.required hrec.effective.subset, hrec.exp, ⟨key, hk, hv⟩, hrec.required⟩

theorem freshNonce_eq_ok {drawn : Option Nonce} {popNonce : String}
    (h : freshNonce drawn = .ok popNonce) :
    ∃ nonce, drawn = some nonce ∧ popNonce = encodeBase64Url nonce.bytes := by
  simp only [freshNonce, okOr_eq_ok, Option.map_eq_some_iff] at h
  obtain ⟨nonce, hd, rfl⟩ := h
  exact ⟨nonce, hd, rfl⟩

/-- An initiator completes only with the peer it was started for: the COMMIT_ACK came from it, an
earlier HELLO_ACK of it was verified, and the token is what that peer's manifest allows. -/
def InitiatorCompletes (P : Primitives) (J : Jose) : Prop :=
  ∀ (cfg₀ : PeerConfig) (identity : PresentedIdentity) (intended : Aid) (messageId : Uuid)
    (timestamp : Timestamp) (requested : List String) (drawn : Option Nonce) (s₀ : Initiator)
    (hello : MutualHelloPayload) (calls : List InitiatorCall) (envelope : AitpEnvelope)
    (ack : MutualCommitAckPayload) (cfg : PeerConfig) (s : Initiator)
    (completed : CompletedHandshake),
    Initiator.start P cfg₀ identity intended messageId timestamp requested drawn = .ok (s₀, hello) →
    (s₀.run P J calls).onCommitAck P envelope ack cfg = (s, .ok completed) →
    ∃ nonce before env helloAck cfg₁ drawn₁ after,
      drawn = some nonce ∧ calls = before ++ .helloAck env helloAck cfg₁ drawn₁ :: after ∧
      (∃ s₁ m, (s₀.run P J before).onHelloAck P J env helloAck cfg₁ drawn₁ = (s₁, .ok m)) ∧
      env.sender = intended ∧ helloAck.manifest.aid = intended ∧ envelope.sender = intended ∧
      Completion P cfg helloAck.manifest nonce ack completed

/-- A responder completes only with the peer whose HELLO it answered. -/
def ResponderCompletes (P : Primitives) (J : Jose) : Prop :=
  ∀ (env : AitpEnvelope) (hello : MutualHelloPayload) (identity : PresentedIdentity)
    (messageId : Uuid) (timestamp : Timestamp) (cfg₀ : PeerConfig) (requested : List String)
    (drawn : Option Nonce) (s₀ : Responder) (helloAck : MutualHelloAckPayload)
    (calls : List ResponderCall) (envelope : AitpEnvelope) (commit : MutualCommitPayload)
    (cfg : PeerConfig) (drawn₁ : RandomV4) (s : Responder) (ack : MutualCommitAckPayload)
    (completed : CompletedHandshake),
    Responder.onHello P J env hello identity messageId timestamp cfg₀ requested drawn =
      .ok (s₀, helloAck) →
    (s₀.run P calls).onCommit P envelope commit cfg drawn₁ = (s, .ok (ack, completed)) →
    ∃ nonce, drawn = some nonce ∧ env.sender = hello.manifest.aid ∧
      envelope.sender = hello.manifest.aid ∧ Completion P cfg hello.manifest nonce commit completed

theorem initiator_completes : InitiatorCompletes P J := by
  rintro cfg₀ identity intended messageId timestamp requested drawn s₀ hello calls envelope ack cfg
    s completed hs hc
  simp only [Initiator.start, bind_eq_ok, pure_eq_ok] at hs
  obtain ⟨popNonce, hn, descriptor, -, hs⟩ := hs
  obtain ⟨rfl, rfl⟩ := Prod.mk.inj hs
  obtain ⟨nonce, rfl, rfl⟩ := freshNonce_eq_ok hn
  have hinv := Initiator.Inv.run
    (show Initiator.Inv P J (.awaitingHelloAck (encodeBase64Url nonce.bytes) intended) [] intended
      (encodeBase64Url nonce.bytes) (.awaitingHelloAck (encodeBase64Url nonce.bytes) intended) from
      ⟨rfl, rfl⟩) calls
  obtain ⟨n, peer, hst, hb, ha, -⟩ := Initiator.onCommitAck_eq_ok.mp hc
  rw [hst] at hinv
  obtain ⟨rfl, before, env, helloAck, cfg₁, drawn₁, after, hcalls, hbind⟩ := hinv
  obtain ⟨hsend, -⟩ := checkBound_eq_ok.mp hb
  have hk := hbind.key
  have haid := hbind.aid
  rw [hbind.kept] at ha hsend
  refine ⟨nonce, before, env, helloAck, cfg₁, drawn₁, after, rfl, hcalls, hbind.accepted,
    hbind.sender, haid, hsend.trans haid, ?_⟩
  rw [← haid] at hk
  exact completion_of_acceptCommit hk ha

theorem responder_completes : ResponderCompletes P J := by
  rintro env hello identity messageId timestamp cfg₀ requested drawn s₀ helloAck calls envelope
    commit cfg drawn₁ s ack completed hs hc
  simp only [Responder.onHello, bind_eq_ok, pure_eq_ok] at hs
  obtain ⟨key, hb, _, -, popNonce, hn, descriptor, -, hs⟩ := hs
  obtain ⟨rfl, rfl⟩ := Prod.mk.inj hs
  obtain ⟨nonce, rfl, rfl⟩ := freshNonce_eq_ok hn
  obtain ⟨hsend, hk, -⟩ := bootstrapVerifyPeer_ok hb
  obtain ⟨w, hst, hcb, ha, -, -⟩ := Responder.onCommit_eq_ok.mp hc
  obtain hr | hr | hr := Responder.run_cases (P := P) _ calls
  · obtain rfl := Responder.awaitingCommit.inj (hr.symm.trans hst)
    obtain ⟨hs', -⟩ := checkBound_eq_ok.mp hcb
    exact ⟨nonce, rfl, hsend.symm, hs', completion_of_acceptCommit hk ha⟩
  · exact absurd (hr.symm.trans hst) (by simp)
  · exact absurd (hr.symm.trans hst) (by simp)

/-- Both drivers, under any configurations and fed any messages. -/
theorem handshake_completion (P : Primitives) (J : Jose) :
    InitiatorCompletes P J ∧ ResponderCompletes P J :=
  ⟨initiator_completes, responder_completes⟩

open Toy in
/-- Both parties of an honest exchange complete, each with the other's manifest and its own nonce. -/
theorem handshake_completion_toy : ∃ o, (exchange "demo.echo").play primitives jose = .ok o ∧
    (∃ peer, Completion primitives ((party 0 "demo.echo").at 14) peer (nonce 1) o.commitAck
      o.initiatorHolds) ∧
    ∃ peer, Completion primitives ((party 1 "demo.echo").at 13) peer (nonce 2) o.commit
      o.responderHolds := by
  obtain ⟨i₀, hello, r₀, ack, o, hs, ha, hp, -⟩ := Exchange.play_of_honest readsText
    (exchange_honest (by decide : isCapabilityList ["demo.echo"] = true)
      ⟨⟨by decide, by decide, by decide⟩, by decide⟩) (exchange_exactTimes _)
  obtain ⟨i₁, r₁, i₂, h₂, h₃, h₄⟩ := Exchange.stages_of_play hs ha hp
  have hrun : i₀.run primitives jose [.helloAck (exchange "demo.echo").helloAckEnvelope ack
      ((exchange "demo.echo").initiator.at 12) (exchange "demo.echo").initiatorDraw] = i₁ :=
    congrArg Prod.fst h₂
  obtain ⟨n, -, -, m, -, -, -, hn, -, -, -, -, -, hi⟩ :=
    (handshake_completion primitives jose).1 _ _ _ _ _ _ _ _ _ [_] _ _ _ _ _ hs (hrun ▸ h₄)
  obtain ⟨n', hn', -, -, hr⟩ :=
    (handshake_completion primitives jose).2 _ _ _ _ _ _ _ _ _ _ [] _ _ _ _ _ _ _ ha h₃
  obtain rfl := Option.some.inj hn
  obtain rfl := Option.some.inj hn'
  exact ⟨o, hp, ⟨_, hi⟩, _, hr⟩

end Aitp
