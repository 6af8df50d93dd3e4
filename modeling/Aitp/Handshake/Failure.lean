import Aitp.Foundation.Machine
import Aitp.Handshake.Completion

/-! # Failed handshakes

Some refusals of a driver move it to its failed state, and some, those the source
returns with `?`, leave it waiting as before. Failure is terminal along a run
exactly when no call of the run is refused by one of the latter.
-/

namespace Aitp

/-- The error of a result. -/
def errorOf {ε α : Type} : Except ε α → Option ε
  | .error e => some e
  | .ok _ => none

theorem errorOf_eq_some {ε α : Type} {r : Except ε α} {e : ε} :
    errorOf r = some e ↔ r = .error e := by
  cases r <;> simp [errorOf]

variable (P : Primitives) (J : Jose)

/-! ## The initiator -/

namespace Initiator

def Awaiting : Initiator → Prop
  | awaitingHelloAck _ _ | awaitingCommitAck _ _ => True
  | done | failed => False

/-- An initiator with what its calls return as errors. -/
def machine : Machine Initiator InitiatorCall HandshakeError where
  next := step P J
  error s
    | .helloAck envelope ack cfg drawn => errorOf (s.onHelloAck P J envelope ack cfg drawn).2
    | .commitAck envelope ack cfg => errorOf (s.onCommitAck P envelope ack cfg).2

theorem run_eq (s : Initiator) (calls : List InitiatorCall) :
    s.run P J calls = (machine P J).run s calls :=
  rfl

def outOfOrder : InitiatorCall → HandshakeError
  | .helloAck .. => .state "on_hello_ack out of order"
  | .commitAck .. => .state "on_commit_ack out of order"

/-- The call is the one the state waits for, and if the checks that end the handshake let it pass
then so do those that do not. -/
def FailsClosed : Initiator → InitiatorCall → Prop
  | awaitingHelloAck myPopNonce intended, .helloAck envelope ack cfg drawn =>
    ∀ key, bindPeer P J myPopNonce intended envelope ack cfg = .ok key →
      (issueTctForPeer P cfg ack.identity ack.manifest.aid key ack.requestedGrants drawn).isOk ∧
        (signPop cfg.signingKey ack.popNonce).isOk
  | awaitingCommitAck myPopNonce peer, .commitAck envelope ack cfg =>
    envelope.sender = peer.aid ∧ ack.popNonceEcho = myPopNonce →
      (verifyPop P peer.pubkey myPopNonce ack.popSignature).isOk ∧
        (verifyReceivedTct P ack.tct ack.grantVoucher cfg peer.aid (some peer.manifestExpiresAt)
          peer.offeredCapabilities).isOk
  | awaitingHelloAck _ _, .commitAck .. | awaitingCommitAck _ _, .helloAck .. => False
  | done, _ | failed, _ => True

end Initiator

/-! ## The responder -/

namespace Responder

def Awaiting : Responder → Prop
  | awaitingCommit _ => True
  | done | failed => False

/-- A responder with what its calls return as errors. -/
def machine : Machine Responder ResponderCall HandshakeError where
  next := step P
  error s c := errorOf (s.onCommit P c.envelope c.commit c.cfg c.drawn).2

def outOfOrder (_ : ResponderCall) : HandshakeError :=
  .state "on_commit out of order"

/-- If the checks that end the handshake let the call pass then so do those that do not. -/
def FailsClosed : Responder → ResponderCall → Prop
  | awaitingCommit w, c =>
    c.envelope.sender = w.peer.aid ∧ c.commit.popNonceEcho = w.myPopNonce →
      (verifyPop P w.peer.pubkey w.myPopNonce c.commit.popSignature).isOk ∧
        (verifyReceivedTct P c.commit.tct c.commit.grantVoucher c.cfg w.peer.aid
          (some w.peer.manifestExpiresAt) w.peer.offeredCapabilities).isOk ∧
        (issueTctForPeer P c.cfg w.peerIdentity w.peer.aid w.peer.pubkey w.peerRequestedGrants
          c.drawn).isOk ∧
        (signPop c.cfg.signingKey w.peerPopNonce).isOk
  | done, _ | failed, _ => True

end Responder

/-! ## One call -/

variable {P J}

theorem isOk_commitTo {cfg : PeerConfig} {identity : IdentityDescriptor} {aid : Aid}
    {key : VerifyingKey} {requested : List String} {drawn : RandomV4} (popNonce : String) :
    (commitTo P cfg identity aid key requested popNonce drawn).isOk = true ↔
      (issueTctForPeer P cfg identity aid key requested drawn).isOk ∧
        (signPop cfg.signingKey popNonce).isOk := by
  unfold commitTo
  cases issueTctForPeer P cfg identity aid key requested drawn with
  | error e => simp [Except.isOk, Except.toBool]
  | ok issued =>
    cases signPop cfg.signingKey popNonce <;> simp [Except.isOk, Except.toBool, pure, Except.pure]

theorem isOk_acceptCommit {myPopNonce : String} {peer : BoundPeer} {m : MutualCommitPayload}
    {cfg : PeerConfig} : (acceptCommit P myPopNonce peer m cfg).isOk = true ↔
      (verifyPop P peer.pubkey myPopNonce m.popSignature).isOk ∧
        (verifyReceivedTct P m.tct m.grantVoucher cfg peer.aid (some peer.manifestExpiresAt)
          peer.offeredCapabilities).isOk := by
  unfold acceptCommit
  cases verifyPop P peer.pubkey myPopNonce m.popSignature with
  | error e => simp [Except.isOk, Except.toBool]
  | ok u =>
    cases verifyReceivedTct P m.tct m.grantVoucher cfg peer.aid (some peer.manifestExpiresAt)
      peer.offeredCapabilities <;> simp [Except.isOk, Except.toBool, pure, Except.pure]

theorem Initiator.failsClosed_iff (s : Initiator) (c : InitiatorCall) :
    s.FailsClosed P J c ↔
      (s.Awaiting → ((machine P J).error s c).isSome → (machine P J).next s c = failed) := by
  cases s with
  | done => simp [FailsClosed, Awaiting]
  | failed => simp [FailsClosed, Awaiting]
  | awaitingHelloAck myPopNonce intended =>
    cases c with
    | commitAck envelope ack cfg =>
      simp [FailsClosed, Awaiting, machine, step, onCommitAck, errorOf]
    | helloAck envelope ack cfg drawn =>
      simp only [FailsClosed, Awaiting, machine, step, onHelloAck]
      cases bindPeer P J myPopNonce intended envelope ack cfg with
      | error e => simp
      | ok key =>
        simp only [Except.ok.injEq, forall_eq', ← isOk_commitTo ack.popNonce]
        cases commitTo P cfg ack.identity ack.manifest.aid key ack.requestedGrants ack.popNonce
          drawn <;> simp [errorOf, Except.isOk, Except.toBool]
  | awaitingCommitAck myPopNonce peer =>
    cases c with
    | helloAck envelope ack cfg drawn =>
      simp [FailsClosed, Awaiting, machine, step, onHelloAck, errorOf]
    | commitAck envelope ack cfg =>
      have hb := @checkBound_eq_ok envelope "commit_ack sender mismatch" myPopNonce peer ack ()
      simp only [FailsClosed, Awaiting, machine, step, onCommitAck, ← isOk_acceptCommit, ← hb]
      cases checkBound "commit_ack sender mismatch" myPopNonce peer envelope ack with
      | error e => simp
      | ok u =>
        cases acceptCommit P myPopNonce peer ack cfg <;>
          simp [errorOf, Except.isOk, Except.toBool]

theorem Responder.failsClosed_iff (s : Responder) (c : ResponderCall) :
    s.FailsClosed P c ↔
      (s.Awaiting → ((machine P).error s c).isSome → (machine P).next s c = failed) := by
  cases s with
  | done => simp [FailsClosed, Awaiting]
  | failed => simp [FailsClosed, Awaiting]
  | awaitingCommit w =>
    obtain ⟨envelope, commit, cfg, drawn⟩ := c
    have hb := @checkBound_eq_ok envelope "commit sender mismatch" w.myPopNonce w.peer commit ()
    have ha := @isOk_acceptCommit P w.myPopNonce w.peer commit cfg
    simp only [FailsClosed, Awaiting, machine, step, onCommit, ← hb, ← and_assoc, ← ha]
    rw [and_assoc, ← isOk_commitTo w.peerPopNonce]
    cases checkBound "commit sender mismatch" w.myPopNonce w.peer envelope commit with
    | error e => simp
    | ok u =>
      cases acceptCommit P w.myPopNonce w.peer commit cfg with
      | error e => simp [errorOf, Except.isOk, Except.toBool]
      | ok completed =>
        cases commitTo P cfg w.peerIdentity w.peer.aid w.peer.pubkey w.peerRequestedGrants
          w.peerPopNonce drawn <;> simp [errorOf, Except.isOk, Except.toBool]

/-! ## Runs -/

/-- Along every run of either driver, failure is terminal exactly when every call of the run fails
closed in the state it is made in. -/
theorem handshake_failureTerminal (P : Primitives) (J : Jose) :
    (∀ (s₀ : Initiator) (calls : List InitiatorCall),
      (Initiator.machine P J).FailureTerminal Initiator.Awaiting .failed Initiator.outOfOrder s₀
          calls ↔
        ∀ before c after, calls = before ++ c :: after → (s₀.run P J before).FailsClosed P J c) ∧
    ∀ (s₀ : Responder) (calls : List ResponderCall),
      (Responder.machine P).FailureTerminal Responder.Awaiting .failed Responder.outOfOrder s₀
          calls ↔
        ∀ before c after, calls = before ++ c :: after → (s₀.run P before).FailsClosed P c := by
  constructor
  · apply Machine.failureTerminal_iff
    · rintro (_ | _) <;> exact ⟨rfl, rfl⟩
    · exact Initiator.failsClosed_iff
  · apply Machine.failureTerminal_iff
    · intro c
      exact ⟨rfl, rfl⟩
    · exact Responder.failsClosed_iff

theorem verifyPop_empty (key : VerifyingKey) (nonce : String) :
    verifyPop P key nonce "" = .error .popVerificationFailed := by
  unfold verifyPop verifyNonce
  cases decodeStrict nonce <;> rfl

open Toy in
/-- An initiator refuses a COMMIT_ACK whose proof of possession is not a signature, waits on, and
completes on the genuine one. -/
theorem commitAck_retried : ∃ (i₀ : Initiator) (hello : MutualHelloPayload)
    (call : InitiatorCall) (envelope : AitpEnvelope) (ack : MutualCommitAckPayload)
    (cfg : PeerConfig) (completed : CompletedHandshake),
    (exchange "demo.echo").start primitives = .ok (i₀, hello) ∧
    ((i₀.run primitives jose [call]).onCommitAck primitives envelope { ack with popSignature := "" }
      cfg) = (i₀.run primitives jose [call], .error .popVerificationFailed) ∧
    ((i₀.run primitives jose [call, .commitAck envelope { ack with popSignature := "" }
      cfg]).onCommitAck primitives envelope ack cfg) = (.done, .ok completed) ∧
    ¬ (Initiator.machine primitives jose).FailureTerminal Initiator.Awaiting .failed
      Initiator.outOfOrder i₀ [call, .commitAck envelope { ack with popSignature := "" } cfg] := by
  obtain ⟨i₀, hello, r₀, ack, o, hs, ha, hp, -⟩ := Exchange.play_of_honest readsText
    (exchange_honest (by decide : isCapabilityList ["demo.echo"] = true)
      ⟨⟨by decide, by decide, by decide⟩, by decide⟩) (exchange_exactTimes _)
  obtain ⟨i₁, r₁, i₂, h₂, h₃, h₄⟩ := Exchange.stages_of_play hs ha hp
  obtain ⟨popNonce, peer, rfl, hb, -, rfl⟩ := Initiator.onCommitAck_eq_ok.mp h₄
  let call : InitiatorCall := .helloAck (exchange "demo.echo").helloAckEnvelope ack
    ((exchange "demo.echo").initiator.at 12) (exchange "demo.echo").initiatorDraw
  let envelope := (exchange "demo.echo").commitAckEnvelope
  let cfg := (exchange "demo.echo").initiator.at 14
  have hrun : i₀.run primitives jose [call] = .awaitingCommitAck popNonce peer :=
    congrArg Prod.fst h₂
  have hforged : (Initiator.awaitingCommitAck popNonce peer).onCommitAck primitives envelope
      { o.commitAck with popSignature := "" } cfg =
        (.awaitingCommitAck popNonce peer, .error .popVerificationFailed) := by
    have hb' : checkBound "commit_ack sender mismatch" popNonce peer envelope
        { o.commitAck with popSignature := "" } = .ok () := checkBound_eq_ok.mpr
      (checkBound_eq_ok.mp hb)
    simp only [Initiator.onCommitAck, hb', acceptCommit, verifyPop_empty, error_bind]
  have hagain : i₀.run primitives jose [call, .commitAck envelope
      { o.commitAck with popSignature := "" } cfg] = .awaitingCommitAck popNonce peer := by
    rw [← List.singleton_append, Initiator.run_eq, Machine.run_append]
    rw [Initiator.run_eq] at hrun
    rw [hrun]
    exact congrArg Prod.fst hforged
  refine ⟨i₀, hello, call, envelope, o.commitAck, cfg, o.initiatorHolds, hs, ?_, ?_, ?_⟩
  · rw [hrun]
    exact hforged
  · rw [hagain]
    exact h₄
  · intro h
    have hf := (h [call] _ [] rfl (by rw [← Initiator.run_eq, hrun]; trivial) ?_).1
    · rw [← Initiator.run_eq, List.singleton_append, hagain] at hf
      exact absurd hf (by simp)
    · rw [← Initiator.run_eq, hrun]
      simp only [Initiator.machine, hforged, errorOf, Option.isSome_some]

end Aitp
