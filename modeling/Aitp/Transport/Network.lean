import Aitp.Foundation.Transition
import Aitp.Handshake.Facade
import Aitp.Handshake.PayloadShapes
import Aitp.Transport.CommitHandler

/-! # Concurrent handshakes

Honest agents play both roles of the handshake under one key each, in any number of runs
and sessions at once. What is delivered to them is the adversary's choice, except that no
envelope of an honest agent verifies unless the agent signed it.
-/

namespace Aitp

open Transition

/-- One run of `run_initiator_handshake`: the peer it addresses, the nonce it drew, its driver
while the run goes on, the COMMIT it posted under the peer's key, and what it returned. -/
structure InitiatorRun where
  config : InitiatorConfig
  peerManifest : Manifest
  popNonce : String
  driver : Option Initiator
  commit : Option (AitpEnvelope × VerifyingKey)
  session : Option SessionContext

/-- An honest agent: its runs as an initiator, its server's state, the sessions its server opened
and those it completed, the nonces it drew, and what its key has signed for others to see. -/
structure Party where
  runs : List InitiatorRun
  state : HandshakeState
  opened : List AwaitingCommit
  completed : List CompletedSession
  drawn : List Nonce
  signed : Set Target

/-- What an agent does next. Its clock, its draws and the configuration it acts under are part of
the act, as is what it is given by the network. -/
inductive Act where
  | start (config : InitiatorConfig) (env : Surroundings)
  | helloAck (run : ℕ) (env : Surroundings) (response : Response)
  | commitAck (run : ℕ) (env : Surroundings) (response : Response)
  | hello (server : HandshakeServer) (limits : SessionLimits) (request : Request)
      (draws : HelloDraws) (clock : TableClock)
  | commit (server : HandshakeServer) (limits : SessionLimits) (request : Request)
      (sessionId : Option String) (draws : CommitDraws) (clock : TableClock)
  | sweep (limits : SessionLimits) (now : ℕ)
  | sign (target : Target)

namespace Party

variable (P : Primitives) (J : Jose) (p : Party)

/-- The targets whose signatures a result reveals are signed. -/
def reveal {α : Type} (signer : Signer) (f : Signer → Except α AitpEnvelope) : Set Target :=
  {t | signer.Reveals (fun k => (f k).toOption) t}

/-- A run starts, and posts its HELLO. -/
def startRun (config : InitiatorConfig) (env : Surroundings) : Party :=
  let p := { p with drawn := env.popNonce.toList ++ p.drawn }
  match config.startHandshake P env, freshNonce env.popNonce with
  | .ok (peerManifest, initiator, _), .ok popNonce =>
    { p with
      runs := p.runs ++ [⟨config, peerManifest, popNonce, some initiator, none, none⟩]
      signed := p.signed ∪ reveal config.signingKey fun k =>
        (InitiatorConfig.startHandshake P { config with signingKey := k } env).map fun r => r.2.2 }
  | _, _ => p

/-- A run that posted a HELLO takes the response to it, and posts its COMMIT or returns. -/
def takeHelloAck (i : ℕ) (env : Surroundings) (response : Response) : Party :=
  match p.runs[i]? with
  | some ⟨config, peerManifest, popNonce, some initiator, none, session⟩ =>
    match (config.takeHelloAck P J env initiator response).2 with
    | .ok (initiator', commit, peerPk) =>
      { p with
        runs := p.runs.set i
          ⟨config, peerManifest, popNonce, some initiator', some (commit, peerPk), session⟩
        signed := p.signed ∪ reveal config.signingKey fun k =>
          (InitiatorConfig.takeHelloAck P J { config with signingKey := k } env initiator
            response).2.map fun r => r.2.1 }
    | .error _ =>
      { p with runs := p.runs.set i ⟨config, peerManifest, popNonce, none, none, session⟩ }
  | _ => p

/-- A run that posted a COMMIT takes the response to it, and returns. -/
def takeCommitAck (i : ℕ) (env : Surroundings) (response : Response) : Party :=
  match p.runs[i]? with
  | some ⟨config, peerManifest, popNonce, some initiator, some (commit, peerPk), session⟩ =>
    match (config.takeCommitAck P env peerManifest initiator peerPk response).2 with
    | .ok returned =>
      { p with
        runs := p.runs.set i
          ⟨config, peerManifest, popNonce, none, some (commit, peerPk), some returned⟩ }
    | .error _ =>
      { p with
        runs := p.runs.set i
          ⟨config, peerManifest, popNonce, none, some (commit, peerPk), session⟩ }
  | _ => p

/-- The server handles a HELLO. -/
def handleHello (server : HandshakeServer) (limits : SessionLimits) (request : Request)
    (draws : HelloDraws) (clock : TableClock) : Party :=
  let p := { p with drawn := draws.popNonce.toList ++ p.drawn }
  match server.receiveHello P J limits p.state request draws clock with
  | (.error _, state) => { p with state := state }
  | (.ok (responder, _), state) =>
    { p with
      state := state
      opened := p.opened ++ responder.awaiting.toList
      signed := p.signed ∪ reveal server.signingKey fun k =>
        (HandshakeServer.serveHello P J { server with signingKey := k } limits p.state request draws
          clock).1 }

/-- The server handles a COMMIT. -/
def handleCommit (server : HandshakeServer) (limits : SessionLimits) (request : Request)
    (sessionId : Option String) (draws : CommitDraws) (clock : TableClock) : Party :=
  match server.receiveCommit P limits p.state request sessionId draws clock with
  | (.error _, state) => { p with state := state }
  | (.ok completed, state) =>
    { p with
      state := state
      completed := p.completed ++ [completed]
      signed := p.signed ∪ reveal server.signingKey fun k =>
        (HandshakeServer.serveCommit P { server with signingKey := k } limits p.state request
          sessionId draws clock).1 }

/-- The session sweeper runs. -/
def sweep (limits : SessionLimits) (now : ℕ) : Party :=
  { p with state := { p.state with sessions := p.state.sessions.sweepExpired limits now } }

/-- What an act makes of an agent. -/
def after : Act → Party
  | .start config env => p.startRun P config env
  | .helloAck i env response => p.takeHelloAck P J i env response
  | .commitAck i env response => p.takeCommitAck P i env response
  | .hello server limits request draws clock =>
    p.handleHello P J server limits request draws clock
  | .commit server limits request sessionId draws clock =>
    p.handleCommit P server limits request sessionId draws clock
  | .sweep limits now => p.sweep limits now
  | .sign target => { p with signed := insert target p.signed }

/-- An agent that has done nothing yet. -/
structure New (p : Party) : Prop where
  runs : p.runs = []
  sessions : p.state.sessions = .empty
  opened : p.opened = []
  completed : p.completed = []
  drawn : p.drawn = []
  signed : p.signed = ∅

end Party

/-- The envelope that an act delivers, if it is one. -/
def Act.Delivers (P : Primitives) : Act → AitpEnvelope → Prop
  | helloAck _ _ response, e => readAitpEnvelopeResponse P response = .ok e
  | commitAck _ _ response, e => readAitpEnvelopeResponse P response = .ok e
  | hello _ _ request .., e => request.parse P .mutualHello = .ok e
  | commit _ _ request .., e => request.parse P .mutualCommit = .ok e
  | _, _ => False

/-- Targets that are no HELLO_ACK, COMMIT or COMMIT_ACK, whatever their envelope's type: manifests,
tokens, proofs and the envelopes of other exchanges. -/
def Target.OtherThanHandshake (t : Target) : Prop :=
  ∀ e : AitpEnvelope, t = e.target →
    decodeMutualHelloAckPayload e.payload = none ∧ decodeMutualCommitPayload e.payload = none

section

variable {ι : Type} (P : Primitives) (J : Jose) (key : ι → Signer)

/-- An agent acts for itself: under its key and its manifest, trusting pinned keys only, drawing a
nonce that it never drew before, with clocks that Rust's `i64` holds. -/
def Act.OwnedBy (signer : Signer) (drawn : List Nonce) : Act → Prop
  | start config env => config.signingKey = signer ∧ config.ownManifest.aid = signer.aid ∧
      (∃ store, config.trustMode = .pinnedKeys store) ∧ ∀ n ∈ env.popNonce, n ∉ drawn
  | helloAck _ env _ => env.helloAckNow.Fits
  | commitAck .. => True
  | hello server _ _ draws _ => server.signingKey = signer ∧ server.manifest.aid = signer.aid ∧
      server.trustAnchors = [] ∧ server.identityVerifier = none ∧ ∀ n ∈ draws.popNonce, n ∉ drawn
  | commit server _ _ _ draws _ => server.signingKey = signer ∧ server.manifest.aid = signer.aid ∧
      draws.now.Fits
  | sweep .. => True
  | sign target => target.OtherThanHandshake

/-- An envelope under the name of an honest agent verifies only if the agent signed it. -/
def Unforged (w : ι → Party) (e : AitpEnvelope) : Prop :=
  ∀ a vk, e.sender = (key a).aid → VerifyingKey.fromAid P e.sender = .ok vk →
    verifyEnvelopeSignature P e vk = .ok () → e.target ∈ (w a).signed

/-- Any honest agent acts at any time on whatever it is given. -/
def network [DecidableEq ι] : System (ι → Party) (ι × Act) where
  init w := ∀ a, (w a).New
  step w act w' := w' = Function.update w act.1 ((w act.1).after P J act.2)

/-- Agents act for themselves, and nothing that is delivered is forged. -/
def Honestly (w : ι → Party) (act : ι × Act) : Prop :=
  act.2.OwnedBy (key act.1) (w act.1).drawn ∧
    ∀ e, act.2.Delivers P e → Unforged P key w e

end

end Aitp
