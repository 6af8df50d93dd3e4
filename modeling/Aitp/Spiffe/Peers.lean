import Aitp.Spiffe.VouchingRuns
import Aitp.Tct.RoundTrip

/-! # SPIFFE peers of handshakes

A handshake that completes with a peer that presented a SPIFFE identity: the trust domain of the
subject vouched for the agent that then proved, over the nonce drawn for it, to hold its key.
-/

namespace Aitp

open Transition

/-- What the identity of a peer is verified for. -/
def spiffePeerContext (cfg : PeerConfig) (envelope : AitpEnvelope) (peer : Manifest)
    (popNonce : String) : SpiffeVerifyContext :=
  IdentityVerifyContext.spiffe
    { peerManifest := peer
      senderAid := peer.aid
      receiverAid := cfg.manifest.aid
      messageId := envelope.messageId
      timestamp := envelope.timestamp
      popNonce := popNonce
      now := cfg.now } .new

/-- A peer that the bundles given for a verifier vouch for. -/
structure VouchedPeer (P : Primitives) (J : Jose) (X : X509)
    (inserted : List (String × SpiffeBundle)) (cfg : PeerConfig) (envelope : AitpEnvelope)
    (peer : Manifest) (identity : IdentityDescriptor) (popNonce : String) (key : VerifyingKey) :
    Prop where
  subject : identity.subject = peer.identityHint.subject
  encodes : VerifyingKey.fromAid P peer.aid = .ok key
  vouched : ∃ td bundle, spiffeIdTrustDomain peer.identityHint.subject = .ok td ∧
    inserted.lookup td = some bundle ∧
    Vouched P J X bundle identity (spiffePeerContext cfg envelope peer popNonce)
  /-- A JWT-SVID names the key that the peer's identifier encodes. -/
  holder : ∀ svid, identity.svidType = some .jwtSvid →
    readJwtSvid P X identity.proof = some svid → svid.claims.jkt = key.toJwkThumbprintSha256 P

variable {P : Primitives} {J : Jose} {X : X509} {w : SpiffeWorld} {cfg : PeerConfig}
  {envelope : AitpEnvelope} {peer : Manifest} {identity : IdentityDescriptor} {popNonce : String}
  {key : VerifyingKey}

theorem SpiffeWorld.Kept.vouchedPeer (hw : w.Kept P J X)
    (h : bootstrapVerifyPeer P J envelope peer identity popNonce cfg = .ok key)
    (hk : identity.kind = .spiffe)
    (hv : cfg.identityVerifier = some (spiffeVerifier P J X w.store)) :
    VouchedPeer P J X w.inserted cfg envelope peer identity popNonce key := by
  obtain ⟨-, hkey, -, hsub, -⟩ := bootstrapVerifyPeer_ok h
  simp only [bootstrapVerifyPeer, bind_eq_ok] at h
  obtain ⟨-, -, -, -, -, -, -, -, -, -, hp⟩ := h
  have hs : verifySpiffe P J X identity
      { spiffePeerContext cfg envelope peer popNonce with bundles := w.store } = .ok () := by
    simp only [verifyIdentityProof, hk, verifyOtherIdentity, hv, bind_eq_ok, okOr_eq_ok,
      Option.filter_eq_some_iff, mapErr_eq_ok] at hp
    obtain ⟨_, ⟨verifier, ⟨hf, -⟩, verified, hver, -⟩, -⟩ := hp
    obtain rfl := Option.some.inj hf
    simp only [spiffeVerifier, bind_eq_ok] at hver
    obtain ⟨u, hu, -⟩ := hver
    exact hu
  obtain ⟨td, bundle, ht, hl, hvouch⟩ := (hw.decides _ _).mp hs
  refine ⟨hsub, hkey, ⟨td, bundle, hsub ▸ ht, hl, hvouch⟩, fun svid hty hr => ?_⟩
  obtain ⟨svid', hr', -, hsays⟩ := hvouch.jwt hty
  obtain rfl := Option.some.inj (hr.symm.trans hr')
  obtain ⟨key', hk', hj⟩ := hsays.holder
  obtain rfl := Except.ok.inj (hkey.symm.trans hk')
  exact hj

section

variable (P : Primitives) (J : Jose) (X : X509) (w : SpiffeWorld)

/-- An initiator completes with a SPIFFE peer only if its HELLO_ACK was vouched for, and the holder
of the key that was vouched for signed the nonce that the initiator drew. -/
def InitiatorMeetsVouched : Prop :=
  ∀ (cfg₀ : PeerConfig) (presented : PresentedIdentity) (intended : Aid) (messageId : Uuid)
    (timestamp : Timestamp) (requested : List String) (drawn : Option Nonce) (s₀ : Initiator)
    (hello : MutualHelloPayload) (calls : List InitiatorCall) (envelope : AitpEnvelope)
    (ack : MutualCommitAckPayload) (cfg : PeerConfig) (s : Initiator)
    (completed : CompletedHandshake),
    Initiator.start P cfg₀ presented intended messageId timestamp requested drawn =
      .ok (s₀, hello) →
    (s₀.run P J calls).onCommitAck P envelope ack cfg = (s, .ok completed) →
    ∃ nonce before env helloAck cfg₁ drawn₁ after,
      drawn = some nonce ∧ calls = before ++ .helloAck env helloAck cfg₁ drawn₁ :: after ∧
      (helloAck.identity.kind = .spiffe →
        cfg₁.identityVerifier = some (spiffeVerifier P J X w.store) →
        ∃ key, VouchedPeer P J X w.inserted cfg₁ env helloAck.manifest helloAck.identity
            helloAck.popNonce key ∧ envelope.sender = helloAck.manifest.aid ∧
          key.verifyJcs P nonce.bytes ack.popSignature = .ok ())

/-- A responder completes with a SPIFFE peer only if its HELLO was vouched for, and the holder of
the key that was vouched for signed the nonce that the responder drew. -/
def ResponderMeetsVouched : Prop :=
  ∀ (env : AitpEnvelope) (hello : MutualHelloPayload) (presented : PresentedIdentity)
    (messageId : Uuid) (timestamp : Timestamp) (cfg₀ : PeerConfig) (requested : List String)
    (drawn : Option Nonce) (s₀ : Responder) (helloAck : MutualHelloAckPayload)
    (calls : List ResponderCall) (envelope : AitpEnvelope) (commit : MutualCommitPayload)
    (cfg : PeerConfig) (drawn₁ : RandomV4) (s : Responder) (ack : MutualCommitAckPayload)
    (completed : CompletedHandshake),
    Responder.onHello P J env hello presented messageId timestamp cfg₀ requested drawn =
      .ok (s₀, helloAck) →
    (s₀.run P calls).onCommit P envelope commit cfg drawn₁ = (s, .ok (ack, completed)) →
    hello.identity.kind = .spiffe →
    cfg₀.identityVerifier = some (spiffeVerifier P J X w.store) →
    ∃ nonce key, drawn = some nonce ∧
      VouchedPeer P J X w.inserted cfg₀ env hello.manifest hello.identity hello.popNonce key ∧
      envelope.sender = hello.manifest.aid ∧
      key.verifyJcs P nonce.bytes commit.popSignature = .ok ()

end

theorem initiator_meets_vouched (hw : w.Kept P J X) : InitiatorMeetsVouched P J X w := by
  intro cfg₀ presented intended messageId timestamp requested drawn s₀ hello calls envelope ack cfg
    s completed hs hc
  obtain ⟨nonce, before, env, helloAck, cfg₁, drawn₁, after, hd, hcalls, ⟨s₁, m, hacc⟩, -, haid,
    hsend, hcomp⟩ := initiator_completes cfg₀ presented intended messageId timestamp requested drawn
      s₀ hello calls envelope ack cfg s completed hs hc
  refine ⟨nonce, before, env, helloAck, cfg₁, drawn₁, after, hd, hcalls, fun hk hv => ?_⟩
  obtain ⟨n, a, key, -, hb, -, -⟩ := Initiator.onHelloAck_eq_ok.mp hacc
  simp only [Initiator.bindPeer, bind_eq_ok, pure_eq_ok] at hb
  obtain ⟨-, -, -, -, -, -, key', hboot, -, -, rfl⟩ := hb
  have hpeer := hw.vouchedPeer hboot hk hv
  obtain ⟨key, hkey, hpop⟩ := hcomp.possession
  obtain rfl := Except.ok.inj (hpeer.encodes.symm.trans hkey)
  exact ⟨_, hpeer, hsend.trans haid.symm, hpop⟩

theorem responder_meets_vouched (hw : w.Kept P J X) : ResponderMeetsVouched P J X w := by
  intro env hello presented messageId timestamp cfg₀ requested drawn s₀ helloAck calls envelope
    commit cfg drawn₁ s ack completed hs hc hk hv
  obtain ⟨nonce, hd, -, hsend, hcomp⟩ := responder_completes env hello presented messageId timestamp
    cfg₀ requested drawn s₀ helloAck calls envelope commit cfg drawn₁ s ack completed hs hc
  simp only [Responder.onHello, bind_eq_ok] at hs
  obtain ⟨key', hboot, -⟩ := hs
  have hpeer := hw.vouchedPeer hboot hk hv
  obtain ⟨key, hkey, hpop⟩ := hcomp.possession
  obtain rfl := Except.ok.inj (hpeer.encodes.symm.trans hkey)
  exact ⟨nonce, _, hd, hpeer, hsend, hpop⟩

/-- Whatever the store was configured with, by then and before, both drivers complete with a SPIFFE
peer only if the first bundle of its trust domain vouches for the agent they complete with. -/
theorem spiffe_peers (h : (spiffeVerification P J X).Reachable w) :
    InitiatorMeetsVouched P J X w ∧ ResponderMeetsVouched P J X w :=
  ⟨initiator_meets_vouched (SpiffeWorld.kept_of_reachable h),
    responder_meets_vouched (SpiffeWorld.kept_of_reachable h)⟩

/-! ## A handshake with a SPIFFE identity -/

namespace Toy

/-- The manifest of agent 0 with its SPIFFE identity. -/
def workloadBuilder : ManifestBuilder :=
  { manifestBuilder (agent 0) ["demo.echo"] ["demo.echo"] with
    identityHint := some ⟨.spiffe, workload, none, none⟩ }

def unsignedWorkload : Manifest :=
  { unsignedManifest (agent 0) ["demo.echo"] ["demo.echo"] 0 with
    identityHint := ⟨.spiffe, workload, none, none⟩ }

def workloadManifest : Manifest :=
  { unsignedWorkload with
    signature := Signature.fromRaw (agent 0).algorithm
      (signature (.digest (manifestSigningBytes unsignedWorkload))) }

theorem build_workload :
    workloadBuilder.build (signer (agent 0)) zeroNonce 0 = .ok workloadManifest :=
  rfl

theorem verifyManifest_workload {now : Timestamp}
    (hn : now ≤ Timestamp.saturatingAdd 0 defaultManifestTtl) :
    verifyManifest primitives workloadManifest ⟨now, false⟩ = .ok () := by
  refine verifyManifest_build (signer_lawful _) build_workload ?_ hn
  have he : isHttpsUri primitives "https://agent.example/aitp" = true := by decide +kernel
  have hs : isSpiffeId workload = true := by decide +kernel
  have hne : workload ≠ "" := by decide
  have ho : isCapabilityList ["demo.echo"] = true := by decide
  have ht : (0 : Timestamp) ≤ 0 ∧
      (1 : Timestamp) ≤ Timestamp.saturatingAdd 0 defaultManifestTtl := by
    decide
  have hc : (encodeBase64Url zeroNonce.bytes).length = 22 ∧
      isBase64UrlText (encodeBase64Url zeroNonce.bytes) = true :=
    ⟨by decide +kernel, Signature.all_isBase64Url_encodeBase64Url⟩
  simp [checkGrammar, workloadManifest, unsignedWorkload, unsignedManifest, ifPresent, he, hs, hne,
    ho, ht, hc, isSignature_fromRaw, ensure, checkHintMembers, allUnique]

/-- Agent 0, with its SPIFFE identity in its manifest. -/
def workloadParty : PeerConfig := { party 0 "demo.echo" with manifest := workloadManifest }

/-- Agent 1, which accepts the SPIFFE identities that its verifier does. -/
def verifyingParty : PeerConfig :=
  { party 1 "demo.echo" with
    manifest := { manifest (agent 1) ["demo.echo"] ["demo.echo"] 0 with
      acceptedIdentityTypes := some ["spiffe"] }
    identityVerifier := some (spiffeVerifier primitives jose x509 configured.store) }

/-- The HELLO of agent 0. -/
def workloadHello : MutualHelloPayload where
  identity := workloadIdentity
  manifest := workloadManifest
  requestedGrants := ["demo.echo"]
  popNonce := encodeBase64Url (nonce 1).bytes
  extensions := none

def workloadEnvelope : AitpEnvelope := .unsigned (agent 0) .mutualHello .null (uuid 0) 10

theorem bootstrap_workload :
    bootstrapVerifyPeer primitives jose workloadEnvelope workloadManifest workloadIdentity
      (encodeBase64Url (nonce 1).bytes) (verifyingParty.at 11) = .ok (agentKey 0) := by
  have hn : (11 : Timestamp) ≤ Timestamp.saturatingAdd 0 defaultManifestTtl := by decide
  have hother : verifyOtherIdentity workloadEnvelope workloadManifest workloadIdentity
      (encodeBase64Url (nonce 1).bytes) (verifyingParty.at 11) = .ok () := by
    simp only [verifyOtherIdentity, bind_eq_ok, okOr_eq_ok, mapErr_eq_ok, ensure_eq_ok]
    refine ⟨_, rfl, ⟨.spiffe, workload⟩, ?_, rfl⟩
    simp only [spiffeVerifier, bind_eq_ok, pure_eq_ok]
    have hv : verifySpiffe primitives jose x509 workloadIdentity
        { spiffePeerContext (verifyingParty.at 11) workloadEnvelope workloadManifest
            (encodeBase64Url (nonce 1).bytes) with bundles := configured.store } = .ok () :=
      verifySpiffe_workload rfl rfl rfl rfl rfl
    exact ⟨(), hv, rfl⟩
  have hproof : verifyIdentityProof primitives jose workloadEnvelope workloadManifest
      workloadIdentity (encodeBase64Url (nonce 1).bytes) (verifyingParty.at 11) =
      .ok (agentKey 0) := by
    simp only [verifyIdentityProof, workloadIdentity, bind_eq_ok, mapErr_eq_ok]
    exact ⟨(), hother, (signer_lawful (agent 0)).1⟩
  simp only [bootstrapVerifyPeer, bind_eq_ok, ensure_eq_ok, mapErr_eq_ok]
  exact ⟨(), decide_eq_true rfl, (), verifyManifest_workload hn, (), beq_self_eq_true workload, (),
    decide_eq_true rfl, (), rfl, hproof⟩

/-- What agent 1 waits for after it answered the HELLO. -/
def awaitingWorkload : AwaitingCommit where
  myPopNonce := encodeBase64Url (nonce 2).bytes
  peerPopNonce := encodeBase64Url (nonce 1).bytes
  peer := .ofManifest workloadManifest (agentKey 0)
  peerRequestedGrants := ["demo.echo"]
  peerIdentity := workloadIdentity

theorem onHello_workload : ∃ ack, Responder.onHello primitives jose workloadEnvelope workloadHello
    (.pinnedKey "agent") (uuid 1) 11 (verifyingParty.at 11) ["demo.echo"] (some (nonce 2)) =
      .ok (.awaitingCommit awaitingWorkload, ack) := by
  obtain ⟨proof, input, hd, -, -⟩ := buildDescriptor_pinnedKey (party_holds 1 "demo.echo").total
    "agent" (agent 0) (uuid 1) 11 (nonce 2)
  have ha : applyPeerPolicy workloadIdentity (verifyingParty.at 11) = .ok () := rfl
  refine ⟨⟨.pinnedKey "agent" (encodeBase64Url (agentKey 1).bytes) proof, verifyingParty.manifest,
    ["demo.echo"], encodeBase64Url (nonce 2).bytes, encodeBase64Url (nonce 1).bytes, none⟩, ?_⟩
  simp only [Responder.onHello, bind_eq_ok, pure_eq_ok]
  exact ⟨agentKey 0, bootstrap_workload, (), ha, _, rfl, _, hd, rfl⟩

theorem grantsForPeer_workload (identity : IdentityDescriptor) (aid : Aid) :
    grantsForPeer (workloadParty.at 12) identity aid ["demo.echo"] = .ok ["demo.echo"] := by
  simp [grantsForPeer, PeerConfig.at, workloadParty, workloadManifest, unsignedWorkload,
    unsignedManifest, party]

theorem grantsForPeer_verifying (identity : IdentityDescriptor) (aid : Aid) :
    grantsForPeer (verifyingParty.at 13) identity aid ["demo.echo"] = .ok ["demo.echo"] := by
  simp [grantsForPeer, PeerConfig.at, verifyingParty, party, manifest, unsignedManifest]

theorem onCommit_workload : ∃ m s ack completed,
    (Responder.awaitingCommit awaitingWorkload).onCommit primitives
      (.unsigned (agent 0) .mutualCommit .null (uuid 2) 12) m (verifyingParty.at 13) (drawnV4 5) =
        (s, .ok (ack, completed)) := by
  have hcap : Issuable ["demo.echo"] (some ["demo.echo"]) :=
    ⟨⟨by decide, by decide, by decide⟩, by decide⟩
  have hw : workloadParty.Holds primitives (agentKey 0) := ⟨rfl, (party_holds 0 "demo.echo").total⟩
  have hv : verifyingParty.Holds primitives (agentKey 1) := ⟨rfl, (party_holds 1 "demo.echo").total⟩
  have hfits : Timestamp.Fits (Timestamp.saturatingAdd 0 defaultManifestTtl) := saturate_fits _
  have hlive : ∀ t ∈ [(12 : Timestamp), 13], t.Fits ∧
      t < Timestamp.saturatingAdd 0 defaultManifestTtl ∧
      t ≤ Timestamp.saturatingAdd 12 defaultTctTtl := by
    decide
  obtain ⟨hf₂, hx₂, -⟩ := hlive 12 (by simp)
  obtain ⟨hf₃, hx₃, ht₃⟩ := hlive 13 (by simp)
  obtain ⟨c, m, -, hm⟩ := commitTo_honest (workloadParty.at 12) (drawnV4 4) (hw.at 12) hf₂ hfits hx₂
    (signer_lawful (agent 1)).1 agent_ne (grantsForPeer_workload workloadIdentity (agent 1)) hcap
    (nonce 2)
  have hexact : c.iat.Exact ∧ c.exp.Exact := by
    rw [hm.claims.iat, hm.claims.exp]
    exact show Timestamp.Exact 12 ∧ Timestamp.Exact (min (Timestamp.saturatingAdd 12 defaultTctTtl)
      (Timestamp.saturatingAdd 0 defaultManifestTtl)) by decide
  have hacc := acceptCommit_honest (verifyingParty.at 13) readsText (hw.at 12) hm hexact hcap
    (List.Subset.refl _) agent_ne hf₃ (show (12 : Timestamp) ≤ 13 by decide) ht₃ hx₃.le
    (fun _ _ => rfl)
  obtain ⟨c', m', hm', -⟩ := commitTo_honest (verifyingParty.at 13) (drawnV4 5) (hv.at 13) hf₃ hfits
    hx₃ (signer_lawful (agent 0)).1 agent_ne.symm (grantsForPeer_verifying workloadIdentity _) hcap
    (nonce 1)
  have hb : checkBound "commit sender mismatch" awaitingWorkload.myPopNonce awaitingWorkload.peer
      (.unsigned (agent 0) .mutualCommit .null (uuid 2) 12) m = .ok () :=
    checkBound_eq_ok.mpr ⟨rfl, hm.echo⟩
  exact ⟨m, _, _, _, Responder.onCommit_eq_ok.mpr ⟨_, rfl, hb, hacc, hm', rfl⟩⟩

end Toy

open Toy in
/-- Agent 1 answers the HELLO of agent 0 and completes with it: the trust domain vouched for the
key that signed the nonce of agent 1. -/
theorem spiffe_peers_toy : ∃ popSignature,
    VouchedPeer primitives jose x509 configured.inserted (verifyingParty.at 11) workloadEnvelope
        workloadManifest workloadIdentity (encodeBase64Url (nonce 1).bytes) (agentKey 0) ∧
      (agentKey 0).verifyJcs primitives (nonce 2).bytes popSignature = .ok () := by
  obtain ⟨ack, hhello⟩ := onHello_workload
  obtain ⟨m, s, commitAck, completed, hcommit⟩ := onCommit_workload
  obtain ⟨n, key, hn, hpeer, -, hpop⟩ := (spiffe_peers reachable_configured).2 _ _ _ _ _ _ _ _ _ _
    [] _ _ _ _ _ _ _ hhello hcommit rfl rfl
  obtain rfl := Option.some.inj hn
  obtain rfl := Except.ok.inj (hpeer.encodes.symm.trans (signer_lawful (agent 0)).1)
  exact ⟨_, hpeer, hpop⟩

end Aitp
