import Aitp.Core.EnvelopeSign
import Aitp.Handshake.AdmissionRuns
import Aitp.Handshake.Failure

/-! # Admission of a presentation

`admit_at` and `admit_wire_at` as functions of the two stores. Every check but the last two
leaves the nonces as they are and records no identifier, and the nonce is consumed only for an
envelope signed by the key that signed the proof.
-/

namespace Aitp

open Expiring

/-- The stores of an admission object. -/
structure AdmissionStores where
  nonces : InMemoryNonceStore
  denyList : InMemoryMessageIdDenyList

namespace PinnedAdmission

variable (P : Primitives) (adm : PinnedAdmission)

/-- `gate`, for the limiter's answer. -/
def runGate (messageId : Option Uuid) (timestamp : Option Timestamp) (limiter : Option ℕ)
    (now : Timestamp) (s : AdmissionStores) : AdmissionStores × Except AdmissionError Unit :=
  match messageId with
  | none => (s, adm.gate limiter timestamp now)
  | some mid =>
    let (denyList, found) := s.denyList.containsSync adm.denyList mid now
    ({ s with denyList := denyList },
      if found then .error .replay else adm.gate limiter timestamp now)

/-- The last steps of `verify`: the nonce is consumed and the identifier recorded. -/
def consumeAndRecord (p : Presented) (now : Timestamp) (s : AdmissionStores) :
    AdmissionStores × Except AdmissionError Admitted :=
  let (nonces, outcome) := s.nonces.consumeSync adm.nonces p.nonce adm.verifierAid now
  match outcome with
  | .consumed =>
    let (denyList, r) :=
      s.denyList.insertSync adm.denyList p.messageId (adm.keptUntil p.timestamp) now
    (⟨nonces, denyList⟩,
      match r with
      | .ok true => .ok ⟨p.key, p.subject, p.messageId⟩
      | .ok false => .error .replay
      | .error e => .error (.denyList e))
  | .expired => (⟨nonces, s.denyList⟩, .error (.identity "challenge expired"))
  | .unknown => (⟨nonces, s.denyList⟩,
      .error (.identity "challenge unknown, already used, or for another verifier"))

/-- `verify`. -/
def runVerify (env : AitpEnvelope) (now : Timestamp) (s : AdmissionStores) :
    AdmissionStores × Except AdmissionError Admitted :=
  match adm.verify P env with
  | .error e => (s, .error e)
  | .ok p => adm.consumeAndRecord p now s

def admitAt (env : AitpEnvelope) (limiter : Option ℕ) (now : Timestamp) (s : AdmissionStores) :
    AdmissionStores × Except AdmissionError Admitted :=
  match adm.runGate (some env.messageId) (some env.timestamp) limiter now s with
  | (s, .error e) => (s, .error e)
  | (s, .ok ()) => adm.runVerify P env now s

def admitWireAt (envelope : CheckedJson) (limiter : Option ℕ) (now : Timestamp)
    (s : AdmissionStores) : AdmissionStores × Except AdmissionError Admitted :=
  match adm.runGate (gateMessageId envelope) ((envelope.value.get "timestamp").bind Serde.i64)
      limiter now s with
  | (s, .error e) => (s, .error e)
  | (s, .ok ()) =>
    match mapErr parseError (parseEnvelopeWire envelope) with
    | .error e => (s, .error e)
    | .ok env => adm.runVerify P env now s

/-- The checks of `admit_at` before the nonce is consumed. -/
def checks (env : AitpEnvelope) (limiter : Option ℕ) (now : Timestamp) (s : AdmissionStores) :
    Except AdmissionError Presented := do
  (adm.runGate (some env.messageId) (some env.timestamp) limiter now s).2
  adm.verify P env

/-- The checks of `admit_wire_at` before the nonce is consumed. -/
def wireChecks (envelope : CheckedJson) (limiter : Option ℕ) (now : Timestamp)
    (s : AdmissionStores) : Except AdmissionError Presented := do
  (adm.runGate (gateMessageId envelope) ((envelope.value.get "timestamp").bind Serde.i64)
    limiter now s).2
  let env ← mapErr parseError (parseEnvelopeWire envelope)
  adm.verify P env

/-- The nonces are as they were, and no identifier is recorded. -/
structure Untouched (now : Timestamp) (s s' : AdmissionStores) : Prop where
  nonces : s'.nonces = s.nonces
  denyList : Thins (s.denyList.held adm.denyList) (s'.denyList.held adm.denyList)
    fun _ u => u < now

/-- One key made the signature of the envelope and the proof in it. -/
def SignedWithProof (env : AitpEnvelope) : Prop :=
  ∃ key payload input, VerifyingKey.fromAid P env.sender = .ok key ∧
    verifyEnvelopeSignature P env key = .ok () ∧
    decodeIdentityPresentationPayload env.payload = some payload ∧
    pinnedKeyProofInput env.sender adm.verifierAid env.messageId env.timestamp payload.popNonce =
      .ok input ∧ key.verifyJcs P input payload.identity.proof = .ok ()

variable {P adm} {limiter : Option ℕ} {now : Timestamp} {s : AdmissionStores}

theorem untouched_runGate (messageId : Option Uuid) (timestamp : Option Timestamp) :
    adm.Untouched now s (adm.runGate messageId timestamp limiter now s).1 := by
  cases messageId with
  | none => exact ⟨rfl, .of_eq rfl⟩
  | some mid => exact ⟨rfl, InMemoryMessageIdDenyList.thins_touch mid now⟩

theorem signedWithProof_of_verify {env : AitpEnvelope} {p : Presented}
    (h : adm.verify P env = .ok p) : SignedWithProof P adm env := by
  obtain ⟨-, -, hkey, -, henv, payload, input, hd, -, hinput, hproof⟩ := verify_ok h
  exact ⟨p.key.key, payload, input, hkey, henv, hd, hinput, hproof⟩

/-- What `admit_at` does: a check fails, or the nonce is consumed. -/
theorem admitAt_eq (env : AitpEnvelope) :
    adm.admitAt P env limiter now s =
      match adm.checks P env limiter now s with
      | .error e =>
        ((adm.runGate (some env.messageId) (some env.timestamp) limiter now s).1, .error e)
      | .ok p => adm.consumeAndRecord p now
        (adm.runGate (some env.messageId) (some env.timestamp) limiter now s).1 := by
  unfold admitAt checks runVerify
  obtain ⟨s', r⟩ := adm.runGate (some env.messageId) (some env.timestamp) limiter now s
  cases r with
  | error e => rfl
  | ok u =>
    simp only [bind, Except.bind]

/-- What `admit_wire_at` does: a check fails, or the nonce is consumed. -/
theorem admitWireAt_eq (envelope : CheckedJson) :
    adm.admitWireAt P envelope limiter now s =
      match adm.wireChecks P envelope limiter now s with
      | .error e => ((adm.runGate (gateMessageId envelope)
          ((envelope.value.get "timestamp").bind Serde.i64) limiter now s).1, .error e)
      | .ok p => adm.consumeAndRecord p now (adm.runGate (gateMessageId envelope)
          ((envelope.value.get "timestamp").bind Serde.i64) limiter now s).1 := by
  unfold admitWireAt wireChecks runVerify
  obtain ⟨s', r⟩ := adm.runGate (gateMessageId envelope)
    ((envelope.value.get "timestamp").bind Serde.i64) limiter now s
  cases r with
  | error e => rfl
  | ok u =>
    cases hparse : mapErr parseError (parseEnvelopeWire envelope) with
    | error e => rfl
    | ok env =>
      simp only [bind, Except.bind]

/-- A check of `admit_at` that fails is what it answers. -/
theorem admitAt_of_checks_error {env : AitpEnvelope} {e : AdmissionError}
    (h : adm.checks P env limiter now s = .error e) :
    (adm.admitAt P env limiter now s).2 = .error e ∧
      adm.Untouched now s (adm.admitAt P env limiter now s).1 := by
  rw [admitAt_eq, h]
  exact ⟨rfl, untouched_runGate ..⟩

theorem admitWireAt_of_checks_error {envelope : CheckedJson} {e : AdmissionError}
    (h : adm.wireChecks P envelope limiter now s = .error e) :
    (adm.admitWireAt P envelope limiter now s).2 = .error e ∧
      adm.Untouched now s (adm.admitWireAt P envelope limiter now s).1 := by
  rw [admitWireAt_eq, h]
  exact ⟨rfl, untouched_runGate ..⟩

end PinnedAdmission

open PinnedAdmission

/-- An admission that a check refuses before the nonce is consumed leaves every nonce as it was and
records no identifier, and one whose envelope and proof are not of one key consumes no nonce. -/
theorem admission_untouched (P : Primitives) (adm : PinnedAdmission) (limiter : Option ℕ)
    (now : Timestamp) (s : AdmissionStores) :
    (∀ env e, adm.checks P env limiter now s = .error e →
      (adm.admitAt P env limiter now s).2 = .error e ∧
        adm.Untouched now s (adm.admitAt P env limiter now s).1) ∧
    (∀ envelope e, adm.wireChecks P envelope limiter now s = .error e →
      (adm.admitWireAt P envelope limiter now s).2 = .error e ∧
        adm.Untouched now s (adm.admitWireAt P envelope limiter now s).1) ∧
    (∀ env, ¬SignedWithProof P adm env →
      adm.Untouched now s (adm.admitAt P env limiter now s).1) ∧
    ∀ envelope, (∀ env, parseEnvelopeWire envelope = .ok env → ¬SignedWithProof P adm env) →
      adm.Untouched now s (adm.admitWireAt P envelope limiter now s).1 := by
  refine ⟨fun _ _ => admitAt_of_checks_error, fun _ _ => admitWireAt_of_checks_error, ?_, ?_⟩
  · intro env hn
    cases hc : adm.checks P env limiter now s with
    | error e => exact (admitAt_of_checks_error hc).2
    | ok p =>
      obtain ⟨_, -, hv⟩ := bind_eq_ok.mp hc
      exact absurd (signedWithProof_of_verify hv) hn
  · intro envelope hn
    cases hc : adm.wireChecks P envelope limiter now s with
    | error e => exact (admitWireAt_of_checks_error hc).2
    | ok p =>
      obtain ⟨_, -, hrest⟩ := bind_eq_ok.mp hc
      obtain ⟨env, henv, hv⟩ := bind_eq_ok.mp hrest
      exact absurd (signedWithProof_of_verify hv) (hn env (mapErr_eq_ok.mp henv))

/-- The stores after the first challenge of `openAdmission`. -/
def challengedStores : AdmissionStores :=
  ⟨(InMemoryNonceStore.new.issueSync openAdmission.nonces
    (openAdmission.challengeRecord zeroBytes 1000) 0).1, .new⟩

/-- The presentation that answers that challenge. -/
def honestPresentation : Option AitpEnvelope :=
  (presentPinned (Toy.signer Toy.aid) "agent"
    (challengeFor (openAdmission.challengeRecord zeroBytes 1000)) (Toy.uuid 0) 1005).toOption

/-- An observer presents the honest envelope under another timestamp: the nonce stays. -/
theorem admission_untouched_observed : ∃ env : AitpEnvelope,
    (openAdmission.admitAt Toy.primitives { env with timestamp := 999 } none 1010
      challengedStores).2 = .error .invalidSignature ∧
    openAdmission.Untouched 1010 challengedStores (openAdmission.admitAt Toy.primitives
      { env with timestamp := 999 } none 1010 challengedStores).1 ∧
    (challengedStores.nonces.held openAdmission.nonces zeroBytes).isSome = true := by
  have hs : (honestPresentation.map fun env =>
      errorOf (openAdmission.checks Toy.primitives { env with timestamp := 999 } none 1010
        challengedStores)) = some (some .invalidSignature) := by
    decide +kernel
  obtain ⟨env, -, hc⟩ := Option.map_eq_some_iff.mp hs
  obtain ⟨hr, hu⟩ := (admission_untouched Toy.primitives openAdmission none 1010
    challengedStores).1 _ _ (errorOf_eq_some.mp hc)
  exact ⟨env, hr, hu, by decide +kernel⟩

end Aitp
