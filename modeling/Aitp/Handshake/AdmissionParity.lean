import Aitp.Core.EnvelopeWire
import Aitp.Handshake.AdmissionCalls

/-! # The two entry points of admission

A typed envelope and its serialisation meet the same decision and leave the same stores, unless
the envelope breaks a rule that only the parser of the wire form checks: that its payload is an
object and its timestamp is not negative.
-/

namespace Aitp

open PinnedAdmission

variable {P : Primitives} {adm : PinnedAdmission} {limiter : Option ℕ} {now : Timestamp}
  {s : AdmissionStores} {env : AitpEnvelope} {c : CheckedJson} {p : Presented}

/-- The same decision and the same stores. Two refusals need not give one reason. -/
def SameDecision (r r' : AdmissionStores × Except AdmissionError Admitted) : Prop :=
  r'.1 = r.1 ∧ ((∃ a, r.2 = .ok a ∧ r'.2 = .ok a) ∨ ∃ e e', r.2 = .error e ∧ r'.2 = .error e')

theorem SameDecision.refl (r : AdmissionStores × Except AdmissionError Admitted) :
    SameDecision r r := by
  obtain ⟨s, r⟩ := r
  cases r with
  | ok a => exact ⟨rfl, .inl ⟨a, rfl, rfl⟩⟩
  | error e => exact ⟨rfl, .inr ⟨e, e, rfl, rfl⟩⟩

/-! ## The envelope read back -/

theorem get_toValue_messageId (env : AitpEnvelope) :
    env.toValue.get "message_id" = some (.str env.messageId.hyphenated) :=
  Serde.get_obj_written (by decide) rfl (f := ⟨"message_id", .required⟩) (i := 2) rfl

theorem get_toValue_timestamp (env : AitpEnvelope) :
    env.toValue.get "timestamp" = some (.int env.timestamp) :=
  Serde.get_obj_written (by decide) rfl (f := ⟨"timestamp", .required⟩) (i := 3) rfl

theorem gateMessageId_toValue (hc : c.value = env.toValue) :
    gateMessageId c = some env.messageId := by
  rw [gateMessageId, hc, get_toValue_messageId]
  exact Uuid.tryParse_hyphenated env.messageId

theorem checkV4_of_decodeEnvelope {v : Json} (h : decodeEnvelope v = some env) :
    env.messageId.checkV4 = .ok () := by
  unfold decodeEnvelope at h
  split at h
  · simp only [Option.bind_eq_bind, Option.bind_eq_some_iff, Option.pure_def,
      Option.some.injEq] at h
    obtain ⟨_, -, u, hu, _, -, _, -, _, -, rfl⟩ := h
    exact (Uuid.parseV4_ok (toOption_eq_some.mp hu)).2
  · cases h

theorem eq_of_parseEnvelopeWire (hc : c.value = env.toValue) (ht : env.timestamp.Fits)
    {env' : AitpEnvelope} (h : parseEnvelopeWire c = .ok env') :
    env' = env ∧ checkUnsignedEnvelopeStructure env = .ok () := by
  have hext : env.toValue.get "extensions" = env.extensions.map .obj :=
    Serde.get_obj_written (by decide) rfl (f := ⟨"extensions", .default⟩) (i := 6) rfl
  obtain ⟨ms, hm, hr, -, hs⟩ := parseEnvelopeWire_ok h
  simp only [parseEnvelopeWire, bind_eq_ok, okOr_eq_ok, pure_eq_ok] at h
  obtain ⟨_, -, _, -, _, -, _, -, e, hdec, _, -, rfl⟩ := h
  rw [hc] at hdec
  have hid : e.messageId = env.messageId := by
    have hget := get_toValue_messageId env
    rw [← hc, hm] at hget
    have hread : ms.lookup "message_id" = some (.str env.messageId.hyphenated) := hget
    rw [hr.messageId] at hread
    exact Uuid.hyphenated_injective (Json.str.inj (Option.some.inj hread))
  have hv4 : env.messageId.checkV4 = .ok () := by
    rw [← hid]
    exact checkV4_of_decodeEnvelope hdec
  have hself := decodeEnvelope_toValue hv4 ht fun ms hx =>
    Json.distinctKeys_of_get (hc ▸ c.distinct) (hext.trans (by rw [hx]; rfl))
  obtain rfl := Option.some.inj (hdec.symm.trans hself)
  obtain ⟨_, hu, -⟩ := bind_eq_ok.mp hs
  exact ⟨rfl, hu⟩

theorem parseEnvelopeWire_of_verify (hc : c.value = env.toValue) (ht : env.timestamp.Fits)
    (hv : adm.verify P env = .ok p) (hs : checkUnsignedEnvelopeStructure env = .ok ()) :
    parseEnvelopeWire c = .ok env := by
  obtain ⟨v, hd⟩ := c
  obtain rfl := hc
  simp only [PinnedAdmission.verify, bind_eq_ok, ensure_eq_ok, okOr_eq_ok, mapErr_eq_ok, pure_eq_ok,
    exists_const, beq_iff_eq] at hv
  obtain ⟨hversion, -, hv4, _, -, _, -, _, -, _, -, sig, hsig, -⟩ := hv
  simp only [Signature.parse, bind_eq_ok, ensure_eq_ok, exists_const] at hsig
  obtain ⟨-, hformat, -⟩ := hsig
  obtain ⟨u, hu⟩ := exists_ok_of_isOk hv4
  apply parseEnvelopeWire_toValue hversion hu ht
  rw [checkEnvelopeStructure, bind_eq_ok]
  refine ⟨(), hs, ?_⟩
  rw [untagged_eq_payload, ensure_eq_ok]
  exact hformat

/-! ## Agreement -/

theorem nonces_consumeAndRecord (p : Presented) :
    (adm.consumeAndRecord p now s).1.nonces =
      (s.nonces.consumeSync adm.nonces p.nonce adm.verifierAid now).1 := by
  unfold consumeAndRecord
  simp only
  cases (s.nonces.consumeSync adm.nonces p.nonce adm.verifierAid now).2 <;> rfl

theorem consumeSync_unknown (h : (s.nonces.consumeSync adm.nonces p.nonce adm.verifierAid now).1 =
    s.nonces) :
    (s.nonces.consumeSync adm.nonces p.nonce adm.verifierAid now).2 = .unknown := by
  rcases @InMemoryNonceStore.consumeSection_cases adm.nonces s.nonces p.nonce adm.verifierAid now
    with ⟨e, he, -, hu, -⟩ | ⟨-, ho⟩
  · have hheld : (s.nonces.consumeSync adm.nonces p.nonce adm.verifierAid now).1.held adm.nonces =
        Function.update (s.nonces.held adm.nonces) p.nonce none := hu
    rw [h] at hheld
    have hnone := congrFun hheld p.nonce
    rw [he, Function.update_self] at hnone
    cases hnone
  · exact ho

theorem consumeAndRecord_of_unchanged
    (h : (s.nonces.consumeSync adm.nonces p.nonce adm.verifierAid now).1 = s.nonces) :
    ∃ e, adm.consumeAndRecord p now s = (s, .error e) := by
  have ho := consumeSync_unknown h
  unfold consumeAndRecord
  simp only [ho, h]
  exact ⟨_, rfl⟩

/-- The envelope keeps the rules of the wire form on payload and timestamp, a check refuses it
before its nonce is consumed, or to consume its nonce changes nothing. -/
def Agreeing (P : Primitives) (adm : PinnedAdmission) (env : AitpEnvelope) (limiter : Option ℕ)
    (now : Timestamp) (s : AdmissionStores) : Prop :=
  checkUnsignedEnvelopeStructure env = .ok () ∨
    (∃ e, adm.checks P env limiter now s = .error e) ∨
    ∃ p, adm.checks P env limiter now s = .ok p ∧
      (s.nonces.consumeSync adm.nonces p.nonce adm.verifierAid now).1 = s.nonces

/-- `admit_at` on an envelope and `admit_wire_at` on its serialisation agree exactly then. -/
theorem admission_parity_iff (hc : c.value = env.toValue) (ht : env.timestamp.Fits) :
    SameDecision (adm.admitAt P env limiter now s) (adm.admitWireAt P c limiter now s) ↔
      Agreeing P adm env limiter now s := by
  have hstamp : (c.value.get "timestamp").bind Serde.i64 = some env.timestamp := by
    rw [hc, get_toValue_timestamp]
    exact i64_of_fits ht
  have hgate := @untouched_runGate adm limiter now s (some env.messageId) (some env.timestamp)
  unfold admitAt admitWireAt Agreeing checks
  rw [gateMessageId_toValue hc, hstamp]
  rcases hrun : adm.runGate (some env.messageId) (some env.timestamp) limiter now s with ⟨s', r⟩
  rw [hrun] at hgate
  cases r with
  | error e => exact iff_of_true (.refl _) (.inr (.inl ⟨e, rfl⟩))
  | ok u =>
    have hnonces : s'.nonces = s.nonces := hgate.nonces
    simp only [runVerify]
    cases hv : adm.verify P env with
    | error e =>
      refine iff_of_true ?_ (.inr (.inl ⟨e, rfl⟩))
      cases hparse : parseEnvelopeWire c with
      | error e' => exact ⟨rfl, .inr ⟨e, _, rfl, rfl⟩⟩
      | ok env' =>
        obtain ⟨rfl, -⟩ := eq_of_parseEnvelopeWire hc ht hparse
        simp only [mapErr, hv]
        exact .refl _
    | ok p =>
      cases hparse : parseEnvelopeWire c with
      | ok env' =>
        obtain ⟨rfl, hs⟩ := eq_of_parseEnvelopeWire hc ht hparse
        simp only [mapErr, hv]
        exact iff_of_true (.refl _) (.inl hs)
      | error e =>
        have hs : checkUnsignedEnvelopeStructure env ≠ .ok () := by
          intro hs
          rw [parseEnvelopeWire_of_verify hc ht hv hs] at hparse
          cases hparse
        simp only [mapErr]
        constructor
        · rintro ⟨hstores, -⟩
          refine .inr (.inr ⟨p, rfl, ?_⟩)
          have hconsume := @nonces_consumeAndRecord adm now s' p
          rw [← hstores, hnonces] at hconsume
          exact hconsume.symm
        · rintro (h | ⟨e', h⟩ | ⟨p', h, hsame⟩)
          · exact absurd h hs
          · cases h
          · obtain rfl := Except.ok.inj (show Except.ok p = Except.ok p' from h)
            rw [← hnonces] at hsame
            obtain ⟨e', he'⟩ := consumeAndRecord_of_unchanged hsame
            rw [he']
            exact ⟨rfl, .inr ⟨e', _, rfl, rfl⟩⟩

/-- The honest envelope is admitted on both ways in. -/
theorem admission_parity_iff_honest : ∃ (env : AitpEnvelope) (c : CheckedJson),
    c.value = env.toValue ∧
    (openAdmission.admitAt Toy.primitives env none 1010 challengedStores).2.isOk = true ∧
    SameDecision (openAdmission.admitAt Toy.primitives env none 1010 challengedStores)
      (openAdmission.admitWireAt Toy.primitives c none 1010 challengedStores) := by
  have hs : (honestPresentation.bind fun env => (CheckedJson.ofDocument env.toValue).map fun _ =>
      ((openAdmission.admitAt Toy.primitives env none 1010 challengedStores).2.isOk,
        (checkUnsignedEnvelopeStructure env).isOk, decide env.timestamp.Fits)) =
      some (true, true, true) := by
    decide +kernel
  obtain ⟨env, -, hs⟩ := Option.bind_eq_some_iff.mp hs
  obtain ⟨c, hc, hs⟩ := Option.map_eq_some_iff.mp hs
  simp only [Prod.mk.injEq, decide_eq_true_eq] at hs
  obtain ⟨hok, hstructure, ht⟩ := hs
  obtain ⟨_, hu⟩ := exists_ok_of_isOk hstructure
  have hvalue := CheckedJson.value_of_ofDocument hc
  exact ⟨env, c, hvalue, hok, (admission_parity_iff hvalue ht).mpr (.inl hu)⟩

/-- The honest presentation, signed over its payload as a sequence. -/
def arrayPresentation : Option AitpEnvelope := do
  let env ← honestPresentation
  let identity ← env.payload.get "identity"
  let popNonce ← env.payload.get "pop_nonce"
  let unsigned := { env with payload := .arr [identity, popNonce] }
  let signature ← ((Toy.signer Toy.aid).signJcs (envelopeSigningInput unsigned)).toOption
  return { unsigned with signature := signature }

/-- It is admitted as an envelope, and refused on the wire. -/
theorem admission_array_payload : ∃ (env : AitpEnvelope) (c : CheckedJson),
    c.value = env.toValue ∧
    (openAdmission.admitAt Toy.primitives env none 1010 challengedStores).2.isOk = true ∧
    (openAdmission.admitWireAt Toy.primitives c none 1010 challengedStores).2.isOk = false ∧
    ¬SameDecision (openAdmission.admitAt Toy.primitives env none 1010 challengedStores)
      (openAdmission.admitWireAt Toy.primitives c none 1010 challengedStores) := by
  have hs : (arrayPresentation.bind fun env => (CheckedJson.ofDocument env.toValue).map fun c =>
      ((openAdmission.admitAt Toy.primitives env none 1010 challengedStores).2.isOk,
        (openAdmission.admitWireAt Toy.primitives c none 1010 challengedStores).2.isOk)) =
      some (true, false) := by
    decide +kernel
  obtain ⟨env, -, hs⟩ := Option.bind_eq_some_iff.mp hs
  obtain ⟨c, hc, hs⟩ := Option.map_eq_some_iff.mp hs
  simp only [Prod.mk.injEq] at hs
  obtain ⟨hok, hrefused⟩ := hs
  refine ⟨env, c, CheckedJson.value_of_ofDocument hc, hok, hrefused, ?_⟩
  rintro ⟨-, ⟨a, -, ha⟩ | ⟨e, -, he, -⟩⟩
  · rw [ha] at hrefused
    cases hrefused
  · rw [he] at hok
    cases hok

end Aitp
