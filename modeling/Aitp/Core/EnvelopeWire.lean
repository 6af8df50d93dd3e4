import Aitp.Core.Envelope

/-! # Received and re-serialised envelopes

The signature of an envelope is checked over a re-serialisation of its typed
form. The two agree with the received object on every member but two: `sender`
may arrive as an array and `message_type` as an object, and each is written back
in its usual form.
-/

namespace Aitp

open Json

/-- The members of an accepted envelope, and what each decoded to. -/
structure Received (ms : List (String × Json)) (e : AitpEnvelope) : Prop where
  keys : (ms.map Prod.fst).Nodup
  closed : ∀ m ∈ ms, ∃ f ∈ envelopeFields, f.name = m.1
  version : ms.lookup "version" = some (.str e.version)
  messageType : ∃ v, ms.lookup "message_type" = some v ∧
    Serde.variantName v = some e.messageType.asWireStr
  messageId : ms.lookup "message_id" = some (.str e.messageId.hyphenated)
  timestamp : ms.lookup "timestamp" = some (.int e.timestamp)
  timestampRange : Serde.i64 (.int e.timestamp) = some e.timestamp
  sender : ∃ v, ms.lookup "sender" = some v ∧ decodeSender v = some e.sender
  payload : ms.lookup "payload" = some e.payload
  extensions : ms.lookup "extensions" = e.extensions.map .obj
  signature : ms.lookup "signature" = some (.str e.signature)

theorem decodeSender_obj {v : Json} {a : Aid} (h : decodeSender v = some a)
    (hv : v.isObject = true) : canon (.obj [("agent_id", .str a.value)]) = canon v := by
  obtain ⟨ms, rfl⟩ := isObject_iff.mp hv
  unfold decodeSender at h
  split at h
  next s hs =>
    obtain ⟨hd, hc, he⟩ := Serde.structFields_obj hs
    obtain rfl := Aid.parse_eq_some h
    have hl : ms.lookup "agent_id" = some (.str a.value) := by simpa [senderFields] using he.symm
    have hk : (senderFields.map FieldSpec.name).Nodup := by decide
    have hn : [some (Json.str a.value)].length = senderFields.length := rfl
    exact (Serde.canon_written_iff hk hn hd hc).mpr (by simp [senderFields, hl])
  next => simp at h

theorem decodeEnvelope_obj {ms : List (String × Json)} {e : AitpEnvelope}
    (h : decodeEnvelope (.obj ms) = some e)
    (hx : ∀ v, ms.lookup "extensions" = some v → v.isObject = true ∧ v.distinctKeys = true) :
    Received ms e := by
  unfold decodeEnvelope at h
  split at h
  next version messageType messageId timestamp sender payload extensions signature hs =>
    obtain ⟨hd, hc, he⟩ := Serde.structFields_obj hs
    simp only [envelopeFields, List.map_cons, List.map_nil, List.cons.injEq, and_true] at he
    obtain ⟨h₁, h₂, h₃, h₄, h₅, h₆, h₇, h₈⟩ := he
    simp only [Option.bind_eq_bind, Option.bind_eq_some_iff, Option.pure_def,
      Option.some.injEq] at h
    obtain ⟨t, ht, u, hu, z, hz, a, ha, x, hxs, rfl⟩ := h
    obtain ⟨n, hn, ht⟩ := Option.bind_eq_some_iff.mp ht
    refine ⟨hd, hc, h₁.symm, ⟨_, h₂.symm, ?_⟩, ?_, ?_, ?_, ⟨_, h₅.symm, ha⟩, h₆.symm, ?_,
      h₈.symm⟩
    · rw [hn, MessageType.asWireStr_of_ofWireStr ht]
    · rw [← h₃, (Uuid.parseV4_ok (toOption_eq_some.mp hu)).1]
    · rw [← h₄, Serde.i64_eq_some hz]
    · rw [← Serde.i64_eq_some hz, hz]
    · cases hl : ms.lookup "extensions" with
      | none =>
        rw [hl] at h₇
        subst h₇
        simp only [Serde.optional, Option.some.injEq] at hxs
        simp [← hxs]
      | some v =>
        obtain ⟨ho, hdx⟩ := hx v hl
        obtain ⟨xs, rfl⟩ := isObject_iff.mp ho
        rw [hl] at h₇
        subst h₇
        simp only [Serde.optional, Serde.map_of_distinct hdx, Option.map_some,
          Option.some.injEq] at hxs
        simp [← hxs]
  next => simp at h

theorem checkVersion_ok {v : Option Json} {u : Unit} (h : checkVersion v = .ok u) :
    v = some (.str protocolVersion) := by
  unfold checkVersion at h
  split at h <;> simp_all

theorem parseEnvelopeWire_ok {value : CheckedJson} {e : AitpEnvelope}
    (h : parseEnvelopeWire value = .ok e) :
    ∃ ms, value.value = .obj ms ∧ Received ms e ∧ e.version = protocolVersion ∧
      checkEnvelopeStructure e = .ok () := by
  simp only [parseEnvelopeWire, bind_eq_ok, ensure_eq_ok, okOr_eq_ok, mapErr_eq_ok, pure_eq_ok,
    exists_const] at h
  obtain ⟨ho, _, hv, _, _, hx, e', he, _, hs, rfl⟩ := h
  obtain ⟨ms, hm⟩ := isObject_iff.mp ho
  rw [hm] at hv hx he
  have hr := decodeEnvelope_obj he fun v hl =>
    ⟨by simpa [Json.get, Json.members, hl] using hx, value.distinct_member hm hl⟩
  have hv' := checkVersion_ok hv
  simp only [Json.get, Json.members, hr.version, Option.some.injEq, str.injEq] at hv'
  exact ⟨ms, hm, hr, hv', hs⟩

/-- The fields of the signed part of an envelope. -/
def signedFields : List FieldSpec :=
  envelopeFields.filter fun f => f.name != "signature"

theorem remove_toValue (e : AitpEnvelope) :
    e.toValue.remove "signature" = .obj (Serde.written signedFields
      [some (.str e.version), some (.str e.messageType.asWireStr),
        some (.str e.messageId.hyphenated), some (.int e.timestamp),
        some (.obj [("agent_id", .str e.sender.value)]), some e.payload,
        e.extensions.map .obj]) := by
  cases hx : e.extensions <;>
    simp [AitpEnvelope.toValue, signedFields, envelopeFields, Serde.written, remove, hx]

theorem closed_signedFields {ms : List (String × Json)}
    (hc : ∀ m ∈ ms, ∃ f ∈ envelopeFields, f.name = m.1) :
    ∀ m ∈ ms.filter fun m => m.1 != "signature", ∃ f ∈ signedFields, f.name = m.1 := by
  intro m hm
  obtain ⟨hm, hs⟩ := List.mem_filter.mp hm
  obtain ⟨f, hf, hn⟩ := hc m hm
  exact ⟨f, List.mem_filter.mpr ⟨hf, by rwa [hn]⟩, hn⟩

/-- Without their signatures, the received object and the re-serialised envelope are the same
value exactly when `sender` is an object and `message_type` a string. -/
theorem signingInput_eq_iff {ms : List (String × Json)} {e : AitpEnvelope} (hr : Received ms e)
    {t a : Json} (ht : ms.lookup "message_type" = some t) (ha : ms.lookup "sender" = some a) :
    envelopeSigningInput e = signingInputOf (.obj ms) ↔
      t.isString = true ∧ a.isObject = true := by
  obtain ⟨t', ht', hn⟩ := hr.messageType
  obtain ⟨a', ha', had⟩ := hr.sender
  obtain rfl := Option.some.inj (ht.symm.trans ht')
  obtain rfl := Option.some.inj (ha.symm.trans ha')
  rw [envelopeSigningInput, signingInputOf, signingInputOf, List.append_cancel_left_eq,
    List.cons_inj_right, jcs_eq_iff, remove_toValue, remove,
    Serde.canon_written_iff (by decide) rfl (nodup_keys_filter hr.keys _)
      (closed_signedFields hr.closed)]
  have hts : canon (.str e.messageType.asWireStr) = canon t ↔ t.isString = true := by
    constructor
    · intro h
      exact isString_iff.mpr ⟨_, canon_eq_str.mp h.symm⟩
    · intro h
      obtain ⟨s, rfl⟩ := isString_iff.mp h
      obtain rfl : s = e.messageType.asWireStr := by simpa [Serde.variantName] using hn
      rfl
  have hao : canon (.obj [("agent_id", .str e.sender.value)]) = canon a ↔ a.isObject = true := by
    constructor
    · intro h
      obtain ⟨ms', rfl⟩ := isObject_of_canon_eq h.symm
      rfl
    · exact decodeSender_obj had
  simp only [signedFields, envelopeFields, bne_iff_ne, ne_eq, String.reduceEq, not_false_eq_true,
    not_true_eq_false, List.filter_cons, if_true, if_false, List.filter_nil, List.map_cons,
    List.map_nil, lookup_filter_ne, hr.version, ht, hr.messageId, hr.timestamp, ha, hr.payload,
    hr.extensions, Option.map_some, List.cons.injEq, Option.some.injEq, and_true, true_and,
    hts, hao]

/-- The bytes verified are the bytes received exactly when `sender` arrived as an object and
`message_type` as a string. -/
theorem envelopeSigningInput_received_iff {value : CheckedJson} {e : AitpEnvelope}
    (h : parseEnvelopeWire value = .ok e) :
    envelopeSigningInput e =
        envelopeSigningDomainTag ++ 0 :: (value.value.remove "signature").jcs ↔
      (∃ v, value.value.get "sender" = some v ∧ v.isObject = true) ∧
        ∃ v, value.value.get "message_type" = some v ∧ v.isString = true := by
  obtain ⟨ms, hm, hr, -, -⟩ := parseEnvelopeWire_ok h
  obtain ⟨t, ht, -⟩ := hr.messageType
  obtain ⟨a, ha, -⟩ := hr.sender
  have hi := signingInput_eq_iff hr ht ha
  rw [signingInputOf] at hi
  rw [hm, hi]
  simp [Json.get, members, ht, ha, and_comm]

/-- A wire envelope with a chosen spelling of `message_type` and `sender`. -/
def wireEnvelope (messageType sender : Json) : Json :=
  .obj [("version", .str protocolVersion), ("message_type", messageType),
    ("message_id", .str "550e8400-e29b-41d4-a716-446655440000"), ("timestamp", .int 1711900000),
    ("sender", sender), ("payload", .obj [("x", .int 1)]),
    ("signature", .str (String.ofList (List.replicate 86 'A')))]

/-- The agent identifier of the all-zero Ed25519 key. -/
def zeroAid : String := "aid:pubkey:AAAAAAAAAAAAAAAAAAAAAAAAAAAAAAAAAAAAAAAAAAA"

/-- The usual spelling. -/
def plainEnvelope : CheckedJson :=
  ⟨wireEnvelope (.str "tct") (.obj [("agent_id", .str zeroAid)]), by decide⟩

/-- `sender` as an array of its one field. -/
def arraySenderEnvelope : CheckedJson :=
  ⟨wireEnvelope (.str "tct") (.arr [.str zeroAid]), by decide⟩

theorem envelopeSigningInput_received_iff_plain :
    ∃ e, parseEnvelopeWire plainEnvelope = .ok e ∧
      envelopeSigningInput e =
        envelopeSigningDomainTag ++ 0 :: (plainEnvelope.value.remove "signature").jcs := by
  obtain ⟨e, he⟩ := exists_ok_of_isOk (r := parseEnvelopeWire plainEnvelope) (by decide +kernel)
  exact ⟨e, he, (envelopeSigningInput_received_iff he).mpr ⟨⟨_, rfl, rfl⟩, _, rfl, rfl⟩⟩

/-- An accepted envelope whose verified bytes are not those received. -/
theorem envelopeSigningInput_arraySender :
    ∃ e, parseEnvelopeWire arraySenderEnvelope = .ok e ∧
      envelopeSigningInput e ≠
        envelopeSigningDomainTag ++ 0 :: (arraySenderEnvelope.value.remove "signature").jcs := by
  obtain ⟨e, he⟩ :=
    exists_ok_of_isOk (r := parseEnvelopeWire arraySenderEnvelope) (by decide +kernel)
  refine ⟨e, he, fun h => ?_⟩
  obtain ⟨ms, hm, hr, -, -⟩ := parseEnvelopeWire_ok he
  obtain rfl : ms = _ := (Json.obj.inj hm).symm
  exact absurd ((signingInput_eq_iff hr rfl rfl).mp h).2 (by decide)

end Aitp
