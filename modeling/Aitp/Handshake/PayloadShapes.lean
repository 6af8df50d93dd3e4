import Aitp.Handshake.Payloads
import Aitp.Handshake.SignedEnvelopes

/-! # Payloads that say the same

The payload of a received envelope is the signed one up to the order of members. What is
read of it is then what was written, and it is read as a payload of the same shape only:
a HELLO as no answer to one, and an answer as no COMMIT.
-/

namespace Aitp

open Json

variable {v w : Json} {fs : List FieldSpec} {ws vs : List (Option Json)} {k s : String}

/-! ## Members -/

theorem get_of_canon_eq (hn : (fs.map FieldSpec.name).Nodup)
    (h : canon v = canon (.obj (Serde.written fs ws))) (hv : v.get k = some (.str s)) :
    (Json.obj (Serde.written fs ws)).get k = some (.str s) := by
  obtain ⟨ms, rfl⟩ := isObject_of_canon_eq h
  have hl := lookup_of_canon_eq (Serde.nodup_keys_written hn ws) h.symm k
  have hk : ms.lookup k = some (.str s) := hv
  rw [hk, Option.map_some] at hl
  obtain ⟨x, hx, hc⟩ := Option.map_eq_some_iff.mp hl
  exact hx.trans (congrArg some (canon_eq_str.mp hc))

theorem get_of_structFields (h : Serde.structFields fs v = some vs) (ho : v.isObject = true) {i : ℕ}
    {f : FieldSpec} (hi : fs[i]? = some f) : v.get f.name = vs[i]?.getD none := by
  obtain ⟨ms, rfl⟩ := isObject_iff.mp ho
  obtain ⟨-, -, rfl⟩ := Serde.structFields_obj h
  simp only [List.getElem?_map, hi, Option.map_some, Option.getD_some]
  rfl

theorem get_ne_of_canon_eq (hn : (fs.map FieldSpec.name).Nodup)
    (h : canon v = canon (.obj (Serde.written fs ws))) (hk : ∀ f ∈ fs, f.name ≠ k) :
    v.get k ≠ some (.str s) := by
  intro hv
  have hw := get_of_canon_eq hn h hv
  rw [Json.get, Json.members,
    Serde.lookup_eq_none_of_closed (Serde.written_closed fs ws) hk] at hw
  cases hw

theorem isObject_of_canon_written (h : canon v = canon (.obj (Serde.written fs ws))) :
    v.isObject = true :=
  isObject_iff.mpr (isObject_of_canon_eq h)

/-! ## What is read of a payload -/

theorem commit_get {m : MutualCommitPayload} (h : decodeMutualCommitPayload v = some m)
    (ho : v.isObject = true) :
    v.get "tct" = some (.str m.tct) ∧ v.get "pop_nonce_echo" = some (.str m.popNonceEcho) := by
  unfold decodeMutualCommitPayload at h
  split at h
  next tct voucher signature echo extensions hs =>
    have ht : v.get "tct" = some tct := get_of_structFields hs ho (i := 0) rfl
    have he : v.get "pop_nonce_echo" = some echo := get_of_structFields hs ho (i := 3) rfl
    simp only [Option.bind_eq_bind, Option.bind_eq_some_iff, Option.pure_def,
      Option.some.injEq] at h
    obtain ⟨t, hts, _, -, _, -, e, hes, _, -, rfl⟩ := h
    rw [ht, he, asStr_eq_some.mp hts, asStr_eq_some.mp hes]
    exact ⟨rfl, rfl⟩
  next => cases h

theorem helloAck_get {m : MutualHelloAckPayload} (h : decodeMutualHelloAckPayload v = some m)
    (ho : v.isObject = true) :
    v.get "pop_nonce" = some (.str m.popNonce) ∧
      v.get "pop_nonce_echo" = some (.str m.popNonceEcho) := by
  unfold decodeMutualHelloAckPayload at h
  split at h
  next identity manifest requested nonce echo extensions hs =>
    have hn : v.get "pop_nonce" = some nonce := get_of_structFields hs ho (i := 3) rfl
    have he : v.get "pop_nonce_echo" = some echo := get_of_structFields hs ho (i := 4) rfl
    simp only [Option.bind_eq_bind, Option.bind_eq_some_iff, Option.pure_def,
      Option.some.injEq] at h
    obtain ⟨_, -, _, -, _, -, n, hns, e, hes, _, -, rfl⟩ := h
    rw [hn, he, asStr_eq_some.mp hns, asStr_eq_some.mp hes]
    exact ⟨rfl, rfl⟩
  next => cases h

/-! ## What is read of the payloads that a handshake signs -/

theorem not_read_of_hello {hello : MutualHelloPayload} (h : canon v = canon hello.toValue) :
    decodeMutualHelloAckPayload v = none ∧ decodeMutualCommitPayload v = none := by
  have ho := isObject_of_canon_written h
  constructor
  · refine Option.eq_none_iff_forall_ne_some.mpr ?_
    intro m hm
    exact get_ne_of_canon_eq (by decide) h (by decide) (helloAck_get hm ho).2
  · refine Option.eq_none_iff_forall_ne_some.mpr ?_
    intro m hm
    exact get_ne_of_canon_eq (by decide) h (by decide) (commit_get hm ho).2

theorem read_of_helloAck {ack : MutualHelloAckPayload} (h : canon v = canon ack.toValue) :
    decodeMutualCommitPayload v = none ∧ ∀ m, decodeMutualHelloAckPayload v = some m →
      m.popNonce = ack.popNonce ∧ m.popNonceEcho = ack.popNonceEcho := by
  have ho := isObject_of_canon_written h
  have hn : ack.toValue.get "pop_nonce" = some (.str ack.popNonce) :=
    Serde.get_obj_written (by decide) rfl (f := ⟨"pop_nonce", .required⟩) (i := 3) rfl
  have he : ack.toValue.get "pop_nonce_echo" = some (.str ack.popNonceEcho) :=
    Serde.get_obj_written (by decide) rfl (f := ⟨"pop_nonce_echo", .required⟩) (i := 4) rfl
  constructor
  · refine Option.eq_none_iff_forall_ne_some.mpr ?_
    intro m hm
    exact get_ne_of_canon_eq (by decide) h (by decide) (commit_get hm ho).1
  · intro m hm
    obtain ⟨hmn, hme⟩ := helloAck_get hm ho
    have hn' := hn.symm.trans (get_of_canon_eq (by decide) h hmn)
    have he' := he.symm.trans (get_of_canon_eq (by decide) h hme)
    exact ⟨(Json.str.inj (Option.some.inj hn')).symm, (Json.str.inj (Option.some.inj he')).symm⟩

theorem read_of_commit {commit : MutualCommitPayload} (h : canon v = canon commit.toValue) :
    decodeMutualHelloAckPayload v = none ∧ ∀ m, decodeMutualCommitPayload v = some m →
      m.tct = commit.tct ∧ m.popNonceEcho = commit.popNonceEcho := by
  have ho := isObject_of_canon_written h
  have ht : commit.toValue.get "tct" = some (.str commit.tct) :=
    Serde.get_obj_written (by decide) rfl (f := ⟨"tct", .required⟩) (i := 0) rfl
  have he : commit.toValue.get "pop_nonce_echo" = some (.str commit.popNonceEcho) :=
    Serde.get_obj_written (by decide) rfl (f := ⟨"pop_nonce_echo", .required⟩) (i := 3) rfl
  constructor
  · refine Option.eq_none_iff_forall_ne_some.mpr ?_
    intro m hm
    exact get_ne_of_canon_eq (by decide) h (by decide) (helloAck_get hm ho).1
  · intro m hm
    obtain ⟨hmt, hme⟩ := commit_get hm ho
    have ht' := ht.symm.trans (get_of_canon_eq (by decide) h hmt)
    have he' := he.symm.trans (get_of_canon_eq (by decide) h hme)
    exact ⟨(Json.str.inj (Option.some.inj ht')).symm, (Json.str.inj (Option.some.inj he')).symm⟩

/-! ## Envelopes over the same bytes -/

theorem AitpEnvelope.signed_get (e : AitpEnvelope) :
    (e.toValue.remove "signature").get "message_type" = some (.str e.messageType.asWireStr) ∧
      (e.toValue.remove "signature").get "sender" =
        some (.obj [("agent_id", .str e.sender.value)]) ∧
      (e.toValue.remove "signature").get "payload" = some e.payload := by
  have hkeys : (signedFields.map FieldSpec.name).Nodup := by decide
  rw [remove_toValue]
  refine ⟨?_, ?_, ?_⟩
  · exact Serde.get_obj_written hkeys rfl (f := ⟨"message_type", .required⟩) (i := 1) rfl
  · exact Serde.get_obj_written hkeys rfl (f := ⟨"sender", .required⟩) (i := 4) rfl
  · exact Serde.get_obj_written hkeys rfl (f := ⟨"payload", .required⟩) (i := 5) rfl

theorem AitpEnvelope.of_target_eq {e e' : AitpEnvelope} (h : e.target = e'.target) :
    e.messageType = e'.messageType ∧ e.sender = e'.sender ∧ canon e.payload = canon e'.payload := by
  have hb := Target.digest.inj h
  rw [envelopeSigningInput, envelopeSigningInput, signingInputOf, signingInputOf,
    List.append_cancel_left_eq, List.cons_inj_right, jcs_eq_iff] at hb
  have hg : ∀ k, ((e.toValue.remove "signature").get k).map canon =
      ((e'.toValue.remove "signature").get k).map canon := by
    rw [remove_toValue, remove_toValue] at hb ⊢
    exact lookup_of_canon_eq (Serde.nodup_keys_written (by decide) _) hb
  obtain ⟨ht, hs, hp⟩ := e.signed_get
  obtain ⟨ht', hs', hp'⟩ := e'.signed_get
  have htype := hg "message_type"
  have hsender := hg "sender"
  have hpayload := hg "payload"
  rw [ht, ht'] at htype
  rw [hs, hs'] at hsender
  rw [hp, hp'] at hpayload
  refine ⟨?_, ?_, Option.some.inj hpayload⟩
  · exact MessageType.asWireStr_injective (Json.str.inj (Option.some.inj htype))
  · have hk : ([("agent_id", Json.str e.sender.value)].map Prod.fst).Nodup :=
      List.nodup_singleton _
    have hobj := lookup_of_canon_eq hk (Option.some.inj hsender) "agent_id"
    rw [List.lookup_cons_self, List.lookup_cons_self] at hobj
    exact Aid.ext (Json.str.inj (Option.some.inj hobj))

end Aitp
