import Aitp.Core.EnvelopeWire
import Aitp.Tct.Revocation

/-! # Received and re-serialised revocation lists

The signature of a revocation list is checked over a re-serialisation of its
typed form. It agrees with the received member unless the list or one of its
entries arrived as an array, or an optional member arrived as `null`.
-/

namespace Aitp

open Json

/-- An entry that is written back as it was received. -/
def PlainEntry (v : Json) : Prop :=
  v.isObject = true ∧ v.get "reason" ≠ some .null

/-- A list that is written back as it was received. -/
def PlainList (v : Json) : Prop :=
  v.isObject = true ∧ v.get "extensions" ≠ some .null ∧
    ∃ entries, v.get "entries" = some (.arr entries) ∧ ∀ e ∈ entries, PlainEntry e

theorem canon_str_of_asStr {v : Json} {s : String} (h : v.asStr = some s) :
    canon (.str s) = canon v := by
  rw [asStr_eq_some.mp h]

theorem entry_written_iff (v : Json) (e : RevocationEntry)
    (h : decodeRevocationEntry v = some e) : canon e.toValue = canon v ↔ PlainEntry v := by
  unfold decodeRevocationEntry at h
  split at h
  case h_2 => simp at h
  next jti revokedAt reason hs =>
  simp only [Option.bind_eq_bind, Option.bind_eq_some_iff, Option.pure_def,
    Option.some.injEq] at h
  obtain ⟨u, hu, z, hz, r, hr, rfl⟩ := h
  cases v with
  | obj ms =>
    obtain ⟨hd, hc, he⟩ := Serde.structFields_obj hs
    simp only [revocationEntryFields, List.map_cons, List.map_nil, List.cons.injEq,
      and_true] at he
    obtain ⟨h₁, h₂, h₃⟩ := he
    have hrs : ∀ v s, reason = some v → v.asStr = some s → canon (.str s) = canon v :=
      fun v s _ => canon_str_of_asStr
    have hor := Serde.optional_written_iff hr hrs
    rw [RevocationEntry.toValue, Serde.canon_written_iff (by decide) rfl hd hc]
    simp only [revocationEntryFields, List.map_cons, List.map_nil, ← h₁, ← h₂, ← h₃, hor,
      (decodeV4_eq_some hu).1, Serde.i64_eq_some hz, Option.map_some, List.cons.injEq, and_true,
      true_and, PlainEntry, isObject, Json.get, members]
  | _ => exact iff_of_false (canon_ne_of_isObject rfl rfl) (by simp [PlainEntry, isObject])

theorem list_written_iff {v : Json} {l : RevocationList} (hv : v.distinctKeys = true)
    (h : decodeRevocationList v = some l) : canon l.toValue = canon v ↔ PlainList v := by
  unfold decodeRevocationList at h
  split at h
  case h_2 => simp at h
  next version issuer publishedAt expiresAt entries extensions hs =>
  simp only [Option.bind_eq_bind, Option.bind_eq_some_iff, Option.pure_def,
    Option.some.injEq] at h
  obtain ⟨s, hs', a, ha, p, hp, z, hz, es, hes, x, hx, rfl⟩ := h
  cases v with
  | obj ms =>
    obtain ⟨hd, hc, he⟩ := Serde.structFields_obj hs
    simp only [revocationListFields, List.map_cons, List.map_nil, List.cons.injEq,
      and_true] at he
    obtain ⟨h₁, h₂, h₃, h₄, h₅, h₆⟩ := he
    obtain ⟨vs, rfl⟩ : ∃ vs, entries = .arr vs := by
      cases entries <;> simp_all [Serde.vec]
    have hve := Serde.vec_written_iff entry_written_iff hes
    have hxs : ∀ v m, extensions = some v → Serde.map v = some m → canon (.obj m) = canon v := by
      intro v m hl hm
      rw [h₆] at hl
      have hdv := (CheckedJson.mk _ hv).distinct_member rfl hl
      rw [Serde.obj_of_map hm hdv]
    have hox := Serde.optional_written_iff hx hxs
    rw [RevocationList.toValue, Serde.canon_written_iff (by decide) rfl hd hc]
    simp only [revocationListFields, List.map_cons, List.map_nil, ← h₁, ← h₂, ← h₃, ← h₄, ← h₅,
      ← h₆, hox, hve, asStr_eq_some.mp hs', decodeAid_eq_some ha, Serde.i64_eq_some hp,
      Serde.i64_eq_some hz, Option.map_some, List.cons.injEq, Option.some.injEq,
      true_and, PlainList, isObject, Json.get, members, arr.injEq, exists_eq_left', and_comm]
  | _ => exact iff_of_false (canon_ne_of_isObject rfl rfl) (by simp [PlainList, isObject])

theorem checkV4_of_decode {v : Json} {e : RevocationEntry} (h : decodeRevocationEntry v = some e) :
    e.jti.checkV4 = .ok () := by
  unfold decodeRevocationEntry at h
  split at h
  case h_2 => simp at h
  next =>
  simp only [Option.bind_eq_bind, Option.bind_eq_some_iff, Option.pure_def,
    Option.some.injEq] at h
  obtain ⟨u, hu, -, -, -, -, rfl⟩ := h
  exact (decodeV4_eq_some hu).2

theorem revocationSigningBytes_of_decode {v : Json} {l : RevocationList}
    (h : decodeRevocationList v = some l) : revocationSigningBytes l = .ok l.toValue.jcs := by
  have hv : ∀ e ∈ l.entries, e.jti.checkV4 = .ok () := by
    unfold decodeRevocationList at h
    split at h
    case h_2 => simp at h
    next entries _ _ =>
    simp only [Option.bind_eq_bind, Option.bind_eq_some_iff, Option.pure_def,
      Option.some.injEq] at h
    obtain ⟨-, -, -, -, -, -, -, -, es, hes, -, -, rfl⟩ := h
    obtain ⟨vs, rfl⟩ : ∃ vs, entries = .arr vs := by
      cases entries <;> simp_all [Serde.vec]
    intro e he
    obtain ⟨v, -, hd⟩ := Serde.exists_of_mem_mapM hes he
    exact checkV4_of_decode hd
  simp only [revocationSigningBytes, bind_eq_ok, forEach_eq_ok, mapErr_eq_ok, pure_eq_ok]
  exact ⟨(), hv, trivial⟩

theorem decodeRevocationList_of_parse {value : CheckedJson} {env : RevocationListEnvelope}
    (h : parseRevocationSnapshotWire value = .ok env) {body : Json}
    (hb : value.value.get "revocation_list" = some body) :
    body.distinctKeys = true ∧ decodeRevocationList body = some env.revocationList := by
  simp only [parseRevocationSnapshotWire, bind_eq_ok, okOr_eq_ok] at h
  obtain ⟨_, -, _, -, _, -, h⟩ := h
  unfold decodeRevocationListEnvelope at h
  split at h
  case h_2 => simp at h
  next received signature hs =>
  simp only [Option.bind_eq_bind, Option.bind_eq_some_iff, Option.pure_def,
    Option.some.injEq] at h
  obtain ⟨l, hl, -, -, rfl⟩ := h
  cases hv : value.value with
  | obj ms =>
    rw [hv] at hs hb
    obtain ⟨hd, hc, he⟩ := Serde.structFields_obj hs
    simp only [revocationEnvelopeFields, List.map_cons, List.map_nil, List.cons.injEq,
      and_true] at he
    have hbr : body = received := Option.some.inj (hb.symm.trans he.1.symm)
    rw [hbr]
    exact ⟨value.distinct_member hv he.1.symm, hl⟩
  | _ => simp [hv, Json.get, members] at hb

/-- The bytes verified are those of the received list exactly when it is plain. -/
theorem revocationSigningBytes_received_iff {value : CheckedJson} {env : RevocationListEnvelope}
    (h : parseRevocationSnapshotWire value = .ok env) :
    (∃ body, value.value.get "revocation_list" = some body ∧
        revocationSigningBytes env.revocationList = .ok body.jcs) ↔
      ∃ body, value.value.get "revocation_list" = some body ∧ PlainList body := by
  refine exists_congr fun body => and_congr_right fun hb => ?_
  obtain ⟨hd, hl⟩ := decodeRevocationList_of_parse h hb
  rw [revocationSigningBytes_of_decode hl, Except.ok.injEq, jcs_eq_iff, list_written_iff hd hl]

/-- A snapshot with one entry and further members in its list. -/
def wireSnapshot (more : List (String × Json)) : Json :=
  .obj [("revocation_list", .obj ([("version", .str protocolVersion), ("issuer", .str zeroAid),
      ("published_at", .int 100), ("expires_at", .int 200),
      ("entries", .arr [.obj [("jti", .str "550e8400-e29b-41d4-a716-446655440000"),
        ("revoked_at", .int 90)]])] ++ more)),
    ("signature", .str (String.ofList (List.replicate 86 'A')))]

/-- A snapshot without `extensions`. -/
def plainSnapshot : CheckedJson :=
  ⟨wireSnapshot [], by decide⟩

/-- A snapshot with `extensions` set to `null`. -/
def nullExtensionsSnapshot : CheckedJson :=
  ⟨wireSnapshot [("extensions", .null)], by decide⟩

theorem revocationSigningBytes_received_iff_plain :
    ∃ env, parseRevocationSnapshotWire plainSnapshot = .ok env ∧
      ∃ body, plainSnapshot.value.get "revocation_list" = some body ∧
        revocationSigningBytes env.revocationList = .ok body.jcs := by
  obtain ⟨env, he⟩ :=
    exists_ok_of_isOk (r := parseRevocationSnapshotWire plainSnapshot) (by decide +kernel)
  refine ⟨env, he, (revocationSigningBytes_received_iff he).mpr ⟨_, rfl, rfl, ?_, _, rfl, ?_⟩⟩
  · decide
  · intro e hm
    obtain rfl := List.mem_singleton.mp hm
    exact ⟨rfl, by decide⟩

/-- An accepted snapshot whose verified bytes are not those received. -/
theorem revocationSigningBytes_nullExtensions :
    ∃ env, parseRevocationSnapshotWire nullExtensionsSnapshot = .ok env ∧
      ¬ ∃ body, nullExtensionsSnapshot.value.get "revocation_list" = some body ∧
        revocationSigningBytes env.revocationList = .ok body.jcs := by
  obtain ⟨env, he⟩ := exists_ok_of_isOk (r := parseRevocationSnapshotWire nullExtensionsSnapshot)
    (by decide +kernel)
  refine ⟨env, he, ?_⟩
  rintro ⟨body, hb, hs⟩
  obtain ⟨hd, hl⟩ := decodeRevocationList_of_parse he hb
  rw [revocationSigningBytes_of_decode hl, Except.ok.injEq, jcs_eq_iff,
    list_written_iff hd hl] at hs
  obtain rfl := Option.some.inj hb
  exact absurd rfl hs.2.1

end Aitp
