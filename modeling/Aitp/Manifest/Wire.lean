import Aitp.Core.EnvelopeWire
import Aitp.Manifest.Types

/-! # Received and re-serialised manifests

`parse_manifest_wire`. The outer signature of a manifest is checked over a
re-serialisation of its typed form. It agrees with the received body unless the
body or one of its two nested structs arrived as an array, or the identity type
as an object.
-/

namespace Aitp

open Json

/-- The manifest of a wire value, without its transport wrapper. -/
def manifestBody (value : Json) : Except ManifestError Json :=
  match value.get "manifest" with
  | some body => do
    ensureMembers value ["manifest"] .unknownField
    return body
  | none => .ok value

def parseManifestWire (value : CheckedJson) : Except ManifestError Manifest := do
  let body ← manifestBody value.value
  ensure (!((body.get "version").bind asStr).any (· != protocolVersion)) .versionUnknown
  ensureMembers body manifestMembers .unknownField
  okOr (decodeManifest body) .undecodable

/-- A hint that is written back as it was received. -/
def PlainHint (v : Json) : Prop :=
  v.isObject = true ∧ ∃ t, v.get "type" = some t ∧ t.isString = true

/-- A manifest that is written back as it was received. -/
def PlainManifest (v : Json) : Prop :=
  v.isObject = true ∧ (∃ h, v.get "identity_hint" = some h ∧ PlainHint h) ∧
    ∃ p, v.get "proof_of_possession" = some p ∧ p.isObject = true

theorem IdentityKind.variantName_of_decode {v : Json} {k : IdentityKind}
    (h : IdentityKind.decode v = some k) : Serde.variantName v = some k.asStr := by
  obtain ⟨s, hs, hk⟩ := Option.bind_eq_some_iff.mp h
  have he : k.asStr = s := by simpa using List.find?_some hk
  rw [hs, he]

theorem canon_str_variant_iff {v : Json} {s : String} (h : Serde.variantName v = some s) :
    canon (.str s) = canon v ↔ v.isString = true := by
  constructor
  · intro hc
    exact isString_iff.mpr ⟨s, canon_eq_str.mp hc.symm⟩
  · intro hv
    obtain ⟨s', rfl⟩ := isString_iff.mp hv
    obtain rfl : s' = s := by simpa [Serde.variantName] using h
    rfl

theorem hint_written_iff {v : Json} {h : IdentityHint} (hv : decodeIdentityHint v = some h) :
    canon h.toValue = canon v ↔ PlainHint v := by
  unfold decodeIdentityHint at hv
  split at hv
  case h_2 => simp at hv
  next kind subject issuer publicKey hs =>
  simp only [Option.bind_eq_bind, Option.bind_eq_some_iff, Option.pure_def,
    Option.some.injEq] at hv
  obtain ⟨k, hk, s, hsub, i, hi, p, hp, rfl⟩ := hv
  cases v with
  | obj ms =>
    obtain ⟨hd, hc, he⟩ := Serde.structFields_obj hs
    simp only [identityHintFields, List.map_cons, List.map_nil, List.cons.injEq, and_true] at he
    obtain ⟨h₁, h₂, h₃, h₄⟩ := he
    have hkc := canon_str_variant_iff (IdentityKind.variantName_of_decode hk)
    have his := Serde.present_written hi fun v a _ hva => by rw [asStr_eq_some.mp hva]
    have hps := Serde.present_written hp fun v a _ hva => by rw [asStr_eq_some.mp hva]
    rw [IdentityHint.toValue, Serde.canon_written_iff (by decide) rfl hd hc]
    simp only [identityHintFields, List.map_cons, List.map_nil, ← h₁, ← h₂, ← h₃, ← h₄, his, hps,
      hkc, asStr_eq_some.mp hsub, Option.map_some, List.cons.injEq, Option.some.injEq, and_true,
      PlainHint, isObject, Json.get, members, exists_eq_left', true_and]
  | _ => exact iff_of_false (canon_ne_of_isObject rfl rfl) (by simp [PlainHint, isObject])

theorem pop_written_iff {v : Json} {p : ManifestPop} (hv : decodeManifestPop v = some p) :
    canon p.toValue = canon v ↔ v.isObject = true := by
  unfold decodeManifestPop at hv
  split at hv
  case h_2 => simp at hv
  next challenge signature hs =>
  obtain rfl := Option.some.inj hv
  cases v with
  | obj ms =>
    obtain ⟨hd, hc, he⟩ := Serde.structFields_obj hs
    simp only [manifestPopFields, List.map_cons, List.map_nil, List.cons.injEq, and_true] at he
    obtain ⟨h₁, h₂⟩ := he
    rw [ManifestPop.toValue, Serde.canon_written_iff (by decide) rfl hd hc]
    simp [manifestPopFields, ← h₁, ← h₂, isObject]
  | _ => exact iff_of_false (canon_ne_of_isObject rfl rfl) (by simp [isObject])

/-- Without their signatures, the received body and the re-serialised manifest are the same value
exactly when the body is plain. -/
theorem manifest_written_iff {v : Json} {m : Manifest} (hv : v.distinctKeys = true)
    (h : decodeManifest v = some m) :
    canon (m.toValue.remove "signature") = canon (v.remove "signature") ↔ PlainManifest v := by
  unfold decodeManifest at h
  split at h
  case h_2 => simp at h
  next version aid displayName hint endpoint anchors types algorithms offered required pop
    published expires extensions signature hs =>
  obtain ⟨version', hversion, h⟩ := Option.bind_eq_some_iff.mp h
  obtain ⟨aid', haid, h⟩ := Option.bind_eq_some_iff.mp h
  obtain ⟨displayName', hdisplayName, h⟩ := Option.bind_eq_some_iff.mp h
  obtain ⟨hint', hhint, h⟩ := Option.bind_eq_some_iff.mp h
  obtain ⟨endpoint', hendpoint, h⟩ := Option.bind_eq_some_iff.mp h
  obtain ⟨anchors', hanchors, h⟩ := Option.bind_eq_some_iff.mp h
  obtain ⟨types', htypes, h⟩ := Option.bind_eq_some_iff.mp h
  obtain ⟨algorithms', halgorithms, h⟩ := Option.bind_eq_some_iff.mp h
  obtain ⟨offered', hoffered, h⟩ := Option.bind_eq_some_iff.mp h
  obtain ⟨required', hrequired, h⟩ := Option.bind_eq_some_iff.mp h
  obtain ⟨pop', hpop, h⟩ := Option.bind_eq_some_iff.mp h
  obtain ⟨published', hpublished, h⟩ := Option.bind_eq_some_iff.mp h
  obtain ⟨expires', hexpires, h⟩ := Option.bind_eq_some_iff.mp h
  obtain ⟨extensions', hextensions, h⟩ := Option.bind_eq_some_iff.mp h
  obtain ⟨signature', hsignature, h⟩ := Option.bind_eq_some_iff.mp h
  obtain rfl := Option.some.inj h
  cases v with
  | obj ms =>
    obtain ⟨hd, hc, he⟩ := Serde.structFields_obj hs
    simp only [manifestFields, List.map_cons, List.map_nil, List.cons.injEq, and_true] at he
    obtain ⟨h₁, h₂, h₃, h₄, h₅, h₆, h₇, h₈, h₉, h₁₀, h₁₁, h₁₂, h₁₃, h₁₄, h₁₅⟩ := he
    have hstr : ∀ v s, v.asStr = some s → canon (.str s) = canon v :=
      fun v s hvs => by rw [asStr_eq_some.mp hvs]
    have hstrs : ∀ v ss, decodeStrings v = some ss → canon (stringsValue ss) = canon v :=
      fun v ss hvs => by rw [stringsValue_of_decode hvs]
    have w₃ := Serde.present_written hdisplayName fun v a _ => hstr v a
    have w₇ := Serde.present_written htypes fun v a _ => hstrs v a
    have w₈ := Serde.present_written halgorithms fun v a _ => hstrs v a
    have w₁₀ := Serde.present_written hrequired fun v a _ => hstrs v a
    have w₁₄ : (extensions'.map obj).map canon = extensions.map canon := by
      refine Serde.present_written hextensions fun v a hx hva => ?_
      rw [h₁₄] at hx
      rw [Serde.obj_of_map hva ((CheckedJson.mk _ hv).distinct_member rfl hx)]
    rw [Manifest.toValue, Serde.remove_written, remove,
      Serde.canon_written_iff (by decide) rfl (nodup_keys_filter hd _)
        fun m hm => hc m (List.mem_of_mem_filter hm)]
    simp only [manifestFields, List.zipWith_cons_cons, List.zipWith_nil_left, List.map_cons,
      List.map_nil, lookup_filter_ne, String.reduceEq, if_true, if_false, ← h₁, ← h₂, ← h₃, ← h₄,
      ← h₅, ← h₆, ← h₇, ← h₈, ← h₉, ← h₁₀, ← h₁₁, ← h₁₂, ← h₁₃, ← h₁₄, w₃, w₇, w₈, w₁₀, w₁₄,
      asStr_eq_some.mp hversion, decodeAid_eq_some haid, hint_written_iff hhint,
      asStr_eq_some.mp hendpoint, stringsValue_of_decode hanchors,
      stringsValue_of_decode hoffered, pop_written_iff hpop, Serde.i64_eq_some hpublished,
      Serde.i64_eq_some hexpires, Option.map_some, Option.map_none, List.cons.injEq,
      Option.some.injEq, and_true, true_and, PlainManifest, isObject, Json.get, members,
      exists_eq_left']
  | _ => exact iff_of_false (canon_ne_of_isObject rfl rfl) (by simp [PlainManifest, isObject])

theorem decodeManifest_of_parse {value : CheckedJson} {m : Manifest}
    (h : parseManifestWire value = .ok m) : ∃ body, manifestBody value.value = .ok body ∧
      body.distinctKeys = true ∧ decodeManifest body = some m := by
  simp only [parseManifestWire, bind_eq_ok, okOr_eq_ok] at h
  obtain ⟨body, hb, _, -, _, -, hm⟩ := h
  refine ⟨body, hb, ?_, hm⟩
  unfold manifestBody at hb
  split at hb
  next inner hi =>
    simp only [bind_eq_ok, pure_eq_ok] at hb
    obtain ⟨_, -, rfl⟩ := hb
    exact distinctKeys_of_get value.distinct hi
  next =>
    obtain rfl := Except.ok.inj hb
    exact value.distinct

/-- The bytes verified are those of the received body, without its signature, exactly when the body
is plain. -/
theorem manifestSigningBytes_received_iff {value : CheckedJson} {m : Manifest}
    (h : parseManifestWire value = .ok m) :
    (∃ body, manifestBody value.value = .ok body ∧
        manifestSigningBytes m = (body.remove "signature").jcs) ↔
      ∃ body, manifestBody value.value = .ok body ∧ PlainManifest body := by
  obtain ⟨body, hb, hd, hm⟩ := decodeManifest_of_parse h
  have he : ∀ body', manifestBody value.value = .ok body' ↔ body' = body := by
    intro body'
    rw [hb, Except.ok.injEq, eq_comm]
  simp only [he, exists_eq_left, manifestSigningBytes, jcs_eq_iff, manifest_written_iff hd hm]

/-- A manifest body with a chosen spelling of its hint's type and of its proof of possession. -/
def wireManifest (kind pop : Json) : Json :=
  .obj [("version", .str protocolVersion), ("aid", .str zeroAid),
    ("identity_hint", .obj [("type", kind), ("subject", .str "agent")]),
    ("handshake_endpoint", .str "https://agent.example/aitp"), ("accepted_trust_anchors", .arr []),
    ("offered_capabilities", .arr []), ("proof_of_possession", pop), ("published_at", .int 100),
    ("expires_at", .int 200), ("signature", .str "AA")]

/-- The usual spelling, in its transport wrapper. -/
def plainManifest : CheckedJson :=
  ⟨.obj [("manifest", wireManifest (.str "spiffe")
    (.obj [("challenge", .str "AA"), ("signature", .str "AA")]))], by decide⟩

/-- The proof of possession as an array of its two fields. -/
def arrayPopManifest : CheckedJson :=
  ⟨wireManifest (.str "spiffe") (.arr [.str "AA", .str "AA"]), by decide⟩

theorem manifestSigningBytes_received_iff_plain :
    ∃ m, parseManifestWire plainManifest = .ok m ∧
      ∃ body, manifestBody plainManifest.value = .ok body ∧
        manifestSigningBytes m = (body.remove "signature").jcs := by
  obtain ⟨m, hm⟩ := exists_ok_of_isOk (r := parseManifestWire plainManifest) (by decide +kernel)
  exact ⟨m, hm, (manifestSigningBytes_received_iff hm).mpr
    ⟨_, rfl, rfl, ⟨_, rfl, rfl, _, rfl, rfl⟩, _, rfl, rfl⟩⟩

/-- An accepted manifest whose verified bytes are not those received. -/
theorem manifestSigningBytes_arrayPop :
    ∃ m, parseManifestWire arrayPopManifest = .ok m ∧
      ¬ ∃ body, manifestBody arrayPopManifest.value = .ok body ∧
        manifestSigningBytes m = (body.remove "signature").jcs := by
  obtain ⟨m, hm⟩ := exists_ok_of_isOk (r := parseManifestWire arrayPopManifest)
    (by decide +kernel)
  refine ⟨m, hm, ?_⟩
  rintro ⟨body, hb, hs⟩
  obtain ⟨body', hb', hd, hdec⟩ := decodeManifest_of_parse hm
  obtain rfl := Except.ok.inj (hb.symm.trans hb')
  rw [manifestSigningBytes, jcs_eq_iff, manifest_written_iff hd hdec] at hs
  obtain rfl : arrayPopManifest.value = body := Except.ok.inj hb
  obtain ⟨-, -, p, hp, ho⟩ := hs
  obtain rfl := Option.some.inj hp
  exact absurd ho (by decide)

end Aitp
