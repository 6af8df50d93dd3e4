import Aitp.Core.EnvelopeSign
import Aitp.Crypto.CompactForm
import Aitp.Manifest.Builder
import Aitp.Manifest.Wire

/-! # Manifests on the wire

A manifest that was built, written, bare or in its transport wrapper, and read
again is the same manifest, and verifies until it expires.
-/

namespace Aitp

/-! ## Writing and reading -/

/-- A manifest of Rust's types: its times are `i64`s, and its extensions a map. -/
structure Manifest.Typed (m : Manifest) : Prop where
  publishedAt : m.publishedAt.Fits
  expiresAt : m.expiresAt.Fits
  extensions : ∀ ms, m.extensions = some ms → (Json.obj ms).distinctKeys = true

/-- A manifest that is read as it was written: its times are `i64`s, and its extensions a map of
`n` levels. -/
structure Manifest.Writable (P : Primitives) (n : ℕ) (m : Manifest) : Prop where
  publishedAt : m.publishedAt.Fits
  expiresAt : m.expiresAt.Fits
  extensions : Holdable P n m.extensions

theorem IdentityKind.decode_asStr (k : IdentityKind) : decode (.str k.asStr) = some k := by
  cases k <;> rfl

theorem decodeIdentityHint_toValue (h : IdentityHint) : decodeIdentityHint h.toValue = some h := by
  have hs : ∀ o : Option String, Serde.present Json.asStr (o.map .str) = some o :=
    Serde.present_map fun _ => rfl
  unfold decodeIdentityHint IdentityHint.toValue
  rw [Serde.structFields_obj_written (by decide) rfl (by simp [identityHintFields])]
  simp [IdentityKind.decode_asStr, Json.asStr, hs]

theorem decodeManifestPop_toValue (p : ManifestPop) : decodeManifestPop p.toValue = some p := by
  unfold decodeManifestPop ManifestPop.toValue
  rw [Serde.structFields_obj_written (by decide) rfl (by simp [manifestPopFields])]

theorem Manifest.Typed.decode_toValue {m : Manifest} (h : m.Typed) :
    decodeManifest m.toValue = some m := by
  have hs : ∀ o : Option String, Serde.present Json.asStr (o.map .str) = some o :=
    Serde.present_map fun _ => rfl
  have hss : ∀ o, Serde.present decodeStrings (o.map stringsValue) = some o :=
    Serde.present_map decodeStrings_stringsValue
  have hx : Serde.present Serde.map (m.extensions.map .obj) = some m.extensions := by
    cases hx : m.extensions with
    | none => rfl
    | some ms => simp [Serde.present, Serde.map_of_distinct (h.extensions ms hx)]
  unfold decodeManifest Manifest.toValue
  rw [Serde.structFields_obj_written (by decide) rfl (by simp [manifestFields])]
  simp [Json.asStr, hs, hss, hx, decodeIdentityHint_toValue, decodeManifestPop_toValue,
    i64_of_fits h.publishedAt, i64_of_fits h.expiresAt]

namespace Manifest.Writable

variable {P : Primitives} {n : ℕ} {m : Manifest}

theorem typed (h : m.Writable P n) : m.Typed :=
  ⟨h.publishedAt, h.expiresAt, fun ms hx => (h.extensions ms hx).2⟩

theorem readable_toValue (hP : P.ReadsText) (h : m.Writable P (n + 1)) :
    m.toValue.readable P.keeps (n + 2) = true := by
  have hh : m.identityHint.toValue.readable P.keeps (n + 1) = true :=
    Serde.readable_written (by simp)
  have hp : m.proofOfPossession.toValue.readable P.keeps (n + 1) = true :=
    Serde.readable_written (by simp)
  refine Serde.readable_written ?_
  simp only [List.all_cons, List.all_nil, Option.all_some, Json.readable_str,
    readable_stringsValue, Json.readable_map_str, readable_map_stringsValue, hh, hp,
    h.publishedAt.readable_int hP, h.expiresAt.readable_int hP, h.extensions.all_readable,
    Bool.and_true]

theorem distinctKeys_toValue (h : m.Writable P n) : m.toValue.distinctKeys = true := by
  have hh : m.identityHint.toValue.distinctKeys = true :=
    Serde.distinctKeys_written_of_all (by decide) (by simp)
  have hp : m.proofOfPossession.toValue.distinctKeys = true :=
    Serde.distinctKeys_written_of_all (by decide) (by simp)
  refine Serde.distinctKeys_written_of_all (by decide) ?_
  simp only [List.all_cons, List.all_nil, Option.all_some, Json.distinctKeys_str,
    Json.distinctKeys_int, distinctKeys_stringsValue, Json.all_distinctKeys_map_str,
    all_distinctKeys_map_stringsValue, hh, hp, h.extensions.all_distinctKeys, Bool.and_true]

end Manifest.Writable

variable {P : Primitives} {n : ℕ} {m : Manifest} {key : VerifyingKey} {signingKey : Signer}
  {b : ManifestBuilder} {publishedAt : Timestamp}

/-- `Serialize for ManifestEnvelope`. -/
def Manifest.wrapped (m : Manifest) : Json :=
  .obj [("manifest", m.toValue)]

theorem Manifest.Writable.readable_wrapped (hP : P.ReadsText) (h : m.Writable P (n + 1)) :
    m.wrapped.readable P.keeps (n + 3) = true :=
  Json.readable_obj (by simpa using h.readable_toValue hP)

theorem Manifest.Writable.distinctKeys_wrapped (h : m.Writable P n) :
    m.wrapped.distinctKeys = true := by
  simp [Manifest.wrapped, Json.distinctKeys, Json.distinctMembers, h.distinctKeys_toValue]

/-- What is sent for a manifest whose extensions nest `n` levels deep: the manifest itself, or in
its wrapper, where the parser can read it. -/
def Manifest.SentAs (m : Manifest) (n : ℕ) (wire : Json) : Prop :=
  wire = m.toValue ∧ n + 1 ≤ nestingLimit ∨ wire = m.wrapped ∧ n + 2 ≤ nestingLimit

theorem parseManifestWire_written (h : m.Writable P n) (hv : m.version = protocolVersion)
    {value : CheckedJson} (hw : value.value = m.toValue ∨ value.value = m.wrapped) :
    parseManifestWire value = .ok m := by
  have hb : manifestBody value.value = .ok m.toValue := by
    rcases hw with hw | hw
    · have hg : m.toValue.get "manifest" = none :=
        Serde.lookup_eq_none_of_closed (Serde.written_closed _ _) (by decide)
      rw [hw, manifestBody, hg]
    · rw [hw]
      rfl
  have hver : m.toValue.get "version" = some (.str m.version) :=
    Serde.get_obj_written (by decide) rfl (f := ⟨"version", .required⟩) (i := 0) rfl
  have hmem : checkMembers m.toValue manifestMembers = none := checkMembers_obj_written (by decide)
  simp only [parseManifestWire, bind_eq_ok, ensure_eq_ok, okOr_eq_ok]
  refine ⟨m.toValue, hb, (), ?_, (), ?_, h.typed.decode_toValue⟩
  · simp [hver, hv, Json.asStr]
  · simp [ensureMembers, hmem]

theorem parseManifestWire_sent (hP : P.ReadsText) (h : m.Writable P (n + 1))
    (hv : m.version = protocolVersion) {wire : Json} (hw : m.SentAs (n + 1) wire) :
    ∃ value, CheckedJson.fromSlice P (utf8 wire.text) = some value ∧
      parseManifestWire value = .ok m := by
  have hr : wire.readable P.keeps nestingLimit = true := by
    rcases hw with ⟨rfl, hn⟩ | ⟨rfl, hn⟩
    · exact Json.readable_mono (fun _ => id) _ hn (h.readable_toValue hP)
    · exact Json.readable_mono (fun _ => id) _ hn (h.readable_wrapped hP)
  have hd : wire.distinctKeys = true := by
    rcases hw with ⟨rfl, -⟩ | ⟨rfl, -⟩
    · exact h.distinctKeys_toValue
    · exact h.distinctKeys_wrapped
  exact ⟨⟨wire, hd⟩, CheckedJson.fromSlice_text hP hr hd,
    parseManifestWire_written h hv (hw.imp And.left And.left)⟩

/-! ## Builders -/

/-- The manifest has the values of a builder. -/
structure ManifestBuilder.Describes (b : ManifestBuilder) (t : Timestamp) (m : Manifest) :
    Prop where
  handshakeEndpoint : b.handshakeEndpoint = some m.handshakeEndpoint
  identityHint : b.identityHint = some m.identityHint
  displayName : m.displayName = b.displayName
  acceptedTrustAnchors : m.acceptedTrustAnchors = b.acceptedTrustAnchors
  acceptedIdentityTypes : m.acceptedIdentityTypes = b.acceptedIdentityTypes
  acceptedSignatureAlgorithms : m.acceptedSignatureAlgorithms = none
  offeredCapabilities : m.offeredCapabilities = b.offeredCapabilities
  requiredPeerCapabilities : m.requiredPeerCapabilities = b.requiredPeerCapabilities
  publishedAt : m.publishedAt = t
  expiresAt : m.expiresAt = t.saturatingAdd b.ttl
  extensions : m.extensions = if b.extensions.isEmpty then none else some b.extensions

/-- The values of a builder that Rust's types can hold, with extensions of `n` levels that are read
as they were written. -/
structure ManifestBuilder.Writable (P : Primitives) (n : ℕ) (b : ManifestBuilder) (t : Timestamp) :
    Prop where
  publishedAt : t.Fits
  extensions : Holdable P n (some b.extensions)

theorem isSignature_of_signJcs {preimage : Bytes} {sig : String} (hk : signingKey.Lawful P key)
    (h : signingKey.signJcs preimage = .ok sig) : isSignature sig = true := by
  obtain ⟨hparse, -⟩ := signJcs_verifies hk h
  simp only [Signature.parse, bind_eq_ok, ensure_eq_ok] at hparse
  obtain ⟨_, -, _, hv, -⟩ := hparse
  rw [isSignature, isBase64UrlText, untagged_eq_payload]
  exact hv

/-- The grammar constrains a manifest's values, and signatures only in their form. -/
theorem checkGrammar_signed {ctx : ManifestVerifyContext} {challenge : Nonce} {pop sig : String}
    {aid : Aid} {version : String} (h : checkGrammar P m ctx = .ok ())
    (hp : isSignature pop = true) (hs : isSignature sig = true) :
    checkGrammar P { m with
      version := version
      aid := aid
      proofOfPossession := ⟨encodeBase64Url challenge.bytes, pop⟩
      signature := sig } ctx = .ok () := by
  have hl : (encodeBase64Url challenge.bytes).length = 22 := by
    rw [encodeBase64Url, String.length_ofList,
      Base64Url.length_of_decodeChars (Base64Url.decodeChars_encodeChars _), challenge.length_eq]
    rfl
  have hc : ((encodeBase64Url challenge.bytes).length == 22 &&
      isBase64UrlText (encodeBase64Url challenge.bytes)) = true := by
    rw [hl, isBase64UrlText, Signature.all_isBase64Url_encodeBase64Url]
    rfl
  simp only [checkGrammar, bind_eq_ok, ensure_eq_ok] at h ⊢
  obtain ⟨u₁, name, u₂, endpoint, u₃, anchors, u₄, offered, u₅, required, u₆, types, u₇, algorithms,
    u₈, -, u₉, -, u₁₀, published, u₁₁, expires, u₁₂, -, hint⟩ := h
  exact ⟨u₁, name, u₂, endpoint, u₃, anchors, u₄, offered, u₅, required, u₆, types, u₇, algorithms,
    u₈, hc, u₉, hp, u₁₀, published, u₁₁, expires, u₁₂, hs, hint⟩

/-- The values of a builder that meet the grammar are built into a manifest. -/
theorem ManifestBuilder.build_of_describes (hk : signingKey.Total P key)
    (hd : b.Describes publishedAt m) {ctx : ManifestVerifyContext}
    (hg : checkGrammar P m ctx = .ok ()) (challenge : Nonce) :
    ∃ m', b.build signingKey challenge publishedAt = .ok m' ∧ b.Describes publishedAt m' ∧
      m'.version = protocolVersion ∧ checkGrammar P m' ctx = .ok () := by
  have hhint : validateIdentityHint m.identityHint = .ok () := by
    simp only [checkGrammar, bind_eq_ok] at hg
    obtain ⟨-, -, -, -, -, -, -, -, -, -, -, -, -, -, -, -, -, -, -, -, -, -, -, -, -, -, -, -, -, -, u,
      hm, -⟩ := hg
    exact hm
  obtain ⟨pop, hp⟩ := hk.signJcs challenge.bytes
  let draft : Manifest := { m with
    version := protocolVersion
    aid := signingKey.aid
    proofOfPossession := ⟨encodeBase64Url challenge.bytes, pop⟩
    signature := "" }
  obtain ⟨sig, hs⟩ := hk.signJcs (manifestSigningBytes draft)
  have hdraft : b.draft signingKey challenge publishedAt = .ok { draft with
      proofOfPossession := ⟨encodeBase64Url challenge.bytes, ""⟩ } := by
    simp only [ManifestBuilder.draft, hd.handshakeEndpoint, hd.identityHint, okOr_some, ok_bind,
      hhint, ← hd.displayName, ← hd.acceptedTrustAnchors, ← hd.acceptedIdentityTypes,
      ← hd.offeredCapabilities, ← hd.requiredPeerCapabilities, ← hd.expiresAt, ← hd.extensions,
      pure, Except.pure, draft, hd.acceptedSignatureAlgorithms, hd.publishedAt]
  refine ⟨{ draft with signature := sig }, ?_, ?_, rfl, ?_⟩
  · simp only [ManifestBuilder.build, bind_eq_ok, mapErr_eq_ok, pure_eq_ok]
    exact ⟨_, hdraft, pop, hp, sig, hs, rfl⟩
  · exact ⟨hd.handshakeEndpoint, hd.identityHint, hd.displayName, hd.acceptedTrustAnchors,
      hd.acceptedIdentityTypes, hd.acceptedSignatureAlgorithms, hd.offeredCapabilities,
      hd.requiredPeerCapabilities, hd.publishedAt, hd.expiresAt, hd.extensions⟩
  · exact checkGrammar_signed (m := m) hg (isSignature_of_signJcs hk.lawful hp)
      (isSignature_of_signJcs hk.lawful hs)

theorem ManifestBuilder.Describes.writable (hb : b.Writable P n publishedAt)
    (hd : b.Describes publishedAt m) : m.Writable P n where
  publishedAt := hd.publishedAt ▸ hb.publishedAt
  expiresAt := hd.expiresAt ▸ saturate_fits _
  extensions ms hm := by
    rw [hd.extensions] at hm
    split_ifs at hm
    obtain rfl := Option.some.inj hm
    exact hb.extensions _ rfl

theorem Toy.writable_manifest {aid : Aid} {offered required : List String} :
    (manifest aid offered required 0).Writable P n :=
  ⟨show Timestamp.Fits 0 by decide,
    show Timestamp.Fits (Timestamp.saturatingAdd 0 defaultManifestTtl) by decide, .none⟩

/-- Every manifest that meets the grammar is built from its values, read back as it was built from
what is sent, bare or wrapped, and verified until it expires. -/
theorem manifest_roundTrip (hP : P.ReadsText) (hk : signingKey.Total P key)
    (hb : b.Writable P n publishedAt) (hd : b.Describes publishedAt m)
    {ctx : ManifestVerifyContext} (hg : checkGrammar P m ctx = .ok ()) (challenge : Nonce) :
    ∃ built, b.build signingKey challenge publishedAt = .ok built ∧
      b.Describes publishedAt built ∧
      ∀ wire, built.SentAs n wire →
        ∃ value, CheckedJson.fromSlice P (utf8 wire.text) = some value ∧
          parseManifestWire value = .ok built ∧
          ∀ now ≤ built.expiresAt,
            verifyManifest P built ⟨now, ctx.insecureLocalhost⟩ = .ok () := by
  obtain ⟨built, hm, hd', hv, hg'⟩ := ManifestBuilder.build_of_describes hk hd hg challenge
  refine ⟨built, hm, hd', fun wire hw => ?_⟩
  obtain _ | n := n
  · cases (hb.extensions _ rfl).1
  obtain ⟨value, hval, hparse⟩ := parseManifestWire_sent hP (hd'.writable hb) hv hw
  refine ⟨value, hval, hparse, fun now hn => ?_⟩
  -- the grammar reads only the localhost opt-in of its context
  have hg'' : checkGrammar P built ⟨now, ctx.insecureLocalhost⟩ = .ok () := hg'
  exact verifyManifest_build hk.lawful hm hg'' hn

open Toy in
theorem manifest_roundTrip_toy : ∃ built, (manifestBuilder (agent 0) ["demo.echo"] []).build
    (signer (agent 0)) zeroNonce 100 = .ok built ∧
    ∃ value, CheckedJson.fromSlice primitives (utf8 built.wrapped.text) = some value ∧
      parseManifestWire value = .ok built := by
  have hg : checkGrammar primitives (manifest (agent 0) ["demo.echo"] [] 100) ⟨100, false⟩ =
      .ok () := checkGrammar_manifest 0 (by decide) (by decide) ⟨by decide, by decide⟩
  have hx : Holdable primitives 1 (some []) := by
    rintro _ ⟨⟩
    exact ⟨rfl, rfl⟩
  obtain ⟨built, hm, -, hw⟩ := manifest_roundTrip (b := manifestBuilder (agent 0) ["demo.echo"] [])
    readsText ⟨signer_lawful _, fun _ => rfl⟩ ⟨by decide, hx⟩
    ⟨rfl, rfl, rfl, rfl, rfl, rfl, rfl, rfl, rfl, rfl, rfl⟩ hg zeroNonce
  obtain ⟨value, hv, hp, -⟩ := hw _ (.inr ⟨rfl, by decide⟩)
  exact ⟨built, hm, value, hv, hp⟩

namespace Toy

/-- A builder with extensions of 127 levels. -/
def deepBuilder : ManifestBuilder :=
  { manifestBuilder (agent 0) ["demo.echo"] [] with extensions := [("a", tower 125)] }

/-- The values it describes. -/
def deepManifest : Manifest :=
  { manifest (agent 0) ["demo.echo"] [] 100 with extensions := some [("a", tower 125)] }

theorem describes_deepManifest : deepBuilder.Describes 100 deepManifest :=
  ⟨rfl, rfl, rfl, rfl, rfl, rfl, rfl, rfl, rfl, rfl, rfl⟩

theorem checkGrammar_deepManifest : checkGrammar nested deepManifest ⟨100, false⟩ = .ok () := by
  have hflat : checkGrammar primitives (manifest (agent 0) ["demo.echo"] [] 100) ⟨100, false⟩ =
      .ok () :=
    checkGrammar_manifest 0 (by decide) (by decide) ⟨by decide, by decide⟩
  exact hflat

theorem fromSlice_deep {m : Manifest} (hx : m.extensions = some [("a", tower 125)]) {wire : Json}
    (hw : wire = m.toValue ∨ wire = m.wrapped) :
    CheckedJson.fromSlice nested (utf8 wire.text) = none := by
  have hg : m.toValue.get "extensions" = some (.obj [("a", tower 125)]) := by
    have hget : m.toValue.get "extensions" = m.extensions.map .obj :=
      Serde.get_obj_written (by decide) rfl (f := ⟨"extensions", .default⟩) (i := 13) rfl
    rw [hget, hx, Option.map_some]
  have hn : ∀ {n}, n ≤ nestingLimit → m.toValue.nestsWithin n = false := by
    intro n hn
    rw [Bool.eq_false_iff]
    intro h
    obtain _ | n := n
    · cases h
    have hv := Json.nestsWithin_of_get hg h
    obtain _ | n := n
    · cases hv
    have ht := Json.nestsWithin_of_get (k := "a") rfl hv
    rw [nestsWithin_tower, decide_eq_true_eq] at ht
    simp only [nestingLimit] at hn
    omega
  have hwire : wire.nestsWithin nestingLimit = false := by
    rcases hw with rfl | rfl
    · exact hn le_rfl
    · simp [Manifest.wrapped, nestingLimit, Json.nestsWithin, Json.membersNestWithin,
        hn (n := 126) (by decide)]
  simp [CheckedJson.fromSlice, nested_document_text, hwire]

end Toy

open Toy in
/-- Extensions of 127 levels meet the grammar and are built into a manifest that is sent, bare or
wrapped, and not read. -/
theorem manifest_roundTrip_deep :
    nested.ReadsText ∧ deepBuilder.Describes 100 deepManifest ∧
      checkGrammar nested deepManifest ⟨100, false⟩ = .ok () ∧
      ∃ built, deepBuilder.build (signer (agent 0)) zeroNonce 100 = .ok built ∧
        ∀ wire, wire = built.toValue ∨ wire = built.wrapped →
          CheckedJson.fromSlice nested (utf8 wire.text) = none := by
  have hk : (signer (agent 0)).Total nested _ := ⟨nested_lawful _, fun _ => rfl⟩
  obtain ⟨built, hm, hd, -⟩ := ManifestBuilder.build_of_describes hk describes_deepManifest
    checkGrammar_deepManifest zeroNonce
  exact ⟨nested_readsText, describes_deepManifest, checkGrammar_deepManifest, built, hm,
    fun wire hw => fromSlice_deep hd.extensions hw⟩

end Aitp
