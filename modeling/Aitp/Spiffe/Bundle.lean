import Aitp.Handshake.JwkParse
import Mathlib.Data.List.Perm.Basic

/-! # SPIFFE bundles

`SpiffeBundle::from_jwk_set` of `spiffe.rs`: the keys of a JWK Set are read one after the other,
and a `jwt-svid` key is refused when a key that was kept carries its `kid`. A key of a type that is
not supported is checked and then not kept, so it collides with the keys before it and not with
the keys after it.
-/

namespace Aitp

inductive SpiffeConfigError where
  | duplicateTrustDomain (trustDomain : String)
  | invalidTrustDomain (trustDomain : String)
  | malformed (reason : String)
  deriving DecidableEq

structure SpiffeBundle where
  jwtAuthorities : List JwkPublicKey := []
  x509Authorities : List Bytes := []

/-- The code from elsewhere that a bundle is read with. -/
structure BundleCodec where
  /-- `decode_x5c_entry`: padded base64. -/
  decodeX5cEntry : String → Except String Bytes
  /-- `parse_certificate`: whether a DER certificate parses, with nothing after it. -/
  parseCertificate : Bytes → Except String Unit
  /-- How `{:?}` prints a string. -/
  debug : String → String

section

variable (C : BundleCodec)

/-- The `kid` of a `jwt-svid` key. -/
def jwtSvidKid (jwk : Json) : Option String :=
  (jwk.getStr "kid").filter fun k => decide (k ≠ "")

/-- The certificate of an `x509-svid` key. -/
def x509SvidDer (jwk : Json) : Except SpiffeConfigError Bytes := do
  let x5c ←
    match (jwk.get "x5c").bind Json.asArray with
    | some [cert] => okOr cert.asStr (.malformed "x509-svid x5c entry is not a string")
    | _ => .error (.malformed "x509-svid key must carry exactly one x5c certificate")
  let der ← mapErr .malformed (C.decodeX5cEntry x5c)
  mapErr .malformed (C.parseCertificate der)
  return der

namespace SpiffeBundle

variable (bundle : SpiffeBundle)

/-- What the loop of `from_jwk_set` does with a `jwt-svid` key. -/
def addJwtSvid (jwk : Json) : Except SpiffeConfigError SpiffeBundle := do
  let kid ← okOr (jwtSvidKid jwk) (.malformed "jwt-svid key has no `kid`")
  ensure (!bundle.jwtAuthorities.any fun k => k.kid == some kid)
    (.malformed ("duplicate jwt-svid kid " ++ C.debug kid))
  match JwkPublicKey.fromJwkJson jwk with
  | .ok key => return { bundle with jwtAuthorities := bundle.jwtAuthorities ++ [key] }
  | .error (.unsupported _) => return bundle
  | .error e => .error (.malformed e.toText)

/-- What the loop of `from_jwk_set` does with a key. -/
def add (jwk : Json) : Except SpiffeConfigError SpiffeBundle :=
  match jwk.getStr "use" with
  | some "jwt-svid" => addJwtSvid C bundle jwk
  | some "x509-svid" => do
    let der ← x509SvidDer C jwk
    return { bundle with x509Authorities := bundle.x509Authorities ++ [der] }
  | _ => .ok bundle

def fromJwkSet (value : Json) : Except SpiffeConfigError SpiffeBundle := do
  let keys ← okOr ((value.get "keys").bind Json.asArray) (.malformed "bundle has no `keys` array")
  keys.foldlM (add C) {}

end SpiffeBundle

/-! ## What a key is, whatever the keys before it -/

/-- What a JWK counts as. -/
inductive KeyRole where
  | ignored
  | refused
  | x509 (der : Bytes)
  | unsupported (kid : String)
  | supported (kid : String) (key : JwkPublicKey)

/-- What a `jwt-svid` key counts as. -/
def jwtSvidRole (jwk : Json) : KeyRole :=
  match jwtSvidKid jwk with
  | none => .refused
  | some kid =>
    match JwkPublicKey.fromJwkJson jwk with
    | .ok key => .supported kid key
    | .error (.unsupported _) => .unsupported kid
    | .error (.malformed _) => .refused

/-- What an `x509-svid` key counts as. -/
def x509SvidRole (jwk : Json) : KeyRole :=
  match x509SvidDer C jwk with
  | .ok der => .x509 der
  | .error _ => .refused

/-- What a key counts as. -/
def keyRole (jwk : Json) : KeyRole :=
  match jwk.getStr "use" with
  | some "jwt-svid" => jwtSvidRole jwk
  | some "x509-svid" => x509SvidRole C jwk
  | _ => .ignored

namespace KeyRole

/-- The `kid` of a `jwt-svid` key. -/
def kid : KeyRole → Option String
  | unsupported kid => some kid
  | supported kid _ => some kid
  | _ => none

/-- The `kid` of a `jwt-svid` key that is kept. -/
def keptKid : KeyRole → Option String
  | supported kid _ => some kid
  | _ => none

/-- The key that is kept. -/
def key : KeyRole → Option JwkPublicKey
  | supported _ key => some key
  | _ => none

/-- The certificate that is kept. -/
def der : KeyRole → Option Bytes
  | x509 der => some der
  | _ => none

/-- The first key is kept and the second carries its `kid`. -/
def Collides (r s : KeyRole) : Prop :=
  ∃ kid, r.keptKid = some kid ∧ s.kid = some kid

end KeyRole

end

variable {C : BundleCodec} {bundle bundle' : SpiffeBundle} {jwk : Json} {keys : List Json}

theorem jwtSvidRole_eq_supported {kid : String} {key : JwkPublicKey}
    (h : jwtSvidRole jwk = .supported kid key) : key.kid = some kid := by
  unfold jwtSvidRole at h
  split at h
  · cases h
  · rename_i k hk
    split at h
    · rename_i key' hj
      obtain ⟨rfl, rfl⟩ := KeyRole.supported.inj h
      rw [(JwkPublicKey.fromJwkJson_ok hj).1]
      exact (Option.filter_eq_some_iff.mp hk).1
    · cases h
    · cases h

theorem keyRole_eq_supported {kid : String} {key : JwkPublicKey}
    (h : keyRole C jwk = .supported kid key) : key.kid = some kid := by
  unfold keyRole at h
  split at h
  · exact jwtSvidRole_eq_supported h
  · unfold x509SvidRole at h
    split at h <;> cases h
  · cases h

theorem kid_of_keptKid {r : KeyRole} {kid : String} (h : r.keptKid = some kid) :
    r.kid = some kid := by
  cases r <;> simp_all [KeyRole.keptKid, KeyRole.kid]

namespace SpiffeBundle

/-- The bundle holds a key with the `kid`. -/
def Holds (bundle : SpiffeBundle) (kid : String) : Prop :=
  ∃ key ∈ bundle.jwtAuthorities, key.kid = some kid

/-- The bundle with what a key adds to it. -/
def extend (bundle : SpiffeBundle) (r : KeyRole) : SpiffeBundle :=
  ⟨bundle.jwtAuthorities ++ r.key.toList, bundle.x509Authorities ++ r.der.toList⟩

theorem any_eq_true_iff {kid : String} :
    (bundle.jwtAuthorities.any fun k => k.kid == some kid) = true ↔ bundle.Holds kid := by
  simp only [List.any_eq_true, beq_iff_eq, Holds]

theorem addJwtSvid_eq_ok : bundle.addJwtSvid C jwk = .ok bundle' ↔
    jwtSvidRole jwk ≠ .refused ∧ (∀ kid, (jwtSvidRole jwk).kid = some kid → ¬ bundle.Holds kid) ∧
      bundle' = bundle.extend (jwtSvidRole jwk) := by
  unfold addJwtSvid jwtSvidRole
  cases hk : jwtSvidKid jwk with
  | none => simp
  | some kid =>
    have ha : (!bundle.jwtAuthorities.any fun k => k.kid == some kid) = true ↔
        ¬ bundle.Holds kid := by
      rw [Bool.not_eq_true', ← Bool.not_eq_true, any_eq_true_iff]
    simp only [okOr_some, ok_bind, bind_eq_ok, ensure_eq_ok, exists_const, ha]
    cases hj : JwkPublicKey.fromJwkJson jwk with
    | ok key =>
      simp only [KeyRole.kid, KeyRole.key, KeyRole.der, extend, pure_eq_ok]
      simpa using fun _ => eq_comm
    | error e =>
      cases e with
      | malformed reason => simp
      | unsupported reason =>
        simp only [KeyRole.kid, KeyRole.key, KeyRole.der, extend, pure_eq_ok]
        simpa using fun _ => eq_comm

theorem add_eq_ok : bundle.add C jwk = .ok bundle' ↔
    keyRole C jwk ≠ .refused ∧ (∀ kid, (keyRole C jwk).kid = some kid → ¬ bundle.Holds kid) ∧
      bundle' = bundle.extend (keyRole C jwk) := by
  unfold add keyRole
  split
  · exact addJwtSvid_eq_ok
  · unfold x509SvidRole
    cases hd : x509SvidDer C jwk with
    | ok der => simp [KeyRole.kid, KeyRole.key, KeyRole.der, extend, eq_comm]
    | error e => simp
  · simp only [KeyRole.kid, KeyRole.key, KeyRole.der, extend, Except.ok.injEq]
    simpa using eq_comm

theorem holds_extend {kid : String} : (bundle.extend (keyRole C jwk)).Holds kid ↔
    bundle.Holds kid ∨ (keyRole C jwk).keptKid = some kid := by
  simp only [Holds, extend, List.mem_append, Option.mem_toList, or_and_right, exists_or]
  refine or_congr_right ?_
  cases hr : keyRole C jwk with
  | supported k key =>
    have hk := keyRole_eq_supported hr
    simp [KeyRole.key, KeyRole.keptKid, hk]
  | _ => simp [KeyRole.key, KeyRole.keptKid]

/-- What the whole loop does. -/
theorem foldlM_add_eq_ok : keys.foldlM (add C) bundle = .ok bundle' ↔
    (∀ jwk ∈ keys, keyRole C jwk ≠ .refused) ∧
      (∀ jwk ∈ keys, ∀ kid, (keyRole C jwk).kid = some kid → ¬ bundle.Holds kid) ∧
      keys.Pairwise (fun i j => ¬ (keyRole C i).Collides (keyRole C j)) ∧
      bundle' = ⟨bundle.jwtAuthorities ++ keys.filterMap fun jwk => (keyRole C jwk).key,
        bundle.x509Authorities ++ keys.filterMap fun jwk => (keyRole C jwk).der⟩ := by
  induction keys generalizing bundle with
  | nil =>
    simp only [List.foldlM_nil, pure_eq_ok, List.filterMap_nil, List.append_nil]
    simp [eq_comm]
  | cons jwk keys ih =>
    simp only [List.foldlM_cons, bind_eq_ok, add_eq_ok, ih, List.forall_mem_cons,
      List.pairwise_cons]
    constructor
    · rintro ⟨b, ⟨hr, hk, rfl⟩, hrs, hks, hp, rfl⟩
      refine ⟨⟨hr, hrs⟩, ⟨hk, fun j hj kid hkid hb => ?_⟩, ⟨?_, hp⟩, ?_⟩
      · exact hks j hj kid hkid (holds_extend.mpr (.inl hb))
      · rintro j hj ⟨kid, hkept, hkid⟩
        exact hks j hj kid hkid (holds_extend.mpr (.inr hkept))
      · cases hr' : keyRole C jwk <;>
          simp [extend, KeyRole.key, KeyRole.der, hr']
    · rintro ⟨⟨hr, hrs⟩, ⟨hk, hks⟩, ⟨hc, hp⟩, rfl⟩
      refine ⟨_, ⟨hr, hk, rfl⟩, hrs, fun j hj kid hkid hb => ?_, hp, ?_⟩
      · rcases holds_extend.mp hb with hb | hkept
        · exact hks j hj kid hkid hb
        · exact hc j hj ⟨kid, hkept, hkid⟩
      · cases hr' : keyRole C jwk <;>
          simp [extend, KeyRole.key, KeyRole.der, hr']

end SpiffeBundle

end Aitp
