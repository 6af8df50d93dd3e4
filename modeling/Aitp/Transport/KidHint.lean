import Aitp.Handshake.JwkParse
import Aitp.Transport.KeyDiscovery
import Aitp.Transport.RsaFloor

/-! # Keys by their identifier

`resolve_with_kid_hint` of `transport/client.rs`: an issuer's keys are looked up for a `kid`, and
once more after the discovery document is forgotten when no key has it. Whichever answer is taken
is returned as it is, with the keys of every other `kid` in it.
-/

namespace Aitp

/-- The error of a key set for that of one of its keys. -/
def JwksFetcherError.ofJwk : JwkParseError → JwksFetcherError
  | .malformed _ => .malformedJson
  | .unsupported _ => .unsupportedJwk

/-- The size of an `RSA` key is checked before it is read. -/
def checkRsaFloor (jwk : Json) : Except JwksFetcherError Unit :=
  if jwk.getStr "kty" = some "RSA" then do
    let n ← okOr (jwk.getStr "n") .malformedJson
    ensure (RsaFloor.rsaModulusBitsOk n) .unsupportedJwk
  else .ok ()

/-- One turn of the loop of `parse_jwks`. -/
def parseJwk (jwk : Json) : Except JwksFetcherError JwkPublicKey := do
  checkRsaFloor jwk
  mapErr .ofJwk (JwkPublicKey.fromJwkJson jwk)

def parseJwks (jwks : Json) : Except JwksFetcherError (List JwkPublicKey) := do
  let keys ← okOr ((jwks.get "keys").bind Json.asArray) .malformedJson
  keys.mapM parseJwk

/-- An `RSA` key of a key set is read only if its modulus reaches the floor. -/
theorem modulus_of_parseJwk {jwk : Json} {key : JwkPublicKey} (h : parseJwk jwk = .ok key)
    (hk : jwk.getStr "kty" = some "RSA") : ∃ n bytes, jwk.getStr "n" = some n ∧
      decodeStrict n = some bytes ∧ 2 ^ 2047 ≤ BigEndian.value bytes := by
  simp only [parseJwk, checkRsaFloor, hk, if_true, bind_eq_ok, okOr_eq_ok, ensure_eq_ok] at h
  obtain ⟨-, ⟨n, hn, hok⟩, -⟩ := h
  cases hb : decodeStrict n with
  | none => simp [RsaFloor.rsaModulusBitsOk, hb] at hok
  | some bytes => exact ⟨n, bytes, hn, hb, (RsaFloor.rsaModulusBitsOk_of_decodeStrict hb).mp hok⟩

/-- What a second resolution meets: a later instant, and what the network answers then. -/
structure Refetch where
  now : ℕ
  network : Fetch → Except JwksFetcherError Json

/-- The answer of a resolution. -/
abbrev KeyAnswer := Except JwksFetcherError (List JwkPublicKey)

/-- Whether a key has the `kid` of a hint. -/
def JwkPublicKey.hasKid (kid : String) (key : JwkPublicKey) : Bool :=
  key.kid == some kid

namespace JwksFetcher

def invalidateDiscoveryCache (cache : DiscoveryCache) (issuer : HttpUrl) : DiscoveryCache :=
  Function.update cache issuer.normalizeIssuerUrl none

variable (fetcher : JwksFetcher) (again : Refetch) (issuer : HttpUrl)

/-- The fetcher after a resolution whose discovery was invalidated. -/
def refetching : JwksFetcher :=
  { fetcher with
    discoveryCache := invalidateDiscoveryCache (fetcher.resolve issuer).2.2 issuer
    now := again.now
    network := again.network }

/-- `JwksFetcher::resolve_with_kid_hint`, with the documents asked for and the cache it leaves. -/
def resolveWithKidHint (kidHint : Option String) : KeyAnswer × List Fetch × DiscoveryCache :=
  let first := fetcher.resolve issuer
  match first.1, kidHint with
  | .error _, _ => first
  | .ok _, none => first
  | .ok keys, some kid =>
    if keys.any (·.hasKid kid) then first
    else
      let second := (fetcher.refetching again issuer).resolve issuer
      (second.1, first.2.1 ++ second.2.1, second.2.2)

/-- The first answer. -/
def firstAnswer : KeyAnswer :=
  (fetcher.resolve issuer).1

/-- The answer after discovery was invalidated. -/
def secondAnswer : KeyAnswer :=
  ((fetcher.refetching again issuer).resolve issuer).1

end JwksFetcher

/-- The answer that is taken for a hint. -/
def takenAnswer (kid : String) (first second : KeyAnswer) : KeyAnswer := do
  let keys ← first
  if keys.any (·.hasKid kid) then return keys else second

/-- What the documentation promises: the keys of the hint in the first answer or, if there is
none, those in the second. -/
def keysOfKid (kid : String) (first second : KeyAnswer) : KeyAnswer := do
  let keys ← first
  if keys.any (·.hasKid kid) then return keys.filter (·.hasKid kid)
  else return (← second).filter (·.hasKid kid)

/-- The answer that is taken has keys of the hint only: the first if a key of it is, otherwise the
second. -/
structure OneKid (kid : String) (first second : KeyAnswer) : Prop where
  ofFirst : ∀ keys, first = .ok keys → (∃ key ∈ keys, key.kid = some kid) →
    ∀ key ∈ keys, key.kid = some kid
  ofSecond : ∀ keys others, first = .ok keys → (∀ key ∈ keys, key.kid ≠ some kid) →
    second = .ok others → ∀ key ∈ others, key.kid = some kid

variable {fetcher : JwksFetcher} {again : Refetch} {issuer : HttpUrl} {kid : String}
  {keys : List JwkPublicKey} {first second : KeyAnswer}

@[simp] theorem JwkPublicKey.hasKid_iff {key : JwkPublicKey} :
    key.hasKid kid = true ↔ key.kid = some kid := by
  simp [JwkPublicKey.hasKid]

theorem any_hasKid : keys.any (·.hasKid kid) = true ↔ ∃ key ∈ keys, key.kid = some kid := by
  simp

theorem filter_hasKid_eq_self : keys.filter (·.hasKid kid) = keys ↔
    ∀ key ∈ keys, key.kid = some kid := by
  simp

/-- The hint finds the first answer or, where no key of it has the `kid`, the second. -/
theorem resolveWithKidHint_some : (fetcher.resolveWithKidHint again issuer (some kid)).1 =
    takenAnswer kid (fetcher.firstAnswer issuer) (fetcher.secondAnswer again issuer) := by
  cases h : (fetcher.resolve issuer).1 with
  | error e => simp [JwksFetcher.resolveWithKidHint, JwksFetcher.firstAnswer, h, takenAnswer]
  | ok keys =>
    by_cases ha : keys.any (·.hasKid kid) = true
    · simp only [JwksFetcher.resolveWithKidHint, JwksFetcher.firstAnswer, h, takenAnswer, ok_bind,
        ha, if_true]
      rfl
    · simp only [JwksFetcher.resolveWithKidHint, JwksFetcher.firstAnswer, h, takenAnswer, ok_bind,
        if_neg ha]
      rfl

theorem cachedUri_refetching : (fetcher.refetching again issuer).cachedUri issuer = none := by
  unfold JwksFetcher.cachedUri
  split_ifs
  · rfl
  · simp [JwksFetcher.refetching, JwksFetcher.invalidateDiscoveryCache]

theorem mem_asked_refetching (hs : issuer.scheme = "https") :
    .wellKnown .openidConfiguration (issuer.normalizeIssuerUrl.atRoot .openidConfiguration) ∈
      (fetcher.refetching again issuer).asked issuer := by
  have hasked : .wellKnown .openidConfiguration
      (issuer.normalizeIssuerUrl.atRoot .openidConfiguration) ∈
        ((fetcher.refetching again issuer).resolveJwksUri issuer).2.1 := by
    rw [asked_resolveJwksUri hs, cachedUri_refetching]
    exact List.mem_cons_self
  rw [JwksFetcher.asked, JwksFetcher.resolve, if_neg (not_not_intro hs)]
  split
  · next h =>
    rw [h] at hasked
    exact List.mem_append_left _ hasked
  · next h =>
    rw [h] at hasked
    split <;> exact List.mem_append_left _ hasked

theorem takenAnswer_eq_keysOfKid_iff :
    takenAnswer kid first second = keysOfKid kid first second ↔ OneKid kid first second := by
  cases first with
  | error e =>
    refine iff_of_true rfl ⟨?_, ?_⟩
    · rintro _ ⟨⟩
    · rintro _ _ ⟨⟩
  | ok keys =>
    by_cases ha : keys.any (·.hasKid kid) = true
    · have hk := any_hasKid.mp ha
      simp only [takenAnswer, keysOfKid, ok_bind, ha, if_true, pure, Except.pure, Except.ok.injEq]
      rw [eq_comm, filter_hasKid_eq_self]
      constructor
      · intro h
        refine ⟨?_, ?_⟩
        · rintro _ ⟨⟩ -
          exact h
        · rintro _ _ ⟨⟩ hn
          obtain ⟨key, hm, hkey⟩ := hk
          exact absurd hkey (hn key hm)
      · intro h
        exact h.ofFirst keys rfl hk
    · have hn : ∀ key ∈ keys, key.kid ≠ some kid := by
        intro key hm hkey
        exact ha (any_hasKid.mpr ⟨key, hm, hkey⟩)
      simp only [takenAnswer, keysOfKid, ok_bind, ha]
      cases second with
      | error e =>
        refine iff_of_true rfl ⟨?_, ?_⟩
        · rintro _ ⟨⟩ ⟨key, hm, hkey⟩
          exact absurd hkey (hn key hm)
        · rintro _ _ ⟨⟩ - ⟨⟩
      | ok others =>
        simp only [pure, Except.pure, ok_bind, Bool.false_eq_true, if_false, Except.ok.injEq]
        rw [eq_comm, filter_hasKid_eq_self]
        constructor
        · intro h
          refine ⟨?_, ?_⟩
          · rintro _ ⟨⟩ ⟨key, hm, hkey⟩
            exact absurd hkey (hn key hm)
          · rintro _ _ ⟨⟩ - ⟨⟩
            exact h
        · intro h
          exact h.ofSecond keys others rfl hn rfl

/-- A hint returns the keys of its `kid` only, from the first answer or the second, exactly when
the answer it takes has no others. -/
theorem resolveWithKidHint_iff (fetcher : JwksFetcher) (again : Refetch) (issuer : HttpUrl)
    (kid : String) : (fetcher.resolveWithKidHint again issuer (some kid)).1 =
      keysOfKid kid (fetcher.firstAnswer issuer) (fetcher.secondAnswer again issuer) ↔
      OneKid kid (fetcher.firstAnswer issuer) (fetcher.secondAnswer again issuer) := by
  rw [resolveWithKidHint_some]
  exact takenAnswer_eq_keysOfKid_iff

namespace Toy

/-- An `Ed25519` key of a `kid`. -/
def jwkOfKid (kid : String) : Json :=
  .obj [("kid", .str kid), ("kty", .str "OKP"), ("crv", .str "Ed25519"),
    ("x", .str (String.ofList (List.replicate 43 'A')))]

/-- An issuer of two keys. -/
def rotatingFetcher : JwksFetcher :=
  { realmFetcher with
    network := fun f =>
      if f = .wellKnown .aitpKeys ((realm 'a').atRoot .aitpKeys) then
        .ok (.obj [("keys", .arr [jwkOfKid "a", jwkOfKid "b"])])
      else .error .network
    parseJwks := parseJwks }

theorem parseJwks_rotating : parseJwks (.obj [("keys", .arr [jwkOfKid "a", jwkOfKid "b"])]) =
    .ok [⟨some "a", none, .ed25519 (List.replicate 32 0)⟩,
      ⟨some "b", none, .ed25519 (List.replicate 32 0)⟩] := by
  rfl

theorem firstAnswer_rotating : rotatingFetcher.firstAnswer (realm 'a') =
    .ok [⟨some "a", none, .ed25519 (List.replicate 32 0)⟩,
      ⟨some "b", none, .ed25519 (List.replicate 32 0)⟩] := by
  have hc : rotatingFetcher.cachedUri (realm 'a') = none := if_pos rfl
  have hd : rotatingFetcher.network (.wellKnown .openidConfiguration
      ((realm 'a').normalizeIssuerUrl.atRoot .openidConfiguration)) = .error .network := by
    simp [rotatingFetcher]
  have hk : rotatingFetcher.network (.wellKnown .aitpKeys ((realm 'a').atRoot .aitpKeys)) =
      .ok (.obj [("keys", .arr [jwkOfKid "a", jwkOfKid "b"])]) := by
    simp [rotatingFetcher]
  have hp : rotatingFetcher.parseJwks = parseJwks := rfl
  rw [JwksFetcher.firstAnswer, resolve_of_no_discovery rfl hc hd, hk, hp, ok_bind,
    parseJwks_rotating]

end Toy

/-- A hint for one of two keys returns both. -/
theorem resolveWithKidHint_rotating : ¬∀ (fetcher : JwksFetcher) (again : Refetch)
    (issuer : HttpUrl) (kid : String),
    (fetcher.resolveWithKidHint again issuer (some kid)).1 =
      keysOfKid kid (fetcher.firstAnswer issuer) (fetcher.secondAnswer again issuer) := by
  intro h
  have hx := h Toy.rotatingFetcher ⟨0, fun _ => .error .network⟩ (Toy.realm 'a') "a"
  rw [resolveWithKidHint_some, Toy.firstAnswer_rotating] at hx
  have hone := (takenAnswer_eq_keysOfKid_iff.mp hx).ofFirst _ rfl ⟨_, List.mem_cons_self, rfl⟩
  exact absurd (hone _ (List.mem_cons_of_mem _ List.mem_cons_self)) (by decide)

end Aitp
