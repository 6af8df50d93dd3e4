import Aitp.Foundation.Machine
import Aitp.Manifest.RoundTrip

/-! # The manifest cache

`ManifestFetcher` of `transport/client.rs`: a manifest that was fetched replaces whatever is
cached for its agent, and one that came in a handshake replaces only what was published before
it. What the network answers is an input of the call.
-/

namespace Aitp

/-- `FetchError`, without the texts of other crates' errors. -/
inductive FetchError where
  | insecureUrl
  | network
  | malformedJson
  | malformedWrapper
  | unknownField (field : String)
  | verificationFailed (error : ManifestError)
  | timeout
  | upstreamStatus (status : ℕ)
  | wrongContentType (contentType : String)
  | oversizedResponse (limit : ℕ)
  deriving DecidableEq

def FetchError.isTransient : FetchError → Bool
  | timeout | network => true
  | upstreamStatus status => decide (500 ≤ status)
  | _ => false

/-- A manifest that passed `verify_manifest`. -/
structure VerifiedManifest (P : Primitives) where
  manifest : Manifest
  verified : ∃ ctx, verifyManifest P manifest ctx = .ok ()

/-- `CacheEntry`: the times are those of the manifest. -/
structure ManifestCacheEntry (P : Primitives) where
  manifest : VerifiedManifest P
  publishedAt : Timestamp
  expiresAt : Timestamp
  publishedAt_eq : publishedAt = manifest.manifest.publishedAt
  expiresAt_eq : expiresAt = manifest.manifest.expiresAt

def ManifestCacheEntry.new {P : Primitives} (m : VerifiedManifest P) : ManifestCacheEntry P where
  manifest := m
  publishedAt := m.manifest.publishedAt
  expiresAt := m.manifest.expiresAt
  publishedAt_eq := rfl
  expiresAt_eq := rfl

abbrev ManifestCache (P : Primitives) := Aid → Option (ManifestCacheEntry P)

/-- What a fetcher checks of a response. -/
structure ManifestFetcher where
  maxBytes : ℕ := 262144
  insecureLocalhost : Bool := false

/-- A response, its content type in lower case. -/
structure ManifestResponse where
  status : ℕ
  contentType : String
  body : Bytes

/-- What the network answers to an attempt, and the clock when it has. -/
structure FetchAttempt where
  answer : Except FetchError ManifestResponse
  now : Timestamp

section

variable (P : Primitives)

/-- `verify_manifest`, with the manifest it returns. -/
def verifiedManifest (manifest : Manifest) (ctx : ManifestVerifyContext) :
    Except ManifestError (VerifiedManifest P) :=
  match h : verifyManifest P manifest ctx with
  | .ok () => .ok ⟨manifest, ctx, h⟩
  | .error e => .error e

/-- The member `manifest` of an object. -/
def unwrapManifest (value : CheckedJson) : Option CheckedJson :=
  match h : value.value.get "manifest" with
  | some inner => some ⟨inner, Json.distinctKeys_of_get value.distinct h⟩
  | none => none

/-- `fetch_attempt`, up to the cache. -/
def fetchAttempt (fetcher : ManifestFetcher) (attempt : FetchAttempt) :
    Except FetchError (VerifiedManifest P) := do
  let response ← attempt.answer
  ensure (decide (200 ≤ response.status ∧ response.status < 300)) (.upstreamStatus response.status)
  ensure ("application/json".toList.isPrefixOf response.contentType.toList)
    (.wrongContentType response.contentType)
  ensure (decide (response.body.length ≤ fetcher.maxBytes)) (.oversizedResponse fetcher.maxBytes)
  let value ← okOr (CheckedJson.fromSlice P response.body) .malformedJson
  let inner ← okOr (unwrapManifest value) .malformedWrapper
  let manifest ← mapErr (fun e =>
    match e with
    | .unknownField field => .unknownField field
    | .versionUnknown => .verificationFailed .versionUnknown
    | _ => .malformedJson) (parseManifestWire inner)
  mapErr .verificationFailed
    (verifiedManifest P manifest ⟨attempt.now, fetcher.insecureLocalhost⟩)

/-- The attempts of `fetch`: one that fails in a passing way is followed by the next, if any. -/
def fetchAttempts (fetcher : ManifestFetcher) :
    List FetchAttempt → Except FetchError (VerifiedManifest P)
  | [] => .error .network
  | attempt :: rest =>
    match fetchAttempt P fetcher attempt with
    | .ok m => .ok m
    | .error e =>
      if e.isTransient && !rest.isEmpty then fetchAttempts fetcher rest else .error e

end

variable {P : Primitives}

namespace ManifestCache

/-- `insert_cache`. -/
def insert (cache : ManifestCache P) (m : VerifiedManifest P) : ManifestCache P :=
  Function.update cache m.manifest.aid (some (.new m))

def fetch (fetcher : ManifestFetcher) (cache : ManifestCache P) (attempts : List FetchAttempt) :
    Except FetchError (VerifiedManifest P) × ManifestCache P :=
  match fetchAttempts P fetcher attempts with
  | .ok m => (.ok m, cache.insert m)
  | .error e => (.error e, cache)

def cached (cache : ManifestCache P) (aid : Aid) (now : Timestamp) : Option (VerifiedManifest P) :=
  ((cache aid).filter fun e => decide (now < e.expiresAt)).map ManifestCacheEntry.manifest

def maybeReplaceInline (cache : ManifestCache P) (m : VerifiedManifest P) :
    Bool × ManifestCache P :=
  if (cache m.manifest.aid).any fun e => decide (m.manifest.publishedAt ≤ e.publishedAt) then
    (false, cache)
  else (true, cache.insert m)

end ManifestCache

/-- A call of a fetcher that may change its cache. -/
inductive FetcherCall (P : Primitives) where
  | fetch (attempts : List FetchAttempt)
  | maybeReplaceInline (m : VerifiedManifest P)

/-- A fetcher's cache under its calls. -/
def fetcherMachine (fetcher : ManifestFetcher) :
    Machine (ManifestCache P) (FetcherCall P) FetchError where
  next cache call :=
    match call with
    | .fetch attempts => (cache.fetch fetcher attempts).2
    | .maybeReplaceInline m => (cache.maybeReplaceInline m).2
  error cache call :=
    match call with
    | .fetch attempts =>
      match (cache.fetch fetcher attempts).1 with
      | .ok _ => none
      | .error e => some e
    | .maybeReplaceInline _ => none

variable {fetcher : ManifestFetcher} {cache cache' : ManifestCache P} {call : FetcherCall P}
  {m : VerifiedManifest P}

/-! ## Older and newer manifests -/

/-- What is cached later was not published before what was cached for its agent. -/
def NotOlder (cache cache' : ManifestCache P) : Prop :=
  ∀ aid e, cache aid = some e → ∃ e', cache' aid = some e' ∧ e.publishedAt ≤ e'.publishedAt

/-- Along the calls no manifest is replaced by an older one, and an expired one is not served. -/
structure CacheLaw (fetcher : ManifestFetcher) (cache : ManifestCache P)
    (calls : List (FetcherCall P)) : Prop where
  monotone : ∀ before middle after, calls = before ++ middle ++ after →
    NotOlder ((fetcherMachine fetcher).run cache before)
      ((fetcherMachine fetcher).run cache (before ++ middle))
  unexpired : ∀ before after, calls = before ++ after → ∀ aid now m,
    ((fetcherMachine fetcher).run cache before).cached aid now = some m →
      now < m.manifest.expiresAt

/-- The manifest that a fetch returns was not published before the one cached for its agent. -/
def FetchedInOrder (fetcher : ManifestFetcher) (cache : ManifestCache P) : FetcherCall P → Prop
  | .fetch attempts => ∀ m, fetchAttempts P fetcher attempts = .ok m →
      ∀ e, cache m.manifest.aid = some e → e.publishedAt ≤ m.manifest.publishedAt
  | .maybeReplaceInline _ => True

theorem NotOlder.refl (cache : ManifestCache P) : NotOlder cache cache :=
  fun _ e he => ⟨e, he, le_rfl⟩

theorem NotOlder.trans {cache'' : ManifestCache P} (h : NotOlder cache cache')
    (h' : NotOlder cache' cache'') : NotOlder cache cache'' := by
  intro aid e he
  obtain ⟨e', he', hle⟩ := h aid e he
  obtain ⟨e'', he'', hle'⟩ := h' aid e' he'
  exact ⟨e'', he'', hle.trans hle'⟩

theorem notOlder_insert_iff : NotOlder cache (cache.insert m) ↔
    ∀ e, cache m.manifest.aid = some e → e.publishedAt ≤ m.manifest.publishedAt := by
  constructor
  · intro h e he
    obtain ⟨e', he', hle⟩ := h _ e he
    rw [ManifestCache.insert, Function.update_self] at he'
    cases he'
    exact hle
  · intro h aid e he
    by_cases ha : aid = m.manifest.aid
    · subst ha
      exact ⟨.new m, Function.update_self .., h e he⟩
    · exact ⟨e, (Function.update_of_ne ha ..).trans he, le_rfl⟩

theorem notOlder_maybeReplaceInline (cache : ManifestCache P) (m : VerifiedManifest P) :
    NotOlder cache (cache.maybeReplaceInline m).2 := by
  unfold ManifestCache.maybeReplaceInline
  split_ifs with h
  · exact .refl cache
  · apply notOlder_insert_iff.mpr
    intro e he
    rw [he, Option.any_some, decide_eq_true_eq] at h
    exact le_of_not_ge h

theorem notOlder_next_iff :
    NotOlder cache ((fetcherMachine fetcher).next cache call) ↔ FetchedInOrder fetcher cache call := by
  cases call with
  | maybeReplaceInline m => exact iff_of_true (notOlder_maybeReplaceInline cache m) trivial
  | fetch attempts =>
    show NotOlder cache (cache.fetch fetcher attempts).2 ↔
      ∀ m, fetchAttempts P fetcher attempts = .ok m →
        ∀ e, cache m.manifest.aid = some e → e.publishedAt ≤ m.manifest.publishedAt
    unfold ManifestCache.fetch
    cases fetchAttempts P fetcher attempts with
    | error e =>
      refine iff_of_true (.refl cache) ?_
      intro m hm
      cases hm
    | ok m =>
      rw [notOlder_insert_iff]
      constructor
      · rintro h _ ⟨⟩
        exact h
      · intro h
        exact h m rfl

theorem lt_expiresAt_of_cached {aid : Aid} {now : Timestamp}
    (h : cache.cached aid now = some m) : now < m.manifest.expiresAt := by
  obtain ⟨e, he, rfl⟩ := Option.map_eq_some_iff.mp h
  obtain ⟨-, hlt⟩ := Option.filter_eq_some_iff.mp he
  rw [← e.expiresAt_eq]
  exact of_decide_eq_true hlt

/-- Along any calls the cache keeps its law exactly when every fetch comes in order. -/
theorem cacheLaw_iff (fetcher : ManifestFetcher) (cache : ManifestCache P)
    (calls : List (FetcherCall P)) : CacheLaw fetcher cache calls ↔
      ∀ before call after, calls = before ++ call :: after →
        FetchedInOrder fetcher ((fetcherMachine fetcher).run cache before) call := by
  have hrun := (fetcherMachine fetcher).related_iff NotOlder.refl
    (fun _ _ _ h h' => h.trans h') cache calls
  constructor
  · intro h before call after hcalls
    exact notOlder_next_iff.mp (hrun.mp h.monotone before call after hcalls)
  · intro h
    constructor
    · apply hrun.mpr
      intro before call after hcalls
      exact notOlder_next_iff.mpr (h before call after hcalls)
    · intro before after _ aid now m hm
      exact lt_expiresAt_of_cached hm

/-! ## An older manifest -/

theorem verifiedManifest_of_ok {manifest : Manifest} {ctx : ManifestVerifyContext}
    (h : verifyManifest P manifest ctx = .ok ()) :
    verifiedManifest P manifest ctx = .ok ⟨manifest, ctx, h⟩ := by
  unfold verifiedManifest
  split
  · rfl
  · next e he =>
    rw [h] at he
    cases he

theorem unwrapManifest_of_get {value : CheckedJson} {inner : Json}
    (h : value.value.get "manifest" = some inner) :
    unwrapManifest value = some ⟨inner, Json.distinctKeys_of_get value.distinct h⟩ := by
  unfold unwrapManifest
  split
  · next inner' h' =>
    obtain rfl := Option.some.inj (h'.symm.trans h)
    rfl
  · next h' =>
    rw [h] at h'
    cases h'

/-- A manifest that is served as it is written is fetched while it verifies. -/
theorem fetchAttempt_wrapped (hP : P.ReadsText) {manifest : Manifest} {now : Timestamp}
    (hw : manifest.Writable P (nestingLimit - 2)) (hv : manifest.version = protocolVersion)
    (hm : verifyManifest P manifest ⟨now, fetcher.insecureLocalhost⟩ = .ok ())
    (hb : (utf8 manifest.wrapped.text).length ≤ fetcher.maxBytes) :
    fetchAttempt P fetcher ⟨.ok ⟨200, "application/json", utf8 manifest.wrapped.text⟩, now⟩ =
      .ok ⟨manifest, _, hm⟩ := by
  have hslice := CheckedJson.fromSlice_text hP (hw.readable_wrapped hP) hw.distinctKeys_wrapped
  have hinner : unwrapManifest ⟨manifest.wrapped, hw.distinctKeys_wrapped⟩ =
      some ⟨manifest.toValue, hw.distinctKeys_toValue⟩ := unwrapManifest_of_get rfl
  have hparse : parseManifestWire ⟨manifest.toValue, hw.distinctKeys_toValue⟩ = .ok manifest :=
    parseManifestWire_written hw hv (.inl rfl)
  have hstatus : 200 ≤ 200 ∧ 200 < 300 := by decide
  have hjson : "application/json".toList.isPrefixOf "application/json".toList = true := by decide
  simp only [fetchAttempt, bind_eq_ok, ensure_eq_ok, okOr_eq_ok, mapErr_eq_ok, decide_eq_true_eq]
  exact ⟨_, rfl, (), hstatus, (), hjson, (), hb, _, hslice, _, hinner, _, hparse,
    verifiedManifest_of_ok hm⟩

theorem next_of_fetchAttempt {attempt : FetchAttempt}
    (h : fetchAttempt P fetcher attempt = .ok m) :
    (fetcherMachine fetcher).next cache (.fetch [attempt]) = cache.insert m := by
  show (cache.fetch fetcher [attempt]).2 = _
  unfold ManifestCache.fetch fetchAttempts
  rw [h]

theorem insert_self {aid : Aid} (h : m.manifest.aid = aid) :
    cache.insert m aid = some (.new m) := by
  subst h
  exact Function.update_self ..

/-- A fetch that caches an older manifest breaks the law. -/
theorem not_cacheLaw_of_older {call' : FetcherCall P} {m' : VerifiedManifest P}
    (h : (fetcherMachine fetcher).next cache call = cache.insert m)
    (h' : ∀ cache, (fetcherMachine fetcher).next cache call' = cache.insert m')
    (ha : m'.manifest.aid = m.manifest.aid)
    (hlt : m'.manifest.publishedAt < m.manifest.publishedAt) :
    ¬CacheLaw fetcher cache [call, call'] := by
  intro hlaw
  have hold : NotOlder ((fetcherMachine fetcher).next cache call)
      ((fetcherMachine fetcher).next ((fetcherMachine fetcher).next cache call) call') :=
    hlaw.monotone [call] [call'] [] rfl
  rw [h', h] at hold
  obtain ⟨e, he, hle⟩ := hold _ _ (insert_self rfl)
  rw [insert_self ha] at he
  cases he
  exact absurd hle (not_le_of_gt hlt)

namespace Toy

/-- Agent 0's manifest, published at an instant. -/
def published (t : Timestamp) : Manifest :=
  manifest (agent 0) ["demo.echo"] ["demo.echo"] t

/-- A fetch, at 10, that is answered with the manifest of an instant. -/
def fetchPublished (t : Timestamp) : FetchAttempt :=
  ⟨.ok ⟨200, "application/json", utf8 (published t).wrapped.text⟩, 10⟩

theorem verifyManifest_published {t : Timestamp} (ht : t = 10 ∨ t = 0) :
    verifyManifest primitives (published t) ⟨10, false⟩ = .ok () := by
  rcases ht with rfl | rfl
  · exact verifyManifest_manifest 0 (by decide) (by decide) ⟨by decide, by decide⟩ (by decide)
  · exact verifyManifest_manifest 0 (by decide) (by decide) ⟨by decide, by decide⟩ (by decide)

theorem writable_published {n : ℕ} {t : Timestamp} (ht : t = 10 ∨ t = 0) :
    (published t).Writable primitives n := by
  rcases ht with rfl | rfl
  · exact ⟨show Timestamp.Fits 10 by decide,
      show Timestamp.Fits (Timestamp.saturatingAdd 10 defaultManifestTtl) by decide, .none⟩
  · exact writable_manifest

theorem next_fetchPublished {t : Timestamp} {maxBytes : ℕ} (ht : t = 10 ∨ t = 0)
    (hb : (utf8 (published t).wrapped.text).length ≤ maxBytes)
    (cache : ManifestCache primitives) :
    (fetcherMachine ⟨maxBytes, false⟩).next cache (.fetch [fetchPublished t]) =
      cache.insert ⟨published t, _, verifyManifest_published ht⟩ := by
  apply next_of_fetchAttempt
  apply fetchAttempt_wrapped readsText
  · exact writable_published ht
  · rfl
  · exact verifyManifest_published ht
  · exact hb

end Toy

/-- A manifest published at 10 is replaced by one published at 0. -/
theorem cacheLaw_older : ¬∀ (fetcher : ManifestFetcher) (cache : ManifestCache Toy.primitives)
    (calls : List (FetcherCall Toy.primitives)), CacheLaw fetcher cache calls := by
  intro h
  -- the limit is above the lengths of both bodies, which need not be computed
  obtain ⟨maxBytes, hb, hb'⟩ := exists_ge_ge (utf8 (Toy.published 10).wrapped.text).length
    (utf8 (Toy.published 0).wrapped.text).length
  refine not_cacheLaw_of_older (Toy.next_fetchPublished (.inl rfl) hb fun _ => none)
    (Toy.next_fetchPublished (.inr rfl) hb') rfl ?_ (h _ _ _)
  show (0 : Timestamp) < 10
  decide

end Aitp
