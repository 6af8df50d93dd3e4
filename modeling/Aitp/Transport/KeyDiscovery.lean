import Aitp.Handshake.Jwk
import Aitp.Json.Value

/-! # Finding the keys of an issuer

`JwksFetcher` of `transport/client.rs`: a discovery document names the location of an
issuer's keys, and where there is none they are looked for beside it. Both lie below the root of
the issuer's host, whatever its own path is.
-/

namespace Aitp

/-- A parsed URL. Under `https` its host is in lower case and its path begins with a slash. -/
@[ext] structure HttpUrl where
  scheme : String
  username : String
  password : Option String
  host : Option String
  port : Option ℕ
  path : List Char
  query : Option String
  fragment : Option String
  host_lower : scheme = "https" → ∀ h, host = some h → h.toLower = h
  path_slash : scheme = "https" → path.head? = some '/'
  deriving DecidableEq

/-- The two documents an issuer may publish. -/
inductive WellKnown where
  | openidConfiguration
  | aitpKeys
  deriving DecidableEq

/-- The reference that is joined to the URL of an issuer. -/
def WellKnown.path : WellKnown → List Char
  | openidConfiguration => "/.well-known/openid-configuration".toList
  | aitpKeys => "/.well-known/aitp-keys".toList

theorem WellKnown.head?_path (k : WellKnown) : k.path.head? = some '/' := by
  cases k <;> rfl

/-- A single trailing slash is dropped, but not the last one. -/
def stripSlash (path : List Char) : List Char :=
  if 1 < path.length ∧ path.getLast? = some '/' then path.dropLast else path

theorem head?_stripSlash {path : List Char} {c : Char} (h : path.head? = some c) :
    (stripSlash path).head? = some c := by
  unfold stripSlash
  split_ifs with hs
  · rw [List.head?_dropLast, if_pos hs.1, h]
  · exact h

namespace HttpUrl

variable (u : HttpUrl)

def normalizeIssuerUrl : HttpUrl :=
  { u with
    host := u.host.map String.toLower
    path := stripSlash u.path
    host_lower := by
      intro hs h hh
      obtain ⟨h', hh', rfl⟩ := Option.map_eq_some_iff.mp hh
      rw [u.host_lower hs h' hh', u.host_lower hs h' hh']
    path_slash := fun hs => head?_stripSlash (u.path_slash hs) }

/-- The document of the host, whatever the path is. -/
def atRoot (k : WellKnown) : HttpUrl :=
  { u with
    path := k.path
    query := none
    fragment := none
    path_slash := fun _ => k.head?_path }

/-- The URL with a path appended to its own. -/
def appended (k : WellKnown) : HttpUrl :=
  { u with
    path := (if u.path = ['/'] then [] else u.path) ++ k.path
    path_slash := by
      intro hs
      split_ifs
      · exact k.head?_path
      · rw [List.head?_append, u.path_slash hs]
        rfl }

end HttpUrl

/-- `Url` of the `url` crate. A reference that is an absolute path replaces the path of an `https`
URL, and what follows it. -/
structure UrlCrate where
  parse : String → Option HttpUrl
  join : HttpUrl → List Char → Option HttpUrl
  join_path : ∀ (u : HttpUrl) (k : WellKnown), u.scheme = "https" →
    join u k.path = some (u.atRoot k)

/-- `JwksFetcherError`, without message texts. -/
inductive JwksFetcherError where
  | insecureUrl
  | network
  | malformedJson
  | unsupportedJwk
  | oversizedResponse
  deriving DecidableEq

/-- A document that is asked for: one of an issuer's own, or the keys that discovery names. -/
inductive Fetch where
  | wellKnown (kind : WellKnown) (url : HttpUrl)
  | jwks (url : HttpUrl)
  deriving DecidableEq

def Fetch.url : Fetch → HttpUrl
  | wellKnown _ url => url
  | jwks url => url

structure DiscoveryCacheEntry where
  jwksUri : HttpUrl
  insertedAt : ℕ

abbrev DiscoveryCache := HttpUrl → Option DiscoveryCacheEntry

/-- The fetcher when a call is made: its cache, the instant, what the network answers to each
request, and how URLs and keys are parsed. -/
structure JwksFetcher where
  discoveryTtl : ℕ
  discoveryCache : DiscoveryCache
  now : ℕ
  network : Fetch → Except JwksFetcherError Json
  url : UrlCrate
  parseJwks : Json → Except JwksFetcherError (List JwkPublicKey)

namespace JwksFetcher

variable (fetcher : JwksFetcher) (issuer : HttpUrl)

def fetchHttpsJson (f : Fetch) : Except JwksFetcherError Json :=
  if f.url.scheme = "https" then fetcher.network f else .error .insecureUrl

/-- The unexpired cache entry. -/
def cachedUri : Option HttpUrl :=
  if fetcher.discoveryTtl = 0 then none
  else
    ((fetcher.discoveryCache issuer.normalizeIssuerUrl).filter fun e =>
      decide (fetcher.now - e.insertedAt < fetcher.discoveryTtl)).map DiscoveryCacheEntry.jwksUri

/-- The location of the keys that a discovery document names. -/
def readDiscovery (discovery : Json) : Except JwksFetcherError HttpUrl := do
  ifPresent (((discovery.get "issuer").bind Json.asStr).bind fetcher.url.parse) fun iss =>
    ensure (decide (iss.normalizeIssuerUrl = issuer.normalizeIssuerUrl)) .malformedJson
  let text ← okOr ((discovery.get "jwks_uri").bind Json.asStr) .malformedJson
  let url ← okOr (fetcher.url.parse text) .network
  ensure (decide (url.scheme = "https")) .insecureUrl
  return url

/-- `resolve_jwks_uri`, with the documents asked for and the cache it leaves. -/
def resolveJwksUri : Except JwksFetcherError HttpUrl × List Fetch × DiscoveryCache :=
  match fetcher.cachedUri issuer with
  | some uri => (.ok uri, [], fetcher.discoveryCache)
  | none =>
    let normalized := issuer.normalizeIssuerUrl
    match fetcher.url.join normalized WellKnown.openidConfiguration.path with
    | none => (.error .network, [], fetcher.discoveryCache)
    | some url =>
      let f : Fetch := .wellKnown .openidConfiguration url
      match fetcher.fetchHttpsJson f >>= fetcher.readDiscovery issuer with
      | .error e => (.error e, [f], fetcher.discoveryCache)
      | .ok uri =>
        (.ok uri, [f],
          if fetcher.discoveryTtl = 0 then fetcher.discoveryCache
          else Function.update fetcher.discoveryCache normalized (some ⟨uri, fetcher.now⟩))

/-- `resolve_via_aitp_keys`, with the documents asked for. -/
def resolveViaAitpKeys : Except JwksFetcherError (List JwkPublicKey) × List Fetch :=
  match fetcher.url.join issuer WellKnown.aitpKeys.path with
  | none => (.error .network, [])
  | some url =>
    let f : Fetch := .wellKnown .aitpKeys url
    (fetcher.fetchHttpsJson f >>= fetcher.parseJwks, [f])

/-- `JwksFetcher::resolve`, with the documents asked for and the cache it leaves. -/
def resolve : Except JwksFetcherError (List JwkPublicKey) × List Fetch × DiscoveryCache :=
  if issuer.scheme ≠ "https" then (.error .insecureUrl, [], fetcher.discoveryCache)
  else
    match fetcher.resolveJwksUri issuer with
    | (.ok uri, asked, cache) =>
      (fetcher.fetchHttpsJson (.jwks uri) >>= fetcher.parseJwks, asked ++ [.jwks uri], cache)
    | (.error e, asked, cache) =>
      match fetcher.resolveViaAitpKeys issuer with
      | (.ok keys, fallback) => (.ok keys, asked ++ fallback, cache)
      | (.error _, fallback) => (.error e, asked ++ fallback, cache)

/-- The documents asked for. -/
def asked : List Fetch :=
  (fetcher.resolve issuer).2.1

end JwksFetcher

/-! ## Whose documents are asked for -/

/-- The path is that of the host's root, and there is nothing after it. -/
structure HttpUrl.Rooted (u : HttpUrl) : Prop where
  path : stripSlash u.path = ['/']
  query : u.query = none
  fragment : u.fragment = none

/-- The issuer's documents are only asked for below its own URL. -/
def AsksBelow (u : HttpUrl) : Prop :=
  ∀ (fetcher : JwksFetcher) (k : WellKnown) (url : HttpUrl),
    .wellKnown k url ∈ fetcher.asked u → url = u.normalizeIssuerUrl.appended k

/-- Two issuers never have one document between them, and each has its own. -/
structure Isolated (a b : HttpUrl) : Prop where
  left : AsksBelow a
  right : AsksBelow b
  apart : ∀ (fetcher fetcher' : JwksFetcher) (k k' : WellKnown) (url : HttpUrl),
    .wellKnown k url ∈ fetcher.asked a → .wellKnown k' url ∉ fetcher'.asked b

variable {fetcher : JwksFetcher} {u a b : HttpUrl} {k : WellKnown}

theorem normalizeIssuerUrl_host (hs : u.scheme = "https") :
    u.normalizeIssuerUrl.host = u.host := by
  show u.host.map String.toLower = u.host
  cases hh : u.host with
  | none => rfl
  | some h => exact congrArg some (u.host_lower hs h hh)

theorem resolveViaAitpKeys_https (hs : u.scheme = "https") : fetcher.resolveViaAitpKeys u =
    (fetcher.network (.wellKnown .aitpKeys (u.atRoot .aitpKeys)) >>= fetcher.parseJwks,
      [.wellKnown .aitpKeys (u.atRoot .aitpKeys)]) := by
  have hfetch : fetcher.fetchHttpsJson (.wellKnown .aitpKeys (u.atRoot .aitpKeys)) =
      fetcher.network (.wellKnown .aitpKeys (u.atRoot .aitpKeys)) := if_pos hs
  simp only [JwksFetcher.resolveViaAitpKeys, fetcher.url.join_path u .aitpKeys hs, hfetch]

theorem asked_resolveJwksUri (hs : u.scheme = "https") :
    (fetcher.resolveJwksUri u).2.1 = if (fetcher.cachedUri u).isSome then [] else
      [.wellKnown .openidConfiguration (u.normalizeIssuerUrl.atRoot .openidConfiguration)] := by
  unfold JwksFetcher.resolveJwksUri
  cases fetcher.cachedUri u with
  | some uri => rfl
  | none =>
    simp only [fetcher.url.join_path u.normalizeIssuerUrl .openidConfiguration hs]
    split <;> rfl

theorem eq_of_mem_asked (hs : u.scheme = "https") {url : HttpUrl}
    (h : .wellKnown k url ∈ fetcher.asked u) : url = u.normalizeIssuerUrl.atRoot k := by
  have hjoin : u.atRoot k = u.normalizeIssuerUrl.atRoot k := by
    ext1
    all_goals first | rfl | exact (normalizeIssuerUrl_host hs).symm
  have hdiscovery : ∀ f ∈ (fetcher.resolveJwksUri u).2.1,
      f = .wellKnown .openidConfiguration (u.normalizeIssuerUrl.atRoot .openidConfiguration) := by
    rw [asked_resolveJwksUri hs]
    split
    · exact nofun
    · exact fun f hf => List.mem_singleton.mp hf
  unfold JwksFetcher.asked JwksFetcher.resolve at h
  rw [if_neg (not_not_intro hs)] at h
  split at h
  · next hr =>
    rw [hr] at hdiscovery
    rcases List.mem_append.mp h with h | h
    · cases hdiscovery _ h
      rfl
    · cases List.mem_singleton.mp h
  · next e asked cache hr =>
    rw [hr] at hdiscovery
    have hm : .wellKnown k url ∈ asked ++ [Fetch.wellKnown .aitpKeys (u.atRoot .aitpKeys)] := by
      rw [resolveViaAitpKeys_https hs] at h
      split at h
      · next ht =>
        obtain ⟨-, rfl⟩ := Prod.mk.inj ht
        exact h
      · next ht =>
        obtain ⟨-, rfl⟩ := Prod.mk.inj ht
        exact h
    rcases List.mem_append.mp hm with h | h
    · cases hdiscovery _ h
      rfl
    · cases List.mem_singleton.mp h
      exact hjoin

/-- Without discovery, both documents are asked for. -/
theorem resolve_of_no_discovery {e : JwksFetcherError} (hs : u.scheme = "https")
    (hc : fetcher.cachedUri u = none)
    (hd : fetcher.network
      (.wellKnown .openidConfiguration (u.normalizeIssuerUrl.atRoot .openidConfiguration)) =
        .error e) :
    fetcher.resolve u =
      (match fetcher.network (.wellKnown .aitpKeys (u.atRoot .aitpKeys)) >>= fetcher.parseJwks with
        | .ok keys => .ok keys
        | .error _ => .error e,
      [.wellKnown .openidConfiguration (u.normalizeIssuerUrl.atRoot .openidConfiguration),
        .wellKnown .aitpKeys (u.atRoot .aitpKeys)],
      fetcher.discoveryCache) := by
  have huri : fetcher.resolveJwksUri u = (.error e,
      [.wellKnown .openidConfiguration (u.normalizeIssuerUrl.atRoot .openidConfiguration)],
      fetcher.discoveryCache) := by
    have hfetch : fetcher.fetchHttpsJson (.wellKnown .openidConfiguration
        (u.normalizeIssuerUrl.atRoot .openidConfiguration)) = .error e := (if_pos hs).trans hd
    unfold JwksFetcher.resolveJwksUri
    simp only [hc, fetcher.url.join_path u.normalizeIssuerUrl .openidConfiguration hs, hfetch,
      error_bind]
  unfold JwksFetcher.resolve
  rw [if_neg (not_not_intro hs), huri, resolveViaAitpKeys_https hs]
  simp only
  split
  · next ht =>
    obtain ⟨hk, rfl⟩ := Prod.mk.inj ht
    rw [hk]
    rfl
  · next ht =>
    obtain ⟨hk, rfl⟩ := Prod.mk.inj ht
    rw [hk]
    rfl

/-- URLs that are joined, and not parsed. -/
def UrlCrate.joining : UrlCrate where
  parse := fun _ => none
  join := fun u path =>
    if h : path.head? = some '/' then
      some { u with path := path, query := none, fragment := none, path_slash := fun _ => h }
    else none
  join_path := fun _ k _ => dif_pos k.head?_path

/-- A fetcher with an empty cache and no network. -/
def JwksFetcher.silent : JwksFetcher where
  discoveryTtl := 0
  discoveryCache := fun _ => none
  now := 0
  network := fun _ => .error .network
  url := .joining
  parseJwks := fun _ => .error .malformedJson

theorem mem_asked_silent (hs : u.scheme = "https") :
    .wellKnown .openidConfiguration (u.normalizeIssuerUrl.atRoot .openidConfiguration) ∈
      JwksFetcher.silent.asked u := by
  have hc : JwksFetcher.silent.cachedUri u = none := if_pos rfl
  rw [JwksFetcher.asked, resolve_of_no_discovery hs hc rfl]
  exact List.mem_cons_self

theorem atRoot_eq_appended_iff (hs : u.scheme = "https") :
    u.normalizeIssuerUrl.atRoot k = u.normalizeIssuerUrl.appended k ↔ u.Rooted := by
  constructor
  · intro h
    have hpath : k.path = (if stripSlash u.path = ['/'] then [] else stripSlash u.path) ++ k.path :=
      congrArg HttpUrl.path h
    refine ⟨?_, (congrArg HttpUrl.query h).symm, (congrArg HttpUrl.fragment h).symm⟩
    by_contra hne
    rw [if_neg hne, List.self_eq_append_left] at hpath
    have hslash := head?_stripSlash (u.path_slash hs)
    rw [hpath] at hslash
    cases hslash
  · rintro ⟨hpath, hq, hf⟩
    have hroot : (if stripSlash u.path = ['/'] then [] else stripSlash u.path) ++ k.path =
        k.path := by
      rw [if_pos hpath, List.nil_append]
    ext1
    case path => exact hroot.symm
    case query => exact hq.symm
    case fragment => exact hf.symm
    all_goals rfl

theorem asksBelow_iff (hs : u.scheme = "https") : AsksBelow u ↔ u.Rooted := by
  constructor
  · intro h
    exact (atRoot_eq_appended_iff hs).mp (h _ _ _ (mem_asked_silent hs))
  · intro hr fetcher k url hm
    rw [eq_of_mem_asked hs hm]
    exact (atRoot_eq_appended_iff hs).mpr hr

theorem atRoot_ne_atRoot (ha : a.Rooted) (hb : b.Rooted)
    (hne : a.normalizeIssuerUrl ≠ b.normalizeIssuerUrl) (k k' : WellKnown) :
    a.normalizeIssuerUrl.atRoot k ≠ b.normalizeIssuerUrl.atRoot k' := by
  intro h
  apply hne
  obtain ⟨hscheme, huser, hpassword, hhost, hport, -, -, -⟩ := HttpUrl.ext_iff.mp h
  apply HttpUrl.ext
  · exact hscheme
  · exact huser
  · exact hpassword
  · exact hhost
  · exact hport
  · exact ha.path.trans hb.path.symm
  · exact ha.query.trans hb.query.symm
  · exact ha.fragment.trans hb.fragment.symm

/-- Two `https` issuers that differ when normalised are isolated exactly when both are the root of
their host. -/
theorem isolated_iff (ha : a.scheme = "https") (hb : b.scheme = "https")
    (hne : a.normalizeIssuerUrl ≠ b.normalizeIssuerUrl) :
    Isolated a b ↔ a.Rooted ∧ b.Rooted := by
  constructor
  · intro h
    exact ⟨(asksBelow_iff ha).mp h.left, (asksBelow_iff hb).mp h.right⟩
  · rintro ⟨hra, hrb⟩
    refine ⟨(asksBelow_iff ha).mpr hra, (asksBelow_iff hb).mpr hrb, ?_⟩
    intro fetcher fetcher' k k' url hm hm'
    exact atRoot_ne_atRoot hra hrb hne k k' ((eq_of_mem_asked ha hm).symm.trans (eq_of_mem_asked hb hm'))

namespace Toy

def httpsUrl (host : String) (path : List Char) (hh : host.toLower = host) : HttpUrl where
  scheme := "https"
  username := ""
  password := none
  host := some host
  port := none
  path := '/' :: path
  query := none
  fragment := none
  host_lower := by
    rintro - h ⟨⟩
    exact hh
  path_slash := fun _ => rfl

/-- Two issuers on one host. -/
def realm (name : Char) : HttpUrl := httpsUrl "idp.example" [name] (by decide +kernel)

/-- Two hosts. -/
def idp (host : Bool) : HttpUrl :=
  httpsUrl (if host then "a.example" else "b.example") [] (by cases host <;> decide +kernel)

def publishedKey : JwkPublicKey := ⟨some "a", some .edDsa, .ed25519 (List.replicate 32 0)⟩

/-- The network answers to one request, for the keys of the realm `a`. -/
def realmFetcher : JwksFetcher :=
  { JwksFetcher.silent with
    network := fun f =>
      if f = .wellKnown .aitpKeys ((realm 'a').atRoot .aitpKeys) then .ok (.obj [])
      else .error .network
    parseJwks := fun _ => .ok [publishedKey] }

theorem atRoot_realm (name : Char) (k : WellKnown) : (realm name).atRoot k = (realm 'a').atRoot k :=
  rfl

theorem resolve_realm (name : Char) : realmFetcher.resolve (realm name) =
    (.ok [publishedKey],
      [.wellKnown .openidConfiguration ((realm name).normalizeIssuerUrl.atRoot .openidConfiguration),
        .wellKnown .aitpKeys ((realm 'a').atRoot .aitpKeys)], realmFetcher.discoveryCache) := by
  have hc : realmFetcher.cachedUri (realm name) = none := if_pos rfl
  have hd : realmFetcher.network (.wellKnown .openidConfiguration
      ((realm name).normalizeIssuerUrl.atRoot .openidConfiguration)) = .error .network := by
    simp [realmFetcher]
  have hk : realmFetcher.network (.wellKnown .aitpKeys ((realm name).atRoot .aitpKeys)) =
      .ok (.obj []) := by
    rw [atRoot_realm]
    simp [realmFetcher]
  rw [resolve_of_no_discovery rfl hc hd, hk]
  rfl

end Toy

/-- Two hosts are isolated. -/
theorem isolated_iff_idp : Isolated (Toy.idp true) (Toy.idp false) := by
  have hne : (Toy.idp true).normalizeIssuerUrl ≠ (Toy.idp false).normalizeIssuerUrl := by
    intro h
    have hhost := congrArg HttpUrl.host h
    exact absurd hhost (by decide +kernel)
  exact (isolated_iff rfl rfl hne).mpr ⟨⟨rfl, rfl, rfl⟩, ⟨rfl, rfl, rfl⟩⟩

/-- Two realms of one host are not: the keys of one are returned as those of the other. -/
theorem realms_share_keys :
    (Toy.realm 'a').normalizeIssuerUrl ≠ (Toy.realm 'b').normalizeIssuerUrl ∧
      ¬Isolated (Toy.realm 'a') (Toy.realm 'b') ∧
      Fetch.wellKnown .aitpKeys ((Toy.realm 'a').atRoot .aitpKeys) ∈
        Toy.realmFetcher.asked (Toy.realm 'b') ∧
      (Toy.realmFetcher.resolve (Toy.realm 'b')).1 = .ok [Toy.publishedKey] := by
  refine ⟨?_, ?_, ?_, ?_⟩
  · intro h
    have hpath := congrArg HttpUrl.path h
    exact absurd hpath (by decide)
  · intro h
    have hpath := ((asksBelow_iff rfl).mp h.left).path
    exact absurd hpath (by decide)
  · rw [JwksFetcher.asked, Toy.resolve_realm]
    exact List.mem_cons_of_mem _ List.mem_cons_self
  · rw [Toy.resolve_realm]

end Aitp
