import Aitp.Foundation.Transition
import Aitp.Handshake.Jwk
import Aitp.Transport.ReplayStore

/-! # Resolving the keys of an issuer

`transport/key_resolution.rs`: a cache of keys, a cache of failures and a store of pinned
keys are asked in this order. Only `prefetch` asks the network, and what it answers there is an
input of the event that ends it. The clock is read once for an event.
-/

namespace Aitp

open Transition

deriving instance DecidableEq for Url

inductive KeyResolutionFailMode where
  | failClosed
  | failOpen
  | softFail (safeGrants : List String)
  deriving DecidableEq

/-- The `ResolveError`s of a policy. -/
inductive ResolveError where
  | networkError (reason : String)
  | noPinnedKeys
  | softFailRequiresOutcome
  deriving DecidableEq

inductive KeyResolutionOutcome where
  | resolved (keys : List JwkPublicKey)
  | softFailDegraded (safeGrants : List String)

/-- `CacheEntry` of the key cache. -/
structure KeyCacheEntry where
  keys : List JwkPublicKey
  expiresAt : ℕ

structure NegativeCacheEntry where
  message : String
  expiresAt : ℕ

/-- What a `KeyResolutionPolicy` is built with; `fetcher` says whether one is set. -/
structure KeyResolutionPolicy where
  pinned : Option (Url → Option (List JwkPublicKey))
  fetcher : Bool
  cacheTtl : ℕ := 600 * nanosPerSec
  negativeCacheTtl : ℕ := 30 * nanosPerSec
  failMode : KeyResolutionFailMode := .failClosed
  offline : Bool := false

/-- The two caches of a `KeyResolutionPolicy`. -/
structure KeyCaches where
  cache : Url → Option KeyCacheEntry
  negativeCache : Url → Option NegativeCacheEntry

/-- `Instant + Duration`, which panics past the last instant. -/
def instantAdd (now ttl : ℕ) : Option ℕ :=
  if now + ttl ≤ instantMax then some (now + ttl) else none

namespace KeyCaches

variable (caches : KeyCaches) (issuer : Url) (now : ℕ)

def cached : Option (List JwkPublicKey) :=
  ((caches.cache issuer).filter fun e => decide (now < e.expiresAt)).map KeyCacheEntry.keys

/-- The failures kept when another is stored. -/
def retainFailures : Url → Option NegativeCacheEntry := fun url =>
  (caches.negativeCache url).filter fun e => decide (now < e.expiresAt)

end KeyCaches

namespace KeyResolutionPolicy

variable (policy : KeyResolutionPolicy) (caches : KeyCaches) (issuer : Url) (now : ℕ)

/-- The pinned keys of an issuer. -/
def pinnedKeys : Option (List JwkPublicKey) :=
  policy.pinned.bind fun store => store issuer

/-- `store`; `none` is a panic, which leaves the caches as they were. -/
def store (keys : List JwkPublicKey) : Option KeyCaches :=
  (instantAdd now policy.cacheTtl).map fun expiresAt =>
    { cache := Function.update caches.cache issuer (some ⟨keys, expiresAt⟩)
      negativeCache :=
        if 0 < policy.negativeCacheTtl then Function.update caches.negativeCache issuer none
        else caches.negativeCache }

def cachedFailure : Option String :=
  if policy.negativeCacheTtl = 0 then none
  else
    ((caches.negativeCache issuer).filter fun e => decide (now < e.expiresAt)).map
      NegativeCacheEntry.message

/-- `store_failure`; it panics, if it does, after the old failures are gone. -/
def storeFailure (message : String) : KeyCaches :=
  if policy.negativeCacheTtl = 0 then caches
  else
    match instantAdd now policy.negativeCacheTtl with
    | some expiresAt =>
      { caches with
        negativeCache :=
          Function.update (caches.retainFailures now) issuer (some ⟨message, expiresAt⟩) }
    | none => { caches with negativeCache := caches.retainFailures now }

def applyFailMode (reason : String) : Except ResolveError (List JwkPublicKey) :=
  match policy.failMode with
  | .failClosed =>
    .error (.networkError
      ("key resolution exhausted all sources for " ++ issuer.text ++ ": " ++ reason))
  | .failOpen => .ok []
  | .softFail safeGrants =>
    if safeGrants.isEmpty then .error .noPinnedKeys else .error .softFailRequiresOutcome

/-- `resolve_local`: an answer, if the caches or the pinned keys have one, unless it panics. -/
def resolveLocal : Option (Option (Except ResolveError (List JwkPublicKey)) × KeyCaches) :=
  match caches.cached issuer now with
  | some keys => some (some (.ok keys), caches)
  | none =>
    match policy.cachedFailure caches issuer now with
    | some message =>
      some (some (policy.applyFailMode issuer ("negative-cached: " ++ message)), caches)
    | none =>
      match policy.pinnedKeys issuer with
      | some keys => (policy.store caches issuer now keys).map fun c => (some (.ok keys), c)
      | none => some (none, caches)

/-- Why an issuer that is neither cached nor pinned has no keys. -/
def missReason : String :=
  if policy.offline then "offline mode and no pinned keys"
  else if !policy.fetcher then "no JwksFetcher configured for network resolution"
  else "issuer keys are not cached; JwksResolver::prefetch fetches them"

/-- `JwksResolver::resolve`; `none` is a panic. -/
def resolve : Option (Except ResolveError (List JwkPublicKey) × KeyCaches) :=
  (policy.resolveLocal caches issuer now).map fun (answer, c) =>
    (answer.getD (policy.applyFailMode issuer policy.missReason), c)

/-- `resolve_outcome`; `none` is a panic. -/
def resolveOutcome : Option (Except ResolveError KeyResolutionOutcome × KeyCaches) :=
  (policy.resolve caches issuer now).map fun (answer, c) =>
    match answer with
    | .ok keys => (.ok (.resolved keys), c)
    | .error .softFailRequiresOutcome =>
      match policy.failMode with
      | .softFail safeGrants =>
        if safeGrants.isEmpty then (.error .softFailRequiresOutcome, c)
        else (.ok (.softFailDegraded safeGrants), c)
      | _ => (.error .softFailRequiresOutcome, c)
    | .error e => (.error e, c)

end KeyResolutionPolicy

/-! ## Runs -/

/-- The caches, the issuers whose keys `prefetch` is waiting for, and the issuers whose keys were
fetched and stored, with the instant of each. -/
structure KeyWorld where
  caches : KeyCaches
  pending : List Url
  fetched : List (Url × ℕ)

/-- `resolve` or `resolve_outcome` is called, `prefetch` is called, or the network answers it. -/
inductive KeyEvent where
  | resolve (issuer : Url) (now : ℕ)
  | prefetch (issuer : Url) (now : ℕ)
  | answer (issuer : Url) (now : ℕ) (keys : Except String (List JwkPublicKey))

section

variable (policy : KeyResolutionPolicy)

/-- A `prefetch` before it has waited: it asks the network only if nothing else answers. -/
def KeyWorld.startPrefetch (w : KeyWorld) (issuer : Url) (now : ℕ) : KeyWorld :=
  match policy.resolveLocal w.caches issuer now with
  | some (some _, caches) => { w with caches := caches }
  | some (none, caches) =>
    if policy.offline || !policy.fetcher then { w with caches := caches }
    else { w with caches := caches, pending := issuer :: w.pending }
  | none => w

/-- A `prefetch` after it has waited. -/
def KeyWorld.endPrefetch (w : KeyWorld) (issuer : Url) (now : ℕ)
    (keys : Except String (List JwkPublicKey)) : KeyWorld :=
  let pending := w.pending.erase issuer
  match keys with
  | .ok keys =>
    match policy.store w.caches issuer now keys with
    | some caches => ⟨caches, pending, (issuer, now) :: w.fetched⟩
    | none => { w with pending := pending }
  | .error message =>
    { w with caches := policy.storeFailure w.caches issuer now message, pending := pending }

/-- Any number of calls, at any instants, with any answers of the network. -/
def keySystem : System KeyWorld KeyEvent where
  init w := w = ⟨⟨fun _ => none, fun _ => none⟩, [], []⟩
  step w e w' :=
    match e with
    | .resolve issuer now =>
      w' = { w with caches := ((policy.resolve w.caches issuer now).map Prod.snd).getD w.caches }
    | .prefetch issuer now => w' = w.startPrefetch policy issuer now
    | .answer issuer now keys => issuer ∈ w.pending ∧ w' = w.endPrefetch policy issuer now keys

end

variable {policy : KeyResolutionPolicy} {caches caches' : KeyCaches} {issuer : Url} {now : ℕ}
  {fetched fetched' : List (Url × ℕ)} {w : KeyWorld}

/-- A pinned issuer is cached only under its pinned keys and never as a failure. Another one is
cached only from the instant at which its keys were fetched. -/
structure KeyCaches.Faithful (policy : KeyResolutionPolicy) (fetched : List (Url × ℕ))
    (caches : KeyCaches) : Prop where
  pinned : ∀ url keys e, policy.pinnedKeys url = some keys → caches.cache url = some e →
    e.keys = keys
  failure : ∀ url keys, policy.pinnedKeys url = some keys → caches.negativeCache url = none
  fetched : ∀ url e, policy.pinnedKeys url = none → caches.cache url = some e →
    ∃ t, (url, t) ∈ fetched ∧ e.expiresAt = t + policy.cacheTtl

theorem instantAdd_eq_some {ttl t : ℕ} :
    instantAdd now ttl = some t ↔ now + ttl ≤ instantMax ∧ t = now + ttl := by
  rw [instantAdd, Option.ite_none_right_eq_some, Option.some.injEq, eq_comm (a := t)]

theorem store_eq_some {keys : List JwkPublicKey}
    (h : policy.store caches issuer now keys = some caches') :
    caches' = {
      cache := Function.update caches.cache issuer (some ⟨keys, now + policy.cacheTtl⟩)
      negativeCache :=
        if 0 < policy.negativeCacheTtl then Function.update caches.negativeCache issuer none
        else caches.negativeCache } := by
  obtain ⟨expiresAt, he, rfl⟩ := Option.map_eq_some_iff.mp h
  obtain ⟨-, rfl⟩ := instantAdd_eq_some.mp he
  rfl

theorem KeyCaches.Faithful.store (hf : caches.Faithful policy fetched) {keys : List JwkPublicKey}
    (hkeys : ∀ pinned, policy.pinnedKeys issuer = some pinned → keys = pinned)
    (hfetched : policy.pinnedKeys issuer = none → (issuer, now) ∈ fetched')
    (hsub : fetched ⊆ fetched') (h : policy.store caches issuer now keys = some caches') :
    caches'.Faithful policy fetched' := by
  obtain rfl := store_eq_some h
  constructor
  · intro url pinned e hp he
    simp only at he
    by_cases hu : url = issuer
    · subst hu
      rw [Function.update_self] at he
      cases he
      exact hkeys pinned hp
    · rw [Function.update_of_ne hu] at he
      exact hf.pinned url pinned e hp he
  · intro url pinned hp
    have hnone := hf.failure url pinned hp
    simp only
    split_ifs
    · by_cases hu : url = issuer
      · rw [hu, Function.update_self]
      · rw [Function.update_of_ne hu, hnone]
    · exact hnone
  · intro url e hp he
    simp only at he
    by_cases hu : url = issuer
    · subst hu
      rw [Function.update_self] at he
      cases he
      exact ⟨now, hfetched hp, rfl⟩
    · rw [Function.update_of_ne hu] at he
      obtain ⟨t, ht, he⟩ := hf.fetched url e hp he
      exact ⟨t, hsub ht, he⟩

theorem KeyCaches.Faithful.storeFailure (hf : caches.Faithful policy fetched) {message : String}
    (hp : policy.pinnedKeys issuer = none) :
    (policy.storeFailure caches issuer now message).Faithful policy fetched := by
  have hretain : ∀ url keys, policy.pinnedKeys url = some keys →
      caches.retainFailures now url = none := by
    intro url keys hk
    rw [KeyCaches.retainFailures, hf.failure url keys hk, Option.filter_none]
  unfold KeyResolutionPolicy.storeFailure
  split_ifs
  · exact hf
  · cases instantAdd now policy.negativeCacheTtl with
    | none => exact ⟨hf.pinned, hretain, hf.fetched⟩
    | some expiresAt =>
      refine ⟨hf.pinned, ?_, hf.fetched⟩
      intro url keys hk
      have hne : url ≠ issuer := by
        rintro rfl
        rw [hp] at hk
        cases hk
      exact (Function.update_of_ne hne ..).trans (hretain url keys hk)

/-- What `resolve_local` can do. -/
theorem resolveLocal_cases (policy : KeyResolutionPolicy) (caches : KeyCaches) (issuer : Url)
    (now : ℕ) :
    (∃ keys, caches.cached issuer now = some keys ∧
        policy.resolveLocal caches issuer now = some (some (.ok keys), caches)) ∨
      caches.cached issuer now = none ∧
        ((∃ message, policy.cachedFailure caches issuer now = some message ∧
            policy.resolveLocal caches issuer now =
              some (some (policy.applyFailMode issuer ("negative-cached: " ++ message)),
                caches)) ∨
          (∃ keys, policy.pinnedKeys issuer = some keys ∧
            policy.resolveLocal caches issuer now =
              (policy.store caches issuer now keys).map fun c => (some (.ok keys), c)) ∨
          policy.pinnedKeys issuer = none ∧
            policy.resolveLocal caches issuer now = some (none, caches)) := by
  unfold KeyResolutionPolicy.resolveLocal
  cases caches.cached issuer now with
  | some keys => exact .inl ⟨keys, rfl, rfl⟩
  | none =>
    refine .inr ⟨rfl, ?_⟩
    cases policy.cachedFailure caches issuer now with
    | some message => exact .inl ⟨message, rfl, rfl⟩
    | none =>
      cases policy.pinnedKeys issuer with
      | some keys => exact .inr (.inl ⟨keys, rfl, rfl⟩)
      | none => exact .inr (.inr ⟨rfl, rfl⟩)

theorem KeyCaches.Faithful.resolveLocal (hf : caches.Faithful policy fetched)
    {answer : Option (Except ResolveError (List JwkPublicKey))}
    (h : policy.resolveLocal caches issuer now = some (answer, caches')) :
    caches'.Faithful policy fetched ∧ (answer = none → policy.pinnedKeys issuer = none) := by
  rcases resolveLocal_cases policy caches issuer now with
    ⟨keys, -, hr⟩ | ⟨-, ⟨message, -, hr⟩ | ⟨keys, hp, hr⟩ | ⟨hp, hr⟩⟩
  · cases hr.symm.trans h
    exact ⟨hf, nofun⟩
  · cases hr.symm.trans h
    exact ⟨hf, nofun⟩
  · rw [hr] at h
    obtain ⟨c, hc, he⟩ := Option.map_eq_some_iff.mp h
    cases he
    refine ⟨hf.store ?_ ?_ (List.Subset.refl _) hc, nofun⟩
    · intro pinned hp'
      exact Option.some.inj (hp.symm.trans hp')
    · intro hnone
      rw [hp] at hnone
      cases hnone
  · cases hr.symm.trans h
    exact ⟨hf, fun _ => hp⟩

theorem faithful_of_reachable (h : (keySystem policy).Reachable w) :
    w.caches.Faithful policy w.fetched ∧
      ∀ url ∈ w.pending, policy.pinnedKeys url = none := by
  induction h with
  | init h =>
    obtain rfl := h
    exact ⟨⟨nofun, fun _ _ _ => rfl, nofun⟩, nofun⟩
  | @step w e w' _ h ih =>
    obtain ⟨hf, hp⟩ := ih
    cases e with
    | resolve url now =>
      obtain rfl := h
      refine ⟨?_, hp⟩
      simp only
      cases hr : policy.resolveLocal w.caches url now with
      | none => simpa [KeyResolutionPolicy.resolve, hr] using hf
      | some r => simpa [KeyResolutionPolicy.resolve, hr] using (hf.resolveLocal hr).1
    | prefetch url now =>
      obtain rfl := h
      unfold KeyWorld.startPrefetch
      cases hr : policy.resolveLocal w.caches url now with
      | none => exact ⟨hf, hp⟩
      | some r =>
        obtain ⟨answer, caches'⟩ := r
        obtain ⟨hf', hnone⟩ := hf.resolveLocal hr
        cases answer with
        | some _ => exact ⟨hf', hp⟩
        | none =>
          simp only
          split_ifs
          · exact ⟨hf', hp⟩
          · exact ⟨hf', List.forall_mem_cons.mpr ⟨hnone rfl, hp⟩⟩
    | answer url now keys =>
      obtain ⟨hmem, rfl⟩ := h
      have hnone := hp url hmem
      have hp' : ∀ u ∈ w.pending.erase url, policy.pinnedKeys u = none :=
        fun u hu => hp u (List.mem_of_mem_erase hu)
      unfold KeyWorld.endPrefetch
      cases keys with
      | error message => exact ⟨hf.storeFailure hnone, hp'⟩
      | ok keys =>
        simp only
        cases hs : policy.store w.caches url now keys with
        | none => exact ⟨hf, hp'⟩
        | some caches' =>
          refine ⟨hf.store ?_ ?_ (List.subset_cons_self _ _) hs, hp'⟩
          · intro pinned hp
            rw [hnone] at hp
            cases hp
          · exact fun _ => List.mem_cons_self

/-! ## The answers -/

/-- What the configured fail mode answers to `resolve` and to `resolve_outcome`. -/
def TakesFailMode (mode : KeyResolutionFailMode)
    (answer : Option (Except ResolveError (List JwkPublicKey)))
    (outcome : Option (Except ResolveError KeyResolutionOutcome)) : Prop :=
  match mode with
  | .failClosed => ∃ reason, answer = some (.error (.networkError reason)) ∧
      outcome = some (.error (.networkError reason))
  | .failOpen => answer = some (.ok []) ∧ outcome = some (.ok (.resolved []))
  | .softFail [] => answer = some (.error .noPinnedKeys) ∧ outcome = some (.error .noPinnedKeys)
  | .softFail safeGrants => answer = some (.error .softFailRequiresOutcome) ∧
      outcome = some (.ok (.softFailDegraded safeGrants))

/-- A pinned issuer has its pinned keys, and an issuer that is neither pinned nor was fetched while
a cache entry lasts gets the fail mode. -/
structure KeyLaw (policy : KeyResolutionPolicy) (w : KeyWorld) (issuer : Url) (now : ℕ) :
    Prop where
  pinned : ∀ keys, policy.pinnedKeys issuer = some keys →
    (policy.resolve w.caches issuer now).map Prod.fst = some (.ok keys)
  missing : policy.pinnedKeys issuer = none →
    (∀ t, (issuer, t) ∈ w.fetched → t + policy.cacheTtl ≤ now) →
      TakesFailMode policy.failMode ((policy.resolve w.caches issuer now).map Prod.fst)
        ((policy.resolveOutcome w.caches issuer now).map Prod.fst)

theorem cached_eq_some {keys : List JwkPublicKey} : caches.cached issuer now = some keys ↔
    ∃ e, caches.cache issuer = some e ∧ now < e.expiresAt ∧ e.keys = keys := by
  simp only [KeyCaches.cached, Option.map_eq_some_iff, Option.filter_eq_some_iff,
    decide_eq_true_eq, and_assoc]

theorem cachedFailure_of_pinned (hf : caches.Faithful policy fetched) {keys : List JwkPublicKey}
    (hp : policy.pinnedKeys issuer = some keys) :
    policy.cachedFailure caches issuer now = none := by
  unfold KeyResolutionPolicy.cachedFailure
  split_ifs
  · rfl
  · rw [hf.failure issuer keys hp]
    rfl

theorem resolve_pinned_iff (hf : caches.Faithful policy fetched) {keys : List JwkPublicKey}
    (hp : policy.pinnedKeys issuer = some keys) :
    (policy.resolve caches issuer now).map Prod.fst = some (.ok keys) ↔
      (caches.cached issuer now).isSome = true ∨ now + policy.cacheTtl ≤ instantMax := by
  unfold KeyResolutionPolicy.resolve
  rcases resolveLocal_cases policy caches issuer now with
    ⟨cached, hc, hr⟩ | ⟨hc, ⟨message, hm, -⟩ | ⟨pinned, hp', hr⟩ | ⟨hp', -⟩⟩
  · obtain ⟨e, he, -, rfl⟩ := cached_eq_some.mp hc
    rw [hr, hc, hf.pinned issuer keys e hp he]
    exact iff_of_true rfl (.inl rfl)
  · rw [cachedFailure_of_pinned hf hp] at hm
    cases hm
  · obtain rfl := Option.some.inj (hp.symm.trans hp')
    rw [hr, hc, KeyResolutionPolicy.store, instantAdd]
    by_cases hle : now + policy.cacheTtl ≤ instantMax
    · rw [if_pos hle]
      exact iff_of_true rfl (.inr hle)
    · rw [if_neg hle]
      exact iff_of_false nofun (fun h => h.elim nofun hle)
  · rw [hp] at hp'
    cases hp'

theorem takesFailMode_of_resolve (reason : String)
    (h : policy.resolve caches issuer now =
      some (policy.applyFailMode issuer reason, caches')) :
    TakesFailMode policy.failMode ((policy.resolve caches issuer now).map Prod.fst)
      ((policy.resolveOutcome caches issuer now).map Prod.fst) := by
  unfold KeyResolutionPolicy.resolveOutcome
  rw [h]
  unfold KeyResolutionPolicy.applyFailMode
  cases policy.failMode with
  | failClosed => exact ⟨_, rfl, rfl⟩
  | failOpen => exact ⟨rfl, rfl⟩
  | softFail safeGrants =>
    cases safeGrants with
    | nil => exact ⟨rfl, rfl⟩
    | cons => exact ⟨rfl, rfl⟩

/-- An issuer that is neither pinned nor recently fetched gets the fail mode. -/
theorem takesFailMode_of_missing (hf : caches.Faithful policy fetched)
    (hp : policy.pinnedKeys issuer = none)
    (ht : ∀ t, (issuer, t) ∈ fetched → t + policy.cacheTtl ≤ now) :
    TakesFailMode policy.failMode ((policy.resolve caches issuer now).map Prod.fst)
      ((policy.resolveOutcome caches issuer now).map Prod.fst) := by
  rcases resolveLocal_cases policy caches issuer now with
    ⟨cached, hc, -⟩ | ⟨-, ⟨message, -, hr⟩ | ⟨pinned, hp', -⟩ | ⟨-, hr⟩⟩
  · obtain ⟨e, he, hlt, -⟩ := cached_eq_some.mp hc
    obtain ⟨t, hm, hexp⟩ := hf.fetched issuer e hp he
    have hle := ht t hm
    omega
  · exact takesFailMode_of_resolve ("negative-cached: " ++ message)
      (by rw [KeyResolutionPolicy.resolve, hr]; rfl)
  · rw [hp] at hp'
    cases hp'
  · exact takesFailMode_of_resolve policy.missReason
      (by rw [KeyResolutionPolicy.resolve, hr]; rfl)

/-- After any calls and any answers of the network, the law of key resolution holds exactly where
a pinned issuer is cached, or can be. -/
theorem keyLaw_iff (h : (keySystem policy).Reachable w) :
    KeyLaw policy w issuer now ↔
      policy.pinnedKeys issuer = none ∨ (w.caches.cached issuer now).isSome = true ∨
        now + policy.cacheTtl ≤ instantMax := by
  obtain ⟨hf, -⟩ := faithful_of_reachable h
  constructor
  · intro hlaw
    cases hp : policy.pinnedKeys issuer with
    | none => exact .inl rfl
    | some keys => exact .inr ((resolve_pinned_iff hf hp).mp (hlaw.pinned keys hp))
  · intro hc
    constructor
    · intro keys hp
      apply (resolve_pinned_iff hf hp).mpr
      rw [hp] at hc
      exact hc.resolve_left nofun
    · exact takesFailMode_of_missing hf

namespace Toy

def keyIssuer : Url := ⟨"https://idp.example.com/", some "idp.example.com"⟩

def issuerKey : JwkPublicKey := ⟨some "k1", some .edDsa, .ed25519 (List.replicate 32 0)⟩

/-- One pinned issuer, whose key is cached for so long. -/
def pinningPolicy (cacheTtl : ℕ) : KeyResolutionPolicy where
  pinned := some fun url => if url = keyIssuer then some [issuerKey] else none
  fetcher := true
  cacheTtl := cacheTtl

def newKeyWorld : KeyWorld := ⟨⟨fun _ => none, fun _ => none⟩, [], []⟩

end Toy

/-- Keys cached for a minute are those pinned. -/
theorem keyLaw_iff_minute :
    KeyLaw (Toy.pinningPolicy (60 * nanosPerSec)) Toy.newKeyWorld Toy.keyIssuer 0 := by
  apply (keyLaw_iff (.init rfl)).mpr
  exact .inr (.inr (by decide))

/-- With keys that are to be cached for `Duration::MAX`, a pinned issuer is not resolved. -/
theorem keyLaw_durationMax : ¬∀ (policy : KeyResolutionPolicy) (w : KeyWorld),
    (keySystem policy).Reachable w → ∀ issuer now, KeyLaw policy w issuer now := by
  intro h
  let policy := Toy.pinningPolicy ((2 ^ 64 - 1) * nanosPerSec + 999999999)
  have hnew : (keySystem policy).Reachable Toy.newKeyWorld := .init rfl
  have hkeys := (h policy _ hnew Toy.keyIssuer 0).pinned [Toy.issuerKey] rfl
  rcases (resolve_pinned_iff (faithful_of_reachable hnew).1 rfl).mp hkeys with hc | hle
  · exact absurd hc (by decide)
  · exact absurd hle (by decide)

end Aitp
