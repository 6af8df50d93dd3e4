import Aitp.Tct.Revocation

/-! # Fetching revocation snapshots

`transport/revocation.rs` and `transport/revocation_fetch.rs`: a snapshot is
fetched, verified, cached for a while, and asked about by the handshake. What a
provider or the network answers is an input of the call.
-/

namespace Aitp

/-- `RevocationError`; `signatureInvalid` keeps the token error it wraps. -/
inductive RevocationError where
  | network (reason : String)
  | signatureInvalid (error : TctError)
  | expired
  | stale (publishedAt : Timestamp) (maxStaleness : ℕ)
  | noSnapshotFailClosed
  | unknownField (field : String)
  | malformed (reason : String)
  | undecodable
  | signer
  deriving DecidableEq

inductive RevocationFailMode where
  | failClosed
  | failOpen
  | softFail (safeGrants : List String)
  | failOpenIfUnadvertised
  deriving DecidableEq

/-- `RevocationPolicy`, durations in whole seconds. -/
structure RevocationPolicy where
  failMode : RevocationFailMode := .failClosed
  maxStaleness : ℕ := 86400
  cacheTtl : ℕ := 60

/-- How `verify_snapshot` reports a token error. -/
def RevocationError.ofTct : TctError → RevocationError
  | .expired => .expired
  | .unknownField field => .unknownField field
  | .claimsMalformed reason => .malformed reason
  | .versionUnknown => .malformed "unknown revocation snapshot version"
  | other => .signatureInvalid other

def verifySnapshot (P : Primitives) (env : RevocationListEnvelope) (issuer : Aid)
    (now : Timestamp) (maxStaleness : ℕ) : Except RevocationError Unit := do
  mapErr .ofTct (verifyRevocationList P env ⟨issuer, now⟩)
  let age := saturate (now - env.revocationList.publishedAt)
  ensure (decide (age ≤ durationSecs maxStaleness))
    (.stale env.revocationList.publishedAt maxStaleness)

/-- `Snapshot`: a verified list, reduced to what a decision needs. -/
structure Snapshot where
  revoked : List Uuid
  expiresAt : Timestamp
  cachedAt : Timestamp

/-- The slot of each issuer. -/
abbrev Slots := Aid → Option Snapshot

/-- `RevocationFetcher`; `provider` says whether one is set. -/
structure RevocationFetcher where
  policy : RevocationPolicy
  provider : Bool

/-- The arguments of a `prepare` call, and what it is answered if it asks: by the provider, or by
the network with the body served at the advertised location. -/
structure PrepareCall where
  issuer : Aid
  listUri : Option String
  now : Timestamp
  provided : Except RevocationError RevocationListEnvelope
  served : Except RevocationError Bytes

structure PreparedRevocation where
  issuer : Aid
  status : Except RevocationError (List Uuid)
  advertised : Bool
  failMode : RevocationFailMode

/-- The revoked `jti`s a list names. -/
def RevocationListEnvelope.revoked (env : RevocationListEnvelope) : List Uuid :=
  env.revocationList.entries.map RevocationEntry.jti

/-- What is cached of a list verified now. -/
def Snapshot.ofList (env : RevocationListEnvelope) (now : Timestamp) : Snapshot where
  revoked := env.revoked
  expiresAt := env.revocationList.expiresAt
  cachedAt := now

namespace RevocationFetcher

variable (P : Primitives) (f : RevocationFetcher) (slots : Slots) (c : PrepareCall)

/-- The end of `fetch`: the body, parsed. -/
def parseBody (body : Bytes) : Except RevocationError RevocationListEnvelope := do
  let document ← okOr (P.document body) (.malformed "not a JSON document")
  let value ← okOr (CheckedJson.ofDocument document) (.malformed "duplicate key")
  mapErr
    (fun
      | .unknownField field => .unknownField field
      | .claimsMalformed reason => .malformed reason
      | _ => .undecodable)
    (parseRevocationSnapshotWire value)

/-- The snapshot the provider or the network gives. -/
def fetched : Except RevocationError RevocationListEnvelope :=
  if f.provider then c.provided
  else if c.listUri.isSome then c.served >>= parseBody P
  else .error .noSnapshotFailClosed

/-- A fetched snapshot that verifies. -/
def acquire : Except RevocationError RevocationListEnvelope := do
  let env ← f.fetched P c
  verifySnapshot P env c.issuer c.now f.policy.maxStaleness
  return env

/-- Whether a cached snapshot is still used. -/
def isUsable (snap : Snapshot) : Bool :=
  decide (saturate (c.now - snap.cachedAt) ≤ durationSecs f.policy.cacheTtl) &&
    !snap.expiresAt.isInThePast c.now

/-- The issuer's cached snapshot, while it is used. -/
def cached : Option Snapshot :=
  (slots c.issuer).filter (f.isUsable c)

def snapshot : Except RevocationError (List Uuid) × Slots :=
  match f.cached slots c with
  | some snap => (.ok snap.revoked, slots)
  | none =>
    match f.acquire P c with
    | .error e => (.error e, slots)
    | .ok env => (.ok env.revoked, Function.update slots c.issuer (some (.ofList env c.now)))

def prepare : PreparedRevocation × Slots :=
  let (status, slots) :=
    if !f.provider && c.listUri.isNone then (.error .noSnapshotFailClosed, slots)
    else f.snapshot P slots c
  (⟨c.issuer, status, c.listUri.isSome, f.policy.failMode⟩, slots)

end RevocationFetcher

def PreparedRevocation.decide (p : PreparedRevocation) (query : RevocationQuery) :
    Option RevocationStatus :=
  let unavailable :=
    match p.failMode with
    | .failOpen => some .clear
    | .failOpenIfUnadvertised => if p.advertised then none else some .clear
    | .softFail safeGrants =>
      if safeGrants.isEmpty then none else some (.softFailSafeSubset safeGrants)
    | .failClosed => none
  match p.status with
  | .ok revoked =>
    if query.issuer = p.issuer then
      if revoked.contains query.jti then some .revoked else some .clear
    else unavailable
  | .error _ => unavailable

end Aitp
