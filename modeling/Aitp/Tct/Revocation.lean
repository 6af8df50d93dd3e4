import Aitp.Tct.Types

/-! # Revocation

`tct/revocation.rs`: signed revocation snapshots, and what a verifier does with
the answer of a revocation source.
-/

namespace Aitp

structure RevocationEntry where
  jti : Uuid
  revokedAt : Timestamp
  reason : Option String
  deriving DecidableEq

structure RevocationList where
  version : String
  issuer : Aid
  publishedAt : Timestamp
  expiresAt : Timestamp
  entries : List RevocationEntry
  extensions : Option ExtensionsMap

structure RevocationListEnvelope where
  revocationList : RevocationList
  signature : String

def revocationListMembers : List String :=
  ["version", "issuer", "published_at", "expires_at", "entries", "extensions"]

def revocationEnvelopeMembers : List String := ["revocation_list", "signature"]

/-- The fields of `RevocationEntry`. -/
def revocationEntryFields : List FieldSpec :=
  [⟨"jti", .required⟩, ⟨"revoked_at", .required⟩, ⟨"reason", .default⟩]

/-- `Deserialize for RevocationEntry`. -/
def decodeRevocationEntry (v : Json) : Option RevocationEntry :=
  match Serde.structFields revocationEntryFields v with
  | some [some jti, some revokedAt, reason] => do
    return {
      jti := ← decodeV4 jti
      revokedAt := ← Serde.i64 revokedAt
      reason := ← Serde.optional Json.asStr reason }
  | _ => none

/-- The fields of `RevocationList`. -/
def revocationListFields : List FieldSpec :=
  [⟨"version", .required⟩, ⟨"issuer", .required⟩, ⟨"published_at", .required⟩,
    ⟨"expires_at", .required⟩, ⟨"entries", .required⟩, ⟨"extensions", .default⟩]

/-- `Deserialize for RevocationList`. -/
def decodeRevocationList (v : Json) : Option RevocationList :=
  match Serde.structFields revocationListFields v with
  | some [some version, some issuer, some publishedAt, some expiresAt, some entries,
      extensions] => do
    return {
      version := ← version.asStr
      issuer := ← decodeAid issuer
      publishedAt := ← Serde.i64 publishedAt
      expiresAt := ← Serde.i64 expiresAt
      entries := ← Serde.vec decodeRevocationEntry entries
      extensions := ← Serde.optional Serde.map extensions }
  | _ => none

/-- The fields of `RevocationListEnvelope`. -/
def revocationEnvelopeFields : List FieldSpec :=
  [⟨"revocation_list", .required⟩, ⟨"signature", .required⟩]

/-- `Deserialize for RevocationListEnvelope`. -/
def decodeRevocationListEnvelope (v : Json) : Option RevocationListEnvelope :=
  match Serde.structFields revocationEnvelopeFields v with
  | some [some revocationList, some signature] => do
    return {
      revocationList := ← decodeRevocationList revocationList
      signature := ← signature.asStr }
  | _ => none

/-- `Serialize for RevocationEntry`. -/
def RevocationEntry.toValue (e : RevocationEntry) : Json :=
  .obj <| Serde.written revocationEntryFields
    [some (.str e.jti.hyphenated), some (.int e.revokedAt), e.reason.map .str]

/-- `Serialize for RevocationList`. -/
def RevocationList.toValue (l : RevocationList) : Json :=
  .obj <| Serde.written revocationListFields
    [some (.str l.version), some (.str l.issuer.value), some (.int l.publishedAt),
      some (.int l.expiresAt), some (.arr (l.entries.map RevocationEntry.toValue)),
      l.extensions.map .obj]

def revocationSigningBytes (body : RevocationList) : Except TctError Bytes := do
  forEach body.entries fun e => mapErr .jtiNotV4 e.jti.checkV4
  return body.toValue.jcs

/-- `Value` indexing: anything missing reads as `null`. -/
def Json.index (v : Json) (k : String) : Json :=
  (v.get k).getD .null

def parseRevocationSnapshotWire (value : CheckedJson) : Except TctError RevocationListEnvelope := do
  ensureMembers value.value revocationEnvelopeMembers .unknownField
  ifPresent (value.value.get "revocation_list") fun body =>
    ensureMembers body revocationListMembers .unknownField
  let entries := (((value.value.index "revocation_list").index "entries").asArray).getD []
  forEach (entries.filterMap fun e => (e.index "jti").asStr) fun jti =>
    mapErr .jtiNotV4 ((Uuid.parseV4 jti).map fun _ => ())
  okOr (decodeRevocationListEnvelope value.value) .undecodable

structure RevocationListVerifyContext where
  expectedIssuer : Aid
  now : Timestamp

def verifyRevocationList (P : Primitives) (envelope : RevocationListEnvelope)
    (ctx : RevocationListVerifyContext) : Except TctError Unit := do
  let list := envelope.revocationList
  ensure (list.version == protocolVersion) .versionUnknown
  ensure (!list.expiresAt.isInThePast ctx.now) .expired
  ensure (decide (list.issuer = ctx.expectedIssuer)) .issuerMismatch
  let pubkey ← mapErr .crypto (VerifyingKey.fromAid P list.issuer)
  let sig ← mapErr (fun _ => .signatureInvalid) (Signature.parse envelope.signature)
  let canonical ← revocationSigningBytes list
  mapErr (fun _ => .signatureInvalid) (pubkey.verifyJcs P canonical sig)

def signRevocationList (body : RevocationList) (issuerKey : Signer) :
    Except TctError RevocationListEnvelope := do
  let canonical ← revocationSigningBytes body
  let sig ← mapErr .crypto (issuerKey.signJcs canonical)
  return { revocationList := body, signature := sig }

/-! ## Revocation sources -/

structure RevocationQuery where
  issuer : Aid
  jti : Uuid
  now : Timestamp
  deriving DecidableEq

inductive RevocationStatus where
  | clear
  | revoked
  | softFailSafeSubset (safeGrants : List String)
  deriving DecidableEq

/-- `RevocationCheckFn`; `none` is `RevocationUnavailable`. -/
abbrev RevocationCheckFn := RevocationQuery → Option RevocationStatus

inductive RevocationSource where
  | check (f : RevocationCheckFn)
  | failOpen
  | selfAttestation

inductive RevocationRejection where
  | revoked
  | unavailable
  | safeSubsetEmpty
  deriving DecidableEq

def applyRevocation (source : RevocationSource) (query : RevocationQuery) (grants : List String) :
    Except RevocationRejection (List String) :=
  match source with
  | .failOpen => .ok grants
  | .selfAttestation => .error .unavailable
  | .check f =>
    match f query with
    | none => .error .unavailable
    | some .clear => .ok grants
    | some .revoked => .error .revoked
    | some (.softFailSafeSubset safe) =>
      let narrowed := grants.filter fun g => safe.contains g
      if narrowed.isEmpty then .error .safeSubsetEmpty else .ok narrowed

/-- A revocation source that leaves every grant. -/
def RevocationSource.AnswersClear (source : RevocationSource) : Prop :=
  ∀ query grants, applyRevocation source query grants = .ok grants

/-- The grants left by a revocation answer are in their order among the grants asked about, and
all of them are left unless the answer narrows them to a safe subset. -/
theorem applyRevocation_sublist {source : RevocationSource} {query : RevocationQuery}
    {grants effective : List String} (h : applyRevocation source query grants = .ok effective) :
    effective.Sublist grants := by
  cases source with
  | failOpen =>
    obtain rfl := Except.ok.inj h
    exact List.Sublist.refl _
  | selfAttestation => simp [applyRevocation] at h
  | check f =>
    simp only [applyRevocation] at h
    split at h
    next => simp at h
    next =>
      obtain rfl := Except.ok.inj h
      exact List.Sublist.refl _
    next => simp at h
    next =>
      split_ifs at h
      obtain rfl := Except.ok.inj h
      exact List.filter_sublist

end Aitp
