import Aitp.Manifest.Verifier
import Aitp.Tct.Verifier

/-! # Session trust bundles

`session_bundle/types.rs` and `session_bundle/builder.rs`: the membership of a
session, as its coordinator assembles it from the tokens it issued and signs it.
-/

namespace Aitp

/-- `SessionBundleError`; `undecodable` stands for the two reports of a typed deserialisation
failure. -/
inductive SessionBundleError where
  | versionMismatch
  | invalidSignature
  | expired
  | expiryWindowInvariant
  | coordinatorIssuerMismatch
  | audienceMismatch
  | coordinatorManifest (error : ManifestError)
  | coordinatorManifestMismatch
  | notMember
  | missingField (field : String)
  | emptyParticipants
  | canonicalization (reason : String)
  | tctVerification (error : TctError)
  | crypto (error : CryptoError)
  | wireFormInvalid (reason : String)
  | unknownField (field : String)
  | undecodable
  deriving DecidableEq

structure ParticipantEntry where
  aid : Aid
  tct : String

structure SessionTrustBundle where
  version : String
  sessionId : Uuid
  coordinator : Aid
  issuedAt : Timestamp
  expiresAt : Timestamp
  participants : List ParticipantEntry
  extensions : Option ExtensionsMap
  signature : String

def defaultBundleVersion : String := protocolVersion

def participantEntryFields : List FieldSpec := [⟨"aid", .required⟩, ⟨"tct", .required⟩]

/-- `Serialize for ParticipantEntry`. -/
def ParticipantEntry.toValue (p : ParticipantEntry) : Json :=
  .obj <| Serde.written participantEntryFields [some (.str p.aid.value), some (.str p.tct)]

def bundleSigningBodyFields : List FieldSpec :=
  [⟨"version", .required⟩, ⟨"session_id", .required⟩, ⟨"coordinator", .required⟩,
    ⟨"issued_at", .required⟩, ⟨"expires_at", .required⟩, ⟨"participants", .required⟩,
    ⟨"extensions", .default⟩]

def sessionTrustBundleFields : List FieldSpec :=
  bundleSigningBodyFields ++ [⟨"signature", .required⟩]

namespace SessionTrustBundle

variable (bundle : SessionTrustBundle)

/-- The members that are signed, in the order they are written. -/
def body : List (Option Json) :=
  [some (.str bundle.version), some (.str bundle.sessionId.hyphenated),
    some (.str bundle.coordinator.value), some (.int bundle.issuedAt),
    some (.int bundle.expiresAt), some (.arr (bundle.participants.map ParticipantEntry.toValue)),
    bundle.extensions.map .obj]

/-- `Serialize for SessionTrustBundle`. -/
def toValue : Json :=
  .obj <| Serde.written sessionTrustBundleFields (bundle.body ++ [some (.str bundle.signature)])

end SessionTrustBundle

/-- `bundle_signing_bytes` of the `BundleSigningBody`. -/
def bundleSigningBytes (bundle : SessionTrustBundle) : Bytes :=
  (Json.obj (Serde.written bundleSigningBodyFields bundle.body)).jcs

theorem bundleSigningBytes_eq (bundle : SessionTrustBundle) :
    bundleSigningBytes bundle = (bundle.toValue.remove "signature").jcs := by
  rw [SessionTrustBundle.toValue, Serde.remove_written]
  cases h : bundle.extensions <;>
    simp [bundleSigningBytes, SessionTrustBundle.body, sessionTrustBundleFields,
      bundleSigningBodyFields, Serde.written, h]

/-! ## The expiry window -/

/-- The smaller of a minimum so far and one more expiry. -/
def minExp (computedMin : Option Timestamp) (exp : Timestamp) : Option Timestamp :=
  match computedMin with
  | some m => if m ≤ exp then some m else some exp
  | none => some exp

theorem exists_isLeast_minExp (t : Timestamp) (ts : List Timestamp) :
    ∃ m, (t :: ts).foldl minExp none = some m ∧ IsLeast {x | x ∈ t :: ts} m := by
  have hgo : ∃ m, ts.foldl minExp (some t) = some m ∧ IsLeast {x | x ∈ t :: ts} m := by
    induction ts generalizing t with
    | nil => exact ⟨t, rfl, by simp [IsLeast, lowerBounds]⟩
    | cons x ts ih =>
      by_cases hx : t ≤ x
      · obtain ⟨m, hm, hmem, hlow⟩ := ih t
        refine ⟨m, by simpa [minExp, hx] using hm, ?_, ?_⟩
        · rcases List.mem_cons.mp hmem with rfl | hmem
          · exact List.mem_cons_self
          · exact List.mem_cons_of_mem _ (List.mem_cons_of_mem _ hmem)
        · rintro y hy
          rcases List.mem_cons.mp hy with rfl | hy
          · exact hlow List.mem_cons_self
          · rcases List.mem_cons.mp hy with rfl | hy
            · exact (hlow List.mem_cons_self).trans hx
            · exact hlow (List.mem_cons_of_mem _ hy)
      · obtain ⟨m, hm, hmem, hlow⟩ := ih x
        refine ⟨m, by simpa [minExp, hx] using hm, List.mem_cons_of_mem _ hmem, ?_⟩
        rintro y hy
        rcases List.mem_cons.mp hy with rfl | hy
        · exact (hlow List.mem_cons_self).trans (le_of_not_ge hx)
        · exact hlow hy
  exact hgo

section

variable (P : Primitives)

def peekTctClaims (token : String) : Except SessionBundleError TctClaims := do
  let payload ← mapErr (fun _ => .canonicalization "participant tct")
    (decodePayloadUnverified token)
  mapErr (fun _ => .canonicalization "participant tct claims") (rejectDuplicateKeys P payload)
  ifPresent (P.document payload) fun v => ensureMembers v tctClaimsMembers .unknownField
  okOr ((P.document payload).bind decodeTctClaims) .undecodable

/-- The smallest `exp` of the entries' unverified claims, each of them checked as it is read. -/
def peekMinExp (check : ParticipantEntry → TctClaims → Except SessionBundleError Unit) :
    Option Timestamp → List ParticipantEntry → Except SessionBundleError (Option Timestamp)
  | computedMin, [] => .ok computedMin
  | computedMin, p :: ps => do
    let claims ← peekTctClaims P p.tct
    check p claims
    peekMinExp check (minExp computedMin claims.exp) ps

/-! ## Building a bundle -/

structure SessionBundleBuilder where
  coordinatorKey : Signer
  sessionId : Option Uuid
  participants : List ParticipantEntry
  issuedAt : Option Timestamp
  extensions : Option ExtensionsMap

namespace SessionBundleBuilder

variable (b : SessionBundleBuilder)

/-- The checks of a participant against the coordinator that issued its token. -/
def checkEntry (entry : ParticipantEntry) (claims : TctClaims) : Except SessionBundleError Unit := do
  ensure (decide (claims.iss = b.coordinatorKey.aid)) .coordinatorIssuerMismatch
  ensure (decide (claims.aud = entry.aid)) .audienceMismatch

/-- `SessionBundleBuilder::draft`: the bundle before its signature. -/
def draft (drawn : RandomV4) (clock : Timestamp) : Except SessionBundleError SessionTrustBundle := do
  ensure (!b.participants.isEmpty) .emptyParticipants
  let minExp ← peekMinExp P b.checkEntry none b.participants
  let expiresAt ← okOr minExp .emptyParticipants
  return {
    version := defaultBundleVersion
    sessionId := b.sessionId.getD drawn.id
    coordinator := b.coordinatorKey.aid
    issuedAt := b.issuedAt.getD clock
    expiresAt := expiresAt
    participants := b.participants
    extensions := b.extensions
    signature := "" }

def build (drawn : RandomV4) (clock : Timestamp) : Except SessionBundleError SessionTrustBundle := do
  let draft ← b.draft P drawn clock
  let signature ← mapErr .crypto (b.coordinatorKey.signJcs (bundleSigningBytes draft))
  return { draft with signature := signature }

end SessionBundleBuilder

end

variable {P : Primitives} {check : ParticipantEntry → TctClaims → Except SessionBundleError Unit}

theorem peekTctClaims_of_signed {issuer : Aid} {typ token : String} {payload : Bytes}
    {claims peeked : TctClaims} (hv : verifyCompact P issuer typ token = .ok payload)
    (hd : (P.document payload).bind decodeTctClaims = some claims)
    (h : peekTctClaims P token = .ok peeked) : peeked = claims := by
  simp only [peekTctClaims, bind_eq_ok, mapErr_eq_ok, okOr_eq_ok] at h
  obtain ⟨p, hp, -, -, -, -, hc⟩ := h
  obtain rfl := Except.ok.inj ((verifyCompact_ok hv).symm.trans hp)
  exact Option.some.inj (hc.symm.trans hd)

theorem peekMinExp_ok {es : List (ParticipantEntry × TctClaims)}
    (hp : ∀ e ∈ es, ∀ c, peekTctClaims P e.1.tct = .ok c → c = e.2) {m r : Option Timestamp}
    (h : peekMinExp P check m (es.map Prod.fst) = .ok r) :
    r = (es.map fun e => e.2.exp).foldl minExp m := by
  induction es generalizing m with
  | nil => exact (Except.ok.inj h).symm
  | cons e es ih =>
    simp only [List.map_cons, peekMinExp, bind_eq_ok] at h
    obtain ⟨c, hc, -, -, h⟩ := h
    obtain rfl := hp e List.mem_cons_self c hc
    exact ih (fun e' he' => hp e' (List.mem_cons_of_mem _ he')) h

theorem peekMinExp_unchecked {m r : Option Timestamp} {ps : List ParticipantEntry}
    (h : peekMinExp P check m ps = .ok r) : peekMinExp P (fun _ _ => .ok ()) m ps = .ok r := by
  induction ps generalizing m with
  | nil => exact h
  | cons p ps ih =>
    simp only [peekMinExp, bind_eq_ok] at h ⊢
    obtain ⟨c, hc, -, -, h⟩ := h
    exact ⟨c, hc, (), trivial, ih h⟩

theorem peekMinExp_of_forall {es : List (ParticipantEntry × TctClaims)}
    (hp : ∀ e ∈ es, peekTctClaims P e.1.tct = .ok e.2 ∧ check e.1 e.2 = .ok ())
    (m : Option Timestamp) : peekMinExp P check m (es.map Prod.fst) =
      .ok ((es.map fun e => e.2.exp).foldl minExp m) := by
  induction es generalizing m with
  | nil => rfl
  | cons e es ih =>
    obtain ⟨hc, hk⟩ := hp e List.mem_cons_self
    simp only [List.map_cons, peekMinExp, hc, hk, ok_bind, List.foldl_cons]
    exact ih (fun e' he' => hp e' (List.mem_cons_of_mem _ he')) _

/-! ## Signed tokens and bundles -/

theorem peekTctClaims_signCompact {signer : Signer} {key : VerifyingKey} {typ token : String}
    {c : TctClaims} (hP : P.ReadsText) (hs : signer.Lawful P key) (hc : c.Writable P)
    (ht : c.iat.Exact ∧ c.exp.Exact) (h : signCompact signer typ c.toValue = .ok token) :
    peekTctClaims P token = .ok (c.reread P) := by
  have hm : checkMembers (P.reread c.toValue.canon) tctClaimsMembers = none := by
    rw [checkMembers_reread P (Json.isObject_canon _)]
    exact checkMembers_written (by decide)
  have hr := hc.readable_toValue hP
  simp only [peekTctClaims, bind_eq_ok, mapErr_eq_ok, okOr_eq_ok]
  refine ⟨c.toValue.jcs, decodePayloadUnverified_signCompact hs h, (),
    rejectDuplicateKeys_jcs hP hr hc.distinctKeys_toValue, (), ?_, hc.decode_exact hP ht⟩
  simp [hP.document_jcs hr, ensureMembers, hm]

theorem SessionBundleBuilder.build_ok {b : SessionBundleBuilder} {drawn : RandomV4}
    {clock : Timestamp} {bundle : SessionTrustBundle} (h : b.build P drawn clock = .ok bundle) :
    bundle.version = defaultBundleVersion ∧ bundle.coordinator = b.coordinatorKey.aid ∧
      bundle.participants = b.participants ∧ b.participants ≠ [] ∧
      peekMinExp P b.checkEntry none b.participants = .ok (some bundle.expiresAt) ∧
      b.coordinatorKey.signJcs (bundleSigningBytes bundle) = .ok bundle.signature := by
  simp only [build, draft, bind_eq_ok, ensure_eq_ok, okOr_eq_ok, mapErr_eq_ok, pure_eq_ok,
    exists_const] at h
  obtain ⟨_, ⟨hne, window, hw, expiresAt, rfl, rfl⟩, sig, hs, rfl⟩ := h
  exact ⟨rfl, rfl, rfl, by simpa using hne, hw, hs⟩

end Aitp
