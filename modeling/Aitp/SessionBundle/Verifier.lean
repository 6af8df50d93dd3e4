import Aitp.SessionBundle.Types

/-! # Verifying a session bundle

`session_bundle/verifier.rs`. The coordinator's signature, every embedded token and
the common expiry are checked; participants whose token is revoked are dropped.
-/

namespace Aitp

inductive CoordinatorKeySource where
  | manifest (manifest : Manifest)
  | unverifiedAidDangerous

structure SessionBundleVerifyContext where
  verifierAid : Aid
  now : Timestamp
  revocationCheck : Option (Uuid → Bool)
  coordinatorKey : CoordinatorKeySource
  insecureLocalhostDangerous : Bool

inductive BundleOutcome where
  | clear (activeAids : List Aid)
  | degradedSubset (activeAids droppedAids : List Aid)
  deriving DecidableEq

namespace BundleOutcome

/-- The participants in good standing. -/
def activeAids : BundleOutcome → List Aid
  | clear active => active
  | degradedSubset active _ => active

/-- The participants whose token is revoked. -/
def droppedAids : BundleOutcome → List Aid
  | clear _ => []
  | degradedSubset _ dropped => dropped

/-- The outcome that reports these participants. -/
def of (active dropped : List Aid) : BundleOutcome :=
  if dropped.isEmpty then clear active else degradedSubset active dropped

@[simp] theorem activeAids_of (active dropped : List Aid) :
    (of active dropped).activeAids = active := by
  unfold of
  split_ifs <;> rfl

@[simp] theorem droppedAids_of (active dropped : List Aid) :
    (of active dropped).droppedAids = dropped := by
  unfold of
  split_ifs with h
  · exact (List.isEmpty_iff.mp h).symm
  · rfl

end BundleOutcome

/-- The report of an embedded token that does not verify. -/
def SessionBundleError.ofTct : TctError → SessionBundleError
  | .issuerMismatch => .coordinatorIssuerMismatch
  | .audienceMismatch => .audienceMismatch
  | e => .tctVerification e

namespace SessionBundleVerifyContext

variable (ctx : SessionBundleVerifyContext)

/-- The context of the coordinator's manifest. -/
def manifestContext : ManifestVerifyContext where
  now := ctx.now
  insecureLocalhost := ctx.insecureLocalhostDangerous

/-- The bound on the expiry of the embedded tokens, if there is one. -/
def cap : Option Timestamp :=
  match ctx.coordinatorKey with
  | .manifest m => some m.expiresAt
  | .unverifiedAidDangerous => none

/-- The context in which an embedded token is verified. -/
def tctContext (coordinator : Aid) (cap : Option Timestamp) (entry : ParticipantEntry) :
    TctVerifyContext where
  expectedAudience := entry.aid
  issuer := coordinator
  now := ctx.now
  issuerManifestExpiresAt := cap
  revocation := .failOpen
  clockSkew := 0

/-- Whether the verifier's deny list holds a token. -/
def isRevoked (jti : Uuid) : Bool :=
  match ctx.revocationCheck with
  | some check => check jti
  | none => false

end SessionBundleVerifyContext

section

variable (P : Primitives)

/-- The coordinator's key, and the bound that its manifest sets. -/
def resolveCoordinator (bundle : SessionTrustBundle) (ctx : SessionBundleVerifyContext) :
    Except SessionBundleError (VerifyingKey × Option Timestamp) :=
  match ctx.coordinatorKey with
  | .manifest m => do
    mapErr .coordinatorManifest (verifyManifest P m ctx.manifestContext)
    ensure (decide (m.aid = bundle.coordinator)) .coordinatorManifestMismatch
    let key ← mapErr .crypto (VerifyingKey.fromAid P m.aid)
    return (key, some m.expiresAt)
  | .unverifiedAidDangerous => do
    let key ← mapErr .crypto (VerifyingKey.fromAid P bundle.coordinator)
    return (key, none)

/-- The participants verified so far, active and dropped, with those of more entries. -/
def verifyEntries (ctx : SessionBundleVerifyContext) (coordinator : Aid) (cap : Option Timestamp) :
    List Aid → List Aid → List ParticipantEntry → Except SessionBundleError (List Aid × List Aid)
  | active, dropped, [] => .ok (active, dropped)
  | active, dropped, entry :: entries => do
    let verified ← mapErr .ofTct (verifyTct P entry.tct (ctx.tctContext coordinator cap entry))
    if ctx.isRevoked verified.claims.jti then
      verifyEntries ctx coordinator cap active (dropped ++ [entry.aid]) entries
    else verifyEntries ctx coordinator cap (active ++ [entry.aid]) dropped entries

def verifySessionBundle (bundle : SessionTrustBundle) (ctx : SessionBundleVerifyContext) :
    Except SessionBundleError BundleOutcome := do
  ensure (bundle.version == defaultBundleVersion) .versionMismatch
  ensure (!bundle.expiresAt.isInThePast ctx.now) .expired
  let computedMin ← peekMinExp P (fun _ _ => .ok ()) none bundle.participants
  ifPresent computedMin fun m => ensure (decide (m = bundle.expiresAt)) .expiryWindowInvariant
  ensure (!bundle.participants.isEmpty) .emptyParticipants
  let (coordKey, cap) ← resolveCoordinator P bundle ctx
  let outerSig ← mapErr (fun _ => .invalidSignature) (Signature.parse bundle.signature)
  mapErr (fun _ => .invalidSignature) (coordKey.verifyJcs P (bundleSigningBytes bundle) outerSig)
  let (active, dropped) ← verifyEntries P ctx bundle.coordinator cap [] [] bundle.participants
  ensure (bundle.participants.any fun p => decide (p.aid = ctx.verifierAid)) .notMember
  return .of active dropped

end

variable {P : Primitives} {bundle : SessionTrustBundle} {ctx : SessionBundleVerifyContext}
  {outcome : BundleOutcome}

/-! ## What the checks establish -/

/-- The entries, each with its verified token, and the part of them that is revoked or not. -/
abbrev VerifiedEntries := List (ParticipantEntry × VerifiedTct)

/-- The participants whose verified token is revoked, or is not, in order. -/
def VerifiedEntries.aids (es : VerifiedEntries) (ctx : SessionBundleVerifyContext)
    (revoked : Bool) : List Aid :=
  (es.filter fun e => ctx.isRevoked e.2.claims.jti == revoked).map fun e => e.1.aid

theorem VerifiedEntries.aids_of_clear {es : VerifiedEntries}
    (h : ∀ e ∈ es, ctx.isRevoked e.2.claims.jti = false) :
    es.aids ctx false = es.map (fun e => e.1.aid) ∧ es.aids ctx true = [] := by
  constructor
  · rw [aids, List.filter_eq_self.mpr]
    intro e he
    simp [h e he]
  · rw [aids, List.filter_eq_nil_iff.mpr, List.map_nil]
    intro e he
    simp [h e he]

theorem verifyEntries_eq_ok {coordinator : Aid} {cap : Option Timestamp} {active dropped : List Aid}
    {entries : List ParticipantEntry} {a d : List Aid} :
    verifyEntries P ctx coordinator cap active dropped entries = .ok (a, d) ↔
      ∃ es : VerifiedEntries, es.map Prod.fst = entries ∧
        (∀ e ∈ es, verifyTct P e.1.tct (ctx.tctContext coordinator cap e.1) = .ok e.2) ∧
        a = active ++ es.aids ctx false ∧ d = dropped ++ es.aids ctx true := by
  induction entries generalizing active dropped with
  | nil =>
    simp only [verifyEntries, Except.ok.injEq, Prod.mk.injEq, List.map_eq_nil_iff]
    constructor
    · rintro ⟨rfl, rfl⟩
      exact ⟨[], rfl, by simp, by simp [VerifiedEntries.aids], by simp [VerifiedEntries.aids]⟩
    · rintro ⟨es, rfl, -, rfl, rfl⟩
      simp [VerifiedEntries.aids]
  | cons entry entries ih =>
    simp only [verifyEntries, bind_eq_ok, mapErr_eq_ok]
    constructor
    · rintro ⟨v, hv, h⟩
      split_ifs at h with hr
      · obtain ⟨es, rfl, hes, rfl, rfl⟩ := ih.mp h
        refine ⟨(entry, v) :: es, rfl, List.forall_mem_cons.mpr ⟨hv, hes⟩, ?_, ?_⟩ <;>
          simp [VerifiedEntries.aids, hr]
      · obtain ⟨es, rfl, hes, rfl, rfl⟩ := ih.mp h
        refine ⟨(entry, v) :: es, rfl, List.forall_mem_cons.mpr ⟨hv, hes⟩, ?_, ?_⟩ <;>
          simp [VerifiedEntries.aids, hr]
    · rintro ⟨es, he, hes, rfl, rfl⟩
      obtain ⟨⟨e, v⟩, es, rfl, rfl, rfl⟩ := List.map_eq_cons_iff.mp he
      obtain ⟨hv, hes⟩ := List.forall_mem_cons.mp hes
      refine ⟨v, hv, ?_⟩
      split_ifs with hr <;> rw [ih] <;> refine ⟨es, rfl, hes, ?_, ?_⟩ <;>
        simp_all [VerifiedEntries.aids]

/-- Where the coordinator's key comes from. -/
structure Resolved (P : Primitives) (bundle : SessionTrustBundle) (ctx : SessionBundleVerifyContext)
    (key : VerifyingKey) : Prop where
  key : VerifyingKey.fromAid P bundle.coordinator = .ok key
  manifest : ∀ m, ctx.coordinatorKey = .manifest m →
    verifyManifest P m ctx.manifestContext = .ok () ∧ m.aid = bundle.coordinator

theorem resolveCoordinator_eq_ok {key : VerifyingKey} {cap : Option Timestamp} :
    resolveCoordinator P bundle ctx = .ok (key, cap) ↔
      Resolved P bundle ctx key ∧ cap = ctx.cap := by
  unfold resolveCoordinator SessionBundleVerifyContext.cap
  cases hk : ctx.coordinatorKey with
  | manifest m =>
    simp only [bind_eq_ok, mapErr_eq_ok, ensure_eq_ok, decide_eq_true_eq, pure_eq_ok,
      Prod.mk.injEq]
    constructor
    · rintro ⟨_, hm, _, ha, k, hf, rfl, rfl⟩
      refine ⟨⟨ha ▸ hf, ?_⟩, rfl⟩
      rintro m' hm'
      obtain rfl := CoordinatorKeySource.manifest.inj (hk.symm.trans hm')
      exact ⟨hm, ha⟩
    · rintro ⟨h, rfl⟩
      obtain ⟨hm, ha⟩ := h.manifest m hk
      exact ⟨(), hm, (), ha, key, ha ▸ h.key, rfl, rfl⟩
  | unverifiedAidDangerous =>
    simp only [bind_eq_ok, mapErr_eq_ok, pure_eq_ok, Prod.mk.injEq]
    constructor
    · rintro ⟨k, hf, rfl, rfl⟩
      exact ⟨⟨hf, fun m hm => by simp [hk] at hm⟩, rfl⟩
    · rintro ⟨h, rfl⟩
      exact ⟨key, h.key, rfl, rfl⟩

/-- A bundle is accepted exactly when every check passes; the expiry window is the one that the
unverified claims give. -/
theorem verifySessionBundle_eq_ok : verifySessionBundle P bundle ctx = .ok outcome ↔
    ∃ window key, ∃ es : VerifiedEntries, bundle.version = defaultBundleVersion ∧
      ctx.now ≤ bundle.expiresAt ∧
      peekMinExp P (fun _ _ => .ok ()) none bundle.participants = .ok window ∧
      (∀ t, window = some t → t = bundle.expiresAt) ∧ bundle.participants ≠ [] ∧
      Resolved P bundle ctx key ∧ Signature.parse bundle.signature = .ok bundle.signature ∧
      key.verifyJcs P (bundleSigningBytes bundle) bundle.signature = .ok () ∧
      es.map Prod.fst = bundle.participants ∧
      (∀ e ∈ es, verifyTct P e.1.tct (ctx.tctContext bundle.coordinator ctx.cap e.1) = .ok e.2) ∧
      (∃ p ∈ bundle.participants, p.aid = ctx.verifierAid) ∧
      outcome = .of (es.aids ctx false) (es.aids ctx true) := by
  simp only [verifySessionBundle, bind_eq_ok, ensure_eq_ok, mapErr_eq_ok, ifPresent_eq_ok,
    pure_eq_ok, exists_const, beq_iff_eq, Bool.not_eq_true', Timestamp.isInThePast_eq_false,
    decide_eq_true_eq, List.any_eq_true, Prod.exists, resolveCoordinator_eq_ok, verifyEntries_eq_ok,
    List.nil_append]
  constructor
  · rintro ⟨hv, hn, window, hw, hwin, hne, key, _, ⟨hk, rfl⟩, sig, hsig, _, hj, _, _,
      ⟨es, hfst, hes, rfl, rfl⟩, hm, rfl⟩
    obtain rfl := Signature.eq_of_parse hsig
    exact ⟨window, key, es, hv, hn, hw, hwin, by simpa using hne, hk, hsig, hj, hfst, hes, hm, rfl⟩
  · rintro ⟨window, key, es, hv, hn, hw, hwin, hne, hk, hsig, hj, hfst, hes, hm, rfl⟩
    exact ⟨hv, hn, window, hw, hwin, by simpa using hne, key, _, ⟨hk, rfl⟩, _, hsig, (), hj, _, _,
      ⟨es, hfst, hes, rfl, rfl⟩, hm, rfl⟩

end Aitp
