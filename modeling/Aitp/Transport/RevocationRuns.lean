import Aitp.Crypto.Toy
import Aitp.Foundation.Transition
import Aitp.Transport.RevocationFetch

/-! # Revocation across fetches

Runs of one fetcher. The snapshots accepted so far and the snapshot each
prepared value was read from are recorded beside the fetcher's own slots. An
issuer's slot always holds the snapshot accepted last, whatever was published
before it.
-/

namespace Aitp

open RevocationFetcher Transition

namespace RevocationListEnvelope

def issuer (env : RevocationListEnvelope) : Aid := env.revocationList.issuer

def publishedAt (env : RevocationListEnvelope) : Timestamp := env.revocationList.publishedAt

end RevocationListEnvelope

/-- A prepared value, the snapshot its status was read from, and what had been accepted. -/
structure Handle where
  prepared : PreparedRevocation
  basis : Option RevocationListEnvelope
  acceptedThen : List RevocationListEnvelope

/-- A fetcher with its history, newest first. -/
structure Fetching where
  slots : Slots
  accepted : List RevocationListEnvelope
  handles : List Handle

/-- The snapshots of one issuer. -/
def ofIssuer (issuer : Aid) (l : List RevocationListEnvelope) : List RevocationListEnvelope :=
  l.filter fun env => env.issuer = issuer

variable (P : Primitives) (f : RevocationFetcher)

/-- The snapshot a call verifies and caches. -/
def accepts (slots : Slots) (c : PrepareCall) : Option RevocationListEnvelope :=
  match f.cached slots c with
  | some _ => none
  | none => (f.acquire P c).toOption

/-- The state after a `prepare` call. -/
def Fetching.after (s : Fetching) (c : PrepareCall) : Fetching :=
  let p := f.prepare P s.slots c
  let accepted := (accepts P f s.slots c).toList ++ s.accepted
  let basis := if p.1.status.isOk then (ofIssuer c.issuer accepted).head? else none
  ⟨p.2, accepted, ⟨p.1, basis, accepted⟩ :: s.handles⟩

/-- Any sequence of calls on a new fetcher. -/
def fetching : System Fetching PrepareCall where
  init s := s = ⟨fun _ => none, [], []⟩
  step s c s' := s' = s.after P f c

/-- The handle answers `Clear` on the strength of a snapshot older than one accepted, for a `jti`
that an accepted snapshot of the issuer revokes. -/
def RolledBack (s : Fetching) (h : Handle) (query : RevocationQuery) : Prop :=
  query.issuer = h.prepared.issuer ∧ h.prepared.decide query = some .clear ∧
    ∃ basis, h.basis = some basis ∧
      (∃ env ∈ ofIssuer query.issuer s.accepted, query.jti ∈ env.revoked) ∧
      ∃ env ∈ ofIssuer query.issuer s.accepted, basis.publishedAt < env.publishedAt

/-- A snapshot may displace the others: it is published no earlier than any of them, or revokes
whatever they revoke. -/
def Supersedes (env : RevocationListEnvelope) (l : List RevocationListEnvelope) : Prop :=
  (∀ old ∈ l, old.publishedAt ≤ env.publishedAt) ∨ ∀ old ∈ l, ∀ jti ∈ old.revoked, jti ∈ env.revoked

/-- The snapshot a call accepts, if any, supersedes those accepted before. -/
def InOrder (s : Fetching) (c : PrepareCall) : Prop :=
  ∀ env, accepts P f s.slots c = some env → Supersedes env (ofIssuer c.issuer s.accepted)

/-- Nothing of its issuer has been accepted since the handle was prepared. -/
def Handle.IsCurrent (h : Handle) (s : Fetching) : Prop :=
  ofIssuer h.prepared.issuer s.accepted = ofIssuer h.prepared.issuer h.acceptedThen

variable {P f}

theorem verifyRevocationList_issuer {env : RevocationListEnvelope}
    {ctx : RevocationListVerifyContext} {u : Unit} (h : verifyRevocationList P env ctx = .ok u) :
    env.issuer = ctx.expectedIssuer := by
  simp only [verifyRevocationList, bind_eq_ok, ensure_eq_ok, decide_eq_true_eq] at h
  obtain ⟨_, -, _, -, _, hi, -⟩ := h
  exact hi

theorem acquire_issuer {c : PrepareCall} {env : RevocationListEnvelope}
    (h : f.acquire P c = .ok env) : env.issuer = c.issuer := by
  simp only [acquire, verifySnapshot, bind_eq_ok, mapErr_eq_ok, pure_eq_ok] at h
  obtain ⟨env', -, _, ⟨_, hv, -⟩, rfl⟩ := h
  exact verifyRevocationList_issuer hv

theorem ofIssuer_cons_self {env : RevocationListEnvelope} (l : List RevocationListEnvelope) :
    ofIssuer env.issuer (env :: l) = env :: ofIssuer env.issuer l := by
  simp [ofIssuer]

theorem ofIssuer_cons_ne {env : RevocationListEnvelope} {issuer : Aid} (h : env.issuer ≠ issuer)
    (l : List RevocationListEnvelope) : ofIssuer issuer (env :: l) = ofIssuer issuer l := by
  simp [ofIssuer, h]

/-- What a call can do: answer from the slot, accept a snapshot, or obtain nothing. -/
theorem prepare_cases (slots : Slots) (c : PrepareCall) :
    (∃ snap, f.cached slots c = some snap ∧ accepts P f slots c = none ∧
      f.prepare P slots c = (⟨c.issuer, .ok snap.revoked, c.listUri.isSome, f.policy.failMode⟩,
        slots)) ∨
    (∃ env, env.issuer = c.issuer ∧ accepts P f slots c = some env ∧
      f.prepare P slots c = (⟨c.issuer, .ok env.revoked, c.listUri.isSome, f.policy.failMode⟩,
        Function.update slots c.issuer (some (.ofList env c.now)))) ∨
    ∃ e, accepts P f slots c = none ∧
      f.prepare P slots c = (⟨c.issuer, .error e, c.listUri.isSome, f.policy.failMode⟩, slots) := by
  by_cases hn : (!f.provider && c.listUri.isNone) = true
  · have ha : f.acquire P c = .error .noSnapshotFailClosed := by
      rw [Bool.and_eq_true, Bool.not_eq_true', Option.isNone_iff_eq_none] at hn
      simp [acquire, fetched, hn, bind, Except.bind]
    right; right
    refine ⟨.noSnapshotFailClosed, ?_, by simp only [prepare, hn, if_true]⟩
    unfold accepts
    split
    · rfl
    · simp [ha, Except.toOption]
  · have hp : f.prepare P slots c = (⟨c.issuer, (f.snapshot P slots c).1, c.listUri.isSome,
        f.policy.failMode⟩, (f.snapshot P slots c).2) := by
      simp only [prepare, hn, if_false, Bool.false_eq_true]
    rw [hp]
    cases hc : f.cached slots c with
    | some snap =>
      left
      exact ⟨snap, rfl, by simp only [accepts, hc], by simp only [snapshot, hc]⟩
    | none =>
      right
      cases ha : f.acquire P c with
      | ok env =>
        left
        exact ⟨env, acquire_issuer ha, by simp only [accepts, hc, ha, Except.toOption],
          by simp only [snapshot, hc, ha]⟩
      | error e =>
        right
        exact ⟨e, by simp only [accepts, hc, ha, Except.toOption], by simp only [snapshot, hc, ha]⟩

/-- The slots hold the snapshots accepted last, and each handle speaks for the snapshot it was
read from. -/
structure WellFormed (s : Fetching) : Prop where
  slots : ∀ issuer snap, s.slots issuer = some snap →
    ∃ env, (ofIssuer issuer s.accepted).head? = some env ∧ snap.revoked = env.revoked
  status : ∀ h ∈ s.handles, ∀ env, h.basis = some env →
    (ofIssuer h.prepared.issuer h.acceptedThen).head? = some env ∧
      h.prepared.status = .ok env.revoked

theorem wellFormed_after {s : Fetching} (hw : WellFormed s) (c : PrepareCall) :
    WellFormed (s.after P f c) := by
  rcases prepare_cases (P := P) (f := f) s.slots c with
    ⟨snap, hs, ha, hp⟩ | ⟨env, hi, ha, hp⟩ | ⟨e, ha, hp⟩
  · obtain ⟨env, he, hr⟩ := hw.slots _ _ (Option.filter_eq_some_iff.mp hs).1
    refine ⟨by simpa [Fetching.after, hp, ha] using hw.slots, ?_⟩
    simp only [Fetching.after, hp, ha, Option.toList_none, List.nil_append, List.mem_cons,
      forall_eq_or_imp]
    refine ⟨fun env' hb => ?_, hw.status⟩
    obtain rfl : env = env' := by simpa [he, Except.isOk, Except.toBool] using hb
    exact ⟨he, by rw [hr]⟩
  · have hl : ∀ l, (ofIssuer c.issuer (env :: l)).head? = some env := by
      intro l
      rw [← hi, ofIssuer_cons_self, List.head?_cons]
    constructor
    · intro issuer snap hs
      simp only [Fetching.after, hp, ha, Option.toList_some, List.cons_append,
        List.nil_append] at hs ⊢
      by_cases hn : issuer = c.issuer
      · subst hn
        rw [Function.update_self] at hs
        obtain rfl := Option.some.inj hs
        exact ⟨env, hl _, rfl⟩
      · rw [Function.update_of_ne hn] at hs
        rw [ofIssuer_cons_ne (by rw [hi]; exact Ne.symm hn)]
        exact hw.slots _ _ hs
    · simp only [Fetching.after, hp, ha, Option.toList_some, List.cons_append, List.nil_append,
        List.mem_cons, forall_eq_or_imp]
      refine ⟨fun env' hb => ?_, hw.status⟩
      obtain rfl : env = env' := by simpa [hl, Except.isOk, Except.toBool] using hb
      exact ⟨hl _, rfl⟩
  · refine ⟨by simpa [Fetching.after, hp, ha] using hw.slots, ?_⟩
    simp only [Fetching.after, hp, ha, Option.toList_none, List.nil_append, List.mem_cons,
      forall_eq_or_imp]
    exact ⟨fun env hb => by simp [Except.isOk, Except.toBool] at hb, hw.status⟩

theorem wellFormed_of_reachable {s : Fetching} (h : (fetching P f).Reachable s) :
    WellFormed s := by
  refine h.invariant ?_ ?_
  · rintro s rfl
    exact ⟨by simp, by simp⟩
  · rintro s c s' hw rfl
    exact wellFormed_after hw c

/-- The snapshot accepted last supersedes the others. -/
def LastSupersedes : List RevocationListEnvelope → Prop
  | [] => True
  | env :: l => Supersedes env l

theorem lastSupersedes_after {s : Fetching} {c : PrepareCall} (ho : InOrder P f s c)
    (hl : ∀ issuer, LastSupersedes (ofIssuer issuer s.accepted)) (issuer : Aid) :
    LastSupersedes (ofIssuer issuer (s.after P f c).accepted) := by
  rcases prepare_cases (P := P) (f := f) s.slots c with
    ⟨snap, -, ha, -⟩ | ⟨env, hi, ha, -⟩ | ⟨e, ha, -⟩
  · simpa only [Fetching.after, ha, Option.toList_none, List.nil_append] using hl issuer
  · simp only [Fetching.after, ha, Option.toList_some, List.cons_append, List.nil_append]
    by_cases hn : env.issuer = issuer
    · subst hn
      rw [ofIssuer_cons_self, hi]
      exact ho env ha
    · rw [ofIssuer_cons_ne hn]
      exact hl issuer
  · simpa only [Fetching.after, ha, Option.toList_none, List.nil_append] using hl issuer

theorem lastSupersedes_of_inOrder {s : Fetching}
    (h : ((fetching P f).restrict (InOrder P f)).Reachable s) :
    (∀ issuer, LastSupersedes (ofIssuer issuer s.accepted)) ∧
      ∀ h ∈ s.handles, ∀ issuer, LastSupersedes (ofIssuer issuer h.acceptedThen) := by
  induction h with
  | init hi =>
    obtain rfl := hi
    simp [ofIssuer, LastSupersedes]
  | step _ hs ih =>
    obtain ⟨⟨hl, hh⟩, ho, rfl⟩ := And.intro ih hs
    have hn := lastSupersedes_after ho hl
    refine ⟨hn, ?_⟩
    simp only [Fetching.after, List.mem_cons, forall_eq_or_imp]
    exact ⟨hn, hh⟩

theorem decide_of_status {p : PreparedRevocation} {query : RevocationQuery} {revoked : List Uuid}
    (hi : query.issuer = p.issuer) (hs : p.status = .ok revoked) :
    p.decide query = some .clear ↔ query.jti ∉ revoked := by
  simp [PreparedRevocation.decide, hs, hi]

/-- A handle read from the snapshot accepted last is not rolled back when that snapshot
supersedes the others. -/
theorem not_rolledBack {s : Fetching} {h : Handle} (hw : WellFormed s) (hh : h ∈ s.handles)
    (hc : h.IsCurrent s) (hl : LastSupersedes (ofIssuer h.prepared.issuer h.acceptedThen))
    (query : RevocationQuery) : ¬ RolledBack s h query := by
  rintro ⟨hi, hd, basis, hb, ⟨env, he, hj⟩, env', he', hlt⟩
  obtain ⟨hd', hs⟩ := hw.status h hh basis hb
  obtain ⟨l, hl'⟩ := List.head?_eq_some_iff.mp hd'
  rw [decide_of_status hi hs] at hd
  rw [hi, hc, hl'] at he he'
  rw [hl'] at hl
  rcases List.mem_cons.mp he with rfl | he
  · exact hd hj
  rcases List.mem_cons.mp he' with rfl | he'
  · exact lt_irrefl _ hlt
  rcases hl with hp | hr
  · exact absurd hlt (not_lt.mpr (hp env' he'))
  · exact hd (hr env he query.jti hj)

theorem rolledBack_of_not_inOrder {s : Fetching} {c : PrepareCall} (ho : ¬ InOrder P f s c) :
    ∃ h ∈ (s.after P f c).handles, h.IsCurrent (s.after P f c) ∧
      ∃ query, RolledBack (s.after P f c) h query := by
  simp only [InOrder, Supersedes, not_forall, not_or, not_le] at ho
  obtain ⟨env, ha, ⟨new, hn, hlt⟩, old, hm, jti, hj, hnj⟩ := ho
  rcases prepare_cases (P := P) (f := f) s.slots c with
    ⟨snap, -, ha', -⟩ | ⟨env', hi, ha', hp⟩ | ⟨e, ha', -⟩
  · simp [ha] at ha'
  · obtain rfl : env = env' := by simpa [ha] using ha'
    have hk : ∀ e ∈ ofIssuer c.issuer s.accepted, e ∈ ofIssuer c.issuer (env :: s.accepted) := by
      intro e he
      rw [← hi, ofIssuer_cons_self, hi]
      exact List.mem_cons_of_mem _ he
    have hf : (ofIssuer c.issuer (env :: s.accepted)).head? = some env := by
      rw [← hi, ofIssuer_cons_self, List.head?_cons]
    refine ⟨_, List.mem_cons_self .., rfl, ⟨c.issuer, jti, c.now⟩, ?_⟩
    simp only [RolledBack, Fetching.after, hp, ha, Option.toList_some, List.cons_append,
      List.nil_append, true_and]
    refine ⟨(decide_of_status rfl rfl).mpr hnj, env, ?_, ⟨old, hk _ hm, hj⟩, new, hk _ hn, hlt⟩
    simp [hf, Except.isOk, Except.toBool]
  · simp [ha] at ha'

/-- While every accepted snapshot supersedes those accepted before it, no current value answers
`Clear` on the strength of an outdated snapshot. The first snapshot accepted out of order does. -/
theorem noRollback_while_inOrder {s : Fetching}
    (h : ((fetching P f).restrict (InOrder P f)).Reachable s) :
    (∀ h ∈ s.handles, h.IsCurrent s → ∀ query, ¬ RolledBack s h query) ∧
      ∀ c, ¬ InOrder P f s c → ∃ h ∈ (s.after P f c).handles, h.IsCurrent (s.after P f c) ∧
        ∃ query, RolledBack (s.after P f c) h query := by
  obtain ⟨-, hl⟩ := lastSupersedes_of_inOrder h
  constructor
  · intro handle hm hc query
    exact not_rolledBack (wellFormed_of_reachable h.of_restrict) hm hc (hl handle hm _) query
  · intro c hc
    exact rolledBack_of_not_inOrder hc

/-! ## An older snapshot accepted -/

/-- A signed list of one issuer. -/
def publishedList (publishedAt : Timestamp) (revoked : List Uuid) : RevocationListEnvelope :=
  let body : RevocationList := ⟨protocolVersion, Toy.aid, publishedAt, 100000,
    revoked.map fun jti => ⟨jti, publishedAt, none⟩, none⟩
  ⟨body, encodeBase64Url (Toy.signature (.digest body.toValue.jcs))⟩

/-- A fetcher with the default policy and a provider. -/
def providedFetcher : RevocationFetcher := ⟨{}, true⟩

/-- A call the provider answers. -/
def providedCall (now : Timestamp) (env : RevocationListEnvelope) : PrepareCall :=
  ⟨Toy.aid, none, now, .ok env, .error .noSnapshotFailClosed⟩

def newFetching : Fetching := ⟨fun _ => none, [], []⟩

/-- A list published at 200 that revokes a token, accepted at 200. -/
def revokingCall : PrepareCall := providedCall 200 (publishedList 200 [Toy.uuid 1])

/-- The list published at 100, which revokes nothing, served at 300. -/
def outdatedCall : PrepareCall := providedCall 300 (publishedList 100 [])

def revokedFetching : Fetching :=
  newFetching.after Toy.primitives providedFetcher revokingCall

theorem accepts_providedCall {slots : Slots} {now : Timestamp} {env : RevocationListEnvelope}
    (hc : (providedFetcher.cached slots (providedCall now env)).isNone = true)
    (hv : (verifySnapshot Toy.primitives env Toy.aid now 86400).isOk = true) :
    accepts Toy.primitives providedFetcher slots (providedCall now env) = some env := by
  obtain ⟨_, hv⟩ := exists_ok_of_isOk hv
  have ha : providedFetcher.acquire Toy.primitives (providedCall now env) = .ok env := by
    simp only [acquire, bind_eq_ok, pure_eq_ok]
    exact ⟨env, rfl, _, hv, rfl⟩
  rw [Option.isNone_iff_eq_none] at hc
  simp only [accepts, hc, ha, Except.toOption]

theorem accepts_revokingCall :
    accepts Toy.primitives providedFetcher newFetching.slots revokingCall =
      some (publishedList 200 [Toy.uuid 1]) :=
  accepts_providedCall (by decide +kernel) (by decide +kernel)

theorem accepts_outdatedCall :
    accepts Toy.primitives providedFetcher revokedFetching.slots outdatedCall =
      some (publishedList 100 []) :=
  accepts_providedCall (by decide +kernel) (by decide +kernel)

theorem accepted_revokedFetching :
    ofIssuer Toy.aid revokedFetching.accepted = [publishedList 200 [Toy.uuid 1]] := by
  rw [revokedFetching, Fetching.after, accepts_revokingCall]
  exact @ofIssuer_cons_self (publishedList 200 [Toy.uuid 1]) []

/-- A list published at 500 that revokes one more token, served at 600. -/
def laterCall : PrepareCall := providedCall 600 (publishedList 500 [Toy.uuid 1, Toy.uuid 2])

def supersededFetching : Fetching :=
  revokedFetching.after Toy.primitives providedFetcher laterCall

theorem accepts_laterCall :
    accepts Toy.primitives providedFetcher revokedFetching.slots laterCall =
      some (publishedList 500 [Toy.uuid 1, Toy.uuid 2]) :=
  accepts_providedCall (by decide +kernel) (by decide +kernel)

/-- A list and a later one are accepted, and a handle to the later one does not fall back. -/
theorem noRollback_while_inOrder_revoked :
    supersededFetching.accepted =
        [publishedList 500 [Toy.uuid 1, Toy.uuid 2], publishedList 200 [Toy.uuid 1]] ∧
      ∃ h ∈ supersededFetching.handles, h.IsCurrent supersededFetching ∧
        ∀ query, ¬ RolledBack supersededFetching h query := by
  have hfirst : ((fetching Toy.primitives providedFetcher).restrict
      (InOrder Toy.primitives providedFetcher)).Reachable revokedFetching := by
    refine .step (.init (s := newFetching) rfl) (e := revokingCall) ⟨fun env _ => ?_, rfl⟩
    exact .inl fun old hm => absurd hm List.not_mem_nil
  have horder : InOrder Toy.primitives providedFetcher revokedFetching laterCall := by
    intro env he
    obtain rfl := Option.some.inj (accepts_laterCall.symm.trans he)
    rw [show laterCall.issuer = Toy.aid from rfl, accepted_revokedFetching]
    exact .inl fun old hm => List.mem_singleton.mp hm ▸ by decide
  have hr := hfirst.step (e := laterCall) ⟨horder, rfl⟩
  refine ⟨?_, _, List.mem_cons_self .., rfl, ?_⟩
  · rw [supersededFetching, Fetching.after, accepts_laterCall, revokedFetching, Fetching.after,
      accepts_revokingCall]
    rfl
  · exact (noRollback_while_inOrder hr).1 _ (List.mem_cons_self ..) rfl

/-- After the outdated list is served, the revoked token is clear again. -/
theorem rollback_outdatedList :
    (fetching Toy.primitives providedFetcher).Reachable
        (revokedFetching.after Toy.primitives providedFetcher outdatedCall) ∧
      ∃ h ∈ (revokedFetching.after Toy.primitives providedFetcher outdatedCall).handles,
        ∃ query,
          RolledBack (revokedFetching.after Toy.primitives providedFetcher outdatedCall) h
            query := by
  constructor
  · exact .step (.step (.init (s := newFetching) rfl) (e := revokingCall) rfl) rfl
  · have ho : ¬ InOrder Toy.primitives providedFetcher revokedFetching outdatedCall := by
      intro ho
      have hs := ho _ accepts_outdatedCall
      rw [show outdatedCall.issuer = Toy.aid from rfl, accepted_revokedFetching] at hs
      rcases hs with hp | hr
      · exact absurd (hp _ List.mem_cons_self) (by decide)
      · exact absurd (hr _ List.mem_cons_self (Toy.uuid 1) (by decide)) (by decide)
    obtain ⟨h, hm, -, query, hq⟩ := rolledBack_of_not_inOrder ho
    exact ⟨h, hm, query, hq⟩

end Aitp
