import Aitp.Transport.RevocationRuns

/-! # The age of revocation sets

A snapshot's age is checked when it is fetched, and its use from the slot is
bounded by the cache lifetime and by its expiry. A set is never returned past
the staleness bound exactly when the last second at which its snapshot can be
used is within the bound.
-/

namespace Aitp

open RevocationFetcher Transition

variable (P : Primitives) (f : RevocationFetcher)

/-- The snapshot is no older than the staleness bound, and has not expired. -/
def Fresh (env : RevocationListEnvelope) (now : Timestamp) : Prop :=
  now - env.publishedAt ≤ f.policy.maxStaleness ∧ now ≤ env.revocationList.expiresAt

/-- The last second at which a snapshot accepted at `now` is used. A cache lifetime that fills an
`i64` is no bound. -/
def lastUse (env : RevocationListEnvelope) (now : Timestamp) : Timestamp :=
  if (f.policy.cacheTtl : Int) < i64Max then
    min (now + f.policy.cacheTtl) env.revocationList.expiresAt
  else env.revocationList.expiresAt

/-- The snapshot the call accepts, if any, stays within the staleness bound while it is used. -/
def ShortLived (s : Fetching) (c : PrepareCall) : Prop :=
  ∀ env, accepts P f s.slots c = some env →
    lastUse f env c.now ≤ env.publishedAt + f.policy.maxStaleness

/-- The call returns the revocation set of the snapshot. -/
def Returns (s : Fetching) (c : PrepareCall) (env : RevocationListEnvelope) : Prop :=
  ∃ h, (s.after P f c).handles.head? = some h ∧ h.basis = some env ∧
    h.prepared.status = .ok env.revoked

/-- What the slots hold: accepted snapshots, last used within the staleness bound. -/
def SlotsShortLived (s : Fetching) : Prop :=
  ∀ issuer snap, s.slots issuer = some snap →
    ∃ env, (ofIssuer issuer s.accepted).head? = some env ∧ snap = .ofList env snap.cachedAt ∧
      lastUse f env snap.cachedAt ≤ env.publishedAt + f.policy.maxStaleness

variable {P f}

theorem isUsable_iff {env : RevocationListEnvelope} {accepted : Timestamp} {c : PrepareCall} :
    f.isUsable c (.ofList env accepted) = true ↔
      saturate (c.now - accepted) ≤ durationSecs f.policy.cacheTtl ∧
        c.now ≤ env.revocationList.expiresAt := by
  rw [isUsable, Bool.and_eq_true, Bool.not_eq_true', Timestamp.isInThePast_eq_false,
    decide_eq_true_eq]
  rfl

theorem saturate_le_durationSecs {z : Int} {secs : ℕ} :
    saturate z ≤ durationSecs secs ↔ (secs : Int) < i64Max → z ≤ secs := by
  have hmin : i64Min ≤ 0 := by decide
  have hmax : (0 : Int) ≤ i64Max := by decide
  simp only [saturate, durationSecs]
  omega

theorem isUsable_iff_le_lastUse {env : RevocationListEnvelope} {accepted : Timestamp}
    {c : PrepareCall} :
    f.isUsable c (.ofList env accepted) = true ↔ c.now ≤ lastUse f env accepted := by
  rw [isUsable_iff, saturate_le_durationSecs, lastUse]
  split_ifs with h
  · rw [le_min_iff]
    simp only [h, forall_const]
    constructor
    · rintro ⟨hl, hx⟩
      exact ⟨by linarith, hx⟩
    · rintro ⟨hl, hx⟩
      exact ⟨by linarith, hx⟩
  · simp [h]

theorem lastUse_le_expiresAt {env : RevocationListEnvelope} {accepted : Timestamp} :
    lastUse f env accepted ≤ env.revocationList.expiresAt := by
  unfold lastUse
  split_ifs
  · exact min_le_right _ _
  · exact le_rfl

theorem accepts_eq_some {slots : Slots} {c : PrepareCall} {env : RevocationListEnvelope}
    (h : accepts P f slots c = some env) : f.acquire P c = .ok env := by
  unfold accepts at h
  split at h
  · cases h
  · exact toOption_eq_some.mp h

theorem le_lastUse_of_accepts {slots : Slots} {c : PrepareCall} {env : RevocationListEnvelope}
    (h : accepts P f slots c = some env) : c.now ≤ lastUse f env c.now := by
  have ha := accepts_eq_some h
  simp only [acquire, verifySnapshot, verifyRevocationList, bind_eq_ok, mapErr_eq_ok,
    ensure_eq_ok, pure_eq_ok, Bool.not_eq_true'] at ha
  obtain ⟨env', -, _, ⟨_, ⟨_, -, _, hx, -⟩, -⟩, rfl⟩ := ha
  rw [Timestamp.isInThePast_eq_false] at hx
  rw [← isUsable_iff_le_lastUse, isUsable_iff, saturate_le_durationSecs]
  refine ⟨fun _ => ?_, hx⟩
  rw [sub_self]
  exact Int.natCast_nonneg _

theorem fresh_of_le_lastUse {env : RevocationListEnvelope} {accepted now : Timestamp}
    (h : now ≤ lastUse f env accepted)
    (hs : lastUse f env accepted ≤ env.publishedAt + f.policy.maxStaleness) : Fresh f env now :=
  ⟨by linarith, h.trans lastUse_le_expiresAt⟩

theorem slotsShortLived_after {s : Fetching} {c : PrepareCall} (hc : ShortLived P f s c)
    (hs : SlotsShortLived f s) : SlotsShortLived f (s.after P f c) := by
  rcases prepare_cases (P := P) (f := f) s.slots c with
    ⟨snap, -, ha, hp⟩ | ⟨env, hi, ha, hp⟩ | ⟨e, ha, hp⟩
  · simpa [SlotsShortLived, Fetching.after, hp, ha] using hs
  · intro issuer snap hl
    simp only [Fetching.after, hp, ha, Option.toList_some, List.cons_append,
      List.nil_append] at hl ⊢
    by_cases hn : issuer = c.issuer
    · subst hn
      rw [Function.update_self] at hl
      obtain rfl := Option.some.inj hl
      refine ⟨env, ?_, rfl, hc env ha⟩
      rw [← hi, ofIssuer_cons_self, List.head?_cons]
    · rw [Function.update_of_ne hn] at hl
      rw [ofIssuer_cons_ne (by rw [hi]; exact Ne.symm hn)]
      exact hs issuer snap hl
  · simpa [SlotsShortLived, Fetching.after, hp, ha] using hs

theorem slotsShortLived_of_reachable {s : Fetching}
    (h : ((fetching P f).restrict (ShortLived P f)).Reachable s) : SlotsShortLived f s := by
  refine h.invariant ?_ ?_
  · rintro s rfl issuer snap hl
    cases hl
  · rintro s c s' hs ⟨hc, rfl⟩
    exact slotsShortLived_after hc hs

theorem fresh_of_returns {s : Fetching} {c : PrepareCall} {env : RevocationListEnvelope}
    (hs : SlotsShortLived f s) (hc : ShortLived P f s c) (h : Returns P f s c env) :
    Fresh f env c.now := by
  obtain ⟨handle, hh, hb, -⟩ := h
  obtain rfl := Option.some.inj hh
  rcases prepare_cases (P := P) (f := f) s.slots c with
    ⟨snap, hl, ha, hp⟩ | ⟨env', hi, ha, hp⟩ | ⟨e, ha, hp⟩
  · obtain ⟨hl, hu⟩ := Option.filter_eq_some_iff.mp hl
    obtain ⟨env', he, hsnap, hshort⟩ := hs _ _ hl
    obtain rfl : env' = env := by simpa [hp, ha, he, Except.isOk, Except.toBool] using hb
    rw [hsnap] at hu
    exact fresh_of_le_lastUse (isUsable_iff_le_lastUse.mp hu) hshort
  · obtain rfl : env' = env := by
      have hf : (ofIssuer c.issuer (env' :: s.accepted)).head? = some env' := by
        rw [← hi, ofIssuer_cons_self, List.head?_cons]
      simpa [hp, ha, hf, Except.isOk, Except.toBool] using hb
    exact fresh_of_le_lastUse (le_lastUse_of_accepts ha) (hc env' ha)
  · simp [hp, Except.isOk, Except.toBool] at hb

theorem returns_of_cached {s : Fetching} {c : PrepareCall} {env : RevocationListEnvelope}
    {accepted : Timestamp} (hn : (!f.provider && c.listUri.isNone) = false)
    (hl : f.cached s.slots c = some (.ofList env accepted))
    (he : (ofIssuer c.issuer s.accepted).head? = some env) : Returns P f s c env := by
  have hp : f.prepare P s.slots c = (⟨c.issuer, .ok env.revoked, c.listUri.isSome,
      f.policy.failMode⟩, s.slots) := by
    simp [prepare, hn, snapshot, hl, Snapshot.ofList]
  have ha : accepts P f s.slots c = none := by simp only [accepts, hl]
  refine ⟨_, rfl, ?_, ?_⟩
  · simp [hp, ha, he, Except.isOk, Except.toBool]
  · simp [hp]

theorem returns_of_accepts {s : Fetching} {c : PrepareCall} {env : RevocationListEnvelope}
    (ha : accepts P f s.slots c = some env) : Returns P f s c env := by
  rcases prepare_cases (P := P) (f := f) s.slots c with
    ⟨snap, -, ha', -⟩ | ⟨env', hi, ha', hp⟩ | ⟨e, ha', -⟩
  · simp [ha] at ha'
  · obtain rfl : env = env' := by simpa [ha] using ha'
    have hf : (ofIssuer c.issuer (env :: s.accepted)).head? = some env := by
      rw [← hi, ofIssuer_cons_self, List.head?_cons]
    refine ⟨_, rfl, ?_, by simp [hp]⟩
    simp [hp, ha, hf, Except.isOk, Except.toBool]
  · simp [ha] at ha'

theorem asks_of_accepts {slots : Slots} {c : PrepareCall} {env : RevocationListEnvelope}
    (h : accepts P f slots c = some env) : (!f.provider && c.listUri.isNone) = false := by
  by_contra hn
  rw [Bool.not_eq_false, Bool.and_eq_true, Bool.not_eq_true', Option.isNone_iff_eq_none] at hn
  have ha := accepts_eq_some h
  simp [acquire, fetched, hn] at ha

theorem returns_again {s : Fetching} {c : PrepareCall} {env : RevocationListEnvelope}
    {now : Timestamp} (ha : accepts P f s.slots c = some env) (hn : now ≤ lastUse f env c.now) :
    Returns P f (s.after P f c) { c with now := now } env := by
  rcases prepare_cases (P := P) (f := f) s.slots c with
    ⟨snap, -, ha', -⟩ | ⟨env', hi, ha', hp⟩ | ⟨e, ha', -⟩
  · simp [ha] at ha'
  · obtain rfl : env = env' := by simpa [ha] using ha'
    have hs : (s.after P f c).slots = Function.update s.slots c.issuer
        (some (.ofList env c.now)) := by
      simp only [Fetching.after, hp]
    have hu : f.isUsable { c with now := now } (.ofList env c.now) = true := by
      rw [isUsable_iff_le_lastUse]
      exact hn
    have hask := asks_of_accepts ha
    refine @returns_of_cached P f _ _ env c.now hask ?_ ?_
    · rw [hs]
      simp [cached, hu]
    · simp only [Fetching.after, ha, Option.toList_some, List.cons_append, List.nil_append]
      rw [← hi, ofIssuer_cons_self, List.head?_cons]
  · simp [ha] at ha'

theorem not_fresh_of_not_shortLived {s : Fetching} {c : PrepareCall}
    (hc : ¬ShortLived P f s c) : ∃ env now, c.now ≤ now ∧
      Returns P f (s.after P f c) { c with now := now } env ∧ ¬Fresh f env now := by
  simp only [ShortLived, not_forall, not_le] at hc
  obtain ⟨env, ha, hlt⟩ := hc
  refine ⟨env, lastUse f env c.now, le_lastUse_of_accepts ha, returns_again ha le_rfl, ?_⟩
  rintro ⟨hage, -⟩
  linarith

/-- While every accepted snapshot is short-lived, no call returns a set that is not fresh. A
snapshot accepted otherwise is returned too old by a later call. -/
theorem fresh_while_shortLived {s : Fetching}
    (h : ((fetching P f).restrict (ShortLived P f)).Reachable s) (c : PrepareCall) :
    (ShortLived P f s c → ∀ env, Returns P f s c env → Fresh f env c.now) ∧
      (¬ShortLived P f s c → ∃ env now, c.now ≤ now ∧
        Returns P f (s.after P f c) { c with now := now } env ∧ ¬Fresh f env now) :=
  ⟨fun hc _ hr => fresh_of_returns (slotsShortLived_of_reachable h) hc hr,
    not_fresh_of_not_shortLived⟩

/-! ## A cached snapshot past the bound -/

/-- A list published at 100, accepted when it is exactly as old as the default bound allows. -/
def lastMinuteCall : PrepareCall := providedCall 86500 (publishedList 100 [])

def lastMinuteFetching : Fetching :=
  newFetching.after Toy.primitives providedFetcher lastMinuteCall

theorem accepts_lastMinuteCall :
    accepts Toy.primitives providedFetcher newFetching.slots lastMinuteCall =
      some (publishedList 100 []) :=
  accepts_providedCall (by decide +kernel) (by decide +kernel)

theorem fresh_while_shortLived_revoked :
    Returns Toy.primitives providedFetcher newFetching revokingCall
        (publishedList 200 [Toy.uuid 1]) ∧
      Fresh providedFetcher (publishedList 200 [Toy.uuid 1]) revokingCall.now := by
  have hc : ShortLived Toy.primitives providedFetcher newFetching revokingCall := by
    intro env he
    obtain rfl : env = publishedList 200 [Toy.uuid 1] :=
      Option.some.inj (he.symm.trans accepts_revokingCall)
    decide
  have hr := @returns_of_accepts _ _ newFetching _ _ accepts_revokingCall
  exact ⟨hr, (fresh_while_shortLived (.init rfl) _).1 hc _ hr⟩

/-- A minute later the list is still returned, past the bound. -/
theorem returns_lastMinute :
    (fetching Toy.primitives providedFetcher).Reachable lastMinuteFetching ∧
      Returns Toy.primitives providedFetcher lastMinuteFetching
        { lastMinuteCall with now := 86560 } (publishedList 100 []) ∧
      ¬Fresh providedFetcher (publishedList 100 []) 86560 := by
  refine ⟨.step (.init (s := newFetching) rfl) (e := lastMinuteCall) rfl, ?_, ?_⟩
  · exact returns_again accepts_lastMinuteCall (by decide)
  · rintro ⟨hage, -⟩
    exact absurd hage (by decide)

end Aitp
