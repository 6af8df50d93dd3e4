import Aitp.Tct.RevocationRoundTrip
import Aitp.Tct.RoundTrip
import Aitp.Transport.RevocationAge

/-! # Serving revocation lists

The `ListRevoked` route of `transport/server.rs`, and the list that it serves when there is no
producer (`transport/revocation.rs`). A list that is served is answered from, at every verifier that
fetches it in time, for as long as it is cached.
-/

namespace Aitp

open RevocationFetcher Transition

/-! ## The route -/

/-- `DEFAULT_EMPTY_SNAPSHOT_TTL`, in seconds. -/
def defaultEmptySnapshotTtl : ℕ := 3600

def defaultEmptySnapshotRefreshSecs : Int := 60

/-- How `sign_empty` reports a token error. -/
def RevocationError.ofSigning : TctError → RevocationError
  | .crypto .signer => .signer
  | other => .signatureInvalid other

/-- The list of `EmptyRevocationProvider::sign_empty`. -/
def emptyList (issuer : Aid) (ttl : ℕ) (now : Timestamp) : RevocationList where
  version := protocolVersion
  issuer := issuer
  publishedAt := now
  expiresAt := now.saturatingAdd ttl
  entries := []
  extensions := none

def signEmpty (issuerKey : Signer) (ttl : ℕ) (now : Timestamp) :
    Except RevocationError RevocationListEnvelope :=
  mapErr .ofSigning (signRevocationList (emptyList issuerKey.aid ttl now) issuerKey)

/-- Whether `SignedEmptySnapshot` serves its cached list again. -/
def isRecent (now : Timestamp) (env : RevocationListEnvelope) : Bool :=
  let age := saturate (now - env.revocationList.publishedAt)
  decide (0 ≤ age ∧ age < defaultEmptySnapshotRefreshSecs)

/-- `SignedEmptySnapshot::current`, with the list it caches. -/
def signedEmptyCurrent (issuerKey : Signer) (cached : Option RevocationListEnvelope)
    (now : Timestamp) :
    Except RevocationError RevocationListEnvelope × Option RevocationListEnvelope :=
  match cached.filter (isRecent now) with
  | some env => (.ok env, cached)
  | none =>
    match signEmpty issuerKey defaultEmptySnapshotTtl now with
    | .ok env => (.ok env, some env)
    | .error e => (.error e, cached)

/-- The route of `revocation_router`: a body, or 503. -/
def listRevoked (current : Except RevocationError RevocationListEnvelope) :
    Except RevocationError Bytes :=
  match current with
  | .ok env => .ok (utf8 env.toValue.text)
  | .error _ => .error (.network "upstream status 503")

/-! ## What is fetched of it -/

variable {P : Primitives} {issuer : Signer} {key : VerifyingKey} {l : RevocationList}
  {env : RevocationListEnvelope} {f : RevocationFetcher} {slots : Slots} {c : PrepareCall}

/-- A list that its issuer signs, in the version of the protocol, and that is read in its envelope
as it was written. -/
structure RevocationList.Published (P : Primitives) (l : RevocationList) (issuer : Signer)
    (env : RevocationListEnvelope) : Prop extends l.Writable P (nestingLimit - 2) where
  version : l.version = protocolVersion
  own : l.issuer = issuer.aid
  signed : signRevocationList l issuer = .ok env

/-- The call asks about the issuer, and its network answers what the issuer serves. -/
structure PrepareCall.Fetches (c : PrepareCall) (f : RevocationFetcher) (issuer : Signer)
    (env : RevocationListEnvelope) : Prop where
  about : c.issuer = issuer.aid
  network : f.provider = false
  listUri : c.listUri.isSome = true
  served : c.served = listRevoked (.ok env)

namespace RevocationList.Published

theorem revocationList (h : l.Published P issuer env) : env.revocationList = l := by
  obtain ⟨-, sig, -, rfl⟩ := signRevocationList_eq_ok.mp h.signed
  rfl

theorem revoked (h : l.Published P issuer env) :
    env.revoked = l.entries.map RevocationEntry.jti := by
  rw [RevocationListEnvelope.revoked, h.revocationList]

theorem parseBody (h : l.Published P issuer env) (hP : P.ReadsText) :
    RevocationFetcher.parseBody P (utf8 env.toValue.text) = .ok env := by
  have hw : env.revocationList.Writable P (nestingLimit - 2) := h.revocationList ▸ h.toWritable
  have hj : ∀ e ∈ env.revocationList.entries, e.jti.checkV4 = .ok () :=
    h.revocationList ▸ (signRevocationList_eq_ok.mp h.signed).1
  have hd := hP.document_text (RevocationListEnvelope.readable_toValue hP hw)
  have ho : CheckedJson.ofDocument env.toValue =
      some ⟨env.toValue, RevocationListEnvelope.distinctKeys_toValue hw⟩ :=
    dif_pos (RevocationListEnvelope.distinctKeys_toValue hw)
  simp only [RevocationFetcher.parseBody, bind_eq_ok, okOr_eq_ok, mapErr_eq_ok]
  exact ⟨_, hd, _, ho, RevocationListEnvelope.parse_toValue hw hj⟩

theorem verifySnapshot (h : l.Published P issuer env) (hs : issuer.Lawful P key) {now : Timestamp}
    {maxStaleness : ℕ} (hx : now ≤ l.expiresAt) (ha : now ≤ l.publishedAt + maxStaleness) :
    Aitp.verifySnapshot P env issuer.aid now maxStaleness = .ok () := by
  have hv := verifyRevocationList_signed hs h.signed h.version h.own hx
  simp only [Aitp.verifySnapshot, bind_eq_ok, mapErr_eq_ok, ensure_eq_ok, decide_eq_true_eq,
    h.revocationList]
  refine ⟨(), hv, saturate_le_durationSecs.mpr fun _ => ?_⟩
  linarith

theorem acquire (h : l.Published P issuer env) (hP : P.ReadsText) (hs : issuer.Lawful P key)
    (hc : c.Fetches f issuer env) (hx : c.now ≤ l.expiresAt)
    (ha : c.now ≤ l.publishedAt + f.policy.maxStaleness) : f.acquire P c = .ok env := by
  have hfetched : f.fetched P c = .ok env := by
    rw [fetched, hc.network, if_neg (by decide), hc.listUri, if_pos rfl, hc.served, listRevoked,
      ok_bind]
    exact h.parseBody hP
  simp only [RevocationFetcher.acquire, bind_eq_ok, pure_eq_ok]
  exact ⟨env, hfetched, (), hc.about ▸ h.verifySnapshot hs hx ha, rfl⟩

end RevocationList.Published

/-- What a verifier answers from a list: revoked exactly what it names. -/
def PreparedRevocation.AnswersFrom (p : PreparedRevocation) (issuer : Aid) (l : RevocationList) :
    Prop :=
  ∀ query : RevocationQuery, query.issuer = issuer → p.decide query =
    some (if query.jti ∈ l.entries.map RevocationEntry.jti then .revoked else .clear)

theorem answersFrom_of_status {p : PreparedRevocation} (h : p.status = .ok env.revoked)
    (hl : env.revocationList = l) : p.AnswersFrom p.issuer l := by
  intro query hq
  simp only [PreparedRevocation.decide, h, hq, if_true, RevocationListEnvelope.revoked, hl]
  by_cases hm : query.jti ∈ l.entries.map RevocationEntry.jti
  · rw [if_pos hm, if_pos (List.contains_iff_mem.mpr hm)]
  · rw [if_neg hm, if_neg (fun hc => hm (List.contains_iff_mem.mp hc))]

theorem prepare_of_acquire (hn : f.cached slots c = none) (ha : f.acquire P c = .ok env)
    (hask : (!f.provider && c.listUri.isNone) = false) :
    f.prepare P slots c = (⟨c.issuer, .ok env.revoked, c.listUri.isSome, f.policy.failMode⟩,
      Function.update slots c.issuer (some (.ofList env c.now))) := by
  simp [prepare, hask, snapshot, hn, ha]

theorem prepare_of_cached {snap : Snapshot} (hn : f.cached slots c = some snap)
    (hask : (!f.provider && c.listUri.isNone) = false) :
    f.prepare P slots c = (⟨c.issuer, .ok snap.revoked, c.listUri.isSome, f.policy.failMode⟩,
      slots) := by
  simp [prepare, hask, snapshot, hn]

/-- The slots after some calls. -/
def slotsAfter (P : Primitives) (f : RevocationFetcher) (slots : Slots) (cs : List PrepareCall) :
    Slots :=
  cs.foldl (fun slots c => (f.prepare P slots c).2) slots

theorem cached_of_le_lastUse {accepted : Timestamp}
    (hl : slots c.issuer = some (.ofList env accepted)) (hn : c.now ≤ lastUse f env accepted) :
    f.cached slots c = some (.ofList env accepted) :=
  Option.filter_eq_some_iff.mpr ⟨hl, isUsable_iff_le_lastUse.mpr hn⟩

theorem slotsAfter_of_cached {aid : Aid} {accepted : Timestamp} {cs : List PrepareCall}
    (hcs : ∀ c ∈ cs, c.issuer = aid → c.now ≤ lastUse f env accepted)
    (hl : slots aid = some (.ofList env accepted)) :
    slotsAfter P f slots cs aid = some (.ofList env accepted) := by
  induction cs generalizing slots with
  | nil => exact hl
  | cons c cs ih =>
    rw [List.forall_mem_cons] at hcs
    apply ih hcs.2
    show (f.prepare P slots c).2 aid = some (.ofList env accepted)
    rcases @prepare_cases P f slots c with ⟨_, -, -, hp⟩ | ⟨env', -, ha, hp⟩ | ⟨_, -, hp⟩
    · rw [hp]
      exact hl
    · rw [hp]
      by_cases hi : c.issuer = aid
      · subst hi
        have hcached := cached_of_le_lastUse hl (hcs.1 rfl)
        simp [accepts, hcached] at ha
      · exact (Function.update_of_ne (Ne.symm hi) ..).trans hl
    · rw [hp]
      exact hl

theorem asks_of_listUri (h : c.listUri.isSome = true) :
    (!f.provider && c.listUri.isNone) = false := by
  rw [Bool.and_eq_false_iff]
  exact .inr (by rw [← Option.not_isSome, h]; rfl)

theorem answersFrom_of_acquire (h : l.Published P issuer env) (hc : c.Fetches f issuer env)
    (ha : f.acquire P c = .ok env) (hn : f.cached slots c = none) :
    (f.prepare P slots c).1.AnswersFrom issuer.aid l := by
  rw [prepare_of_acquire hn ha (asks_of_listUri hc.listUri), ← hc.about]
  exact answersFrom_of_status rfl h.revocationList

/-- A list that was acquired is answered from for as long as it is cached. -/
theorem answersFrom_after_acquire (h : l.Published P issuer env) (hc : c.Fetches f issuer env)
    (ha : f.acquire P c = .ok env) (hn : f.cached slots c = none) {cs : List PrepareCall}
    {c' : PrepareCall} (hcs : ∀ d ∈ c' :: cs, d.issuer = issuer.aid → d.now ≤ lastUse f env c.now)
    (hi : c'.issuer = issuer.aid) (huri : c'.listUri.isSome = true) :
    (f.prepare P (slotsAfter P f (f.prepare P slots c).2 cs) c').1.AnswersFrom issuer.aid l := by
  rw [List.forall_mem_cons] at hcs
  have hslot : slotsAfter P f (f.prepare P slots c).2 cs issuer.aid = some (.ofList env c.now) := by
    refine slotsAfter_of_cached hcs.2 ?_
    rw [prepare_of_acquire hn ha (asks_of_listUri hc.listUri), hc.about]
    exact Function.update_self ..
  have hcached := cached_of_le_lastUse (hi ▸ hslot) (hcs.1 hi)
  rw [prepare_of_cached hcached (asks_of_listUri huri), ← hi]
  exact answersFrom_of_status rfl h.revocationList

/-- A verifier that fetches a list while it is fresh answers from it, and goes on to do so for as
long as it caches it, whatever is served to it meanwhile. -/
theorem revocationList_served (hP : P.ReadsText) (hs : issuer.Lawful P key)
    (h : l.Published P issuer env) (hc : c.Fetches f issuer env) (hx : c.now ≤ l.expiresAt)
    (ha : c.now ≤ l.publishedAt + f.policy.maxStaleness) (hn : f.cached slots c = none) :
    (f.prepare P slots c).1.AnswersFrom issuer.aid l ∧
      ∀ (cs : List PrepareCall) (c' : PrepareCall),
        (∀ d ∈ c' :: cs, d.issuer = issuer.aid → d.now ≤ lastUse f env c.now) →
        c'.issuer = issuer.aid → c'.listUri.isSome = true →
        (f.prepare P (slotsAfter P f (f.prepare P slots c).2 cs) c').1.AnswersFrom issuer.aid l := by
  have hacquire := h.acquire hP hs hc hx ha
  constructor
  · exact answersFrom_of_acquire h hc hacquire hn
  · intro cs c' hcs hi huri
    exact answersFrom_after_acquire h hc hacquire hn hcs hi huri

namespace Toy

/-- A list of agent 0 that revokes one token. -/
def toyList : RevocationList where
  version := protocolVersion
  issuer := agent 0
  publishedAt := 200
  expiresAt := 1000
  entries := [⟨uuid 1, 150, none⟩]
  extensions := none

theorem exists_published : ∃ env, toyList.Published primitives (signer (agent 0)) env := by
  have hj : ∀ e ∈ toyList.entries, e.jti.checkV4 = .ok () := by
    intro e he
    obtain rfl := List.mem_singleton.mp he
    exact checkV4_uuid 1
  obtain ⟨env, henv, -⟩ := (signer_total (agent 0)).signRevocationList hj
  refine ⟨env, ⟨⟨?_, ?_, ?_, ?_⟩, rfl, rfl, henv⟩⟩
  · exact show Timestamp.Fits 200 by decide
  · exact show Timestamp.Fits 1000 by decide
  · intro e he
    obtain rfl := List.mem_singleton.mp he
    exact show Timestamp.Fits 150 by decide
  · rintro ms ⟨⟩

/-- A fetcher with the default policy. -/
def networkFetcher : RevocationFetcher := ⟨{}, false⟩

/-- A call about agent 0 at some reading of the clock, and what the network answers. -/
def networkCall (now : Timestamp) (served : Except RevocationError Bytes) : PrepareCall :=
  ⟨agent 0, some "https://a.example/list", now, .error .noSnapshotFailClosed, served⟩

end Toy

open Toy in
/-- A verifier that fetched the list at 300 still answers from it at 350, when nothing is served. -/
theorem revocationList_served_toy : ∃ slots : Slots,
    let later := networkFetcher.prepare primitives slots (networkCall 350 (.error .expired))
    later.1.decide ⟨agent 0, uuid 1, 350⟩ = some .revoked ∧
      later.1.decide ⟨agent 0, uuid 2, 350⟩ = some .clear := by
  obtain ⟨env, hpub⟩ := exists_published
  have hfetches : (networkCall 300 (listRevoked (.ok env))).Fetches networkFetcher
      (signer (agent 0)) env := ⟨rfl, rfl, rfl, rfl⟩
  obtain ⟨-, hlater⟩ := @revocationList_served primitives (signer (agent 0)) _ toyList env
    networkFetcher (fun _ => none) _ readsText (signer_total (agent 0)).lawful hpub hfetches
    (show (300 : Timestamp) ≤ 1000 by decide) (show (300 : Timestamp) ≤ 200 + 86400 by decide) rfl
  have hused : ∀ d ∈ [networkCall 350 (.error .expired)], d.issuer = (signer (agent 0)).aid →
      d.now ≤ lastUse networkFetcher env 300 := by
    intro d hd _
    obtain rfl := List.mem_singleton.mp hd
    rw [lastUse, hpub.revocationList]
    decide
  have hanswers := hlater [] (networkCall 350 (.error .expired)) hused rfl rfl
  refine ⟨_, (hanswers ⟨agent 0, uuid 1, 350⟩ rfl).trans ?_,
    (hanswers ⟨agent 0, uuid 2, 350⟩ rfl).trans ?_⟩
  · rw [if_pos]
    exact List.mem_singleton_self _
  · rw [if_neg]
    decide

/-! ## The list of a server without a producer -/

/-- Any requests for the list of a new server, at any readings of its clock. -/
def signedEmpty (issuerKey : Signer) : System (Option RevocationListEnvelope) Timestamp where
  init cached := cached = none
  step cached now cached' := now.Fits ∧ cached' = (signedEmptyCurrent issuerKey cached now).2

theorem writable_emptyList {aid : Aid} {ttl : ℕ} {now : Timestamp} (hn : now.Fits) :
    (emptyList aid ttl now).Writable P (nestingLimit - 2) where
  publishedAt := hn
  expiresAt := saturate_fits _
  revokedAt := nofun
  extensions := nofun

/-- A list that the server signed itself, at a reading of its clock. -/
def SignedEmptyAt (P : Primitives) (issuer : Signer) (env : RevocationListEnvelope) (published : Timestamp) : Prop :=
  published.Fits ∧ (emptyList issuer.aid defaultEmptySnapshotTtl published).Published P issuer env

theorem signedEmptyAt_of_signEmpty {now : Timestamp} (hn : now.Fits)
    (h : signEmpty issuer defaultEmptySnapshotTtl now = .ok env) :
    SignedEmptyAt P issuer env now := by
  refine ⟨hn, ?_⟩
  exact {
    writable_emptyList hn with
    version := rfl
    own := rfl
    signed := mapErr_eq_ok.mp h }

theorem le_of_saturate_lt {z : Int}
    (h : 0 ≤ saturate z ∧ saturate z < defaultEmptySnapshotRefreshSecs) : 0 ≤ z ∧ z ≤ 59 := by
  have hmin : i64Min < 0 := by decide
  have hmax : (60 : Int) ≤ i64Max := by decide
  simp only [saturate, defaultEmptySnapshotRefreshSecs] at h
  omega

/-- What the server serves, it signed less than a minute before. -/
theorem signedEmptyCurrent_ok {cached cached' : Option RevocationListEnvelope} {now : Timestamp}
    (hn : now.Fits) (hc : ∀ env ∈ cached, ∃ t, SignedEmptyAt P issuer env t)
    (h : signedEmptyCurrent issuer cached now = (.ok env, cached')) :
    (∃ t, SignedEmptyAt P issuer env t ∧ t ≤ now ∧ now ≤ t + 59) ∧
      ∀ env ∈ cached', ∃ t, SignedEmptyAt P issuer env t := by
  unfold signedEmptyCurrent at h
  split at h
  next env' hf =>
    obtain ⟨⟨⟩, rfl⟩ := Prod.mk.inj h
    obtain ⟨hm, hr⟩ := Option.filter_eq_some_iff.mp hf
    obtain ⟨t, ht⟩ := hc env hm
    refine ⟨⟨t, ht, ?_⟩, hc⟩
    have hp : env.revocationList.publishedAt = t := by rw [ht.2.revocationList]; rfl
    simp only [isRecent, decide_eq_true_eq, hp] at hr
    obtain ⟨h0, h59⟩ := le_of_saturate_lt hr
    exact ⟨sub_nonneg.mp h0, by linarith⟩
  next =>
    split at h
    next env' hs =>
      obtain ⟨⟨⟩, rfl⟩ := Prod.mk.inj h
      have ht : SignedEmptyAt P issuer env now := signedEmptyAt_of_signEmpty hn hs
      refine ⟨⟨now, ht, le_refl now, by linarith⟩, ?_⟩
      intro env' he
      obtain rfl := Option.some.inj he
      exact ⟨now, ht⟩
    next => cases (Prod.mk.inj h).1

theorem signedEmpty_cached {cached : Option RevocationListEnvelope}
    (h : (signedEmpty issuer).Reachable cached) :
    ∀ env ∈ cached, ∃ t, SignedEmptyAt P issuer env t := by
  refine h.invariant (I := fun cached => ∀ env ∈ cached, ∃ t, SignedEmptyAt P issuer env t) ?_ ?_
  · rintro _ rfl env he
    cases he
  · rintro cached now cached' hc ⟨hn, rfl⟩
    rcases hr : signedEmptyCurrent issuer cached now with ⟨_ | env, cached'⟩
    · have hsame : cached' = cached := by
        unfold signedEmptyCurrent at hr
        split at hr
        · cases (Prod.mk.inj hr).1
        · split at hr
          · cases (Prod.mk.inj hr).1
          · exact (Prod.mk.inj hr).2.symm
      rw [hsame]
      exact hc
    · exact (signedEmptyCurrent_ok hn hc hr).2

/-- A server without a producer, asked at any readings of its clock, always has a list to serve, and
a verifier that fetches it while its own clock is not too far ahead of the server's answers that
nothing is revoked. -/
theorem signedEmpty_clear (hP : P.ReadsText) (hs : issuer.Total P key)
    {cached : Option RevocationListEnvelope} (h : (signedEmpty issuer).Reachable cached)
    {now : Timestamp} (hn : now.Fits) :
    ∃ env, (signedEmptyCurrent issuer cached now).1 = .ok env ∧
      ∀ (f : RevocationFetcher) (slots : Slots) (c : PrepareCall), c.Fetches f issuer env →
        f.cached slots c = none → c.now.Fits →
        c.now + 59 ≤ now + min defaultEmptySnapshotTtl f.policy.maxStaleness →
        ∀ query : RevocationQuery, query.issuer = issuer.aid →
          (f.prepare P slots c).1.decide query = some .clear := by
  obtain ⟨env₀, hsigned, -⟩ := @Signer.Total.signRevocationList P issuer key
    (emptyList issuer.aid defaultEmptySnapshotTtl now) hs nofun
  have hsign : signEmpty issuer defaultEmptySnapshotTtl now = .ok env₀ := mapErr_eq_ok.mpr hsigned
  have hok : ∃ env cached', signedEmptyCurrent issuer cached now = (.ok env, cached') := by
    unfold signedEmptyCurrent
    split
    next env _ => exact ⟨env, cached, rfl⟩
    next => exact ⟨env₀, some env₀, by rw [hsign]⟩
  obtain ⟨env, cached', hcur⟩ := hok
  obtain ⟨⟨t, ⟨ht, hpub⟩, -, hle'⟩, -⟩ := signedEmptyCurrent_ok hn (signedEmpty_cached h) hcur
  refine ⟨env, by rw [hcur], ?_⟩
  intro f slots c hc hcached hcn hle query hq
  rw [Nat.cast_min] at hle
  have hmin₁ : min (defaultEmptySnapshotTtl : Int) f.policy.maxStaleness ≤
      defaultEmptySnapshotTtl := min_le_left _ _
  have hmin₂ : min (defaultEmptySnapshotTtl : Int) f.policy.maxStaleness ≤
      f.policy.maxStaleness := min_le_right _ _
  have hx : c.now ≤ (emptyList issuer.aid defaultEmptySnapshotTtl t).expiresAt := by
    refine (Timestamp.le_saturatingAdd_iff ht hcn _).mpr ?_
    have hd : durationSecs defaultEmptySnapshotTtl = defaultEmptySnapshotTtl := by decide
    rw [hd]
    linarith
  have ha : c.now ≤ (emptyList issuer.aid defaultEmptySnapshotTtl t).publishedAt +
      f.policy.maxStaleness := by
    show c.now ≤ t + f.policy.maxStaleness
    linarith
  have hacquire := hpub.acquire hP hs.lawful hc hx ha
  rw [answersFrom_of_acquire hpub hc hacquire hcached query hq, if_neg]
  exact List.not_mem_nil

open Toy in
/-- Agent 0, asked for the first time at 0, has revoked nothing at 100. -/
theorem signedEmpty_clear_toy : ∃ p : PreparedRevocation,
    p.decide ⟨agent 0, uuid 1, 100⟩ = some .clear := by
  obtain ⟨env, -, hclear⟩ := signedEmpty_clear readsText (signer_total (agent 0))
    (System.Reachable.init (S := signedEmpty (signer (agent 0))) rfl)
    (show Timestamp.Fits 0 by decide)
  exact ⟨_, hclear networkFetcher (fun _ => none) (networkCall 100 (listRevoked (.ok env)))
    ⟨rfl, rfl, rfl, rfl⟩ rfl (show Timestamp.Fits 100 by decide)
    (show (100 : Timestamp) + 59 ≤ 0 + 3600 by decide) _ rfl⟩

end Aitp
