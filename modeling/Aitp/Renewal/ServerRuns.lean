import Aitp.Manifest.Builder
import Aitp.Renewal.Server

/-! # Runs of the renewal endpoint

Any requests to a renewal endpoint, from any sources, in the order of their clocks. Its limiter
refuses exactly what exceeds it, its table stays small, only a holder's proof leaves a trace in the
nonce store, and what is renewed is lawful and not on the issuer's list.
-/

namespace Aitp

open SlidingWindow Transition

/-! ## The system -/

/-- The limiter with the calls to it, and the nonce store with the renewals. -/
structure EndpointWorld where
  limiter : Tracked String
  renewals : RenewalWorld

/-- What the handler keeps of it. -/
def EndpointWorld.state (w : EndpointWorld) : RouteState InMemoryNonceStore :=
  ⟨w.limiter.table, w.renewals.store⟩

/-- What a call of `process_renewal_request` leaves. -/
def RenewalCall.after (P : Primitives) (cfg : NonceStoreConfig) (c : RenewalCall)
    (w : RenewalWorld) : RenewalWorld :=
  match c.check P, (c.process P cfg w.store).2 with
  | .ok checked, .ok tct =>
    ⟨(c.process P cfg w.store).1, c.ctx.now, ⟨c, checked, tct⟩ :: w.issued⟩
  | _, _ => ⟨(c.process P cfg w.store).1, c.ctx.now, w.issued⟩

namespace RenewalServer

variable (P : Primitives) (cfg : NonceStoreConfig) (s : RenewalServer)

/-- The key that a request from an address is charged to. -/
def limiterKey (limit : RenewalRateLimit) (peer : IpAddr) (request : RenewalHttpRequest) :
    String :=
  transportKey (some (sourceOf limit peer request))

/-- What a request leaves of the limiter. -/
def limited (limiter : Tracked String) (request : RenewalHttpRequest) (env : RenewalEnv) :
    Tracked String :=
  match s.rateLimit, request.peer with
  | some limit, some peer =>
    limiter.call rateWindow rateLimitSweepThreshold limit.requestsPerSource
      (limiterKey limit peer request) env.instant
  | _, _ => limiter

/-- The call of `process_renewal_request` for a request, if it comes so far. -/
def processed (events : Table String) (request : RenewalHttpRequest) (env : RenewalEnv) :
    Option RenewalCall :=
  match (s.throttle events request env).1, s.readRequest P request env with
  | none, .ok payload => some ⟨payload, s.signer, s.context env, env.jti⟩
  | _, _ => none

/-- What a request leaves. -/
def after (w : EndpointWorld) (request : RenewalHttpRequest) (env : RenewalEnv) :
    EndpointWorld where
  limiter := s.limited w.limiter request env
  renewals :=
    match s.processed P w.limiter.table request env with
    | none => w.renewals
    | some c => c.after P cfg w.renewals

/-- Any requests, to an endpoint that has had none. -/
def endpoint : System EndpointWorld (RenewalHttpRequest × RenewalEnv) where
  init w := w.limiter.table = ∅ ∧ w.limiter.log = [] ∧ w.renewals.issued = []
  step w e w' := w' = s.after P cfg w e.1 e.2

/-- Requests that come in the order of their clocks. -/
structure Ordered (w : EndpointWorld) (e : RenewalHttpRequest × RenewalEnv) : Prop where
  fits : e.2.now.Fits
  now : w.renewals.clock ≤ e.2.now
  instant : w.limiter.clock ≤ e.2.instant

theorem state_after (w : EndpointWorld) (request : RenewalHttpRequest) (env : RenewalEnv) :
    (s.after P cfg w request env).state =
      (s.handleRenew P (InMemoryNonceStore.nonceStore cfg) w.state request env).1 := by
  have hevents : (s.limited w.limiter request env).table =
      (s.throttle w.limiter.table request env).2 := by
    unfold limited throttle
    cases s.rateLimit with
    | none => rfl
    | some limit =>
      cases request.peer with
      | none => rfl
      | some peer => rfl
  have hafter : ∀ c : RenewalCall,
      (c.after P cfg w.renewals).store = (c.process P cfg w.renewals.store).1 := by
    intro c
    unfold RenewalCall.after
    split <;> rfl
  unfold EndpointWorld.state after handleRenew processed
  dsimp only
  rw [hevents]
  rcases s.throttle w.limiter.table request env with ⟨_ | answer, events⟩
  · cases s.readRequest P request env with
    | error answer => rfl
    | ok payload =>
      dsimp only
      rw [hafter]
      rfl
  · rfl

end RenewalServer

/-! ## Answers -/

/-- An answer to a request that was let through and refused. -/
def RenewalAnswer.Declines : RenewalAnswer → Prop
  | refused status _ => 400 ≤ status
  | signerFailure _ => True
  | renewed _ | tooManyRequests => False

section

variable {P : Primitives} {s : RenewalServer} {request : RenewalHttpRequest} {env : RenewalEnv}

theorem RenewalAnswer.Declines.le_status {a : RenewalAnswer} (h : a.Declines) : 400 ≤ a.status := by
  cases a with
  | refused status e => exact h
  | signerFailure text => exact (by decide : 400 ≤ 500)
  | renewed e => exact h.elim
  | tooManyRequests => exact h.elim

theorem declines_refusal (signer : Signer) {status : ℕ} (hs : 400 ≤ status)
    (code : RenewalErrorCode) (reason : String) (retryable : Bool) :
    (refusal signer env status code reason retryable).Declines := by
  unfold refusal
  split
  · exact hs
  · trivial

theorem declines_failure (signer : Signer) (err : RenewalError) :
    (failure signer env err).Declines := by
  rw [RenewalServer.failure_eq]
  split_ifs
  · exact declines_refusal signer (by decide) _ _ _
  · trivial
  · exact declines_refusal signer (by decide) _ _ _

theorem RenewalServer.failsIn_readRequest :
    FailsIn RenewalAnswer.Declines (s.readRequest P request env) := by
  have hrefusal : ∀ code reason retryable,
      (refusal s.signer env 400 code reason retryable).Declines :=
    declines_refusal s.signer (by decide)
  refine FailsIn.bind (FailsIn.ensure (hrefusal _ _ _)) fun _ _ => ?_
  cases request.body with
  | read body =>
    refine FailsIn.bind (FailsIn.ensure (hrefusal _ _ _)) fun _ _ => ?_
    exact FailsIn.mapErr fun err => declines_failure s.signer err
  | unreadable =>
    rintro _ ⟨⟩
    exact hrefusal _ _ _
  | tooSlow =>
    rintro _ ⟨⟩
    exact hrefusal _ _ _

end

/-! ## Steps -/

namespace RenewalServer

variable {P : Primitives} {cfg : NonceStoreConfig} {s : RenewalServer} {w : EndpointWorld}
  {request : RenewalHttpRequest} {env : RenewalEnv} {limit : RenewalRateLimit}

theorem renewalStep_after {c : RenewalCall} {v : RenewalWorld} (hf : c.Fits)
    (hc : v.clock ≤ c.ctx.now) : RenewalStep P cfg v c (c.after P cfg v) := by
  unfold RenewalCall.after
  rcases hp : c.process P cfg v.store with ⟨st, tct | e⟩
  · split
    next checked tct' hk heq => cases heq
    next => exact .refused hf hc hp
  · split
    next checked tct' hk heq =>
      obtain rfl := Except.ok.inj heq
      exact .renewed hf hc hk hp
    next hne =>
      obtain ⟨checked, hk, -⟩ := processRenewalRequest_eq_ok.mp (congrArg Prod.snd hp)
      exact absurd rfl (hne checked _ hk)

/-- What a request does to the renewals: it leaves them, or it is a call. -/
theorem renewals_after (w : EndpointWorld) (request : RenewalHttpRequest) (env : RenewalEnv) :
    s.processed P w.limiter.table request env = none ∧
        (s.after P cfg w request env).renewals = w.renewals ∨
      ∃ payload, s.readRequest P request env = .ok payload ∧
        (s.throttle w.limiter.table request env).1 = none ∧
        (s.after P cfg w request env).renewals =
          RenewalCall.after P cfg ⟨payload, s.signer, s.context env, env.jti⟩ w.renewals := by
  unfold after processed
  dsimp only
  cases ht : (s.throttle w.limiter.table request env).1 with
  | some answer => exact .inl ⟨rfl, rfl⟩
  | none =>
    cases hr : s.readRequest P request env with
    | error answer => exact .inl ⟨rfl, rfl⟩
    | ok payload => exact .inr ⟨payload, rfl, rfl, rfl⟩

theorem limiter_reachable (hl : s.rateLimit = some limit)
    (h : ((s.endpoint P cfg).restrict Ordered).Reachable w) :
    ((tracking rateWindow rateLimitSweepThreshold limit.requestsPerSource).restrict
      SlidingWindow.InOrder).Reachable w.limiter := by
  induction h with
  | init h => exact .init ⟨h.1, h.2.1⟩
  | @step w e w' _ h ih =>
    obtain ⟨ho, rfl⟩ := h
    unfold after limited
    rw [hl]
    cases e.1.peer with
    | none => exact ih
    | some peer => exact ih.step (e := (limiterKey limit peer e.1, e.2.instant)) ⟨ho.instant, rfl⟩

theorem renewals_reachable (hm : s.manifest.expiresAt.Fits)
    (h : ((s.endpoint P cfg).restrict Ordered).Reachable w) :
    (renewals P cfg).Reachable w.renewals := by
  induction h with
  | init h => exact .init h.2.2
  | @step w e w' _ h ih =>
    obtain ⟨ho, rfl⟩ := h
    rcases @renewals_after P cfg s w e.1 e.2 with ⟨-, hr⟩ | ⟨payload, -, -, hr⟩
    · rw [hr]
      exact ih
    · rw [hr]
      exact ih.step (renewalStep_after ⟨ho.fits, hm⟩ ho.now)

theorem own_of_reachable (h : ((s.endpoint P cfg).restrict Ordered).Reachable w) :
    ∀ r ∈ w.renewals.issued, r.call.issuerKey = s.signer ∧ ∃ env, r.call.ctx = s.context env := by
  induction h with
  | init h =>
    rw [h.2.2]
    exact List.forall_mem_nil _
  | @step w e w' _ h ih =>
    obtain ⟨-, rfl⟩ := h
    rcases @renewals_after P cfg s w e.1 e.2 with ⟨-, hr⟩ | ⟨payload, -, -, hr⟩
    · rw [hr]
      exact ih
    · rw [hr, RenewalCall.after]
      split
      · refine List.forall_mem_cons.mpr ⟨⟨rfl, e.2, rfl⟩, ih⟩
      · exact ih

theorem not_named_of_lawful {r : Renewal} (hr : r.Lawful P) (hctx : r.call.ctx = s.context env) :
    ∃ list, env.list = some list ∧ r.checked.claims.jti ∉ list.revoked := by
  have hrev : r.call.ctx.revocation = .check (ownRevocation env.list) := by
    rw [hctx]
    rfl
  have hanswer := hr.revocation _ hrev
  cases hlist : env.list with
  | none =>
    rw [hlist] at hanswer
    rcases hanswer with h | ⟨safe, h, -⟩
    · cases h
    · cases h
  | some list =>
    refine ⟨list, rfl, ?_⟩
    intro hmem
    rw [hlist, ownRevocation, Option.map_some, if_pos hmem] at hanswer
    rcases hanswer with h | ⟨safe, h, -⟩
    · cases h
    · cases h

theorem handleRenew_eq_tooManyRequests {σ : Type} {nonceStore : NonceStore σ}
    {st : RouteState σ} : (s.handleRenew P nonceStore st request env).2 = .tooManyRequests ↔
      (s.throttle st.events request env).1 = some .tooManyRequests := by
  have hdeclines : ∀ answer : RenewalAnswer, answer.Declines → answer ≠ .tooManyRequests := by
    rintro _ h rfl
    exact h
  unfold handleRenew
  rcases s.throttle st.events request env with ⟨_ | answer, events⟩
  · cases hr : s.readRequest P request env with
    | error answer => simp [hdeclines _ (failsIn_readRequest _ hr)]
    | ok payload =>
      dsimp only
      unfold answer
      split
      · simp [hdeclines _ (declines_failure _ _)]
      · split
        · simp
        · simp
  · simp

theorem status_handleRenew {σ : Type} {nonceStore : NonceStore σ} {st : RouteState σ} :
    (s.handleRenew P nonceStore st request env).2.status = 200 ↔
      ∃ e, (s.handleRenew P nonceStore st request env).2 = .renewed e := by
  have hdeclines : ∀ answer : RenewalAnswer, answer.Declines →
      (answer.status = 200 ↔ ∃ e, answer = .renewed e) := by
    intro answer h
    have hle := h.le_status
    refine iff_of_false (by omega) ?_
    rintro ⟨e, rfl⟩
    exact h
  have hlimited : RenewalAnswer.tooManyRequests.status = 200 ↔
      ∃ e, RenewalAnswer.tooManyRequests = .renewed e := iff_of_false (by decide) nofun
  unfold handleRenew
  rcases ht : s.throttle st.events request env with ⟨_ | answer, events⟩
  · cases hr : s.readRequest P request env with
    | error answer => exact hdeclines _ (failsIn_readRequest _ hr)
    | ok payload =>
      dsimp only
      unfold answer
      split
      · exact hdeclines _ (declines_failure _ _)
      · split
        · exact iff_of_true rfl ⟨_, rfl⟩
        · exact hdeclines _ trivial
  · unfold throttle at ht
    split at ht
    · cases ht
    · split at ht
      · obtain ⟨ht, -⟩ := Prod.mk.inj ht
        obtain rfl := Option.some.inj ht
        exact hdeclines _ (declines_refusal s.signer (by decide) _ _ _)
      · obtain ⟨ht, -⟩ := Prod.mk.inj ht
        split_ifs at ht
        obtain rfl := Option.some.inj ht
        exact hlimited

theorem throttle_eq_tooManyRequests (hl : s.rateLimit = some limit) {peer : IpAddr}
    (hp : request.peer = some peer) {events : Table String} :
    (s.throttle events request env).1 = some .tooManyRequests ↔
      (rateLimitAllows limit events (sourceOf limit peer request) env.instant).1 = false := by
  unfold throttle
  rw [hl, hp]
  dsimp only
  split
  · next ha => simp [ha]
  · next ha => simpa using ha

/-- A request is granted with what was renewed for it. -/
theorem renewed_of_granted {e : AitpEnvelope}
    (h : (s.handleRenew P (InMemoryNonceStore.nonceStore cfg) w.state request env).2 =
      .renewed e) : ∃ r, (s.after P cfg w request env).renewals.issued = r :: w.renewals.issued ∧
        renewalResponseEnvelope s.signer r.tct r.call.request.popNonce env.messageId.id env.now =
          .ok e := by
  have hdeclines : ∀ answer : RenewalAnswer, answer.Declines → answer ≠ .renewed e := by
    rintro _ h rfl
    exact h
  unfold handleRenew at h
  rcases ht : s.throttle w.limiter.table request env with ⟨answer, events⟩
  rw [show w.state.events = w.limiter.table from rfl, ht] at h
  cases answer with
  | some answer =>
    -- The limiter declines, or answers 429.
    obtain rfl : answer = .renewed e := h
    unfold throttle at ht
    split at ht
    · cases ht
    · split at ht
      · obtain ⟨ht, -⟩ := Prod.mk.inj ht
        exact absurd (Option.some.inj ht) (hdeclines _ (declines_refusal s.signer (by decide) _ _ _))
      · obtain ⟨ht, -⟩ := Prod.mk.inj ht
        split_ifs at ht
        cases ht
  | none =>
    dsimp only at h
    cases hr : s.readRequest P request env with
    | error answer =>
      rw [hr] at h
      exact absurd h (hdeclines _ (failsIn_readRequest _ hr))
    | ok payload =>
      rw [hr] at h
      dsimp only at h
      let c : RenewalCall := ⟨payload, s.signer, s.context env, env.jti⟩
      have hafter : (s.after P cfg w request env).renewals = c.after P cfg w.renewals := by
        unfold after processed
        dsimp only
        rw [ht, hr]
      cases hd : (c.process P cfg w.renewals.store).2 with
      | error err =>
        have hd' : (processRenewalRequest P (InMemoryNonceStore.nonceStore cfg) w.state.store
          payload s.signer (s.context env) env.jti).2 = .error err := hd
        rw [hd'] at h
        exact absurd h (hdeclines _ (declines_failure _ _))
      | ok tct =>
        have hd' : (processRenewalRequest P (InMemoryNonceStore.nonceStore cfg) w.state.store
          payload s.signer (s.context env) env.jti).2 = .ok tct := hd
        obtain ⟨checked, hk, -, -⟩ := processRenewalRequest_eq_ok.mp hd
        rw [hd'] at h
        unfold answer at h
        dsimp only at h
        split at h
        next e' he =>
          obtain rfl : e' = e := RenewalAnswer.renewed.inj h
          refine ⟨⟨c, checked, tct⟩, ?_, he⟩
          have hcheck : c.check P = .ok checked := hk
          rw [hafter, RenewalCall.after, hd, hcheck]
        next => cases h

theorem handleRenew_of_renewed {r : Renewal}
    (h : (s.after P cfg w request env).renewals.issued = r :: w.renewals.issued) :
    (s.handleRenew P (InMemoryNonceStore.nonceStore cfg) w.state request env).2 =
      s.answer r.call.request env (.ok r.tct) := by
  rcases @renewals_after P cfg s w request env with ⟨-, hr⟩ | ⟨payload, hread, ht, hr⟩
  · rw [hr] at h
    exact absurd h.symm (List.cons_ne_self _ _)
  · rw [hr, RenewalCall.after] at h
    split at h
    next checked tct hk hp =>
      obtain rfl := (List.cons.inj h).1
      unfold handleRenew
      rcases htable : s.throttle w.limiter.table request env with ⟨answer, events⟩
      rw [htable] at ht
      obtain rfl : answer = none := ht
      rw [show w.state.events = w.limiter.table from rfl, htable, hread]
      exact congrArg (s.answer payload env) hp
    next => exact absurd h.symm (List.cons_ne_self _ _)

theorem checked_of_traced (h : (s.handleRenew P (InMemoryNonceStore.nonceStore cfg) w.state request
    env).1.store ≠ w.renewals.store) : ∃ payload checked,
      s.readRequest P request env = .ok payload ∧
        checkRenewalRequest P payload s.signer.aid (s.context env) = .ok checked := by
  rw [← state_after] at h
  rcases @renewals_after P cfg s w request env with
    ⟨-, hr⟩ | ⟨payload, hread, -, hr⟩
  · rw [EndpointWorld.state, hr] at h
    exact absurd rfl h
  · refine ⟨payload, ?_⟩
    rcases @process_cases P cfg ⟨payload, s.signer, s.context env, env.jti⟩ w.renewals.store with
      ⟨err, hc, hp⟩ | ⟨checked, hc, -⟩
    · rw [EndpointWorld.state, hr, RenewalCall.after, hp] at h
      split at h
      · exact absurd rfl h
      · exact absurd rfl h
    · exact ⟨checked, hread, hc⟩

end RenewalServer

/-! ## The law -/

/-- What a limiter keeps to. -/
structure LimiterLaw (P : Primitives) (cfg : NonceStoreConfig) (s : RenewalServer)
    (limit : RenewalRateLimit) (w : EndpointWorld) : Prop where
  /-- It refuses a request exactly if its number of requests of the source was let through in the
  60 seconds before. -/
  exact : ∀ request peer env, request.peer = some peer → w.limiter.clock ≤ env.instant →
    ((s.handleRenew P (InMemoryNonceStore.nonceStore cfg) w.state request env).2 =
        .tooManyRequests ↔
      limit.requestsPerSource ≤ (live rateWindow env.instant
        (charged (RenewalServer.limiterKey limit peer request) w.limiter.log)).length)
  window : ∀ (I : ℕ → Prop) [DecidablePred I], Window rateWindow I → ∀ k,
    ((charged k w.limiter.log).filter fun t => decide (I t)).length ≤ limit.requestsPerSource
  bounded : w.limiter.table.entries.length ≤
    max rateLimitSweepThreshold (active rateWindow w.limiter.clock w.limiter.log).length + 1

/-- What an endpoint keeps to. -/
structure EndpointLaw (P : Primitives) (cfg : NonceStoreConfig) (s : RenewalServer)
    (w : EndpointWorld) : Prop where
  /-- What is renewed is lawful, and the list that the issuer read for it does not name it. -/
  lawful : ∀ r ∈ w.renewals.issued, r.Lawful P ∧ r.call.issuerKey = s.signer ∧ ∃ env list,
    r.call.ctx = s.context env ∧ env.list = some list ∧ r.checked.claims.jti ∉ list.revoked
  singleUse : w.renewals.issued.Pairwise Renewal.SingleUse
  /-- A renewal is granted exactly when it was made and the issuer signed the answer. -/
  granted : ∀ request env e,
    (s.handleRenew P (InMemoryNonceStore.nonceStore cfg) w.state request env).2 = .renewed e ↔
    ∃ r, (s.after P cfg w request env).renewals.issued = r :: w.renewals.issued ∧
      renewalResponseEnvelope s.signer r.tct r.call.request.popNonce env.messageId.id env.now =
        .ok e
  /-- A renewal that was made is answered 500 if the issuer did not sign the answer. -/
  unsigned : ∀ request env r err,
    (s.after P cfg w request env).renewals.issued = r :: w.renewals.issued →
    renewalResponseEnvelope s.signer r.tct r.call.request.popNonce env.messageId.id env.now =
      .error err →
    (s.handleRenew P (InMemoryNonceStore.nonceStore cfg) w.state request env).2 =
      .signerFailure env.signerText
  /-- Every answer but a renewal is an error. -/
  status : ∀ request env,
    (s.handleRenew P (InMemoryNonceStore.nonceStore cfg) w.state request env).2.status = 200 ↔
    ∃ e, (s.handleRenew P (InMemoryNonceStore.nonceStore cfg) w.state request env).2 = .renewed e
  /-- Only a holder that proved its key to the issuer of its token leaves a trace in the store. -/
  traced : ∀ request env,
    (s.handleRenew P (InMemoryNonceStore.nonceStore cfg) w.state request env).1.store ≠
      w.renewals.store →
    ∃ payload checked, s.readRequest P request env = .ok payload ∧
      checkRenewalRequest P payload s.signer.aid (s.context env) = .ok checked
  limited : ∀ limit, s.rateLimit = some limit → LimiterLaw P cfg s limit w

section

variable {P : Primitives} {cfg : NonceStoreConfig} {s : RenewalServer} {w : EndpointWorld}

open RenewalServer in
theorem limiterLaw_of_reachable {limit : RenewalRateLimit} (hl : s.rateLimit = some limit)
    (h : ((s.endpoint P cfg).restrict Ordered).Reachable w) : LimiterLaw P cfg s limit w := by
  have hlimiter := limiter_reachable hl h
  constructor
  · intro request peer env hp hc
    rw [handleRenew_eq_tooManyRequests, throttle_eq_tooManyRequests hl hp]
    have hallowed := allowed_iff (k := limiterKey limit peer request) hlimiter hc
    rw [← Nat.not_lt, ← hallowed, Bool.not_eq_true]
    rfl
  · intro I _ hI k
    exact length_charged_le hlimiter hI k
  · exact length_entries_le hlimiter.of_restrict

open RenewalServer in
/-- Over any requests in the order of their clocks, the endpoint renews lawfully what its list does
not name, each nonce once, says what it did, and limits each source. -/
theorem renewalEndpoint_law (hm : s.manifest.expiresAt.Fits)
    (h : ((s.endpoint P cfg).restrict Ordered).Reachable w) : EndpointLaw P cfg s w := by
  have hguarded := guarded_reachable (renewals_reachable hm h)
  constructor
  · intro r hr
    obtain ⟨hkey, env, hctx⟩ := own_of_reachable h r hr
    have hlawful := hguarded.lawful r hr
    obtain ⟨list, hlist, hnot⟩ := not_named_of_lawful hlawful hctx
    exact ⟨hlawful, hkey, env, list, hctx, hlist, hnot⟩
  · exact hguarded.singleUse
  · intro request env e
    constructor
    · exact renewed_of_granted
    · rintro ⟨r, hr, he⟩
      rw [handleRenew_of_renewed hr, answer, he]
  · intro request env r err hr he
    rw [handleRenew_of_renewed hr, answer, he]
  · exact fun _ _ => status_handleRenew
  · intro request env he
    exact checked_of_traced he
  · intro limit hl
    exact limiterLaw_of_reachable hl h

end

/-! ## An endpoint at work -/

namespace Toy

/-- An endpoint of agent 0 that lets one request of a source through in 60 seconds. -/
def renewalServer (bodyLimit : ℕ) : RenewalServer where
  signer := signer (agent 0)
  manifest := manifest (agent 0) ["demo.echo"] [] 0
  grantPolicy := none
  rateLimit := some ⟨1, []⟩
  bodyLimit := bodyLimit
  keyed := rfl

/-- Nothing is on the issuer's list. -/
def renewalEnv : RenewalEnv where
  instant := 0
  list := some ⟨⟨protocolVersion, agent 0, 0, 3600, [], none⟩, ""⟩
  now := 0
  refusedAt := 0
  jti := drawnUuid
  messageId := drawnUuid
  text := ""
  signerText := ""

def noForwarding : ForwardingHeaders := ⟨[], []⟩

def holderAddress : IpAddr := .v4 ⟨[10, 20, 30, 40], rfl⟩

def freshEndpoint : EndpointWorld := ⟨⟨∅, 0, []⟩, ⟨.new, 0, []⟩⟩

theorem fits_renewalServer (bodyLimit : ℕ) : (renewalServer bodyLimit).manifest.expiresAt.Fits :=
  saturate_fits _

theorem exists_renewableBy (bodyLimit : ℕ) : ∃ current, Renewable primitives (heldBuilder 0) 0
    current (signer (agent 1)) ((renewalServer bodyLimit).context renewalEnv) ["demo.echo"] := by
  obtain ⟨current, h⟩ := exists_renewable (t := 0) (by decide) (by decide)
  have hle : (1000 : Timestamp) ≤ (renewalServer bodyLimit).manifest.expiresAt := by
    exact show (1000 : Int) ≤ Timestamp.saturatingAdd 0 defaultManifestTtl by decide
  refine ⟨current, h.wellTyped, h.grant, h.built, h.exact, h.subject, h.now,
    fits_renewalServer bodyLimit, ⟨h.live.iat, h.live.exp, ?_⟩, h.unrevoked, ?_⟩
  · rintro t ⟨⟩
    exact (h.live.cap 1000 rfl).trans hle
  · exact show (["demo.echo"].filter fun g => ["demo.echo"].contains g) ≠ [] by decide

theorem allows_freshEndpoint (payload : TctRenewalPayload) :
    (rateLimitAllows ⟨1, []⟩ ∅ (RenewalServer.sourceOf ⟨1, []⟩ holderAddress
      (payload.posted (some holderAddress) noForwarding)) 0).1 = true := by
  have hreach : ((tracking rateWindow rateLimitSweepThreshold 1).restrict
      SlidingWindow.InOrder).Reachable (⟨∅, 0, []⟩ : Tracked String) := .init ⟨rfl, rfl⟩
  exact (allowed_iff hreach (le_refl 0)).mpr Nat.zero_lt_one

theorem throttle_freshEndpoint (bodyLimit : ℕ) (payload : TctRenewalPayload) :
    ((renewalServer bodyLimit).throttle ∅ (payload.posted (some holderAddress) noForwarding)
      renewalEnv).1 = none :=
  @if_pos _ _ (allows_freshEndpoint payload) _ none (some RenewalAnswer.tooManyRequests)

/-- The limiter has charged the source of the first request. -/
theorem live_afterFirst (bodyLimit : ℕ) (payload : TctRenewalPayload) :
    1 ≤ (live rateWindow 0 (charged (RenewalServer.limiterKey ⟨1, []⟩ holderAddress
        (payload.posted (some holderAddress) noForwarding))
      ((renewalServer bodyLimit).limited freshEndpoint.limiter
        (payload.posted (some holderAddress) noForwarding) renewalEnv).log)).length := by
  have hlog : ((renewalServer bodyLimit).limited freshEndpoint.limiter
      (payload.posted (some holderAddress) noForwarding) renewalEnv).log =
      [⟨_, 0, (rateLimitAllows ⟨1, []⟩ ∅ (RenewalServer.sourceOf ⟨1, []⟩ holderAddress
        (payload.posted (some holderAddress) noForwarding)) 0).1⟩] :=
    rfl
  rw [hlog, allows_freshEndpoint]
  simp only [charged, RenewalServer.limiterKey, List.filter_cons, Bool.true_and, decide_true,
    if_true, List.filter_nil, List.map_cons, List.map_nil]
  decide

/-- Agent 1 asks the endpoint of agent 0 to renew its token, and the request passes every check. -/
theorem exists_asked : ∃ (bodyLimit : ℕ) (payload : TctRenewalPayload)
    (ctx : RenewalResponseContext) (claims : TctClaims) (checked : CheckedRenewal)
    (tct : IssuedTct), (renewalServer bodyLimit).Asked primitives payload renewalEnv ctx claims ∧
      checkRenewalRequest primitives payload (agent 0)
        ((renewalServer bodyLimit).context renewalEnv) = .ok checked ∧
      mintRenewal primitives checked (signer (agent 0))
        ((renewalServer bodyLimit).context renewalEnv) renewalEnv.jti = .ok tct := by
  have hi := signer_total (agent 0)
  have hh := signer_total (agent 1)
  obtain ⟨current, h⟩ := exists_renewableBy 0
  obtain ⟨sig, hsig, -⟩ := h.buildRenewalRequest readsText hi.lawful hh renewalNonce
  let payload : TctRenewalPayload := ⟨current.token, encodeBase64Url renewalNonce.bytes, sig⟩
  have hc := h.checkRenewalRequest readsText hi.lawful hh.lawful hsig
  obtain ⟨tct, hm⟩ := h.mintRenewal hi hh.lawful renewalNonce drawnUuid
  obtain ⟨-, hiss, hsub, -⟩ := h.claims hh.lawful
  let s := renewalServer (utf8 payload.toValue.text).length
  refine ⟨(utf8 payload.toValue.text).length, payload, ⟨agent 1, current.token,
    encodeBase64Url renewalNonce.bytes, 0, some s.manifest.expiresAt⟩, current.claims.reread primitives, _,
    tct, ?_, hc, hm⟩
  refine ⟨rfl, rfl, h.peekClaims readsText hi.lawful hh.lawful, hiss, hsub, rfl,
    fits_renewalServer _, le_refl _, ⟨le_refl 0, le_refl 0⟩, ?_, ⟨le_refl 0, ?_⟩, ?_, ?_, ?_⟩
  · exact ⟨show Timestamp.Fits 0 by decide, show Timestamp.Fits 0 by decide⟩
  · exact show (0 : Int) ≤ 0 + defaultTimestampTolerance by decide
  · exact show Timestamp.isWithinToleranceOf 0 0 defaultTimestampTolerance = true by decide
  · exact show (0 : Int) ≤ Timestamp.saturatingAdd 0 defaultManifestTtl by decide
  · exact show Timestamp.Exact (min (Timestamp.saturatingAdd 0 defaultTctTtl)
      (Timestamp.saturatingAdd 0 defaultManifestTtl)) by decide

end Toy

open Toy RenewalServer in
/-- The endpoint of agent 0 has renewed the token of agent 1, which it limits when it asks again. -/
theorem renewalEndpoint_law_toy : ∃ (s : RenewalServer) (w : EndpointWorld) (r : Renewal),
    ((s.endpoint primitives roomyStore).restrict Ordered).Reachable w ∧
      w.renewals.issued = [r] ∧ EndpointLaw primitives roomyStore s w ∧
      (s.handleRenew primitives (InMemoryNonceStore.nonceStore roomyStore) w.state
        (r.call.request.posted (some holderAddress) noForwarding) renewalEnv).2 =
        .tooManyRequests := by
  obtain ⟨bodyLimit, payload, ctx, claims, checked, tct, hasked, hc, hm⟩ := exists_asked
  let s := renewalServer bodyLimit
  let request := payload.posted (some holderAddress) noForwarding
  let c : RenewalCall := ⟨payload, s.signer, s.context renewalEnv, renewalEnv.jti⟩
  have hcheck : c.check primitives = .ok checked := hc
  have hd : (c.process primitives roomyStore .new).2 = .ok tct :=
    processRenewalRequest_eq_ok.mpr ⟨_, hc, issue_roomyStore _, hm⟩
  have hreach : ((s.endpoint primitives roomyStore).restrict Ordered).Reachable
      (s.after primitives roomyStore freshEndpoint request renewalEnv) := by
    refine System.Reachable.step (e := (request, renewalEnv)) (.init ⟨rfl, rfl, rfl⟩) ⟨⟨?_, ?_, ?_⟩,
      rfl⟩
    · exact show Timestamp.Fits 0 by decide
    · exact le_refl (0 : Int)
    · exact le_refl 0
  have hissued : (s.after primitives roomyStore freshEndpoint request renewalEnv).renewals.issued =
      [⟨c, checked, tct⟩] := by
    unfold after processed
    dsimp only
    rw [show freshEndpoint.limiter.table = ∅ from rfl, throttle_freshEndpoint,
      readRequest_posted readsText hasked.size]
    dsimp only
    rw [RenewalCall.after, show freshEndpoint.renewals.store = .new from rfl, hcheck, hd]
    rfl
  have hlaw := renewalEndpoint_law (fits_renewalServer bodyLimit) hreach
  refine ⟨s, _, _, hreach, hissued, hlaw, ?_⟩
  exact ((hlaw.limited _ rfl).exact request holderAddress renewalEnv rfl (le_refl 0)).mpr
    (live_afterFirst bodyLimit payload)

end Aitp
