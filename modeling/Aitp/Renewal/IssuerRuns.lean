import Aitp.Foundation.Transition
import Aitp.Renewal.RoundTrip

/-! # Renewals that share a nonce store

Any calls of `process_renewal_request` at clocks that do not go back, over one
in-memory store. A nonce that renewed a token stays recorded while that token is
unexpired, so it renews nothing else until then.
-/

namespace Aitp

open Transition Expiring

/-- A call of `process_renewal_request`. -/
structure RenewalCall where
  request : TctRenewalPayload
  issuerKey : Signer
  ctx : RenewalContext
  drawn : RandomV4

/-- A call that succeeded: what it established, and what it returned. -/
structure Renewal where
  call : RenewalCall
  checked : CheckedRenewal
  tct : IssuedTct

/-- The store, the clock of the last call, and the renewals so far, newest first. -/
structure RenewalWorld where
  store : InMemoryNonceStore
  clock : Timestamp
  issued : List Renewal

variable (P : Primitives) (cfg : NonceStoreConfig)

/-- Steps 1 to 4 of a call. -/
def RenewalCall.check (c : RenewalCall) : Except RenewalError CheckedRenewal :=
  checkRenewalRequest P c.request c.issuerKey.aid c.ctx

/-- A call on a store. -/
def RenewalCall.process (c : RenewalCall) (st : InMemoryNonceStore) :
    InMemoryNonceStore × Except RenewalError IssuedTct :=
  processRenewalRequest P (InMemoryNonceStore.nonceStore cfg) st c.request c.issuerKey c.ctx c.drawn

/-- Times are `i64`. -/
structure RenewalCall.Fits (c : RenewalCall) : Prop where
  now : c.ctx.now.Fits
  manifestExpiresAt : c.ctx.manifestExpiresAt.Fits

/-- One call, at a clock that did not go back. -/
inductive RenewalStep (w : RenewalWorld) (c : RenewalCall) : RenewalWorld → Prop
  | renewed {st : InMemoryNonceStore} {checked : CheckedRenewal} {tct : IssuedTct} :
    c.Fits → w.clock ≤ c.ctx.now → c.check P = .ok checked →
    c.process P cfg w.store = (st, .ok tct) →
    RenewalStep w c ⟨st, c.ctx.now, ⟨c, checked, tct⟩ :: w.issued⟩
  | refused {st : InMemoryNonceStore} {e : RenewalError} :
    c.Fits → w.clock ≤ c.ctx.now → c.process P cfg w.store = (st, .error e) →
    RenewalStep w c ⟨st, c.ctx.now, w.issued⟩

/-- Calls on any store, from any clock. -/
def renewals : System RenewalWorld RenewalCall where
  init w := w.issued = []
  step := RenewalStep P cfg

/-! ## What a renewal keeps -/

/-- A renewal of an unexpired token that is not revoked, on its holder's proof, within the grants
presented, the offer, the answer of the policy and what is safe. -/
structure Renewal.Lawful (r : Renewal) : Prop where
  established : r.checked.Established P r.call.request r.call.issuerKey.aid r.call.ctx
  renewed : r.checked.Renewed r.call.issuerKey r.call.ctx r.call.drawn r.tct
  subsequence : r.tct.claims.grants.Sublist r.checked.claims.grants
  offered : ∀ g ∈ r.tct.claims.grants, g ∈ r.call.ctx.offeredGrants
  policy : ∀ policy, r.call.ctx.grantPolicy = some policy → ∀ g ∈ r.tct.claims.grants,
    g ∈ policy r.checked.claims.sub
      (r.checked.effectiveGrants.filter fun g => r.call.ctx.offeredGrants.contains g)
  revocation : ∀ f, r.call.ctx.revocation = .check f →
    let answer := f ⟨r.checked.claims.iss, r.checked.claims.jti, r.call.ctx.now⟩
    answer = some .clear ∨ ∃ safe, answer = some (.softFailSafeSubset safe) ∧
      ∀ g ∈ r.tct.claims.grants, g ∈ safe

/-- A nonce that comes back comes with another token, after the one it renewed has expired. -/
def Renewal.SingleUse (later earlier : Renewal) : Prop :=
  later.call.request.popNonce = earlier.call.request.popNonce →
    later.call.request.currentTct ≠ earlier.call.request.currentTct ∧
      earlier.checked.claims.exp < later.call.ctx.now

/-- The nonces of unexpired tokens are recorded until these expire. -/
structure RenewalWorld.Guarded (w : RenewalWorld) : Prop where
  lawful : ∀ r ∈ w.issued, r.Lawful P
  held : ∀ r ∈ w.issued, w.clock ≤ r.checked.claims.exp →
    ∃ e, w.store.held cfg r.checked.nonce = some e ∧ e.expiresAt = r.checked.claims.exp
  singleUse : w.issued.Pairwise Renewal.SingleUse

variable {P : Primitives} {cfg : NonceStoreConfig} {c : RenewalCall} {st : InMemoryNonceStore}

theorem renewal_lawful {checked : CheckedRenewal} {tct : IssuedTct} (hf : c.Fits)
    (hc : c.check P = .ok checked)
    (hm : mintRenewal P checked c.issuerKey c.ctx c.drawn = .ok tct) :
    Renewal.Lawful P ⟨c, checked, tct⟩ := by
  have he := checkRenewalRequest_ok hf.now hc
  have hr := mintRenewal_ok he hf.manifestExpiresAt hm
  have hsub := checkRevocation_sublist he.revocation
  have hg : ∀ g ∈ tct.claims.grants, g ∈ c.ctx.narrow checked.claims.sub checked.effectiveGrants :=
    fun g hg => hr.grants ▸ hg
  refine ⟨he, hr, ?_, ?_, ?_, ?_⟩
  · show tct.claims.grants.Sublist _
    rw [hr.grants]
    exact RenewalContext.narrow_sublist.trans hsub
  · intro g h
    exact (RenewalContext.mem_narrow.mp (hg g h)).2.1
  · intro policy hp g h
    exact (RenewalContext.mem_narrow.mp (hg g h)).2.2 policy hp
  · intro f hf
    have hrev := he.revocation
    rw [show c.ctx.revocation = .check f from hf] at hrev
    rcases checkRevocation_check_ok hrev with h | ⟨safe, h, hsafe⟩
    · exact .inl h
    · refine .inr ⟨safe, h, ?_⟩
      intro g hm
      exact hsafe g (RenewalContext.mem_narrow.mp (hg g hm)).1

/-! ## What a call leaves of the store -/

theorem nonceStore_issue_cases (rec : IssuedNonce) :
    ∃ held₁, Thins (st.held cfg) held₁ (fun _ e => e.expiresAt < rec.issuedAt) ∧
      ((((InMemoryNonceStore.nonceStore cfg).issue st rec).2 = .ok () ∧ held₁ rec.nonce = none ∧
          ((InMemoryNonceStore.nonceStore cfg).issue st rec).1.held cfg =
            Function.update held₁ rec.nonce (some ⟨rec.verifier, rec.expiresAt, 0⟩)) ∨
        ((InMemoryNonceStore.nonceStore cfg).issue st rec).2 ≠ .ok () ∧
          ((InMemoryNonceStore.nonceStore cfg).issue st rec).1.held cfg = held₁) := by
  obtain ⟨held₁, ht, h⟩ := @InMemoryNonceStore.issueSync_cases cfg st rec 0
  refine ⟨held₁, ht, ?_⟩
  rcases hi : st.issueSync cfg rec 0 with ⟨st', ⟨⟨⟩ | _⟩ | ⟨⟩⟩
  all_goals simpa [InMemoryNonceStore.nonceStore, hi] using h

theorem held_nonceStore_issue {rec : IssuedNonce} {n : Nonce} {e : Entry}
    (h : st.held cfg n = some e) (hl : rec.issuedAt ≤ e.expiresAt) :
    ((InMemoryNonceStore.nonceStore cfg).issue st rec).1.held cfg n = some e := by
  obtain ⟨held₁, ht, hcase⟩ := @nonceStore_issue_cases cfg st rec
  have hk : held₁ n = some e := by
    by_contra hne
    exact absurd (ht.removed h hne) (not_lt.mpr hl)
  rcases hcase with ⟨-, hn, hu⟩ | ⟨-, hu⟩
  · rw [hu, Function.update_of_ne]
    · exact hk
    · rintro rfl
      rw [hk] at hn
      exact absurd hn (by simp)
  · rw [hu]
    exact hk

/-- A nonce is recorded when no record of it is left that is not expired. -/
theorem nonceStore_issue_ok {rec : IssuedNonce}
    (h : ((InMemoryNonceStore.nonceStore cfg).issue st rec).2 = .ok ()) :
    ((InMemoryNonceStore.nonceStore cfg).issue st rec).1.held cfg rec.nonce =
        some ⟨rec.verifier, rec.expiresAt, 0⟩ ∧
      ∀ e, st.held cfg rec.nonce = some e → e.expiresAt < rec.issuedAt := by
  obtain ⟨held₁, ht, ⟨-, hn, hu⟩ | ⟨hne, -⟩⟩ := @nonceStore_issue_cases cfg st rec
  · refine ⟨by rw [hu, Function.update_self], ?_⟩
    intro e he
    refine ht.removed he ?_
    rw [hn]
    simp
  · exact absurd h hne

/-- A call that fails its checks leaves the store; any other records its nonce. -/
theorem process_cases (c : RenewalCall) (st : InMemoryNonceStore) :
    (∃ e, c.check P = .error e ∧ c.process P cfg st = (st, .error e)) ∨
      ∃ checked, c.check P = .ok checked ∧
        (c.process P cfg st).1 = ((InMemoryNonceStore.nonceStore cfg).issue st
          (checked.record c.issuerKey.aid c.ctx.now)).1 := by
  unfold RenewalCall.process processRenewalRequest
  rcases hc : checkRenewalRequest P c.request c.issuerKey.aid c.ctx with e | checked
  · exact .inl ⟨e, hc, rfl⟩
  · refine .inr ⟨checked, hc, ?_⟩
    simp only
    split
    all_goals simp_all

theorem held_process {n : Nonce} {e : Entry} (h : st.held cfg n = some e)
    (hl : c.ctx.now ≤ e.expiresAt) : (c.process P cfg st).1.held cfg n = some e := by
  rcases @process_cases P cfg c st with ⟨e', -, hp⟩ | ⟨checked, -, hp⟩
  · rw [hp]
    exact h
  · rw [hp]
    exact held_nonceStore_issue h hl

/-! ## Runs -/

/-- The records of earlier renewals outlive a call. -/
theorem RenewalWorld.Guarded.held_process {w : RenewalWorld} (hw : w.Guarded P cfg)
    (hc : w.clock ≤ c.ctx.now) {r : Renewal} (hr : r ∈ w.issued)
    (hl : c.ctx.now ≤ r.checked.claims.exp) :
    ∃ e, (c.process P cfg w.store).1.held cfg r.checked.nonce = some e ∧
      e.expiresAt = r.checked.claims.exp := by
  obtain ⟨e, he, hx⟩ := hw.held r hr (le_trans hc hl)
  exact ⟨e, Aitp.held_process he (hx ▸ hl), hx⟩

/-- A nonce that renewed an unexpired token renews nothing. -/
theorem RenewalWorld.Guarded.singleUse_of_ok {w : RenewalWorld} (hw : w.Guarded P cfg)
    (hf : c.Fits) (hc : w.clock ≤ c.ctx.now) {checked : CheckedRenewal} {tct : IssuedTct}
    (hk : c.check P = .ok checked)
    (hi : ((InMemoryNonceStore.nonceStore cfg).issue w.store
      (checked.record c.issuerKey.aid c.ctx.now)).2 = .ok ()) {r : Renewal} (hr : r ∈ w.issued) :
    Renewal.SingleUse ⟨c, checked, tct⟩ r := by
  intro hn
  have he := checkRenewalRequest_ok hf.now hk
  have hnonce : checked.nonce = r.checked.nonce :=
    he.nonce_eq (hw.lawful r hr).established hn
  have hx : r.checked.claims.exp < c.ctx.now := by
    by_contra hlt
    have hlive : c.ctx.now ≤ r.checked.claims.exp := not_lt.mp hlt
    obtain ⟨e, hheld, hexp⟩ := hw.held r hr (le_trans hc hlive)
    have hgone := (nonceStore_issue_ok hi).2 e (by rw [← hheld, ← hnonce]; rfl)
    rw [hexp] at hgone
    exact hlt hgone
  refine ⟨?_, hx⟩
  intro ht
  have hcl : checked.claims = r.checked.claims := he.claims_eq (hw.lawful r hr).established ht
  have hlive := he.live
  rw [hcl] at hlive
  exact absurd hx (not_lt.mpr hlive)

theorem guarded_step {w w' : RenewalWorld} (hw : w.Guarded P cfg) (h : RenewalStep P cfg w c w') :
    w'.Guarded P cfg := by
  cases h with
  | @refused st e hf hc hp =>
    refine ⟨hw.lawful, ?_, hw.singleUse⟩
    intro r hr hl
    have hx := hw.held_process (P := P) hc hr hl
    rwa [hp] at hx
  | @renewed st checked tct hf hc hk hp =>
    have ho : (c.process P cfg w.store).2 = .ok tct := by rw [hp]
    obtain ⟨checked', hk', hi, hm⟩ := processRenewalRequest_eq_ok.mp ho
    obtain rfl : checked = checked' := Except.ok.inj (hk.symm.trans hk')
    have hstore : st = ((InMemoryNonceStore.nonceStore cfg).issue w.store
        (checked.record c.issuerKey.aid c.ctx.now)).1 := by
      rcases @process_cases P cfg c w.store with ⟨e, he, -⟩ | ⟨checked', hk', hst⟩
      · rw [hk] at he
        exact absurd he (by simp)
      · obtain rfl : checked = checked' := Except.ok.inj (hk.symm.trans hk')
        rw [← hst, hp]
    constructor
    · intro r hr
      rcases List.mem_cons.mp hr with rfl | hr
      · exact renewal_lawful hf hk hm
      · exact hw.lawful r hr
    · intro r hr hl
      rcases List.mem_cons.mp hr with rfl | hr
      · have hx := (nonceStore_issue_ok hi).1
        rw [← hstore] at hx
        exact ⟨_, hx, rfl⟩
      · have hx := hw.held_process (P := P) hc hr hl
        rwa [hp] at hx
    · refine List.pairwise_cons.mpr ⟨?_, hw.singleUse⟩
      intro r hr
      exact hw.singleUse_of_ok hf hc hk hi hr

theorem guarded_reachable {w : RenewalWorld} (h : (renewals P cfg).Reachable w) :
    w.Guarded P cfg := by
  refine h.invariant ?_ ?_
  · intro w hi
    have hi : w.issued = [] := hi
    refine ⟨?_, ?_, ?_⟩
    · simp [hi]
    · simp [hi]
    · simp [hi]
  · intro w c w' hw hs
    exact guarded_step hw hs

/-- Over any calls that share a store, renewals are lawful, a nonce renews one token until that
token has expired, and a call that fails its checks leaves the store. -/
theorem renewal_safe {w : RenewalWorld} (h : (renewals P cfg).Reachable w) :
    (∀ r ∈ w.issued, r.Lawful P) ∧ w.issued.Pairwise Renewal.SingleUse ∧
      ∀ (c : RenewalCall) (e : RenewalError), c.check P = .error e →
        c.process P cfg w.store = (w.store, .error e) := by
  have hw := guarded_reachable h
  refine ⟨hw.lawful, hw.singleUse, ?_⟩
  intro c e he
  rcases @process_cases P cfg c w.store with ⟨e', he', hp⟩ | ⟨checked, hc, -⟩
  · obtain rfl : e = e' := Except.error.inj (he.symm.trans he')
    exact hp
  · rw [hc] at he
    exact absurd he (by simp)

open Toy in
/-- The renewal of a token that agent 1 holds. The same request is refused when it comes again. -/
theorem renewal_safe_toy : ∃ (w : RenewalWorld) (r : Renewal) (e : RenewalError),
    (renewals primitives roomyStore).Reachable w ∧ w.issued = [r] ∧ r.Lawful primitives ∧
      (r.call.process primitives roomyStore w.store).2 = .error e := by
  have hi := signer_total (agent 0)
  have hh := signer_total (agent 1)
  obtain ⟨current, h⟩ := exists_renewable (t := 0) (by decide) (by decide)
  obtain ⟨sig, hsig, -⟩ := h.buildRenewalRequest readsText hi.lawful hh renewalNonce
  have hc := h.checkRenewalRequest readsText hi.lawful hh.lawful hsig
  obtain ⟨renewed, hm⟩ := h.mintRenewal hi hh.lawful renewalNonce drawnUuid
  let c : RenewalCall := ⟨⟨current.token, encodeBase64Url renewalNonce.bytes, sig⟩,
    signer (agent 0), renewalContext 0, drawnUuid⟩
  have hp : (c.process primitives roomyStore .new).2 = .ok renewed :=
    processRenewalRequest_eq_ok.mpr ⟨_, hc, issue_roomyStore _, hm⟩
  have hfits : c.Fits := ⟨h.now, h.manifestExpiresAt⟩
  have hr : (renewals primitives roomyStore).Reachable ⟨.new, 0, []⟩ := .init rfl
  have hr := hr.step (RenewalStep.renewed hfits (le_refl 0) hc (Prod.ext rfl hp))
  rcases hagain : (c.process primitives roomyStore (c.process primitives roomyStore .new).1).2
    with e | tct
  · exact ⟨_, _, e, hr, rfl, (renewal_safe hr).1 _ (List.mem_singleton.mpr rfl), hagain⟩
  · -- Two renewals of one nonce are of two tokens.
    have hr := hr.step (RenewalStep.renewed hfits (le_refl 0) hc (Prod.ext rfl hagain))
    have hsingle := (List.pairwise_cons.mp (renewal_safe hr).2.1).1 _ (List.mem_singleton.mpr rfl)
    exact absurd rfl (hsingle rfl).1

end Aitp
