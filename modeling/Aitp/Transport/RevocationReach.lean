import Aitp.Renewal.Authority
import Aitp.Renewal.Permitted
import Aitp.Spiffe.ProofInput
import Aitp.Transport.RevocationServed

/-! # How far a revocation reaches

An issuer revokes and publishes lists, any number of verifiers fetch and cache them, and the network
delivers whatever it likes of what was published. A revocation reaches each verifier when the longest
age of a list and the longest life of a cached one have passed: from then on, a verifier that obtains
a list refuses, and one that obtains none does what its fail mode says.
-/

namespace Aitp

open RevocationFetcher Transition

/-! ## What a signature of a list determines -/

namespace Serde

/-- What is written determines each of the fields. -/
theorem map_canon_of_written {fs : List FieldSpec} {ws ws' : List (Option Json)}
    (hn : (fs.map FieldSpec.name).Nodup) (hl : ws.length = fs.length)
    (hl' : ws'.length = fs.length)
    (h : (Json.obj (written fs ws)).canon = (Json.obj (written fs ws')).canon) :
    ws.map (Option.map Json.canon) = ws'.map (Option.map Json.canon) := by
  have hd := nodup_keys_written hn ws'
  have hfields := (canon_written_iff hn hl hd (written_closed fs ws')).mp h
  rw [hfields]
  conv_rhs => rw [← lookup_written hn hl', List.map_map]
  rfl

end Serde

theorem RevocationEntry.jti_eq_of_canon {e e' : RevocationEntry}
    (h : e.toValue.canon = e'.toValue.canon) : e.jti = e'.jti := by
  have hfields := Serde.map_canon_of_written (by decide) rfl rfl h
  simp only [List.map_cons, List.map_nil, Option.map_some, Json.canon_str, List.cons.injEq,
    Option.some.injEq, Json.str.injEq, and_true] at hfields
  exact Uuid.hyphenated_injective hfields.1

/-- What a key signs of a list. -/
def RevocationList.target (l : RevocationList) : Target :=
  .digest l.toValue.jcs

/-- The signature of a list determines what it names, and when it was published as far as texts can
say. -/
theorem RevocationList.of_target_eq {l l' : RevocationList} (h : l.target = l'.target) :
    Ecma.integer l.publishedAt = Ecma.integer l'.publishedAt ∧
      l.entries.map RevocationEntry.jti = l'.entries.map RevocationEntry.jti := by
  have hcanon := Json.jcs_eq_iff.mp (Target.digest.inj h)
  have hfields := Serde.map_canon_of_written (by decide) rfl rfl hcanon
  simp only [List.map_cons, List.map_nil, Option.map_some, List.cons.injEq, Option.some.injEq,
    Json.int.injEq, Json.canon, Json.canonItems_eq, Json.arr.injEq, List.map_map,
    and_true] at hfields
  obtain ⟨-, -, hp, -, hentries, -⟩ := hfields
  refine ⟨hp, ?_⟩
  rw [← List.forall₂_eq_eq_eq, List.forall₂_map_left_iff, List.forall₂_map_right_iff] at hentries ⊢
  exact hentries.imp fun _ _ he => RevocationEntry.jti_eq_of_canon he

/-- What else an agent signs; the proofs start with their domain tag. -/
inductive NoRevocationList : Target → Prop
  | envelope (e : AitpEnvelope) : NoRevocationList e.target
  | manifest (m : Manifest) : NoRevocationList (.digest (manifestSigningBytes m))
  | bundle (b : SessionTrustBundle) : NoRevocationList (.digest (bundleSigningBytes b))
  | token (aid : Aid) (header payload : Bytes) :
    NoRevocationList (tokenTarget aid.algorithm header payload)
  | proof {m : Bytes} : m.head? ≠ some 0x7b → NoRevocationList (.digest m)

theorem head?_jcs_obj (ms : List (String × Json)) : (Json.obj ms).jcs.head? = some 0x7b := by
  have hu : String.utf8EncodeChar '{' = [0x7b] := by decide
  simp only [Json.jcs, Json.canon, Json.text, utf8, List.flatMap_cons, hu]
  rfl

theorem RevocationList.target_ne_of_head {l : RevocationList} {m : Bytes}
    (h : m.head? ≠ some 0x7b) : l.target ≠ .digest m := by
  intro ht
  rw [← Target.digest.inj ht] at h
  exact h (head?_jcs_obj _)

theorem RevocationList.target_ne_of_fields {l : RevocationList} {fs : List FieldSpec}
    {ws : List (Option Json)} (h : ∀ f ∈ fs, f.name ≠ "entries") :
    l.target ≠ .digest (Json.obj (Serde.written fs ws)).jcs := by
  intro ht
  have hcanon := Json.jcs_eq_iff.mp (Target.digest.inj ht)
  have hentries := Json.lookup_of_canon_eq (Serde.nodup_keys_written (by decide) _) hcanon "entries"
  rw [Serde.lookup_eq_none_of_closed (Serde.written_closed fs ws) h] at hentries
  have hget : l.toValue.get "entries" = some (.arr (l.entries.map RevocationEntry.toValue)) :=
    Serde.get_obj_written (by decide) rfl (show revocationListFields[4]? = some _ from rfl)
  have hnone : l.toValue.get "entries" = none := Option.map_eq_none_iff.mp hentries
  cases hget.symm.trans hnone

theorem NoRevocationList.target_ne {t : Target} (h : NoRevocationList t) (l : RevocationList) :
    l.target ≠ t := by
  cases h with
  | envelope e =>
    apply RevocationList.target_ne_of_head
    rw [head?_envelopeSigningInput]
    decide
  | manifest m =>
    rw [manifestSigningBytes, Manifest.toValue, Serde.remove_written]
    exact RevocationList.target_ne_of_fields (by decide)
  | bundle b => exact RevocationList.target_ne_of_fields (by decide)
  | token aid header payload => exact ne_tokenTarget (.inr rfl) (brace_mem_jcs _)
  | proof hm => exact RevocationList.target_ne_of_head hm

/-! ## The system -/

/-- What an issuer has revoked and signed, by its own clock, and what its verifiers have cached. -/
structure RevocationWorld (ι : Type) where
  clock : Timestamp
  revoked : List (Uuid × Timestamp)
  signed : Set Target
  slots : ι → Slots

/-- The issuer revokes a token, publishes a list or signs something else; a verifier prepares an
answer. -/
inductive RevocationAct (ι : Type) where
  | revoke (jti : Uuid) (now : Timestamp)
  | publish (l : RevocationList)
  | sign (target : Target)
  | prepare (i : ι) (c : PrepareCall)

section

variable {ι : Type} [DecidableEq ι] (P : Primitives) (f : ι → RevocationFetcher) (issuer : Signer)

/-- What an act makes of the world. -/
def RevocationWorld.after (w : RevocationWorld ι) : RevocationAct ι → RevocationWorld ι
  | .revoke jti now => { w with clock := now, revoked := (jti, now) :: w.revoked }
  | .publish l =>
    match signRevocationList l issuer with
    | .error _ => w
    | .ok _ =>
      { w with
        clock := l.publishedAt
        signed := w.signed ∪ revealedBy issuer (signRevocationList l) }
  | .sign target => { w with signed := insert target w.signed }
  | .prepare i c =>
    { w with slots := Function.update w.slots i ((f i).prepare P (w.slots i) c).2 }

/-- The issuer's clock does not go back, a list that it publishes is dated by it and names whatever
it has revoked, and what else it signs is no list of its own. A verifier is not shown a forged
list. -/
def RevocationAct.Honest (w : RevocationWorld ι) : RevocationAct ι → Prop
  | revoke _ now => w.clock ≤ now
  | publish l => w.clock ≤ l.publishedAt ∧
      ∀ r ∈ w.revoked, r.1 ∈ l.entries.map RevocationEntry.jti
  | sign target => ∀ l : RevocationList, l.issuer = issuer.aid → l.target ≠ target
  | prepare i c => c.issuer = issuer.aid → ∀ env, (f i).fetched P c = .ok env →
      verifyRevocationList P env ⟨issuer.aid, c.now⟩ = .ok () → env.revocationList.target ∈ w.signed

/-- An issuer that has revoked and published nothing, and verifiers that have cached nothing. -/
def revocation : System (RevocationWorld ι) (RevocationAct ι) where
  init w := w.revoked = [] ∧ w.slots = (fun _ _ => none) ∧
    ∀ l : RevocationList, l.issuer = issuer.aid → l.target ∉ w.signed
  step w act w' := w' = w.after P f issuer act

/-- A second that every text of a time tells from the next one. -/
def ExactSecond (t : Timestamp) : Prop :=
  -(2 ^ 53) ≤ t ∧ t < 2 ^ 53

/-- A list of the issuer is not dated past its clock, and names whatever was revoked before the
second of its publication, as far as its text tells the times apart. -/
structure RevocationWorld.Published (w : RevocationWorld ι) (l : RevocationList) : Prop where
  own : l.issuer = issuer.aid
  signed : l.target ∈ w.signed
  publishedAt : ∀ t, ExactSecond t → w.clock ≤ t → l.publishedAt ≤ t
  names : ∀ r ∈ w.revoked, ExactSecond r.2 → r.2 < l.publishedAt →
    r.1 ∈ l.entries.map RevocationEntry.jti

/-- What is signed as a list is published as one, and what is cached was read from one of them that
was not too old. -/
structure RevocationWorld.Accounted (w : RevocationWorld ι) : Prop where
  clock : ∀ r ∈ w.revoked, r.2 ≤ w.clock
  lists : ∀ l : RevocationList, l.issuer = issuer.aid → l.target ∈ w.signed →
    w.Published issuer l
  slots : ∀ i snap, w.slots i issuer.aid = some snap → ∃ l, w.Published issuer l ∧
    snap.revoked = l.entries.map RevocationEntry.jti ∧
    (((f i).policy.maxStaleness : Int) < i64Max →
      snap.cachedAt ≤ l.publishedAt + (f i).policy.maxStaleness)

end

section

variable {ι : Type} {P : Primitives} {f : ι → RevocationFetcher} {issuer : Signer}
  {w : RevocationWorld ι} {t : Target} {l : RevocationList}

theorem eq_target_of_revealedBy {env : RevocationListEnvelope}
    (h : signRevocationList l issuer = .ok env)
    (ht : t ∈ revealedBy issuer (signRevocationList l)) : t = l.target := by
  have hne := revealedBy_ok ht h
  by_contra hn
  refine hne ?_
  have hsame : (issuer.without t).signJcs l.toValue.jcs = issuer.signJcs l.toValue.jcs :=
    Signer.signJcs_without (Ne.symm hn)
  rw [signRevocationList_eq_ok] at h ⊢
  rwa [hsame]

theorem target_mem_revealedBy {env : RevocationListEnvelope}
    (h : signRevocationList l issuer = .ok env) :
    l.target ∈ revealedBy issuer (signRevocationList l) := by
  refine ⟨env, toOption_eq_some.mpr h, ?_⟩
  intro hw
  obtain ⟨-, sig, hsig, -⟩ := signRevocationList_eq_ok.mp (toOption_eq_some.mp hw)
  simp [Signer.signJcs, Signer.without, RevocationList.target, okOr] at hsig

namespace RevocationWorld

theorem Published.revoke {jti : Uuid} {now : Timestamp} (h : w.Published issuer l)
    (hn : w.clock ≤ now) :
    ({ w with clock := now, revoked := (jti, now) :: w.revoked } : RevocationWorld ι).Published
      issuer l := by
  refine ⟨h.own, h.signed, fun t ht hnt => h.publishedAt t ht (hn.trans hnt), ?_⟩
  intro r hr ht hlt
  rcases List.mem_cons.mp hr with rfl | hr
  · exact absurd hlt (not_lt.mpr (h.publishedAt _ ht hn))
  · exact h.names r hr ht hlt

theorem Published.grow {w' : RevocationWorld ι} (h : w.Published issuer l)
    (hclock : w.clock ≤ w'.clock) (hrevoked : w'.revoked = w.revoked)
    (hsigned : w.signed ⊆ w'.signed) : w'.Published issuer l where
  own := h.own
  signed := hsigned h.signed
  publishedAt t ht hn := h.publishedAt t ht (hclock.trans hn)
  names := hrevoked ▸ h.names

variable [DecidableEq ι]

theorem Accounted.revoke {jti : Uuid} {now : Timestamp} (h : w.Accounted f issuer)
    (hn : w.clock ≤ now) : (w.after P f issuer (.revoke jti now)).Accounted f issuer where
  clock r hr := by
    rcases List.mem_cons.mp hr with rfl | hr
    · exact le_rfl
    · exact (h.clock r hr).trans hn
  lists l hl hs := (h.lists l hl hs).revoke hn
  slots i snap hsnap := by
    obtain ⟨l, hl, hrest⟩ := h.slots i snap hsnap
    exact ⟨l, hl.revoke hn, hrest⟩

theorem Accounted.publish (h : w.Accounted f issuer) (hclock : w.clock ≤ l.publishedAt)
    (hnames : ∀ r ∈ w.revoked, r.1 ∈ l.entries.map RevocationEntry.jti) :
    (w.after P f issuer (.publish l)).Accounted f issuer := by
  unfold after
  dsimp only
  split
  next => exact h
  next env henv =>
    constructor
    case clock =>
      intro r hr
      exact (h.clock r hr).trans hclock
    case lists =>
      rintro l' hl (hs | hs)
      · exact (h.lists l' hl hs).grow hclock rfl Set.subset_union_left
      · obtain ⟨hp, he⟩ := RevocationList.of_target_eq (eq_target_of_revealedBy henv hs)
        refine ⟨hl, .inr hs, ?_, ?_⟩
        · intro t ht hn
          have hn : l.publishedAt ≤ t := hn
          rcases Ecma.integer_eq_cases hp with heq | ⟨-, hhigh⟩ | ⟨hlow, -⟩
          · exact heq.le.trans hn
          · exact absurd (hhigh.trans hn) (not_le.mpr ht.2)
          · exact hlow.trans ht.1
        · intro r hr _ _
          rw [he]
          exact hnames r hr
    case slots =>
      intro i snap hsnap
      obtain ⟨l', hl', hrest⟩ := h.slots i snap hsnap
      exact ⟨l', hl'.grow hclock rfl Set.subset_union_left, hrest⟩

theorem Accounted.sign (h : w.Accounted f issuer)
    (hn : ∀ l : RevocationList, l.issuer = issuer.aid → l.target ≠ t) :
    (w.after P f issuer (.sign t)).Accounted f issuer where
  clock := h.clock
  lists l hl hs := by
    rcases hs with hs | hs
    · exact absurd hs (hn l hl)
    · exact (h.lists l hl hs).grow le_rfl rfl (Set.subset_insert _ _)
  slots i snap hsnap := by
    obtain ⟨l, hl, hrest⟩ := h.slots i snap hsnap
    exact ⟨l, hl.grow le_rfl rfl (Set.subset_insert _ _), hrest⟩

end RevocationWorld

variable {i : ι} {c : PrepareCall}

/-- What is accepted was fetched, verifies and is not too old. -/
theorem acquire_eq_ok {f : RevocationFetcher} {c : PrepareCall} {env : RevocationListEnvelope}
    (h : f.acquire P c = .ok env) : f.fetched P c = .ok env ∧
      verifyRevocationList P env ⟨c.issuer, c.now⟩ = .ok () ∧
      ((f.policy.maxStaleness : Int) < i64Max →
        c.now ≤ env.revocationList.publishedAt + f.policy.maxStaleness) := by
  simp only [acquire, verifySnapshot, bind_eq_ok, mapErr_eq_ok, ensure_eq_ok, pure_eq_ok,
    decide_eq_true_eq] at h
  obtain ⟨_, hf, _, ⟨_, hv, ha⟩, rfl⟩ := h
  refine ⟨hf, hv, ?_⟩
  intro hs
  have hage := saturate_le_durationSecs.mp ha hs
  linarith

/-- The list that a call accepts is one that was published, not too long ago. -/
theorem RevocationWorld.Accounted.accepts (h : w.Accounted f issuer)
    (hn : (RevocationAct.prepare i c).Honest P f issuer w) (hc : c.issuer = issuer.aid)
    {env : RevocationListEnvelope} (ha : Aitp.accepts P (f i) (w.slots i) c = some env) :
    w.Published issuer env.revocationList ∧ (((f i).policy.maxStaleness : Int) < i64Max →
      c.now ≤ env.revocationList.publishedAt + (f i).policy.maxStaleness) := by
  obtain ⟨hf, hv, hage⟩ := acquire_eq_ok (accepts_eq_some ha)
  rw [hc] at hv
  exact ⟨h.lists _ (verifyRevocationList_issuer hv) (hn hc env hf hv), hage⟩

/-! ## What a verifier answers -/

variable [DecidableEq ι]

theorem RevocationWorld.Accounted.prepare (h : w.Accounted f issuer)
    (hn : (RevocationAct.prepare i c).Honest P f issuer w) :
    (w.after P f issuer (.prepare i c)).Accounted f issuer := by
  have hgrow : ∀ l, w.Published issuer l →
      (w.after P f issuer (.prepare i c)).Published issuer l :=
    fun _ hl => hl.grow le_rfl rfl subset_rfl
  refine ⟨h.clock, fun l hl hs => hgrow l (h.lists l hl hs), ?_⟩
  intro j snap hsnap
  have hkept : w.slots j issuer.aid = some snap ∨ ∃ env, j = i ∧ c.issuer = issuer.aid ∧
      Aitp.accepts P (f i) (w.slots i) c = some env ∧ snap = .ofList env c.now := by
    by_cases hj : j = i
    · subst hj
      have hslot : ((f j).prepare P (w.slots j) c).2 issuer.aid = some snap := by
        simpa only [after, Function.update_self] using hsnap
      rcases @prepare_cases P (f j) (w.slots j) c with
        ⟨_, -, -, hp⟩ | ⟨env, -, ha, hp⟩ | ⟨_, -, hp⟩
      · rw [hp] at hslot
        exact .inl hslot
      · rw [hp] at hslot
        by_cases hc : c.issuer = issuer.aid
        · simp only [hc, Function.update_self, Option.some.injEq] at hslot
          exact .inr ⟨env, rfl, hc, ha, hslot.symm⟩
        · simp only [Function.update_of_ne (Ne.symm hc)] at hslot
          exact .inl hslot
      · rw [hp] at hslot
        exact .inl hslot
    · simp only [after, Function.update_of_ne hj] at hsnap
      exact .inl hsnap
  rcases hkept with hsame | ⟨env, rfl, hc, ha, rfl⟩
  · obtain ⟨l, hl, hrest⟩ := h.slots j snap hsame
    exact ⟨l, hgrow l hl, hrest⟩
  · obtain ⟨hl, hage⟩ := h.accepts hn hc ha
    exact ⟨env.revocationList, hgrow _ hl, rfl, hage⟩

theorem RevocationWorld.Accounted.after {act : RevocationAct ι} (h : w.Accounted f issuer)
    (hn : act.Honest P f issuer w) : (w.after P f issuer act).Accounted f issuer := by
  cases act with
  | revoke jti now => exact h.revoke hn
  | publish l => exact h.publish hn.1 hn.2
  | sign t => exact h.sign hn
  | prepare i c => exact h.prepare hn

/-- A token, or what was delegated of it, confers at most some grants where a lookup is asked about
it: by itself, under its voucher, as a hop of a chain or when it is renewed. -/
structure ConfersOnly (P : Primitives) (lookup : RevocationCheckFn) (issuer : Aid) (jti : Uuid)
    (only : List String → Prop) : Prop where
  token : ∀ token ctx v, ctx.revocation = .check lookup → verifyTct P token ctx = .ok v →
    v.claims.iss = issuer → v.claims.jti = jti → only v.effectiveGrants
  delegation : ∀ token ctx v, ctx.revocation = .check lookup →
    Delegation.verifyDelegation P ctx token = .ok v → ctx.verifier = issuer →
    v.voucher.srcJti = jti → only v.effectiveGrants
  chain : ∀ token ctx v, ctx.revocation = .check lookup →
    verifyChainedDelegation P ctx token = .ok v → ctx.verifier = issuer →
    v.voucher.srcJti = jti → only v.effectiveGrants
  hop : ∀ token ctx v source, ctx.revocation = .check source →
    ctx.hopRevocationCheck = some lookup → verifyChainedDelegation P ctx token = .ok v →
    v.claims.chain.getD [] ≠ [] →
    ∀ q ∈ ctx.hopQueries P (v.claims.chain.getD [] ++ [v.token]), q.issuer = issuer → q.jti = jti →
    only v.effectiveGrants
  renewal : ∀ request issuerAid ctx checked, ctx.revocation = .check lookup →
    checkRenewalRequest P request issuerAid ctx = .ok checked → checked.claims.iss = issuer →
    checked.claims.jti = jti → only checked.effectiveGrants

theorem ConfersOnly.mono {lookup : RevocationCheckFn} {issuer : Aid} {jti : Uuid}
    {only only' : List String → Prop} (h : ConfersOnly P lookup issuer jti only)
    (hm : ∀ grants, only grants → only' grants) : ConfersOnly P lookup issuer jti only' where
  token token ctx v hr hv hi hj := hm _ (h.token token ctx v hr hv hi hj)
  delegation token ctx v hr hv hi hj := hm _ (h.delegation token ctx v hr hv hi hj)
  chain token ctx v hr hv hi hj := hm _ (h.chain token ctx v hr hv hi hj)
  hop token ctx v source hr hc hv hne q hq hi hj :=
    hm _ (h.hop token ctx v source hr hc hv hne q hq hi hj)
  renewal request issuerAid ctx checked hr hv hi hj :=
    hm _ (h.renewal request issuerAid ctx checked hr hv hi hj)

end

/-! ## A list that outlives a revocation -/

namespace Toy

/-- A list of agent 0, published at 0, that revokes nothing. -/
def firstList : RevocationList where
  version := protocolVersion
  issuer := agent 0
  publishedAt := 0
  expiresAt := i64Max
  entries := []
  extensions := none

theorem exists_firstList : ∃ env, firstList.Published primitives (signer (agent 0)) env := by
  obtain ⟨env, henv, -⟩ := @Signer.Total.signRevocationList primitives _ _ firstList
    (signer_total (agent 0)) (List.forall_mem_nil _)
  refine ⟨env, ⟨⟨?_, ?_, List.forall_mem_nil _, ?_⟩, rfl, rfl, henv⟩⟩
  · exact show Timestamp.Fits 0 by decide
  · exact show Timestamp.Fits i64Max by decide
  · rintro ms ⟨⟩

variable (policy : RevocationPolicy)

/-- One verifier of agent 0. -/
def soleFetcher : Unit → RevocationFetcher :=
  fun _ => ⟨policy, false⟩

/-- Agent 0 published its list and then, in the same second, revoked a token. -/
def revokedWorld : RevocationWorld Unit :=
  let w : RevocationWorld Unit := ⟨0, [], ∅, fun _ _ => none⟩
  (w.after primitives (soleFetcher policy) (signer (agent 0)) (.publish firstList)).after primitives
    (soleFetcher policy) (signer (agent 0)) (.revoke (uuid 1) 0)

/-- The steps that one verifier and an honest agent 0 take. -/
def soleRevocation : System (RevocationWorld Unit) (RevocationAct Unit) :=
  (revocation primitives (soleFetcher policy) (signer (agent 0))).restrict
    fun w act => act.Honest primitives (soleFetcher policy) (signer (agent 0)) w

theorem reachable_revokedWorld : (soleRevocation policy).Reachable (revokedWorld policy) := by
  let w : RevocationWorld Unit := ⟨0, [], ∅, fun _ _ => none⟩
  obtain ⟨env, henv⟩ := exists_firstList
  have hfirst : (.publish firstList : RevocationAct Unit).Honest primitives
      (soleFetcher policy) (signer (agent 0)) w := ⟨le_rfl, List.forall_mem_nil _⟩
  have hthen : (.revoke (uuid 1) 0 : RevocationAct Unit).Honest primitives
      (soleFetcher policy) (signer (agent 0))
      (w.after primitives (soleFetcher policy) (signer (agent 0)) (.publish firstList)) := by
    simp only [RevocationAct.Honest, RevocationWorld.after, henv.signed]
    exact le_rfl
  have h₀ : (soleRevocation policy).Reachable w := .init ⟨rfl, rfl, fun _ _ h => h⟩
  exact (h₀.step ⟨hfirst, rfl⟩).step ⟨hthen, rfl⟩

theorem revokedWorld_eq {env : RevocationListEnvelope}
    (h : firstList.Published primitives (signer (agent 0)) env) : revokedWorld policy =
      ⟨0, [(uuid 1, 0)], ∅ ∪ revealedBy (signer (agent 0)) (signRevocationList firstList),
        fun _ _ => none⟩ := by
  simp only [revokedWorld, RevocationWorld.after, h.signed]

end Toy

open Toy in
/-- A list that is fetched as late as its age allows, and used as long as it is cached, still clears
a token that was revoked in the second of its publication. -/
theorem revocation_reaches_tight (policy : RevocationPolicy)
    (hp : (policy.maxStaleness : Int) + policy.cacheTtl ≤ i64Max) :
    ∃ w, (soleRevocation policy).Reachable w ∧ (uuid 1, 0) ∈ w.revoked ∧ ∃ c : PrepareCall,
      c.issuer = agent 0 ∧ c.now = 0 + policy.maxStaleness + policy.cacheTtl ∧
      (RevocationAct.prepare () c).Honest primitives (soleFetcher policy) (signer (agent 0)) w ∧
      ((soleFetcher policy ()).prepare primitives (w.slots ()) c).1.decide
        ⟨agent 0, uuid 1, c.now⟩ = some .clear := by
  obtain ⟨env, henv⟩ := exists_firstList
  have hlist : firstList.expiresAt = i64Max ∧ firstList.publishedAt = 0 := ⟨rfl, rfl⟩
  have hlife : (0 : Int) ≤ policy.cacheTtl := Int.natCast_nonneg _
  let c₁ := networkCall policy.maxStaleness (listRevoked (.ok env))
  let c₂ := networkCall (0 + policy.maxStaleness + policy.cacheTtl) (.error .expired)
  have hfetches : c₁.Fetches (soleFetcher policy ()) (signer (agent 0)) env := ⟨rfl, rfl, rfl, rfl⟩
  have hworld := revokedWorld_eq policy henv
  have hhonest₁ : (RevocationAct.prepare () c₁).Honest primitives (soleFetcher policy)
      (signer (agent 0)) (revokedWorld policy) := by
    intro _ env' hf _
    have hbody := henv.parseBody readsText
    obtain rfl : env = env' := Except.ok.inj (hbody.symm.trans hf)
    rw [hworld, henv.revocationList]
    exact .inr (target_mem_revealedBy henv.signed)
  have hr₂ := (reachable_revokedWorld policy).step (e := .prepare () c₁) ⟨hhonest₁, rfl⟩
  refine ⟨_, hr₂, ?_, c₂, rfl, rfl, ?_, ?_⟩
  · rw [hworld]
    exact List.mem_singleton_self _
  · intro _ env' hf _
    cases hf
  · have hacquire := henv.acquire readsText (signer_total (agent 0)).lawful hfetches
      (show (policy.maxStaleness : Int) ≤ i64Max by linarith)
      (show (policy.maxStaleness : Int) ≤ 0 + policy.maxStaleness by linarith)
    have hserved := @answersFrom_after_acquire primitives (signer (agent 0)) firstList env
      (soleFetcher policy ()) (fun _ => none) c₁ henv hfetches hacquire rfl [] c₂
    have hused : ∀ d ∈ [c₂], d.issuer = (signer (agent 0)).aid →
        d.now ≤ lastUse (soleFetcher policy ()) env c₁.now := by
      intro d hd _
      obtain rfl := List.mem_singleton.mp hd
      have hlast : 0 + (policy.maxStaleness : Int) + policy.cacheTtl ≤ i64Max := by linarith
      rw [lastUse, henv.revocationList]
      split_ifs
      · exact le_min (show 0 + (policy.maxStaleness : Int) + policy.cacheTtl ≤
          policy.maxStaleness + policy.cacheTtl by linarith) hlast
      · exact hlast
    have hanswers := hserved hused rfl rfl ⟨agent 0, uuid 1, c₂.now⟩ rfl
    rw [hworld]
    exact hanswers

end Aitp
