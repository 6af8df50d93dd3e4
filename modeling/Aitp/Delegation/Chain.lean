import Aitp.Delegation.Verifier
import Aitp.Manifest.Builder
import Mathlib.Data.List.Chain

/-! # Accepted chains

A voucher and the tokens that delegate from it each confer rights: some grants,
until some time. The loop over the hops compares neighbours only; as narrowing
rights is transitive, every token of an accepted chain is within the rights of
every earlier one and of the voucher.
-/

namespace Aitp

/-- What a voucher or a delegation token confers: grants, until they expire. -/
structure Rights where
  grants : List String
  exp : Timestamp

namespace Rights

/-- Fewer grants, for no longer. -/
instance : Preorder Rights where
  le a b := (∀ g ∈ a.grants, g ∈ b.grants) ∧ a.exp ≤ b.exp
  le_refl a := ⟨fun _ h => h, le_rfl⟩
  le_trans _ _ _ hab hbc := ⟨fun g hg => hbc.1 g (hab.1 g hg), hab.2.trans hbc.2⟩

end Rights

/-- The rights a voucher confers. -/
def GrantVoucherClaims.rights (v : GrantVoucherClaims) : Rights := ⟨v.grants, v.exp⟩

/-- The rights a delegation token confers. -/
def ChainedDelegationClaims.rights (c : ChainedDelegationClaims) : Rights := ⟨c.scope, c.exp⟩

section

variable {P : Primitives} {ctx : ChainVerifyContext} {chain tokens : List String}
  {token : String} {i : ℕ} {hop prev : ChainedDelegationClaims} {s s' : HopState}

/-! ## The checks of one hop -/

theorem peekClaims_of_verifyHopJws {peeked : ChainedDelegationClaims}
    (h : verifyHopJws P ctx token = .ok hop) (hp : peekClaims P token = .ok peeked) :
    peeked = hop := by
  simp only [verifyHopJws, bind_eq_ok, mapErr_eq_ok, okOr_eq_ok, ensure_eq_ok, pure_eq_ok] at h
  obtain ⟨_, -, _, -, payload, hv, claims, hc, _, -, rfl⟩ := h
  simp only [peekClaims, bind_eq_ok, mapErr_eq_ok] at hp
  obtain ⟨_, -, payload', hd, _, -, _, -, hc'⟩ := hp
  obtain rfl : payload = payload' := Except.ok.inj ((verifyCompact_ok hv).symm.trans hd)
  exact Except.ok.inj (hc'.symm.trans hc)

/-- What a later hop owes the hop before it. -/
structure Narrows (prev hop : ChainedDelegationClaims) : Prop where
  voucher : hop.voucher = none
  iss : hop.iss = prev.sub
  rights : hop.rights ≤ prev.rights

theorem checkNextHop_ok {u : Unit} (h : checkNextHop prev hop = .ok u) : Narrows prev hop := by
  simp only [checkNextHop, checkScope, bind_eq_ok, ensure_eq_ok, forEach_eq_ok, exists_const,
    decide_eq_true_eq, Option.isNone_iff_eq_none, List.contains_iff_mem] at h
  obtain ⟨hv, hi, he, hs⟩ := h
  exact ⟨hv, hi, hs, he⟩

/-- What the first hop owes the voucher it carries. -/
structure Rooted (P : Primitives) (ctx : ChainVerifyContext) (voucher : GrantVoucherClaims)
    (hop : ChainedDelegationClaims) : Prop where
  verified : ∃ voucherToken, hop.voucher = some voucherToken ∧
    verifyVoucher P voucherToken ctx.verifier = .ok voucher
  iss : voucher.sub = hop.iss
  live : ctx.now ≤ voucher.exp
  rights : hop.rights ≤ voucher.rights

theorem checkFirstHop_ok {voucher : GrantVoucherClaims}
    (h : checkFirstHop P ctx hop = .ok voucher) : Rooted P ctx voucher hop := by
  simp only [checkFirstHop, checkScope, verifyRootVoucher, bind_eq_ok, okOr_eq_ok, mapErr_eq_ok,
    ensure_eq_ok, forEach_eq_ok, pure_eq_ok, exists_const, decide_eq_true_eq, Bool.not_eq_true',
    List.contains_iff_mem, Timestamp.isInThePast_eq_false] at h
  obtain ⟨vt, hvt, v, ⟨v', hv, hi, hl, rfl⟩, he, hs, rfl⟩ := h
  exact ⟨⟨vt, hvt, hv⟩, hi, hl, hs, he⟩

/-- What is checked of every hop on its own; `i` is its place in the chain. -/
structure HopChecked (P : Primitives) (ctx : ChainVerifyContext) (chain : List String) (i : ℕ)
    (hop : ChainedDelegationClaims) : Prop where
  aud : hop.aud = ctx.verifier
  live : ctx.now ≤ hop.exp
  nested : i < chain.length → ∀ inner, hop.chain = some inner →
    inner = chain.take i ∧ hop.chainHash = some (computeChainHash P inner)

/-- The records that the loop has made before a hop. -/
def seen (state : Option HopState) : List (Aid × Uuid) :=
  (state.map HopState.hopRecords).getD []

theorem checkNestedChain_ok {u : Unit} (h : checkNestedChain P chain i hop = .ok u) :
    i < chain.length → ∀ inner, hop.chain = some inner →
      inner = chain.take i ∧ hop.chainHash = some (computeChainHash P inner) := by
  intro hi inner hc
  simp only [checkNestedChain, hi, if_true, ifPresent_eq_ok, bind_eq_ok, ensure_eq_ok, okOr_eq_ok,
    exists_const, decide_eq_true_eq, beq_iff_eq] at h
  obtain ⟨he, hash, hh, rfl⟩ := h inner hc
  exact ⟨he, hh⟩

theorem verifyHop_ok {state : Option HopState}
    (h : verifyHop P ctx chain i token state = .ok s') :
    verifyHopJws P ctx token = .ok s'.prev ∧ HopChecked P ctx chain i s'.prev ∧
      (∃ jti, s'.prev.jti = some jti ∧ jti ∉ (seen state).map Prod.snd ∧
        s'.hopRecords = seen state ++ [(s'.prev.iss, jti)]) ∧
      match state with
      | none => Rooted P ctx s'.voucher s'.prev
      | some s => s'.voucher = s.voucher ∧ Narrows s.prev s'.prev := by
  simp only [verifyHop, bind_eq_ok, okOr_eq_ok, ensure_eq_ok, pure_eq_ok, exists_const,
    Bool.not_eq_true', Timestamp.isInThePast_eq_false] at h
  obtain ⟨hop, hj, _, hc, jti, hjti, hn, hl, voucher, hv, _, hnest, rfl⟩ := h
  simp only [checkHopClaims, bind_eq_ok, ensure_eq_ok, exists_const, decide_eq_true_eq] at hc
  refine ⟨hj, ⟨hc.1, hl, checkNestedChain_ok hnest⟩, ⟨jti, hjti, ?_, rfl⟩, ?_⟩
  · simpa [seen] using hn
  · cases state with
    | none => exact checkFirstHop_ok hv
    | some s =>
      simp only [checkContinuity, bind_eq_ok, pure_eq_ok] at hv
      obtain ⟨_, hx, rfl⟩ := hv
      exact ⟨rfl, checkNextHop_ok hx⟩

/-! ## The loop -/

/-- What the rest of the loop establishes about the hops it still checks. -/
structure LoopChecked (P : Primitives) (ctx : ChainVerifyContext) (chain : List String) (i : ℕ)
    (tokens : List String) (s s' : HopState) (hops : List ChainedDelegationClaims) : Prop where
  verified : List.Forall₂ (fun t hop => verifyHopJws P ctx t = .ok hop) tokens hops
  checked : ∀ k hop, hops[k]? = some hop → HopChecked P ctx chain (i + k) hop
  narrows : (s.prev :: hops).IsChain Narrows
  voucher : s'.voucher = s.voucher
  prev : (s.prev :: hops).getLast? = some s'.prev
  records : s'.hopRecords.map (fun r => (r.1, some r.2)) =
    s.hopRecords.map (fun r => (r.1, some r.2)) ++ hops.map fun hop => (hop.iss, hop.jti)
  nodup : (s.hopRecords.map Prod.snd).Nodup → (s'.hopRecords.map Prod.snd).Nodup

theorem verifyHops_ok {final : Option HopState}
    (h : verifyHops P ctx chain i tokens (some s) = .ok final) :
    ∃ s' hops, final = some s' ∧ LoopChecked P ctx chain i tokens s s' hops := by
  induction tokens generalizing i s with
  | nil =>
    obtain rfl := Except.ok.inj h
    exact ⟨s, [], rfl, .nil, by simp, .singleton _, rfl, rfl, by simp, id⟩
  | cons token tokens ih =>
    simp only [verifyHops, bind_eq_ok] at h
    obtain ⟨s₁, h₁, h⟩ := h
    obtain ⟨hj, hc, ⟨jti, hjti, hn, hr⟩, hv, hnar⟩ := verifyHop_ok h₁
    obtain ⟨s', hops, rfl, hl⟩ := ih h
    simp only [seen, Option.map_some, Option.getD_some] at hn hr
    refine ⟨s', s₁.prev :: hops, rfl, .cons hj hl.verified, ?_, ?_, hl.voucher.trans hv, ?_, ?_, ?_⟩
    · rintro (_ | k) hop hk
      · obtain rfl := Option.some.inj hk
        exact hc
      · rw [← Nat.add_assoc, Nat.add_right_comm]
        exact hl.checked k hop hk
    · exact hl.narrows.cons_cons hnar
    · rw [List.getLast?_cons_cons]
      exact hl.prev
    · rw [hl.records, hr, List.map_append, List.append_assoc, List.map_cons, List.map_cons, hjti]
      rfl
    · intro hd
      refine hl.nodup ?_
      rw [hr, List.map_append]
      exact List.Nodup.append hd (by simp) (by simpa using hn)

/-- The whole loop: a first hop that carries the voucher, and the hops after it. -/
theorem verifyHops_none {final : Option HopState}
    (h : verifyHops P ctx chain 0 (token :: tokens) none = .ok final) :
    ∃ s₁ s hops, final = some s ∧ verifyHop P ctx chain 0 token none = .ok s₁ ∧
      LoopChecked P ctx chain 1 tokens s₁ s hops ∧
      s.hopRecords.map (fun r => (r.1, some r.2)) =
        (s₁.prev :: hops).map fun hop => (hop.iss, hop.jti) := by
  simp only [verifyHops, bind_eq_ok] at h
  obtain ⟨s₁, h₁, h⟩ := h
  obtain ⟨s, hops, rfl, hl⟩ := verifyHops_ok h
  obtain ⟨-, -, ⟨jti, hjti, -, hr⟩, -⟩ := verifyHop_ok h₁
  refine ⟨s₁, s, hops, rfl, h₁, hl, ?_⟩
  rw [hl.records, hr, List.map_cons, hjti]
  rfl

/-! ## Revocation -/

theorem delegationRevocation_sublist {source : RevocationSource} {query : RevocationQuery}
    {scope effective : List String} (h : delegationRevocation source query scope = .ok effective) :
    effective.Sublist scope :=
  applyRevocation_sublist (mapErr_eq_ok.mp h)

theorem checkSourceRevocation_sublist {srcJti : Uuid} {scope effective : List String}
    (h : checkSourceRevocation ctx srcJti scope = .ok effective) : effective.Sublist scope :=
  delegationRevocation_sublist (mapErr_eq_ok.mp h)

theorem checkHopRevocation_sublist {check : RevocationCheckFn} {records : List (Aid × Uuid)}
    {grants effective : List String}
    (h : checkHopRevocation ctx check records grants = .ok effective) :
    effective.Sublist grants := by
  induction records generalizing grants with
  | nil =>
    obtain rfl := Except.ok.inj h
    exact List.Sublist.refl _
  | cons r records ih =>
    simp only [checkHopRevocation, bind_eq_ok, mapErr_eq_ok] at h
    obtain ⟨narrowed, hn, hr⟩ := h
    exact (ih hr).trans (delegationRevocation_sublist hn)

theorem checkEveryHop_sublist {records : List (Aid × Uuid)} {grants effective : List String}
    (h : checkEveryHop ctx records grants = .ok effective) : effective.Sublist grants := by
  unfold checkEveryHop at h
  split at h
  · simp only [bind_eq_ok, okOr_eq_ok] at h
    obtain ⟨check, -, hc⟩ := h
    exact checkHopRevocation_sublist hc
  · obtain rfl := Except.ok.inj h
    exact List.Sublist.refl _

/-! ## Accepted chains -/

/-- The guarantees of an accepted chain: `hops` are the claims of the tokens of `chain` and of
the outer token, oldest first. -/
structure AcceptedChain (P : Primitives) (ctx : ChainVerifyContext) (token : String)
    (v : VerifiedChainedDelegation) (chain : List String)
    (hops : List ChainedDelegationClaims) : Prop where
  carried : v.claims.chain = some chain
  verified : List.Forall₂ (fun t hop => verifyHopJws P ctx t = .ok hop) (chain ++ [token]) hops
  outer : hops.getLast? = some v.claims
  budget : chain.length + 2 ≤ ctx.maxDelegationHops
  /-- Scopes shrink and expiries come no later, from the voucher to the outer token. -/
  rights : (v.voucher.rights :: hops.map ChainedDelegationClaims.rights).Pairwise
    fun earlier later => later ≤ earlier
  live : ctx.now ≤ v.voucher.exp ∧ ∀ hop ∈ hops, ctx.now ≤ hop.exp
  root : ∃ first voucherToken, hops.head? = some first ∧ first.iss = v.voucher.sub ∧
    first.voucher = some voucherToken ∧
    verifyVoucher P voucherToken ctx.verifier = .ok v.voucher
  continuous : hops.IsChain fun a b => b.iss = a.sub
  audience : v.voucher.iss = ctx.verifier ∧ ∀ hop ∈ hops, hop.aud = v.voucher.iss
  jtis : (hops.map ChainedDelegationClaims.jti).Nodup ∧ ∀ hop ∈ hops, hop.jti ≠ none
  voucherless : ∀ hop ∈ hops.tail, hop.voucher = none
  nested : ∀ i hop inner, i < chain.length → hops[i]? = some hop → hop.chain = some inner →
    inner = chain.take i ∧ hop.chainHash = some (computeChainHash P inner)
  effective : ∀ g ∈ v.effectiveGrants, g ∈ v.claims.scope

theorem rights_pairwise {voucher : GrantVoucherClaims} {hops : List ChainedDelegationClaims}
    (hr : Rooted P ctx voucher hop) (hn : (hop :: hops).IsChain Narrows) :
    (voucher.rights :: (hop :: hops).map ChainedDelegationClaims.rights).Pairwise
      fun earlier later => later ≤ earlier := by
  have hc : ((hop :: hops).map ChainedDelegationClaims.rights).IsChain fun a b => b ≤ a :=
    (List.isChain_map _).mpr (hn.imp fun _ _ h => h.rights)
  have hv : (voucher.rights :: (hop :: hops).map ChainedDelegationClaims.rights).IsChain
      fun a b => b ≤ a := hc.cons_cons hr.rights
  exact List.isChain_iff_pairwise.mp hv

theorem voucher_eq_none_of_isChain {hops : List ChainedDelegationClaims}
    (hn : (hop :: hops).IsChain Narrows) : ∀ h ∈ hops, h.voucher = none := by
  induction hops generalizing hop with
  | nil => simp
  | cons next hops ih =>
    obtain ⟨hx, hc⟩ := List.isChain_cons_cons.mp hn
    exact List.forall_mem_cons.mpr ⟨hx.voucher, ih hc⟩

theorem exists_getLast?_of_forall₂_concat {α β : Type} {R : α → β → Prop} {as : List α} {a : α}
    {bs : List β} (h : List.Forall₂ R (as ++ [a]) bs) : ∃ b, bs.getLast? = some b ∧ R a b := by
  induction as generalizing bs with
  | nil =>
    obtain ⟨b, _, hab, ht, rfl⟩ := List.forall₂_cons_left_iff.mp h
    obtain rfl := List.forall₂_nil_left_iff.mp ht
    exact ⟨b, rfl, hab⟩
  | cons _ as ih =>
    obtain ⟨b, bs, -, ht, rfl⟩ := List.forall₂_cons_left_iff.mp h
    obtain ⟨l, hl, hr⟩ := ih ht
    refine ⟨l, ?_, hr⟩
    rw [List.getLast?_cons, hl]
    rfl

theorem verifyMultiHop_ok {peeked : ChainedDelegationClaims} {v : VerifiedChainedDelegation}
    (hp : peekClaims P token = .ok peeked) (hc : peeked.chain = some chain)
    (h : verifyMultiHop P ctx token peeked = .ok v) :
    ∃ hops, AcceptedChain P ctx token v chain hops := by
  simp only [verifyMultiHop, hc, Option.getD_some, bind_eq_ok, ensure_eq_ok, okOr_eq_ok,
    pure_eq_ok, exists_const, decide_eq_true_eq] at h
  obtain ⟨hb, hash, -, -, final, hl, s, rfl, effective, hs, effective', he, rfl⟩ := h
  obtain ⟨t, ts, hts⟩ : ∃ t ts, chain ++ [token] = t :: ts :=
    List.exists_cons_of_ne_nil (by simp)
  rw [hts] at hl
  obtain ⟨s₁, s', hops, hfin, h₁, hl, hrec⟩ := verifyHops_none hl
  obtain ⟨hj, hchk, ⟨jti, hjti, -, hr⟩, hroot⟩ := verifyHop_ok h₁
  obtain rfl := Option.some.inj hfin
  have hchecked : ∀ k hop, (s₁.prev :: hops)[k]? = some hop → HopChecked P ctx chain k hop := by
    rintro (_ | k) hop hk
    · obtain rfl := Option.some.inj hk
      exact hchk
    · have hc := hl.checked k hop hk
      rwa [Nat.add_comm] at hc
  have hmem : ∀ hop ∈ s₁.prev :: hops, ∃ k, HopChecked P ctx chain k hop := by
    intro hop hm
    obtain ⟨k, hk⟩ := List.mem_iff_getElem?.mp hm
    exact ⟨k, hchecked k hop hk⟩
  have hverified : List.Forall₂ (fun t hop => verifyHopJws P ctx t = .ok hop) (chain ++ [token])
      (s₁.prev :: hops) := hts ▸ .cons hj hl.verified
  obtain ⟨outer, hout, hver⟩ := exists_getLast?_of_forall₂_concat hverified
  obtain rfl : s.prev = outer := Option.some.inj (hl.prev.symm.trans hout)
  obtain ⟨vt, hvt, hv⟩ := hroot.verified
  have hjtis : (s₁.prev :: hops).map ChainedDelegationClaims.jti =
      (s.hopRecords.map Prod.snd).map some := by
    have hsnd := congrArg (List.map Prod.snd) hrec
    simpa only [List.map_map, Function.comp_def] using hsnd.symm
  refine ⟨s₁.prev :: hops, ?_⟩
  exact {
    carried := peekClaims_of_verifyHopJws hver hp ▸ hc
    verified := hverified
    outer := hl.prev
    budget := hb
    rights := hl.voucher ▸ rights_pairwise hroot hl.narrows
    live := ⟨hl.voucher ▸ hroot.live, fun hop hm => (hmem hop hm).choose_spec.live⟩
    root := ⟨s₁.prev, vt, rfl, hl.voucher ▸ hroot.iss.symm, hvt, hl.voucher ▸ hv⟩
    continuous := hl.narrows.imp fun _ _ h => h.iss
    audience := ⟨hl.voucher ▸ (verifyVoucher_ok hv).1, fun hop hm => by
      rw [hl.voucher, (verifyVoucher_ok hv).1]
      exact (hmem hop hm).choose_spec.aud⟩
    jtis := by
      rw [hjtis]
      refine ⟨(hl.nodup ?_).map (Option.some_injective _), fun hop hm hnone => ?_⟩
      · simp [hr, seen]
      · have hx : none ∈ (s.hopRecords.map Prod.snd).map some :=
          hjtis ▸ hnone ▸ List.mem_map_of_mem hm
        simp at hx
    voucherless := voucher_eq_none_of_isChain hl.narrows
    nested := fun i hop inner hi hk => (hchecked i hop hk).nested hi inner
    effective := fun g hg =>
      (checkSourceRevocation_sublist hs).subset ((checkEveryHop_sublist he).subset hg) }

/-- A token is accepted by the path that the chain in its verified claims calls for. -/
theorem verifyChainedDelegation_ok {v : VerifiedChainedDelegation}
    (h : verifyChainedDelegation P ctx token = .ok v) :
    peekClaims P token = .ok v.claims ∧
      (v.claims.chain.getD [] = [] ∧ verifySingleHop P ctx token = .ok v ∨
        v.claims.chain.getD [] ≠ [] ∧ verifyMultiHop P ctx token v.claims = .ok v) := by
  simp only [verifyChainedDelegation, bind_eq_ok] at h
  obtain ⟨peeked, hp, _, -, h⟩ := h
  have hlen : (peeked.chain.map List.length).getD 0 = 0 ↔ peeked.chain.getD [] = [] := by
    cases peeked.chain <;> simp
  split_ifs at h with h₀
  · have hs := h
    simp only [verifySingleHop, bind_eq_ok, pure_eq_ok] at h
    obtain ⟨claims, hj, _, -, _, -, _, -, _, -, _, -, _, -, _, -, _, -, rfl⟩ := h
    obtain rfl := peekClaims_of_verifyHopJws hj hp
    exact ⟨hp, .inl ⟨hlen.mp h₀, hs⟩⟩
  · obtain ⟨chain, hc⟩ : ∃ chain, peeked.chain = some chain := by
      cases hc : peeked.chain with
      | none => simp [hc] at h₀
      | some chain => exact ⟨chain, rfl⟩
    obtain ⟨hops, ha⟩ := verifyMultiHop_ok hp hc h
    obtain ⟨outer, hout, hver⟩ := exists_getLast?_of_forall₂_concat ha.verified
    obtain rfl := Option.some.inj (ha.outer.symm.trans hout)
    obtain rfl := peekClaims_of_verifyHopJws hver hp
    exact ⟨hp, .inr ⟨hlen.not.mp h₀, h⟩⟩

/-- A delegation accepted with a chain is narrower at each hop, ends no later and is rooted in
one voucher of the verifier. -/
theorem verifyChainedDelegation_acceptedChain {v : VerifiedChainedDelegation}
    (h : verifyChainedDelegation P ctx token = .ok v) (hm : v.claims.chain.getD [] ≠ []) :
    ∃ chain hops, chain ≠ [] ∧ AcceptedChain P ctx token v chain hops := by
  obtain ⟨hp, ⟨hn, -⟩ | ⟨-, hv⟩⟩ := verifyChainedDelegation_ok h
  · exact absurd hn hm
  · cases hc : v.claims.chain with
    | none => simp [hc] at hm
    | some chain =>
      obtain ⟨hops, ha⟩ := verifyMultiHop_ok hp hc hv
      exact ⟨chain, hops, by simpa [hc] using hm, ha⟩

end

/-! ## A chain of two hops -/

namespace SampleChain

open Toy

def keyThumbprint (aid : Aid) : String :=
  (VerifyingKey.mk aid.algorithm aid.pubkeyCompressedBytes).toJwkThumbprintSha256 primitives

/-- What the verifier once granted. -/
def voucher : GrantVoucherClaims :=
  ⟨protocolVersion, agent 0, agent 1, ["read", "write"], 1000, 4600, uuid 0, none⟩

def voucherToken : String := signed (agent 0) typGrantVoucher voucher.toValue

def hop (iss sub : Fin 4) (voucher : Option String) (jti : Option (Fin 16))
    (chain : Option (List String)) (chainHash : Option String) : ChainedDelegationClaims where
  ver := protocolVersion
  iss := agent iss
  sub := agent sub
  aud := agent 0
  scope := ["read"]
  exp := 4600
  jkt := keyThumbprint (agent sub)
  voucher := voucher
  jti := jti.map uuid
  chain := chain
  chainHash := chainHash
  ext := none

def hopToken (iss sub : Fin 4) (voucher : Option String) (jti : Option (Fin 16))
    (chain : Option (List String)) (chainHash : Option String) : String :=
  signed (agent iss) typDelegation (hop iss sub voucher jti chain chainHash).toValue

def firstHop : ChainedDelegationClaims := hop 1 2 (some voucherToken) (some 1) none none

def firstToken : String := hopToken 1 2 (some voucherToken) (some 1) none none

def chain : List String := [firstToken]

def outerHop : ChainedDelegationClaims :=
  hop 2 3 none (some 2) (some chain) (some (computeChainHash primitives chain))

def outerToken : String :=
  hopToken 2 3 none (some 2) (some chain) (some (computeChainHash primitives chain))

/-- A verifier that knows every agent's manifest. -/
def context (maxDelegationHops : ℕ) (revocation : RevocationSource)
    (hopRevocationCheck : Option RevocationCheckFn) : ChainVerifyContext where
  verifier := agent 0
  now := 2000
  maxDelegationHops := maxDelegationHops
  revocation := revocation
  hopRevocationCheck := hopRevocationCheck
  issuerManifests := some fun aid => some (manifest aid ["read"] [] 1000)
  insecureLocalhost := false

section

variable {iss sub : Fin 4} {v : Option String} {jti : Option (Fin 16)}
  {ch : Option (List String)} {hash : Option String} {budget : ℕ} {revocation : RevocationSource}
  {hopCheck : Option RevocationCheckFn}

theorem hop_writable : (hop iss sub v jti ch hash).Writable :=
  ⟨show Timestamp.Fits 4600 by decide, rfl⟩

theorem hop_exact : (hop iss sub v jti ch hash).exp.Exact :=
  show Timestamp.Exact 4600 by decide

theorem checkV4_hop : ∀ u, (hop iss sub v jti ch hash).jti = some u → u.checkV4 = .ok () := by
  intro u hu
  obtain ⟨n, -, rfl⟩ := Option.map_eq_some_iff.mp hu
  exact checkV4_uuid n

theorem signCompact_hop : signCompact (signer (agent iss)) typDelegation
    (hop iss sub v jti ch hash).toValue = .ok (hopToken iss sub v jti ch hash) :=
  signCompact_signer (by decide +kernel)

theorem peekClaims_hop : peekClaims primitives (hopToken iss sub v jti ch hash) =
    .ok (hop iss sub v jti ch hash) :=
  peekClaims_signCompact readsText (signer_lawful (agent iss)) hop_writable hop_exact checkV4_hop
    signCompact_hop

theorem verifyHopJws_hop : verifyHopJws primitives (context budget revocation hopCheck)
    (hopToken iss sub v jti ch hash) = .ok (hop iss sub v jti ch hash) := by
  have hc : isCapabilityList ["read"] = true := by decide +kernel
  have hr := @resolveVerifiedManifest_manifest ["read"] [] 1000 ⟨2000, false⟩ iss hc
    (by decide +kernel) (by decide) (by decide)
  exact verifyHopJws_signCompact readsText (signer_lawful (agent iss)) hop_writable
    hop_exact checkV4_hop rfl rfl hr rfl signCompact_hop

theorem checkHopClaims_hop (h : agent iss ≠ agent sub) :
    checkHopClaims primitives (context budget revocation hopCheck) (hop iss sub v jti ch hash) =
      .ok () := by
  have hk := (signer_lawful (agent sub)).1
  simp only [checkHopClaims, bind_eq_ok, ensure_eq_ok, mapErr_eq_ok, exists_const]
  exact ⟨by simp [hop, context], by simp [hop, h], rfl, _, hk, by simp [hop, keyThumbprint]⟩

theorem typNeedsNoEscape_typGrantVoucher : typNeedsNoEscape typGrantVoucher = true := by
  decide +kernel

theorem voucher_writable : voucher.Writable :=
  ⟨checkV4_uuid 0, show Timestamp.Fits 1000 by decide, show Timestamp.Fits 4600 by decide, rfl⟩

theorem verifyVoucher_voucher :
    verifyVoucher primitives voucherToken (agent 0) = .ok voucher := by
  have hs := @signCompact_signer (agent 0) _ voucher.toValue typNeedsNoEscape_typGrantVoucher
  have h := verifyVoucher_signCompact readsText (signer_lawful (agent 0)) voucher_writable
    ⟨show Timestamp.Exact 1000 by decide, show Timestamp.Exact 4600 by decide⟩ rfl rfl (List.cons_ne_nil _ _) hs
  exact h

theorem verifyRootVoucher_voucher : verifyRootVoucher primitives
    (context budget revocation hopCheck) voucherToken (agent 1) = .ok voucher := by
  simp only [verifyRootVoucher, bind_eq_ok, ensure_eq_ok, pure_eq_ok, mapErr_eq_ok, exists_const]
  exact ⟨voucher, verifyVoucher_voucher, by decide +kernel, rfl, rfl⟩

/-- A hop from the delegator that the voucher entitles is accepted on its own, whatever the hop
check would answer. -/
theorem verifySingleHop_hop {effective : List String}
    (hs : checkSourceRevocation (context budget revocation hopCheck) (uuid 0) ["read"] =
      .ok effective) :
    verifySingleHop primitives (context budget revocation hopCheck)
      (hopToken 1 2 (some voucherToken) jti ch hash) =
        .ok ⟨hopToken 1 2 (some voucherToken) jti ch hash, hop 1 2 (some voucherToken) jti ch hash,
          voucher, effective⟩ := by
  simp only [verifySingleHop, checkScope, bind_eq_ok, okOr_eq_ok, ensure_eq_ok, pure_eq_ok,
    forEach_eq_ok, exists_const]
  exact ⟨_, verifyHopJws_hop, by simp [hop, context], rfl, voucherToken, rfl, voucher,
    verifyRootVoucher_voucher, rfl, by simp [hop, voucher], (),
    checkHopClaims_hop (by decide +kernel), effective, hs, rfl⟩

theorem verifyHop_firstHop : verifyHop primitives (context budget revocation hopCheck) chain 0
    firstToken none = .ok ⟨voucher, firstHop, [(agent 1, uuid 1)]⟩ := by
  simp only [verifyHop, bind_eq_ok, okOr_eq_ok, ensure_eq_ok, pure_eq_ok, exists_const]
  refine ⟨firstHop, verifyHopJws_hop, (), checkHopClaims_hop (by decide +kernel), uuid 1, rfl, rfl,
    rfl, voucher, ?_, (), rfl, rfl⟩
  simp only [checkContinuity, checkFirstHop, checkScope, bind_eq_ok, okOr_eq_ok, ensure_eq_ok,
    pure_eq_ok, forEach_eq_ok, exists_const]
  exact ⟨_, rfl, voucher, verifyRootVoucher_voucher, rfl, by decide, rfl⟩

theorem verifyHop_outerHop : verifyHop primitives (context budget revocation hopCheck) chain 1
    outerToken (some ⟨voucher, firstHop, [(agent 1, uuid 1)]⟩) =
      .ok ⟨voucher, outerHop, [(agent 1, uuid 1), (agent 2, uuid 2)]⟩ := by
  simp only [verifyHop, bind_eq_ok, okOr_eq_ok, ensure_eq_ok, pure_eq_ok, exists_const]
  refine ⟨outerHop, verifyHopJws_hop, (), checkHopClaims_hop (by decide +kernel), uuid 2, rfl,
    by decide, rfl, voucher, ?_, (), rfl, rfl⟩
  simp only [checkContinuity, checkNextHop, checkScope, bind_eq_ok, ensure_eq_ok, forEach_eq_ok,
    pure_eq_ok, exists_const]
  exact ⟨⟨rfl, by simp [outerHop, firstHop, hop], by decide, by decide⟩, trivial⟩

theorem verifyChainedDelegation_outerToken {effective effective' : List String}
    (hs : checkSourceRevocation (context 3 revocation hopCheck) (uuid 0) ["read"] = .ok effective)
    (hh : checkEveryHop (context 3 revocation hopCheck) [(agent 1, uuid 1), (agent 2, uuid 2)]
      effective = .ok effective') :
    verifyChainedDelegation primitives (context 3 revocation hopCheck) outerToken =
      .ok ⟨outerToken, outerHop, voucher, effective'⟩ := by
  have hl : verifyHops primitives (context 3 revocation hopCheck) chain 0 (chain ++ [outerToken])
      none = .ok (some ⟨voucher, outerHop, [(agent 1, uuid 1), (agent 2, uuid 2)]⟩) := by
    simp only [chain, List.singleton_append, verifyHops, bind_eq_ok]
    exact ⟨_, verifyHop_firstHop, _, verifyHop_outerHop, rfl⟩
  simp only [verifyChainedDelegation, bind_eq_ok]
  refine ⟨outerHop, peekClaims_hop, (), rfl, ?_⟩
  rw [if_neg (by simp [outerHop, hop, chain])]
  simp only [verifyMultiHop, bind_eq_ok, ensure_eq_ok, okOr_eq_ok, pure_eq_ok, exists_const]
  exact ⟨rfl, computeChainHash primitives chain, rfl, by simp [outerHop, hop], _, hl, _, rfl,
    effective, hs, effective', hh, rfl⟩

end

theorem verifyChainedDelegation_acceptedChain_twoHops : ∃ chain hops, chain ≠ [] ∧
    AcceptedChain primitives (context 3 .failOpen none) outerToken
      ⟨outerToken, outerHop, voucher, ["read"]⟩ chain hops :=
  verifyChainedDelegation_acceptedChain (verifyChainedDelegation_outerToken rfl rfl)
    (by simp [outerHop, hop, chain])

end SampleChain

end Aitp
