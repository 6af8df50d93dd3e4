import Aitp.Crypto.Spelling
import Aitp.Delegation.RoundTrip
import Aitp.Tct.RoundTrip

/-! # Self-issued tokens and self-delegations

The verifiers refuse a token whose issuer and subject are equal, and agent
identifiers are compared as strings. An accepted token is from one key to another
unless its claims name the key of the issuer as the subject in its other spelling.
-/

namespace Aitp

variable {P : Primitives} {token : String}

/-- The issuer and the subject of the claims a token carries, whoever signed it. -/
def Carries (P : Primitives) (parties : Json → Option (Aid × Aid)) (token : String)
    (iss sub : Aid) : Prop :=
  ∃ payload, decodePayloadUnverified token = .ok payload ∧
    (P.document payload).bind parties = some (iss, sub)

/-- The claims of a token name the key of their issuer as the subject, in its other spelling. -/
def NamesSelf (P : Primitives) (parties : Json → Option (Aid × Aid)) (token : String) : Prop :=
  ∃ iss sub, Carries P parties token iss sub ∧ iss.Respelled sub

def tctParties (v : Json) : Option (Aid × Aid) :=
  (decodeTctClaims v).map fun c => (c.iss, c.sub)

def Delegation.delegationParties (v : Json) : Option (Aid × Aid) :=
  (Delegation.decodeDelegationClaims v).map fun c => (c.iss, c.sub)

def delegationParties (v : Json) : Option (Aid × Aid) :=
  (decodeChainedDelegationClaims v).map fun c => (c.iss, c.sub)

theorem Carries.key_ne_iff {parties : Json → Option (Aid × Aid)} {iss sub : Aid}
    (h : Carries P parties token iss sub) (hne : iss ≠ sub) :
    iss.key ≠ sub.key ↔ ¬ NamesSelf P parties token := by
  rw [ne_eq, Aid.key_eq_iff, not_iff_not]
  constructor
  · rintro (heq | hr)
    · exact absurd heq hne
    · exact ⟨iss, sub, h, hr⟩
  · rintro ⟨iss', sub', ⟨payload', hp', hd'⟩, hr⟩
    obtain ⟨payload, hp, hd⟩ := h
    obtain rfl := Except.ok.inj (hp.symm.trans hp')
    obtain ⟨rfl, rfl⟩ := Prod.mk.inj (Option.some.inj (hd.symm.trans hd'))
    exact .inr hr

/-! ## What each verifier accepts -/

theorem carries_of_verifyTct {ctx : TctVerifyContext} {v : VerifiedTct}
    (h : verifyTct P token ctx = .ok v) :
    Carries P tctParties token v.claims.iss v.claims.sub ∧ v.claims.iss ≠ v.claims.sub := by
  simp only [verifyTct, bind_eq_ok, pure_eq_ok] at h
  obtain ⟨claims, hc, effective, -, rfl⟩ := h
  have hg := verifyTctBeforeRevocation_ok hc
  obtain ⟨payload, hp, hd⟩ := hg.signed
  refine ⟨⟨payload, verifyCompact_ok hp, ?_⟩, hg.notSelf⟩
  obtain ⟨doc, hdoc, hdec⟩ := Option.bind_eq_some_iff.mp hd
  simp [hdoc, tctParties, hdec]

theorem carries_of_verifyHopJws {ctx : ChainVerifyContext} {hop : ChainedDelegationClaims}
    {u : Unit} (h : verifyHopJws P ctx token = .ok hop) (hc : checkHopClaims P ctx hop = .ok u) :
    Carries P delegationParties token hop.iss hop.sub ∧ hop.iss ≠ hop.sub := by
  simp only [verifyHopJws, bind_eq_ok, mapErr_eq_ok, okOr_eq_ok, ensure_eq_ok, pure_eq_ok] at h
  obtain ⟨_, -, _, -, payload, hv, claims, hd, _, -, rfl⟩ := h
  simp only [checkHopClaims, bind_eq_ok, ensure_eq_ok, exists_const, Bool.not_eq_true',
    decide_eq_false_iff_not] at hc
  obtain ⟨doc, hdoc, hdec⟩ := Option.bind_eq_some_iff.mp (readClaims_eq_ok.mp hd)
  exact ⟨⟨payload, verifyCompact_ok hv, by simp [hdoc, delegationParties, hdec]⟩, hc.2.1⟩

theorem verifyHops_checked {ctx : ChainVerifyContext} {chain tokens : List String} {i : ℕ}
    {state final : Option HopState} (h : verifyHops P ctx chain i tokens state = .ok final) :
    ∀ t ∈ tokens, ∃ hop, verifyHopJws P ctx t = .ok hop ∧ checkHopClaims P ctx hop = .ok () := by
  induction tokens generalizing i state with
  | nil =>
    intro t ht
    cases ht
  | cons token tokens ih =>
    simp only [verifyHops, bind_eq_ok] at h
    obtain ⟨s, hs, h⟩ := h
    simp only [verifyHop, bind_eq_ok] at hs
    obtain ⟨hop, hj, _, hc, -⟩ := hs
    intro t ht
    rcases List.mem_cons.mp ht with rfl | ht
    · exact ⟨hop, hj, hc⟩
    · exact ih h t ht

theorem verifyChainedDelegation_checked {ctx : ChainVerifyContext} {v : VerifiedChainedDelegation}
    (h : verifyChainedDelegation P ctx token = .ok v) :
    ∀ t ∈ v.claims.chain.getD [] ++ [token],
      ∃ hop, verifyHopJws P ctx t = .ok hop ∧ checkHopClaims P ctx hop = .ok () := by
  obtain ⟨-, ⟨hn, hs⟩ | ⟨-, hm⟩⟩ := verifyChainedDelegation_ok h
  · simp only [verifySingleHop, bind_eq_ok] at hs
    obtain ⟨hop, hj, _, -, _, -, _, -, _, -, _, -, _, -, _, hc, -⟩ := hs
    rw [hn]
    intro t ht
    obtain rfl := List.mem_singleton.mp ht
    exact ⟨hop, hj, hc⟩
  · simp only [verifyMultiHop, bind_eq_ok] at hm
    obtain ⟨_, -, _, -, _, -, final, hl, -⟩ := hm
    exact verifyHops_checked hl

namespace Delegation

theorem carries_of_verifyDelegation {ctx : DelegationVerifyContext} {v : VerifiedDelegation}
    (h : verifyDelegation P ctx token = .ok v) :
    Carries P delegationParties token v.claims.iss v.claims.sub ∧
      v.claims.iss ≠ v.claims.sub := by
  simp only [verifyDelegation, verifySingleHop, bind_eq_ok, pure_eq_ok] at h
  obtain ⟨_, -, hop, hj, _, -, _, -, _, -, _, -, _, -, _, -, _, hc, _, -, rfl⟩ := h
  simp only [verifyHopJws, bind_eq_ok, mapErr_eq_ok, okOr_eq_ok, ensure_eq_ok, pure_eq_ok] at hj
  obtain ⟨_, -, _, -, payload, hv, claims, hd, _, -, rfl⟩ := hj
  simp only [checkHopClaims, bind_eq_ok, ensure_eq_ok, exists_const, Bool.not_eq_true',
    decide_eq_false_iff_not] at hc
  obtain ⟨doc, hdoc, hdec⟩ := Option.bind_eq_some_iff.mp (readClaims_eq_ok.mp hd)
  exact ⟨⟨payload, verifyCompact_ok hv, by simp [hdoc, delegationParties, hdec]⟩, hc.2.1⟩

end Delegation

/-- What is accepted is from one key to another exactly when it does not name the key of its
issuer in the other spelling: a token, a delegation, every hop of a chain. -/
theorem accepted_key_ne_iff :
    (∀ (token : String) (ctx : TctVerifyContext) (v : VerifiedTct),
      verifyTct P token ctx = .ok v →
        (v.claims.iss.key ≠ v.claims.sub.key ↔ ¬ NamesSelf P tctParties token)) ∧
      (∀ (token : String) (ctx : Delegation.DelegationVerifyContext)
        (v : Delegation.VerifiedDelegation), Delegation.verifyDelegation P ctx token = .ok v →
          (v.claims.iss.key ≠ v.claims.sub.key ↔
            ¬ NamesSelf P Delegation.delegationParties token)) ∧
      ∀ (token : String) (ctx : ChainVerifyContext) (v : VerifiedChainedDelegation),
        verifyChainedDelegation P ctx token = .ok v →
          ∀ t ∈ v.claims.chain.getD [] ++ [token], ∃ hop, verifyHopJws P ctx t = .ok hop ∧
            (hop.iss.key ≠ hop.sub.key ↔ ¬ NamesSelf P delegationParties t) := by
  refine ⟨?_, ?_, ?_⟩
  · intro token ctx v h
    obtain ⟨hc, hne⟩ := carries_of_verifyTct h
    exact hc.key_ne_iff hne
  · intro token ctx v h
    obtain ⟨hc, hne⟩ := Delegation.carries_of_verifyDelegation h
    exact hc.key_ne_iff hne
  · intro token ctx v h t ht
    obtain ⟨hop, hj, hk⟩ := verifyChainedDelegation_checked h t ht
    obtain ⟨hc, hne⟩ := carries_of_verifyHopJws hj hk
    exact ⟨hop, hj, hc.key_ne_iff hne⟩

/-! ## One agent in both spellings -/

namespace Toy

/-- The other spelling of an agent. -/
def tagged (n : Fin 4) : Aid :=
  ⟨String.ofList ("aid:pubkey:ed25519:".toList ++
    ['A', 'B', 'C', 'D'].get n :: List.replicate 42 'A'), by revert n; decide +kernel⟩

theorem toList_agent (n : Fin 4) : (agent n).value.toList = aidPubkeyPrefix.toList ++
    ['A', 'B', 'C', 'D'].get n :: List.replicate 42 'A' :=
  String.toList_ofList

theorem toList_tagged (n : Fin 4) : (tagged n).value.toList = aidPubkeyEd25519Prefix.toList ++
    ['A', 'B', 'C', 'D'].get n :: List.replicate 42 'A' :=
  String.toList_ofList

theorem respelled_tagged (n : Fin 4) : (agent n).Respelled (tagged n) := by
  refine ⟨String.ofList (['A', 'B', 'C', 'D'].get n :: List.replicate 42 'A'), .inl ⟨?_, ?_⟩⟩
  · apply String.toList_injective
    rw [toList_agent, String.toList_append, String.toList_ofList]
  · apply String.toList_injective
    rw [toList_tagged, String.toList_append, String.toList_ofList]

theorem key_tagged (n : Fin 4) : (agent n).key = (tagged n).key :=
  Aid.key_eq_iff.mpr (.inr (respelled_tagged n))

theorem agent_ne_tagged (n : Fin 4) : agent n ≠ tagged n := by
  intro h
  have hv := congrArg (fun a => a.value.toList.length) h
  simp only [toList_agent, toList_tagged, List.length_append, Nat.add_right_cancel_iff] at hv
  revert hv
  decide

/-- A token from agent 0. -/
def builderFor (sub : Aid) : TctBuilder :=
  { tctBuilder with subject := some sub, audience := some sub, subjectPubkey := some sub.key }

def contextFor (sub : Aid) : TctVerifyContext := { holderContext with expectedAudience := sub }

theorem verifyTct_builderFor {sub : Aid} (h : sub ≠ agent 0) :
    ∃ (issued : IssuedTct) (v : VerifiedTct),
    (builderFor sub).build primitives 0 = .ok issued ∧
      verifyTct primitives issued.token (contextFor sub) = .ok v ∧
      v.claims.iss = agent 0 ∧ v.claims.sub = sub := by
  have hw : (builderFor sub).WellTyped primitives 0 := by
    refine ⟨show Timestamp.Fits 0 by decide, nofun, ?_⟩
    rintro key ⟨⟩
    exact VerifyingKey.fromCompressed_of_fromAid (signer_lawful sub).1
  have hd : (builderFor sub).draft primitives 0 = .ok _ :=
    (TctBuilder.draft_eq_ok rfl).mpr ⟨sub, sub.key, uuid 1, rfl, rfl, rfl, resolve_tctBuilder,
      show attestationGrant ∉ ["demo.echo"] by decide, List.cons_ne_nil _ _,
      show ∀ g ∈ ["demo.echo"], g.toList.any isWhitespace = false by decide, h, rfl, rfl⟩
  obtain ⟨issued, hb, hi⟩ := TctBuilder.exists_build (signer_total (agent 0)) hd
  have hc : issued.claims = (builderFor sub).claims primitives sub sub.key (uuid 1) 0 := hi
  have hl : issued.claims.LiveAt (contextFor sub).now (contextFor sub).issuerManifestExpiresAt := by
    rw [hc]
    refine ⟨show (0 : Timestamp) ≤ 50 by decide, show (50 : Timestamp) ≤ 100 by decide, ?_⟩
    rintro t ⟨⟩
    exact show Timestamp.saturatingAdd 0 100 ≤ 100 by decide
  have hx : issued.claims.Exact := by
    rw [hc]
    exact ⟨show Timestamp.Exact 0 by decide, show Timestamp.Exact 100 by decide⟩
  have hv := verifyTct_build readsText hw (signer_lawful (agent 0)) rfl hb
    (show (contextFor sub).issuer = (builderFor sub).issuerKey.aid from rfl)
    (by rw [hc]; rfl) hx hl rfl
  exact ⟨issued, _, hb, hv, by rw [hc]; rfl, by rw [hc]; rfl⟩

/-- A delegation by agent 1 of what agent 0 granted to it. -/
def singleHop (sub : Aid) : Delegation.DelegationClaims where
  ver := protocolVersion
  iss := agent 1
  sub := sub
  aud := agent 0
  scope := ["read"]
  exp := 4600
  jkt := SampleChain.keyThumbprint sub
  voucher := some SampleChain.voucherToken
  ext := none

def singleToken (sub : Aid) : String :=
  signed (agent 1) typDelegation (singleHop sub).lift.toValue

def singleContext : Delegation.DelegationVerifyContext where
  verifier := agent 0
  now := 2000
  revocation := .failOpen
  issuerManifests := some fun aid => some (manifest aid ["read"] [] 1000)
  insecureLocalhost := false

theorem verifyDelegation_singleToken {sub : Aid} (h : agent 1 ≠ sub) :
    Delegation.verifyDelegation primitives singleContext (singleToken sub) =
      .ok ⟨singleToken sub, singleHop sub, SampleChain.voucher, ["read"]⟩ := by
  have hsound : SoundHop primitives (agent 0) (signer (agent 1)) (singleToken sub)
      (singleHop sub).lift := {
    lawful := ⟨_, signer_lawful (agent 1)⟩
    signed := signCompact_signer (by decide +kernel)
    writable := ⟨show Timestamp.Fits 4600 by decide, rfl⟩
    times := show Timestamp.Exact 4600 by decide
    ver := rfl
    iss := rfl
    aud := rfl
    notSelf := h
    scope := List.cons_ne_nil _ _
    cnf := ⟨_, (signer_lawful sub).1, rfl⟩
    jti := nofun }
  have hroot : RootedHop primitives (singleContext.chained none) SampleChain.voucherToken
      SampleChain.voucher (singleHop sub).lift := {
    root := SampleChain.verifyVoucher_voucher
    voucher := rfl
    sub := rfl
    scope := show ∀ g ∈ ["read"], g ∈ ["read", "write"] by decide
    exp := le_rfl }
  have hres : (singleContext.chained none).Resolves primitives (agent 1) :=
    ⟨_, _, rfl, @resolveVerifiedManifest_manifest ["read"] [] 1000 ⟨2000, false⟩ 1
      (by decide +kernel) (by decide +kernel) (by decide) (by decide)⟩
  exact Delegation.verifyDelegation_built readsText hsound hroot hres (fun _ _ => rfl)
    (show (2000 : Timestamp) ≤ 4600 by decide)

end Toy

open Toy in
/-- Agent 0 grants to agent 1, which delegates once, and then in a chain of two hops. -/
theorem accepted_key_ne_iff_toy : ∃ issued : IssuedTct,
    (builderFor (agent 1)).build primitives 0 = .ok issued ∧
      ((agent 0).key ≠ (agent 1).key ↔ ¬ NamesSelf primitives tctParties issued.token) ∧
      ((agent 1).key ≠ (agent 2).key ↔
        ¬ NamesSelf primitives Delegation.delegationParties (singleToken (agent 2))) ∧
      ∀ t ∈ SampleChain.chain ++ [SampleChain.outerToken], ∃ hop,
        verifyHopJws primitives (SampleChain.context 3 .failOpen none) t = .ok hop ∧
          (hop.iss.key ≠ hop.sub.key ↔ ¬ NamesSelf primitives delegationParties t) := by
  obtain ⟨htct, hsingle, hchain⟩ := @accepted_key_ne_iff primitives
  obtain ⟨issued, v, hb, hv, hiss, hsub⟩ := verifyTct_builderFor agent_ne
  have ht := htct _ _ _ hv
  rw [hiss, hsub] at ht
  refine ⟨issued, hb, ht, ?_, ?_⟩
  · exact hsingle _ _ _ (verifyDelegation_singleToken (by decide +kernel))
  · exact hchain _ _ _ (SampleChain.verifyChainedDelegation_outerToken rfl rfl)

open Toy in
/-- A token from an agent to itself, and a delegation by an agent to itself, are accepted. -/
theorem accepted_from_self : ∃ (issued : IssuedTct) (v : VerifiedTct),
    (builderFor (tagged 0)).build primitives 0 = .ok issued ∧
      verifyTct primitives issued.token (contextFor (tagged 0)) = .ok v ∧
      v.claims.iss.key = v.claims.sub.key ∧
      ∃ w, Delegation.verifyDelegation primitives singleContext (singleToken (tagged 1)) = .ok w ∧
        w.claims.iss.key = w.claims.sub.key := by
  obtain ⟨issued, v, hb, hv, hiss, hsub⟩ := verifyTct_builderFor (agent_ne_tagged 0).symm
  refine ⟨issued, v, hb, hv, ?_, _, verifyDelegation_singleToken (agent_ne_tagged 1), ?_⟩
  · rw [hiss, hsub]
    exact key_tagged 0
  · exact key_tagged 1

end Aitp
