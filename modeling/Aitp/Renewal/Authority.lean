import Aitp.Delegation.Single
import Aitp.Delegation.Chain
import Aitp.Foundation.Provenance
import Aitp.Foundation.Transition
import Aitp.Handshake.Issuance
import Aitp.Handshake.SignedEnvelopes
import Aitp.Renewal.IssuerRuns
import Aitp.Tct.Entitlement

/-! # Where authority comes from

An agent grants in handshakes, renews what it granted, and lets tokens and delegations be
used at it, in any order. As long as no token that it is shown is forged, whatever is used
or renewed was granted in an earlier handshake: renewing and delegating add nothing.
-/

namespace Aitp

open Transition Provenance

/-- What an agent keeps of renewals, what its key has signed for others to see, and what it
granted, renewed and let be used, newest first. -/
structure AuthorityWorld (σ : Type) where
  store : σ
  signed : Set Target
  history : List (Event Entitlement)

/-- A handshake that comes to issuing a token, a request to renew one, the use of a token or of a
delegation under a voucher, and any other signature. -/
inductive AuthorityAct where
  | handshake (cfg : PeerConfig) (identity : IdentityDescriptor) (peerAid : Aid)
      (peerKey : VerifyingKey) (requested : List String) (drawn : RandomV4)
  | renew (request : TctRenewalPayload) (ctx : RenewalContext) (drawn : RandomV4)
  | use (token : String) (ctx : TctVerifyContext)
  | useDelegation (token : String) (ctx : Delegation.DelegationVerifyContext)
  | useChain (token : String) (ctx : ChainVerifyContext)
  | sign (target : Target)

/-- The targets whose signatures a result reveals. -/
def revealedBy {ε α : Type} (issuer : Signer) (f : Signer → Except ε α) : Set Target :=
  {t | issuer.Reveals (fun k => (f k).toOption) t}

/-- The voucher that a chain carries: that of its first token, or of a token without a chain. -/
def chainVoucher (P : Primitives) (token : String) : Option String :=
  match peekClaims P token with
  | .error _ => none
  | .ok c =>
    match c.chain.getD [] with
    | [] => c.voucher
    | first :: _ => (peekClaims P first).toOption.bind ChainedDelegationClaims.voucher

section

variable {σ : Type} (P : Primitives) (nonceStore : NonceStore σ) (issuer : Signer)

namespace AuthorityWorld

variable (w : AuthorityWorld σ)

/-- What an act makes of an agent. -/
def after : AuthorityAct → AuthorityWorld σ
  | .handshake cfg identity peerAid peerKey requested drawn =>
    let issue := fun k =>
      issueTctForPeer P { cfg with signingKey := k } identity peerAid peerKey requested drawn
    match issue issuer with
    | .error _ => w
    | .ok issued =>
      { w with
        signed := w.signed ∪ revealedBy issuer issue
        history := .granted ⟨peerAid, issued.claims.grants⟩ :: w.history }
  | .renew request ctx drawn =>
    let process := fun k => processRenewalRequest P nonceStore w.store request k ctx drawn
    match process issuer with
    | (store, .error _) => { w with store := store }
    | (store, .ok renewed) =>
      { store := store
        signed := w.signed ∪ revealedBy issuer fun k => (process k).2
        history := .derived ⟨renewed.claims.sub, renewed.claims.grants⟩ :: w.history }
  | .use token ctx =>
    match verifyTct P token ctx with
    | .error _ => w
    | .ok v => { w with history := .used ⟨v.claims.sub, v.effectiveGrants⟩ :: w.history }
  | .useDelegation token ctx =>
    match Delegation.verifyDelegation P ctx token with
    | .error _ => w
    | .ok v => { w with history := .used ⟨v.voucher.sub, v.effectiveGrants⟩ :: w.history }
  | .useChain token ctx =>
    match verifyChainedDelegation P ctx token with
    | .error _ => w
    | .ok v => { w with history := .used ⟨v.voucher.sub, v.effectiveGrants⟩ :: w.history }
  | .sign target => { w with signed := insert target w.signed }

end AuthorityWorld

/-- A token that verifies under the agent's identifier was signed by the agent. -/
def Genuine (signed : Set Target) (token : String) : Prop :=
  ∀ header payload raw typ, decodeSegments token = .ok (header, payload, raw) →
    verifyCompact P issuer.aid typ token = .ok payload →
      tokenTarget issuer.aid.algorithm header payload ∈ signed

/-- The tokens that the agent is shown are genuine, what it is asked to use is under its own
authority, and what else it signs entitles nobody. Times are `i64`. -/
def AuthorityAct.Honest (signed : Set Target) : AuthorityAct → Prop
  | handshake cfg .. => cfg.now.Fits
  | renew request ctx _ => ctx.now.Fits ∧ ctx.manifestExpiresAt.Fits ∧
      Genuine P issuer signed request.currentTct
  | use token ctx => ctx.issuer = issuer.aid ∧ Genuine P issuer signed token
  | useDelegation token ctx => ctx.verifier = issuer.aid ∧
      ∀ c voucher, Delegation.peekClaims P token = .ok c → c.voucher = some voucher →
        Genuine P issuer signed voucher
  | useChain token ctx => ctx.verifier = issuer.aid ∧
      ∀ voucher ∈ chainVoucher P token, Genuine P issuer signed voucher
  | sign target => ∀ g, ¬target.Entitles P g

/-- An agent that has granted nothing yet, whose signatures entitle nobody. -/
def authority : System (AuthorityWorld σ) AuthorityAct where
  init w := w.history = [] ∧ ∀ t ∈ w.signed, ∀ g, ¬t.Entitles P g
  step w act w' := w' = w.after P nonceStore issuer act

end

/-- What an agent grants in a handshake: what is requested of it, that it offers and permits. -/
def Entitlement.Offered (root : Entitlement) : Prop :=
  ∃ cfg identity requested permitted,
    GrantedOf cfg identity root.holder requested permitted root.grants

/-- The history draws on what is held, and whatever the key has signed entitles to what is held. -/
structure AuthorityWorld.Accounted {σ : Type} (P : Primitives) (w : AuthorityWorld σ) : Prop where
  lawful : Lawful w.history
  signed : ∀ t ∈ w.signed, ∀ g, t.Entitles P g → Held w.history g
  offered : ∀ root, .granted root ∈ w.history → root.Offered

variable {σ : Type} {P : Primitives} {nonceStore : NonceStore σ} {issuer : Signer}
  {w w' : AuthorityWorld σ} {signed : Set Target} {t : Target} {g : Entitlement}

/-! ## What each act reveals -/

theorem revealedBy_ok {ε α : Type} {f : Signer → Except ε α} {r : α}
    (h : t ∈ revealedBy issuer f) (hr : f issuer = .ok r) : f (issuer.without t) ≠ .ok r := by
  obtain ⟨r', hr', hne⟩ := h
  obtain rfl : r = r' := Except.ok.inj (hr.symm.trans (toOption_eq_some.mp hr'))
  intro hw
  exact hne (toOption_eq_some.mpr hw)

section

variable {cfg : PeerConfig} {identity : IdentityDescriptor} {peerAid : Aid}
  {peerKey : VerifyingKey} {requested : List String} {drawn : RandomV4} {issued : IssuedTct}

end

section

variable {request : TctRenewalPayload} {ctx : RenewalContext} {drawn : RandomV4} {st : σ}
  {renewed : IssuedTct}

end

/-! ## What else an agent signs -/

/-- What the key of an agent signs besides what it grants, nonces apart. -/
inductive OtherArtifact (P : Primitives) : Target → Prop
  | envelope (e : AitpEnvelope) : OtherArtifact P e.target
  | manifest (m : Manifest) : OtherArtifact P (.digest (manifestSigningBytes m))
  | revocationList {l : RevocationList} {m : Bytes} :
    revocationSigningBytes l = .ok m → OtherArtifact P (.digest m)
  | bundle (b : SessionTrustBundle) : OtherArtifact P (.digest (bundleSigningBytes b))
  | identityProof {domain input : Bytes} {sender receiver : Aid} {messageId : Uuid}
    {timestamp : Timestamp} {popNonce : String} :
    handshakeProofInput domain sender receiver messageId timestamp popNonce = .ok input →
    OtherArtifact P (.digest input)
  | renewalProof (iss jti : String) (popNonce : Bytes) :
    OtherArtifact P (.digest (renewalPopInput iss jti popNonce))
  | attestation (aid : Aid) {c : TctClaims} : c.Writable P → c.iss = c.sub →
    OtherArtifact P (tokenTarget aid.algorithm (headerValue aid typTct).jcs c.toValue.jcs)
  | delegation (aid : Aid) (claims : Json) :
    OtherArtifact P (tokenTarget aid.algorithm (headerValue aid typDelegation).jcs claims.jcs)

/-- No other artifact is signed over what a token for a holder is, however its header and its
payload are written. -/
theorem otherArtifact_honest (hP : P.ReadsText) (h : OtherArtifact P t) :
    (AuthorityAct.sign t).Honest P issuer signed := by
  intro g
  have hzero : ∀ {as bs : Bytes}, (0 : UInt8) ∈ as ++ 0 :: bs := by
    intro as bs
    exact List.mem_append_right _ List.mem_cons_self
  cases h with
  | envelope e => exact not_entitles_digest (.inl rfl) hzero
  | manifest m => exact not_entitles_digest (.inr rfl) (brace_mem_jcs _)
  | revocationList h =>
    simp only [revocationSigningBytes, bind_eq_ok, pure_eq_ok] at h
    obtain ⟨_, -, rfl⟩ := h
    exact not_entitles_digest (.inr rfl) (brace_mem_jcs _)
  | bundle b => exact not_entitles_digest (.inr rfl) (brace_mem_jcs _)
  | identityProof h =>
    simp only [handshakeProofInput, bind_eq_ok, pure_eq_ok] at h
    obtain ⟨_, -, _, -, rfl⟩ := h
    exact not_entitles_digest (.inl rfl) hzero
  | renewalProof iss jti popNonce => exact not_entitles_digest (.inl rfl) hzero
  | attestation aid hw hs => exact fun h => (entitles_tct hP hw h).1 hs
  | delegation aid claims => exact not_entitles_delegation hP _ _ _

/-! ## What is shown to the agent -/

section

variable {token : String}

end

/-! ## Runs -/

theorem AuthorityWorld.Accounted.sign (hw : w.Accounted P) {revealed : Set Target}
    {e : Event Entitlement} (hl : Lawful (e :: w.history)) (hy : e.Yields)
    (hr : ∀ t ∈ revealed, ∀ g, t.Entitles P g → g = e.amount)
    (ho : ∀ root, e = .granted root → root.Offered) (store : σ) :
    AuthorityWorld.Accounted P ⟨store, w.signed ∪ revealed, e :: w.history⟩ := by
  constructor
  · exact hl
  · rintro t (ht | ht) g hg
    · exact (hw.signed t ht g hg).cons _
    · obtain rfl := hr t ht g hg
      exact ⟨e, List.mem_cons_self, hy, rfl⟩
  · intro root hm
    rcases List.mem_cons.mp hm with h | hm
    · exact ho root h.symm
    · exact hw.offered root hm

theorem AuthorityWorld.Accounted.use (hw : w.Accounted P) {a b : Entitlement}
    (hb : Held w.history b) (hle : a ≤ b) :
    AuthorityWorld.Accounted P { w with history := .used a :: w.history } := by
  constructor
  · exact .used hw.lawful hb hle
  · intro t ht g hg
    exact (hw.signed t ht g hg).cons _
  · intro root hm
    rcases List.mem_cons.mp hm with h | hm
    · cases h
    · exact hw.offered root hm

section

variable {key : VerifyingKey} {claims : Json} {typ token : String}

variable {cfg : PeerConfig} {identity : IdentityDescriptor} {peerAid : Aid}
  {peerKey : VerifyingKey} {requested : List String} {drawn : RandomV4} {issued : IssuedTct}

end

end Aitp
