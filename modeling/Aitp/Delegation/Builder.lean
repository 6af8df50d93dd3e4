import Aitp.Delegation.Single

/-! # Issuing delegations

`aitp/src/delegation/builder.rs` and its namesake in `aitp-experimental`. A holder
delegates from a voucher, or extends the token that was delegated to it; what it
reads of either is unverified. Random identifiers and the clock are inputs.
-/

namespace Aitp

/-- `DEFAULT_DELEGATION_TTL`, in seconds. -/
def defaultDelegationTtl : ℕ := 3600

/-- The end of a delegation: that of its authority at the latest. -/
def cappedExpiry (now : Timestamp) (ttl : ℕ) (maxExpiry : Timestamp) : Timestamp :=
  if now.saturatingAdd ttl < maxExpiry then now.saturatingAdd ttl else maxExpiry

section

variable (P : Primitives)

/-- The claims of the voucher that a signer delegates from. -/
def peekVoucher (signer : Aid) (voucher : String) : Except DelegationError GrantVoucherClaims := do
  let payload ← mapErr .crypto (decodePayloadUnverified voucher)
  mapErr .claimsMalformed (rejectDuplicateKeys P payload)
  ifPresent (P.document payload) fun peekValue =>
    ensureMembers peekValue grantVoucherClaimsMembers .unknownField
  let claims ← readClaims P "voucher: " grantVoucherClaimsFields decodeGrantVoucherClaims payload
  ensure (decide (claims.sub = signer)) .invalidVoucher
  return claims

namespace Delegation

/-- `Serialize for DelegationClaims`. -/
def DelegationClaims.toValue (c : DelegationClaims) : Json :=
  .obj <| Serde.written delegationClaimsFields
    [some (.str c.ver), some (.str c.iss.value), some (.str c.sub.value), some (.str c.aud.value),
      some (stringsValue c.scope), some (.int c.exp), some (.obj [("jkt", .str c.jkt)]),
      c.voucher.map .str, c.ext.map .obj]

structure DelegationBuilder where
  issuerKey : Signer
  voucherToken : String
  voucher : GrantVoucherClaims
  delegatee : Option Aid
  scope : List String
  ttl : ℕ
  nowOverride : Option Timestamp

structure IssuedDelegation where
  token : String
  claims : DelegationClaims

namespace DelegationBuilder

def rootedInVoucher (issuerKey : Signer) (voucher : String) :
    Except DelegationError DelegationBuilder := do
  let claims ← peekVoucher P issuerKey.aid voucher
  return {
    issuerKey := issuerKey
    voucherToken := voucher
    voucher := claims
    delegatee := none
    scope := []
    ttl := defaultDelegationTtl
    nowOverride := none }

def draft (b : DelegationBuilder) (clock : Timestamp) :
    Except DelegationError DelegationClaims := do
  let delegatee ← okOr b.delegatee (.missingField "delegatee")
  ensure (!b.scope.isEmpty) .emptyScope
  ensure (!decide (b.issuerKey.aid = delegatee)) .selfDelegation
  forEach b.scope fun cap => ensure (b.voucher.grants.contains cap) .scopeExceeded
  let cnfKey ← mapErr .crypto (VerifyingKey.fromAid P delegatee)
  return {
    ver := protocolVersion
    iss := b.issuerKey.aid
    sub := delegatee
    aud := b.voucher.iss
    scope := b.scope
    exp := cappedExpiry (b.nowOverride.getD clock) b.ttl b.voucher.exp
    jkt := cnfKey.toJwkThumbprintSha256 P
    voucher := some b.voucherToken
    ext := none }

def build (b : DelegationBuilder) (clock : Timestamp) : Except DelegationError IssuedDelegation := do
  let claims ← b.draft P clock
  let token ← mapErr .crypto (signCompact b.issuerKey typDelegation claims.toValue)
  return ⟨token, claims⟩

end DelegationBuilder

end Delegation

/-! ## Chains -/

inductive Authority where
  | voucher (token : String) (claims : GrantVoucherClaims)
  | prior (token : String) (claims : ChainedDelegationClaims)

/-- The audience, the grants and the latest expiry that an authority confers. -/
def Authority.caps : Authority → Aid × List String × Timestamp
  | voucher _ claims => (claims.iss, claims.grants, claims.exp)
  | prior _ claims => (claims.aud, claims.scope, claims.exp)

/-- The claims that tie a token to its authority. -/
structure Ties where
  voucher : Option String
  jti : Option Uuid
  chain : Option (List String)
  chainHash : Option String

/-- A token carries the voucher, or every token since it and their hash. -/
def Authority.ties (jtiOverride : Option Uuid) (drawn : RandomV4) : Authority → Ties
  | voucher token _ => ⟨some token, jtiOverride, none, none⟩
  | prior token claims =>
    let chain := claims.chain.getD [] ++ [token]
    ⟨none, some (jtiOverride.getD drawn.id), some chain, some (computeChainHash P chain)⟩

structure ChainedDelegationBuilder where
  issuerKey : Signer
  authority : Authority
  delegatee : Option Aid
  scope : List String
  ttl : ℕ
  nowOverride : Option Timestamp
  jtiOverride : Option Uuid

namespace ChainedDelegationBuilder

/-- A builder under an authority, before its setters. -/
def under (issuerKey : Signer) (authority : Authority) : ChainedDelegationBuilder where
  issuerKey := issuerKey
  authority := authority
  delegatee := none
  scope := []
  ttl := defaultDelegationTtl
  nowOverride := none
  jtiOverride := none

def rootedInVoucher (issuerKey : Signer) (voucher : String) :
    Except ChainedDelegationError ChainedDelegationBuilder := do
  let claims ← mapErr .delegation (peekVoucher P issuerKey.aid voucher)
  return under issuerKey (.voucher voucher claims)

def extendingPrior (issuerKey : Signer) (prior : String) :
    Except ChainedDelegationError ChainedDelegationBuilder := do
  let payload ← mapErr (fun e => .delegation (.crypto e)) (decodePayloadUnverified prior)
  mapErr (fun e => .delegation (.claimsMalformed e)) (rejectDuplicateKeys P payload)
  ifPresent (P.document payload) fun peekValue =>
    ensureMembers peekValue delegationClaimsMembers fun f => .delegation (.unknownField f)
  let claims ← mapErr .delegation
    (readClaims P "prior hop: " chainedDelegationClaimsFields decodeChainedDelegationClaims payload)
  ensure (decide (claims.sub = issuerKey.aid)) (.delegation .invalidVoucher)
  ensure claims.jti.isSome (.delegation
    (.claimsMalformed "prior hop lacks the per-hop jti required for chaining"))
  return under issuerKey (.prior prior claims)

variable (b : ChainedDelegationBuilder)

def draft (drawn : RandomV4) (clock : Timestamp) :
    Except ChainedDelegationError ChainedDelegationClaims := do
  let delegatee ← okOr b.delegatee (.delegation (.missingField "delegatee"))
  ensure (!b.scope.isEmpty) (.delegation .emptyScope)
  ensure (!decide (b.issuerKey.aid = delegatee)) (.delegation .selfDelegation)
  let (aud, allowedScope, maxExpiry) := b.authority.caps
  checkScope b.scope allowedScope
  ifPresent b.jtiOverride fun jti => mapErr .jtiNotV4 jti.checkV4
  let cnfKey ← mapErr (fun e => .delegation (.crypto e)) (VerifyingKey.fromAid P delegatee)
  let ties := b.authority.ties P b.jtiOverride drawn
  return {
    ver := protocolVersion
    iss := b.issuerKey.aid
    sub := delegatee
    aud := aud
    scope := b.scope
    exp := cappedExpiry (b.nowOverride.getD clock) b.ttl maxExpiry
    jkt := cnfKey.toJwkThumbprintSha256 P
    voucher := ties.voucher
    jti := ties.jti
    chain := ties.chain
    chainHash := ties.chainHash
    ext := none }

def build (drawn : RandomV4) (clock : Timestamp) : Except ChainedDelegationError String := do
  let claims ← b.draft P drawn clock
  mapErr (fun e => .delegation (.crypto e)) (signCompact b.issuerKey typDelegation claims.toValue)

end ChainedDelegationBuilder

end

theorem cappedExpiry_le (now : Timestamp) (ttl : ℕ) (maxExpiry : Timestamp) :
    cappedExpiry now ttl maxExpiry ≤ maxExpiry := by
  unfold cappedExpiry
  split_ifs with h
  · exact h.le
  · exact le_rfl

end Aitp
