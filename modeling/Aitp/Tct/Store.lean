import Mathlib.Logic.Function.Basic
import Aitp.Foundation.Binary64
import Aitp.Crypto.Toy
import Aitp.Tct.Verifier

/-! # The token store

`TctStore` of `facade.rs` keeps the token last received from each peer with the length of its
life, and says when it is to be refreshed. Both are plain `i64` subtractions, which panic in a
build with overflow checks and wrap around in one without.
-/

namespace Aitp

/-- Whether a build checks the arithmetic of its integers. -/
inductive OverflowChecks where
  | panic
  | wrap

/-- What becomes of a result that is out of range; a panic is `none`. -/
def OverflowChecks.overflow : OverflowChecks → Int → Option Int
  | .panic, _ => none
  | .wrap, z => some (z.bmod (2 ^ 64))

/-- `i64` subtraction. -/
def i64Sub (checks : OverflowChecks) (a b : Int) : Option Int :=
  if Timestamp.Fits (a - b) then some (a - b) else checks.overflow (a - b)

/-- `Stored`. -/
structure StoredTct where
  tct : VerifiedTct
  grantVoucher : Option String
  originalTtlSecs : Int

structure TctStore where
  inner : Aid → Option StoredTct
  refreshThreshold : Float

namespace TctStore

def new (refreshThreshold : Float) : TctStore :=
  ⟨fun _ => none, refreshThreshold⟩

def insert (checks : OverflowChecks) (store : TctStore) (tct : VerifiedTct)
    (grantVoucher : Option String) : Option TctStore := do
  let originalTtlSecs ← i64Sub checks tct.claims.exp tct.claims.iat
  let stored : StoredTct := ⟨tct, grantVoucher, originalTtlSecs⟩
  return { store with inner := Function.update store.inner tct.claims.iss (some stored) }

/-- The seconds that a stored token has left. -/
def remaining (checks : OverflowChecks) (entry : StoredTct) (now : Timestamp) : Option Int :=
  i64Sub checks entry.tct.claims.exp now

def needsRefresh (checks : OverflowChecks) (store : TctStore) (peerAid : Aid) (now : Timestamp) :
    Option Bool :=
  match store.inner peerAid with
  | none => some false
  | some entry =>
    if entry.originalTtlSecs ≤ 0 then some true
    else do
      let remaining ← remaining checks entry now
      if remaining ≤ 0 then some true
      else
        let frac := (Int64.ofInt remaining).toFloat / (Int64.ofInt entry.originalTtlSecs).toFloat
        some (frac < store.refreshThreshold)

end TctStore

/-- A token is kept and asked about without overflow, at any time: its life is the difference of
its times and, while that is positive, what is left of it is the difference to the time of the
call. What has expired needs a refresh, and a token that has its whole life left needs none. -/
structure TctStore.Exact (checks : OverflowChecks) (store : TctStore) (v : VerifiedTct)
    (voucher : Option String) (now : Timestamp) (kept : TctStore) (entry : StoredTct) : Prop where
  insert : store.insert checks v voucher = some kept
  stored : kept.inner v.claims.iss = some entry
  lifetime : entry.originalTtlSecs = v.claims.exp - v.claims.iat
  remaining : 0 < entry.originalTtlSecs →
    TctStore.remaining checks entry now = some (v.claims.exp - now)
  answers : (kept.needsRefresh checks v.claims.iss now).isSome = true
  expired : v.claims.exp - now ≤ 0 → kept.needsRefresh checks v.claims.iss now = some true
  whole : 0 < v.claims.exp - v.claims.iat → v.claims.exp - now = v.claims.exp - v.claims.iat →
    store.refreshThreshold ≤ 1 → kept.needsRefresh checks v.claims.iss now = some false

/-- The differences that the store takes of a token's times are those of an `i64`. -/
def TctClaims.Spans (claims : TctClaims) (now : Timestamp) : Prop :=
  Timestamp.Fits (claims.exp - claims.iat) ∧
    (claims.iat < claims.exp → Timestamp.Fits (claims.exp - now))

variable {checks : OverflowChecks} {a b : Int} {store : TctStore} {v : VerifiedTct}
  {voucher : Option String} {now : Timestamp} {entry : StoredTct}

theorem i64Sub_eq_iff : i64Sub checks a b = some (a - b) ↔ Timestamp.Fits (a - b) := by
  constructor
  · intro h
    by_contra hf
    rw [i64Sub, if_neg hf] at h
    cases checks with
    | panic => cases h
    | wrap =>
      apply hf
      rw [← Option.some.inj h]
      constructor
      · exact Int.le_bmod (by decide)
      · exact Int.le_sub_one_of_lt (Int.bmod_lt (by decide))
  · intro hf
    rw [i64Sub, if_pos hf]

namespace TctStore

theorem insert_of_fits (hf : Timestamp.Fits (v.claims.exp - v.claims.iat)) :
    store.insert checks v voucher = some { store with
      inner := Function.update store.inner v.claims.iss
        (some ⟨v, voucher, v.claims.exp - v.claims.iat⟩) } := by
  rw [insert, i64Sub_eq_iff.mpr hf]
  rfl

theorem needsRefresh_of_expired {peerAid : Aid} (he : store.inner peerAid = some entry)
    (hr : 0 < entry.originalTtlSecs → ∃ r ≤ 0, remaining checks entry now = some r) :
    store.needsRefresh checks peerAid now = some true := by
  simp only [needsRefresh, he]
  split_ifs with ht
  · rfl
  · obtain ⟨r, hle, hr⟩ := hr (not_le.mp ht)
    simp [hr, hle]

theorem needsRefresh_of_whole {peerAid : Aid} (he : store.inner peerAid = some entry)
    (ht : 0 < entry.originalTtlSecs)
    (hr : remaining checks entry now = some entry.originalTtlSecs)
    (hle : store.refreshThreshold ≤ 1) : store.needsRefresh checks peerAid now = some false := by
  have hlt := Binary64.not_div_self_lt (x := (Int64.ofInt entry.originalTtlSecs).toFloat) hle
  simp [needsRefresh, he, hr, not_le.mpr ht, hlt]

theorem isSome_needsRefresh {peerAid : Aid} (he : store.inner peerAid = some entry)
    (hr : 0 < entry.originalTtlSecs → (remaining checks entry now).isSome = true) :
    (store.needsRefresh checks peerAid now).isSome = true := by
  simp only [needsRefresh, he]
  split_ifs with ht
  · rfl
  · obtain ⟨r, hr⟩ := Option.isSome_iff_exists.mp (hr (not_le.mp ht))
    simp only [hr, Option.bind_eq_bind, Option.bind_some]
    split_ifs <;> rfl

/-- A token is kept and asked about without overflow exactly when the differences of its times
are those of an `i64`. -/
theorem exact_iff (checks : OverflowChecks) (store : TctStore) (v : VerifiedTct)
    (voucher : Option String) (now : Timestamp) :
    (∃ kept entry, Exact checks store v voucher now kept entry) ↔ v.claims.Spans now := by
  constructor
  · rintro ⟨kept, entry, h⟩
    obtain ⟨ttl, ht, hk⟩ := Option.bind_eq_some_iff.mp h.insert
    obtain rfl := Option.some.inj hk
    have he := h.stored
    simp only [Function.update_self, Option.some.injEq] at he
    subst he
    have hl : ttl = v.claims.exp - v.claims.iat := h.lifetime
    subst hl
    refine ⟨i64Sub_eq_iff.mp ht, fun hlt => i64Sub_eq_iff.mp (h.remaining ?_)⟩
    exact Int.sub_pos.mpr hlt
  · rintro ⟨hf, hn⟩
    have hr : 0 < v.claims.exp - v.claims.iat →
        i64Sub checks v.claims.exp now = some (v.claims.exp - now) :=
      fun ht => i64Sub_eq_iff.mpr (hn (Int.sub_pos.mp ht))
    refine ⟨_, _, insert_of_fits hf, Function.update_self .., rfl, hr, ?_, ?_, ?_⟩
    · refine isSome_needsRefresh (Function.update_self ..) fun ht => ?_
      rw [remaining, hr ht]
      rfl
    · intro hle
      exact needsRefresh_of_expired (Function.update_self ..) fun ht => ⟨_, hle, hr ht⟩
    · intro ht hw hle
      refine needsRefresh_of_whole (Function.update_self ..) ht ?_ hle
      rw [← hw]
      exact hr ht

end TctStore

/-- Times that are not before the epoch leave differences of an `i64`. -/
theorem TctClaims.spans_of_nonneg {claims : TctClaims} (hi : 0 ≤ claims.iat) (he : 0 ≤ claims.exp)
    (hn : 0 ≤ now) (hiu : claims.iat ≤ i64Max) (heu : claims.exp ≤ i64Max)
    (hnu : now ≤ i64Max) : claims.Spans now := by
  have hm : i64Min = -i64Max - 1 := rfl
  constructor
  · constructor <;> linarith
  · intro _
    constructor <;> linarith

namespace Toy

/-- A token of agent 0 for agent 1 that was valid before the epoch and never expires. -/
def boundlessClaims : TctClaims where
  ver := protocolVersion
  jti := uuid 1
  iss := agent 0
  sub := agent 1
  aud := agent 1
  grants := ["demo.echo"]
  iat := -1000
  exp := 9223372036854775000
  jkt := (agentKey 1).toJwkThumbprintSha256 primitives
  ext := none

def boundlessContext : TctVerifyContext where
  expectedAudience := agent 1
  issuer := agent 0
  now := 50
  issuerManifestExpiresAt := none
  revocation := .failOpen
  clockSkew := 0

theorem writable_boundlessClaims : boundlessClaims.Writable primitives :=
  ⟨checkV4_uuid 1, show Timestamp.Fits (-1000) by decide,
    show Timestamp.Fits 9223372036854775000 by decide, nofun⟩

theorem decode_boundlessClaims :
    (primitives.document boundlessClaims.toValue.jcs).bind decodeTctClaims =
      some boundlessClaims := by
  have hi : primitives.rereadTime boundlessClaims.iat = some boundlessClaims.iat :=
    (show Timestamp.Exact (-1000) by decide).rereadTime readsText
  have he : primitives.rereadTime boundlessClaims.exp = some boundlessClaims.exp := by
    have hc : (Json.int 9223372036854775000).canon = .int 9223372036854775000 := by
      decide +kernel
    rw [Primitives.rereadTime, show boundlessClaims.exp = 9223372036854775000 from rfl, hc,
      readsText.reread_int (by decide) (by decide)]
    decide
  have hw := writable_boundlessClaims
  rw [readsText.document_jcs (hw.readable_toValue readsText), Option.bind_some, hw.decode_reread,
    hi, he]
  rfl

theorem verifyTct_boundless : ∃ v, verifyTct primitives
    (signed (agent 0) typTct boundlessClaims.toValue) boundlessContext = .ok v ∧
      v.claims.iat = -1000 ∧ v.claims.exp = 9223372036854775000 := by
  have hs : signCompact (signer (agent 0)) typTct boundlessClaims.toValue =
      .ok (signed (agent 0) typTct boundlessClaims.toValue) := signCompact_signer (by decide)
  have hk : VerifyingKey.fromAid primitives (agent 1) = .ok (agentKey 1) := (signer_lawful _).1
  have hcnf : checkCnf primitives boundlessClaims.sub boundlessClaims.jkt = .ok () := by
    simp [checkCnf, hk, ensure, boundlessClaims]
  obtain ⟨hp, hv⟩ := writable_boundlessClaims.opens_signCompact readsText (signer_lawful _) hs
  refine ⟨⟨signed (agent 0) typTct boundlessClaims.toValue, boundlessClaims, ["demo.echo"]⟩, ?_,
    rfl, rfl⟩
  simp only [verifyTct, verifyTctBeforeRevocation, CoreChecks.verify, bind_eq_ok, ensure_eq_ok,
    okOr_eq_ok, mapErr_eq_ok, ifPresent_eq_ok, pure_eq_ok, exists_const]
  refine ⟨_, ⟨(), hp, _, hv, _, decode_boundlessClaims, rfl, rfl, ⟨rfl, rfl, ?_, rfl⟩, by decide,
    by decide, ?_, rfl, (), hcnf, rfl⟩, _, rfl, rfl⟩
  · simp [boundlessClaims, agent_ne.symm]
  · intro t ht
    cases ht

end Toy

/-- A token that was valid before the epoch and never expires is accepted, and lives longer than
an `i64` counts. -/
theorem exact_boundless : ¬∀ (P : Primitives) (token : String) (ctx : TctVerifyContext)
    (v : VerifiedTct), verifyTct P token ctx = .ok v →
      ∀ checks store voucher now, Timestamp.Fits now →
        ∃ kept entry, TctStore.Exact checks store v voucher now kept entry := by
  intro h
  obtain ⟨v, hv, hi, he⟩ := Toy.verifyTct_boundless
  have hx := h _ _ _ v hv .panic (TctStore.new 0) none 50 (by decide)
  obtain ⟨⟨-, hu⟩, -⟩ := (TctStore.exact_iff ..).mp hx
  rw [hi, he] at hu
  exact absurd hu (by decide)

end Aitp
