import Aitp.Crypto.TokenTarget
import Aitp.Tct.Builder

/-! # What a token entitles to

A token, and its voucher, entitle their subject to some grants. What a key signs tells
what it entitles to, and whom: a token that is built entitles its subject to its grants,
and nothing else that a key signs reads as a token for a holder.
-/

namespace Aitp

/-- The grants that an agent holds. -/
structure Entitlement where
  holder : Aid
  grants : List String

namespace Entitlement

/-- The same holder, with no other grants. -/
instance : Preorder Entitlement where
  le a b := a.holder = b.holder ∧ a.grants ⊆ b.grants
  le_refl a := ⟨rfl, List.Subset.refl _⟩
  le_trans _ _ _ hab hbc := ⟨hab.1.trans hbc.1, List.Subset.trans hab.2 hbc.2⟩

end Entitlement

/-- What the header and the payload of a token entitle to; the subject of a self-attestation is
its issuer, who needs no entitlement. -/
def entitlementOf (P : Primitives) (header payload : Bytes) : Option Entitlement :=
  if headerTyp P header = some typTct then
    ((P.document payload).bind decodeTctClaims).bind fun c =>
      if c.iss = c.sub then none else some ⟨c.sub, c.grants⟩
  else if headerTyp P header = some typGrantVoucher then
    ((P.document payload).bind decodeGrantVoucherClaims).map fun c => ⟨c.sub, c.grants⟩
  else none

/-- A signature over the target entitles an agent to some grants. -/
def Target.Entitles (P : Primitives) (t : Target) (g : Entitlement) : Prop :=
  ∃ algorithm header payload, t = tokenTarget algorithm header payload ∧
    entitlementOf P header payload = some g

variable {P : Primitives} {g : Entitlement}

section

variable {header payload : Bytes}

theorem entitles_tokenTarget {algorithm : AidAlgorithm}
    (h : (tokenTarget algorithm header payload).Entitles P g) :
    entitlementOf P header payload = some g := by
  obtain ⟨_, _, _, ht, he⟩ := h
  obtain ⟨-, rfl, rfl⟩ := tokenTarget_inj ht
  exact he

end

section

variable {algorithm : AidAlgorithm} {aid : Aid}

theorem entitles_tct {c : TctClaims} (hP : P.ReadsText) (hw : c.Writable P)
    (h : (tokenTarget algorithm (headerValue aid typTct).jcs c.toValue.jcs).Entitles P g) :
    c.iss ≠ c.sub ∧ g = ⟨c.sub, c.grants⟩ := by
  have he := entitles_tokenTarget h
  rw [entitlementOf, if_pos (headerTyp_headerValue hP _ _)] at he
  obtain ⟨read, hd, he⟩ := Option.bind_eq_some_iff.mp he
  obtain ⟨iat, exp, -, -, rfl⟩ := hw.read_toValue hP hd
  replace he : (if c.iss = c.sub then none else some ⟨c.sub, c.grants⟩) = some g := he
  split_ifs at he with hs
  exact ⟨hs, (Option.some.inj he).symm⟩

end

/-! ## Tokens for a holder -/

section

variable {issuer : Aid} {token : String}

end

/-! ## What building a token signs -/

section

variable {b : TctBuilder} {clock : Timestamp} {issued : IssuedTct} {t : Target}

end

/-! ## What else a key signs -/

/-- No token for a holder is signed over a digest of bytes with a zero or a brace: those of
envelopes, of proofs under a domain tag and of JSON objects. -/
theorem not_entitles_digest {m : Bytes} {x : UInt8} (hx : x = 0 ∨ x = 0x7b) (hm : x ∈ m) :
    ¬(Target.digest m).Entitles P g := by
  rintro ⟨_, _, _, ht, -⟩
  exact ne_tokenTarget hx hm ht

theorem brace_mem_jcs (ms : List (String × Json)) : 0x7b ∈ (Json.obj ms).jcs := by
  have hu : String.utf8EncodeChar '{' = [0x7b] := by decide
  simp only [Json.jcs, Json.canon, Json.text, utf8, List.flatMap_cons, hu]
  exact List.mem_append_left _ (List.mem_singleton_self _)

theorem not_entitles_delegation (hP : P.ReadsText) (algorithm : AidAlgorithm) (aid : Aid)
    (payload : Bytes) :
    ¬(tokenTarget algorithm (headerValue aid typDelegation).jcs payload).Entitles P g := by
  intro h
  have he := entitles_tokenTarget h
  rw [entitlementOf, headerTyp_headerValue hP, if_neg (by decide), if_neg (by decide)] at he
  cases he

end Aitp
