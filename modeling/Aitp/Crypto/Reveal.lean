import Aitp.Crypto.Jws

/-! # What a result reveals of a key

What a party sends may depend on signatures that its backend made. A result reveals the
signature of a target when a backend that refuses this target alone would not have given
it: whoever sees the result may know that signature, and no other.
-/

namespace Aitp

namespace Signer

/-- The backend that refuses one target. -/
def without (s : Signer) (t : Target) : Signer where
  aid := s.aid
  sign t' := if t' = t then none else s.sign t'

/-- The result of a computation with a backend reveals its signature of the target. -/
def Reveals {α : Type} (s : Signer) (f : Signer → Option α) (t : Target) : Prop :=
  ∃ r, f s = some r ∧ f (s.without t) ≠ some r

variable {α : Type} {s : Signer} {t : Target} {m : Bytes} {f : Signer → Option α}

@[simp] theorem without_aid : (s.without t).aid = s.aid :=
  rfl

theorem signJcs_without (h : Target.digest m ≠ t) : (s.without t).signJcs m = s.signJcs m := by
  simp only [signJcs, without, if_neg h]

theorem signRaw_without (h : rawTarget s.aid.algorithm m ≠ t) :
    (s.without t).signRaw m = s.signRaw m := by
  simp only [signRaw, without, if_neg h]

theorem not_reveals (h : f (s.without t) = f s) : ¬ s.Reveals f t := by
  rintro ⟨r, hr, hne⟩
  exact hne (h.trans hr)

end Signer

/-- The signing input of a token starts as no text with a lowercase `a` does. -/
theorem head?_compactSigningInput {aid : Aid} {typ input : String} {claims : Json}
    (h : compactSigningInput aid typ claims = .ok input) : (asBytes input).head? = some 0x65 := by
  simp only [compactSigningInput, bind_eq_ok, pure_eq_ok] at h
  obtain ⟨_, -, rfl⟩ := h
  have hheader : ∃ bs, asBytes ("\x7b\"alg\":\"" ++ joseAlg aid.algorithm ++ "\",\"typ\":\"" ++
      typ ++ "\"\x7d") = 0x7b :: 0x22 :: 0x61 :: bs := by
    simp only [asBytes, String.toList_append, utf8_append, List.append_assoc]
    exact ⟨_, rfl⟩
  obtain ⟨bs, hbs⟩ := hheader
  have hchars : Base64Url.encodeChars (0x7b :: 0x22 :: 0x61 :: bs) =
      'e' :: 'y' :: 'J' :: 'h' :: Base64Url.encodeChars bs := by
    simp only [Base64Url.encodeChars, List.cons.injEq, and_true]
    decide
  rw [hbs, encodeBase64Url, hchars]
  simp only [asBytes, String.toList_append, String.toList_ofList, List.cons_append]
  rfl

end Aitp
