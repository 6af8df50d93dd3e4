import Aitp.Foundation.Bytes

/-! # Hexadecimal digits and prefixes

Lowercase hexadecimal digits, and the removal of a known prefix from a string.
-/

namespace Aitp

/-- A lowercase hexadecimal digit. -/
def hexDigit (n : ℕ) : Char :=
  Nat.digitChar n

/-- The value of a lowercase hexadecimal digit. -/
def hexValue (c : Char) : Option ℕ :=
  if 48 ≤ c.toNat ∧ c.toNat ≤ 57 then some (c.toNat - 48)
  else if 97 ≤ c.toNat ∧ c.toNat ≤ 102 then some (c.toNat - 87)
  else none

theorem hexValue_hexDigit : ∀ n < 16, hexValue (hexDigit n) = some n := by
  decide

theorem hexDigit_ascii : ∀ m < 128, (hexValue (Char.ofNat m)).all fun n =>
    decide (n < 16 ∧ hexDigit n = Char.ofNat m) := by
  decide

theorem hexDigit_of_hexValue {c : Char} {n : ℕ} (h : hexValue c = some n) :
    n < 16 ∧ hexDigit n = c := by
  have hc : c.toNat < 128 := by
    unfold hexValue at h
    split_ifs at h <;> omega
  have hm := hexDigit_ascii c.toNat hc
  rw [Char.ofNat_toNat, h] at hm
  simpa using hm

def stripPrefix (p s : String) : Option String :=
  if p.toList.isPrefixOf s.toList then some (String.ofList (s.toList.drop p.toList.length)) else none

theorem stripPrefix_append (p s : String) : stripPrefix p (p ++ s) = some s := by
  simp [stripPrefix, String.toList_append]

theorem eq_append_of_stripPrefix {p s t : String} (h : stripPrefix p s = some t) : s = p ++ t := by
  unfold stripPrefix at h
  split_ifs at h with hp
  obtain rfl := Option.some.inj h
  apply String.toList_injective
  rw [String.toList_append, String.toList_ofList]
  exact (List.prefix_iff_eq_append.mp (List.isPrefixOf_iff_prefix.mp hp)).symm

end Aitp
