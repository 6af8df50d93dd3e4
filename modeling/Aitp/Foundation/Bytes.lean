import Mathlib.Data.List.Basic
import Mathlib.Tactic.Common
import Mathlib.Data.Int.Notation
import Mathlib.Data.Nat.Notation

/-! # Byte strings

Byte strings are lists of octets. Text becomes bytes through UTF-8, which is
injective, so equal encodings come from equal texts.
-/

namespace Aitp

/-- A byte string. -/
abbrev Bytes := List UInt8

/-- The UTF-8 encoding of a list of characters. -/
def utf8 (cs : List Char) : Bytes :=
  cs.flatMap String.utf8EncodeChar

/-- The bytes of a string, as `str::as_bytes` gives them. -/
def asBytes (s : String) : Bytes :=
  utf8 s.toList

@[simp] theorem utf8_nil : utf8 [] = [] := rfl

@[simp] theorem utf8_append (cs ds : List Char) : utf8 (cs ++ ds) = utf8 cs ++ utf8 ds := by
  simp [utf8]

theorem utf8_injective {cs ds : List Char} (h : utf8 cs = utf8 ds) : cs = ds := by
  have hb : cs.utf8Encode = ds.utf8Encode := by
    simp only [List.utf8Encode]
    exact congrArg _ h
  have hs : String.ofList cs = String.ofList ds :=
    String.toByteArray_inj.mp (by simpa only [String.toByteArray_ofList] using hb)
  exact String.ofList_injective hs

theorem asBytes_injective {s t : String} (h : asBytes s = asBytes t) : s = t :=
  String.toList_injective (utf8_injective h)

theorem length_le_utf8 (cs : List Char) : cs.length ≤ (utf8 cs).length := by
  induction cs with
  | nil => exact Nat.le_refl _
  | cons c cs ih =>
    have hc : 0 < (String.utf8EncodeChar c).length := by
      simpa using c.utf8Size_pos
    simp only [utf8, List.flatMap_cons, List.length_append, List.length_cons] at ih ⊢
    omega

theorem length_utf8_le (cs : List Char) : (utf8 cs).length ≤ 4 * cs.length := by
  induction cs with
  | nil => exact Nat.le_refl _
  | cons c cs ih =>
    have hc : (String.utf8EncodeChar c).length ≤ 4 := by
      simpa using c.utf8Size_le_four
    simp only [utf8, List.flatMap_cons, List.length_append, List.length_cons] at ih ⊢
    omega

end Aitp
