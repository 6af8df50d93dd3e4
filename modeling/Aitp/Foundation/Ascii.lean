import Aitp.Foundation.Bytes

/-! # ASCII text

An ASCII character is one octet, its code: a text of them is as many octets as characters, and
has a zero octet only where it has a NUL.
-/

namespace Aitp

/-- A text of ASCII characters. -/
def IsAscii (cs : List Char) : Prop := ∀ c ∈ cs, c.toNat < 128

theorem isAscii_of_all {cs : List Char} (h : cs.all (fun c => decide (c.toNat < 128)) = true) :
    IsAscii cs :=
  fun c hc => of_decide_eq_true (List.all_eq_true.mp h c hc)

theorem isAscii_append {cs ds : List Char} : IsAscii (cs ++ ds) ↔ IsAscii cs ∧ IsAscii ds := by
  simp only [IsAscii, List.mem_append, or_imp, forall_and]

theorem utf8EncodeChar_ascii {c : Char} (h : c.toNat < 128) :
    String.utf8EncodeChar c = [UInt8.ofNat c.toNat] := by
  have hs : c.utf8Size = 1 := Char.utf8Size_eq_one_iff.mpr (by
    rw [UInt32.le_iff_toNat_le]
    exact Nat.le_of_lt_succ h)
  rw [String.utf8EncodeChar_eq_singleton hs]
  rfl

theorem utf8_ascii {cs : List Char} (h : IsAscii cs) :
    utf8 cs = cs.map fun c => UInt8.ofNat c.toNat := by
  induction cs with
  | nil => rfl
  | cons c cs ih =>
    have ht := ih fun d hd => h d (List.mem_cons_of_mem _ hd)
    rw [utf8] at ht
    rw [utf8, List.flatMap_cons, ht, utf8EncodeChar_ascii (h c List.mem_cons_self)]
    rfl

theorem length_utf8_ascii {cs : List Char} (h : IsAscii cs) : (utf8 cs).length = cs.length := by
  rw [utf8_ascii h, List.length_map]

theorem zero_notMem_utf8 {cs : List Char} (h : IsAscii cs) (hz : ∀ c ∈ cs, c.toNat ≠ 0) :
    0 ∉ utf8 cs := by
  rw [utf8_ascii h, List.mem_map]
  rintro ⟨c, hc, he⟩
  have hn := congrArg UInt8.toNat he
  rw [UInt8.toNat_ofNat', Nat.mod_eq_of_lt (Nat.lt_trans (h c hc) (by decide))] at hn
  exact hz c hc hn

theorem exists_octet_of_not_ascii {c : Char} (h : 128 ≤ c.toNat) :
    ∃ b ∈ String.utf8EncodeChar c, 128 ≤ b.toNat := by
  have last : ∀ x : UInt8, 128 ≤ (x &&& 0x3f ||| 0x80).toNat := by
    intro x
    rw [UInt8.toNat_or]
    exact Nat.right_le_or
  refine ⟨c.val.toUInt8 &&& 0x3f ||| 0x80, ?_, last _⟩
  rcases c.utf8Size_eq with hs | hs | hs | hs
  · have hle : c.toNat ≤ 127 := UInt32.le_iff_toNat_le.mp (Char.utf8Size_eq_one_iff.mp hs)
    omega
  · simp [String.utf8EncodeChar_eq_cons_cons hs]
  · simp [String.utf8EncodeChar_eq_cons_cons_cons hs]
  · simp [String.utf8EncodeChar_eq_cons_cons_cons_cons hs]

theorem isAscii_of_utf8 {cs : List Char} (h : ∀ b ∈ utf8 cs, b.toNat < 128) : IsAscii cs := by
  intro c hc
  by_contra hn
  obtain ⟨b, hb, hle⟩ := exists_octet_of_not_ascii (Nat.not_lt.mp hn)
  have hlt := h b (List.mem_flatMap.mpr ⟨c, hc, hb⟩)
  omega

end Aitp
