import Aitp.Foundation.EcmaNumber
import Aitp.Json.Parse
import Mathlib.Data.List.Sort
import Mathlib.Data.List.Lex
import Mathlib.Data.List.Nodup

/-! # Canonical JSON

Object members are sorted by the UTF-16 code units of their keys and numbers are
written as `binary64` numbers, at every depth, and the compact text of the result
is encoded as UTF-8. Two values have the same canonical bytes exactly when they
agree up to the order of members and the rounding of numbers.
-/

namespace Aitp

/-! ## Key order -/

/-- The UTF-16 code units of a character. -/
def utf16Char (c : Char) : List ℕ :=
  if c.toNat < 0x10000 then [c.toNat]
  else [0xD800 + (c.toNat - 0x10000) / 0x400, 0xDC00 + (c.toNat - 0x10000) % 0x400]

/-- The UTF-16 code units of a string. -/
def utf16 (s : String) : List ℕ :=
  s.toList.flatMap utf16Char

theorem toNat_scalar (c : Char) :
    c.toNat < 0xD800 ∨ 0xDFFF < c.toNat ∧ c.toNat < 0x110000 :=
  c.valid

theorem utf16Char_prefix {c d : Char} {r r' : List ℕ}
    (h : utf16Char c ++ r = utf16Char d ++ r') : c = d ∧ r = r' := by
  have hc := toNat_scalar c
  have hd := toNat_scalar d
  have hn : c.toNat = d.toNat ∧ r = r' := by
    unfold utf16Char at h
    split_ifs at h <;>
      simp only [List.cons_append, List.nil_append, List.cons.injEq] at h <;>
      refine ⟨?_, ?_⟩ <;> first | omega | exact h.2.2 | exact h.2
  exact ⟨Char.toNat_inj.mp hn.1, hn.2⟩

theorem utf16_flatMap_injective {cs ds : List Char}
    (h : cs.flatMap utf16Char = ds.flatMap utf16Char) : cs = ds := by
  have hne : ∀ c, utf16Char c ≠ [] := by
    intro c
    unfold utf16Char
    split_ifs <;> simp
  induction cs generalizing ds with
  | nil =>
    cases ds with
    | nil => rfl
    | cons d ds => simp [hne d] at h
  | cons c cs ih =>
    cases ds with
    | nil => simp [hne c] at h
    | cons d ds =>
      obtain ⟨rfl, hr⟩ := utf16Char_prefix (by simpa only [List.flatMap_cons] using h)
      rw [ih hr]

theorem utf16_injective {s t : String} (h : utf16 s = utf16 t) : s = t :=
  String.toList_injective (utf16_flatMap_injective h)

/-- Members in the order of their keys. -/
def memberLe (m m' : String × Json) : Prop :=
  utf16 m.1 ≤ utf16 m'.1

instance : DecidableRel memberLe := fun m m' =>
  inferInstanceAs (Decidable (utf16 m.1 ≤ utf16 m'.1))

instance : Std.Total memberLe := ⟨fun m m' => le_total (utf16 m.1) (utf16 m'.1)⟩

instance : IsTrans (String × Json) memberLe := ⟨fun _ _ _ => le_trans⟩

namespace Json

/-! ## Canonical form -/

/-- `serde_jcs` writes every number as `ryu_js` prints it as a `binary64` number. -/
def canonFraction (f : Fraction) : Json :=
  (numberOf (Ecma.decimalOf f.digits).text).getD (frac f)

mutual

/-- Sort the members of every object and round every number. -/
def canon : Json → Json
  | null => null
  | bool b => bool b
  | int z => int (Ecma.integer z)
  | frac f => canonFraction f
  | str s => str s
  | arr vs => arr (canonItems vs)
  | obj ms => obj ((canonMembers ms).insertionSort memberLe)

def canonItems : List Json → List Json
  | [] => []
  | v :: vs => canon v :: canonItems vs

def canonMembers : List (String × Json) → List (String × Json)
  | [] => []
  | (k, v) :: ms => (k, canon v) :: canonMembers ms

end

/-- RFC 8785 canonical bytes. -/
def jcs (v : Json) : Bytes :=
  utf8 (text (canon v))

@[simp] theorem canon_str (s : String) : canon (str s) = str s := rfl

/-- Integers that a `binary64` number holds are written as they are. -/
theorem canon_int {z : ℤ} (hl : -(2 ^ 53) ≤ z) (hu : z ≤ 2 ^ 53) : canon (int z) = int z := by
  rw [canon, Ecma.integer_of_le hl hu]

theorem canonFraction_cases (f : Fraction) :
    (∃ z, canonFraction f = int z) ∨ ∃ g, canonFraction f = frac g := by
  unfold canonFraction numberOf
  split_ifs
  · exact .inl ⟨_, rfl⟩
  · exact .inr ⟨_, rfl⟩
  · exact .inr ⟨_, rfl⟩

theorem canonItems_eq (vs : List Json) : canonItems vs = vs.map canon := by
  induction vs with
  | nil => rfl
  | cons v vs ih => rw [canonItems, ih, List.map_cons]

theorem canonMembers_eq (ms : List (String × Json)) :
    canonMembers ms = ms.map fun m => (m.1, canon m.2) := by
  induction ms with
  | nil => rfl
  | cons m ms ih => rw [canonMembers, ih, List.map_cons]

theorem jcs_eq_iff {v w : Json} : jcs v = jcs w ↔ canon v = canon w :=
  ⟨fun h => text_injective (utf8_injective h), fun h => by rw [jcs, h, jcs]⟩

theorem lookup_canonMembers (ms : List (String × Json)) (k : String) :
    (canonMembers ms).lookup k = (ms.lookup k).map canon := by
  induction ms with
  | nil => rfl
  | cons m ms ih =>
    obtain ⟨k', v⟩ := m
    simp only [canonMembers, List.lookup_cons]
    cases k == k' <;> simp [ih]

theorem keys_canonMembers (ms : List (String × Json)) :
    (canonMembers ms).map Prod.fst = ms.map Prod.fst := by
  simp [canonMembers_eq]

theorem lookup_eq_some_iff {ms : List (String × Json)} (hd : (ms.map Prod.fst).Nodup)
    {k : String} {v : Json} : ms.lookup k = some v ↔ (k, v) ∈ ms := by
  induction ms with
  | nil => simp
  | cons m ms ih =>
    obtain ⟨k', v'⟩ := m
    rw [List.map_cons, List.nodup_cons] at hd
    by_cases hk : k = k'
    · subst hk
      have hm : (k, v) ∉ ms := fun h => hd.1 (List.mem_map.mpr ⟨_, h, rfl⟩)
      simp [hm, eq_comm]
    · have hb : (k == k') = false := by simpa using hk
      simp [List.lookup_cons, hb, hk, ih hd.2]

theorem lookup_perm {ms ms' : List (String × Json)} (hd : (ms.map Prod.fst).Nodup)
    (hp : ms.Perm ms') (k : String) : ms.lookup k = ms'.lookup k := by
  have hd' : (ms'.map Prod.fst).Nodup := (hp.map _).nodup_iff.mp hd
  apply Option.ext
  intro v
  rw [lookup_eq_some_iff hd, lookup_eq_some_iff hd', hp.mem_iff]

theorem canon_obj_congr {ms ms' : List (String × Json)} (hd : (ms.map Prod.fst).Nodup)
    (hd' : (ms'.map Prod.fst).Nodup)
    (h : ∀ k, (ms.lookup k).map canon = (ms'.lookup k).map canon) :
    canon (obj ms) = canon (obj ms') := by
  have hc : ((canonMembers ms).map Prod.fst).Nodup := by rwa [keys_canonMembers]
  have hc' : ((canonMembers ms').map Prod.fst).Nodup := by rwa [keys_canonMembers]
  have hp : (canonMembers ms).Perm (canonMembers ms') := by
    refine (List.perm_ext_iff_of_nodup hc.of_map hc'.of_map).mpr ?_
    rintro ⟨k, v⟩
    rw [← lookup_eq_some_iff hc, ← lookup_eq_some_iff hc', lookup_canonMembers,
      lookup_canonMembers, h k]
  simp only [canon]
  congr 1
  refine List.Perm.eq_of_pairwise ?_ (List.pairwise_insertionSort _ _)
    (List.pairwise_insertionSort _ _)
    ((List.perm_insertionSort _ _).trans (hp.trans (List.perm_insertionSort _ _).symm))
  rintro ⟨k, v⟩ ⟨k', v'⟩ hm hm' hle hge
  obtain rfl : k = k' := utf16_injective (le_antisymm hle hge)
  rw [List.mem_insertionSort, ← lookup_eq_some_iff hc] at hm
  rw [List.mem_insertionSort, ← hp.mem_iff, ← lookup_eq_some_iff hc, hm] at hm'
  rw [Option.some.inj hm']

theorem lookup_of_canon_eq {ms ms' : List (String × Json)} (hd : (ms.map Prod.fst).Nodup)
    (h : canon (obj ms) = canon (obj ms')) (k : String) :
    (ms.lookup k).map canon = (ms'.lookup k).map canon := by
  simp only [canon, obj.injEq] at h
  have hp : (canonMembers ms).Perm (canonMembers ms') :=
    (List.perm_insertionSort memberLe _).symm.trans
      (h ▸ List.perm_insertionSort memberLe (canonMembers ms'))
  rw [← lookup_canonMembers, ← lookup_canonMembers]
  exact lookup_perm (by rwa [keys_canonMembers]) hp k

@[simp] theorem canon_eq_str {v : Json} {s : String} : canon v = str s ↔ v = str s := by
  cases v with
  | frac f => rcases canonFraction_cases f with ⟨z, h⟩ | ⟨g, h⟩ <;> simp [canon, h]
  | _ => simp [canon]

@[simp] theorem isObject_canon (v : Json) : (canon v).isObject = v.isObject := by
  cases v with
  | frac f => rcases canonFraction_cases f with ⟨z, h⟩ | ⟨g, h⟩ <;> simp [canon, h, isObject]
  | _ => rfl

theorem isObject_of_canon_eq {v : Json} {ms : List (String × Json)}
    (h : canon v = canon (obj ms)) : ∃ ms', v = obj ms' := by
  rw [← isObject_iff, ← isObject_canon, h]
  rfl

theorem canon_ne_of_isObject {v w : Json} (hv : v.isObject = true) (hw : w.isObject = false) :
    canon v ≠ canon w := by
  intro h
  rw [← isObject_canon, h, isObject_canon, hw] at hv
  cases hv

/-! ## Lengths -/

theorem escapeChar_ne_nil (c : Char) : escapeChar c ≠ [] := by
  unfold escapeChar
  split_ifs <;> simp

theorem length_le_strText (s : String) : s.toList.length + 2 ≤ (strText s).length := by
  have hf : ∀ cs : List Char, cs.length ≤ (cs.flatMap escapeChar).length := by
    intro cs
    induction cs with
    | nil => exact le_rfl
    | cons c cs ih =>
      have hc := List.length_pos_iff.mpr (escapeChar_ne_nil c)
      rw [List.flatMap_cons, List.length_append, List.length_cons]
      omega
  have hs := hf s.toList
  simp only [strText, List.length_cons, List.length_append, List.length_nil]
  omega

theorem length_escapeChar_le (c : Char) : (escapeChar c).length ≤ 6 := by
  unfold escapeChar
  split_ifs <;> simp

theorem length_strText_le (s : String) : (strText s).length ≤ 6 * s.length + 2 := by
  have hf : ∀ cs : List Char, (cs.flatMap escapeChar).length ≤ 6 * cs.length := by
    intro cs
    induction cs with
    | nil => exact le_rfl
    | cons c cs ih =>
      have hc := length_escapeChar_le c
      rw [List.flatMap_cons, List.length_append, List.length_cons]
      omega
  have hs := hf s.toList
  rw [String.length_toList] at hs
  simp only [strText, List.length_cons, List.length_append, List.length_nil]
  omega

theorem length_le_textMembers {k : String} {v : Json} {ms : List (String × Json)}
    (h : (k, v) ∈ ms) : k.toList.length + 3 ≤ (textMembers ms).length := by
  have hk := length_le_strText k
  induction ms with
  | nil => cases h
  | cons m ms ih =>
    obtain ⟨k', v'⟩ := m
    rcases List.mem_cons.mp h with heq | hm
    · obtain ⟨rfl, rfl⟩ := Prod.mk.inj heq
      cases ms <;> simp only [textMembers, List.length_append, List.length_cons] <;> omega
    · obtain ⟨m, ms, rfl⟩ := List.exists_cons_of_ne_nil (List.ne_nil_of_mem hm)
      have hi := ih hm
      simp only [textMembers, List.length_append, List.length_cons]
      omega

theorem length_le_jcs {v w : Json} {k : String} (h : v.get k = some w) :
    k.toList.length + 5 ≤ v.jcs.length := by
  cases v with
  | obj ms =>
    obtain ⟨l, r, hms, -⟩ := List.lookup_eq_some_iff.mp h
    have hmem : (k, w) ∈ (obj ms).members := by
      rw [hms]
      exact List.mem_append_right l List.mem_cons_self
    have hm : (k, w.canon) ∈ (canonMembers ms).insertionSort memberLe := by
      rw [List.mem_insertionSort, canonMembers_eq]
      exact List.mem_map.mpr ⟨(k, w), hmem, rfl⟩
    have ht := length_le_textMembers hm
    have hu := length_le_utf8 (text (canon (obj ms)))
    simp only [canon, text, List.length_cons, List.length_append, List.length_nil] at hu
    unfold jcs
    simp only [canon, text]
    omega
  | _ => simp [get, members] at h

end Json

end Aitp
