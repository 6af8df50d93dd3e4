import Aitp.Json.Value

/-! # Reading compact text back

A parser of compact JSON text, and its round trip with `Json.text`. Two values
with the same text are therefore the same value.
-/

namespace Aitp

/-! ## Numbers and strings -/

/-- The integer a list of digits with an optional sign denotes. -/
def intOfText : List Char → Int
  | '-' :: cs => -(Nat.ofDigitChars 10 cs 0 : ℕ)
  | cs => (Nat.ofDigitChars 10 cs 0 : ℕ)

/-- The value a number token denotes. -/
def numberOf (cs : List Char) : Option Json :=
  if intText (intOfText cs) = cs then some (.int (intOfText cs))
  else if h : cs.all isNumeral = true ∧ ('.' ∈ cs ∨ 'e' ∈ cs) then
    some (.frac ⟨cs, List.all_eq_true.mp h.1, h.2⟩)
  else none

/-- The character a simple escape stands for. -/
def unescape : Char → Option Char
  | '"' => some '"'
  | '\\' => some '\\'
  | 'b' => some '\x08'
  | 't' => some '\t'
  | 'n' => some '\n'
  | 'f' => some '\x0c'
  | 'r' => some '\r'
  | _ => none

/-- Put a character before what a string literal still holds. -/
def prepend (c : Char) (p : List Char × List Char) : List Char × List Char :=
  (c :: p.1, p.2)

/-- The characters up to the closing quote, and what follows it. -/
def stringBody : List Char → Option (List Char × List Char)
  | [] => none
  | '"' :: r => some ([], r)
  | '\\' :: 'u' :: '0' :: '0' :: a :: b :: r =>
    match hexValue a, hexValue b with
    | some high, some low => (stringBody r).map (prepend (Char.ofNat (high * 16 + low)))
    | _, _ => none
  | '\\' :: e :: r =>
    match unescape e with
    | some c => (stringBody r).map (prepend c)
    | none => none
  | c :: r => (stringBody r).map (prepend c)

/-- What follows a value does not continue a number. -/
def Stops (r : List Char) : Prop :=
  ∀ c ∈ r.head?, isNumeral c = false

@[simp] theorem stops_nil : Stops [] := by
  simp [Stops]

theorem stops_cons {c : Char} {r : List Char} (h : isNumeral c = false) : Stops (c :: r) := by
  intro d hd
  obtain rfl : c = d := by simpa using hd
  exact h

theorem stops_comma (r : List Char) : Stops (',' :: r) := stops_cons (by decide)

theorem stops_bracket (r : List Char) : Stops (']' :: r) := stops_cons (by decide)

theorem stops_brace (r : List Char) : Stops ('}' :: r) := stops_cons (by decide)

theorem isDigit_isNumeral {c : Char} (h : c.isDigit = true) : isNumeral c = true := by
  simp [isNumeral, h]

theorem isNumeral_of_mem_intText {z : Int} {c : Char} (h : c ∈ intText z) :
    isNumeral c = true := by
  cases z with
  | ofNat n => exact isDigit_isNumeral (Nat.isDigit_of_mem_toDigits (by omega) (by omega) h)
  | negSucc n =>
    rcases List.mem_cons.mp h with rfl | h
    · rfl
    · exact isDigit_isNumeral (Nat.isDigit_of_mem_toDigits (by omega) (by omega) h)

theorem intText_ne_nil (z : Int) : intText z ≠ [] := by
  cases z with
  | ofNat n => exact Nat.toDigits_ne_nil
  | negSucc n => simp [intText]

theorem unmarked_of_mem_intText {z : Int} {c : Char} (h : c ∈ intText z) :
    c ≠ '.' ∧ c ≠ 'e' := by
  have hd : ∀ n : ℕ, c ∈ Nat.toDigits 10 n → c ≠ '.' ∧ c ≠ 'e' := by
    intro n hn
    have := Nat.isDigit_of_mem_toDigits (by omega) (by omega) hn
    constructor <;> rintro rfl <;> simp [Char.isDigit] at this
  cases z with
  | ofNat n => exact hd n h
  | negSucc n =>
    rcases List.mem_cons.mp h with rfl | h
    · decide
    · exact hd _ h

theorem intOfText_intText (z : Int) : intOfText (intText z) = z := by
  cases z with
  | negSucc n =>
    simp only [intText, intOfText, Nat.ofDigitChars_ten_toDigits]
    omega
  | ofNat n =>
    have hn : ∀ cs, Nat.toDigits 10 n ≠ '-' :: cs := by
      intro cs h
      have : '-' ∈ Nat.toDigits 10 n := by simp [h]
      have := Nat.isDigit_of_mem_toDigits (by omega) (by omega) this
      simp [Char.isDigit] at this
    have he : ∀ cs, (∀ ds, cs ≠ '-' :: ds) →
        intOfText cs = (Nat.ofDigitChars 10 cs 0 : ℕ) := by
      intro cs h
      unfold intOfText
      split
      · exact absurd rfl (h _)
      · rfl
    simp only [intText]
    rw [he _ hn, Nat.ofDigitChars_ten_toDigits]
    rfl

theorem numberOf_intText (z : Int) : numberOf (intText z) = some (.int z) := by
  simp [numberOf, intOfText_intText]

theorem numberOf_digits (f : Fraction) : numberOf f.digits = some (.frac f) := by
  have hne : intText (intOfText f.digits) ≠ f.digits := by
    intro h
    have hm : ∀ c ∈ f.digits, c ≠ '.' ∧ c ≠ 'e' := by
      rw [← h]
      exact fun c hc => unmarked_of_mem_intText hc
    rcases f.marked with hd | he
    · exact (hm _ hd).1 rfl
    · exact (hm _ he).2 rfl
  rw [numberOf, if_neg hne, dif_pos ⟨List.all_eq_true.mpr f.numeral, f.marked⟩]

theorem Fraction.digits_ne_nil (f : Fraction) : f.digits ≠ [] := by
  intro h
  rcases f.marked with hd | he
  · simp [h] at hd
  · simp [h] at he

theorem stringBody_plain {c : Char} (hq : c ≠ '"') (hs : c ≠ '\\') (r : List Char) :
    stringBody (c :: r) = (stringBody r).map (prepend c) := by
  rw [stringBody.eq_def]
  split <;> simp_all

theorem stringBody_control {c : Char} (h : c.toNat < 32) (r : List Char) :
    stringBody ('\\' :: 'u' :: '0' :: '0' :: hexDigit (c.toNat / 16) ::
      hexDigit (c.toNat % 16) :: r) = (stringBody r).map (prepend c) := by
  have hc : Char.ofNat (c.toNat / 16 * 16 + c.toNat % 16) = c := by
    rw [Nat.div_add_mod' c.toNat 16, Char.ofNat_toNat]
  simp only [stringBody, hexValue_hexDigit (c.toNat / 16) (by omega),
    hexValue_hexDigit (c.toNat % 16) (by omega), hc]

theorem stringBody_escapeChar (c : Char) (r : List Char) :
    stringBody (escapeChar c ++ r) = (stringBody r).map (prepend c) := by
  unfold escapeChar
  split_ifs with hq hs _ _ _ _ _ hc
  on_goal 9 => exact stringBody_plain hq hs r
  on_goal 8 => exact stringBody_control hc r
  all_goals
    subst c
    simp [stringBody, unescape]

theorem stringBody_escape (cs r : List Char) :
    stringBody (cs.flatMap escapeChar ++ '"' :: r) = some (cs, r) := by
  induction cs with
  | nil => simp [stringBody]
  | cons c cs ih =>
    rw [List.flatMap_cons, List.append_assoc, stringBody_escapeChar, ih]
    rfl

/-! ## Values -/

mutual

/-- Read one value; the fuel bounds the nesting and the number of items. -/
def readValue : ℕ → List Char → Option (Json × List Char)
  | 0, _ => none
  | _, [] => none
  | n + 1, c :: cs =>
    if c = '"' then do
      let (s, r) ← stringBody cs
      return (.str (String.ofList s), r)
    else if c = '[' then
      if cs.head? = some ']' then some (.arr [], cs.tail)
      else do
        let (vs, r) ← readItems n cs
        return (.arr vs, r)
    else if c = '{' then
      if cs.head? = some '}' then some (.obj [], cs.tail)
      else do
        let (ms, r) ← readMembers n cs
        return (.obj ms, r)
    else if c = 'n' then
      if cs.take 3 = ['u', 'l', 'l'] then some (.null, cs.drop 3) else none
    else if c = 't' then
      if cs.take 3 = ['r', 'u', 'e'] then some (.bool true, cs.drop 3) else none
    else if c = 'f' then
      if cs.take 4 = ['a', 'l', 's', 'e'] then some (.bool false, cs.drop 4) else none
    else do
      let v ← numberOf ((c :: cs).takeWhile isNumeral)
      return (v, (c :: cs).dropWhile isNumeral)

/-- Read the items of an array up to its closing bracket. -/
def readItems : ℕ → List Char → Option (List Json × List Char)
  | 0, _ => none
  | n + 1, cs => do
    let (v, r) ← readValue n cs
    match r with
    | ',' :: r =>
      let (vs, rest) ← readItems n r
      return (v :: vs, rest)
    | ']' :: r => return ([v], r)
    | _ => none

/-- Read the members of an object up to its closing brace. -/
def readMembers : ℕ → List Char → Option (List (String × Json) × List Char)
  | 0, _ => none
  | n + 1, '"' :: cs => do
    let (k, r) ← stringBody cs
    match r with
    | ':' :: r =>
      let (v, r) ← readValue n r
      match r with
      | ',' :: r =>
        let (ms, rest) ← readMembers n r
        return ((String.ofList k, v) :: ms, rest)
      | '}' :: r => return ([(String.ofList k, v)], r)
      | _ => none
    | _ => none
  | _, _ => none

end

@[simp] theorem dropWhile_numeral {cs r : List Char} (h : ∀ c ∈ cs, isNumeral c = true)
    (hr : Stops r) : (cs ++ r).dropWhile isNumeral = r := by
  rw [List.dropWhile_append_of_pos h]
  cases r with
  | nil => rfl
  | cons c r => simp [List.dropWhile, hr c rfl]

theorem takeWhile_numeral {cs r : List Char} (h : ∀ c ∈ cs, isNumeral c = true)
    (hr : Stops r) : (cs ++ r).takeWhile isNumeral = cs := by
  rw [List.takeWhile_append_of_pos h]
  cases r with
  | nil => simp
  | cons c r => simp [List.takeWhile, hr c rfl]

theorem readValue_number {cs r : List Char} {v : Json} (hne : cs ≠ [])
    (h : ∀ c ∈ cs, isNumeral c = true) (hr : Stops r) (hv : numberOf cs = some v) (n : ℕ) :
    readValue (n + 1) (cs ++ r) = some (v, r) := by
  obtain ⟨c, ds, rfl⟩ := List.exists_cons_of_ne_nil hne
  have hc := h c (List.mem_cons_self ..)
  have hs : c ≠ '"' ∧ c ≠ '[' ∧ c ≠ '{' ∧ c ≠ 'n' ∧ c ≠ 't' ∧ c ≠ 'f' := by
    refine ⟨?_, ?_, ?_, ?_, ?_, ?_⟩ <;> rintro rfl <;> exact absurd hc (by decide)
  obtain ⟨h₁, h₂, h₃, h₄, h₅, h₆⟩ := hs
  rw [List.cons_append, readValue, if_neg h₁, if_neg h₂, if_neg h₃, if_neg h₄, if_neg h₅,
    if_neg h₆, ← List.cons_append, takeWhile_numeral h hr, dropWhile_numeral h hr, hv]
  rfl

namespace Json

theorem text_ne_nil (v : Json) : text v ≠ [] := by
  cases v with
  | bool b => cases b <;> simp [text]
  | int z => simpa only [text] using intText_ne_nil z
  | frac f => simpa only [text] using f.digits_ne_nil
  | _ => simp [text, strText]

theorem bracket_notMem_numeral {cs : List Char} (h : ∀ c ∈ cs, isNumeral c = true) :
    cs.head? ≠ some ']' := by
  intro hc
  exact absurd (h _ (List.mem_of_mem_head? hc)) (by decide)

theorem head_text_ne (v : Json) : (text v).head? ≠ some ']' := by
  cases v with
  | bool b => cases b <;> simp [text]
  | int z => exact bracket_notMem_numeral fun _ => isNumeral_of_mem_intText
  | frac f => exact bracket_notMem_numeral f.numeral
  | _ => simp [text, strText]

theorem head_textItems_ne (v : Json) (vs : List Json) (r : List Char) :
    (textItems (v :: vs) ++ r).head? ≠ some ']' := by
  obtain ⟨c, cs, hc⟩ := List.exists_cons_of_ne_nil (text_ne_nil v)
  have hh := head_text_ne v
  rw [hc] at hh
  cases vs <;> simpa [textItems, hc] using hh

theorem head_textMembers_ne (m : String × Json) (ms : List (String × Json)) (r : List Char) :
    (textMembers (m :: ms) ++ r).head? ≠ some '}' := by
  cases ms <;> simp [textMembers, strText]

mutual

theorem readValue_text (v : Json) (n : ℕ) (r : List Char) (hn : (text v).length ≤ n)
    (hr : Stops r) : readValue n (text v ++ r) = some (v, r) := by
  obtain ⟨n, rfl⟩ : ∃ m, n = m + 1 :=
    ⟨n - 1, by have := List.length_pos_iff.mpr (text_ne_nil v); omega⟩
  match v with
  | null => simp [text, readValue]
  | bool true => simp [text, readValue]
  | bool false => simp [text, readValue]
  | int z =>
    exact readValue_number (intText_ne_nil z) (fun _ => isNumeral_of_mem_intText) hr
      (numberOf_intText z) n
  | frac f => exact readValue_number f.digits_ne_nil f.numeral hr (numberOf_digits f) n
  | str s => simp [text, strText, readValue, stringBody_escape]
  | arr [] => simp [text, textItems, readValue]
  | arr (v :: vs) =>
    simp only [text, List.length_cons, List.length_append, List.length_nil] at hn
    have hi := readItems_text (v :: vs) n r (by simp) (by omega)
    have hh := head_textItems_ne v vs (']' :: r)
    simp only [text, List.cons_append, List.append_assoc, List.nil_append, readValue, hi,
      if_neg hh]
    simp
  | obj [] => simp [text, textMembers, readValue]
  | obj (m :: ms) =>
    simp only [text, List.length_cons, List.length_append, List.length_nil] at hn
    have hi := readMembers_text (m :: ms) n r (by simp) (by omega)
    have hh := head_textMembers_ne m ms ('}' :: r)
    simp only [text, List.cons_append, List.append_assoc, List.nil_append, readValue, hi,
      if_neg hh]
    simp

theorem readItems_text (vs : List Json) (n : ℕ) (r : List Char) (hv : vs ≠ [])
    (hn : (textItems vs).length < n) :
    readItems n (textItems vs ++ ']' :: r) = some (vs, r) := by
  obtain ⟨n, rfl⟩ : ∃ m, n = m + 1 := ⟨n - 1, by omega⟩
  match vs with
  | [v] =>
    simp only [textItems] at hn ⊢
    simp [readItems, readValue_text v n _ (by omega) (stops_bracket r)]
  | v :: w :: vs =>
    have hp := List.length_pos_iff.mpr (text_ne_nil v)
    simp only [textItems, List.length_append, List.length_cons] at hn ⊢
    have hi := readItems_text (w :: vs) n r (by simp) (by omega)
    simp [readItems, readValue_text v n _ (by omega) (stops_comma _), hi]

theorem readMembers_text (ms : List (String × Json)) (n : ℕ) (r : List Char) (hv : ms ≠ [])
    (hn : (textMembers ms).length < n) :
    readMembers n (textMembers ms ++ '}' :: r) = some (ms, r) := by
  obtain ⟨n, rfl⟩ : ∃ m, n = m + 1 := ⟨n - 1, by omega⟩
  match ms with
  | [(k, v)] =>
    simp only [textMembers, strText, List.length_append, List.length_cons] at hn ⊢
    simp [readMembers, stringBody_escape, readValue_text v n _ (by omega) (stops_brace r)]
  | (k, v) :: m :: ms =>
    have hp := List.length_pos_iff.mpr (text_ne_nil v)
    simp only [textMembers, strText, List.length_append, List.length_cons] at hn ⊢
    have hi := readMembers_text (m :: ms) n r (by simp) (by omega)
    simp [readMembers, stringBody_escape, readValue_text v n _ (by omega) (stops_comma _), hi]

end

/-- Parse a whole text. -/
def ofText (cs : List Char) : Option Json :=
  match readValue cs.length cs with
  | some (v, []) => some v
  | _ => none

@[simp] theorem ofText_text (v : Json) : ofText (text v) = some v := by
  have h := readValue_text v (text v).length [] (Nat.le_refl _) stops_nil
  rw [List.append_nil] at h
  simp [ofText, h]

theorem text_injective {v w : Json} (h : text v = text w) : v = w := by
  have hv := ofText_text v
  rw [h, ofText_text] at hv
  exact (Option.some.inj hv).symm

instance : DecidableEq Json := fun v w =>
  decidable_of_iff (text v = text w) ⟨text_injective, congrArg text⟩

end Json

end Aitp
