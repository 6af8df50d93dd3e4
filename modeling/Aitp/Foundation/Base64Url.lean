import Aitp.Foundation.Bytes

/-! # Unpadded base64url

The strict codec of RFC 4648: no padding, no character outside the alphabet, and
no set bit beyond the last whole octet. Decoding is therefore injective.
-/

namespace Aitp

namespace Base64Url

/-- The character of a sextet. -/
def encodeSextet (n : ℕ) : Char :=
  if n < 26 then Char.ofNat (65 + n)
  else if n < 52 then Char.ofNat (71 + n)
  else if n < 62 then Char.ofNat (n - 4)
  else if n = 62 then '-'
  else '_'

/-- The sextet of a character of the alphabet. -/
def sextet (c : Char) : Option ℕ :=
  if 65 ≤ c.toNat ∧ c.toNat ≤ 90 then some (c.toNat - 65)
  else if 97 ≤ c.toNat ∧ c.toNat ≤ 122 then some (c.toNat - 71)
  else if 48 ≤ c.toNat ∧ c.toNat ≤ 57 then some (c.toNat + 4)
  else if c.toNat = 45 then some 62
  else if c.toNat = 95 then some 63
  else none

/-- Whether a character belongs to the alphabet. -/
def isBase64Url (c : Char) : Bool :=
  (sextet c).isSome

/-- Encode octets, three at a time. -/
def encodeChars : Bytes → List Char
  | [] => []
  | [x] =>
    let n := x.toNat * 16
    [encodeSextet (n / 64), encodeSextet (n % 64)]
  | [x, y] =>
    let n := (x.toNat * 256 + y.toNat) * 4
    [encodeSextet (n / 4096), encodeSextet (n / 64 % 64), encodeSextet (n % 64)]
  | x :: y :: z :: bs =>
    let n := (x.toNat * 256 + y.toNat) * 256 + z.toNat
    encodeSextet (n / 262144) :: encodeSextet (n / 4096 % 64) :: encodeSextet (n / 64 % 64) ::
      encodeSextet (n % 64) :: encodeChars bs

/-- Decode characters, four at a time; the last group may hold two or three. -/
def decodeChars : List Char → Option Bytes
  | [] => some []
  | [_] => none
  | [a, b] => do
    let n := (← sextet a) * 64 + (← sextet b)
    if n % 16 = 0 then some [UInt8.ofNat (n / 16)] else none
  | [a, b, c] => do
    let n := ((← sextet a) * 64 + (← sextet b)) * 64 + (← sextet c)
    if n % 4 = 0 then some [UInt8.ofNat (n / 1024), UInt8.ofNat (n / 4 % 256)] else none
  | a :: b :: c :: d :: cs => do
    let n := (((← sextet a) * 64 + (← sextet b)) * 64 + (← sextet c)) * 64 + (← sextet d)
    let bs ← decodeChars cs
    return UInt8.ofNat (n / 65536) :: UInt8.ofNat (n / 256 % 256) :: UInt8.ofNat (n % 256) :: bs

theorem sextet_encodeSextet : ∀ n < 64, sextet (encodeSextet n) = some n := by
  decide

theorem toNat_lt_of_sextet {c : Char} {n : ℕ} (h : sextet c = some n) : c.toNat < 128 := by
  unfold sextet at h
  split_ifs at h <;> omega

theorem sextet_ascii : ∀ m < 128, (sextet (Char.ofNat m)).all fun n =>
    decide (n < 64 ∧ encodeSextet n = Char.ofNat m) := by
  decide

theorem encodeSextet_of_sextet {c : Char} {n : ℕ} (h : sextet c = some n) :
    n < 64 ∧ encodeSextet n = c := by
  have hm := sextet_ascii c.toNat (toNat_lt_of_sextet h)
  rw [Char.ofNat_toNat, h] at hm
  simpa using hm

theorem ofNat_eq {n : ℕ} {x : UInt8} (h : n % 256 = x.toNat) : UInt8.ofNat n = x := by
  apply UInt8.toNat_inj.mp
  simpa using h

theorem toNat_ofNat_lt {n : ℕ} (h : n < 256) : (UInt8.ofNat n).toNat = n := by
  simpa using Nat.mod_eq_of_lt h

@[simp] theorem decodeChars_encodeChars (bs : Bytes) : decodeChars (encodeChars bs) = some bs := by
  fun_induction encodeChars bs with
  | case1 => rfl
  | case2 x n =>
    have hx := x.toNat_lt
    have h : n / 64 * 64 + n % 64 = n := by omega
    have hz : n % 16 = 0 := by omega
    simp [decodeChars, sextet_encodeSextet (n / 64) (by omega),
      sextet_encodeSextet (n % 64) (by omega), h, hz, ofNat_eq (n := n / 16) (x := x) (by omega)]
  | case3 x y n =>
    have hx := x.toNat_lt
    have hy := y.toNat_lt
    have h : (n / 4096 * 64 + n / 64 % 64) * 64 + n % 64 = n := by omega
    have hz : n % 4 = 0 := by omega
    simp [decodeChars, sextet_encodeSextet (n / 4096) (by omega),
      sextet_encodeSextet (n / 64 % 64) (by omega), sextet_encodeSextet (n % 64) (by omega), h, hz,
      ofNat_eq (n := n / 1024) (x := x) (by omega), ofNat_eq (n := n / 4 % 256) (x := y) (by omega)]
  | case4 x y z bs n ih =>
    have hx := x.toNat_lt
    have hy := y.toNat_lt
    have hz := z.toNat_lt
    have h : ((n / 262144 * 64 + n / 4096 % 64) * 64 + n / 64 % 64) * 64 + n % 64 = n := by
      omega
    simp [decodeChars, sextet_encodeSextet (n / 262144) (by omega),
      sextet_encodeSextet (n / 4096 % 64) (by omega), sextet_encodeSextet (n / 64 % 64) (by omega),
      sextet_encodeSextet (n % 64) (by omega), h, ih,
      ofNat_eq (n := n / 65536) (x := x) (by omega), ofNat_eq (n := n / 256 % 256) (x := y) (by omega),
      ofNat_eq (n := n % 256) (x := z) (by omega)]

theorem encodeChars_of_decodeChars {cs : List Char} {bs : Bytes} (h : decodeChars cs = some bs) :
    encodeChars bs = cs := by
  fun_induction decodeChars cs generalizing bs with
  | case1 => simp_all [encodeChars]
  | case2 => simp at h
  | case3 a b =>
    simp only [Option.bind_eq_bind, Option.bind_eq_some_iff] at h
    obtain ⟨m, hm, n, hn, h⟩ := h
    split_ifs at h with hz
    obtain ⟨hm', rfl⟩ := encodeSextet_of_sextet hm
    obtain ⟨hn', rfl⟩ := encodeSextet_of_sextet hn
    obtain rfl := Option.some.inj h
    have hx := toNat_ofNat_lt (n := (m * 64 + n) / 16) (by omega)
    simp only [encodeChars, hx]
    congr <;> omega
  | case4 a b c =>
    simp only [Option.bind_eq_bind, Option.bind_eq_some_iff] at h
    obtain ⟨l, hl, m, hm, n, hn, h⟩ := h
    split_ifs at h with hz
    obtain ⟨hl', rfl⟩ := encodeSextet_of_sextet hl
    obtain ⟨hm', rfl⟩ := encodeSextet_of_sextet hm
    obtain ⟨hn', rfl⟩ := encodeSextet_of_sextet hn
    obtain rfl := Option.some.inj h
    have hx := toNat_ofNat_lt (n := ((l * 64 + m) * 64 + n) / 1024) (by omega)
    have hy := toNat_ofNat_lt (n := ((l * 64 + m) * 64 + n) / 4 % 256) (by omega)
    simp only [encodeChars, hx, hy]
    congr <;> omega
  | case5 a b c d cs ih =>
    simp only [Option.bind_eq_bind, Option.bind_eq_some_iff] at h
    obtain ⟨k, hk, l, hl, m, hm, n, hn, bs', hb, h⟩ := h
    obtain ⟨hk', rfl⟩ := encodeSextet_of_sextet hk
    obtain ⟨hl', rfl⟩ := encodeSextet_of_sextet hl
    obtain ⟨hm', rfl⟩ := encodeSextet_of_sextet hm
    obtain ⟨hn', rfl⟩ := encodeSextet_of_sextet hn
    obtain rfl := Option.some.inj h
    have hx := toNat_ofNat_lt (n := (((k * 64 + l) * 64 + m) * 64 + n) / 65536) (by omega)
    have hy := toNat_ofNat_lt (n := (((k * 64 + l) * 64 + m) * 64 + n) / 256 % 256) (by omega)
    have hz := toNat_ofNat_lt (n := (((k * 64 + l) * 64 + m) * 64 + n) % 256) (by omega)
    simp only [encodeChars, hx, hy, hz, ih hb]
    congr <;> omega

theorem isBase64Url_encodeSextet {n : ℕ} (h : n < 64) : isBase64Url (encodeSextet n) = true := by
  simp [isBase64Url, sextet_encodeSextet n h]

theorem isBase64Url_of_mem_encodeChars {bs : Bytes} {c : Char} (h : c ∈ encodeChars bs) :
    isBase64Url c = true := by
  fun_induction encodeChars bs with
  | case1 => simp at h
  | case2 x n =>
    have hx := x.toNat_lt
    simp only [List.mem_cons, List.not_mem_nil, or_false] at h
    rcases h with rfl | rfl <;> exact isBase64Url_encodeSextet (by omega)
  | case3 x y n =>
    have hx := x.toNat_lt
    have hy := y.toNat_lt
    simp only [List.mem_cons, List.not_mem_nil, or_false] at h
    rcases h with rfl | rfl | rfl <;> exact isBase64Url_encodeSextet (by omega)
  | case4 x y z bs n ih =>
    have hx := x.toNat_lt
    have hy := y.toNat_lt
    have hz := z.toNat_lt
    simp only [List.mem_cons] at h
    rcases h with rfl | rfl | rfl | rfl | h
    · exact isBase64Url_encodeSextet (by omega)
    · exact isBase64Url_encodeSextet (by omega)
    · exact isBase64Url_encodeSextet (by omega)
    · exact isBase64Url_encodeSextet (by omega)
    · exact ih h

theorem length_of_decodeChars {cs : List Char} {bs : Bytes} (h : decodeChars cs = some bs) :
    cs.length = (8 * bs.length + 5) / 6 := by
  rw [← encodeChars_of_decodeChars h]
  clear h
  fun_induction encodeChars bs with
  | case1 | case2 | case3 => simp
  | case4 x y z bs n ih =>
    simp only [List.length_cons, ih]
    omega

end Base64Url

end Aitp
