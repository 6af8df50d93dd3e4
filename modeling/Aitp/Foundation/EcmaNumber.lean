import Mathlib.Algebra.Group.Int.Defs
import Mathlib.Algebra.Group.Nat.Defs
import Mathlib.Data.Int.Notation
import Mathlib.Data.Nat.Notation
import Mathlib.Tactic.Common

/-! # Numbers as ECMAScript prints them

`Number.prototype.toString` of a `binary64` number: the shortest decimal that reads as the number,
the nearest one where several are as short, laid out by the size of its exponent.
-/

namespace Ecma

/-! ## Integers -/

/-- The `binary64` number nearest to a natural number, of two the one whose significand is even. -/
def toDouble (n : ℕ) : ℕ :=
  let unit := 2 ^ (n.log2 - 52)
  let q := n / unit
  let r := n % unit
  if 2 * r < unit ∨ 2 * r = unit ∧ q % 2 = 0 then q * unit else (q + 1) * unit

/-- The multiple of `10 ^ j` next to `d` that reads as `d`, the nearer of two. -/
def decimalAt (d j : ℕ) : Option ℕ :=
  let unit := 10 ^ j
  let q := d / unit
  let r := d % unit
  let near := if 2 * r < unit ∨ 2 * r = unit ∧ q % 2 = 0 then q else q + 1
  let far := if near = q then q + 1 else q
  [near * unit, far * unit].find? fun m => toDouble m == d

/-- The shortest decimal that reads as `d`. -/
def shortest (d : ℕ) : ℕ :=
  ((List.range 22).reverse.findSome? (decimalAt d)).getD d

/-- What is printed for a natural number: up to `2 ^ 53` every one is a `binary64` number. -/
def natural (n : ℕ) : ℕ :=
  if n ≤ 2 ^ 53 then n else shortest (toDouble n)

/-- What is printed for an integer. -/
def integer : ℤ → ℤ
  | .ofNat n => natural n
  | .negSucc n => -(natural (n + 1) : ℤ)

theorem natural_of_le {n : ℕ} (h : n ≤ 2 ^ 53) : natural n = n :=
  if_pos h

theorem toDouble_of_lt {n : ℕ} (h : n < 2 ^ 53) : toDouble n = n := by
  have hlog : n.log2 - 52 = 0 := by
    rcases Nat.eq_zero_or_pos n with rfl | hpos
    · rfl
    · have := (Nat.log2_lt (Nat.pos_iff_ne_zero.mp hpos)).mpr h
      omega
  simp [toDouble, hlog, Nat.mod_one]

theorem le_toDouble {n : ℕ} (h : 2 ^ 53 ≤ n) : 2 ^ 53 ≤ toDouble n := by
  have hpos : n ≠ 0 := by omega
  have hlog : 53 ≤ n.log2 := (Nat.le_log2 hpos).mpr h
  have hunit : 2 ^ 53 ≤ n / 2 ^ (n.log2 - 52) * 2 ^ (n.log2 - 52) := by
    have hq : 2 ^ 52 ≤ n / 2 ^ (n.log2 - 52) := by
      rw [Nat.le_div_iff_mul_le (Nat.two_pow_pos _), ← pow_add,
        show 52 + (n.log2 - 52) = n.log2 by omega]
      exact Nat.log2_self_le hpos
    have hu : 2 ^ 1 ≤ 2 ^ (n.log2 - 52) := Nat.pow_le_pow_right (by decide) (by omega)
    exact Nat.mul_le_mul hq hu
  unfold toDouble
  dsimp only
  split
  · exact hunit
  · exact Nat.le_trans hunit (Nat.mul_le_mul_right _ (Nat.le_succ _))

theorem toDouble_of_decimalAt {d j m : ℕ} (h : decimalAt d j = some m) : toDouble m = d :=
  have hread : (toDouble m == d) = true := List.find?_some (p := fun m => toDouble m == d) h
  beq_iff_eq.mp hread

theorem le_natural {n : ℕ} (h : 2 ^ 53 ≤ n) : 2 ^ 53 ≤ natural n := by
  unfold natural
  split_ifs
  · exact h
  · have hd := le_toDouble h
    unfold shortest
    cases hs : (List.range 22).reverse.findSome? (decimalAt (toDouble n)) with
    | none => exact hd
    | some m =>
      obtain ⟨j, -, hj⟩ := List.exists_of_findSome?_eq_some hs
      rw [Option.getD_some]
      by_contra hlt
      have hm := toDouble_of_decimalAt hj
      rw [toDouble_of_lt (Nat.lt_of_not_le hlt)] at hm
      exact hlt (hm ▸ hd)

theorem integer_of_le {z : ℤ} (hl : -(2 ^ 53) ≤ z) (hu : z ≤ 2 ^ 53) : integer z = z := by
  cases z with
  | ofNat n =>
    have hn : n ≤ 2 ^ 53 := by
      rw [Int.ofNat_eq_natCast] at hu
      omega
    simp [integer, natural_of_le hn]
  | negSucc n =>
    have hn : n + 1 ≤ 2 ^ 53 := by omega
    simp only [integer, natural_of_le hn]
    omega

theorem le_integer {z : ℤ} (h : 2 ^ 53 ≤ z) : 2 ^ 53 ≤ integer z := by
  obtain ⟨n, rfl⟩ := Int.eq_ofNat_of_zero_le (Int.le_trans (by decide) h)
  have hn : 2 ^ 53 ≤ n := by omega
  have hle := le_natural hn
  show 2 ^ 53 ≤ (natural n : ℤ)
  omega

theorem integer_le {z : ℤ} (h : z ≤ -(2 ^ 53)) : integer z ≤ -(2 ^ 53) := by
  cases z with
  | ofNat n =>
    rw [Int.ofNat_eq_natCast] at h
    omega
  | negSucc n =>
    have hn : 2 ^ 53 ≤ n + 1 := by omega
    have hle := le_natural hn
    simp only [integer]
    omega

theorem integer_eq_cases {a b : ℤ} (h : integer a = integer b) :
    a = b ∨ 2 ^ 53 ≤ a ∧ 2 ^ 53 ≤ b ∨ a ≤ -(2 ^ 53) ∧ b ≤ -(2 ^ 53) := by
  have hsmall : ∀ {x y : ℤ}, integer x = integer y → -(2 ^ 53) < x → x < 2 ^ 53 → x = y := by
    intro x y hxy hl hu
    have hx := integer_of_le (Int.le_of_lt hl) (Int.le_of_lt hu)
    have hyl : -(2 ^ 53) < y := by
      by_contra hn
      have := integer_le (Int.not_lt.mp hn)
      omega
    have hyu : y < 2 ^ 53 := by
      by_contra hn
      have := le_integer (Int.not_lt.mp hn)
      omega
    rw [← hx, hxy, integer_of_le (Int.le_of_lt hyl) (Int.le_of_lt hyu)]
  have hab := @hsmall a b h
  have hba := @hsmall b a h.symm
  have hla := @le_integer a
  have hlb := @le_integer b
  have hua := @integer_le a
  have hub := @integer_le b
  omega

/-! ## Decimals -/

/-- A decimal number: its sign, its digits and the power of ten they are multiplied by. -/
structure Decimal where
  negative : Bool
  digits : ℕ
  exponent : ℤ

/-- The decimal number a text denotes, with or without a point and an exponent. -/
def decimalOf (cs : List Char) : Decimal :=
  let negative := cs.head? == some '-'
  let unsigned := cs.dropWhile (· == '-')
  let mantissa := unsigned.takeWhile (· != 'e')
  let power := (unsigned.dropWhile (· != 'e')).drop 1
  let whole := mantissa.takeWhile (· != '.')
  let part := (mantissa.dropWhile (· != '.')).drop 1
  let size : ℤ := Nat.ofDigitChars 10 (power.filter Char.isDigit) 0
  { negative := negative
    digits := Nat.ofDigitChars 10 (whole ++ part) 0
    exponent := (if power.head? == some '-' then -size else size) - part.length }

/-- The digits `s`, with the point after the `n`-th of them. -/
def layout (s : List Char) (n : ℤ) : List Char :=
  if s.length ≤ n ∧ n ≤ 21 then s ++ List.replicate (n.toNat - s.length) '0'
  else if 0 < n ∧ n ≤ 21 then s.take n.toNat ++ '.' :: s.drop n.toNat
  else if -6 < n ∧ n ≤ 0 then '0' :: '.' :: (List.replicate (-n).toNat '0' ++ s)
  else
    let power := 'e' :: (if n - 1 < 0 then '-' else '+') :: Nat.toDigits 10 (n - 1).natAbs
    match s with
    | [] => power
    | [d] => d :: power
    | d :: ds => d :: '.' :: (ds ++ power)

/-- What is printed for a decimal number that is the shortest of its value. -/
def Decimal.text (x : Decimal) : List Char :=
  let ds := Nat.toDigits 10 x.digits
  let s := (ds.reverse.dropWhile (· == '0')).reverse
  if x.digits = 0 then ['0']
  else if x.negative then '-' :: layout s (ds.length + x.exponent)
  else layout s (ds.length + x.exponent)

end Ecma
