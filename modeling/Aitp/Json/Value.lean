import Aitp.Foundation.Hex

/-! # JSON values and their compact text

A value keeps the members of an object in document order, duplicates included.
Integral numbers are integers; any other number is held as the digits printed
for it, so printing a value loses nothing.
-/

namespace Aitp

/-- The characters a JSON number is written with. -/
def isNumeral (c : Char) : Bool :=
  c.isDigit || c == '-' || c == '+' || c == '.' || c == 'e'

/-- A non-integral number, held as its printed digits. -/
structure Fraction where
  digits : List Char
  numeral : ∀ c ∈ digits, isNumeral c = true
  marked : '.' ∈ digits ∨ 'e' ∈ digits
  deriving DecidableEq

/-- JSON values, with object members in document order. -/
inductive Json where
  | null
  | bool (b : Bool)
  | int (z : ℤ)
  | frac (f : Fraction)
  | str (s : String)
  | arr (vs : List Json)
  | obj (ms : List (String × Json))

namespace Json

/-- The members of an object; any other value has none. -/
def members : Json → List (String × Json)
  | obj ms => ms
  | _ => []

/-- Whether the value is an object. -/
def isObject : Json → Bool
  | obj _ => true
  | _ => false

/-- Whether the value is a string. -/
def isString : Json → Bool
  | str _ => true
  | _ => false

/-- `Value::get`: the value of a member of an object. -/
def get (v : Json) (k : String) : Option Json :=
  v.members.lookup k

def asStr : Json → Option String
  | str s => some s
  | _ => none

def asArray : Json → Option (List Json)
  | arr vs => some vs
  | _ => none

theorem isObject_iff {v : Json} : v.isObject = true ↔ ∃ ms, v = obj ms := by
  cases v <;> simp [isObject]

theorem isString_iff {v : Json} : v.isString = true ↔ ∃ s, v = str s := by
  cases v <;> simp [isString]

theorem asStr_eq_some {v : Json} {s : String} : v.asStr = some s ↔ v = str s := by
  cases v <;> simp [asStr]

end Json

/-! ## Text -/

/-- Decimal digits of an integer. -/
def intText : ℤ → List Char
  | .ofNat n => Nat.toDigits 10 n
  | .negSucc n => '-' :: Nat.toDigits 10 (n + 1)

/-- A character inside a string literal, escaped where JSON needs it. -/
def escapeChar (c : Char) : List Char :=
  if c = '"' then ['\\', '"']
  else if c = '\\' then ['\\', '\\']
  else if c = '\x08' then ['\\', 'b']
  else if c = '\t' then ['\\', 't']
  else if c = '\n' then ['\\', 'n']
  else if c = '\x0c' then ['\\', 'f']
  else if c = '\r' then ['\\', 'r']
  else if c.toNat < 32 then
    ['\\', 'u', '0', '0', hexDigit (c.toNat / 16), hexDigit (c.toNat % 16)]
  else [c]

/-- A string literal with its quotes. -/
def strText (s : String) : List Char :=
  '"' :: (s.toList.flatMap escapeChar ++ ['"'])

namespace Json

mutual

/-- The compact text of a value. -/
def text : Json → List Char
  | null => ['n', 'u', 'l', 'l']
  | bool true => ['t', 'r', 'u', 'e']
  | bool false => ['f', 'a', 'l', 's', 'e']
  | int z => intText z
  | frac f => f.digits
  | str s => strText s
  | arr vs => '[' :: (textItems vs ++ [']'])
  | obj ms => '{' :: (textMembers ms ++ ['}'])

/-- The items of an array, separated by commas. -/
def textItems : List Json → List Char
  | [] => []
  | [v] => text v
  | v :: w :: vs => text v ++ ',' :: textItems (w :: vs)

/-- The members of an object, separated by commas. -/
def textMembers : List (String × Json) → List Char
  | [] => []
  | [(k, v)] => strText k ++ ':' :: text v
  | (k, v) :: m :: ms => strText k ++ ':' :: (text v ++ ',' :: textMembers (m :: ms))

end

end Json

end Aitp
