import Mathlib.Algebra.Group.Nat.Defs
import Mathlib.Data.List.Basic
import Mathlib.Data.Nat.Notation
import Mathlib.Tactic.Common

/-! # Internet addresses

The standard library's addresses and their textual forms, as its parser reads them: a
reader takes what it can from the front of a text.
-/

namespace Aitp

/-- An IPv4 address. -/
structure Ipv4Addr where
  octets : List UInt8
  length_eq : octets.length = 4
  deriving DecidableEq

/-- An IPv6 address. -/
structure Ipv6Addr where
  segments : List UInt16
  length_eq : segments.length = 8
  deriving DecidableEq

inductive IpAddr where
  | v4 (addr : Ipv4Addr)
  | v6 (addr : Ipv6Addr)
  deriving DecidableEq

def Ipv6Addr.octets (a : Ipv6Addr) : List UInt8 :=
  a.segments.flatMap fun s => [UInt8.ofNat (s.toNat / 256), UInt8.ofNat (s.toNat % 256)]

/-- `IpAddr::to_canonical`: an IPv4-mapped IPv6 address is an IPv4 address. -/
def IpAddr.toCanonical : IpAddr → IpAddr
  | v4 addr => v4 addr
  | v6 addr =>
    match addr.segments with
    | [0, 0, 0, 0, 0, 0xffff, ab, cd] =>
      v4 ⟨[UInt8.ofNat (ab.toNat / 256), UInt8.ofNat (ab.toNat % 256),
        UInt8.ofNat (cd.toNat / 256), UInt8.ofNat (cd.toNat % 256)], rfl⟩
    | _ => v6 addr

/-! ## Reading addresses -/

namespace IpAddr

def toDigit (radix : ℕ) (c : Char) : Option ℕ :=
  let n := c.toNat
  let digit :=
    if 0x30 ≤ n ∧ n ≤ 0x39 then n - 0x30
    else if 0x61 ≤ n ∧ n ≤ 0x66 then n - 0x61 + 10
    else if 0x41 ≤ n ∧ n ≤ 0x46 then n - 0x41 + 10
    else radix
  if digit < radix then some digit else none

def readGivenChar (c : Char) : List Char → Option (List Char)
  | [] => none
  | d :: cs => if d = c then some cs else none

/-- `Parser::read_separator`: every reading but the first comes after a separator. -/
def readSeparator {α : Type} (sep : Char) (index : ℕ) (inner : List Char → Option (α × List Char))
    (cs : List Char) : Option (α × List Char) :=
  if index = 0 then inner cs else (readGivenChar sep cs).bind inner

/-- `Parser::read_number`, below a bound. -/
def readNumber (radix : ℕ) (maxDigits : Option ℕ) (allowZeroPrefix : Bool) (bound : ℕ)
    (cs : List Char) : Option (ℕ × List Char) :=
  let digits := (cs.takeWhile fun c => (toDigit radix c).isSome).filterMap (toDigit radix)
  let value := digits.foldl (fun result digit => result * radix + digit) 0
  if digits = [] ∨ maxDigits.any (· < digits.length) ∨
      (¬allowZeroPrefix ∧ cs.head? = some '0' ∧ 1 < digits.length) ∨ bound ≤ value then none
  else some (value, cs.drop digits.length)

/-- An octet of a dotted quad. -/
def readOctet (index : ℕ) (cs : List Char) : Option (UInt8 × List Char) :=
  (readSeparator '.' index (readNumber 10 (some 3) false 256) cs).map fun r =>
    (UInt8.ofNat r.1, r.2)

def readIpv4Addr (cs : List Char) : Option (Ipv4Addr × List Char) := do
  let (a, cs) ← readOctet 0 cs
  let (b, cs) ← readOctet 1 cs
  let (c, cs) ← readOctet 2 cs
  let (d, cs) ← readOctet 3 cs
  return (⟨[a, b, c, d], rfl⟩, cs)

/-- The two groups that a dotted quad fills. -/
def quadGroups (addr : Ipv4Addr) : List UInt16 :=
  match addr.octets with
  | [a, b, c, d] =>
    [UInt16.ofNat (a.toNat * 256 + b.toNat), UInt16.ofNat (c.toNat * 256 + d.toNat)]
  | _ => []

/-- `read_groups`: at most the given number of groups from an index on, whether the last two are a
dotted quad, and the rest of the text. -/
def readGroups : ℕ → ℕ → List Char → List UInt16 × Bool × List Char
  | 0, _, cs => ([], false, cs)
  | n + 1, i, cs =>
    match if 0 < n then readSeparator ':' i readIpv4Addr cs else none with
    | some (quad, cs) => (quadGroups quad, true, cs)
    | none =>
      match readSeparator ':' i (readNumber 16 (some 4) true 65536) cs with
      | some (group, cs) =>
        let r := readGroups n (i + 1) cs
        (UInt16.ofNat group :: r.1, r.2)
      | none => ([], false, cs)

theorem length_quadGroups_le (addr : Ipv4Addr) : (quadGroups addr).length ≤ 2 := by
  unfold quadGroups
  split <;> simp

theorem length_readGroups_le (n i : ℕ) (cs : List Char) : (readGroups n i cs).1.length ≤ n := by
  induction n generalizing i cs with
  | zero => exact Nat.le_refl _
  | succ n ih =>
    unfold readGroups
    split
    next quad rest hq =>
      split_ifs at hq with hn
      have hl := length_quadGroups_le quad
      simp only
      omega
    next =>
      split
      next => exact Nat.succ_le_succ (ih _ _)
      next => exact Nat.zero_le _

/-- The groups around `::`, which stands for the zeros that are missing. -/
def expand (head tail : List UInt16) (h : head.length + tail.length ≤ 8) : Ipv6Addr where
  segments := head ++ List.replicate (8 - head.length - tail.length) 0 ++ tail
  length_eq := by
    simp only [List.length_append, List.length_replicate]
    omega

/-- `Parser::read_ipv6_addr`: eight groups, or fewer around `::`. -/
def readIpv6Addr (cs : List Char) : Option (Ipv6Addr × List Char) :=
  let head := readGroups 8 0 cs
  if h : head.1.length = 8 then some (⟨head.1, h⟩, head.2.2)
  else if head.2.1 then none
  else
    ((readGivenChar ':' head.2.2).bind (readGivenChar ':')).map fun rest =>
      let tail := readGroups (8 - (head.1.length + 1)) 0 rest
      have hh : head.1.length ≤ 8 := length_readGroups_le 8 0 cs
      have ht : tail.1.length ≤ 8 - (head.1.length + 1) := length_readGroups_le _ 0 rest
      (expand head.1 tail.1 (by omega), tail.2.2)

/-- `Parser::parse_with`: the reading of a whole text. -/
def parseWith {α : Type} (read : List Char → Option (α × List Char)) (cs : List Char) : Option α :=
  match read cs with
  | some (a, []) => some a
  | _ => none

def readIpAddr (cs : List Char) : Option (IpAddr × List Char) :=
  match readIpv4Addr cs with
  | some (addr, cs) => some (v4 addr, cs)
  | none => (readIpv6Addr cs).map fun r => (v6 r.1, r.2)

def readPort (cs : List Char) : Option (ℕ × List Char) :=
  (readGivenChar ':' cs).bind (readNumber 10 none true 65536)

def readScopeId (cs : List Char) : Option (ℕ × List Char) :=
  (readGivenChar '%' cs).bind (readNumber 10 none true (2 ^ 32))

/-- `Parser::read_socket_addr_v6`, less the scope and the port. -/
def readSocketAddrV6 (cs : List Char) : Option (Ipv6Addr × List Char) := do
  let cs ← readGivenChar '[' cs
  let (addr, cs) ← readIpv6Addr cs
  let cs := ((readScopeId cs).map Prod.snd).getD cs
  let cs ← readGivenChar ']' cs
  let (_, cs) ← readPort cs
  return (addr, cs)

/-- `Parser::read_socket_addr`, less the port. -/
def readSocketAddr (cs : List Char) : Option (IpAddr × List Char) :=
  match do
    let (addr, cs) ← readIpv4Addr cs
    let (_, cs) ← readPort cs
    return (v4 addr, cs) with
  | some r => some r
  | none => (readSocketAddrV6 cs).map fun r => (v6 r.1, r.2)

end IpAddr

/-- `FromStr for IpAddr`. -/
def IpAddr.parse : List Char → Option IpAddr :=
  parseWith readIpAddr

/-- `FromStr for Ipv6Addr`. -/
def Ipv6Addr.parse : List Char → Option Ipv6Addr :=
  IpAddr.parseWith IpAddr.readIpv6Addr

/-- The address of a `SocketAddr`, from its text. -/
def socketAddrIp : List Char → Option IpAddr :=
  IpAddr.parseWith IpAddr.readSocketAddr

end Aitp
