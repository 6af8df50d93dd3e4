import Aitp.Foundation.IpAddr

/-! # Ranges of addresses

The ranges that the standard library tells apart, and the IPv6 addresses that stand for an IPv4
address: the mapped ones, which the standard library knows, and those that a gateway translates.
-/

namespace Aitp

namespace Ipv4Addr

variable (a : Ipv4Addr)

def octet (i : ℕ) : UInt8 :=
  a.octets.getD i 0

def isUnspecified : Bool :=
  a.octets == [0, 0, 0, 0]

def isBroadcast : Bool :=
  a.octets == [255, 255, 255, 255]

def isMulticast : Bool :=
  decide (224 ≤ a.octet 0 ∧ a.octet 0 ≤ 239)

def isLinkLocal : Bool :=
  a.octet 0 == 169 && a.octet 1 == 254

def isLoopback : Bool :=
  a.octet 0 == 127

def isPrivate : Bool :=
  a.octet 0 == 10 || (a.octet 0 == 172 && decide (16 ≤ a.octet 1 ∧ a.octet 1 ≤ 31)) ||
    (a.octet 0 == 192 && a.octet 1 == 168)

theorem length_octets (ab cd : UInt16) : [UInt8.ofNat (ab.toNat / 256),
    UInt8.ofNat (ab.toNat % 256), UInt8.ofNat (cd.toNat / 256),
    UInt8.ofNat (cd.toNat % 256)].length = 4 := rfl

/-- The address of two groups of an IPv6 address. -/
def ofGroups (ab cd : UInt16) : Ipv4Addr where
  octets := [UInt8.ofNat (ab.toNat / 256), UInt8.ofNat (ab.toNat % 256),
    UInt8.ofNat (cd.toNat / 256), UInt8.ofNat (cd.toNat % 256)]
  length_eq := length_octets ab cd

end Ipv4Addr

namespace Ipv6Addr

variable (a : Ipv6Addr)

def segment (i : ℕ) : UInt16 :=
  a.segments.getD i 0

def toIpv4Mapped : Option Ipv4Addr :=
  match a.segments with
  | [0, 0, 0, 0, 0, 0xffff, ab, cd] => some (.ofGroups ab cd)
  | _ => none

def isUnspecified : Bool :=
  a.segments == [0, 0, 0, 0, 0, 0, 0, 0]

def isLoopback : Bool :=
  a.segments == [0, 0, 0, 0, 0, 0, 0, 1]

def isMulticast : Bool :=
  a.segment 0 &&& 0xff00 == 0xff00

/-- The addresses that a gateway or a host translates to an IPv4 address: the IPv4-compatible ones,
`::/96`, those of NAT64, `64:ff9b::/96`, and those of 6to4, `2002::/16`. -/
inductive Translated : Ipv6Addr → Ipv4Addr → Prop
  | compatible (ab cd : UInt16) : Translated ⟨[0, 0, 0, 0, 0, 0, ab, cd], rfl⟩ (.ofGroups ab cd)
  | nat64 (ab cd : UInt16) :
    Translated ⟨[0x64, 0xff9b, 0, 0, 0, 0, ab, cd], rfl⟩ (.ofGroups ab cd)
  | sixToFour (ab cd s₃ s₄ s₅ s₆ s₇ : UInt16) :
    Translated ⟨[0x2002, ab, cd, s₃, s₄, s₅, s₆, s₇], rfl⟩ (.ofGroups ab cd)

/-- An IPv6 address stands for an IPv4 address. -/
def Embeds (a : Ipv6Addr) (b : Ipv4Addr) : Prop :=
  a.toIpv4Mapped = some b ∨ a.Translated b

end Ipv6Addr

end Aitp
