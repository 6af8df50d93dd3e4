import Aitp.Foundation.BigEndian
import Aitp.Transport.SourceIp

/-! # Trusted proxies

`TrustedProxy` of `transport/source_ip.rs`: an address or a range is read from its text, an
IPv4-mapped one as IPv4, and contains the addresses whose first bits are those of its network.
-/

namespace Aitp

/-! ## Reading a range -/

structure TrustedProxyParseError where
  input : String
  deriving DecidableEq

/-- `Display for TrustedProxyParseError`. -/
def TrustedProxyParseError.display (e : TrustedProxyParseError) : String :=
  "invalid trusted proxy `" ++ e.input ++ "`: expected an IP address or CIDR range"

/-- `FromStr for u8`: a sign may stand in front, and zeros; what exceeds a `u8` is refused. -/
def parseU8 (cs : List Char) : Option ℕ :=
  let digits := if cs.head? = some '+' then cs.tail else cs
  if digits.isEmpty then none
  else digits.foldlM (fun result c => do
    let digit ← IpAddr.toDigit 10 c
    if result * 10 + digit < 256 then some (result * 10 + digit) else none) 0

def IpAddr.isIpv4 : IpAddr → Bool
  | v4 _ => true
  | v6 _ => false

deriving instance DecidableEq for TrustedProxy

/-- `FromStr for TrustedProxy`. -/
def TrustedProxy.fromStr (s : String) : Except TrustedProxyParseError TrustedProxy := do
  let err : TrustedProxyParseError := ⟨s⟩
  let (addr, pre) :=
    match splitOnce '/' s.toList with
    | some (a, p) => (a, some p)
    | none => (s.toList, none)
  let network ← okOr (IpAddr.parse addr) err
  let network := network.toCanonical
  let max := network.bits
  match pre with
  | none => return ⟨network, max, Nat.le_refl _⟩
  | some p =>
    match parseU8 p with
    | some p => if h : p ≤ max then return ⟨network, p, h⟩ else throw err
    | none => throw err

/-! ## What would panic -/

/-- A slice up to an index; one beyond the end panics, which is `none`. -/
def sliceTo (a : List UInt8) (n : ℕ) : Option (List UInt8) :=
  if n ≤ a.length then some (a.take n) else none

/-- A shift of an octet; one by its width or more panics, which is `none`. -/
def shlU8 (b : UInt8) (n : ℕ) : Option UInt8 :=
  if n < 8 then some (b <<< UInt8.ofNat n) else none

/-- `prefix_eq`, with its slices, its indices and its shift where they may panic. -/
def tryPrefixEq (a b : List UInt8) (n : ℕ) : Option Bool := do
  let full := n / 8
  let rem := n % 8
  let fullA ← sliceTo a full
  let fullB ← sliceTo b full
  if fullA != fullB then some false
  else if rem == 0 then some true
  else do
    let mask ← shlU8 0xff (8 - rem)
    let x ← a[full]?
    let y ← b[full]?
    some (x &&& mask == y &&& mask)

/-- `TrustedProxy::contains`, where `prefix_eq` may panic. -/
def TrustedProxy.tryContains (p : TrustedProxy) (ip : IpAddr) : Option Bool :=
  match p.network, ip.toCanonical with
  | .v4 net, .v4 ip => tryPrefixEq net.octets ip.octets p.prefixLen
  | .v6 net, .v6 ip => tryPrefixEq net.octets ip.octets p.prefixLen
  | _, _ => some false

section

variable {a b : List UInt8} {n : ℕ}

theorem tryPrefixEq_eq (hl : a.length = b.length) (hn : n ≤ 8 * a.length) :
    tryPrefixEq a b n = some (prefixEq a b n) := by
  have hfa : n / 8 ≤ a.length := by omega
  have hfb : n / 8 ≤ b.length := hl ▸ hfa
  unfold tryPrefixEq prefixEq
  simp only [sliceTo, hfa, hfb, if_true, Option.bind_eq_bind, Option.bind_some]
  by_cases ht : a.take (n / 8) = b.take (n / 8)
  · by_cases hr : n % 8 = 0
    · simp [ht, hr]
    · have hs : 8 - n % 8 < 8 := by omega
      have hia : n / 8 < a.length := by omega
      have hib : n / 8 < b.length := hl ▸ hia
      simp [ht, hr, shlU8, hs, hia, hib]
  · simp [ht]

/-- A mask of the first `r` bits leaves their number. -/
theorem toNat_and_mask : ∀ r < 8, 0 < r → ∀ x < 256,
    (UInt8.ofNat x &&& (0xff : UInt8) <<< UInt8.ofNat (8 - r)).toNat =
      x / 2 ^ (8 - r) * 2 ^ (8 - r) := by
  decide +kernel

theorem and_mask_eq_iff {r : ℕ} (hr : r < 8) (h0 : 0 < r) (x y : UInt8) :
    x &&& (0xff : UInt8) <<< UInt8.ofNat (8 - r) = y &&& (0xff : UInt8) <<< UInt8.ofNat (8 - r) ↔
      x.toNat / 2 ^ (8 - r) = y.toNat / 2 ^ (8 - r) := by
  have hx := toNat_and_mask r hr h0 x.toNat x.toNat_lt
  have hy := toNat_and_mask r hr h0 y.toNat y.toNat_lt
  rw [UInt8.ofNat_toNat] at hx hy
  rw [← UInt8.toNat_inj, hx, hy]
  exact Nat.mul_right_cancel_iff (Nat.two_pow_pos _)

theorem prefixEq_iff (hl : a.length = b.length) (hn : n ≤ 8 * a.length) :
    prefixEq a b n = true ↔ BigEndian.leading n a = BigEndian.leading n b := by
  have hfull : n / 8 ≤ a.length := by omega
  have hla : (a.take (n / 8)).length = n / 8 := List.length_take_of_le hfull
  have hlb : (b.take (n / 8)).length = n / 8 := List.length_take_of_le (hl ▸ hfull)
  by_cases hr : n % 8 = 0
  · have he : n = 8 * (n / 8) := by omega
    have ha : BigEndian.leading n a = BigEndian.value (a.take (n / 8)) := by
      rw [← BigEndian.leading_take hfull, ← he]
    have hb : BigEndian.leading n b = BigEndian.value (b.take (n / 8)) := by
      rw [← BigEndian.leading_take (hl ▸ hfull), ← he]
    rw [ha, hb, BigEndian.value_inj (hla.trans hlb.symm)]
    simp [prefixEq, hr]
  · have he : n = 8 * (a.take (n / 8)).length + n % 8 := by omega
    have hia : n / 8 < a.length := by omega
    have hib : n / 8 < b.length := hl ▸ hia
    have hr8 : n % 8 ≤ 8 := by omega
    have h := BigEndian.leading_append_cons_inj a[n / 8] b[n / 8] (a.drop (n / 8 + 1))
      (b.drop (n / 8 + 1)) (hla.trans hlb.symm) hr8
    rw [← he, ← List.drop_eq_getElem_cons hia, ← List.drop_eq_getElem_cons hib,
      List.take_append_drop, List.take_append_drop] at h
    rw [h, ← and_mask_eq_iff (by omega) (by omega)]
    simp [prefixEq, hr, hia, hib]

end

/-! ## Ranges as numbers -/

theorem Ipv6Addr.octets_length (a : Ipv6Addr) : a.octets.length = 16 := by
  simp [Ipv6Addr.octets, a.length_eq]

namespace IpAddr

/-- `Ipv4Addr::to_bits` and `Ipv6Addr::to_bits`. -/
def toBits : IpAddr → ℕ
  | v4 addr => BigEndian.value addr.octets
  | v6 addr => BigEndian.value addr.octets

/-- Addresses of one family with the same first `n` bits. -/
def SharesPrefix (n : ℕ) (a b : IpAddr) : Prop :=
  a.isIpv4 = b.isIpv4 ∧ a.toBits / 2 ^ (a.bits - n) = b.toBits / 2 ^ (a.bits - n)

theorem lengths_v4 {n : ℕ} {net : Ipv4Addr} (h : n ≤ (v4 net).bits) (ip : Ipv4Addr) :
    net.octets.length = ip.octets.length ∧ n ≤ 8 * net.octets.length := by
  rw [net.length_eq, ip.length_eq]
  exact ⟨rfl, h⟩

theorem lengths_v6 {n : ℕ} {net : Ipv6Addr} (h : n ≤ (v6 net).bits) (ip : Ipv6Addr) :
    net.octets.length = ip.octets.length ∧ n ≤ 8 * net.octets.length := by
  rw [net.octets_length, ip.octets_length]
  exact ⟨rfl, h⟩

theorem toCanonical_cases (a : IpAddr) : a.toCanonical = a ∨ ∃ addr, a.toCanonical = v4 addr := by
  cases a with
  | v4 addr => exact .inl rfl
  | v6 addr =>
    simp only [toCanonical]
    split
    next => exact .inr ⟨_, rfl⟩
    next => exact .inl rfl

theorem toCanonical_toCanonical (a : IpAddr) : a.toCanonical.toCanonical = a.toCanonical := by
  rcases toCanonical_cases a with h | ⟨addr, h⟩
  · rw [h, h]
  · rw [h]
    rfl

end IpAddr

namespace TrustedProxy

variable {s : String} {p : TrustedProxy}

theorem tryContains_eq (p : TrustedProxy) (ip : IpAddr) :
    p.tryContains ip = some (p.contains ip) := by
  have hle := p.prefixLen_le
  unfold tryContains contains
  cases hn : p.network with
  | v4 net =>
    rw [hn] at hle
    cases ip.toCanonical with
    | v4 ip =>
      obtain ⟨hl, hb⟩ := IpAddr.lengths_v4 hle ip
      exact tryPrefixEq_eq hl hb
    | v6 ip => rfl
  | v6 net =>
    rw [hn] at hle
    cases ip.toCanonical with
    | v4 ip => rfl
    | v6 ip =>
      obtain ⟨hl, hb⟩ := IpAddr.lengths_v6 hle ip
      exact tryPrefixEq_eq hl hb

theorem contains_iff (p : TrustedProxy) (ip : IpAddr) :
    p.contains ip = true ↔ p.network.SharesPrefix p.prefixLen ip.toCanonical := by
  have hle := p.prefixLen_le
  unfold contains IpAddr.SharesPrefix
  cases hn : p.network with
  | v4 net =>
    rw [hn] at hle
    cases ip.toCanonical with
    | v4 ip =>
      obtain ⟨hl, hb⟩ := IpAddr.lengths_v4 hle ip
      simp only [prefixEq_iff hl hb, BigEndian.leading, net.length_eq, ip.length_eq]
      exact (and_iff_right rfl).symm
    | v6 ip => simp [IpAddr.isIpv4]
  | v6 net =>
    rw [hn] at hle
    cases ip.toCanonical with
    | v4 ip => simp [IpAddr.isIpv4]
    | v6 ip =>
      obtain ⟨hl, hb⟩ := IpAddr.lengths_v6 hle ip
      simp only [prefixEq_iff hl hb, BigEndian.leading, net.octets_length, ip.octets_length]
      exact (and_iff_right rfl).symm

theorem parseU8_toDigits : ∀ n < 256, parseU8 (Nat.toDigits 10 n) = some n := by
  decide +kernel

/-- What is read is the address before the first slash, folded, with the bits after it or all. -/
theorem fromStr_eq_ok (h : fromStr s = .ok p) :
    ∃ addr, IpAddr.parse (((splitOnce '/' s.toList).map Prod.fst).getD s.toList) = some addr ∧
      p.network = addr.toCanonical ∧
      ((splitOnce '/' s.toList).map Prod.snd).elim (some p.network.bits) parseU8 =
        some p.prefixLen := by
  unfold fromStr at h
  cases hs : splitOnce '/' s.toList with
  | none =>
    simp only [hs, bind_eq_ok, okOr_eq_ok, pure_eq_ok] at h
    obtain ⟨addr, ha, rfl⟩ := h
    exact ⟨addr, ha, rfl, rfl⟩
  | some parts =>
    simp only [hs, bind_eq_ok, okOr_eq_ok] at h
    obtain ⟨addr, ha, h⟩ := h
    cases hp : parseU8 parts.2 with
    | none => simp [hp] at h
    | some n =>
      simp only [hp] at h
      split_ifs at h
      rw [← pure_eq_ok.mp h]
      exact ⟨addr, ha, rfl, hp⟩

theorem fromStr_of_parse {cs : List Char} {addr : IpAddr} {n : ℕ}
    (ha : IpAddr.parse cs = some addr) (hs : '/' ∉ cs) (hn : n ≤ addr.toCanonical.bits) :
    fromStr (String.ofList (cs ++ '/' :: Nat.toDigits 10 n)) = .ok ⟨addr.toCanonical, n, hn⟩ := by
  have hw : addr.toCanonical.bits ≤ 128 := by
    cases addr.toCanonical <;> simp [IpAddr.bits]
  have hd := parseU8_toDigits n (by omega)
  simp only [fromStr, String.toList_ofList, splitOnce_append hs, ha, okOr_some, ok_bind, hd, hn,
    dif_pos]
  rfl

theorem failsIn_fromStr (s : String) :
    FailsIn (fun e : TrustedProxyParseError => e.display = "invalid trusted proxy `" ++ s ++
      "`: expected an IP address or CIDR range") (fromStr s) := by
  have refused : FailsIn (fun e : TrustedProxyParseError => e.display =
      "invalid trusted proxy `" ++ s ++ "`: expected an IP address or CIDR range")
      (.error ⟨s⟩ : Except TrustedProxyParseError TrustedProxy) := by
    rintro e ⟨⟩
    rfl
  unfold fromStr
  apply FailsIn.bind
  · exact FailsIn.okOr rfl
  · intro addr _
    dsimp only
    split
    · exact FailsIn.pure _
    · split
      · split_ifs
        · exact FailsIn.pure _
        · exact refused
      · exact refused

/-- A range that was read contains exactly the addresses that share the first bits of its network,
and no comparison panics. -/
theorem contains_of_fromStr (h : fromStr s = .ok p) (ip : IpAddr) :
    p.network.toCanonical = p.network ∧ p.tryContains ip = some (p.contains ip) ∧
      (p.contains ip = true ↔ p.network.isIpv4 = ip.toCanonical.isIpv4 ∧
        p.network.toBits / 2 ^ (p.network.bits - p.prefixLen) =
          ip.toCanonical.toBits / 2 ^ (p.network.bits - p.prefixLen)) := by
  obtain ⟨addr, -, hn, -⟩ := fromStr_eq_ok h
  refine ⟨?_, tryContains_eq p ip, contains_iff p ip⟩
  rw [hn]
  exact addr.toCanonical_toCanonical

/-- A mapped range of IPv4 and a mapped address in it. -/
theorem contains_of_fromStr_mapped :
    ∃ p, fromStr "::ffff:10.96.0.0/+011" = .ok p ∧ p.tryContains
      (.v6 ⟨[0, 0, 0, 0, 0, 0xffff, 0x0a7f, 0x0102], rfl⟩) = some true := by
  let p : TrustedProxy := ⟨.v4 ⟨[10, 96, 0, 0], rfl⟩, 11, by decide⟩
  have hp : fromStr "::ffff:10.96.0.0/+011" = .ok p := by decide +kernel
  obtain ⟨-, ht, hc⟩ := contains_of_fromStr hp (.v6 ⟨[0, 0, 0, 0, 0, 0xffff, 0x0a7f, 0x0102], rfl⟩)
  refine ⟨p, hp, ht.trans (congrArg some (hc.mpr ?_))⟩
  decide +kernel

end TrustedProxy

theorem isTrusted_iff {trustedProxies : List TrustedProxy} {ip : IpAddr} :
    isTrusted trustedProxies ip = true ↔
      ∃ p ∈ trustedProxies, p.network.SharesPrefix p.prefixLen ip.toCanonical := by
  simp only [isTrusted, List.any_eq_true, TrustedProxy.contains_iff]

end Aitp
