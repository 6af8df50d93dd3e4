import Aitp.Foundation.IpRanges
import Aitp.Foundation.Result

/-! # The guard on fetched hosts

`transport/net_guard.rs`: the addresses that the host of a peer's URL resolves to are classified
before one of them is connected to, and one that is refused refuses them all. Of the IPv6
addresses that stand for an IPv4 address only the mapped ones are classified as that address.
-/

namespace Aitp

inductive GuardMode where
  | warnPrivate
  | denyPrivate
  | allowAll
  deriving DecidableEq

structure HostGuard where
  mode : GuardMode
  allowLoopback : Bool

/-- `Host` of a URL. -/
inductive UrlHost where
  | ipv4 (ip : Ipv4Addr)
  | ipv6 (ip : Ipv6Addr)
  | domain (name : String)
  deriving DecidableEq

/-- What the guard reads of a URL: its host, and its port or that of its scheme. -/
structure GuardedUrl where
  host : Option UrlHost
  portOrKnownDefault : Option ℕ

structure SocketAddr where
  ip : IpAddr
  port : ℕ
  deriving DecidableEq

/-- `HostGuardError`; a host is kept for its text. -/
inductive HostGuardError where
  | missingHost
  | forbiddenAddress (host : UrlHost) (addr : IpAddr) (cls : String)
  | resolution (host : UrlHost) (message : String)
  | noAddresses (host : UrlHost)
  deriving DecidableEq

inductive AddrClass where
  | pub
  | forbidden (cls : String)
  | priv (cls : String)
  deriving DecidableEq

def isCgnat (ip : Ipv4Addr) : Bool :=
  ip.octet 0 == 100 && (ip.octet 1 &&& 0b11000000) == 0b01000000

def classifyV4 (ip : Ipv4Addr) : AddrClass :=
  if ip.isUnspecified then .forbidden "unspecified"
  else if ip.isBroadcast then .forbidden "broadcast"
  else if ip.isMulticast then .forbidden "multicast"
  else if ip.isLinkLocal then .forbidden "link-local"
  else if ip.isLoopback then .priv "loopback"
  else if ip.isPrivate then .priv "rfc1918"
  else if isCgnat ip then .priv "cgnat"
  else .pub

def classifyV6 (ip : Ipv6Addr) : AddrClass :=
  match ip.toIpv4Mapped with
  | some mapped => classifyV4 mapped
  | none =>
    if ip.isUnspecified then .forbidden "unspecified"
    else if ip.isMulticast then .forbidden "multicast"
    else if ip.segment 0 &&& 0xffc0 == 0xfe80 then .forbidden "link-local"
    else if ip.isLoopback then .priv "loopback"
    else if ip.segment 0 &&& 0xfe00 == 0xfc00 then .priv "unique-local"
    else .pub

def classify : IpAddr → AddrClass
  | .v4 v4 => classifyV4 v4
  | .v6 v6 => classifyV6 v6

section

variable (lookupHost : String → ℕ → Except String (List SocketAddr))

/-- The addresses of a URL's host. -/
def resolveHost (url : GuardedUrl) : Except HostGuardError (UrlHost × List SocketAddr) := do
  let host ← okOr url.host .missingHost
  let port := url.portOrKnownDefault.getD 443
  let addrs ← match host with
    | .ipv4 ip => .ok [⟨.v4 ip, port⟩]
    | .ipv6 ip => .ok [⟨.v6 ip, port⟩]
    | .domain domain => mapErr (.resolution host) (lookupHost domain port)
  ensure (!addrs.isEmpty) (.noAddresses host)
  return (host, addrs)

/-- One turn of the loop of `resolve_checked_with`. -/
def HostGuard.checkAddr (mode : GuardMode) (allowLoopback : Bool) (host : UrlHost)
    (sa : SocketAddr) : Except HostGuardError Unit :=
  match classify sa.ip with
  | .pub => .ok ()
  | .forbidden cls => .error (.forbiddenAddress host sa.ip cls)
  | .priv cls =>
    if cls == "loopback" && allowLoopback then .ok ()
    else
      match mode with
      | .denyPrivate => .error (.forbiddenAddress host sa.ip cls)
      | .warnPrivate => .ok ()
      | .allowAll => .ok ()

def HostGuard.resolveCheckedWith (guard : HostGuard) (url : GuardedUrl) (allowLoopback : Bool) :
    Except HostGuardError (List SocketAddr) := do
  let allowLoopback := allowLoopback || guard.allowLoopback
  let (host, addrs) ← resolveHost lookupHost url
  if guard.mode = .allowAll then return addrs
  forEach addrs (HostGuard.checkAddr guard.mode allowLoopback host)
  return addrs

end

/-- The classes of addresses that a mode lets through. -/
def GuardMode.admits : GuardMode → AddrClass → Bool
  | allowAll, _ => true
  | _, .pub => true
  | warnPrivate, .priv _ => true
  | _, _ => false

/-- What is promised of the addresses that are let through: they are of the classes of the mode,
and so is the IPv4 address that one of them stands for. -/
structure Guarded (mode : GuardMode) (addrs : List SocketAddr) : Prop where
  denied : mode = .denyPrivate → ∀ sa ∈ addrs, classify sa.ip = .pub
  warned : mode = .warnPrivate → ∀ sa ∈ addrs, ∀ cls, classify sa.ip ≠ .forbidden cls
  embedded : ∀ sa ∈ addrs, ∀ a b, sa.ip = .v6 a → a.Embeds b →
    mode.admits (classify (.v4 b)) = true

/-- No address is one that is translated to an IPv4 address that the mode refuses. -/
def Undisguised (mode : GuardMode) (addrs : List SocketAddr) : Prop :=
  ∀ sa ∈ addrs, ∀ a b, sa.ip = .v6 a → a.Translated b → mode.admits (classify (.v4 b)) = true

variable {lookupHost : String → ℕ → Except String (List SocketAddr)} {mode : GuardMode}
  {url : GuardedUrl} {addrs : List SocketAddr} {host : UrlHost} {sa : SocketAddr}

theorem checkAddr_eq_ok (hm : mode ≠ .allowAll) :
    HostGuard.checkAddr mode false host sa = .ok () ↔ mode.admits (classify sa.ip) = true := by
  unfold HostGuard.checkAddr
  cases classify sa.ip with
  | pub => cases mode <;> simp [GuardMode.admits]
  | forbidden cls => cases mode <;> simp_all [GuardMode.admits]
  | priv cls => cases mode <;> simp_all [GuardMode.admits]

/-- Without a loopback allowance, what is returned is what the host resolves to, when the mode
lets each address of it through. -/
theorem resolveCheckedWith_eq_ok :
    (HostGuard.mk mode false).resolveCheckedWith lookupHost url false = .ok addrs ↔
      ∃ host, resolveHost lookupHost url = .ok (host, addrs) ∧
        ∀ sa ∈ addrs, mode.admits (classify sa.ip) = true := by
  by_cases hm : mode = .allowAll
  · simp only [HostGuard.resolveCheckedWith, hm, bind_eq_ok, if_true, pure_eq_ok, Prod.exists,
      GuardMode.admits, implies_true, and_true]
    constructor
    · rintro ⟨host, addrs, hr, rfl⟩
      exact ⟨host, hr⟩
    · rintro ⟨host, hr⟩
      exact ⟨host, addrs, hr, rfl⟩
  · simp only [HostGuard.resolveCheckedWith, bind_eq_ok, if_neg hm, forEach_eq_ok, pure_eq_ok,
      Bool.or_self, checkAddr_eq_ok hm, Prod.exists, exists_const]
    constructor
    · rintro ⟨host, addrs, hr, hc, rfl⟩
      exact ⟨host, hr, hc⟩
    · rintro ⟨host, hr, hc⟩
      exact ⟨host, addrs, hr, hc, rfl⟩

theorem classifyV6_of_mapped {a : Ipv6Addr} {b : Ipv4Addr} (h : a.toIpv4Mapped = some b) :
    classifyV6 a = classifyV4 b := by
  rw [classifyV6, h]

/-- The class of an address whose first group is not zero is that of the group. -/
theorem classifyV6_of_head_ne {s : UInt16} {rest : List UInt16} {hl : (s :: rest).length = 8}
    (hs : s ≠ 0) : classifyV6 ⟨s :: rest, hl⟩ =
      if s &&& 0xff00 == 0xff00 then .forbidden "multicast"
      else if s &&& 0xffc0 == 0xfe80 then .forbidden "link-local"
      else if s &&& 0xfe00 == 0xfc00 then .priv "unique-local"
      else .pub := by
  have hm : Ipv6Addr.toIpv4Mapped ⟨s :: rest, hl⟩ = none := by
    unfold Ipv6Addr.toIpv4Mapped
    split
    · next h => exact absurd (List.cons.inj h).1 hs
    · rfl
  simp [classifyV6, hm, Ipv6Addr.isUnspecified, Ipv6Addr.isMulticast, Ipv6Addr.isLoopback,
    Ipv6Addr.segment, hs]

/-- A translated address is let through as a public one, but for the unspecified address and the
loopback address. -/
theorem classifyV6_of_translated {a : Ipv6Addr} {b : Ipv4Addr} (h : a.Translated b) :
    classifyV6 a = .pub ∨ a.isUnspecified = true ∨ a.isLoopback = true := by
  cases h with
  | compatible ab cd =>
    by_cases hu : ab = 0 ∧ cd = 0
    · simp [Ipv6Addr.isUnspecified, hu]
    · by_cases hl : ab = 0 ∧ cd = 1
      · simp [Ipv6Addr.isLoopback, hl]
      · simp [classifyV6, Ipv6Addr.toIpv4Mapped, Ipv6Addr.isUnspecified, Ipv6Addr.isMulticast,
          Ipv6Addr.isLoopback, Ipv6Addr.segment, hu, hl]
  | nat64 ab cd =>
    left
    rw [classifyV6_of_head_ne (by decide)]
    decide
  | sixToFour ab cd s₃ s₄ s₅ s₆ s₇ =>
    left
    rw [classifyV6_of_head_ne (by decide)]
    decide

theorem guarded_iff (h : ∀ sa ∈ addrs, mode.admits (classify sa.ip) = true) :
    Guarded mode addrs ↔ Undisguised mode addrs := by
  constructor
  · intro hg sa hsa a b ha hb
    exact hg.embedded sa hsa a b ha (.inr hb)
  · intro hu
    refine ⟨?_, ?_, ?_⟩
    · rintro rfl sa hsa
      have hc := h sa hsa
      cases hcls : classify sa.ip with
      | pub => rfl
      | _ => simp [hcls, GuardMode.admits] at hc
    · rintro rfl sa hsa cls hcls
      have hc := h sa hsa
      simp [hcls, GuardMode.admits] at hc
    · rintro sa hsa a b ha (hb | hb)
      · have hc := h sa hsa
        rw [ha] at hc
        rw [classify, ← classifyV6_of_mapped hb]
        exact hc
      · exact hu sa hsa a b ha hb

/-- What the guard returns is guarded exactly when the host does not resolve to addresses that the
mode lets through with one among them that is translated to an address it refuses. -/
theorem resolveCheckedWith_guarded_iff (mode : GuardMode)
    (lookupHost : String → ℕ → Except String (List SocketAddr)) (url : GuardedUrl) :
    (∀ addrs, (HostGuard.mk mode false).resolveCheckedWith lookupHost url false = .ok addrs →
      Guarded mode addrs) ↔
      ∀ host addrs, resolveHost lookupHost url = .ok (host, addrs) →
        (∀ sa ∈ addrs, mode.admits (classify sa.ip) = true) → Undisguised mode addrs := by
  constructor
  · intro h host addrs hr hc
    exact (guarded_iff hc).mp (h addrs (resolveCheckedWith_eq_ok.mpr ⟨host, hr, hc⟩))
  · intro h addrs hok
    obtain ⟨host, hr, hc⟩ := resolveCheckedWith_eq_ok.mp hok
    exact (guarded_iff hc).mpr (h host addrs hr hc)

/-- The cloud metadata address is let through behind a NAT64 prefix. -/
theorem resolveCheckedWith_metadata : ¬∀ (mode : GuardMode)
    (lookupHost : String → ℕ → Except String (List SocketAddr)) (url : GuardedUrl)
    (addrs : List SocketAddr),
    (HostGuard.mk mode false).resolveCheckedWith lookupHost url false = .ok addrs →
      Guarded mode addrs := by
  intro h
  have hg := h .denyPrivate (fun _ _ => .ok [])
    ⟨some (.ipv6 ⟨[0x64, 0xff9b, 0, 0, 0, 0, 0xa9fe, 0xa9fe], rfl⟩), some 443⟩ _ rfl
  have hb := hg.embedded _ List.mem_cons_self _ _ rfl (.inr (.nat64 0xa9fe 0xa9fe))
  exact absurd hb (by decide)

end Aitp
