import Aitp.Foundation.Bytes
import Aitp.Foundation.IpAddr
import Aitp.Manifest.Verifier

/-! # The client address behind a proxy

`transport/source_ip.rs`: the client is the rightmost forwarded hop that is not a trusted
proxy. Header lines whose bytes are not visible ASCII are skipped whole.
-/

namespace Aitp

/-! ## Resolution -/

/-- The bits of an address. -/
def IpAddr.bits : IpAddr → ℕ
  | v4 _ => 32
  | v6 _ => 128

structure TrustedProxy where
  network : IpAddr
  prefixLen : ℕ
  prefixLen_le : prefixLen ≤ network.bits

def prefixEq (a b : List UInt8) (n : ℕ) : Bool :=
  let full := n / 8
  let rem := n % 8
  a.take full == b.take full &&
    (rem == 0 ||
      let mask : UInt8 := 0xff <<< UInt8.ofNat (8 - rem)
      a.getD full 0 &&& mask == b.getD full 0 &&& mask)

def TrustedProxy.contains (p : TrustedProxy) (ip : IpAddr) : Bool :=
  match p.network, ip.toCanonical with
  | .v4 net, .v4 ip => prefixEq net.octets ip.octets p.prefixLen
  | .v6 net, .v6 ip => prefixEq net.octets ip.octets p.prefixLen
  | _, _ => false

/-- The forwarding headers of a request: the values of `X-Forwarded-For` and of `X-Real-IP`, line
by line. -/
structure ForwardingHeaders where
  forwardedFor : List Bytes
  realIp : List Bytes

def isVisibleAscii (b : UInt8) : Bool :=
  decide (32 ≤ b.toNat ∧ b.toNat < 127) || b == 9

/-- The characters of ASCII bytes. -/
def asciiChars (v : Bytes) : List Char :=
  v.map fun b => Char.ofNat b.toNat

/-- `HeaderValue::to_str`. -/
def headerToStr (v : Bytes) : Option (List Char) :=
  if v.all isVisibleAscii then some (asciiChars v) else none

def trim (cs : List Char) : List Char :=
  ((cs.dropWhile isWhitespace).reverse.dropWhile isWhitespace).reverse

def parseHop (hop : List Char) : Option IpAddr :=
  match IpAddr.parse hop with
  | some ip => some ip
  | none =>
    match socketAddrIp hop with
    | some ip => some ip
    | none =>
      match hop with
      | '[' :: cs => if cs.getLast? = some ']' then (Ipv6Addr.parse cs.dropLast).map .v6 else none
      | _ => none

/-- The hops of one line. -/
def hopsOf (line : List Char) : List (List Char) :=
  ((line.splitOn ',').map trim).filter fun hop => !hop.isEmpty

/-- The hops of every line that is text. -/
def hops (lines : List Bytes) : List (List Char) :=
  (lines.filterMap headerToStr).flatMap hopsOf

section

variable (trusted : IpAddr → Bool)

/-- The walk over the hops, from the last one on. -/
def walkHops (source : IpAddr) : List (List Char) → IpAddr
  | [] => source
  | hop :: rest =>
    match parseHop hop with
    | some ip => if trusted ip then walkHops ip rest else ip
    | none => source

end

/-- Whether an address is one of the trusted proxies. -/
def isTrusted (trustedProxies : List TrustedProxy) (ip : IpAddr) : Bool :=
  trustedProxies.any fun p => p.contains ip

def resolveSourceIp (peer : IpAddr) (headers : ForwardingHeaders)
    (trustedProxies : List TrustedProxy) : IpAddr :=
  if !isTrusted trustedProxies peer then peer
  else
    let xff := hops headers.forwardedFor
    if !xff.isEmpty then walkHops (isTrusted trustedProxies) peer xff.reverse
    else
      ((headers.realIp.head?.bind headerToStr).bind fun v => parseHop (trim v)).getD peer

/-! ## Walks -/

/-- The walk ends at a hop that is no address of a trusted proxy. -/
def EndsWalk (trusted : IpAddr → Bool) (hop : List Char) : Prop :=
  ∀ ip, parseHop hop = some ip → trusted ip = false

section

variable {trusted : IpAddr → Bool} {source : IpAddr} {near far : List (List Char)}

theorem walkHops_append_of_endsWalk (h : ∃ hop ∈ near, EndsWalk trusted hop) :
    walkHops trusted source (near ++ far) = walkHops trusted source near := by
  induction near generalizing source with
  | nil =>
    obtain ⟨hop, hm, -⟩ := h
    exact absurd hm List.not_mem_nil
  | cons hop near ih =>
    simp only [List.cons_append, walkHops]
    split
    next ip hp =>
      split_ifs with ht
      · apply ih
        obtain ⟨stop, hm, he⟩ := h
        rcases List.mem_cons.mp hm with rfl | hm
        · rw [he ip hp] at ht
          exact absurd ht (by decide)
        · exact ⟨stop, hm, he⟩
      · rfl
    next => rfl

theorem walkHops_append_of_trusted (h : ∀ hop ∈ near, ¬EndsWalk trusted hop) :
    walkHops trusted source (near ++ far) =
      walkHops trusted (walkHops trusted source near) far := by
  induction near generalizing source with
  | nil => rfl
  | cons hop near ih =>
    have hop_trusted : ∃ ip, parseHop hop = some ip ∧ trusted ip = true := by
      have he := h hop (List.mem_cons_self ..)
      simp only [EndsWalk, not_forall, Bool.not_eq_false] at he
      obtain ⟨ip, hp, ht⟩ := he
      exact ⟨ip, hp, ht⟩
    obtain ⟨ip, hp, ht⟩ := hop_trusted
    simp only [List.cons_append, walkHops, hp, ht, if_true]
    apply ih
    intro hop' hm
    exact h hop' (List.mem_cons_of_mem _ hm)

theorem walkHops_singleton {hop : List Char} {ip : IpAddr} (h : parseHop hop = some ip) :
    walkHops trusted source [hop] = ip := by
  simp only [walkHops, h]
  split_ifs <;> rfl

end

/-! ## What the client writes and what the proxies write -/

/-- The part of `X-Forwarded-For` that the trusted proxies wrote: the end of one line, and the
lines after it. -/
structure ProxyPart where
  line : Bytes
  later : List Bytes

/-- What a client wrote: the lines before, what stands before a comma on the same line, and
`X-Real-IP`. -/
structure ClientPart where
  earlier : List Bytes
  before : Option Bytes
  realIp : List Bytes

/-- The line that both parts share. -/
def ProxyPart.sharedLine (t : ProxyPart) : Option Bytes → Bytes
  | none => t.line
  | some before => before ++ 44 :: t.line

/-- The headers of a request. -/
def ClientPart.headers (c : ClientPart) (t : ProxyPart) : ForwardingHeaders :=
  ⟨c.earlier ++ t.sharedLine c.before :: t.later, c.realIp⟩

/-- The proxies' part goes down to a hop that is an untrusted address. -/
def ProxyPart.Reaches (t : ProxyPart) (trusted : IpAddr → Bool) : Prop :=
  ∃ hop ∈ hopsOf (asciiChars t.line), ∃ ip, parseHop hop = some ip ∧ trusted ip = false

/-- The walk stays in the proxies' part: the shared line is text, or a later line ends the walk. -/
def ProxyPart.Carried (t : ProxyPart) (trusted : IpAddr → Bool) (before : Option Bytes) : Prop :=
  (t.sharedLine before).all isVisibleAscii = true ∨ ∃ hop ∈ hops t.later, EndsWalk trusted hop

section

variable {t : ProxyPart} {c : ClientPart} {peer : IpAddr} {proxies : List TrustedProxy}

theorem hops_append (lines lines' : List Bytes) :
    hops (lines ++ lines') = hops lines ++ hops lines' := by
  simp [hops]

theorem hops_cons_of_all {line : Bytes} {lines : List Bytes} (h : line.all isVisibleAscii = true) :
    hops (line :: lines) = hopsOf (asciiChars line) ++ hops lines := by
  simp [hops, headerToStr, h]

theorem hops_cons_of_not_all {line : Bytes} {lines : List Bytes}
    (h : line.all isVisibleAscii ≠ true) : hops (line :: lines) = hops lines := by
  simp [hops, headerToStr, h]

theorem hopsOf_sharedLine (t : ProxyPart) (before : Option Bytes) :
    ∃ far, hopsOf (asciiChars (t.sharedLine before)) = far ++ hopsOf (asciiChars t.line) := by
  cases before with
  | none => exact ⟨[], rfl⟩
  | some b =>
    refine ⟨hopsOf (asciiChars b), ?_⟩
    have hc : asciiChars (b ++ 44 :: t.line) = asciiChars b ++ ',' :: asciiChars t.line := by
      simp [asciiChars]
    simp [ProxyPart.sharedLine, hc, hopsOf, List.splitOn_append_cons_self]

/-- The hops the proxies wrote. -/
def ProxyPart.written (t : ProxyPart) : List (List Char) :=
  hopsOf (asciiChars t.line) ++ hops t.later

/-- Where the forwarded hops end with some that end the walk, the address is found among these. -/
theorem resolveSourceIp_of_endsWalk {headers : ForwardingHeaders} {near : List (List Char)}
    (far : List (List Char)) (hp : isTrusted proxies peer = true)
    (hh : hops headers.forwardedFor = far ++ near)
    (he : ∃ hop ∈ near, EndsWalk (isTrusted proxies) hop) :
    resolveSourceIp peer headers proxies = walkHops (isTrusted proxies) peer near.reverse := by
  obtain ⟨hop, hm, hend⟩ := he
  have hne : (far ++ near).isEmpty = false := by
    rw [List.isEmpty_eq_false_iff]
    exact List.ne_nil_of_mem (List.mem_append_right far hm)
  simp only [resolveSourceIp, hp, hh, hne, Bool.not_true, Bool.not_false, Bool.false_eq_true,
    if_false, if_true, List.reverse_append]
  exact walkHops_append_of_endsWalk ⟨hop, List.mem_reverse.mpr hm, hend⟩

theorem resolveSourceIp_of_carried (hp : isTrusted proxies peer = true)
    (ht : t.Reaches (isTrusted proxies)) (hc : t.Carried (isTrusted proxies) c.before) :
    resolveSourceIp peer (c.headers t) proxies =
      walkHops (isTrusted proxies) peer t.written.reverse := by
  rcases hc with htext | hlater
  · obtain ⟨far, hfar⟩ := hopsOf_sharedLine t c.before
    obtain ⟨hop, hm, ip, hip, hu⟩ := ht
    refine resolveSourceIp_of_endsWalk (hops c.earlier ++ far) hp ?_ ⟨hop, ?_, ?_⟩
    · simp only [ClientPart.headers, hops_append, hops_cons_of_all htext, hfar, ProxyPart.written,
        List.append_assoc]
    · exact List.mem_append_left _ hm
    · intro ip' hip'
      rw [hip] at hip'
      rwa [← Option.some.inj hip']
  · have hl := hlater
    obtain ⟨hop, hm, hend⟩ := hlater
    have hcons : ∃ far, hops (t.sharedLine c.before :: t.later) = far ++ hops t.later := by
      by_cases htext : (t.sharedLine c.before).all isVisibleAscii = true
      · exact ⟨_, hops_cons_of_all htext⟩
      · exact ⟨[], hops_cons_of_not_all htext⟩
    obtain ⟨far, hfar⟩ := hcons
    rw [resolveSourceIp_of_endsWalk (hops c.earlier ++ far) hp ?_ hl, ProxyPart.written,
      List.reverse_append, walkHops_append_of_endsWalk ⟨hop, List.mem_reverse.mpr hm, hend⟩]
    simp only [ClientPart.headers, hops_append, hfar, List.append_assoc]

theorem resolveSourceIp_of_not_carried (hp : isTrusted proxies peer = true)
    (hc : ¬t.Carried (isTrusted proxies) c.before) {v : Bytes} {hop : List Char} {ip : IpAddr}
    (hv : hops [v] = [hop]) (hip : parseHop hop = some ip) (he : c.earlier = [v]) :
    resolveSourceIp peer (c.headers t) proxies = ip := by
  obtain ⟨htext, hlater⟩ := not_or.mp hc
  have hh : hops (c.headers t).forwardedFor = [hop] ++ hops t.later := by
    simp only [ClientPart.headers, he, hops_append, hv, hops_cons_of_not_all htext]
  have htrusted : ∀ hop ∈ (hops t.later).reverse, ¬EndsWalk (isTrusted proxies) hop := by
    intro hop hm hend
    exact hlater ⟨hop, List.mem_reverse.mp hm, hend⟩
  simp only [resolveSourceIp, hp, hh, Bool.not_true, Bool.false_eq_true, if_false,
    List.singleton_append, List.isEmpty_cons, Bool.not_false, if_true, List.reverse_cons]
  rw [walkHops_append_of_trusted htrusted, walkHops_singleton hip]

/-- Requests that share the proxies' part resolve to one address, whatever else the clients write,
exactly when both carry the walk through it. -/
theorem resolveSourceIp_noninterference_iff (hp : isTrusted proxies peer = true)
    (ht : t.Reaches (isTrusted proxies)) (before before' : Option Bytes) :
    (∀ c c' : ClientPart, c.before = before → c'.before = before' →
      resolveSourceIp peer (c.headers t) proxies = resolveSourceIp peer (c'.headers t) proxies) ↔
      t.Carried (isTrusted proxies) before ∧ t.Carried (isTrusted proxies) before' := by
  have hone : hops [asBytes "1.2.3.4"] = ["1.2.3.4".toList] := by decide +kernel
  have htwo : hops [asBytes "5.6.7.8"] = ["5.6.7.8".toList] := by decide +kernel
  have hone' : parseHop "1.2.3.4".toList = some (.v4 ⟨[1, 2, 3, 4], rfl⟩) := by decide +kernel
  have htwo' : parseHop "5.6.7.8".toList = some (.v4 ⟨[5, 6, 7, 8], rfl⟩) := by decide +kernel
  have hne : IpAddr.v4 ⟨[1, 2, 3, 4], rfl⟩ ≠ .v4 ⟨[5, 6, 7, 8], rfl⟩ := by decide
  have carried_of : ∀ b b' : Option Bytes, (∀ c c' : ClientPart, c.before = b → c'.before = b' →
      resolveSourceIp peer (c.headers t) proxies = resolveSourceIp peer (c'.headers t) proxies) →
      t.Carried (isTrusted proxies) b := by
    intro b b' h
    by_contra hc
    -- The client names either address on a line of its own.
    let c : Bytes → ClientPart := fun v => ⟨[v], b, []⟩
    have h₁ : resolveSourceIp peer ((c (asBytes "1.2.3.4")).headers t) proxies = _ :=
      resolveSourceIp_of_not_carried hp hc hone hone' rfl
    have h₂ : resolveSourceIp peer ((c (asBytes "5.6.7.8")).headers t) proxies = _ :=
      resolveSourceIp_of_not_carried hp hc htwo htwo' rfl
    have he₁ := h (c (asBytes "1.2.3.4")) ⟨[], b', []⟩ rfl rfl
    have he₂ := h (c (asBytes "5.6.7.8")) ⟨[], b', []⟩ rfl rfl
    exact hne (h₁.symm.trans (he₁.trans (he₂.symm.trans h₂)))
  constructor
  · intro h
    refine ⟨carried_of before before' h, carried_of before' before ?_⟩
    intro c c' hc hc'
    exact (h c' c hc' hc).symm
  · rintro ⟨hb, hb'⟩ c c' rfl rfl
    rw [resolveSourceIp_of_carried hp ht hb, resolveSourceIp_of_carried hp ht hb']

end

namespace Toy

/-- The proxies of 10.0.0.0/8. -/
def tenNet : TrustedProxy := ⟨.v4 ⟨[10, 0, 0, 0], rfl⟩, 8, by decide⟩

def tenOne : IpAddr := .v4 ⟨[10, 0, 0, 1], rfl⟩

/-- A proxy's account of a client at 8.8.8.8. -/
def eightPart : ProxyPart := ⟨asBytes " 8.8.8.8", []⟩

theorem reaches_eightPart : eightPart.Reaches (isTrusted [tenNet]) := by
  refine ⟨"8.8.8.8".toList, ?_, .v4 ⟨[8, 8, 8, 8], rfl⟩, ?_, ?_⟩
  · decide +kernel
  · decide +kernel
  · decide +kernel

end Toy

open Toy in
/-- Whatever two clients at 8.8.8.8 write as text, the proxy's hop is taken. -/
theorem resolveSourceIp_noninterference_text :
    resolveSourceIp tenOne
        ((⟨[], some (asBytes "1.1.1.1"), []⟩ : ClientPart).headers eightPart) [tenNet] =
      resolveSourceIp tenOne
        ((⟨[asBytes "2.2.2.2"], none, [asBytes "9.9.9.9"]⟩ : ClientPart).headers eightPart)
          [tenNet] := by
  have hp : isTrusted [tenNet] tenOne = true := by decide +kernel
  refine (resolveSourceIp_noninterference_iff hp reaches_eightPart (some (asBytes "1.1.1.1"))
    none).mpr ⟨.inl ?_, .inl ?_⟩ _ _ rfl rfl
  · decide +kernel
  · decide +kernel

open Toy in
/-- A byte that is not ASCII, before the proxy's hop, makes the server believe `X-Real-IP`. -/
theorem resolveSourceIp_undecodedLine : eightPart.Reaches (isTrusted [tenNet]) ∧
    resolveSourceIp tenOne
        ((⟨[], some (asBytes "1.1.1.1"), []⟩ : ClientPart).headers eightPart) [tenNet] =
      .v4 ⟨[8, 8, 8, 8], rfl⟩ ∧
    resolveSourceIp tenOne
        ((⟨[], some [0xff], [asBytes "9.9.9.9"]⟩ : ClientPart).headers eightPart) [tenNet] =
      .v4 ⟨[9, 9, 9, 9], rfl⟩ := by
  refine ⟨reaches_eightPart, ?_, ?_⟩
  · decide +kernel
  · decide +kernel

end Aitp
