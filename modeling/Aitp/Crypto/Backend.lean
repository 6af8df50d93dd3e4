import Aitp.Crypto.RoundTrip
import Aitp.Crypto.Toy
import Aitp.Foundation.BigEndian

/-! # Signing backends

`crypto/signer.rs`, with the encodings of P-256 signatures in `crypto/keys.rs`. A KMS or an HSM
signs what the library frames and answers in an encoding of its own. The answer is brought into
one form and verified before it is used, so that a backend is a lawful signer whatever it does.
-/

namespace Aitp

inductive SignRequest where
  | ed25519Message (bytes : Bytes)
  | p256Digest (digest : Bytes)

def SignRequest.len : SignRequest → ℕ
  | ed25519Message bytes => bytes.length
  | p256Digest digest => digest.length

inductive BackendSignature where
  | raw (bytes : Bytes)
  | der (bytes : Bytes)

/-- `SignerError`, without message texts. -/
inductive SignerError where
  | transient
  | permanent
  | messageTooLarge (len max : ℕ)
  | unsupportedAlgorithm
  | malformedSignature
  | verificationFailed
  | keyMismatch (expected reported : Aid)
  deriving DecidableEq

/-- `signer::Target`, with the bytes that a digest is of. -/
inductive SignTarget where
  | jcs (preimage : Bytes)
  | raw (message : Bytes)

/-- What a key of the algorithm signs for a target. -/
def SignTarget.signed (algorithm : AidAlgorithm) : SignTarget → Target
  | jcs preimage => .digest preimage
  | raw message => rawTarget algorithm message

/-- An `AitpSigningKey`: the key in process memory, whose signatures are not checked again. -/
structure LocalKey where
  aid : Aid
  sign : Target → Bytes

/-- An `AitpSigner`: the in-process key that it may be, and what it answers to a request. -/
structure Backend where
  aid : Aid
  maxMessageLen : Option ℕ
  localKey : Option LocalKey
  sign : SignRequest → Except SignerError BackendSignature

/-! ## P-256 signatures -/

/-- The order of the P-256 group. -/
def p256Order : ℕ := 0xffffffff00000000ffffffffffffffffbce6faada7179e84f3b9cac2fc632551

/-- The signatures of the curve's crate: their scalars, and what the library calls on them. -/
structure P256Crate where
  Signature : Type
  r : Signature → ℕ
  s : Signature → ℕ
  fromSlice : Bytes → Option Signature
  fromDer : Bytes → Option Signature
  normalizeS : Signature → Signature
  toBytes : Signature → Bytes

namespace P256Crate

variable (c : P256Crate)

/-- What the crate documents: a signature is two scalars of the group that are not zero, written in
32 bytes each and read from them, and its normal form has the lower one of `s` and `n - s`. -/
structure Lawful : Prop where
  ext : ∀ a b, c.r a = c.r b → c.s a = c.s b → a = b
  r_range : ∀ sig, 0 < c.r sig ∧ c.r sig < p256Order
  s_range : ∀ sig, 0 < c.s sig ∧ c.s sig < p256Order
  toBytes : ∀ sig, c.toBytes sig = BigEndian.ofNat 32 (c.r sig) ++ BigEndian.ofNat 32 (c.s sig)
  fromSlice : ∀ sig, c.fromSlice (c.toBytes sig) = some sig
  normalizeS_r : ∀ sig, c.r (c.normalizeS sig) = c.r sig
  normalizeS_s : ∀ sig, c.s (c.normalizeS sig) = min (c.s sig) (p256Order - c.s sig)

/-- The other signature that the curve accepts with this one. -/
def Twin (sig sig' : c.Signature) : Prop :=
  c.r sig' = c.r sig ∧ c.s sig' = p256Order - c.s sig

end P256Crate

section

variable (P : Primitives) (c : P256Crate)

def p256BackendToLowS : BackendSignature → Except SignerError Bytes
  | .raw raw => do
    ensure (raw.length == rawSignatureLen) .malformedSignature
    let parsed ← okOr (c.fromSlice raw) .malformedSignature
    return c.toBytes (c.normalizeS parsed)
  | .der der => do
    let parsed ← okOr (c.fromDer der) .malformedSignature
    return c.toBytes (c.normalizeS parsed)

/-- The raw form of an answer. -/
def rawOfBackend (algorithm : AidAlgorithm) (sig : BackendSignature) : Except SignerError Bytes :=
  match algorithm, sig with
  | .p256, sig => p256BackendToLowS c sig
  | .ed25519, .raw raw => do
    ensure (raw.length == rawSignatureLen) .malformedSignature
    return raw
  | .ed25519, .der _ => .error .malformedSignature

/-- The check of a raw signature under the key of the AID that it is made for. -/
def verifyTarget (key : VerifyingKey) (algorithm : AidAlgorithm) (target : SignTarget)
    (raw : Bytes) : Except CryptoError Unit :=
  match target with
  | .jcs preimage => key.verifyJcs P preimage (Signature.fromRaw algorithm raw)
  | .raw message => key.verifyRaw P message raw

def finalize (aid : Aid) (target : SignTarget) (sig : BackendSignature) :
    Except SignerError Bytes := do
  let raw ← rawOfBackend c aid.algorithm sig
  let vk ← mapErr (fun _ => .permanent) (VerifyingKey.fromAid P aid)
  mapErr (fun _ => .verificationFailed) (verifyTarget P vk aid.algorithm target raw)
  return raw

namespace Backend

variable (b : Backend)

/-- The request for a target, of any length. -/
def requestFor (target : SignTarget) : SignRequest :=
  match b.aid.algorithm, target with
  | .ed25519, .jcs preimage => .ed25519Message (P.sha256 preimage)
  | .ed25519, .raw message => .ed25519Message message
  | .p256, .jcs preimage => .p256Digest (P.sha256 preimage)
  | .p256, .raw message => .p256Digest (P.sha256 message)

def request (target : SignTarget) : Except SignerError SignRequest := do
  let req := b.requestFor P target
  ifPresent b.maxMessageLen fun max =>
    ensure (decide (req.len ≤ max)) (.messageTooLarge req.len max)
  return req

/-- `local_key`. -/
def localKeyOf : Option LocalKey :=
  b.localKey.filter fun k => decide (k.aid = b.aid)

def signTarget (target : SignTarget) : Except SignerError Bytes :=
  match b.localKeyOf with
  | some key => .ok (key.sign (target.signed b.aid.algorithm))
  | none => do
    let req ← b.request P target
    let sig ← b.sign req
    finalize P c b.aid target sig

def signJcs (preimage : Bytes) : Except SignerError String :=
  (b.signTarget P c (.jcs preimage)).map (Signature.fromRaw b.aid.algorithm)

def signRaw (message : Bytes) : Except SignerError Bytes :=
  b.signTarget P c (.raw message)

/-- The signer that the library makes of a backend. -/
def signer : Signer where
  aid := b.aid
  sign
    | .digest preimage => (b.signTarget P c (.jcs preimage)).toOption
    | .message message =>
      match b.aid.algorithm with
      | .ed25519 => (b.signTarget P c (.raw message)).toOption
      | .p256 => none

end Backend

end

/-- The curves' crates sign as they verify. -/
def LocalKey.Correct (P : Primitives) (k : LocalKey) (key : VerifyingKey) : Prop :=
  ∀ t, (k.sign t).length = rawSignatureLen ∧ P.verify key t (k.sign t) = true

/-- A raw P-256 signature in the one form that is accepted: both scalars in range, the second in the
lower half. -/
def LowS (raw : Bytes) : Prop :=
  ∃ r s, raw = BigEndian.ofNat 32 r ++ BigEndian.ofNat 32 s ∧ 0 < r ∧ r < p256Order ∧ 0 < s ∧
    s ≤ p256Order / 2

/-! ## One form for a signature -/

namespace P256Crate.Lawful

variable {c : P256Crate} (h : c.Lawful) (sig : c.Signature)

include h

theorem length_toBytes : (c.toBytes sig).length = rawSignatureLen := by
  rw [h.toBytes, List.length_append, BigEndian.length_ofNat, BigEndian.length_ofNat]
  rfl

theorem lowS_normalizeS : LowS (c.toBytes (c.normalizeS sig)) := by
  have hodd : p256Order = 2 * (p256Order / 2) + 1 := by decide
  refine ⟨_, _, h.toBytes _, (h.r_range _).1, (h.r_range _).2, (h.s_range _).1, ?_⟩
  rw [h.normalizeS_s]
  omega

theorem normalizeS_twin {sig sig' : c.Signature} (ht : c.Twin sig sig') :
    c.normalizeS sig' = c.normalizeS sig := by
  obtain ⟨hr, hs⟩ := ht
  have hlt := (h.s_range sig).2
  apply h.ext
  · rw [h.normalizeS_r, h.normalizeS_r, hr]
  · rw [h.normalizeS_s, h.normalizeS_s, hs]
    omega

end P256Crate.Lawful

variable {P : Primitives} {c : P256Crate} {b : Backend} {key : VerifyingKey}
  {target : SignTarget} {raw : Bytes} {sig : BackendSignature}

theorem p256BackendToLowS_raw (hc : c.Lawful) (s : c.Signature) :
    p256BackendToLowS c (.raw (c.toBytes s)) = .ok (c.toBytes (c.normalizeS s)) := by
  simp only [p256BackendToLowS, hc.length_toBytes, hc.fromSlice, bind_eq_ok, ensure_eq_ok,
    okOr_some, pure_eq_ok, exists_const, beq_self_eq_true, true_and]
  exact ⟨s, rfl, rfl⟩

theorem p256BackendToLowS_der {der : Bytes} {s : c.Signature} (h : c.fromDer der = some s) :
    p256BackendToLowS c (.der der) = .ok (c.toBytes (c.normalizeS s)) := by
  simp only [p256BackendToLowS, h, bind_eq_ok, okOr_some, pure_eq_ok]
  exact ⟨s, rfl, rfl⟩

theorem lowS_of_p256BackendToLowS (hc : c.Lawful) (h : p256BackendToLowS c sig = .ok raw) :
    LowS raw := by
  cases sig with
  | raw bytes =>
    simp only [p256BackendToLowS, bind_eq_ok, okOr_eq_ok, pure_eq_ok] at h
    obtain ⟨-, -, parsed, -, rfl⟩ := h
    exact hc.lowS_normalizeS parsed
  | der der =>
    simp only [p256BackendToLowS, bind_eq_ok, okOr_eq_ok, pure_eq_ok] at h
    obtain ⟨parsed, -, rfl⟩ := h
    exact hc.lowS_normalizeS parsed

/-! ## Verified before it is used -/

theorem verifyTarget_eq_ok {u : Unit} :
    verifyTarget P key key.algorithm target raw = .ok u ↔
      raw.length = rawSignatureLen ∧ P.verify key (target.signed key.algorithm) raw = true := by
  have hdec : Base64Url.decodeChars (Signature.payload
      (Signature.fromRaw key.algorithm raw)).toList = some raw := by
    rw [Signature.payload_fromRaw, encodeBase64Url, String.toList_ofList]
    exact Base64Url.decodeChars_encodeChars raw
  cases target with
  | jcs preimage =>
    simp only [verifyTarget, VerifyingKey.verifyJcs, hdec, okOr_some, ok_bind, bind_eq_ok,
      ensure_eq_ok, exists_const, Signature.algorithm_fromRaw, decide_true, true_and, beq_iff_eq]
    rfl
  | raw message =>
    simp only [verifyTarget, VerifyingKey.verifyRaw, bind_eq_ok, ensure_eq_ok, exists_const,
      beq_iff_eq]
    rfl

theorem finalize_eq_ok (hk : VerifyingKey.fromAid P b.aid = .ok key) :
    finalize P c b.aid target sig = .ok raw ↔
      rawOfBackend c b.aid.algorithm sig = .ok raw ∧ raw.length = rawSignatureLen ∧
        P.verify key (target.signed b.aid.algorithm) raw = true := by
  have ha : key.algorithm = b.aid.algorithm := by rw [(VerifyingKey.fromAid_eq_ok.mp hk).1]
  simp only [finalize, hk, mapErr_ok, ok_bind, bind_eq_ok, mapErr_eq_ok, pure_eq_ok, ← ha,
    verifyTarget_eq_ok, exists_const]
  constructor
  · rintro ⟨raw', hr, hv, rfl⟩
    exact ⟨hr, hv⟩
  · rintro ⟨hr, hv⟩
    exact ⟨raw, hr, hv, rfl⟩

namespace Backend

/-- What `sign_target` returns was made by the in-process key, or by a backend and verified. -/
theorem signTarget_eq_ok (hk : VerifyingKey.fromAid P b.aid = .ok key) :
    b.signTarget P c target = .ok raw ↔
      (∃ k, b.localKeyOf = some k ∧ k.sign (target.signed b.aid.algorithm) = raw) ∨
      b.localKeyOf = none ∧ ∃ req sig, b.request P target = .ok req ∧ b.sign req = .ok sig ∧
        rawOfBackend c b.aid.algorithm sig = .ok raw ∧ raw.length = rawSignatureLen ∧
        P.verify key (target.signed b.aid.algorithm) raw = true := by
  unfold signTarget
  cases hl : b.localKeyOf with
  | some k =>
    simp only [Except.ok.injEq, Option.some.injEq, exists_eq_left', reduceCtorEq, false_and,
      or_false]
  | none =>
    simp only [bind_eq_ok, finalize_eq_ok hk, reduceCtorEq, false_and, exists_false, true_and,
      false_or, exists_and_left]

theorem mem_localKeyOf {k : LocalKey} (h : b.localKeyOf = some k) :
    b.localKey = some k ∧ k.aid = b.aid := by
  obtain ⟨hk, ha⟩ := Option.filter_eq_some_iff.mp h
  exact ⟨hk, of_decide_eq_true ha⟩

theorem verified_of_signTarget (hk : VerifyingKey.fromAid P b.aid = .ok key)
    (hl : ∀ k, b.localKey = some k → k.aid = b.aid → k.Correct P key)
    (h : b.signTarget P c target = .ok raw) :
    raw.length = rawSignatureLen ∧ P.verify key (target.signed b.aid.algorithm) raw = true := by
  rcases (signTarget_eq_ok hk).mp h with ⟨k, hkey, rfl⟩ | ⟨-, -, -, -, -, -, hv⟩
  · obtain ⟨hsome, haid⟩ := mem_localKeyOf hkey
    exact hl k hsome haid _
  · exact hv

theorem mapErr_const_congr {ε ε' : Type} {x : Except ε Unit} {y : Except ε' Unit} {e : SignerError}
    (h : x = .ok () ↔ y = .ok ()) : mapErr (fun _ => e) x = mapErr (fun _ => e) y := by
  cases x with
  | ok u => rw [h.mp rfl, mapErr_ok, mapErr_ok]
  | error ex =>
    cases y with
    | ok u => exact absurd (h.mpr rfl) (by simp)
    | error ey => rw [mapErr_error, mapErr_error]

theorem finalize_raw_of_p256 {aid : Aid} (ha : aid.algorithm = .p256) (m : Bytes)
    (sig : BackendSignature) :
    finalize P c aid (.raw m) sig = finalize P c aid (.jcs m) sig := by
  unfold finalize
  cases rawOfBackend c aid.algorithm sig with
  | error e => rw [error_bind, error_bind]
  | ok raw =>
    cases hv : VerifyingKey.fromAid P aid with
    | error e => rw [ok_bind, ok_bind, mapErr_error, error_bind, error_bind]
    | ok vk =>
      have hvk : vk.algorithm = aid.algorithm := by rw [(VerifyingKey.fromAid_eq_ok.mp hv).1]
      have hiff : verifyTarget P vk aid.algorithm (.raw m) raw = .ok () ↔
          verifyTarget P vk aid.algorithm (.jcs m) raw = .ok () := by
        rw [← hvk, verifyTarget_eq_ok, verifyTarget_eq_ok, hvk, ha, SignTarget.signed,
          SignTarget.signed, rawTarget]
      simp only [ok_bind, mapErr_ok, mapErr_const_congr hiff]

/-- A P-256 backend is asked one thing for a message, and it is checked alike, whether the library
hashes the message itself or was given its digest. -/
theorem signTarget_raw_of_p256 (ha : b.aid.algorithm = .p256) (m : Bytes) :
    b.signTarget P c (.raw m) = b.signTarget P c (.jcs m) := by
  have hreq : b.request P (.raw m) = b.request P (.jcs m) := by
    simp only [request, requestFor, ha]
  unfold signTarget
  rw [hreq]
  cases b.localKeyOf with
  | some k => simp only [SignTarget.signed, rawTarget, ha]
  | none => simp only [finalize_raw_of_p256 ha]

theorem sign_signer (t : SignTarget) : (b.signer P c).sign (t.signed b.aid.algorithm) =
    (b.signTarget P c t).toOption := by
  cases t with
  | jcs m => rfl
  | raw m =>
    cases ha : b.aid.algorithm with
    | ed25519 => simp only [SignTarget.signed, rawTarget, signer, ha]
    | p256 => simp only [SignTarget.signed, rawTarget, signer, signTarget_raw_of_p256 ha]

theorem signer_lawful (hk : VerifyingKey.fromAid P b.aid = .ok key)
    (hl : ∀ k, b.localKey = some k → k.aid = b.aid → k.Correct P key) :
    (b.signer P c).Lawful P key := by
  refine ⟨hk, ?_⟩
  intro t raw h
  cases t with
  | digest preimage =>
    have hs : b.signTarget P c (.jcs preimage) = .ok raw := toOption_eq_some.mp h
    exact verified_of_signTarget hk hl hs
  | message message =>
    simp only [signer] at h
    split at h
    · next ha =>
      have hs : b.signTarget P c (.raw message) = .ok raw := toOption_eq_some.mp h
      have hv := verified_of_signTarget hk hl hs
      rwa [ha] at hv
    · exact absurd h (by simp)

theorem signJcs_signer (preimage : Bytes) : (b.signer P c).signJcs preimage =
    mapErr (fun _ => .signer) (b.signJcs P c preimage) := by
  simp only [Signer.signJcs, signer, signJcs]
  cases b.signTarget P c (.jcs preimage) with
  | error e => rfl
  | ok raw => rfl

theorem signRaw_signer (message : Bytes) : (b.signer P c).signRaw message =
    mapErr (fun _ => .signer) (b.signRaw P c message) := by
  have h : (b.signer P c).sign (rawTarget b.aid.algorithm message) =
      (b.signTarget P c (.raw message)).toOption := sign_signer (.raw message)
  have haid : (b.signer P c).aid = b.aid := rfl
  rw [Signer.signRaw, haid, h, signRaw]
  cases b.signTarget P c (.raw message) with
  | error e => rfl
  | ok raw => rfl

theorem lowS_of_signTarget (hc : c.Lawful) (ha : b.aid.algorithm = .p256) (hn : b.localKeyOf = none)
    (h : b.signTarget P c target = .ok raw) : LowS raw := by
  simp only [signTarget, hn, finalize, bind_eq_ok, pure_eq_ok, rawOfBackend, ha] at h
  obtain ⟨req, -, sig, -, raw', hr, vk, -, -, -, rfl⟩ := h
  exact lowS_of_p256BackendToLowS hc hr

theorem signTarget_of_tooLarge {max : ℕ} (hn : b.localKeyOf = none)
    (hm : b.maxMessageLen = some max) (hlen : max < (b.requestFor P target).len) :
    b.signTarget P c target =
      .error (.messageTooLarge (b.requestFor P target).len max) := by
  simp only [signTarget, hn, request, hm, ifPresent_some, ensure, decide_eq_false (not_le.mpr hlen),
    Bool.false_eq_true, if_false, error_bind]

/-- Two backends that answer the same signature in whatever encoding, or its twin, sign alike. -/
theorem signTarget_congr {b' : Backend} (ha : b'.aid = b.aid)
    (hm : b'.maxMessageLen = b.maxMessageLen) (hl : b'.localKey = b.localKey)
    (hs : ∀ req, (b.sign req >>= rawOfBackend c b.aid.algorithm) =
      (b'.sign req >>= rawOfBackend c b.aid.algorithm)) :
    b'.signTarget P c target = b.signTarget P c target := by
  have hlocal : b'.localKeyOf = b.localKeyOf := by
    simp only [localKeyOf, hl, ha]
  have hfor : b'.requestFor P target = b.requestFor P target := by
    simp only [requestFor, ha]
  have hreq : b'.request P target = b.request P target := by
    simp only [request, hfor, hm]
  unfold signTarget
  rw [hlocal, hreq, ha]
  split
  · rfl
  · rcases b.request P target with e | req
    · rfl
    · have h := hs req
      simp only [ok_bind, finalize]
      rcases hb : b.sign req with e | sig
      · rcases hb' : b'.sign req with e' | sig'
        · rw [hb, hb'] at h
          simp only [error_bind, Except.error.injEq] at h
          rw [error_bind, error_bind, h]
        · rw [hb, hb', error_bind, ok_bind] at h
          rw [error_bind, ok_bind, ← h]
          rfl
      · rcases hb' : b'.sign req with e' | sig'
        · rw [hb, hb', error_bind, ok_bind] at h
          rw [error_bind, ok_bind, h]
          rfl
        · rw [hb, hb', ok_bind, ok_bind] at h
          rw [ok_bind, ok_bind, h]

end Backend

/-! ## The law -/

/-- An answer that encodes a signature. -/
inductive P256Crate.Encoding (c : P256Crate) (s : c.Signature) : BackendSignature → Prop
  | raw : Encoding c s (.raw (c.toBytes s))
  | der {der : Bytes} : c.fromDer der = some s → Encoding c s (.der der)

theorem P256Crate.Encoding.toLowS {s : c.Signature} (hc : c.Lawful) (h : c.Encoding s sig) :
    p256BackendToLowS c sig = .ok (c.toBytes (c.normalizeS s)) := by
  cases h with
  | raw => exact p256BackendToLowS_raw hc s
  | der hd => exact p256BackendToLowS_der hd

/-- Two backends answer alike: the same, or encodings of one signature or of it and its twin. -/
def AnswersAlike (c : P256Crate) (x y : Except SignerError BackendSignature) : Prop :=
  x = y ∨ ∃ (s s' : c.Signature) (sig sig' : BackendSignature), x = .ok sig ∧ y = .ok sig' ∧
    c.Encoding s sig ∧ c.Encoding s' sig' ∧ (s' = s ∨ c.Twin s s')

theorem AnswersAlike.toLowS {x y : Except SignerError BackendSignature} (hc : c.Lawful)
    (h : AnswersAlike c x y) : (x >>= p256BackendToLowS c) = (y >>= p256BackendToLowS c) := by
  rcases h with rfl | ⟨s, s', sig, sig', rfl, rfl, he, he', rfl | ht⟩
  · rfl
  · rw [ok_bind, ok_bind, he.toLowS hc, he'.toLowS hc]
  · rw [ok_bind, ok_bind, he.toLowS hc, he'.toLowS hc, hc.normalizeS_twin ht]

/-- What the library makes of a backend: a lawful signer, whose P-256 signatures are low and do not
depend on how the backend encodes them, and which is not asked what it cannot sign. -/
structure BackendLaw (P : Primitives) (c : P256Crate) (b : Backend) (key : VerifyingKey) :
    Prop where
  lawful : (b.signer P c).Lawful P key
  jcs : ∀ preimage, (b.signer P c).signJcs preimage =
    mapErr (fun _ => .signer) (b.signJcs P c preimage)
  raw : ∀ message, (b.signer P c).signRaw message =
    mapErr (fun _ => .signer) (b.signRaw P c message)
  lowS : b.aid.algorithm = .p256 → b.localKeyOf = none → ∀ target raw,
    b.signTarget P c target = .ok raw → LowS raw
  encodings : b.aid.algorithm = .p256 → ∀ b' : Backend, b'.aid = b.aid →
    b'.maxMessageLen = b.maxMessageLen → b'.localKey = b.localKey →
    (∀ req, AnswersAlike c (b.sign req) (b'.sign req)) → ∀ target,
      b'.signTarget P c target = b.signTarget P c target
  capped : b.localKeyOf = none → ∀ target max, b.maxMessageLen = some max →
    max < (b.requestFor P target).len → b.signTarget P c target =
      .error (.messageTooLarge (b.requestFor P target).len max)

/-- Whatever a backend answers, the signer that the library makes of it is lawful. -/
theorem backendLaw (hc : c.Lawful) (hk : VerifyingKey.fromAid P b.aid = .ok key)
    (hl : ∀ k, b.localKey = some k → k.aid = b.aid → k.Correct P key) :
    BackendLaw P c b key := by
  constructor
  · exact Backend.signer_lawful hk hl
  · exact Backend.signJcs_signer
  · exact Backend.signRaw_signer
  · intro ha hn target raw h
    exact Backend.lowS_of_signTarget hc ha hn h
  · intro ha b' haid hmax hlocal halike target
    refine Backend.signTarget_congr haid hmax hlocal ?_
    intro req
    rw [ha]
    exact (halike req).toLowS hc
  · intro hn target max hmax hlen
    exact Backend.signTarget_of_tooLarge hn hmax hlen

namespace Toy

/-- Two scalars of the group that are not zero. -/
abbrev Scalars : Type :=
  { p : ℕ × ℕ // (0 < p.1 ∧ p.1 < p256Order) ∧ 0 < p.2 ∧ p.2 < p256Order }

def scalars (r s : ℕ) : Option Scalars :=
  if h : (0 < r ∧ r < p256Order) ∧ 0 < s ∧ s < p256Order then some ⟨(r, s), h⟩ else none

/-- A positive integer in DER, and what follows it. -/
def derInteger : Bytes → Option (ℕ × Bytes)
  | 0x02 :: len :: bytes =>
    let n := bytes.take len.toNat
    if n.length = len.toNat ∧ n.headD 0x80 < 0x80 ∧ (n.head? = some 0 → 0x80 ≤ n.getD 1 0) then
      some (BigEndian.value n, bytes.drop len.toNat)
    else none
  | _ => none

/-- The crate, over scalars. -/
def p256 : P256Crate where
  Signature := Scalars
  r sig := sig.val.1
  s sig := sig.val.2
  fromSlice bytes := scalars (BigEndian.value (bytes.take 32)) (BigEndian.value (bytes.drop 32))
  fromDer
    | 0x30 :: len :: bytes => do
      let (r, rest) ← derInteger bytes
      let (s, rest) ← derInteger rest
      if bytes.length = len.toNat ∧ rest = [] then scalars r s else none
    | _ => none
  normalizeS sig :=
    ⟨(sig.val.1, min sig.val.2 (p256Order - sig.val.2)), sig.property.1, by
      have hs := sig.property.2
      omega⟩
  toBytes sig := BigEndian.ofNat 32 sig.val.1 ++ BigEndian.ofNat 32 sig.val.2

theorem p256_lawful : p256.Lawful where
  ext _ _ hr hs := Subtype.ext (Prod.ext hr hs)
  r_range sig := sig.property.1
  s_range sig := sig.property.2
  toBytes _ := rfl
  fromSlice sig := by
    obtain ⟨⟨r, s⟩, hrange⟩ := sig
    have hlt : p256Order < 256 ^ 32 := by decide
    have hr : BigEndian.value (BigEndian.ofNat 32 r) = r :=
      BigEndian.value_ofNat_of_lt (hrange.1.2.trans hlt)
    have hs : BigEndian.value (BigEndian.ofNat 32 s) = s :=
      BigEndian.value_ofNat_of_lt (hrange.2.2.trans hlt)
    simp only [p256, List.take_left' (BigEndian.length_ofNat 32 r),
      List.drop_left' (BigEndian.length_ofNat 32 r), hr, hs]
    exact dif_pos hrange
  normalizeS_r _ := rfl
  normalizeS_s _ := rfl

/-- A backend that guesses what a digest is of, and never signs one for the other curve. -/
def kms : Backend where
  aid := agent 0
  maxMessageLen := some 4096
  localKey := none
  sign
    | .ed25519Message bytes => .ok (.raw (List.replicate rawSignatureLen (bytes.headD 0)))
    | .p256Digest _ => .error .unsupportedAlgorithm

/-- An agent of the other curve. -/
def p256Aid : Aid := ⟨"aid:pubkey:p256:AgICAgICAgICAgICAgICAgICAgICAgICAgICAgICAgIC", by decide +kernel⟩

/-- The DER of a signature whose `s` is high: the integers `r` and `n - s` of the raw signature of
two bytes. -/
def highDer : Bytes :=
  [0x30, 69, 0x02, 32] ++ List.replicate 32 2 ++ [0x02, 33, 0x00] ++
    BigEndian.ofNat 32 (p256Order - BigEndian.value (List.replicate 32 2))

/-- A backend of the other curve, which answers in DER. -/
def p256Kms : Backend where
  aid := p256Aid
  maxMessageLen := none
  localKey := none
  sign
    | .ed25519Message _ => .error .unsupportedAlgorithm
    | .p256Digest _ => .ok (.der highDer)

end Toy

open Toy in
/-- An Ed25519 backend that signs digests only and takes no long message, and a P-256 backend that
answers a high `s` in DER. -/
theorem backendLaw_kms :
    (BackendLaw primitives p256 kms (agentKey 0) ∧
      kms.signTarget primitives p256 (.jcs [7, 7]) = .ok (List.replicate rawSignatureLen 2) ∧
      kms.signTarget primitives p256 (.raw [7, 7]) = .error .verificationFailed ∧
      kms.signTarget primitives p256 (.raw (List.replicate 4097 7)) =
        .error (.messageTooLarge 4097 4096)) ∧
    BackendLaw primitives p256 p256Kms ⟨.p256, p256Aid.pubkeyCompressedBytes⟩ ∧
      p256Kms.signTarget primitives p256 (.jcs [7, 7]) = .ok (List.replicate rawSignatureLen 2) ∧
      p256Kms.signTarget primitives p256 (.jcs [7]) = .error .verificationFailed :=
  ⟨⟨backendLaw p256_lawful (VerifyingKey.fromAid_eq_ok.mpr ⟨rfl, rfl⟩) nofun,
      by decide +kernel, by decide +kernel, by decide +kernel⟩,
    backendLaw p256_lawful (VerifyingKey.fromAid_eq_ok.mpr ⟨by decide +kernel, by decide +kernel⟩)
      nofun, by decide +kernel, by decide +kernel⟩

end Aitp
