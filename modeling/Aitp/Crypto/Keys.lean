import Aitp.Core.CheckedJson
import Aitp.Core.Identifiers
import Aitp.Json.Reading

/-! # Keys and signatures

`crypto/keys.rs`, `crypto/signer.rs` and `crypto/thumbprint.rs`. The curve
arithmetic, SHA-256 and the JSON parser live in other crates and are parameters;
what is signed is kept as the bytes themselves or as the bytes whose SHA-256 is
signed, so that no digest is ever confused with a message.
-/

namespace Aitp

/-- `AitpVerifyingKey`: an algorithm and the compressed public key. -/
structure VerifyingKey where
  algorithm : AidAlgorithm
  bytes : Bytes
  deriving DecidableEq

/-- What a key signs: bytes as they are, or the SHA-256 of some bytes. -/
inductive Target where
  | message (bytes : Bytes)
  | digest (preimage : Bytes)
  deriving DecidableEq

/-- A parsed URL: its serialisation and its host. -/
structure Url where
  text : String
  host : Option String

/-- The third-party code the crates rely on. -/
structure Primitives where
  /-- The JSON value a byte string begins with, members in document order and none collapsed, and
  whether nothing but white space follows it. -/
  first : Bytes → Option (Json × Bool)
  /-- Whether a compressed public key decodes to a curve point. -/
  isPoint : AidAlgorithm → Bytes → Bool
  /-- The affine coordinates of a compressed P-256 point. -/
  affine : Bytes → Bytes × Bytes
  /-- Strict Ed25519 verification, and P-256 verification of a low-S signature. -/
  verify : VerifyingKey → Target → Bytes → Bool
  sha256 : Bytes → Bytes
  /-- `url::Url::parse`. -/
  url : String → Option Url

/-- The JSON document a byte string holds: one value and nothing else. -/
def Primitives.document (P : Primitives) (bytes : Bytes) : Option Json :=
  match P.first bytes with
  | some (v, true) => some v
  | _ => none

theorem Primitives.document_eq_some {P : Primitives} {bytes : Bytes} {v : Json} :
    P.document bytes = some v ↔ P.first bytes = some (v, true) := by
  unfold document
  split
  next w h => simp [h]
  next h =>
    refine iff_of_false nofun fun hf => h v hf

inductive CryptoError where
  | signatureInvalid
  | signatureMalformed (reason : String)
  | keyParseFailed
  | aidNotEd25519
  | algMismatch (got : String)
  | typMismatch (expected got : String)
  | jwsMalformed (reason : String)
  | signer
  deriving DecidableEq

/-- An `AitpSigner`: the AID it signs for and a backend that may fail. -/
structure Signer where
  aid : Aid
  sign : Target → Option Bytes

def ed25519SignatureBase64UrlLen : ℕ := 86

/-- The length in bytes of a raw signature of either algorithm. -/
def rawSignatureLen : ℕ := 64

/-- `validate_b64url_signature`. -/
def validateB64UrlSignature (payload : String) : Bool :=
  payload.length == ed25519SignatureBase64UrlLen && payload.toList.all Base64Url.isBase64Url

namespace Signature

def payload (s : String) : String :=
  match stripPrefix "ed25519." s with
  | some p => p
  | none => (stripPrefix "p256." s).getD s

def algorithm (s : String) : AidAlgorithm :=
  if (stripPrefix "p256." s).isSome then .p256 else .ed25519

def parse (s : String) : Except CryptoError String := do
  ensure (!s.toList.contains '=') (.signatureMalformed "padding is forbidden")
  ensure (validateB64UrlSignature (payload s)) (.signatureMalformed "expected 86 characters")
  return s

theorem eq_of_parse {s t : String} (h : parse s = .ok t) : t = s := by
  simp only [parse, bind_eq_ok, pure_eq_ok] at h
  obtain ⟨_, -, _, -, rfl⟩ := h
  rfl

/-- The wire form of a raw signature: P-256 signatures are tagged. -/
def fromRaw (algorithm : AidAlgorithm) (raw : Bytes) : String :=
  match algorithm with
  | .p256 => "p256." ++ encodeBase64Url raw
  | .ed25519 => encodeBase64Url raw

end Signature

/-- What is signed for a message: P-256 signs its SHA-256. -/
def rawTarget (algorithm : AidAlgorithm) (message : Bytes) : Target :=
  match algorithm with
  | .ed25519 => .message message
  | .p256 => .digest message

namespace Signer

/-- `signer::sign_jcs` over the SHA-256 of the given bytes. -/
def signJcs (s : Signer) (preimage : Bytes) : Except CryptoError String := do
  let raw ← okOr (s.sign (.digest preimage)) .signer
  return Signature.fromRaw s.aid.algorithm raw

def signRaw (s : Signer) (message : Bytes) : Except CryptoError Bytes :=
  okOr (s.sign (rawTarget s.aid.algorithm message)) .signer

end Signer

/-- The length of the compressed key of each algorithm. -/
def compressedLen : AidAlgorithm → ℕ
  | .ed25519 => 32
  | .p256 => 33

namespace Aid

theorem stripPrefix_p256_of_ed25519 {s t : String}
    (h : stripPrefix aidPubkeyEd25519Prefix s = some t) :
    stripPrefix aidPubkeyP256Prefix s = none := by
  have hs := eq_append_of_stripPrefix h
  cases hp : stripPrefix aidPubkeyP256Prefix s with
  | none => rfl
  | some u =>
    have hc := congrArg String.toList (hs.symm.trans (eq_append_of_stripPrefix hp))
    rw [String.toList_append, String.toList_append] at hc
    simp [aidPubkeyEd25519Prefix, aidPubkeyP256Prefix] at hc

theorem length_of_validateEd25519Identifier {identifier : String}
    (h : validateEd25519Identifier identifier = true) :
    ((Base64Url.decodeChars identifier.toList).getD []).length = 32 := by
  simp only [validateEd25519Identifier, Bool.and_eq_true, beq_iff_eq, Option.isSome_iff_exists] at h
  obtain ⟨⟨hl, -⟩, bs, hb⟩ := h
  have hn := Base64Url.length_of_decodeChars hb
  rw [String.length_toList, hl, aidPubkeyIdentifierLen] at hn
  rw [hb, Option.getD_some]
  omega

theorem head_of_validateP256Identifier {identifier : String}
    (h : validateP256Identifier identifier = true) :
    ∃ b bs, (Base64Url.decodeChars identifier.toList).getD [] = b :: bs ∧
      (b :: bs).length = 33 ∧ (b = 2 ∨ b = 3) := by
  simp only [validateP256Identifier, Bool.and_eq_true, beq_iff_eq] at h
  obtain ⟨⟨hl, -⟩, hb⟩ := h
  split at hb
  · rename_i b bs hd
    have hn := Base64Url.length_of_decodeChars hd
    rw [String.length_toList, hl, aidP256IdentifierLen] at hn
    rw [hd, Option.getD_some]
    exact ⟨b, bs, rfl, by omega, by simpa using hb⟩
  · simp at hb

theorem pubkeyCompressedBytes_spec (a : Aid) :
    a.pubkeyCompressedBytes.length = compressedLen a.algorithm ∧
      (a.algorithm = .p256 → a.pubkeyCompressedBytes.head? = some 2 ∨
        a.pubkeyCompressedBytes.head? = some 3) := by
  have hv := a.valid
  unfold isValid at hv
  unfold pubkeyCompressedBytes identifier algorithm
  split at hv
  · rename_i id hi
    simp only [stripPrefix_p256_of_ed25519 hi, Option.isSome_none, Bool.false_eq_true,
      if_false]
    exact ⟨length_of_validateEd25519Identifier hv, nofun⟩
  · rename_i he
    split at hv
    · rename_i id hi
      obtain ⟨b, bs, hd, hl, hb⟩ := head_of_validateP256Identifier hv
      simp only [hi, hd, Option.isSome_some, if_true]
      exact ⟨hl, fun _ => by simpa using hb⟩
    · rename_i hp
      split at hv
      · rename_i id hi
        split_ifs at hv
        have hid : String.ofList (a.value.toList.drop aidPubkeyPrefix.toList.length) = id := by
          unfold stripPrefix at hi
          split_ifs at hi
          exact Option.some.inj hi
        simp only [hp, hid, Option.isSome_none, Bool.false_eq_true, if_false]
        exact ⟨length_of_validateEd25519Identifier hv, nofun⟩
      · simp at hv
end Aid

namespace VerifyingKey

variable (P : Primitives)

def fromAid (aid : Aid) : Except CryptoError VerifyingKey := do
  let key : VerifyingKey := ⟨aid.algorithm, aid.pubkeyCompressedBytes⟩
  ensure (P.isPoint key.algorithm key.bytes)
    (match aid.algorithm with
      | .ed25519 => .aidNotEd25519
      | .p256 => .keyParseFailed)
  return key

def fromCompressed (bytes : Bytes) : Except CryptoError VerifyingKey := do
  let algorithm ←
    if bytes.length = 32 then .ok AidAlgorithm.ed25519
    else if bytes.length = 33 then .ok AidAlgorithm.p256
    else .error CryptoError.keyParseFailed
  ensure (P.isPoint algorithm bytes) .keyParseFailed
  return ⟨algorithm, bytes⟩

/-- `AitpVerifyingKey::verify_jcs` over the SHA-256 of the given bytes. -/
def verifyJcs (key : VerifyingKey) (preimage : Bytes) (signature : String) :
    Except CryptoError Unit := do
  let raw ← okOr (Base64Url.decodeChars (Signature.payload signature).toList) .signatureInvalid
  ensure (decide (key.algorithm = Signature.algorithm signature)) .signatureInvalid
  ensure (raw.length == rawSignatureLen) .signatureInvalid
  ensure (P.verify key (.digest preimage) raw) .signatureInvalid

def verifyRaw (key : VerifyingKey) (message signature : Bytes) : Except CryptoError Unit := do
  ensure (signature.length == rawSignatureLen) .signatureInvalid
  ensure (P.verify key (rawTarget key.algorithm message) signature) .signatureInvalid

def toJwkThumbprintSha256 (key : VerifyingKey) : String :=
  let jwk :=
    match key.algorithm with
    | .ed25519 =>
      asBytes "\x7b\"crv\":\"Ed25519\",\"kty\":\"OKP\",\"x\":\"" ++
        asBytes (encodeBase64Url key.bytes) ++ asBytes "\"\x7d"
    | .p256 =>
      asBytes "\x7b\"crv\":\"P-256\",\"kty\":\"EC\",\"x\":\"" ++
        asBytes (encodeBase64Url (P.affine key.bytes).1) ++ asBytes "\",\"y\":\"" ++
        asBytes (encodeBase64Url (P.affine key.bytes).2) ++ asBytes "\"\x7d"
  encodeBase64Url (P.sha256 jwk)

end VerifyingKey

/-! ## What the JSON parser reads -/

/-- How deep the JSON parser lets arrays and objects nest: it gives up at the 128th level. -/
def nestingLimit : ℕ := 127

namespace Primitives

variable (P : Primitives)

/-- The number that is read where the number `n` was written, if its text reads as a number. -/
def rereadNumber (n : Json) : Json :=
  ((P.document (utf8 n.text)).filter Json.isNumber).getD n

/-- What is read where a value was written: every number by its own text. -/
def reread (v : Json) : Json :=
  v.mapNumbers P.rereadNumber

/-- Whether the text of a number reads as a number. -/
def readsNumber (n : Json) : Bool :=
  (P.document (utf8 n.text)).any Json.isNumber

/-- Whether a number reads back as it was written. -/
def keeps (n : Json) : Bool :=
  decide (P.document (utf8 n.text) = some n) && n.isNumber

/-- Whether the canonical text of a number reads as a number. -/
def readsJcs (n : Json) : Bool :=
  P.readsNumber n.canon

/-- The JSON parser reads integers that fit a machine word, reads numbers where the canonicaliser
wrote such integers, and makes of a text that does not nest too deep what it makes of its numbers. -/
structure ReadsText : Prop where
  int : ∀ z : ℤ, -(2 ^ 63) ≤ z → z < 2 ^ 64 → P.document (utf8 (Json.int z).text) = some (.int z)
  rounded : ∀ z : ℤ, -(2 ^ 63) ≤ z → z < 2 ^ 64 → P.readsJcs (.int z) = true
  text : ∀ v : Json, v.readable P.readsNumber nestingLimit = true →
    P.document (utf8 v.text) = some (P.reread v)

variable {P} {v : Json}

@[simp] theorem reread_str (s : String) : P.reread (.str s) = .str s := rfl

theorem isNumber_rereadNumber {n : Json} (h : n.isNumber = true) :
    (P.rereadNumber n).isNumber = true := by
  unfold rereadNumber
  cases hd : (P.document (utf8 n.text)).filter Json.isNumber with
  | none => exact h
  | some m => exact (Option.filter_eq_some_iff.mp hd).2

theorem isObject_reread (v : Json) : (P.reread v).isObject = v.isObject :=
  Json.isObject_mapNumbers (fun _ => isNumber_rereadNumber) v

theorem distinctKeys_reread (v : Json) : (P.reread v).distinctKeys = v.distinctKeys :=
  Json.distinctKeys_mapNumbers (fun _ => isNumber_rereadNumber) v

theorem readsNumber_of_keeps {n : Json} (h : P.keeps n = true) : P.readsNumber n = true := by
  simp only [keeps, Bool.and_eq_true, decide_eq_true_eq] at h
  simp [readsNumber, h.1, h.2]

theorem reread_of_keeps {n : ℕ} (h : v.readable P.keeps n = true) : P.reread v = v := by
  refine Json.mapNumbers_of_readable (p := P.keeps) (fun w hw => ?_) v h
  simp only [keeps, Bool.and_eq_true, decide_eq_true_eq] at hw
  simp [rereadNumber, hw.1, hw.2, Option.filter_some]

namespace ReadsText

theorem reread_int (hP : P.ReadsText) {z : ℤ} (hl : -(2 ^ 63) ≤ z) (hu : z < 2 ^ 64) :
    P.reread (.int z) = .int z := by
  simp [reread, Json.mapNumbers, rereadNumber, hP.int z hl hu, Json.isNumber, Option.filter_some]

theorem keeps_int (hP : P.ReadsText) {z : ℤ} (hl : -(2 ^ 63) ≤ z) (hu : z < 2 ^ 64) :
    P.keeps (.int z) = true := by
  simp [keeps, hP.int z hl hu, Json.isNumber]

theorem document_text (hP : P.ReadsText) (h : v.readable P.keeps nestingLimit = true) :
    P.document (utf8 v.text) = some v := by
  rw [hP.text v (Json.readable_mono (fun _ => readsNumber_of_keeps) v le_rfl h), reread_of_keeps h]

theorem document_jcs (hP : P.ReadsText) (h : v.readable P.readsJcs nestingLimit = true) :
    P.document v.jcs = some (P.reread v.canon) :=
  hP.text v.canon (Json.readable_canon (fun _ _ => id) v h)

end ReadsText

end Primitives

def CheckedJson.fromSlice (P : Primitives) (bytes : Bytes) : Option CheckedJson :=
  (P.document bytes).bind CheckedJson.ofDocument

theorem CheckedJson.fromSlice_text {P : Primitives} (hP : P.ReadsText) {v : Json}
    (hr : v.readable P.keeps nestingLimit = true) (hd : v.distinctKeys = true) :
    CheckedJson.fromSlice P (utf8 v.text) = some ⟨v, hd⟩ := by
  simp [fromSlice, hP.document_text hr, ofDocument, hd]

/-- What a backend signs is a signature of the algorithms' length that its key verifies. -/
def Signer.Lawful (P : Primitives) (s : Signer) (key : VerifyingKey) : Prop :=
  VerifyingKey.fromAid P s.aid = .ok key ∧
    ∀ t raw, s.sign t = some raw → raw.length = rawSignatureLen ∧ P.verify key t raw = true

namespace VerifyingKey

variable {P : Primitives} {key : VerifyingKey}

theorem fromAid_eq_ok {aid : Aid} : fromAid P aid = .ok key ↔
    key = ⟨aid.algorithm, aid.pubkeyCompressedBytes⟩ ∧
      P.isPoint aid.algorithm aid.pubkeyCompressedBytes = true := by
  simp only [fromAid, bind_eq_ok, ensure_eq_ok, pure_eq_ok, exists_const]
  constructor
  · rintro ⟨hp, hk⟩
    exact ⟨hk.symm, hp⟩
  · rintro ⟨hk, hp⟩
    exact ⟨hp, hk.symm⟩

theorem fromCompressed_ok {bytes : Bytes} (h : fromCompressed P bytes = .ok key) :
    key.bytes = bytes ∧ bytes.length = compressedLen key.algorithm ∧
      P.isPoint key.algorithm bytes = true := by
  unfold fromCompressed at h
  split_ifs at h with h₁ h₂
  · simp only [bind_eq_ok, ensure_eq_ok, pure_eq_ok, exists_const, Except.ok.injEq,
      exists_eq_left'] at h
    obtain ⟨hp, rfl⟩ := h
    exact ⟨rfl, h₁, hp⟩
  · simp only [bind_eq_ok, ensure_eq_ok, pure_eq_ok, exists_const, Except.ok.injEq,
      exists_eq_left'] at h
    obtain ⟨hp, rfl⟩ := h
    exact ⟨rfl, h₂, hp⟩
  · simp at h

theorem fromCompressed_of_fromAid {aid : Aid} (h : fromAid P aid = .ok key) :
    fromCompressed P aid.pubkeyCompressedBytes = .ok key := by
  obtain ⟨rfl, hp⟩ := fromAid_eq_ok.mp h
  have hl := aid.pubkeyCompressedBytes_spec.1
  unfold fromCompressed
  cases ha : aid.algorithm with
  | ed25519 =>
    rw [ha] at hl hp
    simp [hl, compressedLen, ensure, hp]
  | p256 =>
    rw [ha] at hl hp
    simp [hl, compressedLen, ensure, hp]

theorem fromAid_of_bytes {aid : Aid} (hk : fromCompressed P key.bytes = .ok key)
    (hb : key.bytes = aid.pubkeyCompressedBytes) : fromAid P aid = .ok key := by
  obtain ⟨-, hl, hp⟩ := fromCompressed_ok hk
  have ha : aid.algorithm = key.algorithm := by
    have hl' := aid.pubkeyCompressedBytes_spec.1
    rw [← hb, hl] at hl'
    cases h : aid.algorithm <;> cases h' : key.algorithm <;> simp_all [compressedLen]
  rw [hb] at hp
  refine fromAid_eq_ok.mpr ⟨?_, by rw [ha, hp]⟩
  rw [ha, ← hb]

end VerifyingKey

end Aitp
