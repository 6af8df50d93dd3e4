import Aitp.Crypto.RoundTrip
import Aitp.Crypto.Spelling
import Aitp.Foundation.Ascii

/-! # Constructors of agent identifiers

`Aid` in `core/aid.rs` as it is in memory: a text that `parse` and deserialisation check and that
`from_ed25519`, `from_ed25519_tagged` and `from_p256` write from the bytes of a key. Every value is
one of the spellings of some bytes; which of them `parse` reads back depends on the first byte of a
P-256 point.
-/

namespace Aitp

/-- `&s[n..]` on the characters of a text: `none` is the panic of an index that is no boundary. -/
def sliceFrom : ℕ → List Char → Option (List Char)
  | 0, cs => some cs
  | _ + 1, [] => none
  | n + 1, c :: cs => if c.utf8Size ≤ n + 1 then sliceFrom (n + 1 - c.utf8Size) cs else none

/-- `Base64UrlUnpadded::decode` into a buffer of `n` zero bytes. -/
def decodeInto (n : ℕ) (s : String) : Option Bytes := do
  let bs ← Base64Url.decodeChars s.toList
  if bs.length ≤ n then some (bs ++ List.replicate (n - bs.length) 0) else none

/-- An `Aid` as it is in memory. -/
structure RawAid where
  value : String
  deriving DecidableEq

/-- A byte array of a fixed length. -/
abbrev Octets (n : ℕ) := { bs : Bytes // bs.length = n }

namespace RawAid

def parse (s : String) : Option RawAid :=
  if Aid.isValid s then some ⟨s⟩ else none

/-- A constructor: the text of a spelling of some bytes. -/
def ofBytes (form : Spelling) (bs : Bytes) : RawAid := ⟨form.head ++ encodeBase64Url bs⟩

def fromEd25519 (pubkey : Octets 32) : RawAid := ofBytes .untagged pubkey.val

def fromEd25519Tagged (pubkey : Octets 32) : RawAid := ofBytes .ed25519 pubkey.val

def fromP256 (compressedPoint : Octets 33) : RawAid := ofBytes .p256 compressedPoint.val

/-- `Serialize for Aid`. -/
def serialize (a : RawAid) : Json := .str a.value

/-- `Deserialize for Aid`. -/
def deserialize (v : Json) : Option RawAid := v.asStr.bind parse

variable (a : RawAid)

def algorithm : AidAlgorithm :=
  if (stripPrefix aidPubkeyP256Prefix a.value).isSome then .p256 else .ed25519

/-- `Aid::identifier`: `none` is the panic of the slice. -/
def identifier : Option String :=
  match stripPrefix aidPubkeyEd25519Prefix a.value with
  | some identifier => some identifier
  | none =>
    match stripPrefix aidPubkeyP256Prefix a.value with
    | some identifier => some identifier
    | none => (sliceFrom (asBytes aidPubkeyPrefix).length a.value.toList).map String.ofList

/-- `Aid::pubkey_compressed_bytes`, by way of `try_to_ed25519_bytes` and `try_to_p256_bytes`:
`none` is the panic of an `expect`. -/
def pubkeyCompressedBytes : Option Bytes := do
  let identifier ← a.identifier
  decodeInto (compressedLen a.algorithm) identifier

/-- The form of a value, by what it starts with. -/
def form : Spelling :=
  if (stripPrefix aidPubkeyEd25519Prefix a.value).isSome then .ed25519
  else if (stripPrefix aidPubkeyP256Prefix a.value).isSome then .p256
  else .untagged

/-- What holding an `Aid` is said to prove: its text is accepted and read back as the value, no
accessor panics, and the constructor of its form makes it again of the bytes of its key. -/
structure Sound : Prop where
  parses : parse a.value = some a
  deserializes : deserialize a.serialize = some a
  identifies : a.identifier.isSome = true
  decodes : a.pubkeyCompressedBytes.isSome = true
  rebuilds : a.pubkeyCompressedBytes.map (ofBytes a.form) = some a

/-- A call of one of the constructors. -/
inductive Construction where
  | parse (s : String)
  | fromEd25519 (pubkey : Octets 32)
  | fromEd25519Tagged (pubkey : Octets 32)
  | fromP256 (compressedPoint : Octets 33)
  | deserialize (v : Json)

namespace Construction

/-- The value a call makes. -/
def run : Construction → Option RawAid
  | parse s => RawAid.parse s
  | fromEd25519 pubkey => some (RawAid.fromEd25519 pubkey)
  | fromEd25519Tagged pubkey => some (RawAid.fromEd25519Tagged pubkey)
  | fromP256 compressedPoint => some (RawAid.fromP256 compressedPoint)
  | deserialize v => RawAid.deserialize v

/-- The bytes given to `from_p256` start like a compressed point. -/
def PointTagged : Construction → Prop
  | fromP256 compressedPoint =>
    compressedPoint.val.head? = some 2 ∨ compressedPoint.val.head? = some 3
  | _ => True

/-- Whatever a call makes is sound. -/
def Sound (c : Construction) : Prop := ∀ a, c.run = some a → a.Sound

end Construction

/-! ## Values as spellings of bytes -/

theorem sliceFrom_append {cs ds : List Char} (h : IsAscii cs) :
    sliceFrom cs.length (cs ++ ds) = some ds := by
  induction cs with
  | nil => cases ds <;> rfl
  | cons c cs ih =>
    have hc : c.utf8Size = 1 := by
      have hl := congrArg List.length (utf8EncodeChar_ascii (h c List.mem_cons_self))
      rwa [String.length_utf8EncodeChar] at hl
    rw [List.length_cons, List.cons_append, sliceFrom, if_pos (by omega), hc, Nat.add_sub_cancel]
    exact ih fun d hd => h d (List.mem_cons_of_mem _ hd)

theorem colon_notMem_encode (bs : Bytes) : ':' ∉ (encodeBase64Url bs).toList :=
  Signature.notMem_encodeBase64Url (by decide) bs

theorem length_encode (bs : Bytes) : (encodeBase64Url bs).length = (8 * bs.length + 5) / 6 := by
  rw [encodeBase64Url, String.length_ofList]
  exact Base64Url.length_of_decodeChars (Base64Url.decodeChars_encodeChars bs)

theorem decodeChars_encode (bs : Bytes) :
    Base64Url.decodeChars (encodeBase64Url bs).toList = some bs := by
  rw [encodeBase64Url, String.toList_ofList, Base64Url.decodeChars_encodeChars]

/-- A tag is found where it was written, and nowhere else. -/
theorem stripPrefix_head (form : Spelling) (bs : Bytes) :
    stripPrefix aidPubkeyEd25519Prefix (ofBytes form bs).value =
        (if form = .ed25519 then some (encodeBase64Url bs) else none) ∧
      stripPrefix aidPubkeyP256Prefix (ofBytes form bs).value =
        if form = .p256 then some (encodeBase64Url bs) else none := by
  have hc := colon_notMem_encode bs
  have hn : ∀ tag : String, ':' ∈ tag.toList →
      stripPrefix (aidPubkeyPrefix ++ tag) (aidPubkeyPrefix ++ encodeBase64Url bs) = none := by
    intro tag ht
    rw [Option.eq_none_iff_forall_ne_some]
    intro t hs
    have he := congrArg String.toList (eq_append_of_stripPrefix hs)
    rw [String.toList_append, String.toList_append, String.toList_append, List.append_assoc,
      List.append_cancel_left_eq] at he
    exact hc (he ▸ List.mem_append_left _ ht)
  cases form with
  | untagged => exact ⟨hn "ed25519:" (by decide), hn "p256:" (by decide)⟩
  | ed25519 =>
    have hs : stripPrefix aidPubkeyEd25519Prefix (ofBytes .ed25519 bs).value =
        some (encodeBase64Url bs) := stripPrefix_append _ _
    exact ⟨hs, Aid.stripPrefix_p256_of_ed25519 hs⟩
  | p256 =>
    have hs : stripPrefix aidPubkeyP256Prefix (ofBytes .p256 bs).value =
        some (encodeBase64Url bs) := stripPrefix_append _ _
    refine ⟨?_, hs⟩
    rw [if_neg (by decide), Option.eq_none_iff_forall_ne_some]
    intro t ht
    rw [Aid.stripPrefix_p256_of_ed25519 ht] at hs
    cases hs

variable {form : Spelling} {bs : Bytes}

@[simp] theorem algorithm_ofBytes : (ofBytes form bs).algorithm = form.algorithm := by
  rw [algorithm, (stripPrefix_head form bs).2]
  cases form <;> rfl

@[simp] theorem form_ofBytes : (ofBytes form bs).form = form := by
  rw [RawAid.form, (stripPrefix_head form bs).1, (stripPrefix_head form bs).2]
  cases form <;> rfl

@[simp] theorem identifier_ofBytes :
    (ofBytes form bs).identifier = some (encodeBase64Url bs) := by
  rw [identifier, (stripPrefix_head form bs).1, (stripPrefix_head form bs).2]
  cases form with
  | untagged =>
    have hl : (asBytes aidPubkeyPrefix).length = aidPubkeyPrefix.toList.length := by decide
    have ha : IsAscii aidPubkeyPrefix.toList := isAscii_of_all (by decide)
    have hv : (ofBytes .untagged bs).value.toList =
        aidPubkeyPrefix.toList ++ (encodeBase64Url bs).toList := String.toList_append
    simp only [reduceCtorEq, if_false, hl, hv, sliceFrom_append ha, Option.map_some,
      String.ofList_toList]
  | ed25519 => rfl
  | p256 => rfl

theorem pubkeyCompressedBytes_ofBytes (hl : bs.length = compressedLen form.algorithm) :
    (ofBytes form bs).pubkeyCompressedBytes = some bs := by
  simp [pubkeyCompressedBytes, decodeInto, decodeChars_encode, ← hl]

/-- `parse` asks of the bytes only that a P-256 point starts with its tag. -/
theorem isValid_ofBytes (hl : bs.length = compressedLen form.algorithm) :
    Aid.isValid (ofBytes form bs).value = true ↔
      (form = .p256 → bs.head? = some 2 ∨ bs.head? = some 3) := by
  have he : form.algorithm = .ed25519 → validateEd25519Identifier (encodeBase64Url bs) = true := by
    intro ha
    rw [ha] at hl
    simp [validateEd25519Identifier, length_encode, hl, compressedLen, aidPubkeyIdentifierLen,
      Signature.all_isBase64Url_encodeBase64Url, decodeChars_encode]
  cases form with
  | untagged =>
    have hs : stripPrefix aidPubkeyPrefix (ofBytes .untagged bs).value =
        some (encodeBase64Url bs) := stripPrefix_append _ _
    simp [Aid.isValid, stripPrefix_head, hs, colon_notMem_encode, he rfl]
  | ed25519 => simp [Aid.isValid, stripPrefix_head, he rfl]
  | p256 =>
    obtain ⟨b, cs, rfl⟩ := List.exists_cons_of_length_pos (l := bs) (by rw [hl]; decide)
    have hc : cs.length + 1 = 33 := hl
    simp [Aid.isValid, stripPrefix_head, validateP256Identifier, length_encode, hc,
      aidP256IdentifierLen, Signature.all_isBase64Url_encodeBase64Url, decodeChars_encode]

/-- A text that `parse` accepts is a spelling of a key. -/
theorem exists_ofBytes {s : String} (h : Aid.isValid s = true) :
    ∃ form bs, bs.length = compressedLen (Spelling.algorithm form) ∧
      (⟨s⟩ : RawAid) = ofBytes form bs := by
  obtain ⟨form, hv, ha, hd, -⟩ := Aid.exists_spelling ⟨s, h⟩
  obtain ⟨bs, hb⟩ := Option.isSome_iff_exists.mp hd
  have hl := (Aid.pubkeyCompressedBytes_spec ⟨s, h⟩).1
  rw [Aid.pubkeyCompressedBytes, hb, Option.getD_some, ha] at hl
  have hi : encodeBase64Url bs = Aid.identifier ⟨s, h⟩ := by
    rw [encodeBase64Url, Base64Url.encodeChars_of_decodeChars hb, String.ofList_toList]
  exact ⟨form, bs, hl, congrArg RawAid.mk (hv.trans (by rw [hi]))⟩

/-- A spelling of bytes is sound exactly when `parse` accepts it. -/
theorem sound_ofBytes (hl : bs.length = compressedLen form.algorithm) :
    (ofBytes form bs).Sound ↔ (form = .p256 → bs.head? = some 2 ∨ bs.head? = some 3) := by
  rw [← isValid_ofBytes hl]
  constructor
  · intro h
    have hp := h.parses
    unfold parse at hp
    split_ifs at hp with hv
    exact hv
  · intro hv
    have hp : parse (ofBytes form bs).value = some (ofBytes form bs) := if_pos hv
    exact
      { parses := hp
        deserializes := hp
        identifies := by rw [identifier_ofBytes, Option.isSome_some]
        decodes := by rw [pubkeyCompressedBytes_ofBytes hl, Option.isSome_some]
        rebuilds := by rw [pubkeyCompressedBytes_ofBytes hl, form_ofBytes, Option.map_some] }

namespace Construction

theorem sound_parse (s : String) : (parse s).Sound := by
  intro a h
  simp only [run, RawAid.parse] at h
  split_ifs at h with hv
  obtain rfl := Option.some.inj h
  obtain ⟨form, bs, hl, he⟩ := exists_ofBytes hv
  have hb := congrArg RawAid.value he
  rw [he, sound_ofBytes hl, ← isValid_ofBytes hl, ← hb]
  exact hv

theorem sound_ofBytes_iff {c : Construction} {form : Spelling} {bs : Bytes}
    (hc : c.run = some (ofBytes form bs)) (hl : bs.length = compressedLen form.algorithm) :
    c.Sound ↔ (form = .p256 → bs.head? = some 2 ∨ bs.head? = some 3) := by
  rw [← sound_ofBytes hl]
  constructor
  · exact fun h => h _ hc
  · intro h a ha
    rw [hc] at ha
    exact Option.some.inj ha ▸ h

/-- Every value is sound but those that `from_p256` makes of bytes that are no compressed point. -/
theorem sound_iff (c : Construction) : c.Sound ↔ c.PointTagged := by
  cases c with
  | parse s => exact iff_of_true (sound_parse s) trivial
  | fromEd25519 pubkey =>
    exact (sound_ofBytes_iff rfl pubkey.property).trans (iff_of_true (by simp) trivial)
  | fromEd25519Tagged pubkey =>
    exact (sound_ofBytes_iff rfl pubkey.property).trans (iff_of_true (by simp) trivial)
  | fromP256 compressedPoint =>
    exact (sound_ofBytes_iff rfl compressedPoint.property).trans (by simp [PointTagged])
  | deserialize v =>
    refine iff_of_true ?_ trivial
    intro a h
    obtain ⟨s, -, hs⟩ := Option.bind_eq_some_iff.mp h
    exact sound_parse s a hs

theorem exists_ofBytes_of_parse {s : String} {a : RawAid} (h : RawAid.parse s = some a) :
    ∃ form bs, bs.length = compressedLen (Spelling.algorithm form) ∧ a = ofBytes form bs := by
  unfold RawAid.parse at h
  split_ifs at h with hv
  obtain rfl := Option.some.inj h
  exact exists_ofBytes hv

theorem exists_ofBytes_of_run {c : Construction} {a : RawAid} (h : c.run = some a) :
    ∃ form bs, bs.length = compressedLen (Spelling.algorithm form) ∧ a = ofBytes form bs := by
  cases c with
  | parse s => exact exists_ofBytes_of_parse h
  | fromEd25519 pubkey => exact ⟨.untagged, _, pubkey.property, (Option.some.inj h).symm⟩
  | fromEd25519Tagged pubkey => exact ⟨.ed25519, _, pubkey.property, (Option.some.inj h).symm⟩
  | fromP256 point => exact ⟨.p256, _, point.property, (Option.some.inj h).symm⟩
  | deserialize v =>
    obtain ⟨s, -, hs⟩ := Option.bind_eq_some_iff.mp h
    exact exists_ofBytes_of_parse hs

theorem accessors_of_run {c : Construction} {a : RawAid} (h : c.run = some a) :
    a.identifier.isSome = true ∧ ∃ bs, a.pubkeyCompressedBytes = some bs ∧
      bs.length = compressedLen a.algorithm ∧ ofBytes a.form bs = a := by
  obtain ⟨form, bs, hl, rfl⟩ := exists_ofBytes_of_run h
  refine ⟨?_, bs, pubkeyCompressedBytes_ofBytes hl, ?_, ?_⟩
  · rw [identifier_ofBytes, Option.isSome_some]
  · rw [algorithm_ofBytes]
    exact hl
  · rw [form_ofBytes]

/-- Zero bytes are no compressed point: `parse` refuses the text they are made into. -/
theorem fromP256_zero : ¬ (fromP256 ⟨List.replicate 33 0, rfl⟩).Sound := by
  rw [sound_ofBytes_iff rfl rfl]
  decide

end Construction

end RawAid

end Aitp
