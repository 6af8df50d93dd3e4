import Aitp.Foundation.Base64Url
import Aitp.Foundation.Hex
import Aitp.Foundation.Result

/-! # Agent and message identifiers

`core/aid.rs`, `core/ids.rs` and `core/base64url.rs`: agent identifiers in their
three spellings, UUIDs in the strict version 4 wire form, and the strict
base64url decoder.
-/

namespace Aitp

def decodeStrict (s : String) : Option Bytes :=
  if '=' ∈ s.toList then none else Base64Url.decodeChars s.toList

def decodeStrictExact (n : ℕ) (s : String) : Option Bytes :=
  (decodeStrict s).filter fun bs => bs.length = n

/-- `base64url::encode`. -/
def encodeBase64Url (bs : Bytes) : String :=
  String.ofList (Base64Url.encodeChars bs)

theorem decodeChars_of_decodeStrict {s : String} {bs : Bytes} (h : decodeStrict s = some bs) :
    Base64Url.decodeChars s.toList = some bs := by
  unfold decodeStrict at h
  split_ifs at h
  exact h

theorem decodeStrict_injective {s t : String} {bs : Bytes} (hs : decodeStrict s = some bs)
    (ht : decodeStrict t = some bs) : s = t := by
  have hs' := Base64Url.encodeChars_of_decodeChars (decodeChars_of_decodeStrict hs)
  have ht' := Base64Url.encodeChars_of_decodeChars (decodeChars_of_decodeStrict ht)
  exact String.toList_injective (hs'.symm.trans ht')

@[simp] theorem decodeStrict_encodeBase64Url (bs : Bytes) :
    decodeStrict (encodeBase64Url bs) = some bs := by
  have hp : '=' ∉ Base64Url.encodeChars bs := fun h =>
    absurd (Base64Url.isBase64Url_of_mem_encodeChars h) (by decide)
  simp [decodeStrict, encodeBase64Url, hp]

/-! ## Agent identifiers -/

inductive AidAlgorithm where
  | ed25519
  | p256
  deriving DecidableEq

def aidPubkeyPrefix : String := "aid:pubkey:"

def aidPubkeyEd25519Prefix : String := "aid:pubkey:ed25519:"

def aidPubkeyP256Prefix : String := "aid:pubkey:p256:"

def aidPubkeyIdentifierLen : ℕ := 43

def aidP256IdentifierLen : ℕ := 44

def validateEd25519Identifier (identifier : String) : Bool :=
  identifier.length == aidPubkeyIdentifierLen &&
    identifier.toList.all Base64Url.isBase64Url &&
    (Base64Url.decodeChars identifier.toList).isSome

def validateP256Identifier (identifier : String) : Bool :=
  identifier.length == aidP256IdentifierLen &&
    identifier.toList.all Base64Url.isBase64Url &&
    match Base64Url.decodeChars identifier.toList with
    | some (b :: _) => b == 2 || b == 3
    | _ => false

/-- What `Aid::parse` accepts. -/
def Aid.isValid (s : String) : Bool :=
  match stripPrefix aidPubkeyEd25519Prefix s with
  | some identifier => validateEd25519Identifier identifier
  | none =>
    match stripPrefix aidPubkeyP256Prefix s with
    | some identifier => validateP256Identifier identifier
    | none =>
      match stripPrefix aidPubkeyPrefix s with
      | some identifier =>
        if ':' ∈ identifier.toList then false else validateEd25519Identifier identifier
      | none => false

/-- A validated agent identifier. -/
structure Aid where
  value : String
  valid : Aid.isValid value = true
  deriving DecidableEq

namespace Aid

def parse (s : String) : Option Aid :=
  if h : isValid s = true then some ⟨s, h⟩ else none

def algorithm (a : Aid) : AidAlgorithm :=
  if (stripPrefix aidPubkeyP256Prefix a.value).isSome then .p256 else .ed25519

def identifier (a : Aid) : String :=
  match stripPrefix aidPubkeyEd25519Prefix a.value with
  | some identifier => identifier
  | none =>
    match stripPrefix aidPubkeyP256Prefix a.value with
    | some identifier => identifier
    | none => String.ofList (a.value.toList.drop aidPubkeyPrefix.toList.length)

def pubkeyCompressedBytes (a : Aid) : Bytes :=
  (Base64Url.decodeChars a.identifier.toList).getD []

@[ext] theorem ext {a b : Aid} (h : a.value = b.value) : a = b := by
  cases a
  cases b
  simpa using h

theorem parse_eq_some {s : String} {a : Aid} (h : parse s = some a) : a.value = s := by
  unfold parse at h
  split_ifs at h
  rw [← Option.some.inj h]

@[simp] theorem parse_value (a : Aid) : parse a.value = some a := by
  simp [parse, a.valid]

end Aid

/-! ## Version 4 UUIDs -/

/-- Whether position `i` of the hyphenated form holds a hyphen. -/
def hyphenAt (i : ℕ) : Bool :=
  i == 8 || i == 13 || i == 18 || i == 23

/-- The nibbles written by the last `k` characters of the hyphenated form. -/
def readNibbles : ℕ → List Char → Option (List ℕ)
  | 0, [] => some []
  | k + 1, c :: cs =>
    if hyphenAt (35 - k) then
      if c = '-' then readNibbles k cs else none
    else do
      let n ← hexValue c
      let ns ← readNibbles k cs
      return n :: ns
  | _, _ => none

/-- The last `k` characters of the hyphenated form. -/
def writeNibbles : ℕ → List ℕ → List Char
  | 0, _ => []
  | k + 1, ns =>
    if hyphenAt (35 - k) then '-' :: writeNibbles k ns
    else
      match ns with
      | [] => []
      | n :: ns => hexDigit n :: writeNibbles k ns

/-- The number of nibbles among the last `k` characters. -/
def nibbleCount : ℕ → ℕ
  | 0 => 0
  | k + 1 => if hyphenAt (35 - k) then nibbleCount k else nibbleCount k + 1

theorem writeNibbles_of_readNibbles {k : ℕ} {cs : List Char} {ns : List ℕ}
    (h : readNibbles k cs = some ns) :
    writeNibbles k ns = cs ∧ ns.length = nibbleCount k ∧ ∀ n ∈ ns, n < 16 := by
  induction k generalizing cs ns with
  | zero => cases cs <;> simp_all [readNibbles, writeNibbles, nibbleCount]
  | succ k ih =>
    cases cs with
    | nil => simp [readNibbles] at h
    | cons c cs =>
      simp only [readNibbles] at h
      split_ifs at h with hh hc
      · obtain ⟨hw, hl, hn⟩ := ih h
        simp [writeNibbles, nibbleCount, hh, hw, hl, hc]
        exact hn
      · simp only [Option.bind_eq_bind, Option.bind_eq_some_iff, Option.pure_def,
          Option.some.injEq] at h
        obtain ⟨n, hv, ns, hr, rfl⟩ := h
        obtain ⟨hw, hl, hn⟩ := ih hr
        obtain ⟨hlt, hd⟩ := hexDigit_of_hexValue hv
        simp only [writeNibbles, hh, nibbleCount, hw, hl, hd, List.length_cons]
        refine ⟨by simp, by simp, ?_⟩
        simpa using ⟨hlt, hn⟩

theorem readNibbles_writeNibbles {k : ℕ} {ns : List ℕ} (hl : ns.length = nibbleCount k)
    (hn : ∀ n ∈ ns, n < 16) : readNibbles k (writeNibbles k ns) = some ns := by
  induction k generalizing ns with
  | zero =>
    obtain rfl := List.length_eq_zero_iff.mp hl
    rfl
  | succ k ih =>
    simp only [nibbleCount] at hl
    simp only [writeNibbles]
    split_ifs at hl ⊢ with hh
    · simp [readNibbles, hh, ih hl hn]
    · cases ns with
      | nil => simp at hl
      | cons n ns =>
        simp only [List.length_cons, Nat.add_right_cancel_iff] at hl
        simp [readNibbles, hh, hexValue_hexDigit n (hn n (by simp)),
          ih hl fun m hm => hn m (by simp [hm])]

inductive V4Error where
  | format
  | version
  | variant
  deriving DecidableEq

/-- A UUID, as its 32 nibbles. -/
structure Uuid where
  nibbles : List ℕ
  length_eq : nibbles.length = 32
  hex : ∀ n ∈ nibbles, n < 16
  deriving DecidableEq

namespace Uuid

def hyphenated (u : Uuid) : String :=
  String.ofList (writeNibbles 36 u.nibbles)

def checkV4 (u : Uuid) : Except V4Error Unit := do
  ensure (u.nibbles[12]? == some 4) .version
  ensure ((u.nibbles[16]?).any fun n => decide (8 ≤ n ∧ n ≤ 11)) .variant

/-- The UUID a lowercase hyphenated string denotes. -/
def parse (s : String) : Option Uuid :=
  match h : readNibbles 36 s.toList with
  | some ns =>
    some ⟨ns, (writeNibbles_of_readNibbles h).2.1, (writeNibbles_of_readNibbles h).2.2⟩
  | none => none

def parseV4 (s : String) : Except V4Error Uuid := do
  let u ← okOr (parse s) .format
  checkV4 u
  return u

/-- The hyphenated form of the 32 digits of the simple form. -/
def hyphenate (cs : List Char) : List Char :=
  cs.take 8 ++ '-' :: (cs.drop 8).take 4 ++ '-' :: (cs.drop 12).take 4 ++
    '-' :: (cs.drop 16).take 4 ++ '-' :: cs.drop 20

/-- `Uuid::try_parse`, in any case: hyphenated, simple, braced or as a URN. -/
def tryParse (s : String) : Option Uuid :=
  let cs := s.toList
  let ofText (cs : List Char) := parse (String.ofList (cs.map Char.toLower))
  match cs.length with
  | 32 => ofText (hyphenate cs)
  | 36 => ofText cs
  | 38 => if cs.head? = some '\x7b' ∧ cs.getLast? = some '\x7d' then ofText ((cs.drop 1).take 36)
    else none
  | 45 => (stripPrefix "urn:uuid:" s).bind fun t => ofText t.toList
  | _ => none

theorem hyphenated_of_parse {s : String} {u : Uuid} (h : parse s = some u) :
    u.hyphenated = s := by
  unfold parse at h
  split at h
  · next ns hr =>
    obtain rfl := Option.some.inj h
    apply String.toList_injective
    simpa [hyphenated] using (writeNibbles_of_readNibbles hr).1
  · simp at h

theorem parse_hyphenated (u : Uuid) : parse u.hyphenated = some u := by
  have hr : readNibbles 36 u.hyphenated.toList = some u.nibbles := by
    rw [hyphenated, String.toList_ofList]
    exact readNibbles_writeNibbles u.length_eq u.hex
  unfold parse
  split
  · next ns h =>
    obtain rfl := Option.some.inj (hr.symm.trans h)
    rfl
  · next h => simp [hr] at h

theorem parseV4_ok {s : String} {u : Uuid} (h : parseV4 s = .ok u) :
    u.hyphenated = s ∧ u.checkV4 = .ok () := by
  simp only [parseV4, bind_eq_ok, okOr_eq_ok, pure_eq_ok] at h
  obtain ⟨v, hv, _, hc, rfl⟩ := h
  exact ⟨hyphenated_of_parse hv, hc⟩

theorem parseV4_hyphenated {u : Uuid} (h : u.checkV4 = .ok ()) :
    parseV4 u.hyphenated = .ok u := by
  simp [parseV4, parse_hyphenated, h]

theorem length_hyphenated (u : Uuid) : u.hyphenated.toList.length = 36 := by
  have hl : ∀ k, ∀ ns : List ℕ, ns.length = nibbleCount k → (writeNibbles k ns).length = k := by
    intro k
    induction k with
    | zero => simp [writeNibbles]
    | succ k ih =>
      intro ns hn
      simp only [nibbleCount] at hn
      simp only [writeNibbles]
      split_ifs at hn ⊢ with hh
      · simp [ih ns hn]
      · cases ns with
        | nil => simp at hn
        | cons n ns => simp [ih ns (by simpa using hn)]
  rw [hyphenated, String.toList_ofList]
  exact hl 36 u.nibbles (by rw [u.length_eq]; decide)

theorem toLower_writeNibbles {ns : List ℕ} (hn : ∀ n ∈ ns, n < 16) (k : ℕ) :
    (writeNibbles k ns).map Char.toLower = writeNibbles k ns := by
  have hd : ∀ n < 16, (hexDigit n).toLower = hexDigit n := by decide
  induction k generalizing ns with
  | zero => rfl
  | succ k ih =>
    simp only [writeNibbles]
    split_ifs with hh
    · simp [ih hn]
    · cases ns with
      | nil => rfl
      | cons n ns =>
        rw [List.map_cons, hd n (hn n (by simp)), ih fun m hm => hn m (by simp [hm])]

theorem tryParse_hyphenated (u : Uuid) : tryParse u.hyphenated = some u := by
  have hl : (u.hyphenated.toList).map Char.toLower = u.hyphenated.toList := by
    rw [hyphenated, String.toList_ofList]
    exact toLower_writeNibbles u.hex 36
  simp only [tryParse, length_hyphenated, hl, String.ofList_toList, parse_hyphenated]

theorem hyphenated_injective {u v : Uuid} (h : u.hyphenated = v.hyphenated) : u = v := by
  have hu := parse_hyphenated u
  rw [h, parse_hyphenated] at hu
  exact (Option.some.inj hu).symm

def fromBytes (b : Fin 16 → UInt8) : Uuid where
  nibbles := (List.ofFn b).flatMap fun x => [x.toNat / 16, x.toNat % 16]
  length_eq := by simp
  hex := by
    simp only [List.mem_flatMap, List.mem_cons, List.not_mem_nil, or_false]
    rintro n ⟨x, -, rfl | rfl⟩
    · have hx := x.toNat_lt
      omega
    · exact Nat.mod_lt _ (by decide)

end Uuid

/-! ## Drawn and derived identifiers -/

/-- A `random_v4` identifier. -/
structure RandomV4 where
  id : Uuid
  layout : id.checkV4 = .ok ()

def derivedV4Preimage (tag : String) (input : Bytes) : Option Bytes :=
  if tag = "" ∨ ¬ (asBytes tag).all (fun c => 0x21 ≤ c && c ≤ 0x7e) then none
  else some (asBytes tag ++ 0 :: input)

/-- The bytes of an identifier are indexed by literals. -/
instance neZero_sixteen : @NeZero ℕ Zero.ofOfNat0 16 := ⟨by decide⟩

/-- `derived_v4`, over a hash of at least sixteen bytes. -/
def derivedV4 (sha256 : Bytes → Bytes) (tag : String) (input : Bytes) : Option Uuid :=
  (derivedV4Preimage tag input).map fun preimage =>
    let h (i : ℕ) : UInt8 := (sha256 preimage).getD i 0
    Uuid.fromBytes fun i =>
      if i = 6 then (h 6 &&& 0x0f) ||| 0x40
      else if i = 8 then (h 8 &&& 0x3f) ||| 0x80
      else h i

theorem checkV4_derivedV4 {sha256 : Bytes → Bytes} {tag : String} {input : Bytes} {u : Uuid}
    (h : derivedV4 sha256 tag input = some u) : u.checkV4 = .ok () := by
  have hv : ∀ n < 256, ((n &&& 15) ||| 64) / 16 = 4 := by decide +kernel
  have hr : ∀ n < 256, 8 ≤ ((n &&& 63) ||| 128) / 16 ∧ ((n &&& 63) ||| 128) / 16 ≤ 11 := by
    decide +kernel
  obtain ⟨pre, -, rfl⟩ := Option.map_eq_some_iff.mp h
  have h6 := hv _ ((sha256 pre).getD 6 0).toNat_lt
  have h8 := hr _ ((sha256 pre).getD 8 0).toNat_lt
  simp only [Uuid.checkV4, Uuid.fromBytes, List.ofFn_succ]
  simpa [ensure] using ⟨h6, h8⟩

end Aitp
