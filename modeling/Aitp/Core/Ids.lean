import Aitp.Core.Identifiers
import Aitp.Foundation.Ascii
import Aitp.Foundation.Separated

/-! # The version 4 wire form

`core/ids.rs` over the octets of a text and of an identifier. The UUID parser reads more forms
than one, so the shape of the text is tested before it is read. The parser is a parameter that
reads the form it is used for.
-/

namespace Aitp

inductive Variant where
  | ncs
  | rfc4122
  | microsoft
  | future
  deriving DecidableEq

namespace Uuid

/-- An octet of `Uuid::as_bytes`. -/
def octet (u : Uuid) (i : ℕ) : UInt8 :=
  UInt8.ofNat (u.nibbles.getD (2 * i) 0 * 16 + u.nibbles.getD (2 * i + 1) 0)

def getVersionNum (u : Uuid) : ℕ :=
  (u.octet 6 >>> 4).toNat

def getVariant (u : Uuid) : Variant :=
  let x := u.octet 8
  if x &&& 0x80 = 0x00 then .ncs
  else if x &&& 0xc0 = 0x80 then .rfc4122
  else if x &&& 0xe0 = 0xc0 then .microsoft
  else .future

/-- Version 4 and the variant of RFC 9562: the first four bits of an octet and the first two of
another. -/
def HasV4Layout (u : Uuid) : Prop :=
  (u.octet 6).toNat / 16 = 4 ∧ (u.octet 8).toNat / 64 = 2

theorem nibbles_of_octet (u : Uuid) {i : ℕ} (hi : i < 16) :
    u.nibbles[2 * i]? = some ((u.octet i).toNat / 16) ∧
      u.nibbles[2 * i + 1]? = some ((u.octet i).toNat % 16) := by
  have h₀ : 2 * i < u.nibbles.length := by
    rw [u.length_eq]
    omega
  have h₁ : 2 * i + 1 < u.nibbles.length := by
    rw [u.length_eq]
    omega
  have hx := u.hex _ (List.getElem_mem h₀)
  have hy := u.hex _ (List.getElem_mem h₁)
  have ho : (u.octet i).toNat = u.nibbles[2 * i] * 16 + u.nibbles[2 * i + 1] := by
    rw [Uuid.octet, List.getD_eq_getElem?_getD, List.getElem?_eq_getElem h₀,
      List.getD_eq_getElem?_getD, List.getElem?_eq_getElem h₁, UInt8.toNat_ofNat']
    exact Nat.mod_eq_of_lt (by simp only [Option.getD_some]; omega)
  rw [ho, List.getElem?_eq_getElem h₀, List.getElem?_eq_getElem h₁]
  constructor
  · congr 1
    omega
  · congr 1
    omega

end Uuid

namespace Ids

def isV4 (id : Uuid) : Bool :=
  id.getVersionNum == 4 && id.getVariant == .rfc4122

def checkV4 (id : Uuid) : Except V4Error Unit :=
  if id.getVersionNum ≠ 4 then .error .version
  else if id.getVariant ≠ .rfc4122 then .error .variant
  else .ok ()

/-- What `parse_v4` asks of the octet at a position. -/
def shapeAt (i : ℕ) (c : UInt8) : Bool :=
  match i with
  | 8 | 13 | 18 | 23 => c == 45
  | _ => (48 ≤ c && c ≤ 57) || (97 ≤ c && c ≤ 102)

/-- The shape that `parse_v4` asks of a text. -/
def shapeOk (b : Bytes) : Bool :=
  b.length == 36 && b.zipIdx.all fun p => shapeAt p.2 p.1

/-- `parse_v4`, over the parser of UUIDs. -/
def parseV4 (parseStr : String → Option Uuid) (s : String) : Except V4Error Uuid := do
  ensure (shapeOk (asBytes s)) .format
  let id ← okOr (parseStr s) .format
  checkV4 id
  return id

/-! ## The shape of a text -/

theorem shapeAt_eq (i : ℕ) (c : UInt8) : shapeAt i c =
    if hyphenAt i then c == 45 else (48 ≤ c && c ≤ 57) || (97 ≤ c && c ≤ 102) := by
  unfold shapeAt
  split
  case h_5 h₁ h₂ h₃ h₄ =>
    have hn : hyphenAt i = false := by
      simp only [hyphenAt, Bool.or_eq_false_iff, beq_eq_false_iff_ne]
      exact ⟨⟨⟨h₁, h₂⟩, h₃⟩, h₄⟩
    rw [hn]
    rfl
  all_goals rfl

theorem lt_of_shapeAt {i : ℕ} {c : UInt8} (h : shapeAt i c = true) : c.toNat < 128 := by
  rw [shapeAt_eq] at h
  simp only [UInt8.le_iff_toNat_le] at h
  split_ifs at h
  · obtain rfl := eq_of_beq h
    decide
  · simp at h
    omega

theorem hexValue_ascii : ∀ m < 128,
    ((48 ≤ UInt8.ofNat m && UInt8.ofNat m ≤ 57) || (97 ≤ UInt8.ofNat m && UInt8.ofNat m ≤ 102)) =
        (hexValue (Char.ofNat m)).isSome ∧
      (UInt8.ofNat m == 45) = (Char.ofNat m == '-') := by
  decide +kernel

theorem shapeAt_ascii (i : ℕ) {c : Char} (h : c.toNat < 128) :
    shapeAt i (UInt8.ofNat c.toNat) =
      if hyphenAt i then c == '-' else (hexValue c).isSome := by
  have hc := hexValue_ascii c.toNat h
  rw [Char.ofNat_toNat] at hc
  rw [shapeAt_eq, hc.1, hc.2]

theorem isSome_readNibbles {cs : List Char} (ha : IsAscii cs) {i : ℕ} (hi : i + cs.length = 36) :
    (readNibbles cs.length cs).isSome =
      ((cs.map fun c => UInt8.ofNat c.toNat).zipIdx i).all fun p => shapeAt p.2 p.1 := by
  induction cs generalizing i with
  | nil => rfl
  | cons c cs ih =>
    rw [List.length_cons] at hi
    have hc : c.toNat < 128 := ha c List.mem_cons_self
    have hr := ih (fun d hd => ha d (List.mem_cons_of_mem _ hd)) (i := i + 1) (by omega)
    have hp : 35 - cs.length = i := by omega
    rw [List.map_cons, List.zipIdx_cons, List.all_cons, ← hr, shapeAt_ascii i hc, List.length_cons]
    simp only [readNibbles, hp]
    by_cases hh : hyphenAt i
    · by_cases hm : c = '-' <;> simp [hh, hm]
    · cases hexValue c with
      | none => simp [hh]
      | some n => cases readNibbles cs.length cs <;> simp [hh]

theorem ascii_of_readNibbles {k : ℕ} {cs : List Char} {ns : List ℕ}
    (h : readNibbles k cs = some ns) : IsAscii cs ∧ cs.length = k := by
  induction k generalizing cs ns with
  | zero =>
    cases cs with
    | nil => exact ⟨fun c hc => absurd hc List.not_mem_nil, rfl⟩
    | cons c cs => simp [readNibbles] at h
  | succ k ih =>
    cases cs with
    | nil => simp [readNibbles] at h
    | cons c cs =>
      have cons : ∀ {ms}, c.toNat < 128 → readNibbles k cs = some ms →
          IsAscii (c :: cs) ∧ (c :: cs).length = k + 1 := by
        intro ms hc hr
        obtain ⟨ha, hl⟩ := ih hr
        exact ⟨List.forall_mem_cons.mpr ⟨hc, ha⟩, congrArg Nat.succ hl⟩
      simp only [readNibbles] at h
      split_ifs at h with hh hm
      · exact cons (by rw [hm]; decide) h
      · simp only [Option.bind_eq_bind, Option.bind_eq_some_iff] at h
        obtain ⟨n, hn, ms, hr, -⟩ := h
        refine cons ?_ hr
        unfold hexValue at hn
        split_ifs at hn <;> omega

theorem isSome_parse (s : String) : (Uuid.parse s).isSome = (readNibbles 36 s.toList).isSome := by
  unfold Uuid.parse
  split
  next h => simp [h]
  next h => simp [h]

theorem shapeOk_iff (s : String) : shapeOk (asBytes s) = true ↔ (Uuid.parse s).isSome = true := by
  have ascii_case : IsAscii s.toList → s.toList.length = 36 →
      (shapeOk (asBytes s) = true ↔ (Uuid.parse s).isSome = true) := by
    intro ha hl
    have hr := isSome_readNibbles ha (i := 0) (by omega)
    rw [hl] at hr
    rw [isSome_parse, hr, shapeOk, asBytes, length_utf8_ascii ha, hl, utf8_ascii ha]
    simp
  constructor
  · intro h
    have hs := h
    simp only [shapeOk, Bool.and_eq_true, beq_iff_eq, List.all_eq_true] at hs
    have ha : IsAscii s.toList := by
      apply isAscii_of_utf8
      intro b hb
      rw [← List.zipIdx_map_fst 0 (utf8 s.toList)] at hb
      obtain ⟨q, hq, rfl⟩ := List.mem_map.mp hb
      exact lt_of_shapeAt (hs.2 q hq)
    exact (ascii_case ha ((length_utf8_ascii ha).symm.trans hs.1)).mp h
  · intro h
    rw [isSome_parse] at h
    obtain ⟨ns, hn⟩ := Option.isSome_iff_exists.mp h
    obtain ⟨ha, hl⟩ := ascii_of_readNibbles hn
    exact (ascii_case ha hl).mpr (by rwa [isSome_parse])

/-! ## Version and variant -/

theorem toNat_octet (u : Uuid) {i : ℕ} (hi : i < 16) :
    ∃ hi lo, u.nibbles[2 * i]? = some hi ∧ hi < 16 ∧ lo < 16 ∧ (u.octet i).toNat = hi * 16 + lo := by
  have hlt : (u.octet i).toNat < 256 := (u.octet i).toNat_lt
  exact ⟨(u.octet i).toNat / 16, (u.octet i).toNat % 16, (u.nibbles_of_octet hi).1, by omega,
    by omega, by omega⟩

theorem getVersionNum_eq (u : Uuid) : u.getVersionNum = (u.octet 6).toNat / 16 := by
  rw [Uuid.getVersionNum, UInt8.toNat_shiftRight]
  exact Nat.shiftRight_eq_div_pow _ _

theorem variant_octets : ∀ n < 256, (UInt8.ofNat n &&& 0x80 ≠ 0x00 ∧ UInt8.ofNat n &&& 0xc0 = 0x80) ↔
    n / 64 = 2 := by
  decide +kernel

theorem getVariant_iff (u : Uuid) : u.getVariant = .rfc4122 ↔ (u.octet 8).toNat / 64 = 2 := by
  have h := variant_octets (u.octet 8).toNat (u.octet 8).toNat_lt
  rw [UInt8.ofNat_toNat] at h
  rw [← h]
  unfold Uuid.getVariant
  dsimp only
  split_ifs <;> simp_all

theorem isV4_iff (u : Uuid) : isV4 u = true ↔ u.HasV4Layout := by
  rw [isV4, Bool.and_eq_true, beq_iff_eq, beq_iff_eq, getVersionNum_eq, getVariant_iff]
  exact Iff.rfl

theorem checkV4_eq (u : Uuid) : checkV4 u = u.checkV4 := by
  obtain ⟨v, lo, hv, -, hlo, h6⟩ := toNat_octet u (i := 6) (by decide)
  obtain ⟨w, lo', hw, -, hlo', h8⟩ := toNat_octet u (i := 8) (by decide)
  have hv : u.nibbles[12]? = some v := hv
  have hw : u.nibbles[16]? = some w := hw
  have hver : u.getVersionNum = v := by
    rw [getVersionNum_eq, h6]
    omega
  have hvar : u.getVariant = .rfc4122 ↔ 8 ≤ w ∧ w ≤ 11 := by
    rw [getVariant_iff, h8]
    omega
  simp only [checkV4, Uuid.checkV4, hv, hw, hver, Option.any_some, ← hvar]
  by_cases h4 : v = 4
  · by_cases hr : u.getVariant = .rfc4122 <;> simp [h4, hr, ensure]
  · simp [h4, ensure]

theorem checkV4_eq_ok {u : Uuid} : checkV4 u = .ok () ↔ u.HasV4Layout := by
  rw [← isV4_iff, isV4, checkV4]
  by_cases hv : u.getVersionNum = 4
  · by_cases hr : u.getVariant = .rfc4122 <;> simp [hv, hr]
  · simp [hv]

/-! ## The form that is read -/

section

variable {parseStr : String → Option Uuid} {s : String} {u : Uuid}

theorem parseV4_eq (hp : ∀ u : Uuid, parseStr u.hyphenated = some u) (s : String) :
    parseV4 parseStr s = Uuid.parseV4 s := by
  have hs := shapeOk_iff s
  cases hu : Uuid.parse s with
  | none =>
    rw [hu, Option.isSome_none, Bool.false_eq_true, iff_false, Bool.not_eq_true] at hs
    simp [parseV4, Uuid.parseV4, hs, hu, ensure]
  | some u =>
    rw [hu, Option.isSome_some, eq_self, iff_true] at hs
    have hr : parseStr s = some u := Uuid.hyphenated_of_parse hu ▸ hp u
    simp [parseV4, Uuid.parseV4, hs, hu, hr, ensure, checkV4_eq]

theorem parseV4_eq_ok (hp : ∀ u : Uuid, parseStr u.hyphenated = some u) :
    parseV4 parseStr s = .ok u ↔ u.HasV4Layout ∧ s = u.hyphenated := by
  rw [parseV4_eq hp, ← checkV4_eq_ok, checkV4_eq]
  constructor
  · intro h
    obtain ⟨hh, hc⟩ := Uuid.parseV4_ok h
    exact ⟨hc, hh.symm⟩
  · rintro ⟨hc, rfl⟩
    exact Uuid.parseV4_hyphenated hc

end

/-! ## Derived identifiers -/

/-- A tag that `derived_v4_preimage` takes. -/
def AcceptedTag (tag : String) : Prop :=
  tag ≠ "" ∧ ∀ c ∈ asBytes tag, 0x21 ≤ c ∧ c ≤ 0x7e

theorem derivedV4Preimage_eq_some {tag : String} {input pre : Bytes} :
    derivedV4Preimage tag input = some pre ↔
      AcceptedTag tag ∧ pre = asBytes tag ++ 0 :: input := by
  have ha : AcceptedTag tag ↔
      ¬(tag = "" ∨ ¬ (asBytes tag).all (fun c => 0x21 ≤ c && c ≤ 0x7e)) := by
    simp [AcceptedTag]
  unfold derivedV4Preimage
  split_ifs with h
  · simp only [ha, not_true_eq_false, h, false_and]
  · rw [Option.some.injEq, ha, and_iff_right h, eq_comm]

theorem AcceptedTag.zero_notMem {tag : String} (h : AcceptedTag tag) : 0 ∉ asBytes tag := by
  intro hz
  exact absurd (h.2 0 hz).1 (by decide)

theorem derivedV4Preimage_inj {tag tag' : String} {input input' pre : Bytes}
    (h : derivedV4Preimage tag input = some pre) (h' : derivedV4Preimage tag' input' = some pre) :
    tag = tag' ∧ input = input' := by
  obtain ⟨ht, rfl⟩ := derivedV4Preimage_eq_some.mp h
  obtain ⟨ht', he⟩ := derivedV4Preimage_eq_some.mp h'
  obtain ⟨htag, hinput⟩ := Separated.field_inj ht.zero_notMem ht'.zero_notMem he
  exact ⟨asBytes_injective htag, hinput⟩

theorem derivedV4_of_acceptedTag (sha256 : Bytes → Bytes) {tag : String} (input : Bytes)
    (h : AcceptedTag tag) : ∃ u, derivedV4 sha256 tag input = some u ∧ u.HasV4Layout := by
  have hp : derivedV4Preimage tag input = some (asBytes tag ++ 0 :: input) :=
    derivedV4Preimage_eq_some.mpr ⟨h, rfl⟩
  have hd : (derivedV4 sha256 tag input).isSome = true := by
    rw [derivedV4, hp, Option.map_some, Option.isSome_some]
  obtain ⟨u, hu⟩ := Option.isSome_iff_exists.mp hd
  refine ⟨u, hu, ?_⟩
  rw [← checkV4_eq_ok, checkV4_eq]
  exact checkV4_derivedV4 hu

/-- What is accepted is the rendering of an identifier of the layout, derived identifiers among
them, whose tag and input the hash is given whole. -/
theorem v4_wireForm {parseStr : String → Option Uuid}
    (hp : ∀ u : Uuid, parseStr u.hyphenated = some u) (sha256 : Bytes → Bytes) :
    (∀ s u, parseV4 parseStr s = .ok u ↔ u.HasV4Layout ∧ s = u.hyphenated) ∧
      (∀ tag input, AcceptedTag tag → ∃ u, derivedV4 sha256 tag input = some u ∧
        parseV4 parseStr u.hyphenated = .ok u) ∧
      ∀ tag tag' input input' pre, derivedV4Preimage tag input = some pre →
        derivedV4Preimage tag' input' = some pre → tag = tag' ∧ input = input' := by
  refine ⟨?_, ?_, ?_⟩
  · intro s u
    exact parseV4_eq_ok hp
  · intro tag input ht
    obtain ⟨u, hu, hl⟩ := derivedV4_of_acceptedTag sha256 input ht
    exact ⟨u, hu, (parseV4_eq_ok hp).mpr ⟨hl, rfl⟩⟩
  · intro tag tag' input input' pre h h'
    exact derivedV4Preimage_inj h h'

/-- The digest of an `a`, a zero octet and a `bc`. -/
def digestOfABc : Bytes :=
  [64, 187, 84, 125, 147, 107, 189, 49, 49, 142, 227, 122, 200, 121, 158, 126, 203, 178, 46, 218,
    38, 81, 246, 94, 50, 20, 191, 251, 140, 233, 123, 180]

/-- The parser that reads braces, URNs and capitals too takes a derived identifier's rendering. -/
theorem v4_wireForm_derived : ∃ u, derivedV4 (fun _ => digestOfABc) "a" (asBytes "bc") = some u ∧
    u.hyphenated = "40bb547d-936b-4d31-b18e-e37ac8799e7e" ∧
    parseV4 Uuid.tryParse "40bb547d-936b-4d31-b18e-e37ac8799e7e" = .ok u := by
  have ht : AcceptedTag "a" := ⟨by decide, by decide +kernel⟩
  have hr : (derivedV4 (fun _ => digestOfABc) "a" (asBytes "bc")).map Uuid.hyphenated =
      some "40bb547d-936b-4d31-b18e-e37ac8799e7e" := by decide +kernel
  obtain ⟨u, hu, ha⟩ :=
    (v4_wireForm Uuid.tryParse_hyphenated fun _ => digestOfABc).2.1 "a" (asBytes "bc") ht
  rw [hu, Option.map_some, Option.some.injEq] at hr
  exact ⟨u, hu, hr, hr ▸ ha⟩

end Ids

end Aitp
