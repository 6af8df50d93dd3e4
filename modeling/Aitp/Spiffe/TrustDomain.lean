import Aitp.Foundation.Ascii
import Aitp.Handshake.Error
import Aitp.Manifest.Verifier

/-! # SPIFFE IDs

`spiffe_id_trust_domain` of `spiffe.rs`, which the identity verifier reads a subject with, beside
`is_spiffe_id`, which the Manifest grammar accepts one with. One counts characters and the other
octets, they split at the first slash in different ways and they spell the test for dot segments
differently; what they accept is the same, since it is ASCII.
-/

namespace Aitp

def maxSpiffeIdLen : ℕ := 2048

def maxTrustDomainLen : ℕ := 255

/-- `fail`. -/
def spiffeFail (msg : String) : IdentityVerifyError :=
  .rejected ("spiffe: " ++ msg)

def isCanonicalTrustDomain (td : List Char) : Bool :=
  !td.isEmpty && (utf8 td).length ≤ maxTrustDomainLen &&
    td.all fun c => c.isLower || c.isDigit || c == '.' || c == '-' || c == '_'

/-- A segment of the path, as the loop of `spiffe_id_trust_domain` tests it. -/
def isCanonicalSegment (segment : List Char) : Bool :=
  !segment.isEmpty && segment != ['.'] && segment != ['.', '.'] &&
    segment.all fun c => c.isAlphanum || c == '.' || c == '-' || c == '_'

def spiffeIdTrustDomain (id : String) : Except IdentityVerifyError String := do
  ensure ((asBytes id).length ≤ maxSpiffeIdLen) (spiffeFail "SPIFFE ID longer than 2048 bytes")
  let rest ← okOr (stripPrefix "spiffe://" id)
    (spiffeFail "subject is not a canonical spiffe:// ID")
  let (trustDomain, path) ← okOr
    ((rest.toList.findIdx? (· == '/')).map fun i => rest.toList.splitAt i)
    (spiffeFail "SPIFFE ID has no workload path")
  ensure (isCanonicalTrustDomain trustDomain) (spiffeFail "SPIFFE ID trust domain is not canonical")
  ensure (((path.drop 1).splitOn '/').all isCanonicalSegment)
    (spiffeFail "SPIFFE ID path is not canonical")
  return String.ofList trustDomain

/-! ## Splitting at the first slash -/

theorem findIdx_append {c : Char} {xs ys : List Char} (h : c ∉ xs) :
    ((xs ++ c :: ys).findIdx? (· == c)).map (fun i => (xs ++ c :: ys).splitAt i) =
      some (xs, c :: ys) := by
  have hn : xs.findIdx? (· == c) = none :=
    List.findIdx?_eq_none_iff.mpr fun x hx => by
      simpa using fun he : x = c => h (he ▸ hx)
  rw [List.findIdx?_append, hn, Option.none_or, List.findIdx?_cons, beq_self_eq_true, if_pos rfl,
    Option.map_some, Option.map_some, Nat.zero_add, List.splitAt_eq, List.take_left, List.drop_left]

theorem mem_intercalate {c d : Char} {segments : List (List Char)}
    (h : d ∈ [c].intercalate segments) : d = c ∨ ∃ segment ∈ segments, d ∈ segment := by
  induction segments with
  | nil => simp [List.intercalate] at h
  | cons a as ih =>
    cases as with
    | nil => exact .inr ⟨a, List.mem_cons_self, by simpa [List.intercalate] using h⟩
    | cons b bs =>
      have hs : [c].intercalate (a :: b :: bs) = a ++ c :: [c].intercalate (b :: bs) := by
        simp [List.intercalate, List.intersperse]
      rw [hs, List.mem_append, List.mem_cons] at h
      rcases h with hd | rfl | hd
      · exact .inr ⟨a, List.mem_cons_self, hd⟩
      · exact .inl rfl
      · rcases ih hd with rfl | ⟨segment, hm, hd⟩
        · exact .inl rfl
        · exact .inr ⟨segment, List.mem_cons_of_mem _ hm, hd⟩

theorem mem_splitOn {c d : Char} {cs : List Char} (h : d ∈ cs) :
    d = c ∨ ∃ segment ∈ cs.splitOn c, d ∈ segment := by
  have hc : [c].intercalate (cs.splitOn c) = cs := List.intercalate_splitOn c
  rw [← hc] at h
  exact mem_intercalate h

/-! ## What is accepted is ASCII -/

theorem toNat_lt_of_isAlphanum {c : Char} (h : c.isAlphanum = true) : c.toNat < 128 := by
  change (decide (c.val ≥ 'A'.val ∧ c.val ≤ 'Z'.val) || (decide (c.val ≥ 'a'.val) &&
    decide (c.val ≤ 'z'.val)) || (decide (c.val ≥ '0'.val) && decide (c.val ≤ '9'.val))) = true at h
  simp only [Bool.or_eq_true, Bool.and_eq_true, decide_eq_true_eq, UInt32.le_iff_toNat_le,
    ge_iff_le] at h
  rcases h with (⟨-, h⟩ | ⟨-, h⟩) | ⟨-, h⟩
  · exact Nat.lt_of_le_of_lt h (by decide)
  · exact Nat.lt_of_le_of_lt h (by decide)
  · exact Nat.lt_of_le_of_lt h (by decide)

theorem isAscii_trustDomain {td : List Char} (h : isCanonicalTrustDomain td = true) :
    IsAscii td := by
  simp only [isCanonicalTrustDomain, Bool.and_eq_true, List.all_eq_true] at h
  intro c hc
  have ht := h.2 c hc
  simp only [Bool.or_eq_true, beq_iff_eq] at ht
  rcases ht with (((hl | hd) | rfl) | rfl) | rfl
  · exact toNat_lt_of_isAlphanum (Bool.or_eq_true_iff.mpr (.inl (Bool.or_eq_true_iff.mpr (.inr hl))))
  · exact toNat_lt_of_isAlphanum (Bool.or_eq_true_iff.mpr (.inr hd))
  all_goals decide

theorem isAscii_segment {segment : List Char} (h : segment.all (fun c =>
    c.isAlphanum || c == '.' || c == '-' || c == '_') = true) : IsAscii segment := by
  rw [List.all_eq_true] at h
  intro c hc
  have ht := h c hc
  simp only [Bool.or_eq_true, beq_iff_eq] at ht
  rcases ht with ((ha | rfl) | rfl) | rfl
  · exact toNat_lt_of_isAlphanum ha
  all_goals decide

theorem isAscii_path {path : List Char}
    (h : (path.splitOn '/').all isCanonicalSegment = true) : IsAscii path := by
  rw [List.all_eq_true] at h
  intro c hc
  rcases mem_splitOn (c := '/') hc with rfl | ⟨segment, hm, hs⟩
  · decide
  · have ht := h segment hm
    simp only [isCanonicalSegment, Bool.and_eq_true] at ht
    exact isAscii_segment ht.2 c hs

/-! ## The two grammars agree -/

theorem isSpiffeSegment_eq (segment : List Char) :
    isSpiffeSegment segment = isCanonicalSegment segment := by
  have hc : ∀ c : Char, (c.isAlphanum || c == '.' || c == '_' || c == '-') =
      (c.isAlphanum || c == '.' || c == '-' || c == '_') := fun c => by
    rw [Bool.or_right_comm (c.isAlphanum || c == '.')]
  simp only [isSpiffeSegment, isCanonicalSegment, hc]
  cases ha : segment.all fun c => c.isAlphanum || c == '.' || c == '-' || c == '_' with
  | false => simp
  | true =>
    rw [length_utf8_ascii (isAscii_segment ha)]
    match segment with
    | [] => rfl
    | [a] =>
      rw [Bool.eq_iff_iff]
      simp
    | [a, b] =>
      rw [Bool.eq_iff_iff]
      simp [imp_iff_not_or]
    | a :: b :: c :: cs => simp

theorem isSpiffeDomain_eq (domain : List Char) :
    ((1 ≤ (utf8 domain).length && (utf8 domain).length ≤ 255) &&
      domain.all (fun c => c.isLower || c.isDigit || c == '.' || c == '_' || c == '-')) =
        isCanonicalTrustDomain domain := by
  have hc : ∀ c : Char, (c.isLower || c.isDigit || c == '.' || c == '_' || c == '-') =
      (c.isLower || c.isDigit || c == '.' || c == '-' || c == '_') := fun c => by
    rw [Bool.or_right_comm (c.isLower || c.isDigit || c == '.')]
  have hl : decide (1 ≤ (utf8 domain).length) = !domain.isEmpty := by
    cases domain with
    | nil => rfl
    | cons c cs =>
      have hn := length_le_utf8 (c :: cs)
      rw [List.length_cons] at hn
      simp only [List.isEmpty_cons, Bool.not_false, decide_eq_true_eq]
      omega
  simp only [isCanonicalTrustDomain, maxTrustDomainLen, hc, hl]
  rfl

theorem isSpiffeId_append {td path : List Char} (h : '/' ∉ td) :
    isSpiffeId ("spiffe://" ++ String.ofList (td ++ '/' :: path)) = true ↔
      ("spiffe://" ++ String.ofList (td ++ '/' :: path)).length ≤ maxSpiffeIdLen ∧
        isCanonicalTrustDomain td = true ∧ (path.splitOn '/').all isCanonicalSegment = true := by
  have hs : isSpiffeSegment = isCanonicalSegment := funext isSpiffeSegment_eq
  simp only [isSpiffeId, stripPrefix_append, String.toList_ofList, splitOnce_append h,
    isSpiffeDomain_eq, hs]
  split_ifs with hl
  · exact iff_of_false (by simp) fun hn => absurd hn.1 (Nat.not_le.mpr hl)
  · rw [Bool.and_eq_true]
    exact (and_iff_right (Nat.le_of_not_lt hl)).symm

theorem spiffeIdTrustDomain_append {td path : List Char} (h : '/' ∉ td) {t : String} :
    spiffeIdTrustDomain ("spiffe://" ++ String.ofList (td ++ '/' :: path)) = .ok t ↔
      (asBytes ("spiffe://" ++ String.ofList (td ++ '/' :: path))).length ≤ maxSpiffeIdLen ∧
        (isCanonicalTrustDomain td = true ∧ (path.splitOn '/').all isCanonicalSegment = true) ∧
          String.ofList td = t := by
  simp only [spiffeIdTrustDomain, bind_eq_ok, ensure_eq_ok, okOr_eq_ok, pure_eq_ok, exists_const,
    stripPrefix_append, Option.some.injEq, exists_eq_left', String.toList_ofList,
    findIdx_append h, Prod.exists, Prod.mk.injEq, decide_eq_true_eq]
  constructor
  · rintro ⟨hl, _, _, ⟨rfl, rfl⟩, hd, hp, rfl⟩
    exact ⟨hl, ⟨hd, hp⟩, rfl⟩
  · rintro ⟨hl, ⟨hd, hp⟩, rfl⟩
    exact ⟨hl, td, '/' :: path, ⟨rfl, rfl⟩, hd, hp, rfl⟩

theorem exists_slash_of_isSpiffeId {s : String} (h : isSpiffeId s = true) :
    ∃ td path, s = "spiffe://" ++ String.ofList (td ++ '/' :: path) ∧ '/' ∉ td := by
  unfold isSpiffeId at h
  split_ifs at h
  split at h
  · simp at h
  · rename_i rest hr
    split at h
    · simp at h
    · rename_i domain path hs
      have hm : '/' ∈ rest.toList := by
        by_contra hm
        simp [splitOnce, hm] at hs
      obtain ⟨xs, ys, he, hx⟩ := List.eq_append_cons_of_mem hm
      refine ⟨xs, ys, ?_, hx⟩
      rw [eq_append_of_stripPrefix hr, ← he, String.ofList_toList]

theorem exists_slash_of_trustDomain {s t : String} (h : spiffeIdTrustDomain s = .ok t) :
    ∃ td path, s = "spiffe://" ++ String.ofList (td ++ '/' :: path) ∧ '/' ∉ td := by
  simp only [spiffeIdTrustDomain, bind_eq_ok, okOr_eq_ok, Option.map_eq_some_iff] at h
  obtain ⟨-, -, rest, hr, -, ⟨i, hi, -⟩, -⟩ := h
  obtain ⟨hlt, hb, -⟩ := List.findIdx?_eq_some_iff_getElem.mp hi
  have hm : '/' ∈ rest.toList := (beq_iff_eq.mp hb) ▸ List.getElem_mem hlt
  obtain ⟨xs, ys, he, hx⟩ := List.eq_append_cons_of_mem hm
  refine ⟨xs, ys, ?_, hx⟩
  rw [eq_append_of_stripPrefix hr, ← he, String.ofList_toList]

theorem length_asBytes_spiffeId {td path : List Char} (hd : isCanonicalTrustDomain td = true)
    (hp : (path.splitOn '/').all isCanonicalSegment = true) :
    (asBytes ("spiffe://" ++ String.ofList (td ++ '/' :: path))).length =
      ("spiffe://" ++ String.ofList (td ++ '/' :: path)).length := by
  have hsch : IsAscii "spiffe://".toList := isAscii_of_all (by decide)
  have hcons : IsAscii ('/' :: path) := List.forall_mem_cons.mpr ⟨by decide, isAscii_path hp⟩
  have ht : ("spiffe://" ++ String.ofList (td ++ '/' :: path)).toList =
      "spiffe://".toList ++ (td ++ '/' :: path) := by
    simp [String.toList_append]
  rw [asBytes, ht, length_utf8_ascii
    (isAscii_append.mpr ⟨hsch, isAscii_append.mpr ⟨isAscii_trustDomain hd, hcons⟩⟩), ← ht,
    String.length_toList]

theorem spiffeIdTrustDomain_eq_ok {s t : String} :
    spiffeIdTrustDomain s = .ok t ↔ isSpiffeId s = true ∧
      ∃ path, s = "spiffe://" ++ t ++ "/" ++ path ∧ '/' ∉ t.toList := by
  constructor
  · intro h
    obtain ⟨td, path, rfl, hn⟩ := exists_slash_of_trustDomain h
    obtain ⟨hl, ⟨hd, hp⟩, rfl⟩ := (spiffeIdTrustDomain_append hn).mp h
    rw [length_asBytes_spiffeId hd hp] at hl
    refine ⟨(isSpiffeId_append hn).mpr ⟨hl, hd, hp⟩, String.ofList path, ?_, ?_⟩
    · apply String.toList_injective
      simp [String.toList_append]
    · rwa [String.toList_ofList]
  · rintro ⟨h, path, rfl, hn⟩
    have he : "spiffe://" ++ t ++ "/" ++ path =
        "spiffe://" ++ String.ofList (t.toList ++ '/' :: path.toList) := by
      apply String.toList_injective
      simp [String.toList_append]
    rw [he] at h ⊢
    obtain ⟨hl, hd, hp⟩ := (isSpiffeId_append hn).mp h
    rw [← length_asBytes_spiffeId hd hp] at hl
    exact (spiffeIdTrustDomain_append hn).mpr ⟨hl, ⟨hd, hp⟩, String.ofList_toList⟩

/-- The verifier reads a trust domain of exactly the subjects that a Manifest may advertise, and it
is what stands between the scheme and the next slash. -/
theorem isSpiffeId_iff (s : String) :
    (isSpiffeId s = true ↔ ∃ t, spiffeIdTrustDomain s = .ok t) ∧
      ∀ t, spiffeIdTrustDomain s = .ok t ↔ isSpiffeId s = true ∧
        ∃ path, s = "spiffe://" ++ t ++ "/" ++ path ∧ '/' ∉ t.toList := by
  refine ⟨⟨fun h => ?_, fun ⟨t, h⟩ => (spiffeIdTrustDomain_eq_ok.mp h).1⟩,
    fun t => spiffeIdTrustDomain_eq_ok⟩
  obtain ⟨td, path, rfl, hn⟩ := exists_slash_of_isSpiffeId h
  refine ⟨String.ofList td, spiffeIdTrustDomain_eq_ok.mpr ⟨h, String.ofList path, ?_, ?_⟩⟩
  · apply String.toList_injective
    simp [String.toList_append]
  · rwa [String.toList_ofList]

end Aitp
