import Aitp.Crypto.RoundTrip
import Aitp.Crypto.Toy

/-! # The compact form is canonical

What `verify_compact` makes of a token that `sign_compact` wrote: the claims as they were signed
under the signer's agent identifier and `typ`, an error under any other `typ` and under an agent
identifier of the other algorithm. The JSON parser refuses a document that nests too deep, so a
token over such claims is signed and never verified. No two tokens decode to the same bytes.
-/

namespace Aitp

/-! ## What the JSON parser reads -/

namespace Json

mutual

/-- Whether arrays and objects nest no deeper than `n` levels. -/
def nestsWithin : Json → ℕ → Bool
  | arr _, 0 => false
  | obj _, 0 => false
  | arr vs, n + 1 => itemsNestWithin vs n
  | obj ms, n + 1 => membersNestWithin ms n
  | _, _ => true

def itemsNestWithin : List Json → ℕ → Bool
  | [], _ => true
  | v :: vs, n => nestsWithin v n && itemsNestWithin vs n

def membersNestWithin : List (String × Json) → ℕ → Bool
  | [], _ => true
  | (_, v) :: ms, n => nestsWithin v n && membersNestWithin ms n

end

mutual

/-- Whether every number of the value is one of the texts `printed`. -/
def numbersIn (printed : List Char → Bool) : Json → Bool
  | int z => printed (intText z)
  | frac f => printed f.digits
  | arr vs => itemNumbersIn printed vs
  | obj ms => memberNumbersIn printed ms
  | _ => true

def itemNumbersIn (printed : List Char → Bool) : List Json → Bool
  | [] => true
  | v :: vs => numbersIn printed v && itemNumbersIn printed vs

def memberNumbersIn (printed : List Char → Bool) : List (String × Json) → Bool
  | [] => true
  | (_, v) :: ms => numbersIn printed v && memberNumbersIn printed ms

end

/-- An object of string members. -/
def ofStrings (ms : List (String × String)) : Json :=
  obj (ms.map fun m => (m.1, str m.2))

theorem membersNestWithin_iff {ms : List (String × Json)} {n : ℕ} :
    membersNestWithin ms n = true ↔ ∀ m ∈ ms, m.2.nestsWithin n = true := by
  induction ms with
  | nil => simp [membersNestWithin]
  | cons m ms ih => simp [membersNestWithin, ih]

mutual

theorem nestsWithin_canon (v : Json) (n : ℕ) : (canon v).nestsWithin n = v.nestsWithin n := by
  cases v with
  | arr vs =>
    cases n with
    | zero => rfl
    | succ n => exact itemsNestWithin_canon vs n
  | obj ms =>
    cases n with
    | zero => rfl
    | succ n =>
      rw [nestsWithin, ← membersNestWithin_canon ms n, Bool.eq_iff_iff, canon, nestsWithin,
        membersNestWithin_iff, membersNestWithin_iff]
      simp only [List.mem_insertionSort]
  | frac f =>
    rcases canonFraction_cases f with ⟨z, h⟩ | ⟨g, h⟩ <;> cases n <;> simp [canon, h, nestsWithin]
  | _ => rfl

theorem itemsNestWithin_canon (vs : List Json) (n : ℕ) :
    itemsNestWithin (canonItems vs) n = itemsNestWithin vs n := by
  cases vs with
  | nil => rfl
  | cons v vs =>
    simp only [canonItems, itemsNestWithin, nestsWithin_canon v n, itemsNestWithin_canon vs n]

theorem membersNestWithin_canon (ms : List (String × Json)) (n : ℕ) :
    membersNestWithin (canonMembers ms) n = membersNestWithin ms n := by
  match ms with
  | [] => rfl
  | (_, v) :: ms =>
    simp only [canonMembers, membersNestWithin, nestsWithin_canon v n,
      membersNestWithin_canon ms n]

end

mutual

theorem nestsWithin_of_readable {p : Json → Bool} :
    ∀ {n : ℕ} (v : Json), v.readable p n = true → v.nestsWithin n = true
  | n, null, _ | n, bool _, _ | n, int _, _ | n, frac _, _ | n, str _, _ => by cases n <;> rfl
  | _ + 1, arr vs, h => itemsNestWithin_of_readable vs h
  | _ + 1, obj ms, h => membersNestWithin_of_readable ms h

theorem itemsNestWithin_of_readable {p : Json → Bool} :
    ∀ {n : ℕ} (vs : List Json), readableItems p vs n = true → itemsNestWithin vs n = true
  | _, [], _ => rfl
  | _, v :: vs, h => by
    simp only [readableItems, itemsNestWithin, Bool.and_eq_true] at h ⊢
    exact ⟨nestsWithin_of_readable v h.1, itemsNestWithin_of_readable vs h.2⟩

theorem membersNestWithin_of_readable {p : Json → Bool} :
    ∀ {n : ℕ} (ms : List (String × Json)), readableMembers p ms n = true →
      membersNestWithin ms n = true
  | _, [], _ => rfl
  | _, (_, v) :: ms, h => by
    simp only [readableMembers, membersNestWithin, Bool.and_eq_true] at h ⊢
    exact ⟨nestsWithin_of_readable v h.1, membersNestWithin_of_readable ms h.2⟩

end

theorem nestsWithin_of_get {v w : Json} {k : String} {n : ℕ} (hg : v.get k = some w)
    (h : v.nestsWithin (n + 1) = true) : w.nestsWithin n = true := by
  cases v with
  | obj ms =>
    obtain ⟨ms₁, ms₂, hms, -⟩ := List.lookup_eq_some_iff.mp hg
    have hm : (k, w) ∈ ms := by
      rw [show ms = ms₁ ++ (k, w) :: ms₂ from hms]
      exact List.mem_append_right _ List.mem_cons_self
    exact membersNestWithin_iff.mp h _ hm
  | _ => cases hg

end Json

/-- The JSON parser as it is configured: what it reads of canonical text, where `printed` are the
texts the canonicaliser writes numbers as. -/
structure Primitives.ReadsNested (P : Primitives) (printed : List Char → Bool) : Prop where
  strings : ∀ ms, P.document (Json.ofStrings ms).jcs = some (Json.ofStrings ms).canon
  objects : ∀ v : Json, v.isObject = true → v.numbersIn printed = true →
    v.nestsWithin nestingLimit = true → (P.document v.jcs).any Json.isObject = true
  refuses : ∀ v : Json, v.nestsWithin nestingLimit = false → P.document v.jcs = none

/-! ## Decoding a token -/

/-- The header, payload and signature bytes that `verify_compact` decodes from a token. -/
def decodeSegments (token : String) : Except CryptoError (Bytes × Bytes × Bytes) := do
  let (headerB64, payloadB64, sigB64) ← splitStrict token
  let headerBytes ← okOr (decodeStrict headerB64) (.jwsMalformed "header segment")
  let payload ← okOr (decodeStrict payloadB64) (.jwsMalformed "payload segment")
  let sigBytes ← okOr (decodeStrict sigB64) (.jwsMalformed "signature segment")
  return (headerBytes, payload, sigBytes)

theorem eq_of_splitStrict {token h p s : String} (hs : splitStrict token = .ok (h, p, s)) :
    token = h ++ "." ++ p ++ "." ++ s := by
  have hseg : segments token = [h, p, s] := by
    unfold splitStrict at hs
    split at hs
    · split_ifs at hs
      simp only [Except.ok.injEq, Prod.mk.injEq] at hs
      obtain ⟨rfl, rfl, rfl⟩ := hs
      assumption
    · simp at hs
  have hj : ['.'].intercalate (token.toList.splitOn '.') = token.toList :=
    List.intercalate_splitOn '.'
  have hm : token.toList.splitOn '.' = [h.toList, p.toList, s.toList] := by
    have ht := congrArg (List.map String.toList) hseg
    simpa [segments, Function.comp_def] using ht
  rw [hm] at hj
  rw [← String.toList_inj, ← hj]
  simp [List.intercalate, List.intersperse, String.toList_append]

theorem decodeSegments_eq_ok {token : String} {header payload raw : Bytes} :
    decodeSegments token = .ok (header, payload, raw) ↔ ∃ h p s,
      splitStrict token = .ok (h, p, s) ∧ decodeStrict h = some header ∧
        decodeStrict p = some payload ∧ decodeStrict s = some raw := by
  simp only [decodeSegments, bind_eq_ok, okOr_eq_ok, pure_eq_ok, Prod.exists, Prod.mk.injEq]
  constructor
  · rintro ⟨h, p, s, hs, _, hh, _, hp, _, hr, rfl, rfl, rfl⟩
    exact ⟨h, p, s, hs, hh, hp, hr⟩
  · rintro ⟨h, p, s, hs, hh, hp, hr⟩
    exact ⟨h, p, s, hs, header, hh, payload, hp, raw, hr, rfl, rfl, rfl⟩

theorem decodeSegments_injective {token token' : String} {parts : Bytes × Bytes × Bytes}
    (h : decodeSegments token = .ok parts) (h' : decodeSegments token' = .ok parts) :
    token = token' := by
  obtain ⟨header, payload, raw⟩ := parts
  obtain ⟨a, b, c, hs, ha, hb, hc⟩ := decodeSegments_eq_ok.mp h
  obtain ⟨a', b', c', hs', ha', hb', hc'⟩ := decodeSegments_eq_ok.mp h'
  rw [eq_of_splitStrict hs, eq_of_splitStrict hs', decodeStrict_injective ha ha',
    decodeStrict_injective hb hb', decodeStrict_injective hc hc']

/-! ## Verifying a signed token -/

section

variable {P : Primitives} {printed : List Char → Bool} {signer : Signer} {key : VerifyingKey}
  {typ token : String} {claims : Json}

theorem document_header (hP : P.ReadsNested printed) (aid : Aid) (typ : String) :
    P.document (headerValue aid typ).jcs = some (headerValue aid typ) := by
  have hs := hP.strings [("alg", joseAlg aid.algorithm), ("typ", typ)]
  have hv : Json.ofStrings [("alg", joseAlg aid.algorithm), ("typ", typ)] = headerValue aid typ :=
    rfl
  rwa [hv, canon_headerValue] at hs

theorem decodeJwsHeader_headerValue (aid : Aid) (typ : String) :
    decodeJwsHeader (headerValue aid typ) = some ⟨joseAlg aid.algorithm, typ⟩ := by
  simp [decodeJwsHeader, headerValue, Serde.structFields, Serde.closed, Serde.fromMembers,
    List.lookup_cons]

theorem joseAlg_injective : Function.Injective joseAlg := by
  rintro (_ | _) (_ | _) h
  · rfl
  · exact absurd h (by decide)
  · exact absurd h (by decide)
  · rfl

/-- The claims come back under the `typ` and the agent they were signed for. -/
theorem verifyCompact_signed (hP : P.ReadsNested printed) (hs : signer.Lawful P key)
    (ho : claims.isObject = true) (hn : claims.numbersIn printed = true)
    (hd : claims.nestsWithin nestingLimit = true) (h : signCompact signer typ claims = .ok token) :
    verifyCompact P signer.aid typ token = .ok claims.jcs := by
  obtain ⟨raw, hl, hsp, hv⟩ := splitStrict_signCompact hs h
  obtain ⟨v, hd', hvo⟩ := (Option.any_eq_true _ _).mp (hP.objects claims ho hn hd)
  exact verifyCompact_parts hsp hs.1 (document_header hP _ _) (decodeJwsHeader_headerValue _ _)
    hd' hvo hl hv

theorem verifyCompact_deep (hP : P.ReadsNested printed) (hs : signer.Lawful P key)
    (hd : claims.nestsWithin nestingLimit = false) (h : signCompact signer typ claims = .ok token) :
    verifyCompact P signer.aid typ token = .error (.jwsMalformed "payload is not a JSON object") := by
  obtain ⟨raw, hl, hsp, hv⟩ := splitStrict_signCompact hs h
  have ha : key.algorithm = signer.aid.algorithm := by rw [(VerifyingKey.fromAid_eq_ok.mp hs.1).1]
  simp [verifyCompact, hsp, document_header hP, decodeJwsHeader_headerValue, hs.1,
    VerifyingKey.verifyRaw, hl, ha, hv, hP.refuses claims hd, ensure]

/-- Under another `typ` the mismatch is reported, whoever the token is checked against. -/
theorem verifyCompact_of_typ_ne {aid : Aid} {typ' : String} (hP : P.ReadsNested printed)
    (hs : signer.Lawful P key) (h : signCompact signer typ claims = .ok token) (ht : typ' ≠ typ) :
    verifyCompact P aid typ' token = .error (.typMismatch typ' typ) := by
  obtain ⟨raw, -, hsp, -⟩ := splitStrict_signCompact hs h
  simp [verifyCompact, hsp, document_header hP, decodeJwsHeader_headerValue, ensure, ht.symm]

theorem verifyCompact_of_algorithm_ne {aid : Aid} {typ' : String} (hP : P.ReadsNested printed)
    (hs : signer.Lawful P key) (h : signCompact signer typ claims = .ok token)
    (ha : aid.algorithm ≠ signer.aid.algorithm) : ∃ e, verifyCompact P aid typ' token = .error e := by
  by_cases ht : typ' = typ
  · subst ht
    obtain ⟨raw, -, hsp, -⟩ := splitStrict_signCompact hs h
    have hj : joseAlg signer.aid.algorithm ≠ joseAlg aid.algorithm := fun he =>
      ha (joseAlg_injective he).symm
    refine ⟨.algMismatch (joseAlg signer.aid.algorithm), ?_⟩
    simp [verifyCompact, hsp, document_header hP, decodeJwsHeader_headerValue, ensure, hj]
  · exact ⟨_, verifyCompact_of_typ_ne hP hs h ht⟩

/-- A token over claims that the JSON parser can nest verifies as what it was signed as and as
nothing else, deeper claims never verify, and the bytes of a token have one spelling. -/
theorem compact_form (hP : P.ReadsNested printed) (hs : signer.Lawful P key)
    (ho : claims.isObject = true) (hn : claims.numbersIn printed = true)
    (h : signCompact signer typ claims = .ok token) :
    (verifyCompact P signer.aid typ token = .ok claims.jcs ↔
        claims.nestsWithin nestingLimit = true) ∧
      (∀ aid typ', typ' ≠ typ → verifyCompact P aid typ' token = .error (.typMismatch typ' typ)) ∧
      (∀ aid typ', aid.algorithm ≠ signer.aid.algorithm →
        ∃ e, verifyCompact P aid typ' token = .error e) ∧
      ∀ t t' parts, decodeSegments t = .ok parts → decodeSegments t' = .ok parts → t = t' := by
  refine ⟨⟨fun hv => ?_, fun hd => verifyCompact_signed hP hs ho hn hd h⟩,
    fun aid typ' => verifyCompact_of_typ_ne hP hs h,
    fun aid typ' => verifyCompact_of_algorithm_ne hP hs h,
    fun t t' parts => decodeSegments_injective⟩
  cases hd : claims.nestsWithin nestingLimit with
  | true => rfl
  | false => simp [verifyCompact_deep hP hs hd h] at hv

end

namespace Toy

/-- The executable primitives, with the parser's limit. -/
def nested : Primitives :=
  { primitives with
    first := fun bs => (primitives.first bs).filter (·.1.nestsWithin nestingLimit) }

theorem nested_document_text (v : Json) : nested.document (utf8 v.text) =
    if v.nestsWithin nestingLimit then some v else none := by
  simp only [Primitives.document, nested, first_text v, Option.filter_some]
  split_ifs <;> rfl

theorem nested_document (v : Json) : nested.document v.jcs =
    if v.nestsWithin nestingLimit then some v.canon else none := by
  rw [Json.jcs, nested_document_text, Json.nestsWithin_canon]

theorem nested_readsText : nested.ReadsText where
  int z _ _ := nested_document_text (.int z)
  rounded z _ _ := by
    simp [Primitives.readsJcs, Primitives.readsNumber, nested_document_text, Json.canon,
      Json.isNumber, Json.nestsWithin]
  text v h := by
    have hk : v.readable nested.keeps nestingLimit = true := by
      refine Json.readable_mono (fun n hn => ?_) v le_rfl h
      simp only [Primitives.readsNumber, nested_document_text] at hn
      split_ifs at hn with hw
      · simpa [Primitives.keeps, nested_document_text, hw] using hn
      · cases hn
    rw [nested_document_text, if_pos (Json.nestsWithin_of_readable v hk),
      Primitives.reread_of_keeps hk]

theorem nested_readsNested : nested.ReadsNested fun _ => true := by
  constructor
  · intro ms
    have hn : (Json.ofStrings ms).nestsWithin nestingLimit = true := by
      refine Json.membersNestWithin_iff.mpr fun m hm => ?_
      obtain ⟨m, -, rfl⟩ := List.mem_map.mp hm
      rfl
    rw [nested_document, if_pos hn]
  · intro v ho _ hn
    rw [nested_document, if_pos hn, Option.any_some, Json.isObject_canon, ho]
  · intro v hn
    rw [nested_document, if_neg (by simp [hn])]

theorem nested_lawful (aid : Aid) :
    (signer aid).Lawful nested ⟨aid.algorithm, aid.pubkeyCompressedBytes⟩ :=
  ⟨VerifyingKey.fromAid_eq_ok.mpr ⟨rfl, rfl⟩, (signer_lawful aid).2⟩

/-- Arrays in arrays. -/
def tower : ℕ → Json
  | 0 => .arr []
  | n + 1 => .arr [tower n]

theorem nestsWithin_tower (n m : ℕ) : (tower n).nestsWithin m = decide (n < m) := by
  induction n generalizing m with
  | zero => cases m <;> simp [tower, Json.nestsWithin, Json.itemsNestWithin]
  | succ n ih => cases m <;> simp [tower, Json.nestsWithin, Json.itemsNestWithin, ih]

/-- Claims of 128 levels. -/
def deepClaims : Json := .obj [("a", tower 126)]

theorem nestsWithin_deepClaims : deepClaims.nestsWithin nestingLimit = false := by
  simp [deepClaims, nestingLimit, Json.nestsWithin, Json.membersNestWithin, nestsWithin_tower]

end Toy

theorem compact_form_toy :
    verifyCompact Toy.nested Toy.aid typTct (Toy.signed Toy.aid typTct (.obj [("ver", .int 3)])) =
        .ok (Json.obj [("ver", .int 3)]).jcs :=
  (compact_form Toy.nested_readsNested (Toy.nested_lawful _) rfl rfl
    (Toy.signCompact_signer (by decide))).1.mpr rfl

/-- Claims of 128 levels are signed, and the token does not verify. -/
theorem compact_form_deep :
    (Toy.nested.ReadsNested fun _ => true) ∧
      (Toy.signer Toy.aid).Lawful Toy.nested ⟨Toy.aid.algorithm, Toy.aid.pubkeyCompressedBytes⟩ ∧
      ∃ token, signCompact (Toy.signer Toy.aid) typTct Toy.deepClaims = .ok token ∧
        verifyCompact Toy.nested Toy.aid typTct token =
          .error (.jwsMalformed "payload is not a JSON object") := by
  obtain ⟨token, hs⟩ : ∃ token, signCompact (Toy.signer Toy.aid) typTct Toy.deepClaims = .ok token :=
    ⟨_, Toy.signCompact_signer (by decide)⟩
  have hv := verifyCompact_deep Toy.nested_readsNested (Toy.nested_lawful Toy.aid)
    Toy.nestsWithin_deepClaims hs
  exact ⟨Toy.nested_readsNested, Toy.nested_lawful _, token, hs, hv⟩

end Aitp
