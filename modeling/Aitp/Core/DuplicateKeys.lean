import Aitp.Core.CheckedJson
import Aitp.Crypto.Toy
import Aitp.Json.Deserialize

/-! # Documents that repeat no key

`core/unknown_field.rs`: a visitor that builds nothing walks the text and stops at the first key
that its object has already shown it. Only then is the text read again, as a `Value`.
-/

namespace Aitp

namespace Json

/-- A value occurs in another, at any depth. -/
inductive Occurs (w : Json) : Json → Prop
  | self : Occurs w w
  | item {vs : List Json} {v : Json} : v ∈ vs → Occurs w v → Occurs w (arr vs)
  | member {ms : List (String × Json)} {m : String × Json} :
      m ∈ ms → Occurs w m.2 → Occurs w (obj ms)

/-- No object that occurs in the value has two members of one key. -/
def RepeatsNoKey (v : Json) : Prop :=
  ∀ ms, (obj ms).Occurs v → (ms.map Prod.fst).Nodup

theorem Occurs.distinctKeys {v w : Json} (h : w.Occurs v) (hv : v.distinctKeys = true) :
    w.distinctKeys = true := by
  induction h with
  | self => exact hv
  | item hm _ ih => exact ih (distinctItems_iff.mp hv _ hm)
  | member hm _ ih =>
    simp only [Json.distinctKeys, Bool.and_eq_true] at hv
    exact ih (distinctMembers_iff.mp hv.2 _ hm)

mutual

theorem distinctKeys_of_repeatsNoKey (v : Json) (h : v.RepeatsNoKey) : v.distinctKeys = true := by
  match v with
  | null | bool _ | int _ | frac _ | str _ => rfl
  | arr vs => exact distinctItems_of_occurs vs fun ms v hv ho => h ms (.item hv ho)
  | obj ms =>
    simp only [distinctKeys, Bool.and_eq_true, decide_eq_true_eq]
    exact ⟨h ms .self, distinctMembers_of_occurs ms fun ms' m hm ho => h ms' (.member hm ho)⟩

theorem distinctItems_of_occurs (vs : List Json)
    (h : ∀ ms, ∀ v ∈ vs, (obj ms).Occurs v → (ms.map Prod.fst).Nodup) :
    distinctItems vs = true := by
  match vs with
  | [] => rfl
  | v :: vs =>
    simp only [distinctItems, Bool.and_eq_true]
    exact ⟨distinctKeys_of_repeatsNoKey v fun ms ho => h ms v List.mem_cons_self ho,
      distinctItems_of_occurs vs fun ms w hw ho => h ms w (List.mem_cons_of_mem v hw) ho⟩

theorem distinctMembers_of_occurs (ms : List (String × Json))
    (h : ∀ ms', ∀ m ∈ ms, (obj ms').Occurs m.2 → (ms'.map Prod.fst).Nodup) :
    distinctMembers ms = true := by
  match ms with
  | [] => rfl
  | (k, v) :: ms =>
    simp only [distinctMembers, Bool.and_eq_true]
    exact ⟨distinctKeys_of_repeatsNoKey v fun ms' ho => h ms' (k, v) List.mem_cons_self ho,
      distinctMembers_of_occurs ms fun ms' m hm ho => h ms' m (List.mem_cons_of_mem _ hm) ho⟩

end

theorem distinctKeys_iff {v : Json} : v.distinctKeys = true ↔ v.RepeatsNoKey := by
  refine ⟨fun h ms ho => ?_, distinctKeys_of_repeatsNoKey v⟩
  have hd := ho.distinctKeys h
  simp only [distinctKeys, Bool.and_eq_true, decide_eq_true_eq] at hd
  exact hd.1

/-- `CheckedJson::member`, one after another. -/
def memberAt (v : Json) : List String → Option Json
  | [] => some v
  | k :: ks => (v.get k).bind fun w => w.memberAt ks

theorem occurs_of_get {v w : Json} {k : String} (h : v.get k = some w) : w.Occurs v := by
  cases v with
  | obj ms =>
    obtain ⟨before, after, he, -⟩ := List.lookup_eq_some_iff.mp h
    have hm : (k, w) ∈ ms := by
      rw [show ms = _ from he]
      simp
    exact .member hm .self
  | _ => simp [get, members] at h

theorem Occurs.trans {u v w : Json} (h : u.Occurs v) (hv : v.Occurs w) : u.Occurs w := by
  induction hv with
  | self => exact h
  | item hm _ ih => exact .item hm ih
  | member hm _ ih => exact .member hm ih

theorem occurs_of_memberAt {ks : List String} {v w : Json} (h : v.memberAt ks = some w) :
    w.Occurs v := by
  induction ks generalizing v with
  | nil =>
    obtain rfl := Option.some.inj h
    exact .self
  | cons k ks ih =>
    obtain ⟨u, hu, hw⟩ := Option.bind_eq_some_iff.mp h
    exact (ih hw).trans (occurs_of_get hu)

end Json

/-! ## The check -/

namespace DuplicateKeyChecker

mutual

/-- `DuplicateKeyChecker`, as the visitor of what is reported. -/
def visit : Reported → Except String Unit
  | .error e => .error e
  | .unit | .bool _ | .i64 _ | .u64 _ | .f64 _ | .str _ => .ok ()
  | .seq items unclosed => visitSeq unclosed items
  | .map members unclosed => visitMap unclosed [] members

/-- `visit_seq`, of the elements that are left. -/
def visitSeq (unclosed : Option String) : List Reported → Except String Unit
  | [] =>
    match unclosed with
    | none => .ok ()
    | some e => .error e
  | r :: rs => do
    visit r
    visitSeq unclosed rs

/-- `visit_map`, of the entries that are left. -/
def visitMap (unclosed : Option String) (seen : List String) :
    List (String × Reported) → Except String Unit
  | [] =>
    match unclosed with
    | none => .ok ()
    | some e => .error e
  | (key, r) :: rs => do
    ensure (!seen.contains key) ("duplicate field `" ++ key ++ "`")
    visit r
    visitMap unclosed (key :: seen) rs

end

mutual

theorem visit_eq_ok (r : Reported) {d : Json} (h : r.document = some d) :
    visit r = .ok () ↔ d.distinctKeys = true := by
  match r with
  | .error e => cases h
  | .unit | .bool _ | .i64 _ | .u64 _ | .f64 _ | .str _ =>
    obtain rfl := Option.some.inj h
    exact iff_of_true rfl rfl
  | .seq items (some e) => cases h
  | .map members (some e) => cases h
  | .seq items none =>
    obtain ⟨ds, hds, rfl⟩ := Option.map_eq_some_iff.mp h
    rw [visit, Json.distinctKeys, visitSeq_eq_ok items hds]
  | .map members none =>
    obtain ⟨ds, hds, rfl⟩ := Option.map_eq_some_iff.mp h
    rw [visit, Json.distinctKeys, visitMap_eq_ok members [] hds, Bool.and_eq_true,
      decide_eq_true_eq]
    simp

theorem visitSeq_eq_ok (rs : List Reported) {ds : List Json}
    (h : Reported.documentItems rs = some ds) :
    visitSeq none rs = .ok () ↔ Json.distinctItems ds = true := by
  match rs with
  | [] =>
    obtain rfl := Option.some.inj h
    exact iff_of_true rfl rfl
  | r :: rs =>
    simp only [Reported.documentItems, Option.bind_eq_bind, Option.bind_eq_some_iff,
      Option.pure_def, Option.some.injEq] at h
    obtain ⟨d, hd, ds, hds, rfl⟩ := h
    simp only [visitSeq, bind_eq_ok, exists_const, Json.distinctItems, Bool.and_eq_true,
      visit_eq_ok r hd, visitSeq_eq_ok rs hds]

theorem visitMap_eq_ok (rs : List (String × Reported)) (seen : List String)
    {ds : List (String × Json)} (h : Reported.documentMembers rs = some ds) :
    visitMap none seen rs = .ok () ↔
      (∀ m ∈ ds, m.1 ∉ seen) ∧ (ds.map Prod.fst).Nodup ∧ Json.distinctMembers ds = true := by
  match rs with
  | [] =>
    obtain rfl := Option.some.inj h
    simp [visitMap, Json.distinctMembers]
  | (key, r) :: rs =>
    simp only [Reported.documentMembers, Option.bind_eq_bind, Option.bind_eq_some_iff,
      Option.pure_def, Option.some.injEq] at h
    obtain ⟨d, hd, ds, hds, rfl⟩ := h
    simp only [visitMap, bind_eq_ok, ensure_eq_ok, exists_const, visit_eq_ok r hd,
      visitMap_eq_ok rs (key :: seen) hds, Bool.not_eq_true', List.contains_eq_mem,
      decide_eq_false_iff_not, List.forall_mem_cons, List.map_cons, List.nodup_cons,
      List.mem_map, Json.distinctMembers, Bool.and_eq_true]
    simp only [List.mem_cons, not_or]
    constructor
    · rintro ⟨hkey, hd, hds, hn, hm⟩
      refine ⟨⟨hkey, fun m hm => (hds m hm).2⟩, ⟨?_, hn⟩, hd, hm⟩
      rintro ⟨m, hm, rfl⟩
      exact (hds m hm).1 rfl
    · rintro ⟨⟨hkey, hseen⟩, ⟨hfresh, hn⟩, hd, hm⟩
      refine ⟨hkey, hd, fun m hm => ⟨?_, hseen m hm⟩, hn, hm⟩
      rintro rfl
      exact hfresh ⟨m, hm, rfl⟩

end

end DuplicateKeyChecker

/-- The JSON library: what a deserialiser over some bytes reports, and what follows the value. -/
structure JsonDeserializer where
  reported : Bytes → Reported
  trailing : Bytes → Option String

namespace JsonDeserializer

variable (D : JsonDeserializer) (bytes : Bytes)

/-- The one document that the bytes hold. -/
def document : Option Json :=
  match D.trailing bytes with
  | none => (D.reported bytes).document
  | some _ => none

/-- `serde_json::from_slice`, to a `Value`. -/
def fromSlice : Except String Json := do
  let v ← ValueVisitor.visit (D.reported bytes)
  match D.trailing bytes with
  | none => .ok v
  | some e => .error e

def rejectDuplicateKeys : Except String Unit :=
  DuplicateKeyChecker.visit (D.reported bytes)

/-- `CheckedJson::from_slice`. -/
def checkedFromSlice : Except String Json := do
  D.rejectDuplicateKeys bytes
  D.fromSlice bytes

variable {D bytes} {v : Json}

theorem document_eq_some : D.document bytes = some v ↔
    D.trailing bytes = none ∧ (D.reported bytes).document = some v := by
  unfold document
  cases D.trailing bytes with
  | none => exact (and_iff_right rfl).symm
  | some e => simp

/-- A `Value` is what a document reads as. -/
theorem fromSlice_eq_ok :
    D.fromSlice bytes = .ok v ↔ ∃ d, D.document bytes = some d ∧ v = d.collapse := by
  simp only [fromSlice, document_eq_some, bind_eq_ok, ValueVisitor.visit_eq_ok]
  cases D.trailing bytes with
  | none =>
    constructor
    · rintro ⟨_, ⟨d, hd, rfl⟩, h⟩
      exact ⟨d, ⟨rfl, hd⟩, (Except.ok.inj h).symm⟩
    · rintro ⟨d, ⟨-, hd⟩, rfl⟩
      exact ⟨_, ⟨d, hd, rfl⟩, rfl⟩
  | some e => simp

theorem checkedFromSlice_eq_ok :
    D.checkedFromSlice bytes = .ok v ↔ D.document bytes = some v ∧ v.distinctKeys = true := by
  simp only [checkedFromSlice, bind_eq_ok, fromSlice_eq_ok]
  constructor
  · rintro ⟨⟨⟩, hcheck, d, hd, rfl⟩
    have hdistinct := (DuplicateKeyChecker.visit_eq_ok _ (document_eq_some.mp hd).2).mp hcheck
    rw [Json.collapse_of_distinct d hdistinct]
    exact ⟨hd, hdistinct⟩
  · rintro ⟨hd, hdistinct⟩
    refine ⟨(), ?_, v, hd, (Json.collapse_of_distinct v hdistinct).symm⟩
    exact (DuplicateKeyChecker.visit_eq_ok _ (document_eq_some.mp hd).2).mpr hdistinct

theorem ofDocument_eq_some {c : CheckedJson} :
    (D.document bytes).bind CheckedJson.ofDocument = some c ↔
      D.checkedFromSlice bytes = .ok c.value := by
  rw [checkedFromSlice_eq_ok, Option.bind_eq_some_iff]
  constructor
  · rintro ⟨v, hv, hc⟩
    obtain rfl := CheckedJson.value_of_ofDocument hc
    exact ⟨hv, c.distinct⟩
  · rintro ⟨hv, hd⟩
    exact ⟨c.value, hv, dif_pos hd⟩

end JsonDeserializer

/-- Bytes are checked JSON exactly when they hold one document and no object in it repeats a key.
The value is that document, and no value reached by its members repeats a key either. -/
theorem checkedJson_fromSlice (D : JsonDeserializer) (bytes : Bytes) :
    ((∃ v, D.fromSlice bytes = .ok v) ↔ ∃ d, D.document bytes = some d) ∧
    (∀ v, D.checkedFromSlice bytes = .ok v ↔ D.document bytes = some v ∧ v.RepeatsNoKey) ∧
    ∀ v ks w, D.checkedFromSlice bytes = .ok v → v.memberAt ks = some w → w.RepeatsNoKey := by
  refine ⟨?_, ?_, ?_⟩
  · simp only [JsonDeserializer.fromSlice_eq_ok]
    constructor
    · rintro ⟨_, d, hd, -⟩
      exact ⟨d, hd⟩
    · rintro ⟨d, hd⟩
      exact ⟨_, d, hd, rfl⟩
  · intro v
    rw [JsonDeserializer.checkedFromSlice_eq_ok, Json.distinctKeys_iff]
  · intro v ks w h hw
    rw [← Json.distinctKeys_iff]
    exact (Json.occurs_of_memberAt hw).distinctKeys (JsonDeserializer.checkedFromSlice_eq_ok.mp h).2

namespace Reported

mutual

/-- What is reported of a document. -/
def ofJson : Json → Reported
  | .null => unit
  | .bool b => bool b
  | .int (.ofNat n) => u64 n
  | .int (.negSucc n) => i64 (.negSucc n)
  | .frac f => f64 f
  | .str s => str s
  | .arr vs => seq (ofItems vs) none
  | .obj ms => map (ofMembers ms) none

def ofItems : List Json → List Reported
  | [] => []
  | v :: vs => ofJson v :: ofItems vs

def ofMembers : List (String × Json) → List (String × Reported)
  | [] => []
  | (k, v) :: ms => (k, ofJson v) :: ofMembers ms

end

end Reported

/-- The deserialiser of compact text. -/
def Toy.deserializer : JsonDeserializer where
  reported bytes :=
    match primitives.document bytes with
    | some v => .ofJson v
    | none => .error "expected value"
  trailing _ := none

/-- An object may hold a key that its member of that key holds too. -/
theorem checkedJson_fromSlice_nested : ∃ v w,
    Toy.deserializer.checkedFromSlice (asBytes "\x7b\"a\":\x7b\"a\":1\x7d\x7d") = .ok v ∧
      v.memberAt ["a"] = some w ∧ w.RepeatsNoKey := by
  have hs : ((Toy.deserializer.checkedFromSlice
      (asBytes "\x7b\"a\":\x7b\"a\":1\x7d\x7d")).toOption.bind fun v =>
        v.memberAt ["a"]).isSome = true := by
    decide +kernel
  obtain ⟨w, hw⟩ := Option.isSome_iff_exists.mp hs
  obtain ⟨v, hv, hw⟩ := Option.bind_eq_some_iff.mp hw
  have hok := toOption_eq_some.mp hv
  exact ⟨v, w, hok, hw, (checkedJson_fromSlice Toy.deserializer _).2.2 v ["a"] w hok hw⟩

/-- Keys are compared as they are read, not as they are written. -/
example : (Toy.deserializer.checkedFromSlice
    (asBytes "\x7b\"a\":1,\"\\u0061\":2\x7d")).isOk = false := by
  decide +kernel

end Aitp
