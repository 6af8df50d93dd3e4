import Aitp.Foundation.Result
import Aitp.Json.Serde
import Mathlib.Data.List.Induction

/-! # Visitors of JSON text

What the deserialiser of the JSON library reports to a visitor, and the two readings of it that
keep what is reported: the document, with every member, and the `Value`, in which the last of
several members with one key wins.
-/

namespace Aitp

/-- What `deserialize_any` reports, one constructor for each method of a visitor that it calls. The
entries of an array or an object are followed by an error unless it is closed after them. -/
inductive Reported where
  | error (message : String)
  | unit
  | bool (b : Bool)
  | i64 (z : ℤ)
  | u64 (n : ℕ)
  | f64 (f : Fraction)
  | str (s : String)
  | seq (items : List Reported) (unclosed : Option String)
  | map (members : List (String × Reported)) (unclosed : Option String)

namespace Reported

mutual

/-- The document that is reported, if no error is. -/
def document : Reported → Option Json
  | error _ => none
  | unit => some .null
  | bool b => some (.bool b)
  | i64 z => some (.int z)
  | u64 n => some (.int n)
  | f64 f => some (.frac f)
  | str s => some (.str s)
  | seq items none => (documentItems items).map .arr
  | map members none => (documentMembers members).map .obj
  | seq _ (some _) => none
  | map _ (some _) => none

def documentItems : List Reported → Option (List Json)
  | [] => some []
  | r :: rs => do
    let v ← document r
    let vs ← documentItems rs
    return v :: vs

def documentMembers : List (String × Reported) → Option (List (String × Json))
  | [] => some []
  | (key, r) :: rs => do
    let v ← document r
    let ms ← documentMembers rs
    return (key, v) :: ms

end

end Reported

namespace Json

/-- `Map::insert`, which keeps the place of a key that is there. -/
def insertMember (k : String) (v : Json) : List (String × Json) → List (String × Json)
  | [] => [(k, v)]
  | (k', v') :: ms => if k' = k then (k, v) :: ms else (k', v') :: insertMember k v ms

variable {k k' : String} {v : Json}

theorem insertMember_cons_self (w : Json) (ms : List (String × Json)) :
    insertMember k v ((k, w) :: ms) = (k, v) :: ms := by
  rw [insertMember, if_pos rfl]

theorem insertMember_cons_of_ne (h : k' ≠ k) (w : Json) (ms : List (String × Json)) :
    insertMember k v ((k', w) :: ms) = (k', w) :: insertMember k v ms := by
  rw [insertMember, if_neg h]

theorem lookup_insertMember (ms : List (String × Json)) :
    (insertMember k v ms).lookup k' = if k' = k then some v else ms.lookup k' := by
  induction ms with
  | nil =>
    rw [insertMember, List.lookup_cons]
    by_cases h : k' = k
    · simp [h]
    · have hb : (k' == k) = false := by simpa using h
      rw [hb, if_neg h]
  | cons m ms ih =>
    obtain ⟨i, w⟩ := m
    by_cases hi : i = k
    · subst hi
      rw [insertMember_cons_self, List.lookup_cons, List.lookup_cons]
      by_cases hk : k' = i
      · simp [hk]
      · have hb : (k' == i) = false := by simpa using hk
        rw [hb, if_neg hk]
    · rw [insertMember_cons_of_ne hi, List.lookup_cons, List.lookup_cons, ih]
      by_cases hk : k' = i
      · subst hk
        simp [hi]
      · have hb : (k' == i) = false := by simpa using hk
        rw [hb]

theorem filter_insertMember_self (ms : List (String × Json)) :
    (insertMember k v ms).filter (fun m => m.1 != k) = ms.filter fun m => m.1 != k := by
  induction ms with
  | nil => exact List.filter_cons_of_neg (by simp)
  | cons m ms ih =>
    obtain ⟨i, w⟩ := m
    by_cases hi : i = k
    · subst hi
      rw [insertMember_cons_self, List.filter_cons_of_neg (by simp),
        List.filter_cons_of_neg (by simp)]
    · rw [insertMember_cons_of_ne hi, List.filter_cons_of_pos (by simpa using hi),
        List.filter_cons_of_pos (by simpa using hi), ih]

theorem filter_insertMember_of_ne (h : k ≠ k') (ms : List (String × Json)) :
    (insertMember k v ms).filter (fun m => m.1 != k') =
      insertMember k v (ms.filter fun m => m.1 != k') := by
  induction ms with
  | nil => exact List.filter_cons_of_pos (by simpa using h)
  | cons m ms ih =>
    obtain ⟨i, w⟩ := m
    by_cases hi : i = k
    · subst hi
      rw [insertMember_cons_self, List.filter_cons_of_pos (by simpa using h),
        List.filter_cons_of_pos (by simpa using h), insertMember_cons_self]
    · rw [insertMember_cons_of_ne hi]
      by_cases hk : i = k'
      · rw [List.filter_cons_of_neg (by simpa using hk),
          List.filter_cons_of_neg (by simpa using hk), ih]
      · rw [List.filter_cons_of_pos (by simpa using hk),
          List.filter_cons_of_pos (by simpa using hk), ih, insertMember_cons_of_ne hi]

theorem lastWins_append (ms : List (String × Json)) :
    lastWins (ms ++ [(k, v)]) = insertMember k v (lastWins ms) := by
  induction ms with
  | nil => rfl
  | cons m ms ih =>
    obtain ⟨i, w⟩ := m
    rw [List.cons_append, lastWins, lastWins, ih, lookup_insertMember]
    by_cases hi : i = k
    · subst hi
      rw [if_pos rfl, insertMember_cons_self, filter_insertMember_self, Option.getD_some]
    · rw [if_neg hi, insertMember_cons_of_ne hi, filter_insertMember_of_ne (Ne.symm hi)]

theorem foldl_insertMember (ms : List (String × Json)) :
    ms.foldl (fun values m => insertMember m.1 m.2 values) [] = lastWins ms := by
  induction ms using List.reverseRecOn with
  | nil => rfl
  | append_singleton ms m ih => rw [List.foldl_append, ih, lastWins_append]; rfl

end Json

/-! ## The visitor that builds a value -/

namespace ValueVisitor

mutual

def visit : Reported → Except String Json
  | .error e => .error e
  | .unit => .ok .null
  | .bool b => .ok (.bool b)
  | .i64 z => .ok (.int z)
  | .u64 n => .ok (.int n)
  | .f64 f => .ok (.frac f)
  | .str s => .ok (.str s)
  | .seq items unclosed => do
    let vs ← visitSeq unclosed items
    return .arr vs
  | .map members unclosed => do
    let ms ← visitMap unclosed [] members
    return .obj ms

/-- `visit_seq`, of the elements that are left. -/
def visitSeq (unclosed : Option String) : List Reported → Except String (List Json)
  | [] =>
    match unclosed with
    | none => .ok []
    | some e => .error e
  | r :: rs => do
    let v ← visit r
    let vs ← visitSeq unclosed rs
    return v :: vs

/-- `visit_map`, of the entries that are left. -/
def visitMap (unclosed : Option String) (values : List (String × Json)) :
    List (String × Reported) → Except String (List (String × Json))
  | [] =>
    match unclosed with
    | none => .ok values
    | some e => .error e
  | (key, r) :: rs => do
    let v ← visit r
    visitMap unclosed (Json.insertMember key v values) rs

end

theorem visitSeq_unclosed {e : String} {rs : List Reported} {vs : List Json}
    (h : visitSeq (some e) rs = .ok vs) : False := by
  induction rs generalizing vs with
  | nil => cases h
  | cons r rs ih =>
    simp only [visitSeq, bind_eq_ok] at h
    obtain ⟨_, -, _, hs, -⟩ := h
    exact ih hs

theorem visitMap_unclosed {e : String} {rs : List (String × Reported)}
    {values ms : List (String × Json)} (h : visitMap (some e) values rs = .ok ms) : False := by
  induction rs generalizing values with
  | nil => cases h
  | cons r rs ih =>
    simp only [visitMap, bind_eq_ok] at h
    obtain ⟨_, -, hs⟩ := h
    exact ih hs

mutual

theorem visit_eq_ok (r : Reported) (v : Json) :
    visit r = .ok v ↔ ∃ d, r.document = some d ∧ v = d.collapse := by
  match r with
  | .error e => simp [visit, Reported.document]
  | .unit => simp [visit, Reported.document, Json.collapse, eq_comm]
  | .bool b => simp [visit, Reported.document, Json.collapse, eq_comm]
  | .i64 z => simp [visit, Reported.document, Json.collapse, eq_comm]
  | .u64 n => simp [visit, Reported.document, Json.collapse, eq_comm]
  | .f64 f => simp [visit, Reported.document, Json.collapse, eq_comm]
  | .str s => simp [visit, Reported.document, Json.collapse, eq_comm]
  | .seq items (some e) =>
    simp only [visit, Reported.document, bind_eq_ok]
    exact iff_of_false (fun ⟨_, h, _⟩ => visitSeq_unclosed h) (fun ⟨_, h, _⟩ => by cases h)
  | .map members (some e) =>
    simp only [visit, Reported.document, bind_eq_ok]
    exact iff_of_false (fun ⟨_, h, _⟩ => visitMap_unclosed h) (fun ⟨_, h, _⟩ => by cases h)
  | .seq items none =>
    simp only [visit, Reported.document, bind_eq_ok, visitSeq_eq_ok items, pure_eq_ok,
      Option.map_eq_some_iff]
    constructor
    · rintro ⟨_, ⟨ds, hd, rfl⟩, rfl⟩
      exact ⟨.arr ds, ⟨ds, hd, rfl⟩, rfl⟩
    · rintro ⟨_, ⟨ds, hd, rfl⟩, rfl⟩
      exact ⟨Json.collapseItems ds, ⟨ds, hd, rfl⟩, rfl⟩
  | .map members none =>
    simp only [visit, Reported.document, bind_eq_ok, visitMap_eq_ok members, pure_eq_ok,
      Option.map_eq_some_iff]
    constructor
    · rintro ⟨_, ⟨ds, hd, rfl⟩, rfl⟩
      exact ⟨.obj ds, ⟨ds, hd, rfl⟩, congrArg Json.obj (Json.foldl_insertMember _)⟩
    · rintro ⟨_, ⟨ds, hd, rfl⟩, rfl⟩
      exact ⟨_, ⟨ds, hd, rfl⟩, congrArg Json.obj (Json.foldl_insertMember _)⟩

theorem visitSeq_eq_ok (rs : List Reported) (vs : List Json) :
    visitSeq none rs = .ok vs ↔
      ∃ ds, Reported.documentItems rs = some ds ∧ vs = Json.collapseItems ds := by
  match rs with
  | [] => simp [visitSeq, Reported.documentItems, Json.collapseItems, eq_comm]
  | r :: rs =>
    simp only [visitSeq, Reported.documentItems, bind_eq_ok, visit_eq_ok r, visitSeq_eq_ok rs,
      pure_eq_ok, Option.bind_eq_bind, Option.bind_eq_some_iff, Option.pure_def, Option.some.injEq]
    constructor
    · rintro ⟨_, ⟨d, hd, rfl⟩, _, ⟨ds, hds, rfl⟩, rfl⟩
      exact ⟨d :: ds, ⟨d, hd, ds, hds, rfl⟩, rfl⟩
    · rintro ⟨_, ⟨d, hd, ds, hds, rfl⟩, rfl⟩
      exact ⟨_, ⟨d, hd, rfl⟩, _, ⟨ds, hds, rfl⟩, rfl⟩

theorem visitMap_eq_ok (rs : List (String × Reported)) (values ms : List (String × Json)) :
    visitMap none values rs = .ok ms ↔
      ∃ ds, Reported.documentMembers rs = some ds ∧
        ms = (Json.collapseMembers ds).foldl (fun ms m => Json.insertMember m.1 m.2 ms) values := by
  match rs with
  | [] => simp [visitMap, Reported.documentMembers, Json.collapseMembers, eq_comm]
  | (key, r) :: rs =>
    simp only [visitMap, Reported.documentMembers, bind_eq_ok, visit_eq_ok r, visitMap_eq_ok rs,
      Option.bind_eq_bind, Option.bind_eq_some_iff, Option.pure_def, Option.some.injEq]
    constructor
    · rintro ⟨_, ⟨d, hd, rfl⟩, ds, hds, rfl⟩
      exact ⟨(key, d) :: ds, ⟨d, hd, ds, hds, rfl⟩, rfl⟩
    · rintro ⟨_, ⟨d, hd, ds, hds, rfl⟩, rfl⟩
      exact ⟨_, ⟨d, hd, rfl⟩, ds, hds, rfl⟩

end

end ValueVisitor

end Aitp
