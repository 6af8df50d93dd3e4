import Aitp.Json.Canonical
import Mathlib.Algebra.Group.Int.Defs

/-! # Derived deserialisation

What a derived `Deserialize` does with a JSON value: a struct reads an object,
or an array holding its fields in order; a unit enum variant reads its name, or
an object mapping its name to `null`; an `Option` reads `null` as absent.
-/

namespace Aitp

namespace Json

mutual

/-- No object at any depth repeats a key. -/
def distinctKeys : Json → Bool
  | arr vs => distinctItems vs
  | obj ms => decide (ms.map Prod.fst).Nodup && distinctMembers ms
  | _ => true

def distinctItems : List Json → Bool
  | [] => true
  | v :: vs => distinctKeys v && distinctItems vs

def distinctMembers : List (String × Json) → Bool
  | [] => true
  | (_, v) :: ms => distinctKeys v && distinctMembers ms

end

theorem distinctMembers_iff {ms : List (String × Json)} :
    distinctMembers ms = true ↔ ∀ m ∈ ms, distinctKeys m.2 = true := by
  induction ms with
  | nil => simp [distinctMembers]
  | cons m ms ih => simp [distinctMembers, ih]

/-- Repeated keys read as their last value, in the place of the first. -/
def lastWins : List (String × Json) → List (String × Json)
  | [] => []
  | (k, v) :: ms =>
    (k, ((lastWins ms).lookup k).getD v) :: (lastWins ms).filter fun m => m.1 != k

mutual

/-- The `Value` a document reads as: repeated keys are collapsed at every depth. -/
def collapse : Json → Json
  | null => null
  | bool b => bool b
  | int z => int z
  | frac f => frac f
  | str s => str s
  | arr vs => arr (collapseItems vs)
  | obj ms => obj (lastWins (collapseMembers ms))

def collapseItems : List Json → List Json
  | [] => []
  | v :: vs => collapse v :: collapseItems vs

def collapseMembers : List (String × Json) → List (String × Json)
  | [] => []
  | (k, v) :: ms => (k, collapse v) :: collapseMembers ms

end

theorem lastWins_of_nodup {ms : List (String × Json)} (hd : (ms.map Prod.fst).Nodup) :
    lastWins ms = ms := by
  induction ms with
  | nil => rfl
  | cons m ms ih =>
    obtain ⟨k, v⟩ := m
    rw [List.map_cons, List.nodup_cons] at hd
    have hk : ∀ m ∈ ms, m.1 ≠ k := fun m hm he => hd.1 (List.mem_map.mpr ⟨m, hm, he⟩)
    have hl : ms.lookup k = none := by
      rw [List.lookup_eq_none_iff]
      intro m hm
      simpa using (hk m hm).symm
    have hf : ms.filter (fun m => m.1 != k) = ms := by
      rw [List.filter_eq_self]
      intro m hm
      simpa using hk m hm
    rw [lastWins, ih hd.2, hl, hf, Option.getD_none]

mutual

theorem collapse_of_distinct (v : Json) (h : v.distinctKeys = true) : v.collapse = v := by
  match v with
  | null | bool _ | int _ | frac _ | str _ => rfl
  | arr vs => rw [collapse, collapseItems_of_distinct vs (by simpa [distinctKeys] using h)]
  | obj ms =>
    simp only [distinctKeys, Bool.and_eq_true, decide_eq_true_eq] at h
    rw [collapse, collapseMembers_of_distinct ms h.2, lastWins_of_nodup h.1]

theorem collapseItems_of_distinct (vs : List Json) (h : distinctItems vs = true) :
    collapseItems vs = vs := by
  match vs with
  | [] => rfl
  | v :: vs =>
    simp only [distinctItems, Bool.and_eq_true] at h
    rw [collapseItems, collapse_of_distinct v h.1, collapseItems_of_distinct vs h.2]

theorem collapseMembers_of_distinct (ms : List (String × Json)) (h : distinctMembers ms = true) :
    collapseMembers ms = ms := by
  match ms with
  | [] => rfl
  | (k, v) :: ms =>
    simp only [distinctMembers, Bool.and_eq_true] at h
    rw [collapseMembers, collapse_of_distinct v h.1, collapseMembers_of_distinct ms h.2]

end

end Json

/-- What a struct does about a field that is not there. An `Option` field may be
missing from an object; only a `default` field may be missing from an array. -/
inductive Absence where
  | required
  | option
  | default
  deriving DecidableEq

/-- A struct field: its name and its rule for absence. -/
structure FieldSpec where
  name : String
  absence : Absence
  deriving DecidableEq

namespace Serde

/-- Whether an object holds only the fields of the struct, none twice. -/
def closed (fs : List FieldSpec) (ms : List (String × Json)) : Bool :=
  decide (ms.map Prod.fst).Nodup && ms.all fun m => fs.any fun f => f.name == m.1

/-- The value of each field, read from the members of an object. -/
def fromMembers (ms : List (String × Json)) : List FieldSpec → Option (List (Option Json))
  | [] => some []
  | f :: fs =>
    match ms.lookup f.name with
    | some v => (fromMembers ms fs).map (some v :: ·)
    | none => if f.absence = .required then none else (fromMembers ms fs).map (none :: ·)

/-- The value of each field, read from the items of an array. -/
def fromItems : List FieldSpec → List Json → Option (List (Option Json))
  | [], [] => some []
  | [], _ :: _ => none
  | _ :: fs, v :: vs => (fromItems fs vs).map (some v :: ·)
  | f :: fs, [] => if f.absence = .default then (fromItems fs []).map (none :: ·) else none

/-- A struct with `deny_unknown_fields`. -/
def structFields (fs : List FieldSpec) : Json → Option (List (Option Json))
  | .obj ms => if closed fs ms then fromMembers ms fs else none
  | .arr vs => fromItems fs vs
  | _ => none

/-- A struct that ignores members it does not know. -/
def openStructFields (fs : List FieldSpec) : Json → Option (List (Option Json))
  | .obj ms =>
    let known := (ms.map Prod.fst).filter fun k => fs.any fun f => f.name == k
    if known.Nodup then fromMembers ms fs else none
  | .arr vs => fromItems fs vs
  | _ => none

/-- The variant named by a unit enum value. -/
def variantName : Json → Option String
  | .str s => some s
  | .obj [(s, .null)] => some s
  | _ => none

/-- An `Option` field: absent and `null` both read as `None`. -/
def optional {α : Type} (dec : Json → Option α) : Option Json → Option (Option α)
  | none => some none
  | some .null => some none
  | some v => (dec v).map some

/-- An `Option` field whose value, when there is one, is read as such: `null` is an error. -/
def present {α : Type} (dec : Json → Option α) : Option Json → Option (Option α)
  | none => some none
  | some v => (dec v).map some

/-- A `Vec`. -/
def vec {α : Type} (dec : Json → Option α) : Json → Option (List α)
  | .arr vs => vs.mapM dec
  | _ => none

/-- An `i64`. -/
def i64 : Json → Option Int
  | .int z => if -(2 ^ 63) ≤ z ∧ z < 2 ^ 63 then some z else none
  | _ => none

/-- A map from strings to `Value`s. -/
def map (v : Json) : Option (List (String × Json)) :=
  if v.isObject then some v.collapse.members else none

theorem i64_eq_some {v : Json} {z : Int} (h : i64 v = some z) : v = .int z := by
  cases v with
  | int z' =>
    simp only [i64] at h
    split_ifs at h
    rw [Option.some.inj h]
  | _ => simp [i64] at h

theorem map_of_distinct {ms : List (String × Json)}
    (h : (Json.obj ms).distinctKeys = true) : map (.obj ms) = some ms := by
  simp [map, Json.collapse_of_distinct _ h, Json.members, Json.isObject]

theorem obj_of_map {v : Json} {ms : List (String × Json)} (h : map v = some ms)
    (hd : v.distinctKeys = true) : v = .obj ms := by
  cases v with
  | obj ms' => rw [Option.some.inj ((map_of_distinct hd).symm.trans h)]
  | _ => simp [map, Json.isObject] at h

theorem exists_of_mem_mapM {α : Type} {dec : Json → Option α} {vs : List Json} {xs : List α}
    (h : vs.mapM dec = some xs) {x : α} (hx : x ∈ xs) : ∃ v ∈ vs, dec v = some x := by
  induction vs generalizing xs with
  | nil =>
    obtain rfl : xs = [] := by simpa [eq_comm] using h
    simp at hx
  | cons v vs ih =>
    simp only [List.mapM_cons, Option.bind_eq_bind, Option.bind_eq_some_iff, Option.pure_def,
      Option.some.injEq] at h
    obtain ⟨a, ha, ys, hy, rfl⟩ := h
    rcases List.mem_cons.mp hx with rfl | hx
    · exact ⟨v, List.mem_cons_self .., ha⟩
    · obtain ⟨w, hw, hd⟩ := ih hy hx
      exact ⟨w, List.mem_cons_of_mem _ hw, hd⟩

theorem fromMembers_eq_some {ms : List (String × Json)} {fs : List FieldSpec}
    {vs : List (Option Json)} (h : fromMembers ms fs = some vs) :
    vs = fs.map fun f => ms.lookup f.name := by
  induction fs generalizing vs with
  | nil => simpa [fromMembers] using h.symm
  | cons f fs ih =>
    cases hl : ms.lookup f.name with
    | some v =>
      simp only [fromMembers, hl, Option.map_eq_some_iff] at h
      obtain ⟨ws, hw, rfl⟩ := h
      rw [ih hw, List.map_cons, hl]
    | none =>
      simp only [fromMembers, hl] at h
      split_ifs at h
      obtain ⟨ws, hw, rfl⟩ := Option.map_eq_some_iff.mp h
      rw [ih hw, List.map_cons, hl]

theorem fromMembers_isSome {ms : List (String × Json)} {fs : List FieldSpec} :
    (fromMembers ms fs).isSome = true ↔
      ∀ f ∈ fs, f.absence = .required → (ms.lookup f.name).isSome = true := by
  induction fs with
  | nil => simp [fromMembers]
  | cons f fs ih =>
    rw [List.forall_mem_cons, ← ih]
    cases hl : ms.lookup f.name with
    | some v => simp [fromMembers, hl]
    | none =>
      by_cases hr : f.absence = .required
      · simp [fromMembers, hl, hr]
      · simp [fromMembers, hl, hr]

theorem fromItems_eq_some {fs : List FieldSpec} {vs : List Json} {ws : List (Option Json)}
    (h : fromItems fs vs = some ws) :
    ws = vs.map some ++ List.replicate (fs.length - vs.length) none := by
  induction fs generalizing vs ws with
  | nil =>
    cases vs with
    | nil => simpa [fromItems] using h.symm
    | cons v vs => simp [fromItems] at h
  | cons f fs ih =>
    cases vs with
    | nil =>
      simp only [fromItems] at h
      split_ifs at h
      obtain ⟨us, hu, rfl⟩ := Option.map_eq_some_iff.mp h
      simp [ih hu, List.replicate_succ]
    | cons v vs =>
      obtain ⟨us, hu, rfl⟩ := Option.map_eq_some_iff.mp h
      simp [ih hu]

theorem fromItems_length {fs : List FieldSpec} {vs : List Json} {ws : List (Option Json)}
    (h : fromItems fs vs = some ws) : ws.length = fs.length := by
  induction fs generalizing vs ws with
  | nil =>
    cases vs with
    | nil => simp_all [fromItems]
    | cons v vs => simp [fromItems] at h
  | cons f fs ih =>
    cases vs with
    | nil =>
      simp only [fromItems] at h
      split_ifs at h
      obtain ⟨us, hu, rfl⟩ := Option.map_eq_some_iff.mp h
      simp [ih hu]
    | cons v vs =>
      obtain ⟨us, hu, rfl⟩ := Option.map_eq_some_iff.mp h
      simp [ih hu]

/-- Reading a struct from an object reads its members by name, each at most once and none
outside the struct. -/
theorem structFields_obj {fs : List FieldSpec} {ms : List (String × Json)} {vs : List (Option Json)}
    (h : structFields fs (.obj ms) = some vs) :
    (ms.map Prod.fst).Nodup ∧ (∀ m ∈ ms, ∃ f ∈ fs, f.name = m.1) ∧
      vs = fs.map fun f => ms.lookup f.name := by
  simp only [structFields] at h
  split_ifs at h with hc
  simp only [closed, Bool.and_eq_true, decide_eq_true_eq, List.all_eq_true, List.any_eq_true,
    beq_iff_eq] at hc
  exact ⟨hc.1, hc.2, fromMembers_eq_some h⟩

theorem lookup_eq_none_of_closed {fs : List FieldSpec} {ms : List (String × Json)} {k : String}
    (hc : ∀ m ∈ ms, ∃ f ∈ fs, f.name = m.1) (hk : ∀ f ∈ fs, f.name ≠ k) :
    ms.lookup k = none := by
  rw [List.lookup_eq_none_iff]
  intro m hm
  obtain ⟨f, hf, hn⟩ := hc m hm
  have hne : k ≠ m.1 := fun he => hk f hf (hn.trans he.symm)
  simpa using hne

end Serde

end Aitp
