import Aitp.Json.RoundTrip

/-! # Closed member sets

`core/unknown_field.rs`: JSON in which no object repeats a key, and the check
that an object holds declared members only.
-/

namespace Aitp

namespace Json

/-- Remove a member of an object. -/
def remove (k : String) : Json → Json
  | obj ms => obj (ms.filter fun m => m.1 != k)
  | v => v

theorem lookup_filter_ne (ms : List (String × Json)) (k k' : String) :
    (ms.filter fun m => m.1 != k).lookup k' = if k' = k then none else ms.lookup k' := by
  induction ms with
  | nil => simp
  | cons m ms ih =>
    obtain ⟨i, v⟩ := m
    rw [List.filter_cons]
    by_cases hi : i = k
    · subst hi
      simp only [bne_self_eq_false, Bool.false_eq_true, if_false, ih, List.lookup_cons]
      split_ifs with hk
      · rfl
      · have hb : (k' == i) = false := by simpa using hk
        rw [hb]
    · have hn : (i != k) = true := by simpa using hi
      simp only [hn, if_true, List.lookup_cons, ih]
      by_cases hk : k' = i
      · subst hk
        simp [hi]
      · have hb : (k' == i) = false := by simpa using hk
        rw [hb]

theorem distinctKeys_of_get {v w : Json} {k : String} (hv : v.distinctKeys = true)
    (h : v.get k = some w) : w.distinctKeys = true := by
  cases v with
  | obj ms =>
    simp only [distinctKeys, Bool.and_eq_true, decide_eq_true_eq] at hv
    exact distinctMembers_iff.mp hv.2 (k, w) ((lookup_eq_some_iff hv.1).mp h)
  | _ => simp [get, members] at h

theorem nodup_keys_filter {ms : List (String × Json)} (hd : (ms.map Prod.fst).Nodup)
    (p : String × Json → Bool) : ((ms.filter p).map Prod.fst).Nodup :=
  hd.sublist (List.filter_sublist.map _)

end Json

namespace Serde

theorem remove_written (fs : List FieldSpec) (ws : List (Option Json)) (k : String) :
    (Json.obj (written fs ws)).remove k =
      .obj (written fs (List.zipWith (fun f w => if f.name = k then none else w) fs ws)) := by
  simp only [Json.remove, Json.obj.injEq]
  induction fs generalizing ws with
  | nil => simp [written]
  | cons f fs ih =>
    cases ws with
    | nil => simp [written]
    | cons w ws =>
      cases w with
      | none => simp [written, ih]
      | some v => by_cases hk : f.name = k <;> simp [written, hk, ih]

end Serde

/-- A parsed JSON document in which no object repeats a key. -/
structure CheckedJson where
  value : Json
  distinct : value.distinctKeys = true

namespace CheckedJson

/-- `CheckedJson::from_slice` on the document the JSON parser read. -/
def ofDocument (v : Json) : Option CheckedJson :=
  if h : v.distinctKeys = true then some ⟨v, h⟩ else none

theorem value_of_ofDocument {v : Json} {c : CheckedJson} (h : ofDocument v = some c) :
    c.value = v := by
  unfold ofDocument at h
  split at h
  · cases h
    rfl
  · cases h

theorem distinct_member (c : CheckedJson) {ms : List (String × Json)} {k : String} {v : Json}
    (h : c.value = .obj ms) (hl : ms.lookup k = some v) : v.distinctKeys = true :=
  Json.distinctKeys_of_get c.distinct (by rw [h]; exact hl)

end CheckedJson

/-- `check_members`: the first member outside the allowed set, if any. -/
def checkMembers (value : Json) (allowed : List String) : Option String :=
  (value.members.find? fun m => !allowed.contains m.1).map Prod.fst

theorem mem_allowed_of_checkMembers {ms : List (String × Json)} {allowed : List String}
    (h : checkMembers (.obj ms) allowed = none) : ∀ m ∈ ms, m.1 ∈ allowed := by
  simp only [checkMembers, Json.members, Option.map_eq_none_iff, List.find?_eq_none] at h
  intro m hm
  simpa using h m hm

theorem checkMembers_obj_written {fs : List FieldSpec} {ws : List (Option Json)}
    {allowed : List String} (h : ∀ f ∈ fs, f.name ∈ allowed) :
    checkMembers (.obj (Serde.written fs ws)) allowed = none := by
  simp only [checkMembers, Json.members, Option.map_eq_none_iff, List.find?_eq_none]
  intro m hm
  obtain ⟨f, hf, hn⟩ := Serde.written_closed fs ws m hm
  simpa [hn] using h f hf

theorem checkMembers_written {fs : List FieldSpec} {ws : List (Option Json)}
    {allowed : List String} (h : ∀ f ∈ fs, f.name ∈ allowed) :
    checkMembers (Json.canon (.obj (Serde.written fs ws))) allowed = none := by
  simp only [checkMembers, Json.canon, Json.members, Option.map_eq_none_iff, List.find?_eq_none]
  intro m hm
  obtain ⟨m', hm', rfl⟩ := Json.mem_sorted hm
  obtain ⟨f, hf, hn⟩ := Serde.written_closed fs ws m' hm'
  simpa [hn] using h f hf

end Aitp
