import Aitp.Core.Identifiers
import Aitp.Core.Time
import Aitp.Crypto.Keys

/-! # Values on the wire

The readers that several wire types share: agent and version 4 identifiers, and
lists of strings.
-/

namespace Aitp

/-- `Deserialize for Aid`. -/
def decodeAid (v : Json) : Option Aid :=
  v.asStr.bind Aid.parse

/-- `Deserialize for Uuid`, in any form of a UUID. -/
def decodeUuid (v : Json) : Option Uuid :=
  v.asStr.bind Uuid.tryParse

/-- `serde_v4`. -/
def decodeV4 (v : Json) : Option Uuid :=
  v.asStr.bind fun s => (Uuid.parseV4 s).toOption

/-- A `Vec<String>`. -/
def decodeStrings (v : Json) : Option (List String) :=
  Serde.vec Json.asStr v

/-- A `Vec<String>`, written. -/
def stringsValue (ss : List String) : Json :=
  .arr (ss.map .str)

theorem decodeAid_eq_some {v : Json} {a : Aid} (h : decodeAid v = some a) : v = .str a.value := by
  obtain ⟨s, hs, ha⟩ := Option.bind_eq_some_iff.mp h
  rw [Json.asStr_eq_some.mp hs, Aid.parse_eq_some ha]

theorem decodeV4_eq_some {v : Json} {u : Uuid} (h : decodeV4 v = some u) :
    v = .str u.hyphenated ∧ u.checkV4 = .ok () := by
  obtain ⟨s, hs, hu⟩ := Option.bind_eq_some_iff.mp h
  obtain ⟨hh, hc⟩ := Uuid.parseV4_ok (toOption_eq_some.mp hu)
  exact ⟨by rw [Json.asStr_eq_some.mp hs, hh], hc⟩

@[simp] theorem decodeAid_value (a : Aid) : decodeAid (.str a.value) = some a := by
  simp [decodeAid, Json.asStr]

@[simp] theorem decodeV4_hyphenated {u : Uuid} (h : u.checkV4 = .ok ()) :
    decodeV4 (.str u.hyphenated) = some u := by
  simp [decodeV4, Json.asStr, Uuid.parseV4_hyphenated h]

theorem canonItems_map_str (ss : List String) :
    Json.canonItems (ss.map .str) = ss.map .str := by
  simp [Json.canonItems_eq, Json.canon]

@[simp] theorem canon_stringsValue (ss : List String) :
    (stringsValue ss).canon = stringsValue ss := by
  rw [stringsValue, Json.canon, canonItems_map_str]

@[simp] theorem decodeStrings_stringsValue (ss : List String) :
    decodeStrings (stringsValue ss) = some ss := by
  have h : ∀ s, Json.asStr (.str s) = some s := fun _ => rfl
  exact Serde.vec_map h ss

theorem stringsValue_of_decode {v : Json} {ss : List String} (h : decodeStrings v = some ss) :
    stringsValue ss = v := by
  cases v with
  | arr vs =>
    rw [stringsValue, Json.arr.injEq]
    change vs.mapM Json.asStr = some ss at h
    induction vs generalizing ss with
    | nil =>
      obtain rfl : ss = [] := by simpa [eq_comm] using h
      rfl
    | cons v vs ih =>
      simp only [List.mapM_cons, Option.bind_eq_bind, Option.bind_eq_some_iff, Option.pure_def,
        Option.some.injEq] at h
      obtain ⟨s, hs, ts, ht, rfl⟩ := h
      rw [List.map_cons, ih ht, Json.asStr_eq_some.mp hs]
  | _ => simp [decodeStrings, Serde.vec] at h

@[simp] theorem readable_stringsValue {p : Json → Bool} {n : ℕ} (ss : List String) :
    (stringsValue ss).readable p (n + 1) = true := by
  refine Json.readable_arr fun v hv => ?_
  obtain ⟨s, -, rfl⟩ := List.mem_map.mp hv
  exact Json.readable_str s

@[simp] theorem readable_map_stringsValue {p : Json → Bool} {n : ℕ} (o : Option (List String)) :
    (o.map stringsValue).all (Json.readable p · (n + 1)) = true := by
  cases o <;> simp

@[simp] theorem distinctKeys_stringsValue (ss : List String) :
    (stringsValue ss).distinctKeys = true := by
  simp [stringsValue, Json.distinctKeys, Json.distinctItems_iff]

@[simp] theorem all_distinctKeys_map_stringsValue (o : Option (List String)) :
    (o.map stringsValue).all Json.distinctKeys = true := by
  cases o <;> simp

@[simp] theorem i64_of_fits {t : Timestamp} (h : t.Fits) : Serde.i64 (.int t) = some t :=
  Serde.i64_int ⟨h.1, Int.lt_of_le_sub_one h.2⟩

/-! ## What is read where a value was written -/

/-- The time that is read where a canonical text has the time `t`. -/
def Primitives.rereadTime (P : Primitives) (t : Timestamp) : Option Timestamp :=
  Serde.i64 (P.reread (Json.int t).canon)

@[simp] theorem reread_stringsValue (P : Primitives) (ss : List String) :
    P.reread (stringsValue ss) = stringsValue ss := by
  simp [Primitives.reread, stringsValue, Json.mapNumbers, Json.mapItems_eq]

theorem get_reread (P : Primitives) {v : Json} (hv : v.isObject = true) (k : String) :
    (P.reread v).get k = (v.get k).map P.reread :=
  Json.get_mapNumbers hv k

theorem checkMembers_reread (P : Primitives) {v : Json} (hv : v.isObject = true)
    (allowed : List String) : checkMembers (P.reread v) allowed = checkMembers v allowed := by
  obtain ⟨ms, rfl⟩ := Json.isObject_iff.mp hv
  simp only [checkMembers, Primitives.reread, Json.mapNumbers, Json.members, Json.mapMembers_eq,
    List.find?_map, Function.comp_def, Option.map_map]

/-- The fields of a struct, read from its canonical text. -/
theorem structFields_reread (P : Primitives) {fs : List FieldSpec} {ws : List (Option Json)}
    (hn : (fs.map FieldSpec.name).Nodup) (hl : ws.length = fs.length)
    (hr : ∀ p ∈ fs.zip ws, p.1.absence = .required → p.2.isSome = true) :
    Serde.structFields fs (P.reread (Json.obj (Serde.written fs ws)).canon) =
      some (ws.map fun w => (w.map Json.canon).map P.reread) := by
  have ho : (Json.obj (Serde.written fs ws)).canon.isObject = true := Json.isObject_canon _
  rw [Primitives.reread, Serde.structFields_mapNumbers ho, Serde.structFields_written hn hl hr,
    Option.map_some, List.map_map]
  rfl

theorem Serde.optional_reread (P : Primitives) {α : Type} (dec : Json → Option α) (wr : α → Json)
    (h : ∀ a, P.reread (wr a).canon ≠ .null ∧ dec (P.reread (wr a).canon) = some a)
    (o : Option α) : optional dec (((o.map wr).map Json.canon).map P.reread) = some o := by
  rw [Option.map_map, Option.map_map]
  exact optional_map_of h o

namespace Timestamp

variable {P : Primitives} {t : Timestamp}

theorem Fits.readable_int (hP : P.ReadsText) (h : t.Fits) (n : ℕ) :
    (Json.int t).readable P.keeps n = true :=
  Json.readable_int (hP.keeps_int h.1 (lt_of_le_of_lt h.2 (by decide)))

theorem Fits.readable_jcs (hP : P.ReadsText) (h : t.Fits) (n : ℕ) :
    (Json.int t).readable P.readsJcs n = true :=
  Json.readable_int (hP.rounded t h.1 (lt_of_le_of_lt h.2 (by decide)))

theorem Exact.rereadTime (hP : P.ReadsText) (h : t.Exact) : P.rereadTime t = some t := by
  have hf := h.fits
  rw [Primitives.rereadTime, Json.canon_int h.1 h.2,
    hP.reread_int hf.1 (lt_of_le_of_lt hf.2 (by decide)), i64_of_fits hf]

end Timestamp

/-! ## Extensions -/

/-- Extensions that are a map of `n` levels that is read as it was written. -/
def Holdable (P : Primitives) (n : ℕ) (extensions : Option (List (String × Json))) : Prop :=
  ∀ ms, extensions = some ms →
    (Json.obj ms).readable P.keeps n = true ∧ (Json.obj ms).distinctKeys = true

namespace Holdable

variable {P : Primitives} {n : ℕ} {extensions : Option (List (String × Json))}

theorem none : Holdable P n none :=
  nofun

theorem mono {m : ℕ} (hnm : n ≤ m) (h : Holdable P n extensions) : Holdable P m extensions :=
  fun ms hx => ⟨Json.readable_mono (fun _ => id) _ hnm (h ms hx).1, (h ms hx).2⟩

theorem optional_map (h : Holdable P n extensions) :
    Serde.optional Serde.map (extensions.map .obj) = some extensions := by
  cases hx : extensions with
  | none => rfl
  | some ms => simp [Serde.optional, Serde.map_of_distinct (h ms hx).2]

theorem present_map (h : Holdable P n extensions) :
    Serde.present Serde.map (extensions.map .obj) = some extensions := by
  cases hx : extensions with
  | none => rfl
  | some ms => simp [Serde.present, Serde.map_of_distinct (h ms hx).2]

theorem all_readable (h : Holdable P n extensions) :
    (extensions.map Json.obj).all (Json.readable P.keeps · n) = true := by
  cases hx : extensions with
  | none => rfl
  | some ms => exact (h ms hx).1

theorem all_distinctKeys (h : Holdable P n extensions) :
    ((extensions.map Json.obj).all Json.distinctKeys) = true := by
  cases hx : extensions with
  | none => rfl
  | some ms => exact (h ms hx).2

end Holdable

end Aitp
