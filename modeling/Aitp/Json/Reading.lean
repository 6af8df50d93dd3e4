import Aitp.Json.RoundTrip

/-! # Values that a parser can read

A parser gives up on a text that nests too deep, and reads each number by its own text, not
always as the number that was written. What it makes of a value is the value with its numbers
read anew.
-/

namespace Aitp

namespace Json

/-- Whether the value is a number. -/
def isNumber : Json → Bool
  | int _ => true
  | frac _ => true
  | _ => false

mutual

/-- Read every number anew. -/
def mapNumbers (r : Json → Json) : Json → Json
  | null => null
  | bool b => bool b
  | int z => r (int z)
  | frac f => r (frac f)
  | str s => str s
  | arr vs => arr (mapItems r vs)
  | obj ms => obj (mapMembers r ms)

def mapItems (r : Json → Json) : List Json → List Json
  | [] => []
  | v :: vs => mapNumbers r v :: mapItems r vs

def mapMembers (r : Json → Json) : List (String × Json) → List (String × Json)
  | [] => []
  | (k, v) :: ms => (k, mapNumbers r v) :: mapMembers r ms

end

mutual

/-- Whether arrays and objects nest no deeper than `n` levels, and every number is one of `p`. -/
def readable (p : Json → Bool) : Json → ℕ → Bool
  | int z, _ => p (int z)
  | frac f, _ => p (frac f)
  | arr _, 0 => false
  | obj _, 0 => false
  | arr vs, n + 1 => readableItems p vs n
  | obj ms, n + 1 => readableMembers p ms n
  | _, _ => true

def readableItems (p : Json → Bool) : List Json → ℕ → Bool
  | [], _ => true
  | v :: vs, n => readable p v n && readableItems p vs n

def readableMembers (p : Json → Bool) : List (String × Json) → ℕ → Bool
  | [], _ => true
  | (_, v) :: ms, n => readable p v n && readableMembers p ms n

end

variable {r : Json → Json} {p q : Json → Bool} {n m : ℕ}

/-! ## Reading numbers anew -/

@[simp] theorem mapNumbers_str (s : String) : (str s).mapNumbers r = str s := rfl

theorem mapItems_eq (vs : List Json) : mapItems r vs = vs.map (mapNumbers r) := by
  induction vs with
  | nil => rfl
  | cons v vs ih => rw [mapItems, ih, List.map_cons]

theorem mapMembers_eq (ms : List (String × Json)) :
    mapMembers r ms = ms.map fun m => (m.1, mapNumbers r m.2) := by
  induction ms with
  | nil => rfl
  | cons m ms ih => rw [mapMembers, ih, List.map_cons]

theorem lookup_mapMembers (ms : List (String × Json)) (k : String) :
    (mapMembers r ms).lookup k = (ms.lookup k).map (mapNumbers r) := by
  induction ms with
  | nil => rfl
  | cons m ms ih =>
    obtain ⟨k', v⟩ := m
    simp only [mapMembers, List.lookup_cons]
    cases k == k' <;> simp [ih]

theorem keys_mapMembers (ms : List (String × Json)) :
    (mapMembers r ms).map Prod.fst = ms.map Prod.fst := by
  simp [mapMembers_eq]

theorem get_mapNumbers {v : Json} (hv : v.isObject = true) (k : String) :
    (v.mapNumbers r).get k = (v.get k).map (mapNumbers r) := by
  obtain ⟨ms, rfl⟩ := isObject_iff.mp hv
  exact lookup_mapMembers ms k

theorem isObject_mapNumbers (hr : ∀ v, v.isNumber = true → (r v).isNumber = true) (v : Json) :
    (v.mapNumbers r).isObject = v.isObject := by
  have hn : ∀ w : Json, w.isNumber = true → (r w).isObject = false := by
    intro w hw
    have hw := hr w hw
    cases h : r w <;> simp_all [isNumber, isObject]
  cases v with
  | int z => exact hn _ rfl
  | frac f => exact hn _ rfl
  | _ => rfl

mutual

theorem distinctKeys_mapNumbers (hr : ∀ v, v.isNumber = true → (r v).isNumber = true) (v : Json) :
    (v.mapNumbers r).distinctKeys = v.distinctKeys := by
  have hn : ∀ w : Json, w.isNumber = true → (r w).distinctKeys = true := by
    intro w hw
    have hw := hr w hw
    cases h : r w <;> simp_all [isNumber, distinctKeys]
  match v with
  | null | bool _ | str _ => rfl
  | int z => exact hn _ rfl
  | frac f => exact hn _ rfl
  | arr vs => exact distinctItems_mapItems hr vs
  | obj ms =>
    simp only [mapNumbers, distinctKeys, keys_mapMembers, distinctMembers_mapMembers hr ms]

theorem distinctItems_mapItems (hr : ∀ v, v.isNumber = true → (r v).isNumber = true) (vs : List Json) :
    distinctItems (mapItems r vs) = distinctItems vs := by
  match vs with
  | [] => rfl
  | v :: vs =>
    simp only [mapItems, distinctItems, distinctKeys_mapNumbers hr v, distinctItems_mapItems hr vs]

theorem distinctMembers_mapMembers (hr : ∀ v, v.isNumber = true → (r v).isNumber = true)
    (ms : List (String × Json)) : distinctMembers (mapMembers r ms) = distinctMembers ms := by
  match ms with
  | [] => rfl
  | (_, v) :: ms =>
    simp only [mapMembers, distinctMembers, distinctKeys_mapNumbers hr v,
      distinctMembers_mapMembers hr ms]

end

/-! ## What can be read -/

theorem readableItems_iff {vs : List Json} :
    readableItems p vs n = true ↔ ∀ v ∈ vs, v.readable p n = true := by
  induction vs with
  | nil => simp [readableItems]
  | cons v vs ih => simp [readableItems, ih]

theorem readableMembers_iff {ms : List (String × Json)} :
    readableMembers p ms n = true ↔ ∀ m ∈ ms, m.2.readable p n = true := by
  induction ms with
  | nil => simp [readableMembers]
  | cons m ms ih => simp [readableMembers, ih]

@[simp] theorem readable_str (s : String) : (str s).readable p n = true := by
  cases n <;> rfl

@[simp] theorem readable_map_str (o : Option String) :
    (o.map str).all (readable p · n) = true := by
  cases o <;> simp

theorem readable_int {z : ℤ} (h : p (int z) = true) : (int z).readable p n = true := by
  cases n <;> exact h

theorem readable_frac {f : Fraction} (h : p (frac f) = true) : (frac f).readable p n = true := by
  cases n <;> exact h

theorem readable_arr {vs : List Json} (h : ∀ v ∈ vs, v.readable p n = true) :
    (arr vs).readable p (n + 1) = true :=
  readableItems_iff.mpr h

theorem readable_obj {ms : List (String × Json)} (h : ∀ m ∈ ms, m.2.readable p n = true) :
    (obj ms).readable p (n + 1) = true :=
  readableMembers_iff.mpr h

mutual

/-- What can be read can be read with more levels to spare, and more numbers to read. -/
theorem readable_mono (hp : ∀ v, p v = true → q v = true) :
    ∀ {n m : ℕ} (v : Json), n ≤ m → v.readable p n = true → v.readable q m = true
  | _, m, null, _, _ => by cases m <;> rfl
  | _, m, bool b, _, _ => by cases m <;> rfl
  | _, _, str s, _, _ => readable_str s
  | n, _, int z, _, h => readable_int (hp _ (by cases n <;> exact h))
  | n, _, frac f, _, h => readable_frac (hp _ (by cases n <;> exact h))
  | _ + 1, 0, arr _, hnm, _ => absurd hnm (by omega)
  | _ + 1, 0, obj _, hnm, _ => absurd hnm (by omega)
  | _ + 1, _ + 1, arr vs, hnm, h => readableItems_mono hp vs (Nat.le_of_succ_le_succ hnm) h
  | _ + 1, _ + 1, obj ms, hnm, h => readableMembers_mono hp ms (Nat.le_of_succ_le_succ hnm) h

theorem readableItems_mono (hp : ∀ v, p v = true → q v = true) :
    ∀ {n m : ℕ} (vs : List Json), n ≤ m → readableItems p vs n = true → readableItems q vs m = true
  | _, _, [], _, _ => rfl
  | _, _, v :: vs, hnm, h => by
    simp only [readableItems, Bool.and_eq_true] at h ⊢
    exact ⟨readable_mono hp v hnm h.1, readableItems_mono hp vs hnm h.2⟩

theorem readableMembers_mono (hp : ∀ v, p v = true → q v = true) :
    ∀ {n m : ℕ} (ms : List (String × Json)), n ≤ m →
      readableMembers p ms n = true → readableMembers q ms m = true
  | _, _, [], _, _ => rfl
  | _, _, (_, v) :: ms, hnm, h => by
    simp only [readableMembers, Bool.and_eq_true] at h ⊢
    exact ⟨readable_mono hp v hnm h.1, readableMembers_mono hp ms hnm h.2⟩

end

mutual

/-- Numbers that are read as they are leave the value as it is. -/
theorem mapNumbers_of_readable (hr : ∀ v, p v = true → r v = v) :
    ∀ {n : ℕ} (v : Json), v.readable p n = true → v.mapNumbers r = v
  | _, null, _ => rfl
  | _, bool _, _ => rfl
  | _, str _, _ => rfl
  | n, int z, h => hr _ (by cases n <;> exact h)
  | n, frac f, h => hr _ (by cases n <;> exact h)
  | _ + 1, arr vs, h => congrArg arr (mapItems_of_readable hr vs h)
  | _ + 1, obj ms, h => congrArg obj (mapMembers_of_readable hr ms h)

theorem mapItems_of_readable (hr : ∀ v, p v = true → r v = v) :
    ∀ {n : ℕ} (vs : List Json), readableItems p vs n = true → mapItems r vs = vs
  | _, [], _ => rfl
  | _, v :: vs, h => by
    simp only [readableItems, Bool.and_eq_true] at h
    rw [mapItems, mapNumbers_of_readable hr v h.1, mapItems_of_readable hr vs h.2]

theorem mapMembers_of_readable (hr : ∀ v, p v = true → r v = v) :
    ∀ {n : ℕ} (ms : List (String × Json)), readableMembers p ms n = true → mapMembers r ms = ms
  | _, [], _ => rfl
  | _, (_, v) :: ms, h => by
    simp only [readableMembers, Bool.and_eq_true] at h
    rw [mapMembers, mapNumbers_of_readable hr v h.1, mapMembers_of_readable hr ms h.2]

end

mutual

/-- The canonical form of a value can be read when that of each of its numbers can. -/
theorem readable_canon (hp : ∀ v, v.isNumber = true → p v = true → q v.canon = true) :
    ∀ {n : ℕ} (v : Json), v.readable p n = true → v.canon.readable q n = true
  | n, null, _ => by cases n <;> rfl
  | n, bool b, _ => by cases n <;> rfl
  | _, str s, _ => readable_str s
  | n, int z, h => by
    have hq : q (int z).canon = true := hp _ rfl (by cases n <;> exact h)
    exact readable_int hq
  | n, frac f, h => by
    have hq : q (frac f).canon = true := hp _ rfl (by cases n <;> exact h)
    rcases canonFraction_cases f with ⟨z, hz⟩ | ⟨g, hg⟩
    · rw [canon, hz] at hq ⊢
      exact readable_int hq
    · rw [canon, hg] at hq ⊢
      exact readable_frac hq
  | _ + 1, arr vs, h => readableItems_canon hp vs h
  | n + 1, obj ms, h => by
    have hm := readableMembers_iff.mp (readableMembers_canon hp ms h)
    exact readable_obj fun m hi => hm m ((List.mem_insertionSort memberLe).mp hi)

theorem readableItems_canon (hp : ∀ v, v.isNumber = true → p v = true → q v.canon = true) :
    ∀ {n : ℕ} (vs : List Json), readableItems p vs n = true →
      readableItems q (canonItems vs) n = true
  | _, [], _ => rfl
  | _, v :: vs, h => by
    simp only [readableItems, canonItems, Bool.and_eq_true] at h ⊢
    exact ⟨readable_canon hp v h.1, readableItems_canon hp vs h.2⟩

theorem readableMembers_canon (hp : ∀ v, v.isNumber = true → p v = true → q v.canon = true) :
    ∀ {n : ℕ} (ms : List (String × Json)), readableMembers p ms n = true →
      readableMembers q (canonMembers ms) n = true
  | _, [], _ => rfl
  | _, (_, v) :: ms, h => by
    simp only [readableMembers, canonMembers, Bool.and_eq_true] at h ⊢
    exact ⟨readable_canon hp v h.1, readableMembers_canon hp ms h.2⟩

end

end Json

namespace Serde

open Json

variable {r : Json → Json} {p : Json → Bool} {n : ℕ} {fs : List FieldSpec} {ws : List (Option Json)}

theorem readable_written (h : (ws.all fun w => w.all (readable p · n)) = true) :
    (Json.obj (written fs ws)).readable p (n + 1) = true := by
  refine readable_obj fun m hm => ?_
  simpa using List.all_eq_true.mp h _ (mem_written hm)

theorem fromMembers_mapMembers (ms : List (String × Json)) :
    fromMembers (mapMembers r ms) fs = (fromMembers ms fs).map (List.map (Option.map (mapNumbers r))) := by
  induction fs with
  | nil => rfl
  | cons f fs ih =>
    simp only [fromMembers, lookup_mapMembers, ih]
    cases ms.lookup f.name with
    | some v => cases fromMembers ms fs <;> rfl
    | none =>
      split_ifs
      · rfl
      · cases fromMembers ms fs <;> rfl

theorem structFields_mapNumbers {v : Json} (hv : v.isObject = true) :
    structFields fs (v.mapNumbers r) =
      (structFields fs v).map (List.map (Option.map (mapNumbers r))) := by
  obtain ⟨ms, rfl⟩ := isObject_iff.mp hv
  have hc : closed fs (mapMembers r ms) = closed fs ms := by
    have hk := keys_mapMembers (r := r) ms
    simp only [closed, hk]
    simp only [mapMembers_eq, List.all_map, Function.comp_def]
  simp only [mapNumbers, structFields, hc, fromMembers_mapMembers]
  split_ifs <;> rfl

end Serde

end Aitp
