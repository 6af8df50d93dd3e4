import Aitp.Json.Canonical
import Aitp.Json.Reserialise

/-! # Reading back what was written

A struct written as an object, put in canonical form and read again gives the
fields it was written from. The readers of the common field types give back the
values they were written from.
-/

namespace Aitp

namespace Json

@[simp] theorem distinctKeys_str (s : String) : (str s).distinctKeys = true := rfl

@[simp] theorem distinctKeys_int (z : ℤ) : (int z).distinctKeys = true := rfl

@[simp] theorem all_distinctKeys_map_str (o : Option String) :
    (o.map str).all distinctKeys = true := by
  cases o <;> rfl

theorem distinctItems_iff {vs : List Json} :
    distinctItems vs = true ↔ ∀ v ∈ vs, v.distinctKeys = true := by
  induction vs with
  | nil => simp [distinctItems]
  | cons v vs ih => simp [distinctItems, ih]

/-! ## Canonical form and lookups -/

theorem lookup_sorted {ms : List (String × Json)} (hd : (ms.map Prod.fst).Nodup) (k : String) :
    ((canonMembers ms).insertionSort memberLe).lookup k = (ms.lookup k).map canon := by
  rw [← lookup_canonMembers]
  refine (lookup_perm ?_ (List.perm_insertionSort memberLe _).symm k).symm
  rwa [keys_canonMembers]

theorem mem_sorted {ms : List (String × Json)} {m : String × Json}
    (h : m ∈ (canonMembers ms).insertionSort memberLe) : ∃ m' ∈ ms, m = (m'.1, canon m'.2) := by
  rw [List.mem_insertionSort, canonMembers_eq, List.mem_map] at h
  obtain ⟨m', hm, rfl⟩ := h
  exact ⟨m', hm, rfl⟩

theorem nodup_keys_sorted {ms : List (String × Json)} (hd : (ms.map Prod.fst).Nodup) :
    (((canonMembers ms).insertionSort memberLe).map Prod.fst).Nodup := by
  refine (((List.perm_insertionSort memberLe _).map Prod.fst).nodup_iff).mpr ?_
  rwa [keys_canonMembers]

mutual

theorem distinctKeys_canon (v : Json) (h : v.distinctKeys = true) :
    (canon v).distinctKeys = true := by
  cases v with
  | arr vs =>
    simp only [canon, distinctKeys] at h ⊢
    exact distinctItems_canon vs h
  | obj ms =>
    simp only [canon, distinctKeys, Bool.and_eq_true, decide_eq_true_eq] at h ⊢
    refine ⟨nodup_keys_sorted h.1, distinctMembers_iff.mpr fun m hm => ?_⟩
    exact distinctMembers_iff.mp (distinctMembers_canon ms h.2) m
      ((List.mem_insertionSort memberLe).mp hm)
  | frac f => rcases canonFraction_cases f with ⟨z, h⟩ | ⟨g, h⟩ <;> simp [canon, h, distinctKeys]
  | _ => rfl

theorem distinctItems_canon (vs : List Json) (h : distinctItems vs = true) :
    distinctItems (canonItems vs) = true := by
  cases vs with
  | nil => rfl
  | cons v vs =>
    simp only [distinctItems, canonItems, Bool.and_eq_true] at h ⊢
    exact ⟨distinctKeys_canon v h.1, distinctItems_canon vs h.2⟩

theorem distinctMembers_canon (ms : List (String × Json)) (h : distinctMembers ms = true) :
    distinctMembers (canonMembers ms) = true := by
  match ms with
  | [] => rfl
  | (_, v) :: ms =>
    simp only [distinctMembers, canonMembers, Bool.and_eq_true] at h ⊢
    exact ⟨distinctKeys_canon v h.1, distinctMembers_canon ms h.2⟩

end

end Json

namespace Serde

open Json

variable {fs : List FieldSpec} {ws : List (Option Json)}

theorem fromMembers_of_required {ms : List (String × Json)}
    (h : ∀ f ∈ fs, f.absence = .required → (ms.lookup f.name).isSome = true) :
    fromMembers ms fs = some (fs.map fun f => ms.lookup f.name) := by
  induction fs with
  | nil => rfl
  | cons f fs ih =>
    have ht := ih fun g hg => h g (List.mem_cons_of_mem _ hg)
    cases hl : ms.lookup f.name with
    | some v => simp [fromMembers, hl, ht]
    | none =>
      have hr : f.absence ≠ .required := fun hr => by simpa [hl] using h f (by simp) hr
      simp [fromMembers, hl, ht, hr]

theorem structFields_of_lookup {ms : List (String × Json)} (hd : (ms.map Prod.fst).Nodup)
    (hc : ∀ m ∈ ms, ∃ f ∈ fs, f.name = m.1) (hl : fs.map (fun f => ms.lookup f.name) = ws)
    (hr : ∀ p ∈ fs.zip ws, p.1.absence = .required → p.2.isSome = true) :
    structFields fs (.obj ms) = some ws := by
  have hclosed : closed fs ms = true := by
    simp only [closed, Bool.and_eq_true, decide_eq_true_eq, List.all_eq_true, List.any_eq_true,
      beq_iff_eq]
    exact ⟨hd, hc⟩
  rw [structFields, if_pos hclosed, fromMembers_of_required, hl]
  intro f hf hreq
  refine hr (f, ms.lookup f.name) ?_ hreq
  obtain ⟨i, hi, rfl⟩ := List.getElem_of_mem hf
  exact List.mem_iff_getElem.mpr ⟨i, by simp [← hl, hi], by simp [← hl]⟩

theorem structFields_obj_written (hn : (fs.map FieldSpec.name).Nodup)
    (hl : ws.length = fs.length)
    (hr : ∀ p ∈ fs.zip ws, p.1.absence = .required → p.2.isSome = true) :
    structFields fs (.obj (written fs ws)) = some ws :=
  structFields_of_lookup (nodup_keys_written hn ws) (written_closed fs ws) (lookup_written hn hl) hr

theorem structFields_written (hn : (fs.map FieldSpec.name).Nodup) (hl : ws.length = fs.length)
    (hr : ∀ p ∈ fs.zip ws, p.1.absence = .required → p.2.isSome = true) :
    structFields fs (canon (.obj (written fs ws))) = some (ws.map (Option.map canon)) := by
  have hd := nodup_keys_written hn ws
  refine structFields_of_lookup (nodup_keys_sorted hd) ?_ ?_ ?_
  · intro m hm
    obtain ⟨m', hm', rfl⟩ := mem_sorted hm
    exact written_closed fs ws m' hm'
  · conv_rhs => rw [← lookup_written hn hl, List.map_map]
    exact List.map_congr_left fun f _ => lookup_sorted hd f.name
  · rintro ⟨f, w⟩ hp hreq
    rw [List.zip_map_right, List.mem_map] at hp
    obtain ⟨⟨f', w'⟩, hp, he⟩ := hp
    obtain ⟨rfl, rfl⟩ := Prod.mk.inj he
    simpa using hr _ hp hreq

theorem get_obj_written (hn : (fs.map FieldSpec.name).Nodup) (hl : ws.length = fs.length) {i : ℕ}
    {f : FieldSpec} (hi : fs[i]? = some f) :
    (Json.obj (written fs ws)).get f.name = ws[i]?.getD none := by
  have hlook := congrArg (·[i]?) (lookup_written hn hl)
  simp only [List.getElem?_map, hi, Option.map_some] at hlook
  rw [← hlook]
  rfl

theorem get_written (hn : (fs.map FieldSpec.name).Nodup) (hl : ws.length = fs.length) {i : ℕ}
    {f : FieldSpec} (hi : fs[i]? = some f) :
    (canon (.obj (written fs ws))).get f.name = (ws[i]?.getD none).map canon := by
  rw [← get_obj_written hn hl hi]
  exact lookup_sorted (nodup_keys_written hn ws) f.name

theorem mem_written {m : String × Json} (h : m ∈ written fs ws) : some m.2 ∈ ws := by
  fun_induction written fs ws with
  | case1 f fs v ws ih =>
    rcases List.mem_cons.mp h with rfl | h
    · exact List.mem_cons_self ..
    · exact List.mem_cons_of_mem _ (ih h)
  | case2 f fs ws ih => exact List.mem_cons_of_mem _ (ih h)
  | case3 => simp at h

theorem distinctKeys_written (hn : (fs.map FieldSpec.name).Nodup)
    (h : ∀ v, some v ∈ ws → v.distinctKeys = true) :
    (Json.obj (written fs ws)).distinctKeys = true := by
  simp only [distinctKeys, Bool.and_eq_true, decide_eq_true_eq]
  exact ⟨nodup_keys_written hn ws, distinctMembers_iff.mpr fun m hm => h m.2 (mem_written hm)⟩

theorem distinctKeys_written_of_all (hn : (fs.map FieldSpec.name).Nodup)
    (h : (ws.all fun w => w.all distinctKeys) = true) :
    (Json.obj (written fs ws)).distinctKeys = true := by
  refine distinctKeys_written hn fun v hv => ?_
  simpa using List.all_eq_true.mp h _ hv

theorem vec_map {α : Type} {dec : Json → Option α} {wr : α → Json}
    (h : ∀ a, dec (wr a) = some a) (as : List α) : vec dec (.arr (as.map wr)) = some as := by
  rw [vec]
  induction as with
  | nil => rfl
  | cons a as ih => simp [h a, ih]

/-- An `Option` field reads back as it was written. -/
theorem optional_map_of {α : Type} {dec : Json → Option α} {wr : α → Json}
    (h : ∀ a, wr a ≠ .null ∧ dec (wr a) = some a) (o : Option α) :
    optional dec (o.map wr) = some o := by
  cases o with
  | none => rfl
  | some a =>
    obtain ⟨hn, hd⟩ := h a
    rw [Option.map_some]
    unfold optional
    split
    next he => cases he
    next he => exact absurd (Option.some.inj he) hn
    next v _ he =>
      obtain rfl := Option.some.inj he
      rw [hd, Option.map_some]

theorem optional_map {α : Type} (dec : Json → Option α) (wr : α → Json)
    (h : ∀ a, (wr a).canon ≠ .null ∧ dec (wr a).canon = some a) (o : Option α) :
    optional dec ((o.map wr).map canon) = some o := by
  rw [Option.map_map]
  exact optional_map_of h o

theorem present_map {α : Type} {dec : Json → Option α} {wr : α → Json}
    (h : ∀ a, dec (wr a) = some a) (o : Option α) : present dec (o.map wr) = some o := by
  cases o with
  | none => rfl
  | some a => simp [present, h a]

@[simp] theorem i64_int {z : Int} (h : -(2 ^ 63) ≤ z ∧ z < 2 ^ 63) : i64 (.int z) = some z :=
  if_pos h

end Serde

end Aitp
