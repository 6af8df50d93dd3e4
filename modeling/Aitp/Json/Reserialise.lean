import Aitp.Json.Serde

/-! # Writing a struct back

A struct is written as the object of its fields, in order, without those that
are skipped. Compared with the object it was read from, the result is the same
value exactly when every field was written as it was read.
-/

namespace Aitp

namespace Serde

open Json

/-- The members written for a struct; `none` is a skipped field. -/
def written : List FieldSpec → List (Option Json) → List (String × Json)
  | f :: fs, some v :: ws => (f.name, v) :: written fs ws
  | _ :: fs, none :: ws => written fs ws
  | _, _ => []

variable {fs : List FieldSpec} {ws : List (Option Json)} {ms : List (String × Json)}

theorem written_closed (fs : List FieldSpec) (ws : List (Option Json)) :
    ∀ m ∈ written fs ws, ∃ f ∈ fs, f.name = m.1 := by
  fun_induction written fs ws with
  | case1 f fs v ws ih =>
    intro m hm
    rcases List.mem_cons.mp hm with rfl | hm
    · exact ⟨f, List.mem_cons_self .., rfl⟩
    · obtain ⟨g, hg, hn⟩ := ih m hm
      exact ⟨g, List.mem_cons_of_mem _ hg, hn⟩
  | case2 f fs ws ih =>
    intro m hm
    obtain ⟨g, hg, hn⟩ := ih m hm
    exact ⟨g, List.mem_cons_of_mem _ hg, hn⟩
  | case3 => simp

theorem nodup_keys_written (hn : (fs.map FieldSpec.name).Nodup) (ws : List (Option Json)) :
    ((written fs ws).map Prod.fst).Nodup := by
  fun_induction written fs ws with
  | case1 f fs v ws ih =>
    rw [List.map_cons, List.nodup_cons] at hn
    refine List.nodup_cons.mpr ⟨fun hm => ?_, ih hn.2⟩
    obtain ⟨m, hm, he⟩ := List.mem_map.mp hm
    obtain ⟨g, hg, hgn⟩ := written_closed fs ws m hm
    exact hn.1 (List.mem_map.mpr ⟨g, hg, hgn.trans he⟩)
  | case2 f fs ws ih =>
    rw [List.map_cons, List.nodup_cons] at hn
    exact ih hn.2
  | case3 => simp

theorem lookup_written (hn : (fs.map FieldSpec.name).Nodup) (hl : ws.length = fs.length) :
    fs.map (fun f => (written fs ws).lookup f.name) = ws := by
  induction fs generalizing ws with
  | nil => simpa [eq_comm] using hl
  | cons f fs ih =>
    obtain ⟨w, ws, rfl⟩ : ∃ w ws', ws = w :: ws' := by
      cases ws with
      | nil => simp at hl
      | cons w ws => exact ⟨w, ws, rfl⟩
    rw [List.map_cons, List.nodup_cons] at hn
    have hr := ih hn.2 (by simpa using hl)
    have hne : ∀ g ∈ fs, g.name ≠ f.name := fun g hg he =>
      hn.1 (List.mem_map.mpr ⟨g, hg, he⟩)
    cases w with
    | none =>
      rw [List.map_cons, written, hr, lookup_eq_none_of_closed (written_closed fs ws) hne]
    | some v =>
      have hm : fs.map (fun g => (written (f :: fs) (some v :: ws)).lookup g.name) =
          fs.map fun g => (written fs ws).lookup g.name := by
        refine List.map_congr_left fun g hg => ?_
        have hb : (g.name == f.name) = false := by simpa using hne g hg
        rw [written, List.lookup_cons, hb]
      rw [List.map_cons, hm, hr]
      simp [written]

theorem canon_written_iff (hn : (fs.map FieldSpec.name).Nodup) (hl : ws.length = fs.length)
    (hd : (ms.map Prod.fst).Nodup) (hc : ∀ m ∈ ms, ∃ f ∈ fs, f.name = m.1) :
    canon (.obj (written fs ws)) = canon (.obj ms) ↔
      ws.map (Option.map canon) = fs.map fun f => (ms.lookup f.name).map canon := by
  have hw : ws.map (Option.map canon) =
      fs.map fun f => ((written fs ws).lookup f.name).map canon := by
    conv_lhs => rw [← lookup_written hn hl]
    rw [List.map_map]
    rfl
  rw [hw]
  constructor
  · intro h
    exact List.map_congr_left fun f _ => lookup_of_canon_eq (nodup_keys_written hn ws) h f.name
  · intro h
    refine canon_obj_congr (nodup_keys_written hn ws) hd fun k => ?_
    by_cases hk : ∃ f ∈ fs, f.name = k
    · obtain ⟨f, hf, rfl⟩ := hk
      exact List.map_inj_left.mp h f hf
    · simp only [not_exists, not_and] at hk
      rw [lookup_eq_none_of_closed (written_closed fs ws) hk, lookup_eq_none_of_closed hc hk]

/-- An `Option` field is written as it was read unless it was read from `null`. -/
theorem optional_written_iff {α : Type} {dec : Json → Option α} {wr : α → Json}
    {o : Option Json} {x : Option α} (h : optional dec o = some x)
    (hd : ∀ v a, o = some v → dec v = some a → canon (wr a) = canon v) :
    (x.map wr).map canon = o.map canon ↔ o ≠ some .null := by
  cases o with
  | none =>
    obtain rfl : x = none := by simpa [optional, eq_comm] using h
    simp
  | some v =>
    by_cases hv : v = .null
    · subst hv
      obtain rfl : x = none := by simpa [optional, eq_comm] using h
      simp
    · obtain ⟨a, ha, rfl⟩ : ∃ a, dec v = some a ∧ some a = x := by
        unfold optional at h
        split at h <;> simp_all
      simp [hd v a rfl ha, hv]

/-- A field that is an error when it is `null` is written as it was read. -/
theorem present_written {α : Type} {dec : Json → Option α} {wr : α → Json}
    {o : Option Json} {x : Option α} (h : present dec o = some x)
    (hd : ∀ v a, o = some v → dec v = some a → canon (wr a) = canon v) :
    (x.map wr).map canon = o.map canon := by
  cases o with
  | none =>
    obtain rfl : x = none := by simpa [present, eq_comm] using h
    rfl
  | some v =>
    obtain ⟨a, ha, rfl⟩ := Option.map_eq_some_iff.mp h
    simp [hd v a rfl ha]

theorem vec_written_iff {α : Type} {dec : Json → Option α} {wr : α → Json} {p : Json → Prop}
    (hp : ∀ v a, dec v = some a → (canon (wr a) = canon v ↔ p v)) {vs : List Json} {xs : List α}
    (h : vs.mapM dec = some xs) :
    canon (.arr (xs.map wr)) = canon (.arr vs) ↔ ∀ v ∈ vs, p v := by
  simp only [canon, canonItems_eq, arr.injEq, List.map_map]
  induction vs generalizing xs with
  | nil =>
    obtain rfl : xs = [] := by simpa [eq_comm] using h
    simp
  | cons v vs ih =>
    simp only [List.mapM_cons, Option.bind_eq_bind, Option.bind_eq_some_iff, Option.pure_def,
      Option.some.injEq] at h
    obtain ⟨a, ha, ys, hy, rfl⟩ := h
    simp only [List.map_cons, List.cons.injEq, Function.comp_apply, List.forall_mem_cons, ih hy,
      hp v a ha]

end Serde

end Aitp
