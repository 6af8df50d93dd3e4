import Mathlib.Data.List.AList

/-! # Write-once tables

A table in which an insertion under a key that is there is refused. After some insertions it
holds, under each key, what was first inserted there.
-/

namespace WriteOnce

variable {κ β : Type*} [DecidableEq κ]

/-- An insertion, that changes nothing if the key is there. -/
def insert (t : AList fun _ : κ => β) (e : κ × β) : AList fun _ : κ => β :=
  if e.1 ∈ t then t else t.insert e.1 e.2

/-- The table after some insertions, the oldest first. -/
def insertAll (t : AList fun _ : κ => β) (es : List (κ × β)) : AList fun _ : κ => β :=
  es.foldl insert t

variable {t : AList fun _ : κ => β} {k : κ} {e : κ × β}

theorem lookup_insert_self : (insert t e).lookup e.1 = (t.lookup e.1).or (some e.2) := by
  unfold insert
  by_cases hm : e.1 ∈ t
  · obtain ⟨b, hb⟩ := Option.isSome_iff_exists.mp (AList.lookup_isSome.mpr hm)
    rw [if_pos hm, hb, Option.some_or]
  · rw [if_neg hm, AList.lookup_insert, AList.lookup_eq_none.mpr hm, Option.none_or]

theorem lookup_insert_ne (hk : k ≠ e.1) : (insert t e).lookup k = t.lookup k := by
  unfold insert
  split_ifs
  · rfl
  · exact AList.lookup_insert_ne hk

theorem lookup_insertAll (es : List (κ × β)) :
    (insertAll t es).lookup k = (t.lookup k).or (es.lookup k) := by
  induction es generalizing t with
  | nil =>
    rw [List.lookup_nil, Option.or_none]
    rfl
  | cons e es ih =>
    have hcons : insertAll t (e :: es) = insertAll (insert t e) es := rfl
    obtain ⟨k', b⟩ := e
    rw [hcons, ih]
    by_cases hk : k = k'
    · subst hk
      rw [lookup_insert_self (e := (k, b)), Option.or_assoc, Option.some_or, List.lookup_cons_self]
    · rw [lookup_insert_ne (e := (k', b)) hk, List.lookup_cons, beq_false_of_ne hk]

end WriteOnce
