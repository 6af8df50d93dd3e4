import Mathlib.Data.List.Basic
import Mathlib.Data.Nat.Notation
import Mathlib.Tactic.Common

/-! # Readings of a clock

Readings in any order, the newest first: how far the clock moved forward in all of them, and how
far the latest is from the earliest. On a clock that never goes back the two agree.
-/

namespace Readings

/-- The forward moves between readings, added up. -/
def rise : List ℕ → ℕ
  | t :: s :: ts => (t - s) + rise (s :: ts)
  | _ => 0

/-- The latest reading less the earliest. -/
def span (ts : List ℕ) : ℕ :=
  ts.max?.getD 0 - ts.min?.getD 0

/-- Every reading made twice. -/
def twice (ts : List ℕ) : List ℕ :=
  ts.flatMap fun t => [t, t]

variable {t s : ℕ} {ts : List ℕ}

@[simp] theorem rise_cons_self : rise (t :: t :: ts) = rise (t :: ts) := by
  simp [rise]

theorem mem_twice : s ∈ twice ts ↔ s ∈ ts := by
  simp [twice]

@[simp] theorem twice_cons : twice (t :: ts) = t :: t :: twice ts := rfl

theorem rise_twice_cons : rise (twice (t :: ts)) = rise (t :: ts) := by
  induction ts generalizing t with
  | nil => simp [twice, rise]
  | cons s ts ih =>
    have hs := @ih s
    simp only [twice_cons, rise_cons_self] at hs ⊢
    rw [rise, rise_cons_self, hs, rise]

@[simp] theorem rise_twice : rise (twice ts) = rise ts := by
  cases ts with
  | nil => rfl
  | cons t ts => exact rise_twice_cons

@[simp] theorem span_twice : span (twice ts) = span ts := by
  have hmax : (twice ts).max? = ts.max? := by
    apply Option.ext
    intro a
    simp only [List.max?_eq_some_iff, mem_twice]
  have hmin : (twice ts).min? = ts.min? := by
    apply Option.ext
    intro a
    simp only [List.min?_eq_some_iff, mem_twice]
  rw [span, span, hmax, hmin]

theorem rise_of_pairwise (h : (t :: ts).Pairwise (· ≥ ·)) (hl : (t :: ts).getLast? = some s) :
    rise (t :: ts) + s = t := by
  induction ts generalizing t with
  | nil =>
    obtain rfl : t = s := Option.some.inj hl
    exact Nat.zero_add t
  | cons r ts ih =>
    obtain ⟨ht, hr⟩ := List.pairwise_cons.mp h
    have hrest := ih hr (by rwa [List.getLast?_cons_cons] at hl)
    have hle : r ≤ t := ht r List.mem_cons_self
    rw [rise]
    omega

theorem sub_le_span (ht : t ∈ ts) (hs : s ∈ ts) : t - s ≤ span ts := by
  have hmax : t ≤ ts.max?.getD 0 := by
    cases hm : ts.max? with
    | none => rw [List.max?_eq_none_iff.mp hm] at ht; cases ht
    | some m => exact (List.max?_eq_some_iff.mp hm).2 t ht
  have hmin : ts.min?.getD 0 ≤ s := by
    cases hm : ts.min? with
    | none => exact Nat.zero_le s
    | some m => exact (List.min?_eq_some_iff.mp hm).2 s hs
  unfold span
  omega

/-- A clock that does not go back rises no further than readings with the same first and last one
are apart. -/
theorem rise_le_span {calls : List ℕ} (h : ts.Pairwise (· ≥ ·)) (hf : ts.head? = calls.head?)
    (hl : ts.getLast? = calls.getLast?) : rise ts ≤ span calls := by
  cases ts with
  | nil => exact Nat.zero_le _
  | cons t ts =>
    obtain ⟨s, hs⟩ := Option.isSome_iff_exists.mp
      (List.getLast?_isSome.mpr (List.cons_ne_nil t ts))
    have hr := rise_of_pairwise h hs
    have hspan := sub_le_span (List.mem_of_mem_head? (hf.symm.trans (List.head?_cons (l := ts))))
      (List.mem_of_getLast? (hl.symm.trans hs))
    omega

end Readings
