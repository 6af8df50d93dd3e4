import Mathlib.Data.Int.Notation
import Mathlib.Data.Nat.Notation
import Mathlib.Algebra.Order.Group.Unbundled.Int
import Mathlib.Tactic.Linarith

/-! # Timestamps

`core/time.rs`. A timestamp counts seconds since the Unix epoch in an `i64`;
arithmetic with a duration saturates, and a duration counts in whole seconds.
-/

namespace Aitp

/-- Seconds since the Unix epoch. -/
abbrev Timestamp := Int

def i64Max : Int := 2 ^ 63 - 1

def i64Min : Int := -2 ^ 63

/-- `i64` arithmetic that saturates. -/
def saturate (z : Int) : Int :=
  max i64Min (min i64Max z)

/-- The values of an `i64`. -/
def Timestamp.Fits (t : Timestamp) : Prop :=
  i64Min ≤ t ∧ t ≤ i64Max

instance (t : Timestamp) : Decidable t.Fits :=
  inferInstanceAs (Decidable (i64Min ≤ t ∧ t ≤ i64Max))

/-- The times that a `binary64` number holds, with all between them. -/
def Timestamp.Exact (t : Timestamp) : Prop :=
  -(2 ^ 53) ≤ t ∧ t ≤ 2 ^ 53

instance (t : Timestamp) : Decidable t.Exact :=
  inferInstanceAs (Decidable (-(2 ^ 53) ≤ t ∧ t ≤ 2 ^ 53))

theorem Timestamp.Exact.fits {t : Timestamp} (h : t.Exact) : t.Fits :=
  ⟨le_trans (by decide) h.1, h.2.trans (by decide)⟩

theorem saturate_fits (z : Int) : Timestamp.Fits (saturate z) :=
  ⟨le_max_left _ _, max_le (by decide) (min_le_left _ _)⟩

def durationSecs (secs : ℕ) : Int :=
  min (secs : Int) i64Max

theorem saturate_of_fits {z : Int} (h : Timestamp.Fits z) : saturate z = z := by
  obtain ⟨hl, hu⟩ := h
  rw [saturate, min_eq_right hu, max_eq_right hl]

theorem saturate_min {z m : Int} (hm : Timestamp.Fits m) :
    saturate (min z m) = min (saturate z) m := by
  rw [saturate, saturate, ← min_assoc, max_min_distrib_left, max_eq_right hm.1]

theorem durationSecs_toNat {z : Int} (h0 : 0 ≤ z) (hu : z ≤ i64Max) :
    durationSecs z.toNat = z := by
  rw [durationSecs, Int.toNat_of_nonneg h0, min_eq_left hu]

/-- `DEFAULT_TIMESTAMP_TOLERANCE`, in seconds. -/
def defaultTimestampTolerance : ℕ := 300

namespace Timestamp

def saturatingAdd (t : Timestamp) (secs : ℕ) : Timestamp :=
  saturate (t + durationSecs secs)

def saturatingSub (t : Timestamp) (secs : ℕ) : Timestamp :=
  saturate (t - durationSecs secs)

/-- `Timestamp::is_within_tolerance_of`: a difference outside `i64` is never tolerated. -/
def isWithinToleranceOf (t reference : Timestamp) (tolerance : ℕ) : Bool :=
  if i64Min ≤ t - reference ∧ t - reference ≤ i64Max then
    decide ((t - reference).natAbs ≤ tolerance)
  else false

def isInThePast (t reference : Timestamp) : Bool :=
  decide (t < reference)

def isInTheFuture (t reference : Timestamp) : Bool :=
  decide (reference < t)

theorem isInThePast_eq_false {t reference : Timestamp} :
    t.isInThePast reference = false ↔ reference ≤ t := by
  simp [isInThePast]

theorem le_of_isWithinToleranceOf {t reference : Timestamp} {tolerance : ℕ}
    (h : t.isWithinToleranceOf reference tolerance = true) :
    t ≤ reference + tolerance ∧ reference ≤ t + tolerance := by
  unfold isWithinToleranceOf at h
  split_ifs at h
  have hd : (t - reference).natAbs ≤ tolerance := of_decide_eq_true h
  have ha : |t - reference| ≤ tolerance := by
    rw [Int.abs_eq_natAbs]
    exact_mod_cast hd
  obtain ⟨hl, hu⟩ := abs_le.mp ha
  constructor <;> linarith

theorem isWithinToleranceOf_of_le {t reference : Timestamp} {tolerance : ℕ}
    (hu : t ≤ reference + tolerance) (hl : reference ≤ t + tolerance)
    (ht : (tolerance : Int) ≤ i64Max) : t.isWithinToleranceOf reference tolerance = true := by
  have ha : |t - reference| ≤ tolerance := abs_le.mpr ⟨by linarith, by linarith⟩
  have hi : i64Min ≤ t - reference ∧ t - reference ≤ i64Max := by
    obtain ⟨h₁, h₂⟩ := abs_le.mp ha
    unfold i64Min i64Max at *
    constructor <;> linarith
  unfold isWithinToleranceOf
  rw [if_pos hi, decide_eq_true_eq]
  rw [Int.abs_eq_natAbs] at ha
  exact_mod_cast ha

theorem isWithinToleranceOf_of_saturatingAdd_lt {t now : Timestamp} {tolerance : ℕ}
    (h : t.saturatingAdd tolerance < now) (hn : now ≤ i64Max)
    (ht : tolerance ≤ defaultTimestampTolerance) :
    t.isWithinToleranceOf now tolerance = false := by
  rw [Bool.eq_false_iff]
  intro hw
  have hl := (le_of_isWithinToleranceOf hw).2
  have hd : durationSecs tolerance = tolerance := by
    have hm : (tolerance : Int) ≤ defaultTimestampTolerance := by exact_mod_cast ht
    exact min_eq_left (hm.trans (by decide))
  rw [saturatingAdd, saturate, hd] at h
  rcases max_lt_iff.mp h with ⟨-, h⟩
  rcases min_lt_iff.mp h with h | h <;> linarith

/-! ## Saturation within range -/

theorem saturatingAdd_toNat_sub {t e : Timestamp} (he : e.Fits) (hle : t ≤ e)
    (hd : e - t ≤ i64Max) : t.saturatingAdd (e - t).toNat = e := by
  have h0 : 0 ≤ e - t := sub_nonneg.mpr hle
  rw [saturatingAdd, durationSecs_toNat h0 hd, add_sub_cancel, saturate_of_fits he]

theorem saturatingAdd_sub_le (t : Timestamp) (ht : t.Fits) (secs : ℕ) :
    t.saturatingAdd secs - t ≤ secs := by
  obtain ⟨hl, -⟩ := ht
  have h1 : durationSecs secs ≤ secs := min_le_left _ _
  have h2 : (0 : Int) ≤ secs := Int.natCast_nonneg secs
  have hs : t.saturatingAdd secs ≤ max t (t + durationSecs secs) :=
    max_le (hl.trans (le_max_left _ _)) ((min_le_right _ _).trans (le_max_right _ _))
  rcases le_max_iff.mp hs with h | h <;> linarith

theorem le_saturatingAdd {t : Timestamp} (ht : t.Fits) (secs : ℕ) :
    t ≤ t.saturatingAdd secs := by
  have h0 : 0 ≤ durationSecs secs := le_min (Int.natCast_nonneg _) (by decide)
  refine le_max_of_le_right (le_min ht.2 ?_)
  linarith

theorem saturatingSub_le {t : Timestamp} (ht : t.Fits) (secs : ℕ) : t.saturatingSub secs ≤ t := by
  have h0 : 0 ≤ durationSecs secs := le_min (Int.natCast_nonneg _) (by decide)
  refine max_le ht.1 ((min_le_right _ _).trans ?_)
  linarith

theorem lt_saturatingAdd {t : Timestamp} (ht : t < i64Max) {secs : ℕ} (hs : 0 < secs) :
    t < t.saturatingAdd secs := by
  have h0 : 0 < durationSecs secs := lt_min (Int.natCast_pos.mpr hs) (by decide)
  refine lt_max_of_lt_right (lt_min ht ?_)
  linarith

theorem saturatingSub_zero {t : Timestamp} (ht : t.Fits) : t.saturatingSub 0 = t := by
  have h0 : durationSecs 0 = 0 := rfl
  rw [saturatingSub, h0, sub_zero, saturate_of_fits ht]

theorem saturatingAdd_zero {t : Timestamp} (ht : t.Fits) : t.saturatingAdd 0 = t := by
  have h0 : durationSecs 0 = 0 := rfl
  rw [saturatingAdd, h0, add_zero, saturate_of_fits ht]

theorem saturatingAdd_of_fits {t : Timestamp} {secs : ℕ} (hs : (secs : Int) ≤ i64Max)
    (h : Timestamp.Fits (t + secs)) : t.saturatingAdd secs = t + secs := by
  rw [saturatingAdd, durationSecs, min_eq_left hs, saturate_of_fits h]

theorem saturatingSub_le_iff {t e : Timestamp} (ht : t.Fits) (he : e.Fits) (secs : ℕ) :
    t.saturatingSub secs ≤ e ↔ t ≤ e + durationSecs secs := by
  have h0 : 0 ≤ durationSecs secs := le_min (Int.natCast_nonneg _) (by decide)
  have hu : t - durationSecs secs ≤ i64Max := (sub_le_self t h0).trans ht.2
  rw [saturatingSub, saturate, min_eq_right hu, max_le_iff]
  constructor
  · rintro ⟨-, h⟩
    linarith
  · intro h
    exact ⟨he.1, by linarith⟩

theorem le_saturatingAdd_iff {t e : Timestamp} (ht : t.Fits) (he : e.Fits) (secs : ℕ) :
    e ≤ t.saturatingAdd secs ↔ e ≤ t + durationSecs secs := by
  have h0 : 0 ≤ durationSecs secs := le_min (Int.natCast_nonneg _) (by decide)
  have hl : i64Min ≤ min i64Max (t + durationSecs secs) :=
    le_min (by decide) (ht.1.trans (le_add_of_nonneg_right h0))
  rw [saturatingAdd, saturate, max_eq_right hl, le_min_iff]
  constructor
  · exact And.right
  · exact fun h => ⟨he.2, h⟩

theorem min_saturatingAdd {t m : Timestamp} {secs : ℕ} (ht : t.Fits) (hm : m.Fits)
    (hs : (secs : Int) ≤ i64Max) : min (t.saturatingAdd secs) m = min (t + secs) m := by
  have hl : i64Min ≤ t + (secs : Int) := ht.1.trans (le_add_of_nonneg_right (by positivity))
  have hf : Timestamp.Fits (min (t + (secs : Int)) m) :=
    ⟨le_min hl hm.1, (min_le_right _ _).trans hm.2⟩
  rw [saturatingAdd, durationSecs, min_eq_left hs, ← saturate_min hm]
  exact saturate_of_fits hf

end Timestamp

end Aitp
