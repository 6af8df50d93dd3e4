import Mathlib.Algebra.Group.Nat.Defs
import Mathlib.Tactic.Common

/-! # Floating point numbers

A `binary64` number divided by itself is one, or no number; neither is below a
number that is at most one.
-/

open Float.Model Float.Model.UnpackedFloat

namespace Binary64

/-- One, unpacked. -/
def unit : UnpackedFloat := .finite .positive (2 ^ 52) (-52) (by decide)

theorem unpack_one : (1 : Float).toModel.unpack = unit := rfl

theorem divCore_self {m : Nat} (hm : 0 < m) (e : Int) :
    divCore Format.binary64 m e m e = (2 ^ 53, -53, .exact) := by
  have ht : min 0 (Format.binary64.targetExponent 0) = -53 := by decide
  simp only [divCore, Int.sub_self, ht]
  simp [accuracyOfFraction, Nat.shiftLeft_eq, Nat.mul_div_cancel_left _ hm]

theorem div_self (x : UnpackedFloat) : UnpackedFloat.div Format.binary64 x x = .notANumber ∨
    UnpackedFloat.div Format.binary64 x x = unit := by
  cases x with
  | infinity s => exact .inl rfl
  | notANumber => exact .inl rfl
  | zero s => exact .inl rfl
  | finite s m e hm =>
    right
    have hs : s / s = .positive := by cases s <;> rfl
    have hc := divCore_self hm e
    change roundWithAccuracy Format.binary64 (s / s) (divCore Format.binary64 m e m e).1
      (divCore Format.binary64 m e m e).2.1 (divCore Format.binary64 m e m e).2.2 = unit
    rw [hs, hc]
    rfl

theorem unpack_div_self (x : Float) : (x / x).toModel.unpack = .notANumber ∨
    (x / x).toModel.unpack = unit := by
  have hx : (x / x).toModel = pack (UnpackedFloat.div Format.binary64 x.toModel.unpack
    x.toModel.unpack) := rfl
  rw [hx]
  rcases div_self x.toModel.unpack with h | h
  · left
    rw [h]
    rfl
  · right
    rw [h]
    rfl

theorem not_unit_lt {y : UnpackedFloat} (h : y.le unit = true) : unit.lt y = false := by
  cases y with
  | infinity s => cases s <;> first | rfl | cases h
  | notANumber => rfl
  | zero s => rfl
  | finite s m e hm =>
    cases s with
    | negative => rfl
    | positive =>
      have hle : ((compare e (-52)).then (compare m (2 ^ 52))).isLE = true := h
      have hlt : ((compare (-52) e).then (compare (2 ^ 52) m)) ≠ .lt := by
        rw [← Int.compare_swap e, ← Nat.compare_swap m, ← Ordering.swap_then]
        intro hgt
        rw [Ordering.swap_eq_lt] at hgt
        rw [hgt] at hle
        cases hle
      change (some ((compare (-52) e).then (compare (2 ^ 52) m)) == some Ordering.lt) = false
      rw [beq_eq_false_iff_ne]
      exact fun hs => hlt (Option.some.inj hs)

theorem not_div_self_lt {x y : Float} (h : y ≤ 1) : ¬ x / x < y := by
  have hy : y.toModel.unpack.le unit = true := by
    rw [← unpack_one]
    exact of_decide_eq_true h
  intro hlt
  have hxy : (x / x).toModel.unpack.lt y.toModel.unpack = true := of_decide_eq_true hlt
  rcases unpack_div_self x with hd | hd
  · rw [hd] at hxy
    cases hxy
  · rw [hd, not_unit_lt hy] at hxy
    cases hxy

end Binary64
