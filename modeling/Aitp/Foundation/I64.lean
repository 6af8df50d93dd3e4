import Mathlib.Algebra.Group.Nat.Defs
import Mathlib.Algebra.Order.Group.Unbundled.Int
import Mathlib.Data.Int.Notation
import Mathlib.Data.Nat.Notation
import Mathlib.Tactic.Common

/-! # Arithmetic of `i64`

The operations that a wrapping machine word offers against overflow: checked, saturating and
unsigned. Each is stated by the integer it stands for.
-/

namespace Aitp

namespace I64

def checkedSub (a b : Int64) : Option Int64 :=
  if a.toBitVec.ssubOverflow b.toBitVec then none else some (a - b)

/-- `i64::saturating_add`: only numbers of one sign overflow. -/
def saturatingAdd (a b : Int64) : Int64 :=
  if a.toBitVec.saddOverflow b.toBitVec then
    if a < 0 then Int64.minValue else Int64.maxValue
  else a + b

/-- `i64::saturating_sub`: only numbers of different signs overflow. -/
def saturatingSub (a b : Int64) : Int64 :=
  if a.toBitVec.ssubOverflow b.toBitVec then
    if a < 0 then Int64.minValue else Int64.maxValue
  else a - b

def unsignedAbs (a : Int64) : UInt64 :=
  if a < 0 then (-a).toUInt64 else a.toUInt64

/-- `i64::try_from` of a `u64`. -/
def tryFrom (n : UInt64) : Option Int64 :=
  if n ≤ Int64.maxValue.toUInt64 then some n.toInt64 else none

variable {a b : Int64}

theorem bounds (a : Int64) : -2 ^ 63 ≤ a.toInt ∧ a.toInt < 2 ^ 63 :=
  ⟨a.le_toInt, a.toInt_lt⟩

theorem ssubOverflow_iff : a.toBitVec.ssubOverflow b.toBitVec = true ↔
    2 ^ 63 ≤ a.toInt - b.toInt ∨ a.toInt - b.toInt < -2 ^ 63 := by
  simp [BitVec.ssubOverflow]

theorem saddOverflow_iff : a.toBitVec.saddOverflow b.toBitVec = true ↔
    2 ^ 63 ≤ a.toInt + b.toInt ∨ a.toInt + b.toInt < -2 ^ 63 := by
  simp [BitVec.saddOverflow]

theorem toInt_sub_of_not_overflow (h : ¬ a.toBitVec.ssubOverflow b.toBitVec) :
    (a - b).toInt = a.toInt - b.toInt :=
  BitVec.toInt_sub_of_not_ssubOverflow h

theorem toInt_add_of_not_overflow (h : ¬ a.toBitVec.saddOverflow b.toBitVec) :
    (a + b).toInt = a.toInt + b.toInt :=
  BitVec.toInt_add_of_not_saddOverflow h

theorem toInt_checkedSub {d : Int64} (h : checkedSub a b = some d) :
    d.toInt = a.toInt - b.toInt := by
  unfold checkedSub at h
  split_ifs at h with ho
  obtain rfl := Option.some.inj h
  exact toInt_sub_of_not_overflow ho

theorem of_checkedSub_eq_none (h : checkedSub a b = none) :
    2 ^ 63 ≤ a.toInt - b.toInt ∨ a.toInt - b.toInt < -2 ^ 63 := by
  unfold checkedSub at h
  split_ifs at h with ho
  exact ssubOverflow_iff.mp ho

/-- A result that stands for `z`, the end on the side of `a` if it overflows. -/
theorem toInt_saturated {o : Bool} {c : Int64} {z : ℤ}
    (ho : o = true ↔ 2 ^ 63 ≤ z ∨ z < -2 ^ 63) (hc : ¬ o → c.toInt = z)
    (hneg : a.toInt < 0 → z < 2 ^ 63) (hnn : 0 ≤ a.toInt → -2 ^ 63 ≤ z) :
    (if o then if a < 0 then Int64.minValue else Int64.maxValue else c).toInt =
      max (-2 ^ 63) (min (2 ^ 63 - 1) z) := by
  split_ifs with h hs
  · have hz := hneg (Int64.lt_iff_toInt_lt.mp hs)
    have ho := ho.mp h
    rw [Int64.toInt_minValue]
    omega
  · have hz := hnn (not_lt.mp fun ha => hs (Int64.lt_iff_toInt_lt.mpr ha))
    have ho := ho.mp h
    rw [Int64.toInt_maxValue]
    omega
  · have ho := mt ho.mpr h
    rw [hc h]
    omega

theorem toInt_saturatingAdd (a b : Int64) :
    (saturatingAdd a b).toInt = max (-2 ^ 63) (min (2 ^ 63 - 1) (a.toInt + b.toInt)) := by
  have hb := bounds b
  apply toInt_saturated saddOverflow_iff toInt_add_of_not_overflow
  · intro h
    omega
  · intro h
    omega

theorem toInt_saturatingSub (a b : Int64) :
    (saturatingSub a b).toInt = max (-2 ^ 63) (min (2 ^ 63 - 1) (a.toInt - b.toInt)) := by
  have hb := bounds b
  apply toInt_saturated ssubOverflow_iff toInt_sub_of_not_overflow
  · intro h
    omega
  · intro h
    omega

theorem toInt_eq (a : Int64) : a.toInt =
    if 2 * a.toUInt64.toNat < 2 ^ 64 then (a.toUInt64.toNat : ℤ)
    else (a.toUInt64.toNat : ℤ) - 2 ^ 64 :=
  BitVec.toInt_eq_toNat_cond a.toBitVec

theorem toNat_unsignedAbs (a : Int64) : (unsignedAbs a).toNat = a.toInt.natAbs := by
  have hlt := a.toUInt64.toNat_lt
  have he := toInt_eq a
  unfold unsignedAbs
  split_ifs with hs
  · have hneg : a.toInt < 0 := Int64.lt_iff_toInt_lt.mp hs
    have hsize : UInt64.size = 2 ^ 64 := rfl
    rw [Int64.toUInt64_neg, UInt64.toNat_neg, hsize]
    split_ifs at he <;> omega
  · have hnn : ¬ a.toInt < 0 := fun h => hs (Int64.lt_iff_toInt_lt.mpr h)
    split_ifs at he <;> omega

theorem toInt_tryFrom_getD (n : UInt64) :
    ((tryFrom n).getD Int64.maxValue).toInt = min (n.toNat : ℤ) (2 ^ 63 - 1) := by
  have hm : Int64.maxValue.toUInt64.toNat = 2 ^ 63 - 1 := rfl
  unfold tryFrom
  split_ifs with h
  · have hle : n.toNat ≤ 2 ^ 63 - 1 := hm ▸ UInt64.le_iff_toNat_le.mp h
    have he : n.toInt64.toInt = n.toNat := by
      have he := toInt_eq n.toInt64
      rw [UInt64.toUInt64_toInt64] at he
      split_ifs at he <;> omega
    rw [Option.getD_some, he]
    omega
  · have hlt : ¬ n.toNat ≤ 2 ^ 63 - 1 := fun hle => h (UInt64.le_iff_toNat_le.mpr (hm ▸ hle))
    rw [Option.getD_none, Int64.toInt_maxValue]
    omega

end I64

end Aitp
