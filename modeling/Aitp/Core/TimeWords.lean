import Aitp.Core.Time
import Aitp.Foundation.I64

/-! # Timestamps in machine words

`core/time.rs` on the `i64` of a timestamp and the `u64` of a duration's whole seconds. Each
function computes what the one on unbounded integers does.
-/

namespace Aitp

structure Duration where
  secs : UInt64
  nanos : UInt32
  nanos_lt : nanos < 1000000000

def Duration.asSecs (d : Duration) : UInt64 :=
  d.secs

namespace TimeWords

def durationSecs (d : Duration) : Int64 :=
  (I64.tryFrom d.asSecs).getD Int64.maxValue

def saturatingAdd (t : Int64) (d : Duration) : Int64 :=
  I64.saturatingAdd t (durationSecs d)

def saturatingSub (t : Int64) (d : Duration) : Int64 :=
  I64.saturatingSub t (durationSecs d)

def isWithinToleranceOf (t reference : Int64) (tolerance : Duration) : Bool :=
  match I64.checkedSub t reference with
  | some diff => decide (I64.unsignedAbs diff ≤ tolerance.asSecs)
  | none => false

variable {t reference : Int64} {d : Duration}

theorem fits_toInt (t : Int64) : Timestamp.Fits t.toInt := by
  obtain ⟨hl, hu⟩ := I64.bounds t
  exact ⟨hl, Int.le_sub_one_of_lt hu⟩

theorem toInt_ofInt {z : Timestamp} (h : z.Fits) : (Int64.ofInt z).toInt = z :=
  Int64.toInt_ofInt_of_le h.1 (Int.lt_of_le_sub_one h.2)

theorem toInt_durationSecs (d : Duration) :
    (durationSecs d).toInt = Aitp.durationSecs d.asSecs.toNat :=
  I64.toInt_tryFrom_getD d.asSecs

theorem toInt_saturatingAdd (t : Int64) (d : Duration) :
    (saturatingAdd t d).toInt = Timestamp.saturatingAdd t.toInt d.asSecs.toNat := by
  rw [saturatingAdd, I64.toInt_saturatingAdd, toInt_durationSecs]
  rfl

theorem toInt_saturatingSub (t : Int64) (d : Duration) :
    (saturatingSub t d).toInt = Timestamp.saturatingSub t.toInt d.asSecs.toNat := by
  rw [saturatingSub, I64.toInt_saturatingSub, toInt_durationSecs]
  rfl

theorem isWithinToleranceOf_eq (t reference : Int64) (d : Duration) :
    isWithinToleranceOf t reference d =
      Timestamp.isWithinToleranceOf t.toInt reference.toInt d.asSecs.toNat := by
  unfold isWithinToleranceOf Timestamp.isWithinToleranceOf
  cases h : I64.checkedSub t reference with
  | none =>
    have hout := I64.of_checkedSub_eq_none h
    have hn : ¬(i64Min ≤ t.toInt - reference.toInt ∧ t.toInt - reference.toInt ≤ i64Max) := by
      unfold i64Min i64Max
      omega
    rw [if_neg hn]
  | some diff =>
    have hd := I64.toInt_checkedSub h
    have hf : i64Min ≤ t.toInt - reference.toInt ∧ t.toInt - reference.toInt ≤ i64Max :=
      hd ▸ fits_toInt diff
    rw [if_pos hf, ← hd, ← I64.toNat_unsignedAbs]
    exact decide_eq_decide.mpr UInt64.le_iff_toNat_le

/-- Within a tolerance that an `i64` holds, the integers decide. -/
theorem isWithinToleranceOf_iff (hd : d.asSecs.toNat < 2 ^ 63) :
    isWithinToleranceOf t reference d = true ↔
      |t.toInt - reference.toInt| ≤ d.asSecs.toNat := by
  have hm : (d.asSecs.toNat : ℤ) ≤ i64Max := by
    unfold i64Max
    omega
  rw [isWithinToleranceOf_eq, abs_le]
  constructor
  · intro h
    obtain ⟨hu, hl⟩ := Timestamp.le_of_isWithinToleranceOf h
    constructor <;> linarith
  · rintro ⟨hl, hu⟩
    apply Timestamp.isWithinToleranceOf_of_le _ _ hm
    · linarith
    · linarith

end TimeWords

end Aitp
