import Mathlib.Data.Nat.Digits.Lemmas
import Mathlib.Data.Nat.Size
import Aitp.Foundation.Bytes

/-! # Big-endian numbers

A byte string read as a number, the first octet counting most. Leading zeros do not change the
number, its size is told from the first octet that is not zero, and its first bits are those of
its first octets. A number is written in as many octets as are asked for.
-/

namespace Aitp

namespace BigEndian

/-- The number a byte string denotes. -/
def value (bs : Bytes) : ℕ :=
  Nat.ofDigits 256 (bs.reverse.map UInt8.toNat)

/-- The number of the first `n` bits. -/
def leading (n : ℕ) (bs : Bytes) : ℕ :=
  value bs / 2 ^ (8 * bs.length - n)

variable {xs ys xs' : Bytes} {x : UInt8}

@[simp] theorem value_nil : value [] = 0 := rfl

@[simp] theorem value_singleton (x : UInt8) : value [x] = x.toNat := by
  simp [value]

theorem value_append (xs ys : Bytes) :
    value (xs ++ ys) = value xs * 256 ^ ys.length + value ys := by
  simp only [value, List.reverse_append, List.map_append, Nat.ofDigits_append, List.length_map,
    List.length_reverse]
  rw [Nat.add_comm, Nat.mul_comm]

theorem value_cons (x : UInt8) (xs : Bytes) :
    value (x :: xs) = x.toNat * 256 ^ xs.length + value xs := by
  have h := value_append [x] xs
  rwa [value_singleton] at h

theorem digit_lt {bs : Bytes} {d : ℕ} (h : d ∈ bs.reverse.map UInt8.toNat) : d < 256 := by
  obtain ⟨x, -, rfl⟩ := List.mem_map.mp h
  exact x.toNat_lt

theorem value_lt (bs : Bytes) : value bs < 256 ^ bs.length := by
  have h : value bs < 256 ^ (bs.reverse.map UInt8.toNat).length :=
    Nat.ofDigits_lt_base_pow_length (by decide) fun _ => digit_lt
  rwa [List.length_map, List.length_reverse] at h

theorem value_inj (hl : xs.length = ys.length) : value xs = value ys ↔ xs = ys := by
  constructor
  · intro h
    have hd := Nat.ofDigits_inj_of_len_eq (by decide) (by simpa using hl) (fun _ => digit_lt)
      (fun _ => digit_lt) h
    have hi : Function.Injective UInt8.toNat := fun _ _ => UInt8.toNat_inj.mp
    exact List.reverse_injective (List.map_injective_iff.mpr hi hd)
  · rintro rfl
    rfl

/-! ## Size -/

theorem value_zeros_append (n : ℕ) (bs : Bytes) : value (List.replicate n 0 ++ bs) = value bs := by
  induction n with
  | zero => rfl
  | succ n ih =>
    rw [List.replicate_succ, List.cons_append, value_cons, ih]
    simp

theorem size_value_cons (hx : x ≠ 0) (xs : Bytes) :
    (value (x :: xs)).size = x.toNat.size + 8 * xs.length := by
  have hpow : 256 ^ xs.length = 2 ^ (8 * xs.length) := by rw [Nat.pow_mul]
  have hpos : 0 < x.toNat := Nat.pos_of_ne_zero fun h => hx (UInt8.toNat_inj.mp h)
  have hlt := value_lt xs
  apply le_antisymm
  · apply Nat.size_le.mpr
    have hx' : x.toNat + 1 ≤ 2 ^ x.toNat.size := Nat.lt_size_self _
    calc value (x :: xs) < (x.toNat + 1) * 256 ^ xs.length := by
          rw [value_cons, Nat.succ_mul]
          exact Nat.add_lt_add_left hlt _
      _ ≤ 2 ^ x.toNat.size * 256 ^ xs.length := Nat.mul_le_mul_right _ hx'
      _ = 2 ^ (x.toNat.size + 8 * xs.length) := by rw [hpow, Nat.pow_add]
  · have hs : 0 < x.toNat.size := Nat.size_pos.mpr hpos
    have hx' : 2 ^ (x.toNat.size - 1) ≤ x.toNat := Nat.lt_size.mp (by omega)
    have hb : x.toNat.size - 1 + 8 * xs.length < (value (x :: xs)).size := by
      apply Nat.lt_size.mpr
      calc 2 ^ (x.toNat.size - 1 + 8 * xs.length)
          = 2 ^ (x.toNat.size - 1) * 256 ^ xs.length := by rw [hpow, Nat.pow_add]
        _ ≤ x.toNat * 256 ^ xs.length := Nat.mul_le_mul_right _ hx'
        _ ≤ value (x :: xs) := by
          rw [value_cons]
          exact Nat.le_add_right _ _
    omega

/-! ## First bits -/

theorem value_append_div (xs ys : Bytes) : value (xs ++ ys) / 256 ^ ys.length = value xs := by
  rw [value_append, Nat.mul_comm, Nat.mul_add_div (Nat.pow_pos (by decide)),
    Nat.div_eq_of_lt (value_lt ys), Nat.add_zero]

theorem leading_append_cons (xs ys : Bytes) (x : UInt8) {r : ℕ} (hr : r ≤ 8) :
    leading (8 * xs.length + r) (xs ++ x :: ys) = value xs * 2 ^ r + x.toNat / 2 ^ (8 - r) := by
  have he : 8 * (xs ++ x :: ys).length - (8 * xs.length + r) = 8 * ys.length + (8 - r) := by
    simp only [List.length_append, List.length_cons]
    omega
  have hv : value (xs ++ x :: ys) / 256 ^ ys.length = 256 * value xs + x.toNat := by
    rw [List.append_cons, value_append_div, value_append, value_singleton, List.length_singleton,
      Nat.pow_one, Nat.mul_comm]
  have hsplit : 256 = 2 ^ (8 - r) * 2 ^ r := by
    rw [← Nat.pow_add, Nat.sub_add_cancel hr]
  rw [leading, he, Nat.pow_add, Nat.pow_mul, ← Nat.div_div_eq_div_mul]
  change value (xs ++ x :: ys) / 256 ^ ys.length / 2 ^ (8 - r) = _
  rw [hv, hsplit, Nat.mul_assoc, Nat.mul_add_div (Nat.two_pow_pos _), Nat.mul_comm (2 ^ r)]

theorem leading_append (xs ys : Bytes) : leading (8 * xs.length) (xs ++ ys) = value xs := by
  have he : 8 * (xs ++ ys).length - 8 * xs.length = 8 * ys.length := by
    simp only [List.length_append]
    omega
  rw [leading, he, Nat.pow_mul]
  exact value_append_div xs ys

theorem leading_take {bs : Bytes} {k : ℕ} (hk : k ≤ bs.length) :
    leading (8 * k) bs = value (bs.take k) := by
  have h := leading_append (bs.take k) (bs.drop k)
  rwa [List.length_take_of_le hk, List.take_append_drop] at h

theorem leading_append_cons_inj (x x' : UInt8) (ys ys' : Bytes) (hl : xs.length = xs'.length)
    {r : ℕ} (hr : r ≤ 8) :
    leading (8 * xs.length + r) (xs ++ x :: ys) = leading (8 * xs.length + r) (xs' ++ x' :: ys') ↔
      xs = xs' ∧ x.toNat / 2 ^ (8 - r) = x'.toNat / 2 ^ (8 - r) := by
  have hlt : ∀ y : UInt8, y.toNat / 2 ^ (8 - r) < 2 ^ r := by
    intro y
    apply Nat.div_lt_of_lt_mul
    rw [← Nat.pow_add, Nat.sub_add_cancel hr]
    exact y.toNat_lt
  have hx := hlt x
  have hx' := hlt x'
  rw [leading_append_cons _ _ _ hr, hl, leading_append_cons _ _ _ hr]
  constructor
  · intro h
    have hd := congrArg (· / 2 ^ r) h
    have hm := congrArg (· % 2 ^ r) h
    simp only [Nat.mul_comm _ (2 ^ r), Nat.mul_add_div (Nat.two_pow_pos r), Nat.div_eq_of_lt hx,
      Nat.div_eq_of_lt hx', Nat.add_zero] at hd
    simp only [Nat.mul_comm _ (2 ^ r), Nat.mul_add_mod, Nat.mod_eq_of_lt hx,
      Nat.mod_eq_of_lt hx'] at hm
    exact ⟨(value_inj hl).mp hd, hm⟩
  · rintro ⟨rfl, h⟩
    rw [h]

/-! ## Writing -/

/-- The last octets of a number. -/
def ofNat : ℕ → ℕ → Bytes
  | 0, _ => []
  | len + 1, n => ofNat len (n / 256) ++ [UInt8.ofNat n]

@[simp] theorem length_ofNat (len n : ℕ) : (ofNat len n).length = len := by
  induction len generalizing n with
  | zero => rfl
  | succ len ih => rw [ofNat, List.length_append, ih, List.length_singleton]

theorem value_ofNat (len n : ℕ) : value (ofNat len n) = n % 256 ^ len := by
  induction len generalizing n with
  | zero => rw [ofNat, value_nil, Nat.pow_zero, Nat.mod_one]
  | succ len ih =>
    rw [ofNat, value_append, ih, value_singleton, List.length_singleton, Nat.pow_one, Nat.pow_succ',
      Nat.mod_mul, Nat.add_comm, Nat.mul_comm, UInt8.toNat_ofNat']

theorem value_ofNat_of_lt {len n : ℕ} (h : n < 256 ^ len) : value (ofNat len n) = n := by
  rw [value_ofNat, Nat.mod_eq_of_lt h]

end BigEndian

end Aitp
