import Aitp.Crypto.RoundTrip
import Aitp.Foundation.BigEndian

/-! # The size of an RSA modulus

`transport/rsa_floor.rs`: the bits of a modulus are counted from the position of its first octet
that is not zero and the leading zeros of that octet. The count is a `usize` in the code, where it
is exact for every modulus of fewer than 2^61 octets.
-/

namespace Aitp

namespace RsaFloor

def minRsaModulusBits : ℕ := 2048

def leadingZeros (b : UInt8) : ℕ :=
  b.toBitVec.clz.toNat

/-- The bits of a modulus from its most significant set bit on; none of an empty or all-zero one. -/
def modulusBits (bytes : Bytes) : Option ℕ :=
  (bytes.findIdx? fun b => b != 0).map fun first =>
    let significant := bytes.drop first
    let top := significant.headD 0
    let topBits := 8 - leadingZeros top
    topBits + (significant.length - 1) * 8

def rsaModulusBitsOk (nB64 : String) : Bool :=
  match decodeStrict nB64 with
  | none => false
  | some bytes =>
    match modulusBits bytes with
    | none => false
    | some bits => decide (minRsaModulusBits ≤ bits)

theorem topBits_eq_size {top : UInt8} (h : top ≠ 0) : 8 - leadingZeros top = top.toNat.size := by
  have hne : top.toBitVec ≠ 0#8 := fun hz => h (UInt8.toBitVec_inj.mp hz)
  have hlo := BitVec.two_pow_sub_clz_le_toNat_of_ne_zero (by decide) hne
  have hhi : top.toNat < 2 ^ (8 - leadingZeros top) := BitVec.toNat_lt_two_pow_sub_clz
  have hlt : 7 - leadingZeros top < top.toNat.size := Nat.lt_size.mpr hlo
  have hle : top.toNat.size ≤ 8 - leadingZeros top := Nat.size_le.mpr hhi
  have hpos : 0 < 8 - leadingZeros top := by
    by_contra hz
    rw [Nat.eq_zero_of_not_pos hz] at hhi
    have ht : top.toNat = 0 := Nat.lt_one_iff.mp hhi
    exact h (UInt8.toNat_inj.mp ht)
  omega

theorem split_of_position {bytes : Bytes} {first : ℕ}
    (h : (bytes.findIdx? fun b => b != 0) = some first) :
    ∃ top rest, top ≠ 0 ∧ bytes = List.replicate first 0 ++ top :: rest := by
  induction bytes generalizing first with
  | nil => simp at h
  | cons b bytes ih =>
    rw [List.findIdx?_cons] at h
    split_ifs at h with hb
    · obtain rfl := Option.some.inj h
      exact ⟨b, bytes, by simpa using hb, rfl⟩
    · obtain ⟨i, hi, rfl⟩ := Option.map_eq_some_iff.mp h
      obtain ⟨top, rest, ht, rfl⟩ := ih hi
      have hz : b = 0 := by simpa using hb
      refine ⟨top, rest, ht, ?_⟩
      rw [hz, List.replicate_succ, List.cons_append]

theorem value_of_no_position {bytes : Bytes} (h : (bytes.findIdx? fun b => b != 0) = none) :
    BigEndian.value bytes = 0 := by
  have hz : ∀ b ∈ bytes, b = 0 := by
    simpa using List.findIdx?_eq_none_iff.mp h
  rw [List.eq_replicate_of_mem hz, ← List.append_nil (List.replicate _ _),
    BigEndian.value_zeros_append]
  rfl

theorem modulusBits_eq (bytes : Bytes) :
    modulusBits bytes =
      if BigEndian.value bytes = 0 then none else some (BigEndian.value bytes).size := by
  cases h : bytes.findIdx? fun b => b != 0 with
  | none => simp [modulusBits, h, value_of_no_position h]
  | some first =>
    obtain ⟨top, rest, ht, rfl⟩ := split_of_position h
    have hsize := BigEndian.size_value_cons ht rest
    have hpos : BigEndian.value (top :: rest) ≠ 0 := by
      intro hz
      have htop := topBits_eq_size ht
      rw [hz, Nat.size_zero] at hsize
      have hsz : top.toNat.size = 0 := by omega
      exact ht (UInt8.toNat_inj.mp (Nat.size_eq_zero.mp hsz))
    have hd : (List.replicate first 0 ++ top :: rest).drop first = top :: rest :=
      List.drop_left' List.length_replicate
    rw [BigEndian.value_zeros_append, if_neg hpos, hsize]
    simp only [modulusBits, h, Option.map_some, hd, List.headD_cons, List.length_cons,
      Nat.add_sub_cancel, topBits_eq_size ht, Nat.mul_comm]

theorem modulusBits_le {bytes : Bytes} {bits : ℕ} (h : modulusBits bytes = some bits) :
    bits ≤ 8 * bytes.length := by
  rw [modulusBits_eq] at h
  split_ifs at h
  obtain rfl := Option.some.inj h
  apply Nat.size_le.mpr
  have hlt := BigEndian.value_lt bytes
  rwa [Nat.pow_mul]

theorem rsaModulusBitsOk_of_decodeStrict {n : String} {bytes : Bytes}
    (h : decodeStrict n = some bytes) :
    rsaModulusBitsOk n = true ↔ 2 ^ 2047 ≤ BigEndian.value bytes := by
  have hs : ∀ k, k + 1 ≤ (BigEndian.value bytes).size ↔ 2 ^ k ≤ BigEndian.value bytes :=
    fun k => Nat.lt_size
  have hm : minRsaModulusBits = 2047 + 1 := rfl
  rw [← hs, ← hm]
  simp only [rsaModulusBitsOk, h, modulusBits_eq]
  by_cases hz : BigEndian.value bytes = 0
  · simp [hz, hm]
  · simp [hz]

/-- A modulus is accepted exactly when it is the encoding of a number of at least 2048 bits. -/
theorem rsaModulusBitsOk_iff (n : String) : rsaModulusBitsOk n = true ↔
    ∃ bytes, n = encodeBase64Url bytes ∧ 2 ^ 2047 ≤ BigEndian.value bytes := by
  constructor
  · intro h
    cases hb : decodeStrict n with
    | none => simp [rsaModulusBitsOk, hb] at h
    | some bytes =>
      refine ⟨bytes, ?_, (rsaModulusBitsOk_of_decodeStrict hb).mp h⟩
      exact decodeStrict_injective hb (decodeStrict_encodeBase64Url bytes)
  · rintro ⟨bytes, rfl, hv⟩
    exact (rsaModulusBitsOk_of_decodeStrict (decodeStrict_encodeBase64Url bytes)).mpr hv

end RsaFloor

end Aitp
