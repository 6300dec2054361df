/-
The multiplication of the FP32 lane returns the rounded product.
-/
import OpenRV64.Fp32Sum

namespace OpenRV64

open NearestEven Binary32 Fp32

/-- The product of two significands, jammed to 27 bits. -/
theorem product_stands {sigA sigB : BitVec 32} (hA : 2 ^ 23 ≤ sigA.toNat ∧ sigA.toNat < 2 ^ 24)
    (hB : 2 ^ 23 ≤ sigB.toNat ∧ sigB.toNat < 2 ^ 24) (expA expB : ℤ) :
    let product : BitVec 64 := sigA.setWidth 64 * sigB.setWidth 64
    let r := if product.getLsbD 47 then (expA + expB + 1, 21) else (expA + expB, (20 : ℤ))
    Stands (sigA.toNat * 2 ^ (expA - 23) * (sigB.toNat * 2 ^ (expB - 23)))
      (shiftRightJam product r.2) r.1 := by
  intro product r
  have hlow : 2 ^ 23 * 2 ^ 23 ≤ sigA.toNat * sigB.toNat := Nat.mul_le_mul hA.1 hB.1
  have hhigh : sigA.toNat * sigB.toNat < 2 ^ 24 * 2 ^ 24 := Nat.mul_lt_mul_of_lt_of_lt hA.2 hB.2
  have hproduct : product.toNat = sigA.toNat * sigB.toNat := by
    rw [BitVec.toNat_mul, BitVec.toNat_setWidth, BitVec.toNat_setWidth,
      Nat.mod_eq_of_lt (by omega : sigA.toNat < 2 ^ 64),
      Nat.mod_eq_of_lt (by omega : sigB.toNat < 2 ^ 64), Nat.mod_eq_of_lt (by omega)]
  have hexact : Tracks 2 ((product.toNat : ℤ) : ℚ) (product.toNat : ℤ) := Tracks.exact 2 _
  have hcarry := getLsbD_eq_false_iff (t := 47) (x := product) (by omega)
  have hscale : ∀ d : ℕ, (sigA.toNat : ℚ) * 2 ^ (expA - 23) * (sigB.toNat * 2 ^ (expB - 23)) =
      (product.toNat : ℤ) / 2 ^ d * 2 ^ (expA + expB + (d - 20) - 26) := by
    intro d
    rw [hproduct, show expA + expB + ((d : ℤ) - 20) - 26 = expA - 23 + (expB - 23) + d by ring,
      zpow_add₀ (by norm_num : (2 : ℚ) ≠ 0) _ (d : ℤ), zpow_add₀ (by norm_num), zpow_natCast]
    push_cast
    field_simp
  have hstands : ∀ d : ℕ, 2 ^ (26 + d) ≤ product.toNat → product.toNat < 2 ^ (27 + d) →
      Stands (sigA.toNat * 2 ^ (expA - 23) * (sigB.toNat * 2 ^ (expB - 23)))
        (shiftRightJam product d) (expA + expB + (d - 20)) := by
    intro d hle hlt
    rw [Stands, shiftRightJam_toNat product (Int.natCast_nonneg d), Int.toNat_natCast]
    refine ⟨⟨?_, jam_lt hlt⟩, _, ?_, hscale d⟩
    · apply le_trans _ (div_le_jam _ _)
      rw [Nat.le_div_iff_mul_le (pow_pos (by decide) d), ← pow_add]
      exact hle
    · refine (hexact.jam ?_).coarser (by decide)
      rw [pow_succ]
      exact dvd_mul_left 2 (2 ^ d)
  cases hbit : product.getLsbD 47
  case true =>
    have hge : 2 ^ 47 ≤ product.toNat := by
      rw [hbit, iff_comm] at hcarry
      exact not_lt.mp (fun hlt => absurd (hcarry.mp hlt) (by decide))
    have hr : r = (expA + expB + 1, 21) := if_pos hbit
    rw [hr]
    exact hstands 21 hge (by omega)
  case false =>
    have hr : r = (expA + expB, 20) := if_neg (by rw [hbit]; exact Bool.false_ne_true)
    have hlast := hstands 20 (by omega) (hcarry.mp hbit)
    rw [hr]
    norm_num at hlast
    exact hlast

theorem negateFp32_toNat (a : BitVec 32) :
    (negateFp32 a).toNat = (!a.msb).toNat * 2 ^ 31 + body a := by
  have hlow := (a.extractLsb' 0 31).isLt
  rw [negateFp32, BitVec.toNat_append, ← Nat.shiftLeft_add_eq_or_of_lt hlow, Nat.shiftLeft_eq,
    BitVec.toNat_ofBool, sign_eq_msb, BitVec.extractLsb'_toNat, Nat.shiftRight_zero, body]

theorem body_lt (a : BitVec 32) : body a < 2 ^ 31 := Nat.mod_lt _ (by decide)

theorem body_negateFp32 (a : BitVec 32) : body (negateFp32 a) = body a := by
  have hlt := body_lt a
  rw [body, negateFp32_toNat]
  omega

theorem negateFp32_msb (a : BitVec 32) : (negateFp32 a).msb = !a.msb := by
  have hlt := body_lt a
  rw [BitVec.msb_eq_decide, negateFp32_toNat]
  cases a.msb
  · rw [Bool.not_false, Bool.toNat_true, decide_eq_true_iff]
    omega
  · rw [Bool.not_true, Bool.toNat_false, decide_eq_false_iff_not]
    omega

theorem rounds_negate {a : BitVec 32} (hfinite : IsFinite a) (hz : body a ≠ 0)
    (negative : Bool) : Rounds negative (-(signOf a.msb * magnitude (body a))) (negateFp32 a) := by
  have hself := rounds_self (a := negateFp32 a) (by rw [IsFinite, body_negateFp32]; exact hfinite)
    (by rw [body_negateFp32]; exact hz) negative
  rwa [body_negateFp32, negateFp32_msb, signOf_ne, neg_mul] at hself

theorem magnitude_one : magnitude (127 * 2 ^ 23) = 1 := by
  rw [show 127 * 2 ^ 23 = 126 * 2 ^ 23 + 2 ^ 23 by norm_num,
    magnitude_base_add (by norm_num) (.inl le_rfl)]
  norm_num

theorem value_one : signOf (sign 0x3f800000) * magnitude (body 0x3f800000) = 1 := by
  rw [show sign 0x3f800000 = false by decide, show body 0x3f800000 = 127 * 2 ^ 23 by decide,
    magnitude_one, signOf]
  simp

theorem value_neg_one : signOf (sign 0xbf800000) * magnitude (body 0xbf800000) = -1 := by
  rw [show sign 0xbf800000 by decide, show body 0xbf800000 = 127 * 2 ^ 23 by decide,
    magnitude_one, signOf]
  simp

theorem signOf_xor (s t : Bool) : signOf (s ^^ t) = signOf s * signOf t := by
  cases s <;> cases t <;> simp [signOf]

/-- Two finite operands, neither of them zero, that go through the multiplier. -/
theorem multiplyFp32_rounds {a b : BitVec 32} (hzeroA : body a ≠ 0) (hzeroB : body b ≠ 0)
    (negative : Bool) :
    Rounds negative (signOf (sign a) * magnitude (body a) * (signOf (sign b) * magnitude (body b)))
      (let product : BitVec 64 := (unpackFp32 normalizeFactor a).1.setWidth 64 *
          (unpackFp32 normalizeFactor b).1.setWidth 64
        let r := if product.getLsbD 47 then
            ((unpackFp32 normalizeFactor a).2 + (unpackFp32 normalizeFactor b).2 + 1, 21)
          else ((unpackFp32 normalizeFactor a).2 + (unpackFp32 normalizeFactor b).2, (20 : ℤ))
        roundPack (sign a ^^ sign b) r.1 (shiftRightJam product r.2)) := by
  obtain ⟨hA, hmagA⟩ := unpackFp32_spec normalizeFactor_normalizes hzeroA
  obtain ⟨hB, hmagB⟩ := unpackFp32_spec normalizeFactor_normalizes hzeroB
  have hpos := mul_pos (magnitude_body_pos hzeroA) (magnitude_body_pos hzeroB)
  have hx : signOf (sign a) * magnitude (body a) * (signOf (sign b) * magnitude (body b)) =
        signOf (sign a ^^ sign b) * (magnitude (body a) * magnitude (body b)) := by
    rw [signOf_xor]
    ring
  have hstands := product_stands hA hB (unpackFp32 normalizeFactor a).2
    (unpackFp32 normalizeFactor b).2
  rw [hx]
  rw [hmagA, hmagB] at hpos ⊢
  exact hstands.rounds_signOf hpos _ _

theorem zero_of_inf {a : BitVec 32} (h : inf a) : zero a = false := by
  rw [inf_iff] at h
  rw [Bool.eq_false_iff, ne_eq, zero_iff, h]
  decide

/-- `multiply_fp32` returns the rounded product. -/
theorem multiplyFp32_isProduct (a b : BitVec 32) :
    IsProduct (datum a) (datum b) (multiplyFp32 a b) := by
  cases hnanA : nan a
  case true =>
    rw [datum_of_nan hnanA, multiplyFp32, hnanA]
    rfl
  cases hnanB : nan b
  case true =>
    rw [datum_of_nan hnanB, multiplyFp32, hnanB, Bool.or_true]
    cases datum a <;> rfl
  cases hinfA : inf a
  case true =>
    rw [datum_of_inf hinfA]
    cases hinfB : inf b
    case true =>
      rw [datum_of_inf hinfB]
      simp only [multiplyFp32, hnanA, hnanB, hinfA, hinfB, zero_of_inf hinfA, zero_of_inf hinfB,
        IsProduct, Bool.and_false, Bool.or_false, Bool.or_true, if_true, Bool.false_eq_true,
        if_false]
      exact datum_infinity _
    case false =>
      rw [datum_of_finite hnanB hinfB]
      cases hzeroB : zero b
      case true =>
        simp [multiplyFp32, hnanA, hnanB, hinfA, hzeroB, IsProduct, magnitude_of_zero, canonicalNan]
      case false =>
        simp only [multiplyFp32, hnanA, hnanB, hinfA, hinfB, hzeroB, IsProduct, Bool.and_false,
          Bool.false_and, Bool.or_false, if_true, if_low,
          (magnitude_body_pos (body_ne_zero hzeroB)).ne']
        exact datum_infinity _
  cases hinfB : inf b
  case true =>
    rw [datum_of_finite hnanA hinfA, datum_of_inf hinfB]
    cases hzeroA : zero a
    case true =>
      simp [multiplyFp32, hnanA, hnanB, hinfB, hzeroA, IsProduct, magnitude_of_zero, canonicalNan]
    case false =>
      simp only [multiplyFp32, hnanA, hnanB, hinfA, hinfB, hzeroA, IsProduct, Bool.and_false,
        Bool.false_and, Bool.or_false, Bool.or_true, if_true, if_low,
        (magnitude_body_pos (body_ne_zero hzeroA)).ne']
      exact datum_infinity _
  rw [datum_of_finite hnanA hinfA, datum_of_finite hnanB hinfB]
  simp only [multiplyFp32, hnanA, hnanB, hinfA, hinfB, IsProduct, Bool.false_and, Bool.or_false,
    if_low]
  cases hzeroA : zero a
  case true =>
    rw [magnitude_of_zero hzeroA, mul_zero, zero_mul]
    exact rounds_zero _
  cases hzeroB : zero b
  case true =>
    rw [magnitude_of_zero hzeroB, mul_zero, mul_zero]
    exact rounds_zero _
  have hselfA := rounds_self (isFinite_of hnanA hinfA) (body_ne_zero hzeroA)
  have hselfB := rounds_self (isFinite_of hnanB hinfB) (body_ne_zero hzeroB)
  have hnegA := rounds_negate (isFinite_of hnanA hinfA) (body_ne_zero hzeroA)
  have hnegB := rounds_negate (isFinite_of hnanB hinfB) (body_ne_zero hzeroB)
  rw [← sign_eq_msb] at hselfA hselfB hnegA hnegB
  by_cases honeA : a = 0x3f800000
  · rw [if_pos honeA, honeA, value_one, one_mul]
    exact hselfB _
  by_cases honeB : b = 0x3f800000
  · rw [if_neg honeA, if_pos honeB, honeB, value_one, mul_one]
    exact hselfA _
  by_cases hnegOneA : a = 0xbf800000
  · rw [if_neg honeA, if_neg honeB, if_pos hnegOneA, hnegOneA, value_neg_one, neg_one_mul]
    exact hnegB _
  by_cases hnegOneB : b = 0xbf800000
  · rw [if_neg honeA, if_neg honeB, if_neg hnegOneA, if_pos hnegOneB, hnegOneB, value_neg_one,
      mul_neg_one]
    exact hnegA _
  rw [if_neg honeA, if_neg honeB, if_neg hnegOneA, if_neg hnegOneB]
  exact multiplyFp32_rounds (body_ne_zero hzeroA) (body_ne_zero hzeroB) _

end OpenRV64
