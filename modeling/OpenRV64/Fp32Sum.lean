/-
The operands of the FP32 operations, and the addition: aligned operands are followed by what
they stand for until the difference is normalized again.
-/
import OpenRV64.Fp32Exact
import Mathlib.Data.Nat.Cast.Field
import Mathlib.Tactic.IntervalCases

namespace OpenRV64

open NearestEven Binary32 Fp32
open BitVec (toNat_inj toNat_setWidth lt_def le_def toNat)

section Operands

theorem eq_zero_iff_toNat {w : ℕ} (x : BitVec w) : x = 0 ↔ x.toNat = 0 := by
  simp [← toNat_inj]

variable (a : BitVec 32)

theorem sign_eq_msb : sign a = a.msb := by
  rw [sign, BitVec.msb_eq_getLsbD_last]

theorem body_eq : body a = (field a).toNat * 2 ^ 23 + (fraction a).toNat := by
  have ha := a.isLt
  rw [body, field, fraction, BitVec.extractLsb'_toNat, BitVec.extractLsb'_toNat,
    Nat.shiftRight_eq_div_pow, Nat.shiftRight_eq_div_pow]
  omega

theorem nan_iff : nan a ↔ infinity < body a := by
  have hfield := (field a).isLt
  have hfraction := (fraction a).isLt
  rw [body_eq, infinity, nan, Bool.and_eq_true, beq_iff_eq, bne_iff_ne, ne_eq,
    eq_zero_iff_toNat, ← toNat_inj, BitVec.toNat_allOnes]
  omega

theorem inf_iff : inf a ↔ body a = infinity := by
  have hfield := (field a).isLt
  have hfraction := (fraction a).isLt
  rw [body_eq, infinity, inf, Bool.and_eq_true, beq_iff_eq, beq_iff_eq,
    eq_zero_iff_toNat, ← toNat_inj, BitVec.toNat_allOnes]
  omega

theorem zero_iff : Fp32.zero a ↔ body a = 0 := by
  have hfield := (field a).isLt
  have hfraction := (fraction a).isLt
  rw [body_eq, Fp32.zero, Bool.and_eq_true, beq_iff_eq, beq_iff_eq,
    eq_zero_iff_toNat, eq_zero_iff_toNat]
  omega

variable {a}

/-- The operand of an operation is a significand with bit 23 at the top and an exponent. -/
theorem unpackFp32_spec {f : BitVec 32 × ℤ → BitVec 32 × ℤ} (hf : Normalizes 23 f)
    (hz : body a ≠ 0) :
    (2 ^ 23 ≤ (unpackFp32 f a).1.toNat ∧ (unpackFp32 f a).1.toNat < 2 ^ 24) ∧
      magnitude (body a) = (unpackFp32 f a).1.toNat * 2 ^ ((unpackFp32 f a).2 - 23) := by
  have hfraction := (fraction a).isLt
  have hbody := body_eq a
  rw [unpackFp32]
  split_ifs with hfield
  · rw [(eq_zero_iff_toNat _).mp hfield] at hbody
    have hsig : ((fraction a).setWidth 32 : BitVec 32).toNat = (fraction a).toNat := by
      rw [toNat_setWidth]
      omega
    have hbody' : body a = (fraction a).toNat := by omega
    obtain ⟨k, hshift, hexp, hrng, hdone⟩ := hf.iterate (by decide)
      (s := ((fraction a).setWidth 32, -126))
      (fun h0 => hz (by rw [hbody', ← hsig]; exact congrArg toNat h0))
      (by rw [hsig]; omega) 24
    rw [hsig] at hshift hrng hdone
    rw [hshift, hexp]
    refine ⟨⟨?_, hrng⟩, ?_⟩
    · rcases hdone with hdone | rfl
      · exact hdone
      · omega
    · have hmag := magnitude_base_add (k := 0) (m := (fraction a).toNat) (by omega) (.inr rfl)
      rw [zero_mul, zero_add] at hmag
      rw [hbody', hmag, show (-126 : ℤ) - k - 23 = ((0 : ℕ) : ℤ) - 149 - k by omega,
        zpow_sub₀ (by norm_num : (2 : ℚ) ≠ 0) _ (k : ℤ), zpow_natCast]
      push_cast
      field_simp
  · have hpos : (field a).toNat ≠ 0 := fun h0 => hfield ((eq_zero_iff_toNat _).mpr h0)
    have hsig : (((1 : BitVec 1) ++ fraction a).setWidth 32 : BitVec 32).toNat =
        2 ^ 23 + (fraction a).toNat := by
      rw [toNat_setWidth, BitVec.toNat_append, ← Nat.shiftLeft_add_eq_or_of_lt hfraction,
        Nat.shiftLeft_eq]
      simp
      omega
    rw [hsig]
    refine ⟨⟨by omega, by omega⟩, ?_⟩
    obtain ⟨k, hk⟩ : ∃ k, (field a).toNat = k + 1 := ⟨_, (Nat.succ_pred hpos).symm⟩
    have hmag := magnitude_base_add (k := k) (m := 2 ^ 23 + (fraction a).toNat) (by omega)
      (.inl (by omega))
    rw [hbody, hk, show (k + 1) * 2 ^ 23 + (fraction a).toNat =
      k * 2 ^ 23 + (2 ^ 23 + (fraction a).toNat) by ring, hmag]
    congr 2
    push_cast
    ring

end Operands

section Alignment

/-- Two aligned significands and what they stand for. Either both are exact, or one is so much
smaller that their difference is off the top by one bit at most. -/
structure AlignedPair (y z : ℚ) (m n : ℕ) : Prop where
  sum : Tracks 2 (y + z) (m + n)
  difference : Tracks 2 (y - z) (m - n)
  top : 2 ^ 26 ≤ m ∨ 2 ^ 26 ≤ n
  range : m < 2 ^ 27 ∧ n < 2 ^ 27
  gap : (y = m ∧ z = n) ∨ m + 2 ^ 25 < n ∨ n + 2 ^ 25 < m
  apart : m = n ∨ m + 4 ≤ n ∨ n + 4 ≤ m

variable {y z : ℚ} {m n : ℕ}

theorem AlignedPair.swap (h : AlignedPair y z m n) : AlignedPair z y n m where
  sum := by
    rw [add_comm z y, add_comm (n : ℤ) m]
    exact h.sum
  difference := by
    rw [← neg_sub y z, ← neg_sub (m : ℤ) n]
    exact h.difference.neg
  top := h.top.symm
  range := h.range.symm
  gap := h.gap.imp And.symm Or.symm
  apart := h.apart.imp Eq.symm Or.symm

/-- Significands with three zero bits below them, the second one shifted to the first. -/
theorem aligned_jam (hm : 2 ^ 26 ≤ m ∧ m < 2 ^ 27) (hn : n < 2 ^ 27)
    (hm8 : 8 ∣ m) (hn8 : 8 ∣ n) (d : ℕ) : AlignedPair m (n / 2 ^ d) m (jam n d) := by
  have htrk : Tracks 2 ((n : ℚ) / 2 ^ d) (jam n d : ℕ) := by
    have hexact : Tracks 2 ((n : ℤ) : ℚ) (n : ℤ) := Tracks.exact 2 (n : ℤ)
    rw [Int.cast_natCast] at hexact
    exact hexact.jam (by rw [pow_succ]; exact dvd_mul_left 2 (2 ^ d))
  have hm2 : (2 : ℤ) ∣ (m : ℤ) := by omega
  have hlt : jam n d < 2 ^ 27 := jam_lt (hn.trans_le (Nat.pow_le_pow_right (by decide) (by omega)))
  have hsum := htrk.add_left hm2
  have hdifference := htrk.sub_left hm2
  rw [Int.cast_natCast] at hsum hdifference
  -- a shift by at most three loses nothing
  rcases Nat.lt_or_ge d 4 with hsmall | hlarge
  · have hdvd : 2 ^ d ∣ n := (pow_dvd_pow 2 (show d ≤ 3 by omega)).trans hn8
    have hne : ((2 ^ d : ℕ) : ℚ) ≠ 0 := Nat.cast_ne_zero.mpr (pow_pos (by decide) d).ne'
    have hexact : (n : ℚ) / 2 ^ d = (jam n d : ℕ) := by
      rw [jam_of_dvd hdvd, Nat.cast_div hdvd hne, Nat.cast_pow, Nat.cast_ofNat]
    refine ⟨hsum, hdifference, .inl hm.1, ⟨hm.2, hlt⟩, .inl ⟨rfl, hexact⟩, ?_⟩
    rw [jam_of_dvd hdvd]
    interval_cases d <;> omega
  · have hjam : jam n d < 2 ^ 24 :=
      jam_lt (k := 23) (hn.trans_le (Nat.pow_le_pow_right (by decide) (by omega)))
    exact ⟨hsum, hdifference, .inl hm.1, ⟨hm.2, hlt⟩, .inr (.inr (by omega)),
      .inr (.inr (by omega))⟩

/-- A significand for `roundPack` that stands for `x` in the scale of an exponent. -/
def Stands (x : ℚ) (sig : BitVec 64) (exponent : ℤ) : Prop :=
  (2 ^ 26 ≤ sig.toNat ∧ sig.toNat < 2 ^ 27) ∧
    ∃ y, Tracks 4 y (sig.toNat : ℤ) ∧ x = y * 2 ^ (exponent - 26)

theorem AlignedPair.difference_stands (h : AlignedPair y z m n) (hlt : n < m) {ext : BitVec 64}
    (hext : ext.toNat = m - n) (exponent : ℤ) :
    Stands ((y - z) * 2 ^ (exponent - 26)) (normalizeDifference^[24] (ext, exponent)).1
      (normalizeDifference^[24] (ext, exponent)).2 := by
  have hrng := h.range
  have hapart := h.apart
  have htrk := h.difference
  rw [← Nat.cast_sub hlt.le, ← hext] at htrk
  have hne : ext ≠ 0 := fun h0 => by
    rw [eq_zero_iff_toNat] at h0
    omega
  obtain ⟨k, hshift, hexp, htop, hdone⟩ := normalizeDifference_normalizes.iterate (by decide)
    (s := (ext, exponent)) hne (show ext.toNat < 2 ^ 27 by omega) 24
  dsimp only at hshift htop hdone
  refine ⟨?_, (y - z) * 2 ^ k, ?_, ?_⟩
  · rw [hshift]
    refine ⟨?_, htop⟩
    rcases hdone with hdone | rfl
    · exact hdone
    · omega
  · rw [hshift]
    rcases h.gap with ⟨hy, hz⟩ | hgap
    · -- exact operands stay exact
      have hexact : (y - z) * 2 ^ k = ((ext.toNat * 2 ^ k : ℕ) : ℤ) := by
        rw [hy, hz, hext, Int.cast_natCast, Nat.cast_mul, Nat.cast_sub hlt.le]
        push_cast
        ring
      rw [hexact]
      exact Tracks.exact 4 _
    have hk : k < 2 := by
      by_contra hk
      have hpow : 2 ^ 2 ≤ 2 ^ k := Nat.pow_le_pow_right (by decide) (by omega)
      have hbig : 2 ^ 25 * 2 ^ 2 ≤ ext.toNat * 2 ^ k := Nat.mul_le_mul (by omega) hpow
      omega
    interval_cases k
    · rw [pow_zero, mul_one, pow_zero, mul_one]
      exact htrk.coarser (by decide)
    · have hscale := htrk.scale (k := 2) (by decide)
      rw [pow_one, pow_one, mul_comm (y - z), Nat.mul_comm]
      exact_mod_cast hscale
  · rw [hexp, show exponent - k - 26 = exponent - 26 - k by ring,
      zpow_sub₀ (by norm_num : (2 : ℚ) ≠ 0) _ (k : ℤ), zpow_natCast]
    field_simp

theorem AlignedPair.sum_stands (h : AlignedPair y z m n) {ext : BitVec 64}
    (hext : ext.toNat = m + n) (exponent : ℤ) :
    if ext.getLsbD 27 then
      Stands ((y + z) * 2 ^ (exponent - 26)) (shiftRightJam ext 1) (exponent + 1)
    else Stands ((y + z) * 2 ^ (exponent - 26)) ext exponent := by
  have hrng := h.range
  have htop := h.top
  have htrk := h.sum
  rw [← Nat.cast_add, ← hext] at htrk
  have hcarry := getLsbD_eq_false_iff (t := 27) (x := ext) (by omega)
  split_ifs with hbit
  · rw [hbit] at hcarry
    have hge : 2 ^ 27 ≤ ext.toNat := by simpa using hcarry
    have hjam := shiftRightJam_toNat ext (show (0 : ℤ) ≤ 1 by decide)
    have hlow := div_le_jam ext.toNat 1
    have hlt : jam ext.toNat 1 < 2 ^ 27 := jam_lt (k := 26) (by omega)
    refine ⟨?_, (y + z) / 2, ?_, ?_⟩
    · rw [hjam, Int.toNat_one]
      omega
    · have hhalf := htrk.jam (d := 1) (by decide)
      rw [pow_one] at hhalf
      rw [hjam, Int.toNat_one]
      exact hhalf.coarser (by decide)
    · rw [show exponent + 1 - 26 = exponent - 26 + 1 by ring, zpow_add_one₀ (by norm_num)]
      ring
  · have hlt := hcarry.mp (by simpa using hbit)
    exact ⟨⟨by omega, hlt⟩, y + z, htrk.coarser (by decide), rfl⟩

/-- A significand that stands for the magnitude of `x` is packed into the rounded `x`. -/
theorem Stands.rounds {x : ℚ} {sig : BitVec 64} {exponent : ℤ} (h : Stands |x| sig exponent)
    (hx : x ≠ 0) (negative : Bool) :
    Rounds negative x (roundPack (decide (x < 0)) exponent sig) := by
  obtain ⟨htop, y, htrk, heq⟩ := h
  obtain ⟨n, hnearest, hbody⟩ := roundPack_nearest (decide (x < 0)) htop htrk
  rw [← heq] at hnearest
  apply rounds_of_isNearestEven hnearest _ hbody
  rw [roundPack_msb, if_neg hx]

theorem rounds_zero (negative : Bool) : Rounds negative 0 (packFp32 negative 0 0) := by
  have hnearest := isNearestEven_self magnitude_strictMono 0
  rw [magnitude_zero, ← abs_zero] at hnearest
  apply rounds_of_isNearestEven hnearest
  · rw [packFp32_msb, if_pos rfl]
  · rw [body_packFp32]
    rfl

theorem Tracks.pos_iff {g : ℤ} {y : ℚ} {k : ℤ} (h : Tracks g y k) : 0 < y ↔ 0 < k := by
  have h0 := (h 0).2
  rwa [zero_mul, Int.cast_zero] at h0

theorem Tracks.neg_iff {g : ℤ} {y : ℚ} {k : ℤ} (h : Tracks g y k) : y < 0 ↔ k < 0 := by
  have h0 := (h 0).1
  rwa [zero_mul, Int.cast_zero] at h0

theorem signOf_ne (s : Bool) : signOf (!s) = -signOf s := by
  cases s <;> simp [signOf]

theorem signOf_mul_spec (s : Bool) {x : ℚ} (hx : 0 < x) :
    |signOf s * x| = x ∧ signOf s * x ≠ 0 ∧ decide (signOf s * x < 0) = s := by
  refine ⟨by rw [abs_mul, abs_signOf, one_mul, abs_of_pos hx], ?_, ?_⟩
  · cases s <;> simp [signOf, hx.ne']
  · cases s
    · simp [signOf, hx.le]
    · simp [signOf, hx]

/-- A significand that stands for a magnitude is packed with its sign into the rounded value. -/
theorem Stands.rounds_signOf {x : ℚ} {sig : BitVec 64} {exponent : ℤ}
    (h : Stands x sig exponent) (hx : 0 < x) (s negative : Bool) :
    Rounds negative (signOf s * x) (roundPack s exponent sig) := by
  obtain ⟨habs, hne, hsign⟩ := signOf_mul_spec s hx
  rw [← habs] at h
  have hrounds := h.rounds hne negative
  rwa [hsign] at hrounds

theorem combineFp32_rounds {extA extB : BitVec 64} (h : AlignedPair y z extA.toNat extB.toNat)
    (signA signB : Bool) (exponent : ℤ) :
    Rounds (signA && signB) (signOf signA * (y * 2 ^ (exponent - 26)) +
        signOf signB * (z * 2 ^ (exponent - 26)))
      (roundPack (combineFp32 signA signB extA extB exponent).1
        (combineFp32 signA signB extA extB exponent).2.2
        (combineFp32 signA signB extA extB exponent).2.1) := by
  have hrng := h.range
  have hscale : (0 : ℚ) < 2 ^ (exponent - 26) := zpow_pos (by norm_num) _
  have hadd : (extA + extB).toNat = extA.toNat + extB.toNat := by
    rw [BitVec.toNat_add, Nat.mod_eq_of_lt (by omega)]
  by_cases hsign : signA = signB
  · subst hsign
    have htop := h.top
    have hpos : 0 < y + z := (Tracks.pos_iff h.sum).mpr (by omega)
    have hx : signOf signA * (y * 2 ^ (exponent - 26)) + signOf signA * (z * 2 ^ (exponent - 26)) =
        signOf signA * ((y + z) * 2 ^ (exponent - 26)) := by ring
    have hstands := h.sum_stands hadd exponent
    simp only [combineFp32, if_true, ne_eq, not_true_eq_false, false_and, if_false]
    rw [hx]
    split_ifs at hstands ⊢ with hbit
    · exact hstands.rounds_signOf (mul_pos hpos hscale) _ _
    · exact hstands.rounds_signOf (mul_pos hpos hscale) _ _
  obtain rfl : signB = !signA := by
    cases signA <;> cases signB <;> simp_all
  have hx : signOf signA * (y * 2 ^ (exponent - 26)) + signOf (!signA) * (z * 2 ^ (exponent - 26)) =
          signOf signA * ((y - z) * 2 ^ (exponent - 26)) := by
    rw [signOf_ne]
    ring
  rw [hx]
  rcases Nat.lt_trichotomy extB.toNat extA.toNat with hlt | heq | hgt
  · have hdiff := BitVec.toNat_sub_of_le (le_def.mpr hlt.le)
    have hne : extA - extB ≠ 0 := fun h0 => by
      rw [eq_zero_iff_toNat] at h0
      omega
    have hpos : 0 < y - z := (Tracks.pos_iff h.difference).mpr (by omega)
    simp only [combineFp32, hsign, if_false, lt_def, hlt, if_true, ne_eq, hne,
      not_false_eq_true, true_and]
    exact (h.difference_stands hlt hdiff exponent).rounds_signOf (mul_pos hpos hscale) _ _
  · have hz : y - z = 0 := by
      apply le_antisymm
      · exact not_lt.mp (fun hp => by have := (Tracks.pos_iff h.difference).mp hp; omega)
      · exact not_lt.mp (fun hp => by have := (Tracks.neg_iff h.difference).mp hp; omega)
    rw [hz, zero_mul, mul_zero, Bool.and_not_self]
    simp only [combineFp32, hsign, if_false, lt_def, heq, lt_irrefl, ne_eq,
      not_true_eq_false, and_false]
    exact rounds_zero false
  have hdiff := BitVec.toNat_sub_of_le (le_def.mpr hgt.le)
  have hne : extB - extA ≠ 0 := fun h0 => by
    rw [eq_zero_iff_toNat] at h0
    omega
  have hpos : 0 < z - y := (Tracks.pos_iff h.swap.difference).mpr (by omega)
  have hflip : signOf signA * ((y - z) * 2 ^ (exponent - 26)) =
      signOf (!signA) * ((z - y) * 2 ^ (exponent - 26)) := by
    rw [signOf_ne]
    ring
  rw [hflip]
  simp only [combineFp32, hsign, if_false, lt_def, hgt, hgt.not_gt, if_true, ne_eq,
    hne, not_false_eq_true, true_and]
  exact (h.swap.difference_stands hgt hdiff exponent).rounds_signOf (mul_pos hpos hscale) _ _

end Alignment

section Addition

theorem ext_toNat {sig : BitVec 32} (h : sig.toNat < 2 ^ 24) :
    (sig.setWidth 64 <<< 3 : BitVec 64).toNat = 8 * sig.toNat := by
  rw [BitVec.toNat_shiftLeft, toNat_setWidth, Nat.shiftLeft_eq]
  omega

theorem scale_ext (k : ℕ) (e : ℤ) : (k : ℚ) * 2 ^ (e - 23) = (8 * k : ℕ) * 2 ^ (e - 26) := by
  rw [show e - 23 = e - 26 + 3 by ring, zpow_add₀ (by norm_num)]
  push_cast
  ring

theorem aligned_shift {sigA sigB : BitVec 32} (hA : 2 ^ 23 ≤ sigA.toNat ∧ sigA.toNat < 2 ^ 24)
    (hB : sigB.toNat < 2 ^ 24) {expA expB : ℤ} (hexp : expB ≤ expA) :
    ∃ y z : ℚ, AlignedPair y z (sigA.setWidth 64 <<< 3 : BitVec 64).toNat
        (shiftRightJam (sigB.setWidth 64 <<< 3) (expA - expB)).toNat ∧
      (sigA.toNat : ℚ) * 2 ^ (expA - 23) = y * 2 ^ (expA - 26) ∧
        (sigB.toNat : ℚ) * 2 ^ (expB - 23) = z * 2 ^ (expA - 26) := by
  obtain ⟨d, hd⟩ : ∃ d : ℕ, expA - expB = d := ⟨(expA - expB).toNat, by omega⟩
  rw [hd, shiftRightJam_toNat _ (Int.natCast_nonneg d), ext_toNat hA.2, ext_toNat hB,
    Int.toNat_natCast]
  refine ⟨_, _, aligned_jam (by omega) (by omega) (Nat.dvd_mul_right 8 _)
    (Nat.dvd_mul_right 8 _) d, scale_ext _ _, ?_⟩
  rw [scale_ext, show expB - 26 = expA - 26 - d by omega,
    zpow_sub₀ (by norm_num : (2 : ℚ) ≠ 0) _ (d : ℤ), zpow_natCast]
  ring

theorem shiftRightJam_zero (value : BitVec 64) : shiftRightJam value 0 = value := rfl

theorem alignFp32_spec {sigA sigB : BitVec 32} (hA : 2 ^ 23 ≤ sigA.toNat ∧ sigA.toNat < 2 ^ 24)
    (hB : 2 ^ 23 ≤ sigB.toNat ∧ sigB.toNat < 2 ^ 24) (expA expB : ℤ) :
    ∃ y z extA extB exponent,
      alignFp32 (sigA.setWidth 64 <<< 3) (sigB.setWidth 64 <<< 3) expA expB =
          (extA, extB, exponent) ∧ AlignedPair y z extA.toNat extB.toNat ∧
        (sigA.toNat : ℚ) * 2 ^ (expA - 23) = y * 2 ^ (exponent - 26) ∧
          (sigB.toNat : ℚ) * 2 ^ (expB - 23) = z * 2 ^ (exponent - 26) := by
  rw [alignFp32]
  split_ifs with hlt hgt
  · obtain ⟨y, z, halign, hy, hz⟩ := aligned_shift hA hB.2 hlt.le
    exact ⟨y, z, _, _, _, rfl, halign, hy, hz⟩
  · obtain ⟨z, y, halign, hz, hy⟩ := aligned_shift hB hA.2 hgt.le
    exact ⟨y, z, _, _, _, rfl, halign.swap, hy, hz⟩
  · obtain rfl : expA = expB := by omega
    obtain ⟨y, z, halign, hy, hz⟩ := aligned_shift hA hB.2 (le_refl expA)
    rw [sub_self, shiftRightJam_zero] at halign
    exact ⟨y, z, _, _, _, rfl, halign, hy, hz⟩

theorem datum_of_nan {a : BitVec 32} (h : nan a) : datum a = .nan := by
  rw [datum, if_pos ((nan_iff a).mp h)]

theorem datum_of_inf {a : BitVec 32} (h : inf a) : datum a = .infinite (sign a) := by
  rw [inf_iff] at h
  rw [datum, h, if_neg (lt_irrefl _), if_pos rfl, sign_eq_msb]

theorem datum_of_finite {a : BitVec 32} (hnan : nan a = false) (hinf : inf a = false) :
    datum a = .finite (sign a) (magnitude (body a)) := by
  rw [Bool.eq_false_iff, ne_eq, nan_iff] at hnan
  rw [Bool.eq_false_iff, ne_eq, inf_iff] at hinf
  rw [datum, if_neg hnan, if_neg hinf, sign_eq_msb]

theorem datum_infinity (s : Bool) : datum (packFp32 s 0xff 0) = .infinite s := by
  have hbody : body (packFp32 s 0xff 0) = infinity := by
    rw [body_packFp32]
    rfl
  rw [datum, hbody, if_neg (lt_irrefl _), if_pos rfl, packFp32_msb]

section

variable {a : BitVec 32}

theorem magnitude_body_pos (hz : body a ≠ 0) : 0 < magnitude (body a) := by
  rw [← magnitude_zero]
  exact magnitude_strictMono (Nat.pos_of_ne_zero hz)

/-- A value that is not zero is rounded to its own word. -/
theorem rounds_self (hfinite : IsFinite a) (hz : body a ≠ 0)
    (negative : Bool) : Rounds negative (signOf a.msb * magnitude (body a)) a := by
  obtain ⟨habs, hne, hsign⟩ := signOf_mul_spec a.msb (magnitude_body_pos hz)
  have hnearest := isNearestEven_self magnitude_strictMono (body a)
  rw [← habs] at hnearest
  apply rounds_of_isNearestEven hnearest
  · rw [if_neg hne, hsign]
  · rw [min_eq_left (le_of_lt hfinite)]

theorem isFinite_of (hnan : nan a = false) (hinf : inf a = false) : IsFinite a := by
  rw [Bool.eq_false_iff, ne_eq, nan_iff] at hnan
  rw [Bool.eq_false_iff, ne_eq, inf_iff] at hinf
  rw [IsFinite]
  omega

theorem magnitude_of_zero (h : Fp32.zero a) : magnitude (body a) = 0 := by
  rw [(zero_iff a).mp h, magnitude_zero]

theorem body_ne_zero (h : Fp32.zero a = false) : body a ≠ 0 := by
  rw [Bool.eq_false_iff, ne_eq, zero_iff] at h
  exact h

end

theorem addFp32_rounds {a b : BitVec 32} (hzeroA : body a ≠ 0) (hzeroB : body b ≠ 0) :
    Rounds (sign a && sign b)
      (signOf (sign a) * magnitude (body a) + signOf (sign b) * magnitude (body b))
      (let r := alignFp32 ((unpackFp32 normalizeAddend a).1.setWidth 64 <<< 3)
          ((unpackFp32 normalizeAddend b).1.setWidth 64 <<< 3)
          (unpackFp32 normalizeAddend a).2 (unpackFp32 normalizeAddend b).2
        let c := combineFp32 (sign a) (sign b) r.1 r.2.1 r.2.2
        roundPack c.1 c.2.2 c.2.1) := by
  obtain ⟨hA, hmagA⟩ := unpackFp32_spec normalizeAddend_normalizes hzeroA
  obtain ⟨hB, hmagB⟩ := unpackFp32_spec normalizeAddend_normalizes hzeroB
  obtain ⟨y, z, extA, extB, exponent, halign, haligned, hy, hz⟩ := alignFp32_spec hA hB
    (unpackFp32 normalizeAddend a).2 (unpackFp32 normalizeAddend b).2
  rw [halign, hmagA, hmagB, hy, hz]
  exact combineFp32_rounds haligned _ _ _

/-- `add_fp32` returns the rounded sum. -/
theorem addFp32_isSum (a b : BitVec 32) : IsSum (datum a) (datum b) (addFp32 a b) := by
  cases hnanA : nan a
  case true =>
    rw [datum_of_nan hnanA, addFp32, hnanA]
    rfl
  cases hnanB : nan b
  case true =>
    rw [datum_of_nan hnanB, addFp32, hnanB, Bool.or_true]
    cases datum a <;> rfl
  cases hinfA : inf a
  case true =>
    rw [datum_of_inf hinfA]
    cases hinfB : inf b
    case true =>
      rw [datum_of_inf hinfB]
      by_cases hsign : sign a = sign b
      · simp only [addFp32, hnanA, hnanB, hinfA, hinfB, hsign, IsSum, bne_self_eq_false,
          Bool.and_false, Bool.or_false, if_true, if_low]
        exact datum_infinity _
      · simp [addFp32, hnanA, hnanB, hinfA, hinfB, hsign, IsSum, canonicalNan]
    case false =>
      rw [datum_of_finite hnanB hinfB]
      simp only [addFp32, hnanA, hnanB, hinfA, hinfB, IsSum, Bool.and_false, Bool.false_and,
        Bool.or_false, if_true, if_low]
      exact datum_infinity _
  cases hinfB : inf b
  case true =>
    rw [datum_of_finite hnanA hinfA, datum_of_inf hinfB]
    simp only [addFp32, hnanA, hnanB, hinfA, hinfB, IsSum, Bool.false_and, Bool.or_false,
      if_true, if_low]
    exact datum_infinity _
  rw [datum_of_finite hnanA hinfA, datum_of_finite hnanB hinfB]
  simp only [addFp32, hnanA, hnanB, hinfA, hinfB, IsSum, Bool.and_false, Bool.false_and,
    Bool.or_false, if_low]
  cases hzeroA : Fp32.zero a
  case true =>
    rw [magnitude_of_zero hzeroA, mul_zero, zero_add]
    cases hzeroB : Fp32.zero b
    case true =>
      rw [magnitude_of_zero hzeroB, mul_zero]
      exact rounds_zero _
    case false =>
      rw [sign_eq_msb b]
      exact rounds_self (isFinite_of hnanB hinfB) (body_ne_zero hzeroB) _
  cases hzeroB : Fp32.zero b
  case true =>
    rw [magnitude_of_zero hzeroB, mul_zero, add_zero, sign_eq_msb a]
    exact rounds_self (isFinite_of hnanA hinfA) (body_ne_zero hzeroA) _
  exact addFp32_rounds (body_ne_zero hzeroA) (body_ne_zero hzeroB)

end Addition

end OpenRV64
