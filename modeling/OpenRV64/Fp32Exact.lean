/-
The operations of the FP32 lane return the rounded sum and product.
-/
import OpenRV64.Binary32
import OpenRV64.Fp32Lane

namespace OpenRV64

open NearestEven Binary32
open BitVec (toNat_setWidth getLsbD toNat_ushiftRight toNat_append toNat_ofBool allOnes toNat_ofInt)

section Words

section

variable (sign : Bool) (field : BitVec 8) (fraction : BitVec 23)

theorem packFp32_toNat : (packFp32 sign field fraction).toNat =
      sign.toNat * 2 ^ 31 + (field.toNat * 2 ^ 23 + fraction.toNat) := by
  have hfield := field.isLt
  have hfraction := fraction.isLt
  rw [packFp32, toNat_append, toNat_append,
    ← Nat.shiftLeft_add_eq_or_of_lt hfraction, ← Nat.shiftLeft_add_eq_or_of_lt hfield,
    Nat.shiftLeft_eq, Nat.shiftLeft_eq, toNat_ofBool]
  ring

@[simp] theorem body_packFp32 :
    body (packFp32 sign field fraction) = field.toNat * 2 ^ 23 + fraction.toNat := by
  have hfield := field.isLt
  have hfraction := fraction.isLt
  rw [body, packFp32_toNat]
  omega

@[simp] theorem packFp32_msb : (packFp32 sign field fraction).msb = sign := by
  have hfield := field.isLt
  have hfraction := fraction.isLt
  rw [BitVec.msb_eq_decide, packFp32_toNat]
  cases sign
  · rw [Bool.toNat_false, decide_eq_false_iff_not]
    omega
  · rw [Bool.toNat_true, decide_eq_true_iff]
    omega

theorem lowMask_toNat {d : ℕ} (hd : d < 64) :
    (allOnes 64 >>> (64 - (d : ℤ)).toNat).toNat = 2 ^ d - 1 := by
  have hsplit : 2 ^ 64 = 2 ^ d * 2 ^ (64 - d) := by
    rw [← pow_add, Nat.add_sub_cancel' hd.le]
  have hpos : 0 < 2 ^ d := pow_pos (by decide) d
  have hpos' : 0 < 2 ^ (64 - d) := pow_pos (by decide) (64 - d)
  rw [show (64 - (d : ℤ)).toNat = 64 - d by omega, toNat_ushiftRight,
    BitVec.toNat_allOnes, Nat.shiftRight_eq_div_pow, hsplit]
  apply Nat.div_eq_of_lt_le
  · rw [Nat.sub_mul, one_mul]
    exact Nat.sub_le_sub_left hpos' _
  · rw [Nat.sub_add_cancel hpos]
    exact Nat.sub_lt (Nat.mul_pos hpos hpos') Nat.one_pos

theorem shiftRightJam_toNat (value : BitVec 64) {distance : ℤ} (h : 0 ≤ distance) :
    (shiftRightJam value distance).toNat = jam value.toNat distance.toNat := by
  have hvalue := value.isLt
  rw [shiftRightJam]
  split_ifs with hz hlarge
  · rw [show distance = 0 by omega]
    simp [jam, Nat.mod_one]
  · have hpow : 2 ^ 64 ≤ 2 ^ distance.toNat := Nat.pow_le_pow_right (by decide) (by omega)
    have hlt : value.toNat < 2 ^ distance.toNat := by omega
    rw [jam, Nat.mod_eq_of_lt hlt, Nat.div_eq_of_lt hlt]
    by_cases hv : value = 0
    · simp [hv]
    · have hne : value.toNat ≠ 0 := fun h => hv (BitVec.eq_of_toNat_eq h)
      have hbne : (value != 0) := by simpa using hv
      rw [if_neg hne, hbne]
      rfl
  · obtain ⟨d, rfl⟩ := Int.eq_ofNat_of_zero_le h
    have hlost : (value &&& (allOnes 64 >>> (64 - (d : ℤ)).toNat) != 0) =
        decide (value.toNat % 2 ^ d ≠ 0) := by
      rw [Bool.eq_iff_iff, bne_iff_ne, decide_eq_true_iff, ne_eq, ne_eq, not_iff_not,
        ← BitVec.toNat_inj, BitVec.toNat_and, lowMask_toNat (by omega),
        Nat.and_two_pow_sub_one_eq_mod]
      rfl
    dsimp only
    rw [hlost, BitVec.toNat_or, toNat_ushiftRight, toNat_setWidth,
      toNat_ofBool, Int.toNat_natCast, Nat.shiftRight_eq_div_pow, jam]
    split_ifs with hmod
    · simp [hmod]
    · simp [hmod]

theorem roundSignificand_toNat {work : BitVec 64} (h : work.toNat < 2 ^ 27) :
    (roundSignificand work).toNat = roundEven work.toNat := by
  have hmain : ((work >>> 3).setWidth 32 : BitVec 32).toNat = work.toNat / 8 := by
    rw [toNat_setWidth, toNat_ushiftRight, Nat.shiftRight_eq_div_pow, Nat.mod_eq_of_lt (by omega)]
  rw [roundSignificand, roundEven]
  simp only [getLsbD, hmain, Nat.testBit_eq_decide_div_mod_eq, Bool.and_eq_true,
    Bool.or_eq_true, decide_eq_true_eq]
  split_ifs with h1 h2 h2
  · rw [BitVec.toNat_add, hmain]
    simp
    omega
  · omega
  · omega
  · rw [hmain]
    rfl

/-- The exponent and the rounded significand make one number, in which a carry out of the
significand goes on into the exponent. -/
theorem body_packRounded {exponent : ℤ} {mainSig : BitVec 32} (hexp : -126 ≤ exponent)
    (hmain : mainSig.toNat ≤ 2 ^ 24) (hnormal : 2 ^ 23 ≤ mainSig.toNat ∨ exponent = -126) :
    body (packRounded sign exponent mainSig) =
      min ((exponent + 126).toNat * 2 ^ 23 + mainSig.toNat) infinity := by
  have hbit24 : mainSig.getLsbD 24 = decide (mainSig.toNat = 2 ^ 24) := by
    rw [getLsbD, Nat.testBit_eq_decide_div_mod_eq, decide_eq_decide]
    omega
  have hbit23 : mainSig.toNat < 2 ^ 24 → mainSig.getLsbD 23 = decide (2 ^ 23 ≤ mainSig.toNat) := by
    intro hlt
    rw [getLsbD, Nat.testBit_eq_decide_div_mod_eq, decide_eq_decide]
    omega
  rw [packRounded, hbit24, infinity]
  by_cases hcarry : mainSig.toNat = 2 ^ 24
  · rw [decide_eq_true hcarry, if_pos rfl]
    dsimp only
    have hshift : (mainSig >>> 1).toNat = 2 ^ 23 := by
      rw [toNat_ushiftRight, hcarry]
      rfl
    have hset : (mainSig >>> 1).getLsbD 23 := by
      rw [getLsbD, hshift]
      rfl
    split_ifs with hover htiny
    · rw [body_packFp32]
      simp
      omega
    · rw [hset] at htiny
      exact absurd htiny.2 (by decide)
    · rw [body_packFp32, toNat_setWidth, hshift, toNat_ofInt]
      omega
  rw [decide_eq_false hcarry, if_low]
  dsimp only
  rw [hbit23 (by omega)]
  split_ifs with hover htiny
  · rw [body_packFp32]
    simp
    omega
  · rw [decide_eq_false_iff_not] at htiny
    rw [body_packFp32, toNat_setWidth]
    simp
    omega
  · rw [decide_eq_false_iff_not] at htiny
    rw [body_packFp32, toNat_setWidth, toNat_ofInt]
    omega

theorem packRounded_msb (exponent : ℤ) (mainSig : BitVec 32) :
    (packRounded sign exponent mainSig).msb = sign := by
  rw [packRounded]
  split_ifs with hcarry
  · dsimp only
    split_ifs <;> rw [packFp32_msb]
  · dsimp only
    split_ifs <;> rw [packFp32_msb]

/-- Rounding a significand that is normalized unless the exponent is the least one. -/
theorem nearest_of_tracks {exponent : ℤ} {y : ℚ} {n : ℕ} (hexp : -126 ≤ exponent)
    (hlt : n < 2 ^ 27) (hnormal : 2 ^ 26 ≤ n ∨ exponent = -126) (h : Tracks 4 y (n : ℤ)) :
    IsNearestEven magnitude (y * 2 ^ (exponent - 26))
      ((exponent + 126).toNat * 2 ^ 23 + roundEven n) := by
  obtain ⟨k, hk⟩ : ∃ k : ℕ, exponent = k - 126 := ⟨(exponent + 126).toNat, by omega⟩
  have hbase : (exponent + 126).toNat = k := by omega
  rw [hbase]
  apply h.isNearestEven magnitude_strictMono (u := 2 ^ ((k : ℤ) - 149))
  · omega
  · exact zpow_pos (by norm_num) _
  · have hsplit : (k : ℤ) - 149 = (exponent - 26) + 3 := by omega
    rw [hsplit, zpow_add₀ (by norm_num)]
    norm_num
  · exact magnitude_base_add (by omega) (by omega)
  · have hnxt := magnitude_base_add (k := k) (m := n / 8 + 1) (by omega) (by omega)
    rw [Nat.cast_succ, ← Nat.add_assoc] at hnxt
    exact hnxt

/-- A significand with bit 26 at the top that compares like `y` down to the first bit to
round is packed into the word nearest to `y` in the scale of the exponent. -/
theorem roundPack_nearest {exponent : ℤ} {sig : BitVec 64} {y : ℚ}
    (htop : 2 ^ 26 ≤ sig.toNat ∧ sig.toNat < 2 ^ 27) (htrk : Tracks 4 y (sig.toNat : ℤ)) :
    ∃ n, IsNearestEven magnitude (y * 2 ^ (exponent - 26)) n ∧
      body (roundPack sign exponent sig) = min n infinity := by
  have hne : sig ≠ 0 := by
    rintro rfl
    simp at htop
  rw [roundPack, if_neg hne, denormalize]
  have hround : ∀ {e : ℤ} {work : BitVec 64}, -126 ≤ e → work.toNat < 2 ^ 27 →
      (2 ^ 26 ≤ work.toNat ∨ e = -126) → body (packRounded sign e (roundSignificand work)) =
          min ((e + 126).toNat * 2 ^ 23 + roundEven work.toNat) infinity := by
    intro e work he hlt hnormal
    have hle : roundEven work.toNat ≤ work.toNat / 8 + 1 := by
      rw [roundEven]
      split_ifs <;> omega
    have hge : work.toNat / 8 ≤ roundEven work.toNat := Nat.le_add_right _ _
    rw [body_packRounded sign he, roundSignificand_toNat hlt]
    · rw [roundSignificand_toNat hlt]
      omega
    · rw [roundSignificand_toNat hlt]
      omega
  split_ifs with htiny
  · obtain ⟨d, hd⟩ : ∃ d : ℕ, -126 - exponent = d := ⟨(-126 - exponent).toNat, by omega⟩
    have hjam := shiftRightJam_toNat sig (show 0 ≤ -126 - exponent by omega)
    rw [hd, Int.toNat_natCast] at hjam
    have hlt : jam sig.toNat d < 2 ^ 27 := by
      apply jam_lt (k := 26)
      exact htop.2.trans_le (Nat.pow_le_pow_right (by decide) (by omega))
    have hjammed : Tracks 4 (y / 2 ^ d) ((jam sig.toNat d : ℕ) : ℤ) := by
      refine (htrk.jam ?_).coarser (by decide)
      exact pow_dvd_pow 2 (show 2 ≤ d + 1 by omega)
    refine ⟨_, ?_, hround (by omega) (by rw [hd, hjam]; exact hlt) (.inr rfl)⟩
    have hnear := nearest_of_tracks (le_refl (-126)) hlt (.inr rfl) hjammed
    have hscale : y / 2 ^ d * 2 ^ ((-126 : ℤ) - 26) = y * 2 ^ (exponent - 26) := by
      rw [show exponent - 26 = (-126 - 26) - (d : ℤ) by omega,
        zpow_sub₀ (by norm_num : (2 : ℚ) ≠ 0) (-126 - 26) d, zpow_natCast]
      ring
    rw [hscale] at hnear
    rw [hd, hjam]
    exact hnear
  · exact ⟨_, nearest_of_tracks (by omega) htop.2 (.inl htop.1) htrk,
      hround (by omega) htop.2 (.inl htop.1)⟩

theorem roundPack_msb (exponent : ℤ) (sig : BitVec 64) :
    (roundPack sign exponent sig).msb = sign := by
  rw [roundPack]
  split_ifs
  · exact packFp32_msb sign 0 0
  · exact packRounded_msb sign _ _

end

end Words

section Normalization

variable {w t : ℕ} {f : BitVec w × ℤ → BitVec w × ℤ}

/-- A turn of a loop that shifts a nonzero significand until bit `t` is its top. -/
def Normalizes (t : ℕ) (f : BitVec w × ℤ → BitVec w × ℤ) : Prop :=
  ∀ s, s.1 ≠ 0 → s.1.toNat < 2 ^ (t + 1) →
    f s = if s.1.toNat < 2 ^ t then (s.1 <<< 1, s.2 - 1) else s

theorem getLsbD_eq_false_iff {x : BitVec w} (h : x.toNat < 2 ^ (t + 1)) :
    x.getLsbD t = false ↔ x.toNat < 2 ^ t := by
  rw [getLsbD, Nat.testBit_eq_decide_div_mod_eq, decide_eq_false_iff_not]
  have hpos : 0 < 2 ^ t := pow_pos (by decide) t
  have hdiv : x.toNat / 2 ^ t < 2 := by
    rw [Nat.div_lt_iff_lt_mul hpos, ← pow_succ']
    exact h
  rw [← Nat.div_eq_zero_iff_lt hpos]
  generalize x.toNat / 2 ^ t = q at hdiv ⊢
  omega

theorem normalizeAddend_normalizes : Normalizes 23 normalizeAddend := by
  intro s hne hlt
  simp only [normalizeAddend, getLsbD_eq_false_iff hlt, ne_eq, hne, not_false_eq_true, true_and]

theorem normalizeFactor_normalizes : Normalizes 23 normalizeFactor := by
  intro s _ hlt
  simp only [normalizeFactor, getLsbD_eq_false_iff hlt]

theorem normalizeDifference_normalizes : Normalizes 26 normalizeDifference := by
  intro s _ hlt
  simp only [normalizeDifference, getLsbD_eq_false_iff hlt]

/-- What `n` turns of a normalizing loop leave: a shift by `k`, the exponent less by `k`, and
no shift beyond the top. -/
theorem Normalizes.iterate (h : Normalizes t f) (ht : t + 1 < w) {s : BitVec w × ℤ}
    (hne : s.1 ≠ 0) (hlt : s.1.toNat < 2 ^ (t + 1)) (n : ℕ) :
    ∃ k : ℕ, (f^[n] s).1.toNat = s.1.toNat * 2 ^ k ∧ (f^[n] s).2 = s.2 - k ∧
      s.1.toNat * 2 ^ k < 2 ^ (t + 1) ∧ (2 ^ t ≤ s.1.toNat * 2 ^ k ∨ k = n) := by
  induction n with
  | zero => exact ⟨0, by simp, by simp, by simpa using hlt, .inr rfl⟩
  | succ n ih =>
    obtain ⟨k, hsig, hexp, hrng, hdone⟩ := ih
    have hpos : s.1.toNat ≠ 0 := fun h0 => hne (BitVec.eq_of_toNat_eq h0)
    have hne' : (f^[n] s).1 ≠ 0 := by
      intro h0
      rw [h0] at hsig
      have hprod : s.1.toNat * 2 ^ k = 0 := hsig.symm
      rcases Nat.mul_eq_zero.mp hprod with hz | hz
      · exact hpos hz
      · exact absurd hz (pow_pos (by decide) k).ne'
    rw [Function.iterate_succ_apply', h _ hne' (by rw [hsig]; exact hrng), hsig]
    split_ifs with hund
    · have hwide : s.1.toNat * 2 ^ k * 2 < 2 ^ w :=
        calc s.1.toNat * 2 ^ k * 2 < 2 ^ t * 2 := by omega
          _ = 2 ^ (t + 1) := (pow_succ 2 t).symm
          _ ≤ 2 ^ w := Nat.pow_le_pow_right (by decide) ht.le
      refine ⟨k + 1, ?_, ?_, ?_, .inr ?_⟩
      · rw [BitVec.toNat_shiftLeft, hsig, Nat.shiftLeft_eq, pow_one, Nat.mod_eq_of_lt hwide,
          pow_succ, mul_assoc]
      · rw [hexp]
        push_cast
        ring
      · rw [pow_succ 2 t, pow_succ 2 k, ← mul_assoc]
        omega
      · have hk : k = n := hdone.resolve_left (by omega)
        rw [hk]
    · exact ⟨k, hsig, hexp, hrng, .inl (by omega)⟩

end Normalization

end OpenRV64
