/-
The binary32 format: what a word stands for, and which word an exact result is rounded to.
-/
import OpenRV64.NearestEven
import Mathlib.Algebra.Order.Field.Power
import Mathlib.Data.Rat.Cast.Order
import Mathlib.Tactic.FieldSimp
import Mathlib.Tactic.NormNum

namespace Binary32

open NearestEven

/-- The value of the word `n` without its sign, with no end of the exponent range. -/
def magnitude (n : ℕ) : ℚ :=
  if n / 2 ^ 23 = 0 then (n % 2 ^ 23 : ℕ) * 2 ^ (-149 : ℤ)
  else (2 ^ 23 + n % 2 ^ 23 : ℕ) * 2 ^ ((n / 2 ^ 23 : ℕ) - 150 : ℤ)

/-- The infinite word without its sign. -/
def infinity : ℕ := 0xff * 2 ^ 23

/-- The words of one exponent are evenly spaced. The significand `m` may be the first of the
next exponent, and below the least exponent it need not be normalized. -/
theorem magnitude_base_add {k m : ℕ} (hm : m ≤ 2 ^ 24) (hnormal : 2 ^ 23 ≤ m ∨ k = 0) :
    magnitude (k * 2 ^ 23 + m) = m * 2 ^ ((k : ℤ) - 149) := by
  rw [magnitude]
  rcases Nat.lt_or_ge m (2 ^ 23) with hsmall | hlarge
  · obtain rfl : k = 0 := by omega
    have hdiv : (0 * 2 ^ 23 + m) / 2 ^ 23 = 0 := by omega
    have hmod : (0 * 2 ^ 23 + m) % 2 ^ 23 = m := by omega
    rw [if_pos hdiv, hmod]
    norm_num
  rcases Nat.lt_or_ge m (2 ^ 24) with hlt | hge
  · have hdiv : (k * 2 ^ 23 + m) / 2 ^ 23 = k + 1 := by omega
    have hmod : 2 ^ 23 + (k * 2 ^ 23 + m) % 2 ^ 23 = m := by omega
    rw [if_neg (by omega), hdiv, hmod]
    congr 2
    push_cast
    ring
  obtain rfl : m = 2 ^ 24 := by omega
  have hdiv : (k * 2 ^ 23 + 2 ^ 24) / 2 ^ 23 = k + 2 := by omega
  have hmod : 2 ^ 23 + (k * 2 ^ 23 + 2 ^ 24) % 2 ^ 23 = 2 ^ 23 := by omega
  rw [if_neg (by omega), hdiv, hmod]
  have hexp : ((k + 2 : ℕ) : ℤ) - 150 = ((k : ℤ) - 149) + 1 := by
    push_cast
    ring
  rw [hexp, zpow_add_one₀ (by norm_num)]
  push_cast
  ring

/-- Every word lies in the spacing of one exponent together with its successor. -/
theorem exists_base (n : ℕ) :
    ∃ k m, n = k * 2 ^ 23 + m ∧ m + 1 ≤ 2 ^ 24 ∧ (2 ^ 23 ≤ m ∨ k = 0) := by
  rcases Nat.lt_or_ge n (2 ^ 23) with hsmall | hlarge
  · exact ⟨0, n, by omega, by omega, .inr rfl⟩
  · exact ⟨n / 2 ^ 23 - 1, 2 ^ 23 + n % 2 ^ 23, by omega, by omega, .inl (by omega)⟩

theorem magnitude_strictMono : StrictMono magnitude := by
  apply strictMono_nat_of_lt_succ
  intro n
  obtain ⟨k, m, rfl, hm, hnormal⟩ := exists_base n
  rw [Nat.add_assoc, magnitude_base_add (by omega) hnormal, magnitude_base_add hm (by omega)]
  apply mul_lt_mul_of_pos_right
  · exact_mod_cast Nat.lt_succ_self m
  · exact zpow_pos (by norm_num) _

@[simp] theorem magnitude_zero : magnitude 0 = 0 := by
  simp [magnitude]

theorem magnitude_nonneg (n : ℕ) : 0 ≤ magnitude n := by
  rw [← magnitude_zero]
  exact magnitude_strictMono.monotone (Nat.zero_le n)

theorem magnitude_infinity : magnitude infinity = 2 ^ 128 := by
  rw [infinity, show 0xff * 2 ^ 23 = 254 * 2 ^ 23 + 2 ^ 23 by norm_num,
    magnitude_base_add (by norm_num) (.inl le_rfl)]
  norm_num

theorem magnitude_largest : magnitude (infinity - 1) = 2 ^ 128 - 2 ^ 104 := by
  rw [infinity, show 0xff * 2 ^ 23 - 1 = 253 * 2 ^ 23 + (2 ^ 24 - 1) by norm_num,
    magnitude_base_add (by norm_num) (.inl (by norm_num))]
  norm_num

/-- What a word stands for. A zero keeps its sign. -/
inductive Datum where
  | nan
  | infinite (negative : Bool)
  | finite (negative : Bool) (magnitude : ℚ)

def signOf (negative : Bool) : ℚ := if negative then -1 else 1

/-- The bits of a word below its sign. -/
def body (w : BitVec 32) : ℕ := w.toNat % 2 ^ 31

def datum (w : BitVec 32) : Datum :=
  if infinity < body w then .nan
  else if body w = infinity then .infinite w.msb
  else .finite w.msb (magnitude (body w))

/-- The value of a word that is finite. -/
def value (w : BitVec 32) : ℚ := signOf w.msb * magnitude (body w)

def IsFinite (w : BitVec 32) : Prop := body w < infinity

/-- Half a unit in the last place above the largest finite value. -/
def overflow : ℚ := 2 ^ 128 - 2 ^ 103

/-- The word that `x` is rounded to, to nearest with ties to even. `negative` is the sign that
an exact zero is given; any other result has the sign of `x`. -/
structure Rounds (negative : Bool) (x : ℚ) (w : BitVec 32) : Prop where
  sign : w.msb = if x = 0 then negative else decide (x < 0)
  infinite : overflow ≤ |x| → body w = infinity
  finite : |x| < overflow → IsFinite w
  nearest : |x| < overflow → ∀ w', IsFinite w' → |x - value w| ≤ |x - value w'|
  even : |x| < overflow → ∀ w', IsFinite w' → value w' ≠ value w →
    |x - value w| = |x - value w'| → w.getLsbD 0 = false

theorem signOf_mul_abs {negative : Bool} {x : ℚ} {w : BitVec 32}
    (hsign : w.msb = if x = 0 then negative else decide (x < 0)) : signOf w.msb * |x| = x := by
  rcases lt_trichotomy x 0 with hneg | hz | hpos
  · rw [hsign, if_neg hneg.ne, decide_eq_true hneg, signOf, if_pos rfl, abs_of_neg hneg]
    ring
  · rw [hz, abs_zero, mul_zero]
  · rw [hsign, if_neg hpos.ne', decide_eq_false hpos.not_gt, signOf,
      if_neg Bool.false_ne_true, abs_of_pos hpos, one_mul]

theorem abs_signOf (negative : Bool) : |signOf negative| = 1 := by
  cases negative <;> simp [signOf]

theorem abs_value (w : BitVec 32) : |value w| = magnitude (body w) := by
  rw [value, abs_mul, abs_signOf, one_mul, abs_of_nonneg (magnitude_nonneg _)]

/-- A value of the right sign is as far as the magnitudes are. -/
theorem abs_sub_value {x : ℚ} {w : BitVec 32} (hsign : signOf w.msb * |x| = x) :
    |x - value w| = |(|x|) - magnitude (body w)| := by
  conv_lhs => rw [← hsign]
  rw [value, ← mul_sub, abs_mul, abs_signOf, one_mul]

theorem abs_sub_magnitude_le (x : ℚ) (w : BitVec 32) :
    |(|x|) - magnitude (body w)| ≤ |x - value w| := by
  rw [← abs_value]
  exact abs_abs_sub_abs_le x (value w)

theorem overflow_le_iff {x : ℚ} {n : ℕ} (h : IsNearestEven magnitude |x| n) :
    overflow ≤ |x| ↔ infinity ≤ n := by
  have hodd : (infinity - 1 + 1) % 2 = 0 := by decide
  have hmid := h.le_iff_midpoint magnitude_strictMono hodd
  have htop : infinity - 1 + 1 = infinity := by decide
  rw [htop, magnitude_infinity, magnitude_largest] at hmid
  rw [hmid, overflow]
  constructor
  · intro hle
    linarith
  · intro hle
    linarith

theorem getLsbD_zero_of_body {w : BitVec 32} (h : body w % 2 = 0) : w.getLsbD 0 = false := by
  rw [BitVec.getLsbD, Nat.testBit_zero, decide_eq_false_iff_not]
  rw [body] at h
  omega

theorem eq_zero_of_nearest_zero {n : ℕ} (h : IsNearestEven magnitude 0 n) : n = 0 := by
  by_contra hn
  have hle := (h 0 (Ne.symm hn)).1
  rw [magnitude_zero, sub_zero, abs_zero, abs_nonpos_iff, zero_sub, neg_eq_zero,
    ← magnitude_zero] at hle
  exact hn (magnitude_strictMono.injective hle)

/-- Two values with one magnitude and different signs are as near only to zero. -/
theorem eq_zero_of_tie {x : ℚ} {w w' : BitVec 32} (hbody : body w' = body w)
    (hne : value w' ≠ value w) (htie : |x - value w| = |x - value w'|) : x = 0 := by
  have hopposite : value w' = -value w := by
    have hmsb : w'.msb ≠ w.msb := fun h => hne (by rw [value, value, h, hbody])
    rw [value, value, hbody]
    cases h : w.msb <;> cases h' : w'.msb <;> simp_all [signOf]
  have hvalue : value w ≠ 0 := by
    intro h
    rw [h, neg_zero] at hopposite
    exact hne (hopposite.trans h.symm)
  have hsq : (x - value w) ^ 2 = (x + value w) ^ 2 := by
    rw [sq_eq_sq_iff_abs_eq_abs, htie, hopposite, sub_neg_eq_add]
  have hprod : x * value w = 0 := by linarith
  exact (mul_eq_zero.mp hprod).resolve_right hvalue

/-- A word that is nearest in the ladder of magnitudes, cut off at infinity, is the rounded
result. -/
theorem rounds_of_isNearestEven {negative : Bool} {x : ℚ} {w : BitVec 32} {n : ℕ}
    (hnearest : IsNearestEven magnitude |x| n)
    (hsign : w.msb = if x = 0 then negative else decide (x < 0))
    (hbody : body w = min n infinity) : Rounds negative x w := by
  have hfinite : |x| < overflow → body w = n ∧ n < infinity := by
    intro hlt
    rw [← not_le, overflow_le_iff hnearest, not_le] at hlt
    exact ⟨by rw [hbody, min_eq_left hlt.le], hlt⟩
  have hmul := signOf_mul_abs hsign
  refine ⟨hsign, ?_, ?_, ?_, ?_⟩
  · intro hle
    rw [hbody, min_eq_right ((overflow_le_iff hnearest).mp hle)]
  · intro hlt
    obtain ⟨hn, hinf⟩ := hfinite hlt
    rw [IsFinite, hn]
    exact hinf
  · intro hlt w' _
    apply le_trans _ (abs_sub_magnitude_le x w')
    rw [abs_sub_value hmul, (hfinite hlt).1]
    by_cases heq : body w' = n
    · rw [heq]
    · exact (hnearest _ heq).1
  · intro hlt w' _ hne htie
    obtain ⟨hn, -⟩ := hfinite hlt
    by_cases heq : body w' = n
    · have hx := eq_zero_of_tie (heq.trans hn.symm) hne htie
      rw [hx, abs_zero] at hnearest
      exact getLsbD_zero_of_body (by rw [hn, eq_zero_of_nearest_zero hnearest])
    obtain ⟨hle, heven⟩ := hnearest _ heq
    apply getLsbD_zero_of_body
    rw [hn]
    apply heven
    apply le_antisymm hle
    rw [← hn, ← abs_sub_value hmul, htie]
    exact abs_sub_magnitude_le x w'

def canonicalNan : BitVec 32 := 0x7fc00000

/-- The sum of two data, rounded. -/
def IsSum : Datum → Datum → BitVec 32 → Prop
  | .nan, _, w => w = canonicalNan
  | _, .nan, w => w = canonicalNan
  | .infinite s, .infinite t, w => if s = t then datum w = .infinite s else w = canonicalNan
  | .infinite s, .finite _ _, w => datum w = .infinite s
  | .finite _ _, .infinite t, w => datum w = .infinite t
  | .finite s x, .finite t y, w => Rounds (s && t) (signOf s * x + signOf t * y) w

/-- The product of two data, rounded. -/
def IsProduct : Datum → Datum → BitVec 32 → Prop
  | .nan, _, w => w = canonicalNan
  | _, .nan, w => w = canonicalNan
  | .infinite s, .infinite t, w => datum w = .infinite (s ^^ t)
  | .infinite s, .finite t y, w => if y = 0 then w = canonicalNan else datum w = .infinite (s ^^ t)
  | .finite s x, .infinite t, w => if x = 0 then w = canonicalNan else datum w = .infinite (s ^^ t)
  | .finite s x, .finite t y, w => Rounds (s ^^ t) (signOf s * x * (signOf t * y)) w

end Binary32
