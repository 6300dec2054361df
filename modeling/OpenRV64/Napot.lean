/-
Naturally aligned power-of-two regions, the run of trailing ones that encodes
their size, and an increment carried out one bit at a time.

Nothing here names a particular protection unit.
-/
import Mathlib.Data.Nat.Init
import Mathlib.Data.Set.Defs
import Mathlib.Algebra.Group.Nat.Defs
import Mathlib.Algebra.Order.Group.Nat
import Mathlib.Tactic.Ring

namespace Napot

/-- The number of trailing ones of a number of `width` bits. -/
def ones : ℕ → ℕ → ℕ
  | 0, _ => 0
  | width + 1, v => if v % 2 = 1 then ones width (v / 2) + 1 else 0

/-- The number of low bits that do not take part in the match: the trailing ones and the
zero above them, if the number still has one. -/
def order (width v : ℕ) : ℕ := min (ones width v + 1) width

theorem order_le (width v : ℕ) : order width v ≤ width := min_le_right _ _

/-- A number whose `k` low bits are ones, below a zero or below nothing. -/
theorem order_of_run {width v k : ℕ} (hk : k < width) (hones : ∀ j < k, v.testBit j)
    (hstop : v.testBit k = false ∨ k + 1 = width) : order width v = k + 1 := by
  have hcnt : ones width v = k ∨ (k + 1 = width ∧ ones width v = width) := by
    induction k generalizing width v with
    | zero =>
      obtain ⟨width, rfl⟩ : ∃ w, width = w + 1 := ⟨width - 1, by omega⟩
      rw [ones]
      by_cases hodd : v % 2 = 1
      · rcases hstop with hz | hwidth
        · rw [Nat.testBit_zero, hodd] at hz
          exact absurd hz (by decide)
        · have hw : width = 0 := by omega
          subst hw
          exact .inr ⟨rfl, by rw [if_pos hodd, ones]⟩
      · exact .inl (if_neg hodd)
    | succ k ih =>
      obtain ⟨width, rfl⟩ : ∃ w, width = w + 1 := ⟨width - 1, by omega⟩
      have hodd : v % 2 = 1 := by
        have h := hones 0 (Nat.succ_pos k)
        rwa [Nat.testBit_zero, decide_eq_true_eq] at h
      have hrest : ones width (v / 2) = k ∨ (k + 1 = width ∧ ones width (v / 2) = width) := by
        apply ih (by omega)
        · intro j hj
          rw [← Nat.testBit_succ]
          exact hones (j + 1) (by omega)
        · exact hstop.imp (fun h => by rwa [← Nat.testBit_succ]) (fun h => by omega)
      rw [ones, if_pos hodd]
      rcases hrest with h | ⟨hw, h⟩
      · exact .inl (by rw [h])
      · exact .inr ⟨by omega, by rw [h]⟩
  unfold order
  rcases hcnt with h | ⟨hw, h⟩ <;> omega

/-- At least as many bits are left out of the match as there are trailing ones. -/
theorem le_order {width v g : ℕ} (hg : g < width)
    (hones : ∀ j < g, v.testBit j) : g + 1 ≤ order width v := by
  have hcnt : g ≤ ones width v := by
    induction g generalizing width v with
    | zero => exact Nat.zero_le _
    | succ g ih =>
      obtain ⟨width, rfl⟩ : ∃ w, width = w + 1 := ⟨width - 1, by omega⟩
      have hodd : v % 2 = 1 := by
        have h := hones 0 (Nat.succ_pos g)
        rwa [Nat.testBit_zero, decide_eq_true_eq] at h
      rw [ones, if_pos hodd]
      refine Nat.succ_le_succ (ih (by omega) (fun j hj => ?_))
      rw [← Nat.testBit_succ]
      exact hones (j + 1) (by omega)
  unfold order
  omega

/-- The numbers that agree with `v` above its `m` low bits. -/
def region (m v : ℕ) : Set ℕ := {p | p / 2 ^ m = v / 2 ^ m}

def base (m v : ℕ) : ℕ := v / 2 ^ m * 2 ^ m

theorem mem_region {m v p : ℕ} : p ∈ region m v ↔ p / 2 ^ m = v / 2 ^ m := Iff.rfl

/-- A region is the interval from its base through its last unit. -/
theorem mem_region_iff {m v p : ℕ} : p ∈ region m v ↔ base m v ≤ p ∧ p < base m v + 2 ^ m := by
  have hpos : 0 < 2 ^ m := Nat.two_pow_pos m
  rw [mem_region, Nat.div_eq_iff hpos, base]
  omega

theorem base_le (m v : ℕ) : base m v ≤ v := Nat.div_mul_le_self v (2 ^ m)

theorem testBit_base (m v j : ℕ) : (base m v).testBit j = (decide (m ≤ j) && v.testBit j) := by
  rw [base, ← Nat.shiftLeft_eq, ← Nat.shiftRight_eq_div_pow, Nat.testBit_shiftLeft,
    Nat.testBit_shiftRight]
  by_cases h : m ≤ j
  · rw [decide_eq_true h, Nat.add_sub_cancel' h]
  · rw [decide_eq_false h, Bool.false_and, Bool.false_and]

section Mask

variable {w m : ℕ} {a mask : BitVec w}

theorem getLsbD_mask (hmask : mask.toNat = 2 ^ m - 1) (j : ℕ) :
    mask.getLsbD j = decide (j < m) := by
  rw [← BitVec.testBit_toNat, hmask, Nat.testBit_two_pow_sub_one]

/-- Clearing the bits of a mask leaves the base of the region. -/
theorem toNat_and_not_mask (hmask : mask.toNat = 2 ^ m - 1) :
    (a &&& ~~~mask).toNat = base m a.toNat := by
  apply Nat.eq_of_testBit_eq
  intro j
  rw [testBit_base, BitVec.testBit_toNat, BitVec.testBit_toNat, BitVec.getLsbD_and,
    BitVec.getLsbD_not, getLsbD_mask hmask]
  by_cases hj : j < w
  · by_cases hm : m ≤ j
    · rw [decide_eq_true hj, decide_eq_true hm, decide_eq_false (Nat.not_lt.mpr hm)]
      simp
    · rw [decide_eq_false hm, decide_eq_true (Nat.lt_of_not_le hm)]
      simp
  · rw [BitVec.getLsbD_of_ge _ _ (Nat.le_of_not_lt hj), Bool.false_and, Bool.and_false]

/-- Setting the bits of a mask leaves the last unit of the region. -/
theorem toNat_or_mask (hmask : mask.toNat = 2 ^ m - 1) :
    (a ||| mask).toNat = base m a.toNat + (2 ^ m - 1) := by
  have hpos := Nat.two_pow_pos m
  rw [base, Nat.mul_comm, Nat.two_pow_add_eq_or_of_lt (by omega), Nat.mul_comm]
  apply Nat.eq_of_testBit_eq
  intro j
  rw [Nat.testBit_or, ← base, testBit_base, Nat.testBit_two_pow_sub_one,
    BitVec.testBit_toNat, BitVec.testBit_toNat, BitVec.getLsbD_or, getLsbD_mask hmask]
  by_cases hm : m ≤ j
  · rw [decide_eq_true hm, Bool.true_and]
  · rw [decide_eq_true (Nat.lt_of_not_le hm), Bool.or_true, Bool.or_true]

end Mask

/-- The carry out of the `j` low bits of an increment. -/
def carryOut (j x : ℕ) : Bool := x % 2 ^ j = 2 ^ j - 1

theorem mod_succ_bit (j x : ℕ) : x % 2 ^ (j + 1) = x % 2 ^ j + 2 ^ j * (x.testBit j).toNat := by
  rw [Nat.pow_succ, Nat.mod_mul, Nat.testBit_eq_decide_div_mod_eq]
  rcases Nat.mod_two_eq_zero_or_one (x / 2 ^ j) with h | h <;> simp [h]

theorem carryOut_succ (j x : ℕ) : carryOut (j + 1) x = (x.testBit j && carryOut j x) := by
  have hlt := Nat.mod_lt x (Nat.two_pow_pos j)
  rw [carryOut, carryOut, mod_succ_bit, Nat.pow_succ]
  cases x.testBit j
  · simp only [Bool.toNat_false, Bool.false_and, decide_eq_false_iff_not]
    omega
  · simp only [Bool.toNat_true, Bool.true_and, decide_eq_decide]
    omega

/-- One more bit of an increment is the exclusive or of that bit and the carry so far. -/
theorem succ_mod_succ (j x : ℕ) :
    (x + 1) % 2 ^ (j + 1) = (x + 1) % 2 ^ j + 2 ^ j * (x.testBit j ^^ carryOut j x).toNat := by
  have hpos := Nat.two_pow_pos j
  have hlt := Nat.mod_lt x hpos
  have hbits : (x + 1) % 2 ^ (j + 1) =
      (x % 2 ^ j + 2 ^ j * (x.testBit j).toNat + 1) % 2 ^ (j + 1) := by
    rw [← mod_succ_bit, Nat.mod_add_mod]
  have hlow : (x + 1) % 2 ^ j = (x % 2 ^ j + 1) % 2 ^ j := (Nat.mod_add_mod ..).symm
  rw [hbits, hlow]
  by_cases hcarry : x % 2 ^ j = 2 ^ j - 1
  · have hfull : x % 2 ^ j + 1 = 2 ^ j := by omega
    have hc : carryOut j x := decide_eq_true hcarry
    rw [hfull, hc, Nat.mod_self, Nat.pow_succ]
    cases x.testBit j
    · rw [Nat.mod_eq_of_lt (by simp; omega)]
      simp [hfull]
    · simp only [Bool.toNat_true, Bool.xor_true, Bool.not_true, Bool.toNat_false]
      rw [show x % 2 ^ j + 2 ^ j * 1 + 1 = 2 ^ j * 2 by omega, Nat.mod_self]
      rfl
  have hc : carryOut j x = false := decide_eq_false hcarry
  rw [hc, Bool.xor_false, Nat.mod_eq_of_lt (a := x % 2 ^ j + 1) (by omega), Nat.pow_succ]
  cases x.testBit j
  · rw [Nat.mod_eq_of_lt (by simp; omega)]
    simp
  · rw [Nat.mod_eq_of_lt (by simp; omega)]
    omega

end Napot
