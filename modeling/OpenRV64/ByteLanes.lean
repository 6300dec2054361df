/-
Words as little-endian rows of bytes: how the bitwise operations and the shifts by whole
bytes act on each byte, and which bytes lie in one aligned block.

Nothing here names a particular machine.
-/
import Mathlib.Algebra.Group.Nat.Defs
import Mathlib.Data.Nat.Basic
import Mathlib.Tactic.Set

namespace ByteLanes

variable {w : ℕ}

/-- Byte `k` of a word, the lowest one first; beyond the word it is zero. -/
def lane (x : BitVec w) (k : ℕ) : BitVec 8 := x.extractLsb' (8 * k) 8

theorem getLsbD_lane (x : BitVec w) (k j : ℕ) :
    (lane x k).getLsbD j = (decide (j < 8) && x.getLsbD (8 * k + j)) := by
  rw [lane, BitVec.getLsbD_extractLsb']

theorem lane_ext {x y : BitVec 8} (h : ∀ j < 8, x.getLsbD j = y.getLsbD j) : x = y :=
  BitVec.eq_of_getLsbD_eq fun j hj => h j hj

theorem lane_or (x y : BitVec w) (k : ℕ) : lane (x ||| y) k = lane x k ||| lane y k := by
  apply lane_ext
  intro j hj
  simp only [getLsbD_lane, BitVec.getLsbD_or, decide_eq_true hj, Bool.true_and]

theorem lane_and (x y : BitVec w) (k : ℕ) : lane (x &&& y) k = lane x k &&& lane y k := by
  apply lane_ext
  intro j hj
  simp only [getLsbD_lane, BitVec.getLsbD_and, decide_eq_true hj, Bool.true_and]

theorem lane_zero (k : ℕ) : lane (0 : BitVec w) k = 0 := BitVec.extractLsb'_zero

theorem lane_shiftLeft (x : BitVec w) (n : ℕ) {k : ℕ} (hk : 8 * k + 8 ≤ w) :
    lane (x <<< (8 * n)) k = if k < n then 0 else lane x (k - n) := by
  apply lane_ext
  intro j hj
  rw [getLsbD_lane, BitVec.getLsbD_shiftLeft]
  have hbit : 8 * k + j < w := by omega
  split
  · rename_i hlt
    have hbelow : 8 * k + j < 8 * n := by omega
    simp [hbelow]
  rename_i hge
  have habove : ¬ 8 * k + j < 8 * n := by omega
  have hidx : 8 * k + j - 8 * n = 8 * (k - n) + j := by omega
  rw [getLsbD_lane, hidx]
  simp only [hbit, habove, decide_true, decide_false, Bool.not_false, Bool.true_and]

theorem lane_ushiftRight (x : BitVec w) (n k : ℕ) : lane (x >>> (8 * n)) k = lane x (n + k) := by
  apply lane_ext
  intro j hj
  have hidx : 8 * n + (8 * k + j) = 8 * (n + k) + j := by omega
  rw [getLsbD_lane, getLsbD_lane, BitVec.getLsbD_ushiftRight, hidx]

theorem and_allOnes_lane (x : BitVec 8) : x &&& 0xff = x := by
  have hones : (0xff : BitVec 8) = BitVec.allOnes 8 := rfl
  rw [hones, BitVec.and_allOnes]

theorem or_zero_lane (x : BitVec 8) : x ||| 0 = x := BitVec.or_zero

theorem zero_or_lane (x : BitVec 8) : 0 ||| x = x := BitVec.zero_or

/-- The mask of the low `n` bytes, seen byte by byte. -/
def Masks (mask : BitVec w) (n : ℕ) : Prop :=
  ∀ k, 8 * k + 8 ≤ w → lane mask k = if k < n then 0xff else 0

theorem lane_and_mask {mask : BitVec w} {n : ℕ} (hmask : Masks mask n) (x : BitVec w)
    {k : ℕ} (hk : 8 * k + 8 ≤ w) : lane (x &&& mask) k = if k < n then lane x k else 0 := by
  rw [lane_and, hmask k hk]
  split
  · exact and_allOnes_lane _
  · exact BitVec.and_zero

/-- Bytes `from .. from + n` of one word put at byte `to` of another, which has nothing
there yet. -/
theorem lane_insert {mask : BitVec w} {n : ℕ} (hmask : Masks mask n) (base x : BitVec w)
    (source target : ℕ) {k : ℕ} (hk : 8 * k + 8 ≤ w) :
    lane (base ||| (x >>> (8 * source) &&& mask) <<< (8 * target)) k =
      lane base k ||| if target ≤ k ∧ k < target + n then lane x (source + (k - target))
        else 0 := by
  rw [lane_or, lane_shiftLeft _ _ hk]
  congr 1
  split
  · rename_i hlt
    rw [if_neg (by omega)]
  rename_i hge
  rw [lane_and_mask hmask _ (by omega), lane_ushiftRight]
  by_cases hin : k - target < n
  · rw [if_pos hin, if_pos (by omega)]
  · rw [if_neg hin, if_neg (by omega)]

/-! ## Aligned blocks -/

/-- The addresses of an aligned block differ in their low bits only. -/
theorem add_toNat_of_aligned {v : BitVec w} {n k : ℕ} (hn : n ∣ 2 ^ w)
    (halign : n ∣ v.toNat) (hk : k < n) : (v + BitVec.ofNat w k).toNat = v.toNat + k := by
  obtain ⟨a, ha⟩ := hn
  obtain ⟨b, hb⟩ := halign
  have hblock : v.toNat + n ≤ 2 ^ w := by
    have hlt : b < a := by
      by_contra hge
      have hmul := Nat.mul_le_mul_left n (Nat.le_of_not_lt hge)
      omega
    rw [ha, hb, ← Nat.mul_succ]
    exact Nat.mul_le_mul_left n hlt
  have hsum : v.toNat + k < 2 ^ w := by omega
  rw [BitVec.toNat_add, BitVec.toNat_ofNat, Nat.mod_eq_of_lt (a := k) (by omega),
    Nat.mod_eq_of_lt hsum]

/-- A larger aligned block that the small block starts in holds all of it. -/
theorem add_div_of_aligned {m n v k : ℕ} (hn : 0 < n) (hdvd : n ∣ m)
    (halign : n ∣ v) (hk : k < n) : (v + k) / m = v / m ∧ (v + k) % m = v % m + k := by
  obtain ⟨c, rfl⟩ := hdvd
  obtain ⟨b, rfl⟩ := halign
  have hdiv : (n * b + k) / n = b := by
    rw [Nat.mul_add_div hn, Nat.div_eq_of_lt hk, Nat.add_zero]
  have hmod : (n * b + k) % n = k := by
    rw [Nat.mul_add_mod, Nat.mod_eq_of_lt hk]
  constructor
  · rw [← Nat.div_div_eq_div_mul, ← Nat.div_div_eq_div_mul, hdiv, Nat.mul_div_cancel_left b hn]
  · rw [Nat.mod_mul, Nat.mod_mul, hdiv, hmod, Nat.mul_mod_right, Nat.mul_div_cancel_left b hn]
    omega

end ByteLanes
