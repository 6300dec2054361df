/-
Arithmetic a few bits at a time: products that add up one multiple for each bit or for each
radix-4 Booth digit of the multiplier, and division that shifts the dividend into a remainder
and restores it.  Nothing here names a particular machine.
-/
import Mathlib.Tactic.Ring

namespace BitSerial

variable {w v : ℕ}

/-- A loop whose body is skipped from some round on. -/
theorem foldl_range_lt {α : Type*} (f : α → α) (x : α) (m n : ℕ) :
    (List.range n).foldl (fun next k => if k < m then f next else next) x = f^[min m n] x := by
  induction n with
  | zero => rw [Nat.min_zero]; rfl
  | succ n ih =>
    rw [List.range_succ, List.foldl_append, ih]
    by_cases hlt : n < m
    · have hmin : min m (n + 1) = min m n + 1 := by omega
      rw [hmin, Function.iterate_succ_apply']
      simp [hlt]
    · have hmin : min m (n + 1) = min m n := by omega
      rw [hmin]
      simp [hlt]

/-! ## Words of integers -/

theorem ofInt_add_two_pow_mul (x k : ℤ) : BitVec.ofInt w (x + 2 ^ w * k) = BitVec.ofInt w x := by
  apply BitVec.eq_of_toNat_eq
  have hcast : ((2 ^ w : ℕ) : ℤ) = 2 ^ w := by push_cast; rfl
  rw [BitVec.toNat_ofInt, BitVec.toNat_ofInt, hcast, Int.add_mul_emod_self_left]

theorem extractLsb'_ofInt {start len : ℕ} (z : ℤ) (hle : start + len ≤ w) :
    (BitVec.ofInt w z).extractLsb' start len = BitVec.ofInt len (z / 2 ^ start) := by
  have hpos (k : ℕ) : (0 : ℤ) < 2 ^ k := Int.pow_pos (by decide)
  have hsplit : (2 ^ w : ℤ) = 2 ^ start * (2 ^ len * 2 ^ (w - start - len)) := by
    rw [← pow_add, ← pow_add]
    congr 1
    omega
  have hz : z / 2 ^ start =
      (z % 2 ^ w) / 2 ^ start + 2 ^ len * (2 ^ (w - start - len) * (z / 2 ^ w)) := by
    calc z / 2 ^ start = (z % 2 ^ w + 2 ^ w * (z / 2 ^ w)) / 2 ^ start := by
          rw [Int.emod_add_mul_ediv]
      _ = (z % 2 ^ w +
            2 ^ start * (2 ^ len * (2 ^ (w - start - len) * (z / 2 ^ w)))) / 2 ^ start := by
          rw [hsplit]
          congr 2
          ring
      _ = _ := Int.add_mul_ediv_left _ _ (hpos start).ne'
  have hnonneg : 0 ≤ z % 2 ^ w := Int.emod_nonneg _ (hpos _).ne'
  rw [hz, ofInt_add_two_pow_mul]
  apply BitVec.eq_of_toNat_eq
  have hcast : ((2 ^ w : ℕ) : ℤ) = 2 ^ w := by push_cast; rfl
  have hlen : ((2 ^ len : ℕ) : ℤ) = 2 ^ len := by push_cast; rfl
  rw [BitVec.extractLsb'_toNat, BitVec.toNat_ofInt, BitVec.toNat_ofInt, hcast, hlen,
    Nat.shiftRight_eq_div_pow]
  apply Int.natCast_inj.mp
  rw [Int.toNat_of_nonneg (Int.emod_nonneg _ (hpos _).ne')]
  push_cast
  rw [Int.toNat_of_nonneg hnonneg]

theorem setWidth_ofInt (z : ℤ) (hle : v ≤ w) :
    (BitVec.ofInt w z).setWidth v = BitVec.ofInt v z := by
  rw [BitVec.setWidth_eq_extractLsb' hle, extractLsb'_ofInt z (by omega), pow_zero, Int.ediv_one]

theorem toNat_eq_toInt (x : BitVec w) : (x.toNat : ℤ) = x.toInt + 2 ^ w * x.msb.toNat := by
  rw [BitVec.toInt_eq_msb_cond]
  cases x.msb <;> simp

/-! ## Products -/

theorem mod_two_pow_succ (y k : ℕ) : y % 2 ^ (k + 1) = y % 2 ^ k + 2 ^ k * (y.testBit k).toNat := by
  rw [Nat.mod_pow_succ, Nat.toNat_testBit]

theorem ofInt_shiftLeft (x : ℤ) (k : ℕ) : BitVec.ofInt w x <<< k = BitVec.ofInt w (x * 2 ^ k) := by
  have htwo : BitVec.twoPow w k = BitVec.ofInt w (2 ^ k) := by
    have hcast : ((2 ^ k : ℕ) : ℤ) = 2 ^ k := by push_cast; rfl
    rw [← hcast, BitVec.ofInt_natCast]
    apply BitVec.eq_of_toNat_eq
    rw [BitVec.toNat_twoPow, BitVec.toNat_ofNat]
  rw [BitVec.shiftLeft_eq_mul_twoPow, htwo, ← BitVec.ofInt_mul]

/-- The multiples of `x` for the low `c` bits of `y`. -/
def shiftAdd (c : ℕ) (x : BitVec w) (y : BitVec v) : BitVec w :=
  (List.range c).foldl (fun sum k => if y.getLsbD k then sum + x <<< k else sum) 0

theorem shiftAdd_succ (c : ℕ) (x : BitVec w) (y : BitVec v) : shiftAdd (c + 1) x y =
      if y.getLsbD c then shiftAdd c x y + x <<< c else shiftAdd c x y := by
  rw [shiftAdd, List.range_succ, List.foldl_append]
  rfl

theorem shiftAdd_ofInt (c : ℕ) (x : ℤ) (y : BitVec v) :
    shiftAdd c (BitVec.ofInt w x) y = BitVec.ofInt w (x * (y.toNat % 2 ^ c : ℕ)) := by
  induction c with
  | zero => simp [shiftAdd, Nat.mod_one]
  | succ c ih =>
    rw [shiftAdd_succ, ih, ofInt_shiftLeft, mod_two_pow_succ]
    have hbit : y.toNat.testBit c = y.getLsbD c := BitVec.testBit_toNat y
    rw [hbit]
    cases y.getLsbD c
    · simp
    rw [if_pos rfl, ← BitVec.ofInt_add]
    congr 1
    push_cast
    simp
    ring

/-! ### Booth digits -/

/-- The radix-4 digit of two bits and the one below them. -/
def digit (high low below : Bool) : ℤ := low.toNat + below.toNat - 2 * high.toNat

/-- The bit of `y` below position `k`. -/
def bitBelow (y k : ℕ) : Bool := k != 0 && y.testBit (k - 1)

/-- What the Booth digits of the low `k` bits add up to: the two's complement of the bits. -/
def boothValue (y k : ℕ) : ℤ := (y % 2 ^ k : ℕ) - 2 ^ k * (bitBelow y k).toNat

theorem boothValue_zero (y : ℕ) : boothValue y 0 = 0 := by
  simp [boothValue, bitBelow, Nat.mod_one]

theorem boothValue_add_two (y k : ℕ) : boothValue y (k + 2) =
    boothValue y k + 2 ^ k * digit (y.testBit (k + 1)) (y.testBit k) (bitBelow y k) := by
  have hbelow : bitBelow y (k + 2) = y.testBit (k + 1) := by simp [bitBelow]
  rw [boothValue, boothValue, hbelow, mod_two_pow_succ, mod_two_pow_succ, digit]
  push_cast
  ring

theorem boothValue_add_four (y k : ℕ) : boothValue y (k + 4) = boothValue y k + 2 ^ k *
      (digit (y.testBit (k + 1)) (y.testBit k) (bitBelow y k) +
        4 * digit (y.testBit (k + 3)) (y.testBit (k + 2)) (y.testBit (k + 1))) := by
  have hbelow : bitBelow y (k + 2) = y.testBit (k + 1) := by simp [bitBelow]
  rw [boothValue_add_two y (k + 2), boothValue_add_two, hbelow]
  ring

/-- A multiplier that has no more bits than its digits, when the multiple that its top bit has
taken away is put back. -/
theorem boothValue_last {y k : ℕ} (hk : 0 < k) (hy : y < 2 ^ k) :
    2 ^ k * ((y.testBit (k - 1)).toNat : ℤ) + boothValue y k = y := by
  have hbelow : bitBelow y k = y.testBit (k - 1) := by simp [bitBelow, hk.ne']
  rw [boothValue, hbelow, Nat.mod_eq_of_lt hy]
  ring

/-! ## Division -/

/-- The registers of a restoring divider. -/
@[ext]
structure Division (w : ℕ) where
  remainder : BitVec (w + 1)
  quotient : BitVec w
  dividend : BitVec w
deriving DecidableEq, Repr

namespace Division

variable (d : BitVec w) (s : Division w)

/-- One bit of the dividend enters the remainder, and the divisor is taken away if it fits. -/
def step : Division w :=
  let shifted := (s.remainder.setWidth w).concat s.dividend.msb
  let fits := decide (d.setWidth (w + 1) ≤ shifted)
  { remainder := if fits then shifted - d.setWidth (w + 1) else shifted
    quotient := (s.quotient.concat fits).setWidth w
    dividend := s.dividend <<< 1 }

def start (n : BitVec w) : Division w := ⟨0, 0, n⟩

/-- The registers after `k` bits of `n`. -/
structure Holds (n : BitVec w) (k : ℕ) : Prop where
  remainder : s.remainder.toNat = n.toNat / 2 ^ (w - k) % d.toNat
  quotient : s.quotient.toNat = n.toNat / 2 ^ (w - k) / d.toNat
  dividend : s.dividend = n <<< k

variable {d s} {n : BitVec w} {k : ℕ}

theorem holds_start : Holds d (start n) n 0 where
  remainder := by
    have hz : n.toNat / 2 ^ (w - 0) = 0 := Nat.div_eq_of_lt n.isLt
    rw [hz, Nat.zero_mod]
    rfl
  quotient := by
    have hz : n.toNat / 2 ^ (w - 0) = 0 := Nat.div_eq_of_lt n.isLt
    rw [hz, Nat.zero_div]
    rfl
  dividend := (BitVec.shiftLeft_zero n).symm

theorem div_two_pow (m k : ℕ) : m / 2 ^ k = 2 * (m / 2 ^ (k + 1)) + (m.testBit k).toNat := by
  rw [Nat.toNat_testBit, Nat.pow_succ, ← Nat.div_div_eq_div_mul]
  exact (Nat.div_add_mod (m / 2 ^ k) 2).symm

/-- What one step does to a prefix of the dividend. -/
theorem prefix_step {m d bit : ℕ} (hd : 0 < d) (hbit : bit ≤ 1) :
    (2 * m + bit) % d = (if d ≤ 2 * (m % d) + bit then 2 * (m % d) + bit - d
      else 2 * (m % d) + bit) ∧
    (2 * m + bit) / d = 2 * (m / d) + (if d ≤ 2 * (m % d) + bit then 1 else 0) := by
  have hlt := Nat.mod_lt m hd
  have hsplit : 2 * m + bit = 2 * (m % d) + bit + d * (2 * (m / d)) := by
    have hm := Nat.div_add_mod m d
    calc 2 * m + bit = 2 * (d * (m / d) + m % d) + bit := by rw [hm]
      _ = 2 * (m % d) + bit + d * (2 * (m / d)) := by ring
  rw [hsplit, Nat.add_mul_mod_self_left, Nat.add_mul_div_left _ _ hd]
  by_cases hfits : d ≤ 2 * (m % d) + bit
  · rw [if_pos hfits, if_pos hfits]
    have hrest : 2 * (m % d) + bit - d < d := by omega
    constructor
    · rw [Nat.mod_eq_sub_mod hfits, Nat.mod_eq_of_lt hrest]
    · rw [Nat.div_eq_sub_div hd hfits, Nat.div_eq_of_lt hrest]
      omega
  · rw [if_neg hfits, if_neg hfits, Nat.mod_eq_of_lt (by omega), Nat.div_eq_of_lt (by omega)]
    exact ⟨rfl, by omega⟩

theorem msb_dividend (hk : k < w) : (n <<< k).msb = n.toNat.testBit (w - (k + 1)) := by
  rw [BitVec.msb_shiftLeft, BitVec.getMsbD, BitVec.testBit_toNat]
  have hidx : w - 1 - k = w - (k + 1) := by omega
  simp [hk, hidx]

theorem Holds.toNat_shifted (h : Holds d s n k) (hd : 0 < d.toNat) (hk : k < w) :
    ((s.remainder.setWidth w).concat s.dividend.msb).toNat =
      2 * (n.toNat / 2 ^ (w - k) % d.toNat) + (n.toNat.testBit (w - (k + 1))).toNat := by
  have hlt : s.remainder.toNat < 2 ^ w := by
    rw [h.remainder]
    exact (Nat.mod_lt _ hd).trans d.isLt
  rw [BitVec.toNat_concat, BitVec.toNat_setWidth, Nat.mod_eq_of_lt hlt, h.remainder, h.dividend,
    msb_dividend hk, Nat.mul_comm]

theorem toNat_divisor : (d.setWidth (w + 1)).toNat = d.toNat := by
  rw [BitVec.toNat_setWidth]
  exact Nat.mod_eq_of_lt (d.isLt.trans (Nat.pow_lt_pow_succ (by decide)))

theorem toNat_fits (x : BitVec (w + 1)) :
    (decide (d.setWidth (w + 1) ≤ x)).toNat = if d.toNat ≤ x.toNat then 1 else 0 := by
  have hle : d.setWidth (w + 1) ≤ x ↔ d.toNat ≤ x.toNat := by
    rw [BitVec.le_def, toNat_divisor]
  by_cases hfits : d.toNat ≤ x.toNat
  · rw [if_pos hfits, decide_eq_true (hle.mpr hfits)]
    rfl
  · rw [if_neg hfits, decide_eq_false (mt hle.mp hfits)]
    rfl

theorem Holds.step (h : Holds d s n k) (hd : 0 < d.toNat) (hk : k < w) :
    Holds d (s.step d) n (k + 1) := by
  have hshifted := h.toNat_shifted hd hk
  have hbit : (n.toNat.testBit (w - (k + 1))).toNat ≤ 1 := Bool.toNat_le _
  obtain ⟨hmod, hdiv⟩ := prefix_step (m := n.toNat / 2 ^ (w - k)) hd hbit
  have hprefix : n.toNat / 2 ^ (w - (k + 1)) =
      2 * (n.toNat / 2 ^ (w - k)) + (n.toNat.testBit (w - (k + 1))).toNat := by
    have hnxt : w - (k + 1) + 1 = w - k := by omega
    rw [div_two_pow n.toNat (w - (k + 1)), hnxt]
  have hwide := toNat_divisor (d := d)
  rw [← hprefix, ← hshifted] at hmod hdiv
  constructor
  · rw [hmod]
    simp only [Division.step]
    by_cases hfits : d.setWidth (w + 1) ≤ (s.remainder.setWidth w).concat s.dividend.msb
    · have hle := BitVec.le_def.mp hfits
      rw [hwide] at hle
      rw [if_pos (by simpa using hfits), if_pos hle, BitVec.toNat_sub_of_le hfits, hwide]
    · have hle : ¬ d.toNat ≤ ((s.remainder.setWidth w).concat s.dividend.msb).toNat := by
        rw [← hwide]
        exact hfits
      rw [if_neg (by simpa using hfits), if_neg hle]
  · have hlt : n.toNat / 2 ^ (w - (k + 1)) / d.toNat < 2 ^ w :=
      ((Nat.div_le_self _ _).trans (Nat.div_le_self _ _)).trans_lt n.isLt
    have hfits := toNat_fits (d := d) ((s.remainder.setWidth w).concat s.dividend.msb)
    simp only [Division.step]
    rw [BitVec.toNat_setWidth, BitVec.toNat_concat, h.quotient, hfits, Nat.mul_comm, ← hdiv,
      Nat.mod_eq_of_lt hlt]
  · change s.dividend <<< 1 = n <<< (k + 1)
    rw [h.dividend, BitVec.shiftLeft_add]

theorem Holds.iterate {c : ℕ} (h : Holds d s n k) (hd : 0 < d.toNat) (hc : k + c ≤ w) :
    Holds d ((Division.step d)^[c] s) n (k + c) := by
  induction c with
  | zero => exact h
  | succ c ih =>
    rw [Function.iterate_succ_apply']
    exact (ih (by omega)).step hd (by omega)

end Division

end BitSerial
