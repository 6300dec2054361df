/-
Finding the first one of a row of bits by halving, counting ones in parts, and rotations made of two
shifts.  Nothing here names a particular machine.
-/
import Mathlib.Order.Basic
import Mathlib.Tactic.SplitIfs

namespace BitScan

/-- The word of a row of bits. -/
def ofBits (f : ℕ → Bool) : (w : ℕ) → BitVec w
  | 0 => 0#0
  | w + 1 => BitVec.cons (f w) (ofBits f w)

theorem getLsbD_ofBits (f : ℕ → Bool) {w j : ℕ} (hj : j < w) : (ofBits f w).getLsbD j = f j := by
  induction w with
  | zero => omega
  | succ w ih =>
    rw [ofBits, BitVec.getLsbD_cons]
    by_cases htop : j = w
    · rw [if_pos htop, htop]
    · rw [if_neg htop]
      exact ih (by omega)

/-! ## The first one -/

/-- The first one of `w` bits is at `n`, or there is none and `n` is `w`. -/
structure FirstOne (f : ℕ → Bool) (w n : ℕ) : Prop where
  le : n ≤ w
  below : ∀ j < n, f j = false
  here : n < w → f n = true

/-- After `count` zeros the first one is among the next `span` bits, or there is none at all and
these bits are the last ones. -/
structure Found (w n count span : ℕ) : Prop where
  le : count ≤ n
  inside : count + span ≤ w
  near : n < count + span ∨ n = w ∧ count + span = w

variable {f : ℕ → Bool} {w n count span : ℕ}

theorem found_start (h : FirstOne f w n) : Found w n 0 w where
  le := Nat.zero_le n
  inside := by omega
  near := by
    have hle := h.le
    omega

/-- One halving: if the near half has no one then it is skipped. -/
theorem Found.halve {zero : Bool} (h : Found w n count (2 * span)) (hfst : FirstOne f w n)
    (hz : zero ↔ ∀ j < span, f (count + j) = false) :
    Found w n (count + if zero then span else 0) span := by
  have hle := h.le
  have hnear := h.near
  have hinside := h.inside
  cases zero
  · -- there is a one in the near half
    rw [if_neg Bool.false_ne_true]
    have hlt : n < count + span := by
      by_contra hge
      refine Bool.false_ne_true (hz.mpr fun j hj => hfst.below (count + j) (by omega))
    exact ⟨by omega, by omega, .inl (by omega)⟩
  rw [if_pos rfl]
  have hskip := hz.mp rfl
  have hge : count + span ≤ n := by
    by_contra hlt
    have hone := hfst.here (by omega)
    have hnone := hskip (n - count) (by omega)
    have hidx : count + (n - count) = n := by omega
    rw [hidx, hone] at hnone
    cases hnone
  exact ⟨hge, by omega, by omega⟩

theorem firstOne_clz (x : BitVec w) : FirstOne x.getMsbD w x.clz.toNat := by
  have hle : x.clz.toNat ≤ w := by
    simpa [BitVec.le_def] using BitVec.clz_le (x := x)
  have hlt := BitVec.toNat_lt_two_pow_sub_clz (x := x)
  refine ⟨hle, fun j hj => ?_, fun hn => ?_⟩
  · rw [BitVec.getMsbD_eq_getLsbD]
    have hpow : x.toNat < 2 ^ (w - 1 - j) :=
      Nat.lt_of_lt_of_le hlt (Nat.pow_le_pow_right (by decide) (by omega))
    rw [← BitVec.testBit_toNat, Nat.testBit_lt_two_pow hpow, Bool.and_false]
  · have hx : x ≠ 0#w := by
      rintro rfl
      have hz := BitVec.clz_eq_iff_eq_zero.mpr (rfl : (0#w) = 0#w)
      rw [hz] at hn
      simp at hn
    rw [BitVec.getMsbD_eq_getLsbD, BitVec.getLsbD_true_clz_of_ne_zero (by omega) hx]
    simp [hn]

theorem firstOne_ctz (x : BitVec w) : FirstOne x.getLsbD w x.ctz.toNat := by
  have h := firstOne_clz x.reverse
  rw [← BitVec.ctz_eq_reverse_clz] at h
  have hbits (j : ℕ) : x.reverse.getMsbD j = x.getLsbD j := BitVec.getMsbD_reverse
  exact ⟨h.le, fun j hj => by rw [← hbits]; exact h.below j hj,
    fun hn => by rw [← hbits]; exact h.here hn⟩

/-- A row whose bits from `w` on are ones has its first one where the first `w` bits have it. -/
theorem FirstOne.padded {g : ℕ → Bool} {v : ℕ} (h : FirstOne f w n) (hvw : w < v)
    (hsame : ∀ j < w, g j = f j) (hones : g w) : FirstOne g v n where
  le := Nat.le_trans h.le (Nat.le_of_lt hvw)
  below j hj := by
    rw [hsame j (Nat.lt_of_lt_of_le hj h.le)]
    exact h.below j hj
  here _ := by
    rcases Nat.lt_or_eq_of_le h.le with hlt | heq
    · rw [hsame n hlt]
      exact h.here hlt
    · rw [heq]
      exact hones

theorem extractLsb'_eq_zero_iff_getLsbD (x : BitVec w) (start len : ℕ) :
    x.extractLsb' start len = 0 ↔ ∀ j < len, x.getLsbD (start + j) = false := by
  constructor
  · intro hz j hj
    have hbit := congrArg (fun y => BitVec.getLsbD y j) hz
    simpa [BitVec.getLsbD_extractLsb', hj] using hbit
  · intro h
    apply BitVec.eq_of_getLsbD_eq
    intro j hj
    rw [BitVec.getLsbD_extractLsb', h j hj]
    simp

theorem extractLsb'_top_eq_zero_iff (x : BitVec w) {len : ℕ} (hlen : len ≤ w) :
    x.extractLsb' (w - len) len = 0 ↔ ∀ j < len, x.getMsbD j = false := by
  rw [extractLsb'_eq_zero_iff_getLsbD]
  constructor
  · intro h j hj
    have hidx : w - len + (len - 1 - j) = w - 1 - j := by omega
    rw [BitVec.getMsbD_eq_getLsbD, ← hidx, h (len - 1 - j) (by omega), Bool.and_false]
  · intro h j hj
    have hbit := h (len - 1 - j) (by omega)
    have hidx : w - 1 - (len - 1 - j) = w - len + j := by omega
    have hlt : len - 1 - j < w := by omega
    rw [BitVec.getMsbD_eq_getLsbD, hidx] at hbit
    simpa [hlt] using hbit

/-! ## Ones in parts -/

theorem toNat_cpop_split (x : BitVec w) {v : ℕ} (hv : v ≤ w) :
    x.cpop.toNat = (x.extractLsb' 0 v).cpop.toNat + (x >>> v).cpop.toNat := by
  have hsplit : x = (x.extractLsb' v (w - v) ++ x.extractLsb' 0 v).cast (by omega) := by
    apply BitVec.eq_of_getLsbD_eq
    intro j hj
    rw [BitVec.getLsbD_cast, BitVec.getLsbD_append, BitVec.getLsbD_extractLsb',
      BitVec.getLsbD_extractLsb']
    by_cases hlow : j < v
    · simp [hlow]
    · have hidx : v + (j - v) = j := by omega
      have hrest : j - v < w - v := by omega
      simp [hlow, hidx, hrest]
  have hshift : x >>> v = (0#v ++ x.extractLsb' v (w - v)).cast (by omega) := by
    apply BitVec.eq_of_getLsbD_eq
    intro j hj
    rw [BitVec.getLsbD_ushiftRight, BitVec.getLsbD_cast, BitVec.getLsbD_append,
      BitVec.getLsbD_extractLsb']
    by_cases hlow : j < w - v
    · simp [hlow]
    · have hbeyond : x.getLsbD (v + j) = false := BitVec.getLsbD_of_ge x _ (by omega)
      simp [hlow, hbeyond]
  have hparts : x.cpop.toNat =
      (x.extractLsb' v (w - v)).cpop.toNat + (x.extractLsb' 0 v).cpop.toNat := by
    refine (congrArg (fun y => y.cpop.toNat) hsplit).trans ?_
    rw [BitVec.cpop_cast, BitVec.toNat_cast, BitVec.toNat_cpop_append]
  rw [hparts, hshift, BitVec.cpop_cast, BitVec.toNat_cast, BitVec.toNat_cpop_append,
    BitVec.cpop_zero]
  simp [Nat.add_comm]

/-! ## Rotations -/

/-- A left rotation of two shifts, the second of which does not turn to `w` at zero. -/
theorem shifts_eq_rotateLeft (x : BitVec w) (hn : n < w) :
    x <<< n ||| x >>> ((w - n) % w) = x.rotateLeft n := by
  rw [BitVec.rotateLeft_def, Nat.mod_eq_of_lt hn]
  rcases Nat.eq_zero_or_pos n with rfl | hpos
  · rw [Nat.sub_zero, Nat.mod_self, BitVec.shiftLeft_zero, BitVec.ushiftRight_zero, BitVec.or_self]
    have hout : x >>> w = 0 := BitVec.ushiftRight_eq_zero (Nat.le_refl w)
    rw [hout]
    simp
  · rw [Nat.mod_eq_of_lt (by omega)]

theorem shifts_eq_rotateRight (x : BitVec w) (hn : n < w) :
    x >>> n ||| x <<< ((w - n) % w) = x.rotateRight n := by
  rw [BitVec.rotateRight_def, Nat.mod_eq_of_lt hn]
  rcases Nat.eq_zero_or_pos n with rfl | hpos
  · rw [Nat.sub_zero, Nat.mod_self, BitVec.shiftLeft_zero, BitVec.ushiftRight_zero, BitVec.or_self]
    have hout : x <<< w = 0 := BitVec.shiftLeft_eq_zero (Nat.le_refl w)
    rw [hout]
    simp
  · rw [Nat.mod_eq_of_lt (by omega)]

/-! ### By halves -/

/-- The upper bits of one half moved up, and those of the other moved in below them. -/
theorem getLsbD_half_left (a c : BitVec 32) {m k : ℕ} (hm : m < 32) (hk : k < 32) :
    (a <<< m ||| (if m = 0 then 0#32 else c >>> (32 - m))).getLsbD k =
      if k < m then c.getLsbD (32 - m + k) else a.getLsbD (k - m) := by
  rw [BitVec.getLsbD_or, BitVec.getLsbD_shiftLeft]
  by_cases hlow : k < m
  · have hne : m ≠ 0 := by omega
    simp [hlow, hne]
  · have hout : c.getLsbD (32 - m + k) = false := BitVec.getLsbD_of_ge c _ (by omega)
    by_cases hz : m = 0
    · simp [hz, hk]
    · simp [hlow, hk, hz, hout]

theorem getLsbD_append_or (a b c d : BitVec 32) (j : ℕ) : ((a ++ b) ||| (c ++ d)).getLsbD j =
      if j < 32 then (b ||| d).getLsbD j else (a ||| c).getLsbD (j - 32) := by
  rw [BitVec.getLsbD_or, BitVec.getLsbD_append, BitVec.getLsbD_append]
  split <;> rw [BitVec.getLsbD_or]

theorem getLsbD_half (x : BitVec 64) (start : ℕ) {k : ℕ} (hk : k < 32) :
    (x.extractLsb' start 32).getLsbD k = x.getLsbD (start + k) := by
  rw [BitVec.getLsbD_extractLsb']
  simp [hk]

/-- A rotation by halves: they change places or do not, and then each goes on by less than a
half. -/
theorem rotateLeft_halves (x : BitVec 64) {s m : ℕ} (hs : s = 0 ∨ s = 32) (hm : m < 32) :
    (x.extractLsb' (32 - s) 32 <<< m ++ x.extractLsb' s 32 <<< m) |||
      ((if m = 0 then 0#32 else x.extractLsb' s 32 >>> (32 - m)) ++
        (if m = 0 then 0#32 else x.extractLsb' (32 - s) 32 >>> (32 - m))) =
      x.rotateLeft (s + m) := by
  apply BitVec.eq_of_getLsbD_eq
  intro j hj
  rw [BitVec.getLsbD_rotateLeft_of_le (by omega), getLsbD_append_or, Bool.cond_decide]
  by_cases hlow : j < 32
  · rw [if_pos hlow, getLsbD_half_left _ _ hm hlow]
    by_cases hmoved : j < m
    · rw [if_pos hmoved, if_pos (by omega), getLsbD_half x _ (by omega)]
      exact congrArg x.getLsbD (by omega)
    rw [if_neg hmoved, getLsbD_half x _ (by omega)]
    rcases hs with rfl | rfl
    · rw [if_neg (by omega), decide_eq_true hj, Bool.true_and]
      exact congrArg x.getLsbD (by omega)
    · rw [if_pos (by omega)]
      exact congrArg x.getLsbD (by omega)
  rw [if_neg hlow, getLsbD_half_left _ _ hm (by omega)]
  by_cases hmoved : j - 32 < m
  · rw [if_pos hmoved, getLsbD_half x _ (by omega)]
    rcases hs with rfl | rfl
    · rw [if_neg (by omega), decide_eq_true hj, Bool.true_and]
      exact congrArg x.getLsbD (by omega)
    · rw [if_pos (by omega)]
      exact congrArg x.getLsbD (by omega)
  · rw [if_neg hmoved, if_neg (by omega), getLsbD_half x _ (by omega), decide_eq_true hj,
      Bool.true_and]
    exact congrArg x.getLsbD (by omega)

theorem rotateRight_halves (x : BitVec 64) {s m : ℕ} (hs : s = 0 ∨ s = 32) (hm : m < 32) :
    (x.extractLsb' (32 - s) 32 >>> m ++ x.extractLsb' s 32 >>> m) |||
      ((if m = 0 then 0#32 else x.extractLsb' s 32 <<< (32 - m)) ++
        (if m = 0 then 0#32 else x.extractLsb' (32 - s) 32 <<< (32 - m))) =
      x.rotateRight (s + m) := by
  rcases Nat.eq_zero_or_pos m with rfl | hpos
  · rw [if_pos rfl, if_pos rfl, BitVec.ushiftRight_zero, BitVec.ushiftRight_zero]
    apply BitVec.eq_of_getLsbD_eq
    intro j hj
    rw [BitVec.getLsbD_rotateRight_of_lt (by omega), getLsbD_append_or, Bool.cond_decide,
      BitVec.or_zero, BitVec.or_zero]
    by_cases hlow : j < 32
    · rw [if_pos hlow, if_pos (by omega), getLsbD_half x _ hlow]
      exact congrArg x.getLsbD (by omega)
    rw [if_neg hlow, getLsbD_half x _ (by omega)]
    rcases hs with rfl | rfl
    · rw [if_pos (by omega)]
      exact congrArg x.getLsbD (by omega)
    · rw [if_neg (by omega), decide_eq_true hj, Bool.true_and]
      exact congrArg x.getLsbD (by omega)
  have hleft := rotateLeft_halves x (s := 32 - s) (m := 32 - m) (by omega) (by omega)
  rw [show 32 - (32 - s) = s by omega, show 32 - (32 - m) = m by omega, if_neg (by omega),
    if_neg (by omega), BitVec.or_comm] at hleft
  rw [if_neg (Nat.ne_of_gt hpos), if_neg (Nat.ne_of_gt hpos), hleft, BitVec.rotateLeft,
    BitVec.rotateRight, BitVec.rotateLeftAux, BitVec.rotateRightAux,
    Nat.mod_eq_of_lt (by omega), Nat.mod_eq_of_lt (by omega), BitVec.or_comm,
    show 64 - (32 - s + (32 - m)) = s + m by omega, show 64 - (s + m) = 32 - s + (32 - m) by omega]

end BitScan
