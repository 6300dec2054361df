/-
Rounding to the nearest rung of a strictly increasing ladder of values, ties to the even rung.
A value is followed through shifts by an integer that compares like it with every multiple of
a step, which is what a sticky bit is for.
-/
import Mathlib.Algebra.Order.Field.Basic
import Mathlib.Algebra.Order.Ring.Abs
import Mathlib.Data.Int.Cast.Lemmas
import Mathlib.Data.Nat.Bitwise
import Mathlib.Data.Nat.Cast.Order.Ring
import Mathlib.Order.Monotone.Basic
import Mathlib.Tactic.LinearCombination
import Mathlib.Tactic.Linarith
import Mathlib.Tactic.Push
import Mathlib.Tactic.Ring

namespace NearestEven

variable {α : Type*} [Field α] [LinearOrder α] [IsStrictOrderedRing α]

section Distance

variable {x a b : α}

theorem abs_sub_le_abs_sub_iff (hab : a < b) : |x - a| ≤ |x - b| ↔ 2 * x ≤ a + b := by
  rw [← sq_le_sq]
  have hexpand : (x - b) ^ 2 - (x - a) ^ 2 = (b - a) * (a + b - 2 * x) := by ring
  have hgap : 0 < b - a := sub_pos.mpr hab
  rw [← sub_nonneg, hexpand, mul_nonneg_iff_of_pos_left hgap, sub_nonneg]

theorem abs_sub_le_abs_sub_iff' (hab : a < b) : |x - b| ≤ |x - a| ↔ a + b ≤ 2 * x := by
  rw [← sq_le_sq]
  have hexpand : (x - a) ^ 2 - (x - b) ^ 2 = (b - a) * (2 * x - (a + b)) := by ring
  have hgap : 0 < b - a := sub_pos.mpr hab
  rw [← sub_nonneg, hexpand, mul_nonneg_iff_of_pos_left hgap, sub_nonneg]

theorem abs_sub_eq_abs_sub_iff (hab : a < b) : |x - a| = |x - b| ↔ 2 * x = a + b := by
  rw [le_antisymm_iff, abs_sub_le_abs_sub_iff hab, abs_sub_le_abs_sub_iff' hab, le_antisymm_iff]

end Distance

section Ladder

variable {v : ℕ → α} {x : α} {n top : ℕ}

/-- No rung is nearer to `x` than rung `n`, and if another is as near then `n` is even. -/
def IsNearestEven (v : ℕ → α) (x : α) (n : ℕ) : Prop :=
  ∀ m, m ≠ n → |x - v n| ≤ |x - v m| ∧ (|x - v n| = |x - v m| → n % 2 = 0)

/-- Only the two neighbours of a rung can be nearer. -/
theorem of_neighbours (hv : StrictMono v)
    (hbelow : ∀ m, m + 1 = n → v m + v n < 2 * x ∨ (v m + v n = 2 * x ∧ n % 2 = 0))
    (habove : 2 * x < v n + v (n + 1) ∨ (2 * x = v n + v (n + 1) ∧ n % 2 = 0)) :
    IsNearestEven v x n := by
  intro m hm
  rcases Nat.lt_or_gt_of_ne hm with hlt | hgt
  · obtain ⟨k, hk⟩ : ∃ k, k + 1 = n := ⟨n - 1, by omega⟩
    have hmk : v m ≤ v k := hv.monotone (by omega)
    rw [abs_sub_le_abs_sub_iff' (hv hlt), eq_comm, abs_sub_eq_abs_sub_iff (hv hlt)]
    rcases hbelow k hk with h | ⟨h, heven⟩
    · exact ⟨by linarith, fun heq => by linarith⟩
    · exact ⟨by linarith, fun _ => heven⟩
  have hmk : v (n + 1) ≤ v m := hv.monotone hgt
  rw [abs_sub_le_abs_sub_iff (hv hgt), abs_sub_eq_abs_sub_iff (hv hgt)]
  rcases habove with h | ⟨h, heven⟩
  · exact ⟨by linarith, fun heq => by linarith⟩
  · exact ⟨by linarith, fun _ => heven⟩

/-- A rung is nearest to its own value. -/
theorem isNearestEven_self (hv : StrictMono v) (n : ℕ) : IsNearestEven v (v n) n := by
  intro m hm
  rw [sub_self, abs_zero]
  refine ⟨abs_nonneg _, fun h => ?_⟩
  have heq : v n = v m := sub_eq_zero.mp (abs_eq_zero.mp h.symm)
  exact absurd (hv.injective heq) (Ne.symm hm)

/-- A ladder that is cut off at an even rung: what rounds to the cut or beyond it is what lies
at the last midpoint or above it. -/
theorem IsNearestEven.le_iff_midpoint (h : IsNearestEven v x n) (hv : StrictMono v)
    (htop : (top + 1) % 2 = 0) : top + 1 ≤ n ↔ v top + v (top + 1) ≤ 2 * x := by
  constructor
  · intro hle
    have hlt : top < n := hle
    have hnear := (h top (by omega)).1
    rw [abs_sub_le_abs_sub_iff' (hv hlt)] at hnear
    have hmono : v (top + 1) ≤ v n := hv.monotone hle
    linarith
  · intro hmid
    by_contra hlt
    have hn : n ≤ top := by omega
    obtain ⟨hnear, htie⟩ := h (top + 1) (by omega)
    have hlt' : v n < v (top + 1) := hv (by omega)
    rw [abs_sub_le_abs_sub_iff hlt'] at hnear
    have hmono : v n ≤ v top := hv.monotone hn
    rw [abs_sub_eq_abs_sub_iff hlt'] at htie
    have heven := htie (by linarith)
    have hvn : v n = v top := by linarith
    have htopn : n = top := hv.injective hvn
    omega

end Ladder

section Tracking

variable {g g' : ℤ} {y : α} {m n : ℤ}

/-- `n` compares with every multiple of `g` as `y` does. -/
def Tracks (g : ℤ) (y : α) (n : ℤ) : Prop :=
  ∀ c : ℤ, (y < ((c * g : ℤ) : α) ↔ n < c * g) ∧ (((c * g : ℤ) : α) < y ↔ c * g < n)

theorem Tracks.exact (g n : ℤ) : Tracks g (n : α) n := fun _ => ⟨Int.cast_lt, Int.cast_lt⟩

omit [IsStrictOrderedRing α] in
theorem Tracks.coarser (h : Tracks g y n) (hdvd : g ∣ g') : Tracks g' y n := by
  obtain ⟨k, rfl⟩ := hdvd
  intro c
  have hc := h (c * k)
  rw [show c * k * g = c * (g * k) by ring] at hc
  exact hc

theorem Tracks.add_left (h : Tracks g y n) (hm : g ∣ m) : Tracks g (m + y) (m + n) := by
  obtain ⟨k, rfl⟩ := hm
  intro c
  have hc := h (c - k)
  have hcast : (((c - k) * g : ℤ) : α) = ((c * g : ℤ) : α) - ((g * k : ℤ) : α) := by
    push_cast
    ring
  rw [hcast, sub_mul] at hc
  constructor
  · rw [← lt_sub_iff_add_lt', hc.1]
    constructor
    · intro hlt
      linarith
    · intro hlt
      linarith
  · rw [← sub_lt_iff_lt_add', hc.2]
    constructor
    · intro hlt
      linarith
    · intro hlt
      linarith

theorem Tracks.sub_left (h : Tracks g y n) (hm : g ∣ m) : Tracks g (m - y) (m - n) := by
  obtain ⟨k, rfl⟩ := hm
  intro c
  have hc := h (k - c)
  have hcast : (((k - c) * g : ℤ) : α) = ((g * k : ℤ) : α) - ((c * g : ℤ) : α) := by
    push_cast
    ring
  rw [hcast, sub_mul] at hc
  constructor
  · rw [sub_lt_comm, hc.2]
    constructor
    · intro hlt
      linarith
    · intro hlt
      linarith
  · rw [lt_sub_comm, hc.1]
    constructor
    · intro hlt
      linarith
    · intro hlt
      linarith

theorem Tracks.neg (h : Tracks g y n) : Tracks g (-y) (-n) := by
  have h0 := h.sub_left (dvd_zero g)
  rwa [Int.cast_zero, zero_sub, zero_sub] at h0

/-- A shift to the left makes the step of the comparisons coarser by as much. -/
theorem Tracks.scale (h : Tracks g y n) {k : ℤ} (hk : 0 < k) : Tracks (k * g) (k * y) (k * n) := by
  intro c
  have hk' : (0 : α) < k := Int.cast_pos.mpr hk
  have hcast : ((c * (k * g) : ℤ) : α) = k * ((c * g : ℤ) : α) := by
    push_cast
    ring
  rw [hcast, show c * (k * g) = k * (c * g) by ring, mul_lt_mul_iff_right₀ hk',
    mul_lt_mul_iff_right₀ hk', mul_lt_mul_iff_right₀ hk, mul_lt_mul_iff_right₀ hk]
  exact h c

end Tracking

section Jam

/-- A shift to the right that sets the last bit kept if a set bit is lost. -/
def jam (n d : ℕ) : ℕ := if n % 2 ^ d = 0 then n / 2 ^ d else n / 2 ^ d ||| 1

theorem or_one (q : ℕ) : q ||| 1 = 2 * (q / 2) + 1 := by
  apply Nat.eq_of_testBit_eq
  intro i
  rw [Nat.testBit_or]
  cases i with
  | zero => simp
  | succ i =>
    have hodd : (2 * (q / 2) + 1) / 2 = q / 2 := by omega
    rw [Nat.testBit_succ, Nat.testBit_succ, Nat.testBit_succ, hodd]
    simp

/-- A jammed shift compares with even numbers as the number shifted does with their multiples. -/
theorem jam_compare (n d : ℕ) (c : ℤ) : ((jam n d : ℤ) < c * 2 ↔ (n : ℤ) < c * 2 * 2 ^ d) ∧
      (c * 2 < (jam n d : ℤ) ↔ c * 2 * 2 ^ d < (n : ℤ)) := by
  have hpos : (0 : ℤ) < 2 ^ d := pow_pos (by decide) d
  have hdiv : (n : ℤ) = (n / 2 ^ d : ℕ) * 2 ^ d + (n % 2 ^ d : ℕ) := by
    exact_mod_cast (Nat.div_add_mod' n (2 ^ d)).symm
  have hmod : ((n % 2 ^ d : ℕ) : ℤ) < 2 ^ d := by
    exact_mod_cast Nat.mod_lt n (pow_pos (by decide) d)
  rw [hdiv, jam]
  generalize n / 2 ^ d = q at *
  generalize n % 2 ^ d = r at *
  split_ifs with hr
  · subst hr
    rw [Nat.cast_zero, add_zero, mul_lt_mul_iff_left₀ hpos, mul_lt_mul_iff_left₀ hpos]
    exact ⟨Iff.rfl, Iff.rfl⟩
  · -- the shift loses a bit, so the number lies strictly between two multiples
    have hr' : (0 : ℤ) < r := by omega
    have hlt : (q : ℤ) * 2 ^ d + r < c * 2 * 2 ^ d ↔ (q : ℤ) < c * 2 := by
      constructor
      · intro h
        exact lt_of_mul_lt_mul_right (by linarith) hpos.le
      · intro h
        have hle : ((q : ℤ) + 1) * 2 ^ d ≤ c * 2 * 2 ^ d :=
          mul_le_mul_of_nonneg_right (by omega) hpos.le
        linarith
    have hgt : c * 2 * 2 ^ d < (q : ℤ) * 2 ^ d + r ↔ c * 2 ≤ (q : ℤ) := by
      rw [← not_iff_not, not_lt, not_le, ← hlt]
      constructor
      · intro h
        refine lt_of_le_of_ne h fun heq => ?_
        have hdvd : (2 ^ d : ℤ) ∣ r := by
          refine (Int.dvd_add_right (dvd_mul_left (2 ^ d : ℤ) (q : ℤ))).mp ?_
          rw [heq]
          exact dvd_mul_left _ _
        exact absurd (Int.le_of_dvd hr' hdvd) (by omega)
      · intro h
        exact h.le
    rw [hlt, hgt, or_one]
    omega

/-- A jammed shift tracks the shifted value on even numbers. -/
theorem Tracks.jam {g : ℤ} {y : α} {n d : ℕ} (h : Tracks g y n) (hg : g ∣ 2 ^ (d + 1)) :
    Tracks 2 (y / 2 ^ d) (jam n d) := by
  intro c
  have hpos : (0 : α) < 2 ^ d := pow_pos (by norm_num) d
  have hc := (h.coarser hg) c
  have hstep : c * 2 ^ (d + 1) = c * 2 * 2 ^ d := by ring
  rw [hstep, ← (jam_compare n d c).1, ← (jam_compare n d c).2] at hc
  have hcast : ((c * 2 * 2 ^ d : ℤ) : α) = ((c * 2 : ℤ) : α) * 2 ^ d := by push_cast; ring
  rw [hcast] at hc
  rw [div_lt_iff₀ hpos, lt_div_iff₀ hpos]
  exact hc

theorem jam_lt {n d k : ℕ} (h : n < 2 ^ (k + 1 + d)) : jam n d < 2 ^ (k + 1) := by
  have hdiv : n / 2 ^ d < 2 ^ (k + 1) := by
    rw [Nat.div_lt_iff_lt_mul (pow_pos (by decide) d), ← pow_add]
    exact h
  rw [NearestEven.jam]
  split_ifs
  · exact hdiv
  · rw [or_one]
    rw [pow_succ] at hdiv ⊢
    omega

theorem div_le_jam (n d : ℕ) : n / 2 ^ d ≤ jam n d := by
  rw [NearestEven.jam]
  split_ifs
  · exact le_rfl
  · rw [or_one]
    omega

theorem jam_of_dvd {n d : ℕ} (h : 2 ^ d ∣ n) : jam n d = n / 2 ^ d := by
  rw [NearestEven.jam, if_pos (Nat.mod_eq_zero_of_dvd h)]

end Jam

section Rounding

/-- Three bits below the last place are rounded away. -/
def roundEven (n : ℕ) : ℕ := n / 8 + if 4 < n % 8 ∨ (n % 8 = 4 ∧ n / 8 % 2 = 1) then 1 else 0

variable {v : ℕ → α} {x y u : α} {n base : ℕ}

/-- Rounding an integer away by three bits finds the rung nearest to what the integer tracks
down to the first of these bits. -/
theorem Tracks.isNearestEven (h : Tracks 4 y n) (hv : StrictMono v) (hbase : base % 2 = 0)
    (hu : 0 < u) (hx : x = y * (u / 8)) (hlow : v (base + n / 8) = (n / 8 : ℕ) * u)
    (hhigh : v (base + n / 8 + 1) = ((n / 8 : ℕ) + 1) * u) :
    IsNearestEven v x (base + roundEven n) := by
  have hy : 8 * x = y * u := by rw [hx]; ring
  obtain ⟨q, hq⟩ : ∃ q, n / 8 = q := ⟨_, rfl⟩
  rw [hq] at hlow hhigh
  have hcompare : ∀ k : ℤ, (y < ((k * 4 : ℤ) : α) ↔ 8 * x < ((k * 4 : ℤ) : α) * u) ∧
      (((k * 4 : ℤ) : α) < y ↔ ((k * 4 : ℤ) : α) * u < 8 * x) := by
    intro k
    rw [hy, mul_lt_mul_iff_left₀ hu, mul_lt_mul_iff_left₀ hu]
    exact ⟨Iff.rfl, Iff.rfl⟩
  have hfloor : v (base + q) ≤ x := by
    have hc := (h (2 * q)).1.not.mpr (by omega)
    rw [(hcompare _).1] at hc
    push_cast at hc
    rw [hlow]
    linarith
  have hceil : x < v (base + q + 1) := by
    have hc := (h (2 * q + 2)).1.mpr (by omega)
    rw [(hcompare _).1] at hc
    push_cast at hc
    rw [hhigh]
    linarith
  have hmid := h (2 * q + 1)
  rw [(hcompare _).1, (hcompare _).2] at hmid
  push_cast at hmid
  rw [roundEven, hq]
  split_ifs with hup
  · apply of_neighbours hv
    · intro m hm
      obtain rfl : m = base + q := by omega
      rw [show base + (q + 1) = base + q + 1 by omega, hlow, hhigh]
      rcases hup with hover | ⟨htie, hodd⟩
      · have hgt := hmid.2.mpr (by omega)
        exact .inl (by linarith)
      · have hge := hmid.1.not.mpr (by omega)
        have hle := hmid.2.not.mpr (by omega)
        exact .inr ⟨by linarith, by omega⟩
    · have hmono : v (base + q + 1) < v (base + (q + 1) + 1) := hv (by omega)
      rw [show base + (q + 1) = base + q + 1 by omega] at hmono ⊢
      exact .inl (by linarith)
  · apply of_neighbours hv
    · intro m hm
      have hmono : v m < v (base + q) := hv (by omega)
      exact .inl (by rw [add_zero]; linarith)
    · rw [add_zero, hlow, hhigh]
      rcases Nat.lt_or_ge (n % 8) 4 with hlt | hge
      · have hund := hmid.1.mpr (by omega)
        exact .inl (by linarith)
      · have hnotlt := hmid.1.not.mpr (by omega)
        have hnotgt := hmid.2.not.mpr (by omega)
        exact .inr ⟨by linarith, by omega⟩

end Rounding

end NearestEven
