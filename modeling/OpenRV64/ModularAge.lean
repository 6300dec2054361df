/-
Ages of consecutively numbered items that are known only modulo `2 ^ w`.

The sign bit of a difference orders two numbers correctly exactly as long as
they are less than half of the number space apart.
-/
import Mathlib.Data.Nat.ModEq
import Mathlib.Tactic.Linarith

namespace ModularAge

variable {w : Nat}

/-- `candidate` is later than `reference` in the modular number space. -/
def isYounger (candidate reference : BitVec w) : Bool :=
  candidate - reference != 0 && !(candidate - reference).msb

/-- The identifier of item number `n`. -/
def idOf (w n : Nat) : BitVec w := BitVec.ofNat w n

theorem idOf_add (n k : Nat) : idOf w (n + k) = idOf w n + BitVec.ofNat w k := BitVec.ofNat_add n k

theorem idOf_eq_iff (a b : Nat) : idOf w a = idOf w b ↔ a % 2 ^ w = b % 2 ^ w := by
  rw [idOf, idOf, ← BitVec.toNat_inj, BitVec.toNat_ofNat, BitVec.toNat_ofNat]

/-- Identifiers name at most one item within the number space. -/
theorem idOf_inj {a b : Nat} (hab : a < b + 2 ^ w) (hba : b < a + 2 ^ w) :
    idOf w a = idOf w b ↔ a = b := by
  rw [idOf_eq_iff]
  constructor
  · intro h
    rcases Nat.le_total a b with hle | hle
    · have hdvd : 2 ^ w ∣ b - a := (Nat.modEq_iff_dvd' hle).mp h
      have hz := Nat.eq_zero_of_dvd_of_lt hdvd (by omega)
      omega
    · have hdvd : 2 ^ w ∣ a - b := (Nat.modEq_iff_dvd' hle).mp h.symm
      have hz := Nat.eq_zero_of_dvd_of_lt hdvd (by omega)
      omega
  · rintro rfl
    rfl

theorem toNat_idOf_add_sub (b d : Nat) : (idOf w (b + d) - idOf w b).toNat = d % 2 ^ w := by
  rw [idOf_add, idOf, BitVec.add_comm, BitVec.add_sub_cancel, BitVec.toNat_ofNat]

/-- What the comparison decides: the modular distance is positive and less than
half of the number space. -/
theorem isYounger_iff (hw : 0 < w) (candidate reference : BitVec w) :
    isYounger candidate reference ↔ 0 < (candidate - reference).toNat ∧
        (candidate - reference).toNat < 2 ^ (w - 1) := by
  rw [isYounger, Bool.and_eq_true, bne_iff_ne, ne_eq, ← BitVec.toNat_inj,
    Bool.not_eq_true', BitVec.msb_eq_false_iff_two_mul_lt]
  have hpow : 2 ^ w = 2 * 2 ^ (w - 1) := by
    rw [← Nat.pow_succ', Nat.succ_eq_add_one, Nat.sub_add_cancel hw]
  have hz : (0 : BitVec w).toNat = 0 := BitVec.toNat_zero
  omega

theorem isYounger_later (hw : 0 < w) {a b : Nat} (hle : b ≤ a) : isYounger (idOf w a) (idOf w b) =
      decide (0 < (a - b) % 2 ^ w ∧ (a - b) % 2 ^ w < 2 ^ (w - 1)) := by
  obtain ⟨d, rfl⟩ := Nat.exists_eq_add_of_le hle
  rw [Bool.eq_iff_iff, isYounger_iff hw, toNat_idOf_add_sub, decide_eq_true_iff,
    Nat.add_sub_cancel_left]

theorem isYounger_earlier (hw : 0 < w) {a b : Nat} (hle : a ≤ b) :
    isYounger (idOf w a) (idOf w b) = decide (2 ^ (w - 1) < (b - a) % 2 ^ w) := by
  obtain ⟨d, rfl⟩ := Nat.exists_eq_add_of_le hle
  have hpow : 2 ^ w = 2 * 2 ^ (w - 1) := by
    rw [← Nat.pow_succ', Nat.succ_eq_add_one, Nat.sub_add_cancel hw]
  have hpos := Nat.two_pow_pos (w - 1)
  have hlt : d % 2 ^ w < 2 ^ w := Nat.mod_lt _ (Nat.two_pow_pos w)
  have hdist : (idOf w a - idOf w (a + d)).toNat = (2 ^ w - d % 2 ^ w) % 2 ^ w := by
    have h : idOf w a - idOf w (a + d) = idOf w (a + d + (2 ^ w - d % 2 ^ w)) - idOf w (a + d) := by
      congr 1
      rw [idOf_eq_iff]
      have hdiv := Nat.div_add_mod d (2 ^ w)
      rw [show a + d + (2 ^ w - d % 2 ^ w) = a + 2 ^ w * (d / 2 ^ w + 1) by
        rw [Nat.mul_add]; omega, Nat.add_mul_mod_self_left]
    rw [h, toNat_idOf_add_sub]
  rw [Bool.eq_iff_iff, isYounger_iff hw, hdist, decide_eq_true_iff, Nat.add_sub_cancel_left]
  rcases Nat.eq_zero_or_pos (d % 2 ^ w) with hz | hdpos
  · rw [hz, Nat.sub_zero, Nat.mod_self]
    omega
  · rw [Nat.mod_eq_of_lt (by omega)]
    omega

theorem isYounger_self (a : BitVec w) : isYounger a a = false := by
  simp [isYounger]

theorem isYounger_asymm {a b : BitVec w} (h : isYounger a b) : isYounger b a = false := by
  rcases Nat.eq_zero_or_pos w with rfl | hw
  · rw [Subsingleton.elim a b, isYounger_self] at h
    cases h
  have hpow : 2 ^ w = 2 * 2 ^ (w - 1) := by
    rw [← Nat.pow_succ', Nat.succ_eq_add_one, Nat.sub_add_cancel hw]
  obtain ⟨hpos, hlt⟩ := (isYounger_iff hw a b).mp h
  have hneg : b - a = -(a - b) := by
    rw [BitVec.neg_sub, BitVec.add_comm, ← BitVec.sub_eq_add_neg]
  rw [Bool.eq_false_iff, ne_eq, isYounger_iff hw, hneg, BitVec.toNat_neg,
    Nat.mod_eq_of_lt (by omega)]
  omega

/-- Within half of the number space the comparison is the true order. -/
theorem isYounger_idOf (hw : 0 < w) {a b : Nat} (hab : a < b + 2 ^ (w - 1))
    (hba : b ≤ a + 2 ^ (w - 1)) : isYounger (idOf w a) (idOf w b) = decide (b < a) := by
  have hpow : 2 ^ w = 2 * 2 ^ (w - 1) := by
    rw [← Nat.pow_succ', Nat.succ_eq_add_one, Nat.sub_add_cancel hw]
  have hpos := Nat.two_pow_pos (w - 1)
  rcases Nat.le_total a b with hle | hle
  · rw [isYounger_earlier hw hle, Nat.mod_eq_of_lt (by omega), decide_eq_decide]
    omega
  · rw [isYounger_later hw hle, Nat.mod_eq_of_lt (by omega), decide_eq_decide]
    omega

end ModularAge
