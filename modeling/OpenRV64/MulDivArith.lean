/-
The arithmetic of `openrv64_exec_rv64m`, with either multiplier and for every width of the chunks:
the accumulator of the iterative multiplier is the product of the bits so far, the product of the
other is corrected to the signed one, and the divider holds the remainder and the quotient of a
prefix of the dividend.
-/
import OpenRV64.MulDiv

namespace OpenRV64

open BitSerial MulDivRequest MulOp
open BitVec (ofInt ofInt_natCast ofInt_add ofInt_neg eq_of_toNat_eq ofNat_toNat ofInt_mul
  sub_eq_add_neg testBit_toNat setWidth_eq toNat_append)

/-! ## Numbers and their signs -/

section Signs

variable {w : ℕ}

theorem negateIf_eq (negative : Bool) (x : BitVec w) :
    negateIf negative x = if negative then -x else x := by
  cases negative
  · rfl
  · exact (BitVec.neg_eq_not_add x).symm

theorem negateIf_ofInt (negative : Bool) (z : ℤ) :
    negateIf negative (ofInt w z) = ofInt w (if negative then -z else z) := by
  rw [negateIf_eq]
  cases negative
  · rfl
  · exact ofInt_neg.symm

/-- The magnitude of a word, as `abs64` and `abs32` have it. -/
def magnitude (x : BitVec w) : ℕ := (negateIf x.msb x).toNat

theorem toInt_eq_magnitude (x : BitVec w) :
    x.toInt = if x.msb then -(magnitude x : ℤ) else magnitude x := by
  rw [BitVec.toInt_eq_msb_cond, magnitude, negateIf_eq]
  cases hmsb : x.msb
  · simp
  have hpos : 0 < x.toNat := by
    by_contra hz
    have hx : x = 0 := eq_of_toNat_eq (by simp; omega)
    rw [hx] at hmsb
    simp at hmsb
  have hlt := x.isLt
  have hneg : (-x).toNat = 2 ^ w - x.toNat := by
    rw [BitVec.toNat_neg, Nat.mod_eq_of_lt (by omega)]
  simp only [if_true, hneg]
  push_cast [hlt.le]
  ring

theorem toInt_mul_toInt (a b : BitVec w) : a.toInt * b.toInt =
    if a.msb ^^ b.msb then -((magnitude a : ℤ) * magnitude b) else magnitude a * magnitude b := by
  rw [toInt_eq_magnitude a, toInt_eq_magnitude b]
  cases a.msb <;> cases b.msb <;> simp

theorem toInt_mul_toNat (a b : BitVec w) : a.toInt * b.toNat =
    if a.msb then -((magnitude a : ℤ) * b.toNat) else magnitude a * b.toNat := by
  rw [toInt_eq_magnitude a]
  cases a.msb <;> simp

theorem toInt_tdiv_toInt (a b : BitVec w) : a.toInt.tdiv b.toInt =
    if a.msb ^^ b.msb then -((magnitude a / magnitude b : ℕ) : ℤ)
    else (magnitude a / magnitude b : ℕ) := by
  rw [toInt_eq_magnitude a, toInt_eq_magnitude b]
  cases a.msb <;> cases b.msb <;> simp

theorem toInt_tmod_toInt (a b : BitVec w) : a.toInt.tmod b.toInt =
    if a.msb then -((magnitude a % magnitude b : ℕ) : ℤ) else (magnitude a % magnitude b : ℕ) := by
  rw [toInt_eq_magnitude a, toInt_eq_magnitude b]
  cases a.msb <;> cases b.msb <;> simp [Int.tmod_eq_emod_of_nonneg]

theorem magnitude_pos {x : BitVec w} (hx : x ≠ 0) : 0 < magnitude x := by
  have hne : x.toInt ≠ 0 := by
    intro hz
    apply hx
    rw [← BitVec.ofInt_toInt (x := x), hz]
    rfl
  rw [toInt_eq_magnitude] at hne
  rcases Nat.eq_zero_or_pos (magnitude x) with hz | hpos
  · simp [hz] at hne
  · exact hpos

theorem ofInt_toNat_mul (a b : BitVec w) :
    ofInt w ((a.toNat : ℤ) * b.toNat) = ofInt w (a.toInt * b.toInt) := by
  rw [toNat_eq_toInt a, toNat_eq_toInt b]
  have hsplit : (a.toInt + 2 ^ w * a.msb.toNat) * (b.toInt + 2 ^ w * b.msb.toNat) =
      a.toInt * b.toInt + 2 ^ w * (a.msb.toNat * (b.toInt + 2 ^ w * b.msb.toNat) +
        a.toInt * b.msb.toNat) := by ring
  rw [hsplit, ofInt_add_two_pow_mul]

end Signs

/-! ## The multipliers -/

/-- What makes a multiplier right: `Works r n s` says that `s` is at work on `r` and that its
last cycle is at most the `n`-th from now. -/
structure Multiplier.Correct (m : Multiplier) where
  Works : MulDivRequest → ℕ → m.State → Prop
  load : ∀ r, r.startMulValid = true → Works r 64 (m.load r)
  pos : ∀ r n s, Works r n s → 0 < n
  step : ∀ r n s, Works r n s → m.lastStep s = false → Works r (n - 1) (m.step s)
  result : ∀ r n s, r.startMulValid = true → Works r n s → m.lastStep s = true →
    ⟨false, m.result s r.opSelI r.wordOpI⟩ = r.answer

theorem MulDivRequest.startMulValid_cases {r : MulDivRequest} (h : r.startMulValid) :
    r.opSelI = some .mul ∨ r.wordOpI = false ∧ (r.opSelI = some .mulh ∨ r.opSelI = some .mulhsu ∨
        r.opSelI = some .mulhu) := by
  simp only [startMulValid, startMulOp, startInvalidMulWord] at h
  cases hop : r.opSelI with
  | none => simp [hop] at h
  | some op => cases op <;> simp_all [isMul, isMulHigh]

/-- The answer to a multiplication, by the product of its operands as the operation reads them. -/
theorem MulDivRequest.answer_word {r : MulDivRequest} (hop : r.opSelI = some .mul)
    (hwrd : r.wordOpI) :
    r.answer = ⟨false, sextWord (ofInt 32
      (((r.src1I.setWidth 32).toNat : ℤ) * (r.src2I.setWidth 32).toNat))⟩ := by
  rw [ofInt_toNat_mul]
  simp [answer, hop, hwrd, isMulHigh, eval, sextWord]

theorem MulDivRequest.answer_mul {r : MulDivRequest} (hop : r.opSelI = some .mul)
    (hwrd : r.wordOpI = false) :
    r.answer = ⟨false, ofInt 64 ((r.src1I.toNat : ℤ) * r.src2I.toNat)⟩ := by
  rw [ofInt_toNat_mul]
  simp [answer, hop, hwrd, eval]

theorem MulDivRequest.answer_long {r : MulDivRequest} {op : MulOp} (hop : r.opSelI = some op)
    (hwrd : r.wordOpI = false) : r.answer = ⟨false, op.eval r.src1I r.src2I⟩ := by
  simp [answer, hop, hwrd]

/-- The bits of an operand. -/
def MulDivRequest.bits (r : MulDivRequest) : ℕ := if r.wordOpI then 32 else 64

theorem MulDivRequest.bits_eq (r : MulDivRequest) : r.bits = 32 ∨ r.bits = 64 := by
  unfold bits
  split <;> simp

/-! ### One product and its corrections -/

namespace ProductMul

variable (s : ProductMul)

theorem mulProduct_eq : s.mulProduct = ofInt 128 ((s.src1Q.toNat : ℤ) * s.src2Q.toNat) := by
  have hwide (x : BitVec 64) : x.setWidth 128 = ofInt 128 x.toNat := by
    rw [ofInt_natCast]
    exact eq_of_toNat_eq (by simp)
  rw [mulProduct, hwide, hwide, ← ofInt_mul]

theorem mulProduct_high : s.mulProduct.extractLsb' 64 64 =
    ofInt 64 ((s.src1Q.toNat : ℤ) * s.src2Q.toNat / 2 ^ 64) := by
  rw [mulProduct_eq, extractLsb'_ofInt _ (by omega)]

theorem correction_eq (sign : Bool) (x : BitVec 64) :
    (if sign then x else 0) = ofInt 64 (x.toInt * sign.toNat) := by
  cases sign <;> simp

theorem mulHighSs_eq : s.mulHighSs = ofInt 64 (s.src1Q.toInt * s.src2Q.toInt / 2 ^ 64) := by
  have hsplit : (s.src1Q.toNat : ℤ) * s.src2Q.toNat =
      s.src1Q.toInt * s.src2Q.toInt + 2 ^ 64 * (s.src2Q.toInt * s.src1Q.msb.toNat +
        s.src1Q.toInt * s.src2Q.msb.toNat + 2 ^ 64 * (s.src1Q.msb.toNat * s.src2Q.msb.toNat)) := by
    rw [toNat_eq_toInt, toNat_eq_toInt]
    ring
  rw [mulHighSs, mulProduct_high, correction_eq, correction_eq, hsplit,
    Int.add_mul_ediv_left _ _ (by decide), sub_eq_add_neg, sub_eq_add_neg,
    ← ofInt_neg, ← ofInt_neg, ← ofInt_add, ← ofInt_add]
  refine Eq.trans ?_ (ofInt_add_two_pow_mul _ (s.src1Q.msb.toNat * s.src2Q.msb.toNat))
  congr 1
  ring

theorem mulHighSu_eq : s.mulHighSu = ofInt 64 (s.src1Q.toInt * s.src2Q.toNat / 2 ^ 64) := by
  have hsplit : (s.src1Q.toNat : ℤ) * s.src2Q.toNat =
      s.src1Q.toInt * s.src2Q.toNat + 2 ^ 64 * (s.src2Q.toInt * s.src1Q.msb.toNat +
        2 ^ 64 * (s.src1Q.msb.toNat * s.src2Q.msb.toNat)) := by
    rw [toNat_eq_toInt s.src1Q, toNat_eq_toInt s.src2Q]
    ring
  rw [mulHighSu, mulProduct_high, correction_eq, hsplit, Int.add_mul_ediv_left _ _ (by decide),
    sub_eq_add_neg, ← ofInt_neg, ← ofInt_add]
  refine Eq.trans ?_ (ofInt_add_two_pow_mul _ (s.src1Q.msb.toNat * s.src2Q.msb.toNat))
  congr 1
  ring

theorem result_load {r : MulDivRequest} (hval : r.startMulValid) :
    ⟨false, productMultiplier.result (productMultiplier.load r) r.opSelI r.wordOpI⟩ = r.answer := by
  have hproduct := mulProduct_eq ⟨r.src1I, r.src2I⟩
  simp only [productMultiplier]
  rcases r.startMulValid_cases hval with hop | ⟨hwrd, hop | hop | hop⟩
  · cases hwrd : r.wordOpI
    · rw [answer_mul hop hwrd, hop, hproduct]
      simp only [finishMulResult, if_low]
      rw [setWidth_ofInt _ (by omega)]
    rw [answer_word hop hwrd, hproduct]
    simp only [finishMulResult, if_true]
    rw [setWidth_ofInt _ (by omega)]
    congr 2
    have hlow (x : BitVec 64) : ofInt 32 (x.toNat : ℤ) = ofInt 32 ((x.setWidth 32).toNat : ℤ) := by
      rw [ofInt_natCast, ofInt_natCast]
      exact eq_of_toNat_eq (by simp)
    rw [ofInt_mul, ofInt_mul, hlow, hlow]
  · rw [answer_long hop hwrd, hop, hwrd]
    rw [mulHighSs_eq]
    rfl
  · rw [answer_long hop hwrd, hop, hwrd]
    rw [mulHighSu_eq]
    rfl
  · rw [answer_long hop hwrd, hop, hwrd]
    simp only [finishMulResult, if_low]
    rw [mulProduct_high]
    rfl

end ProductMul

def productMultiplier_correct : productMultiplier.Correct where
  Works r n s := s = productMultiplier.load r ∧ 0 < n
  load r _ := ⟨rfl, by decide⟩
  pos r n s h := h.2
  step r n s _ hlast := Bool.noConfusion hlast
  result r n s hvalid h _ := by
    rw [h.1]
    exact ProductMul.result_load hvalid

/-! ### A few bits in each cycle -/

theorem chunkWidth_pos (bitsPerCycle : ℤ) : 0 < chunkWidth bitsPerCycle := by
  unfold chunkWidth
  split
  · decide
  · split
    · decide
    · omega

theorem bitsLeftNext_eq (chunk bitsLeft : ℕ) : bitsLeftNext chunk bitsLeft = bitsLeft - chunk := by
  unfold bitsLeftNext
  split <;> omega

namespace IterativeMul

theorem mulBoothPartial_ofInt (x : ℤ) (high low below : Bool) :
    mulBoothPartial (ofInt 128 x) high low below = ofInt 128 (x * digit high low below) := by
  have hneg (z : BitVec 128) : ~~~z + 1 = -z := (BitVec.neg_eq_not_add z).symm
  have hdouble : ofInt 128 x <<< 1 = ofInt 128 (x * 2) := ofInt_shiftLeft x 1
  cases high <;> cases low <;> cases below <;>
    simp only [mulBoothPartial, digit, hneg, hdouble, ← ofInt_neg] <;> simp

theorem mulBoothChunk_ofInt (x : ℤ) (y : BitVec 64) (k : ℕ) :
    mulBoothChunk (ofInt 128 x) (y >>> k) (bitBelow y.toNat k) = ofInt 128 (x *
        (digit (y.toNat.testBit (k + 1)) (y.toNat.testBit k) (bitBelow y.toNat k) +
          4 * digit (y.toNat.testBit (k + 3)) (y.toNat.testBit (k + 2))
            (y.toNat.testBit (k + 1)))) := by
  have hbit (n : ℕ) : (y >>> k).getLsbD n = y.toNat.testBit (k + n) := by
    rw [BitVec.getLsbD_ushiftRight, testBit_toNat]
  simp only [mulBoothChunk, hbit, mulBoothPartial_ofInt, ofInt_shiftLeft, ← ofInt_add, Nat.add_zero]
  congr 1
  ring

/-- What the accumulator has of the multiplier after `k` bits. -/
def share (chunk : ℕ) (r : MulDivRequest) (k : ℕ) : ℤ :=
  if chunk = 4 then
    2 ^ r.bits * ((startMulMultiplier r).toNat.testBit (r.bits - 1)).toNat +
      boothValue (startMulMultiplier r).toNat k
  else ((startMulMultiplier r).toNat % 2 ^ k : ℕ)

/-- The registers after `k` bits, which are `j` cycles. -/
structure Holds (chunk : ℕ) (r : MulDivRequest) (j k : ℕ) (s : IterativeMul) : Prop where
  bits : k = chunk * j
  bitsLeft : s.bitsLeftQ = r.bits - k
  acc : s.accQ = BitVec.ofInt 128 ((startMulMultiplicand r).toNat * share chunk r k)
  multiplicand : s.multiplicandQ = BitVec.ofInt 128 ((startMulMultiplicand r).toNat * 2 ^ k)
  multiplier : s.multiplierQ = startMulMultiplier r >>> k
  negate : s.negateQ = startMulNegate r
  boothPrev : chunk = 4 → s.boothPrevQ = bitBelow (startMulMultiplier r).toNat k

variable {chunk : ℕ} {r : MulDivRequest} {j k : ℕ} {s : IterativeMul}

theorem startMulMultiplier_lt (hval : r.startMulValid) :
    (startMulMultiplier r).toNat < 2 ^ r.bits := by
  rcases r.startMulValid_cases hval with hop | ⟨hwrd, -⟩
  · cases hwrd : r.wordOpI
    · simpa [bits, hwrd] using (startMulMultiplier r).isLt
    · have hlt := (r.src2I.setWidth 32).isLt
      simp only [startMulMultiplier, hop, bits, hwrd, if_true]
      rw [BitVec.toNat_setWidth, Nat.mod_eq_of_lt (by omega)]
      exact hlt
  · simpa [bits, hwrd] using (startMulMultiplier r).isLt

theorem correction_ofInt (y : BitVec 64) (x : BitVec 128) (n : ℕ) :
    (if y.getLsbD (n - 1) then x <<< n else 0) =
      ofInt 128 (x.toNat * (2 ^ n * ((y.toNat.testBit (n - 1)).toNat : ℤ))) := by
  rw [testBit_toNat]
  cases y.getLsbD (n - 1)
  · simp
  have hwide : x = ofInt 128 x.toNat := by
    rw [ofInt_natCast, ofNat_toNat, setWidth_eq]
  rw [if_pos rfl]
  conv_lhs => rw [hwide, ofInt_shiftLeft]
  simp

theorem holds_load (bitsPerCycle : ℤ) (r : MulDivRequest) :
    Holds (chunkWidth bitsPerCycle) r 0 0 ((iterativeMultiplier bitsPerCycle).load r) where
  bits := rfl
  bitsLeft := rfl
  acc := by
    change startMulBoothCorrection _ r = _
    unfold startMulBoothCorrection share bits
    rw [boothValue_zero, pow_zero, Nat.mod_one]
    by_cases hchunk : chunkWidth bitsPerCycle = 4
    · rw [if_neg (not_not.mpr hchunk), if_pos hchunk, add_zero]
      cases r.wordOpI
      · exact correction_ofInt _ _ 64
      · exact correction_ofInt _ _ 32
    · rw [if_pos hchunk, if_neg hchunk]
      simp
  multiplicand := by
    rw [pow_zero, mul_one, ofInt_natCast, ofNat_toNat, setWidth_eq]
    rfl
  multiplier := (BitVec.ushiftRight_zero _).symm
  negate := rfl
  boothPrev _ := rfl

theorem share_add : share chunk r (k + chunk) = share chunk r k + 2 ^ k * (if chunk = 4 then
        digit ((startMulMultiplier r).toNat.testBit (k + 1))
            ((startMulMultiplier r).toNat.testBit k) (bitBelow (startMulMultiplier r).toNat k) +
          4 * digit ((startMulMultiplier r).toNat.testBit (k + 3))
            ((startMulMultiplier r).toNat.testBit (k + 2))
            ((startMulMultiplier r).toNat.testBit (k + 1))
      else (((startMulMultiplier r) >>> k).toNat % 2 ^ chunk : ℕ)) := by
  unfold share
  by_cases hchunk : chunk = 4
  · simp only [if_pos hchunk]
    rw [hchunk, boothValue_add_four]
    ring
  · simp only [if_neg hchunk]
    rw [pow_add, Nat.mod_mul, BitVec.toNat_ushiftRight, Nat.shiftRight_eq_div_pow]
    push_cast
    ring

theorem Holds.step (h : Holds chunk r j k s) (hk : k < r.bits) :
    Holds chunk r (j + 1) (k + chunk) (mulStageStep chunk s) := by
  have hbsy : (s.bitsLeftQ != 0) := by
    rw [h.bitsLeft]
    exact bne_iff_ne.mpr (by omega)
  unfold mulStageStep
  rw [if_pos hbsy]
  constructor
  · rw [h.bits, Nat.mul_succ]
  · rw [bitsLeftNext_eq, h.bitsLeft, Nat.sub_sub]
  · rw [share_add, h.acc]
    by_cases hchunk : chunk = 4
    · simp only [if_pos hchunk]
      rw [h.multiplicand, h.multiplier, h.boothPrev hchunk, mulBoothChunk_ofInt, ← ofInt_add]
      congr 1
      ring
    · simp only [if_neg hchunk]
      rw [h.multiplicand, h.multiplier, mulShiftAddChunk, shiftAdd_ofInt, ← ofInt_add]
      congr 1
      ring
  · rw [h.multiplicand, ofInt_shiftLeft, pow_add, mul_assoc]
  · rw [h.multiplier, BitVec.shiftRight_add]
  · exact h.negate
  · intro hchunk
    rw [h.multiplier, BitVec.getLsbD_ushiftRight, ← testBit_toNat, hchunk]
    rfl

/-- The accumulator in the last cycle is the product. -/
theorem Holds.product (h : Holds chunk r j k s) (hval : r.startMulValid)
    (hk : k < r.bits) (hlast : (mulStageStep chunk s).bitsLeftQ = 0) :
    (mulStageStep chunk s).accQ = ofInt 128
      ((startMulMultiplicand r).toNat * ((startMulMultiplier r).toNat : ℤ)) := by
  have hstep := h.step hk
  have hlt := startMulMultiplier_lt hval
  have hall : r.bits ≤ k + chunk := by
    have hleft := hstep.bitsLeft
    omega
  rw [hstep.acc]
  congr 2
  unfold share
  by_cases hchunk : chunk = 4
  · -- four bits divide the width, so that the last digits end at the top bit
    have htop : k + chunk = r.bits := by
      have hbits := h.bits
      have hbitsCases := r.bits_eq
      rw [hchunk] at hbits hall ⊢
      omega
    rw [if_pos hchunk, htop]
    exact boothValue_last (by omega) hlt
  · rw [if_neg hchunk, Nat.mod_eq_of_lt (hlt.trans_le (Nat.pow_le_pow_right (by decide) hall))]

theorem toNat_setWidth_of_le {v w : ℕ} (x : BitVec v) (hle : v ≤ w) :
    (x.setWidth w).toNat = x.toNat := by
  rw [BitVec.toNat_setWidth]
  exact Nat.mod_eq_of_lt (x.isLt.trans_le (Nat.pow_le_pow_right (by decide) hle))

theorem finishMulResult_product (hval : r.startMulValid) :
    ⟨false, finishMulResult (negateIf (startMulNegate r) (ofInt 128
        ((startMulMultiplicand r).toNat * ((startMulMultiplier r).toNat : ℤ))))
      r.opSelI r.wordOpI⟩ = r.answer := by
  rw [negateIf_ofInt]
  rcases r.startMulValid_cases hval with hop | ⟨hwrd, hop | hop | hop⟩
  · cases hwrd : r.wordOpI
    · rw [answer_mul hop hwrd]
      simp only [startMulMultiplicand, startMulMultiplier, startMulNegate, finishMulResult, hop,
        hwrd, if_low]
      rw [setWidth_ofInt _ (by omega), toNat_setWidth_of_le _ (by omega)]
    rw [answer_word hop hwrd]
    simp only [startMulMultiplicand, startMulMultiplier, startMulNegate, finishMulResult, hop,
      hwrd, if_low, if_true]
    rw [setWidth_ofInt _ (by omega),
      toNat_setWidth_of_le (w := 128) (r.src1I.setWidth 32) (by omega),
      toNat_setWidth_of_le (w := 64) (r.src2I.setWidth 32) (by omega)]
  · rw [answer_long hop hwrd]
    simp only [startMulMultiplicand, startMulMultiplier, startMulNegate, finishMulResult, hop,
      hwrd, if_low, eval]
    rw [extractLsb'_ofInt _ (by omega), toNat_setWidth_of_le _ (by omega), toInt_mul_toInt]
    rfl
  · rw [answer_long hop hwrd]
    simp only [startMulMultiplicand, startMulMultiplier, startMulNegate, finishMulResult, hop,
      hwrd, if_low, eval]
    rw [extractLsb'_ofInt _ (by omega), toNat_setWidth_of_le _ (by omega), toInt_mul_toNat]
    rfl
  · rw [answer_long hop hwrd]
    simp only [startMulMultiplicand, startMulMultiplier, startMulNegate, finishMulResult, hop,
      hwrd, if_low, eval]
    rw [extractLsb'_ofInt _ (by omega), toNat_setWidth_of_le _ (by omega)]

end IterativeMul

open IterativeMul in
def iterativeMultiplier_correct (bitsPerCycle : ℤ) :
    (iterativeMultiplier bitsPerCycle).Correct where
  Works r n s := ∃ j k, Holds (chunkWidth bitsPerCycle) r j k s ∧ k < r.bits ∧ r.bits ≤ n + k
  load r _ := by
    have hbits := r.bits_eq
    exact ⟨0, 0, holds_load bitsPerCycle r, by omega, by omega⟩
  pos r n s h := by
    obtain ⟨j, k, -, hk, hn⟩ := h
    omega
  step r n s h hlast := by
    obtain ⟨j, k, hholds, hk, hn⟩ := h
    have hstep := hholds.step hk
    have hleft : (mulStageStep (chunkWidth bitsPerCycle) s).bitsLeftQ ≠ 0 := by
      simpa [iterativeMultiplier] using hlast
    rw [hstep.bitsLeft] at hleft
    have hpos := chunkWidth_pos bitsPerCycle
    exact ⟨j + 1, k + chunkWidth bitsPerCycle, hstep, by omega, by omega⟩
  result r n s hvalid h hlast := by
    obtain ⟨j, k, hholds, hk, -⟩ := h
    have hleft : (mulStageStep (chunkWidth bitsPerCycle) s).bitsLeftQ = 0 := by
      simpa [iterativeMultiplier] using hlast
    change (⟨false, finishMulResult (negateIf s.negateQ _) _ _⟩ : MulDivAnswer) = _
    rw [hholds.negate, hholds.product hvalid hk hleft]
    exact finishMulResult_product hvalid

/-! ## The divider -/

section Quotients

variable {v : ℕ}

/-- The number that an operand enters the divider as. -/
def entered (signed : Bool) (x : BitVec v) : ℕ := if signed then magnitude x else x.toNat

theorem entered_pos (signed : Bool) {x : BitVec v} (hx : x ≠ 0) : 0 < entered signed x := by
  unfold entered
  cases signed
  · have hne : x.toNat ≠ 0 := fun hz => hx (eq_of_toNat_eq (by simpa using hz))
    simpa using Nat.pos_of_ne_zero hne
  · exact magnitude_pos hx

theorem toNat_negateIf (signed : Bool) (x : BitVec v) :
    (if signed then negateIf x.msb x else x).toNat = entered signed x := by
  cases signed <;> rfl

theorem eval_quotient {op : MulOp} (hop : op = .div ∨ op = .divu) (a : BitVec v) {b : BitVec v}
    (hb : b ≠ 0) : op.eval a b = negateIf (op.isSignedDiv && (a.msb ^^ b.msb))
      (ofInt v (entered op.isSignedDiv a / entered op.isSignedDiv b : ℕ)) := by
  rw [negateIf_ofInt]
  rcases hop with rfl | rfl
  · simp only [eval, if_neg hb, toInt_tdiv_toInt]
    rfl
  · simp only [eval, if_neg hb]
    rfl

theorem eval_remainder {op : MulOp} (hop : op = .rem ∨ op = .remu) (a : BitVec v) {b : BitVec v}
    (hb : b ≠ 0) : op.eval a b = negateIf (op.isSignedDiv && a.msb)
      (ofInt v (entered op.isSignedDiv a % entered op.isSignedDiv b : ℕ)) := by
  rw [negateIf_ofInt]
  rcases hop with rfl | rfl
  · simp only [eval, if_neg hb, toInt_tmod_toInt]
    rfl
  · simp only [eval, if_neg hb]
    rfl

end Quotients

namespace MulDivRequest

variable {r : MulDivRequest}

theorem startDivValid_cases (h : r.startDivValid) :
    ∃ op, r.opSelI = some op ∧ ((op = .div ∨ op = .divu) ∨ (op = .rem ∨ op = .remu)) := by
  simp only [startDivValid, startDivOp] at h
  cases hop : r.opSelI with
  | none => simp [hop] at h
  | some op => cases op <;> simp_all [isDiv]

/-- The operands as numbers. -/
def dividend (r : MulDivRequest) : ℕ :=
  if r.wordOpI then entered r.startSignedDivOp (r.src1I.setWidth 32)
  else entered r.startSignedDivOp r.src1I

def divisor (r : MulDivRequest) : ℕ :=
  if r.wordOpI then entered r.startSignedDivOp (r.src2I.setWidth 32)
  else entered r.startSignedDivOp r.src2I

theorem divStartDividend_toNat (r : MulDivRequest) :
    (divStartDividend r.startSignedDivOp r.wordOpI r.src1I).toNat / 2 ^ (64 - r.bits) =
      r.dividend := by
  unfold divStartDividend dividend bits
  cases r.wordOpI
  · simpa [abs64] using toNat_negateIf r.startSignedDivOp r.src1I
  · simp only [if_true]
    rw [toNat_append, Nat.shiftLeft_eq]
    simpa [abs32] using toNat_negateIf r.startSignedDivOp (r.src1I.setWidth 32)

theorem divStartDivisor_toNat (r : MulDivRequest) :
    (divStartDivisor r.startSignedDivOp r.wordOpI r.src2I).toNat = r.divisor := by
  unfold divStartDivisor divisor
  cases r.wordOpI
  · simpa [abs64] using toNat_negateIf r.startSignedDivOp r.src2I
  · simp only [if_true]
    rw [toNat_append]
    simpa [abs32] using toNat_negateIf r.startSignedDivOp (r.src2I.setWidth 32)

theorem divisor_pos (h : r.startDivisorZero = false) : 0 < r.divisor := by
  unfold startDivisorZero at h
  unfold divisor
  cases hwrd : r.wordOpI
  · simp only [hwrd, if_low, beq_eq_false_iff_ne] at h
    exact entered_pos _ h
  · simp only [hwrd, if_true, beq_eq_false_iff_ne] at h
    exact entered_pos _ h

/-- What is neither a legal multiplication nor a division is refused. -/
theorem answer_refused (hmul : r.startMulValid = false) (hdiv : r.startDivValid = false) :
    r.answer = ⟨true, 0⟩ ∧ divZeroResult r.opSelI r.wordOpI r.src1I = 0 ∧
      r.startDivOverflow = false := by
  simp only [startMulValid, startMulOp, startInvalidMulWord] at hmul
  simp only [startDivValid, startDivOp] at hdiv
  simp only [answer, startDivOverflow, startSignedDivOp, divZeroResult]
  cases hop : r.opSelI with
  | none => simp
  | some op => cases op <;> simp_all [isMul, isMulHigh, isDiv, isSignedDiv]

theorem answer_zero {op : MulOp} (hop : r.opSelI = some op)
    (hdiv : (op = .div ∨ op = .divu) ∨ (op = .rem ∨ op = .remu))
    (hz : r.startDivisorZero) : r.answer = ⟨false, divZeroResult r.opSelI r.wordOpI r.src1I⟩ := by
  unfold startDivisorZero at hz
  cases hwrd : r.wordOpI
  · simp only [hwrd, if_low, beq_iff_eq] at hz
    rcases hdiv with (rfl | rfl) | (rfl | rfl) <;>
      simp [answer, hop, hwrd, divZeroResult, eval, hz]
  · simp only [hwrd, if_true, beq_iff_eq] at hz
    rcases hdiv with (rfl | rfl) | (rfl | rfl) <;>
      simp [answer, hop, hwrd, divZeroResult, isMulHigh, eval, hz, sextWord]

theorem answer_overflow {op : MulOp} (hop : r.opSelI = some op) (hover : r.startDivOverflow) :
    r.answer = ⟨false, divOverflowResult r.opSelI r.wordOpI⟩ := by
  simp only [startDivOverflow, startSignedDivOp, hop, Option.any_some, Bool.and_eq_true] at hover
  obtain ⟨⟨hsigned, -⟩, hpair⟩ := hover
  have hop' : op = .div ∨ op = .rem := by simpa [isSignedDiv] using hsigned
  cases hwrd : r.wordOpI
  · simp only [hwrd, if_low, Bool.and_eq_true, beq_iff_eq] at hpair
    rcases hop' with rfl | rfl <;>
      simp only [answer, hop, hwrd, divOverflowResult, eval, hpair] <;> decide
  · simp only [hwrd, if_true, Bool.and_eq_true, beq_iff_eq] at hpair
    rcases hop' with rfl | rfl <;>
      simp only [answer, hop, hwrd, divOverflowResult, eval, hpair, if_true] <;> decide

end MulDivRequest

/-- The signs that the divider keeps. -/
def MulDivRequest.negQuot (r : MulDivRequest) : Bool :=
  r.startSignedDivOp &&
    if r.wordOpI then r.src1I.getLsbD 31 ^^ r.src2I.getLsbD 31
    else r.src1I.getLsbD 63 ^^ r.src2I.getLsbD 63

def MulDivRequest.negRem (r : MulDivRequest) : Bool :=
  r.startSignedDivOp && if r.wordOpI then r.src1I.getLsbD 31 else r.src1I.getLsbD 63

theorem finishDivResult_quotient {op : MulOp} (hop : op = .div ∨ op = .divu) (wordOp : Bool)
    (quotient remainder : BitVec 64) (negQuot negRem : Bool) :
    finishDivResult (some op) wordOp quotient remainder negQuot negRem =
      if wordOp then sextWord (negateIf negQuot (quotient.setWidth 32))
      else negateIf negQuot quotient := by
  rcases hop with rfl | rfl <;> rfl

theorem finishDivResult_remainder {op : MulOp} (hop : op = .rem ∨ op = .remu) (wordOp : Bool)
    (quotient remainder : BitVec 64) (negQuot negRem : Bool) :
    finishDivResult (some op) wordOp quotient remainder negQuot negRem =
      if wordOp then sextWord (negateIf negRem (remainder.setWidth 32))
      else negateIf negRem remainder := by
  rcases hop with rfl | rfl <;> rfl

theorem MulDivRequest.answer_word_div {r : MulDivRequest} {op : MulOp} (hop : r.opSelI = some op)
    (hdiv : (op = .div ∨ op = .divu) ∨ (op = .rem ∨ op = .remu)) (hwrd : r.wordOpI) :
    r.answer = ⟨false, sextWord (op.eval (r.src1I.setWidth 32) (r.src2I.setWidth 32))⟩ := by
  have hhigh : op.isMulHigh = false := by rcases hdiv with (rfl | rfl) | (rfl | rfl) <;> rfl
  simp [answer, hop, hwrd, hhigh, sextWord]

/-- Quotient and remainder with their signs give the answer. -/
theorem finishDivResult_eq {r : MulDivRequest} {quotient remainder : BitVec 64}
    (hval : r.startDivValid) (hz : r.startDivisorZero = false)
    (hquot : quotient.toNat = r.dividend / r.divisor)
    (hrem : remainder.toNat = r.dividend % r.divisor) :
    ⟨false, finishDivResult r.opSelI r.wordOpI quotient remainder r.negQuot r.negRem⟩ =
      r.answer := by
  obtain ⟨op, hop, hdiv⟩ := r.startDivValid_cases hval
  have hsigned : r.startSignedDivOp = op.isSignedDiv := by
    simp [startSignedDivOp, hop]
  cases hwrd : r.wordOpI
  · have hfull (x : BitVec 64) (n : ℕ) (hx : x.toNat = n) : x = ofInt 64 n := by
      rw [ofInt_natCast, ← hx, ofNat_toNat, setWidth_eq]
    have hne : r.src2I ≠ 0 := by simpa [startDivisorZero, hwrd] using hz
    have hmsb (x : BitVec 64) : x.msb = x.getLsbD 63 := rfl
    rw [answer_long hop hwrd, hop, hfull _ _ hquot, hfull _ _ hrem]
    simp only [dividend, divisor, negQuot, negRem, hwrd, hsigned, if_low]
    rcases hdiv with hdiv | hdiv
    · rw [finishDivResult_quotient hdiv, eval_quotient hdiv _ hne, hmsb, hmsb]
      rfl
    · rw [finishDivResult_remainder hdiv, eval_remainder hdiv _ hne, hmsb]
      rfl
  have hlow (x : BitVec 64) (n : ℕ) (hx : x.toNat = n) : x.setWidth 32 = ofInt 32 n := by
    rw [ofInt_natCast, ← hx, ofNat_toNat]
  have hne : r.src2I.setWidth 32 ≠ 0 := by
    simpa [startDivisorZero, hwrd] using hz
  have hmsb (x : BitVec 64) : (x.setWidth 32).msb = x.getLsbD 31 := by
    rw [BitVec.msb_setWidth]
    rfl
  rw [answer_word_div hop hdiv hwrd, hop]
  simp only [dividend, divisor, hwrd, if_true, hsigned] at hquot hrem
  rcases hdiv with hdiv | hdiv
  · rw [finishDivResult_quotient hdiv, eval_quotient hdiv _ hne, hlow _ _ hquot]
    simp only [negQuot, hwrd, if_true, hsigned, hmsb]
  · rw [finishDivResult_remainder hdiv, eval_remainder hdiv _ hne, hlow _ _ hrem]
    simp only [negRem, hwrd, if_true, hsigned, hmsb]

/-- The chunk loop goes the bits that are left, or a whole chunk. -/
theorem divStageStep_eq (chunk : ℕ) (s : Division 64) (divisor : BitVec 64) (bitsLeft : ℕ) :
    divStageStep chunk s divisor bitsLeft =
      ((Division.step divisor)^[min bitsLeft chunk] s, bitsLeft - chunk) := by
  have hbits : min (if bitsLeft < chunk then bitsLeft else chunk) chunk = min bitsLeft chunk := by
    split <;> omega
  simp only [divStageStep, foldl_range_lt, hbits, bitsLeftNext_eq]

end OpenRV64
