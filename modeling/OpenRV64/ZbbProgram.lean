/-
The micro-programs of the Zbb sequencer give what the instruction set says: two shifts and a
disjunction are a rotation, six halvings find the first one, and the ones of a word are counted in
parts of sixteen bits.
-/
import Mathlib.Tactic.IntervalCases
import Mathlib.Tactic.SplitIfs
import OpenRV64.ZbbUnit

namespace OpenRV64

open BitScan ZbbOp ZbbRequest
open BitVec (getLsbD_append eq_of_getLsbD_eq allOnes getLsbD_extractLsb' toNat_setWidth
  ushiftRight_eq' shiftLeft_eq' ofNat toNat_append toNat_neg getLsbD_or)

attribute [local simp] ZbbOp.eval directResult

namespace ZbbRequest

/-! ## What the operations answer -/

variable {r : ZbbRequest} {op : ZbbOp}

theorem answer_of_invalid (h : ∀ op, r.opSelI = some op → op.valid r.wordOpI = false) :
    r.answer = ⟨true, 0⟩ := by
  unfold answer
  cases hop : r.opSelI with
  | none => rfl
  | some op => simp [h op hop]

section

variable (hop : r.opSelI = some op) (hval : op.valid r.wordOpI)

include hop hval

theorem answer_legal : r.answer.illegal = false := by
  unfold answer
  rw [hop]
  simp only [hval, if_true]
  split <;> rfl

theorem answer_long (hwrd : r.wordOpI = false) : r.answer = ⟨false, op.eval r.src1I r.src2I⟩ := by
  rw [hwrd] at hval
  simp [answer, hop, hval, hwrd]

theorem answer_word (hwrd : r.wordOpI) (hne : op ≠ .zextH) : r.answer =
      ⟨false, (op.evalSized (r.src1I.setWidth 32) (r.src2I.setWidth 32)).signExtend 64⟩ := by
  rw [hwrd] at hval
  simp [answer, hop, hval, hwrd, hne]

end

end ZbbRequest

/-! ## The operations without micro-operations -/

theorem orcByte_getLsbD (value : BitVec 8) (j : ℕ) (hj : j < 8) :
    (orcByte value).getLsbD j = (value != 0) := by
  unfold orcByte
  cases value != 0
  · simp
  · have hones : (0xff : BitVec 8) = allOnes 8 := rfl
    rw [if_pos rfl, hones, BitVec.getLsbD_allOnes]
    simp [hj]

theorem getLsbD_bytes (b7 b6 b5 b4 b3 b2 b1 b0 : BitVec 8) (j : ℕ) :
    (b7 ++ b6 ++ b5 ++ b4 ++ b3 ++ b2 ++ b1 ++ b0).getLsbD j =
      if j < 8 then b0.getLsbD j
      else if j < 16 then b1.getLsbD (j - 8)
      else if j < 24 then b2.getLsbD (j - 16)
      else if j < 32 then b3.getLsbD (j - 24)
      else if j < 40 then b4.getLsbD (j - 32)
      else if j < 48 then b5.getLsbD (j - 40)
      else if j < 56 then b6.getLsbD (j - 48)
      else b7.getLsbD (j - 56) := by
  have hlt (a : ℕ) : (j - a < 8) = (j < a + 8) := by
    apply propext
    omega
  rw [getLsbD_append, getLsbD_append, getLsbD_append, getLsbD_append,
    getLsbD_append, getLsbD_append, getLsbD_append]
  simp only [Nat.sub_sub, hlt, Nat.reduceAdd]

theorem directResult_orcB (a b : BitVec 64) : directResult .orcB a = orcB.eval a b := by
  apply eq_of_getLsbD_eq
  intro j hj
  have hbyte (k i : ℕ) (hi : i < 8) (hk : j / 8 = k) :
      (orcByte (a.extractLsb' (8 * k) 8)).getLsbD i = (byteOf a j != 0) := by
    rw [orcByte_getLsbD _ i hi, byteOf, hk]
  simp only [directResult, eval, getLsbD_bytes]
  rw [getLsbD_ofBits _ hj]
  split_ifs
  · exact hbyte 0 _ (by omega) (by omega)
  · exact hbyte 1 _ (by omega) (by omega)
  · exact hbyte 2 _ (by omega) (by omega)
  · exact hbyte 3 _ (by omega) (by omega)
  · exact hbyte 4 _ (by omega) (by omega)
  · exact hbyte 5 _ (by omega) (by omega)
  · exact hbyte 6 _ (by omega) (by omega)
  · exact hbyte 7 _ (by omega) (by omega)

theorem directResult_rev8 (a b : BitVec 64) : directResult .rev8 a = rev8.eval a b := by
  apply eq_of_getLsbD_eq
  intro j hj
  have hbyte (k i : ℕ) (hi : i < 8) (hk : 8 * (7 - j / 8) + j % 8 = 8 * k + i) :
      (a.extractLsb' (8 * k) 8).getLsbD i = a.getLsbD (8 * (7 - j / 8) + j % 8) := by
    rw [getLsbD_extractLsb', hk]
    simp [hi]
  simp only [directResult, eval, getLsbD_bytes]
  rw [getLsbD_ofBits _ hj]
  split_ifs
  · exact hbyte 7 _ (by omega) (by omega)
  · exact hbyte 6 _ (by omega) (by omega)
  · exact hbyte 5 _ (by omega) (by omega)
  · exact hbyte 4 _ (by omega) (by omega)
  · exact hbyte 3 _ (by omega) (by omega)
  · exact hbyte 2 _ (by omega) (by omega)
  · exact hbyte 1 _ (by omega) (by omega)
  · exact hbyte 0 _ (by omega) (by omega)

theorem directResult_zextH (a b : BitVec 64) : directResult .zextH a = zextH.eval a b := by
  apply eq_of_getLsbD_eq
  intro j hj
  simp only [directResult, eval]
  rw [getLsbD_append, getLsbD_extractLsb', BitVec.getLsbD_setWidth, BitVec.getLsbD_setWidth]
  by_cases hlow : j < 16
  · simp [hlow, hj]
  · simp [hlow]

theorem directResult_eq {op : ZbbOp} (hdirect : op.direct) (a b : BitVec 64) :
    directResult op a = op.eval a b := by
  cases op with
  | orcB => exact directResult_orcB a b
  | rev8 => exact directResult_rev8 a b
  | zextH => exact directResult_zextH a b
  | sextB =>
    have hlow := BitVec.setWidth_eq_extractLsb' (x := a) (w := 8) (by omega)
    simp only [directResult, eval, hlow]
  | sextH =>
    have hlow := BitVec.setWidth_eq_extractLsb' (x := a) (w := 16) (by omega)
    simp only [directResult, eval, hlow]
  | _ => cases hdirect

/-! ## The micro-programs -/

namespace ZbbState

/-- The unit works on `op` of `r`. -/
structure On (r : ZbbRequest) (op : ZbbOp) (s : ZbbState) : Prop where
  request : r.opSelI = some op
  valid : op.valid r.wordOpI = true
  active : s.activeQ = true
  shown : s.resultValidQ = false
  legal : s.illegalQ = false
  op : s.opQ = some op
  word : s.wordQ = r.wordOpI

/-- The unit shows the answer to `r`. -/
structure Shows (r : ZbbRequest) (s : ZbbState) : Prop where
  active : s.activeQ = false
  shown : s.resultValidQ = true
  answer : ⟨s.illegalQ, s.workQ⟩ = r.answer

variable {r : ZbbRequest} {op : ZbbOp} {s : ZbbState} (pc : BitVec 64) {k : ℕ}

theorem On.finish {t : ZbbState} {value : BitVec 64} (hleg : t.illegalQ = false)
    (hans : r.answer = ⟨false, value⟩) : (t.finish value).Shows r where
  active := rfl
  shown := rfl
  answer := by
    rw [hans]
    exact congrArg (fun illegal => (⟨illegal, value⟩ : ZbbAnswer)) hleg

/-! ### One step -/

theorem work_logic (h : s.On r op) (hop : op = .andn ∨ op = .orn ∨ op = .xnor)
    (hwork : s.workQ = r.src1I)
    (haux : s.auxQ = if op == .andn || op == .orn then ~~~r.src2I else r.src2I) :
    (s.work (s.alu pc)).Shows r := by
  have hlong : r.wordOpI = false := by
    have hval := h.valid
    rcases hop with rfl | rfl | rfl <;> simpa [valid] using hval
  have hans := answer_long h.request h.valid hlong
  rcases hop with rfl | rfl | rfl <;>
    · have hfinish := On.finish h.legal hans
      simpa [work, alu, microOp, logicOp, h.op, h.active, aluRv64i, hwork, haux] using hfinish

theorem work_minmax (h : s.On r op) (hop : op = .min ∨ op = .minu ∨ op = .max ∨ op = .maxu)
    (hwork : s.workQ = r.src1I) (haux : s.auxQ = r.src2I) : (s.work (s.alu pc)).Shows r := by
  have hlong : r.wordOpI = false := by
    have hval := h.valid
    rcases hop with rfl | rfl | rfl | rfl <;> simpa [valid] using hval
  have hans := answer_long h.request h.valid hlong
  have hslt : r.src1I.slt r.src2I = decide (r.src1I.toInt < r.src2I.toInt) := rfl
  have hult : r.src1I.ult r.src2I = decide (r.src1I.toNat < r.src2I.toNat) := rfl
  have hbit (p : Prop) [Decidable p] : (if p then 1#64 else 0#64)[0] = decide p := by
    by_cases hp : p
    · simp [hp]
    · simp [hp]
  rcases hop with rfl | rfl | rfl | rfl <;>
    · have hfinish := On.finish h.legal hans
      simpa [work, alu, microOp, logicOp, minmaxOp, h.op, h.active, aluRv64i, hwork, haux,
        hslt, hult, hbit] using hfinish

/-! ### Rotations -/

/-- The width of an operation. -/
def width (r : ZbbRequest) : ℕ := if r.wordOpI then 32 else 64

theorem width_eq (r : ZbbRequest) : width r = 32 ∨ width r = 64 := by
  unfold width
  split <;> simp

/-- The amount of a rotation, and what is left of the width. -/
def amount (r : ZbbRequest) : ℕ := r.src2I.toNat % width r

def amountBack (r : ZbbRequest) : ℕ := (width r - amount r) % width r

theorem amount_lt (r : ZbbRequest) : amount r < width r := by
  apply Nat.mod_lt
  have hwidth := width_eq r
  omega

theorem amountBack_lt (r : ZbbRequest) : amountBack r < width r := by
  apply Nat.mod_lt
  have hwidth := width_eq r
  omega

/-- A shift as the ALU gives it. -/
def shifted (left wordOp : Bool) (a : BitVec 64) (n : ℕ) : BitVec 64 :=
  if wordOp then (if left then a.setWidth 32 <<< n else a.setWidth 32 >>> n).signExtend 64
  else if left then a <<< n else a >>> n

theorem aluRv64i_shift (left : Bool) {r : ZbbRequest} {n : ℕ} (hn : n < width r)
    (a : BitVec 64) {b : BitVec 64} (hb : b.toNat = n) (pc : BitVec 64) :
    aluRv64i (if left then .sll else .srl) r.wordOpI a b pc =
      some (shifted left r.wordOpI a n) := by
  unfold width at hn
  cases hwrd : r.wordOpI
  · have hamount : (b.setWidth 6).toNat = n := by
      rw [toNat_setWidth, hb]
      rw [hwrd] at hn
      exact Nat.mod_eq_of_lt hn
    cases left
    · simp [aluRv64i, ushiftRight_eq', shifted, hamount]
    · simp [aluRv64i, shiftLeft_eq', shifted, hamount]
  have hamount : (b.setWidth 5).toNat = n := by
    rw [toNat_setWidth, hb]
    rw [hwrd] at hn
    exact Nat.mod_eq_of_lt hn
  cases left
  · simp [aluRv64i, ushiftRight_eq', shifted, hamount]
  · simp [aluRv64i, shiftLeft_eq', shifted, hamount]

theorem toNat_operand (n : BitVec 6) : (0#58 ++ n).toNat = n.toNat := by
  rw [toNat_append]
  simp

theorem toNat_inverseAmount (hamount : s.amountQ.toNat = amount r) (hwrd : s.wordQ = r.wordOpI) :
    s.inverseAmount.toNat = amountBack r := by
  have hneg {w : ℕ} (x : BitVec w) : ~~~x + 1#w = -x := (BitVec.neg_eq_not_add x).symm
  have hlt := amount_lt r
  unfold inverseAmount amountBack
  rw [hwrd]
  unfold width at *
  cases hlong : r.wordOpI
  · change (~~~s.amountQ + 1#6).toNat = _
    rw [hneg, toNat_neg, hamount]
    rfl
  change (0#1 ++ (~~~s.amountQ.extractLsb' 0 5 + 1#5)).toNat = _
  rw [hlong] at hlt
  have hlow : (s.amountQ.extractLsb' 0 5).toNat = amount r := by
    rw [BitVec.extractLsb'_toNat, hamount]
    exact Nat.mod_eq_of_lt hlt
  rw [hneg, toNat_append, toNat_neg, hlow]
  simp

theorem work_shiftAway (h : s.On r op) (hop : op = .rol ∨ op = .ror) (hstep : s.stepQ = 0)
    (hwork : s.workQ = r.src1I) (hamount : s.amountQ.toNat = amount r) :
    s.work (s.alu pc) =
      { s with
        auxQ := shifted (op == .rol) r.wordOpI r.src1I (amount r)
        stepQ := 1 } := by
  have hnumber : (0#58 ++ s.amountQ).toNat = amount r := (toNat_operand _).trans hamount
  rcases hop with rfl | rfl
  · have halu := aluRv64i_shift true (amount_lt r) r.src1I hnumber pc
    simp only [if_true] at halu
    simp [work, alu, microOp, logicOp, minmaxOp, rotateOp, h.op, h.active, h.word, hstep, hwork,
      halu]
  have halu := aluRv64i_shift false (amount_lt r) r.src1I hnumber pc
  simp only [if_low] at halu
  have hright : (ror == rol) = false := rfl
  simp [work, alu, microOp, logicOp, minmaxOp, rotateOp, h.op, h.active, h.word, hstep, hwork,
    halu, hright]

theorem work_shiftBack (h : s.On r op) (hop : op = .rol ∨ op = .ror) (hstep : s.stepQ = 1)
    (hwork : s.workQ = r.src1I) (hamount : s.amountQ.toNat = amount r) :
    s.work (s.alu pc) =
      { s with
        workQ := shifted (op == .ror) r.wordOpI r.src1I (amountBack r)
        stepQ := 2 } := by
  have hnumber : (0#58 ++ s.inverseAmount).toNat = amountBack r :=
    (toNat_operand _).trans (toNat_inverseAmount hamount h.word)
  rcases hop with rfl | rfl
  · have halu := aluRv64i_shift false (amountBack_lt r) r.src1I hnumber pc
    simp only [if_low] at halu
    have hright : (rol == ror) = false := rfl
    simp [work, alu, microOp, logicOp, minmaxOp, rotateOp, h.op, h.active, h.word, hstep, hwork,
      halu, hright]
  · have halu := aluRv64i_shift true (amountBack_lt r) r.src1I hnumber pc
    simp only [if_true] at halu
    simp [work, alu, microOp, logicOp, minmaxOp, rotateOp, h.op, h.active, h.word, hstep, hwork,
      halu]

theorem or_signExtend (a b : BitVec 32) :
    (a.signExtend 64 ||| b.signExtend 64).extractLsb' 0 32 = a ||| b := by
  apply eq_of_getLsbD_eq
  intro j hj
  rw [getLsbD_extractLsb', getLsbD_or, getLsbD_or, BitVec.getLsbD_signExtend,
    BitVec.getLsbD_signExtend]
  have hlt : j < 64 := by omega
  simp [hj, hlt]

theorem answer_rotate (hreq : r.opSelI = some op) (hop : op = .rol ∨ op = .ror) :
    r.answer = let both := shifted (op == .rol) r.wordOpI r.src1I (amount r) |||
        shifted (op == .ror) r.wordOpI r.src1I (amountBack r)
      ⟨false, if r.wordOpI then (both.extractLsb' 0 32).signExtend 64 else both⟩ := by
  have hlt := amount_lt r
  have hval : op.valid r.wordOpI := by rcases hop with rfl | rfl <;> rfl
  cases hwrd : r.wordOpI
  · rw [answer_long hreq hval hwrd]
    simp only [shifted, amountBack, if_low]
    have hwidth : width r = 64 := by simp [width, hwrd]
    rw [hwidth] at hlt ⊢
    have hamount : r.src2I.toNat % 64 = amount r := by rw [amount, hwidth]
    rcases hop with rfl | rfl
    · have hrotate := shifts_eq_rotateLeft r.src1I hlt
      simpa [evalSized, hamount] using hrotate.symm
    · have hrotate := shifts_eq_rotateRight r.src1I hlt
      simpa [evalSized, hamount] using hrotate.symm
  rw [answer_word hreq hval hwrd (by rcases hop with rfl | rfl <;> simp)]
  simp only [shifted, amountBack, if_true]
  have hwidth : width r = 32 := by simp [width, hwrd]
  rw [hwidth] at hlt ⊢
  have hamount : (r.src2I.setWidth 32).toNat % 32 = amount r := by
    rw [amount, hwidth, toNat_setWidth]
    omega
  rcases hop with rfl | rfl
  · have hrotate := shifts_eq_rotateLeft (r.src1I.setWidth 32) hlt
    simp only [evalSized, hamount, ← hrotate]
    simp [or_signExtend]
  · have hrotate := shifts_eq_rotateRight (r.src1I.setWidth 32) hlt
    simp only [evalSized, hamount, ← hrotate]
    simp [or_signExtend]

theorem work_rotate (h : s.On r op) (hop : op = .rol ∨ op = .ror) (hstep : s.stepQ = 2)
    (haux : s.auxQ = shifted (op == .rol) r.wordOpI r.src1I (amount r))
    (hwork : s.workQ = shifted (op == .ror) r.wordOpI r.src1I (amountBack r)) :
    (s.work (s.alu pc)).Shows r := by
  have hfinish := On.finish h.legal (answer_rotate h.request hop)
  rw [← haux, ← hwork] at hfinish
  rcases hop with rfl | rfl <;>
    simpa [work, alu, microOp, logicOp, minmaxOp, rotateOp, h.op, h.active, h.word, hstep, aluRv64i]
      using hfinish

/-! ### Scans -/

/-- The word that a scan or a count starts with. -/
def loaded (r : ZbbRequest) (op : ZbbOp) : BitVec 64 :=
  if op == .clz && r.wordOpI then r.src1I.extractLsb' 0 32 ++ 0xffffffff#32
  else if op == .ctz && r.wordOpI then 0xffffffff#32 ++ r.src1I.extractLsb' 0 32
  else if op == .cpop && r.wordOpI then 0#32 ++ r.src1I.extractLsb' 0 32
  else r.src1I

/-- The bits of a word in the order in which a scan goes. -/
def scanBit (op : ZbbOp) (x : BitVec 64) (j : ℕ) : Bool :=
  if op == .clz then x.getMsbD j else x.getLsbD j

theorem scanBit_clz (x : BitVec 64) : scanBit .clz x = x.getMsbD := rfl

theorem scanBit_ctz (x : BitVec 64) : scanBit .ctz x = x.getLsbD := rfl

/-- Where the first one is. -/
def firstAt (r : ZbbRequest) (op : ZbbOp) : ℕ :=
  if r.wordOpI then
    if op == .clz then (r.src1I.setWidth 32).clz.toNat else (r.src1I.setWidth 32).ctz.toNat
  else if op == .clz then r.src1I.clz.toNat else r.src1I.ctz.toNat

theorem firstOne_loaded (hop : op = .clz ∨ op = .ctz) :
    FirstOne (scanBit op (loaded r op)) 64 (firstAt r op) := by
  have hlow := BitVec.setWidth_eq_extractLsb' (x := r.src1I) (w := 32) (by omega)
  have hones : (0xffffffff#32) = allOnes 32 := rfl
  rcases hop with rfl | rfl
  · rw [scanBit_clz]
    cases hwrd : r.wordOpI
    · simpa [loaded, firstAt, hwrd] using firstOne_clz r.src1I
    have hfst := firstOne_clz (r.src1I.setWidth 32)
    have hat : firstAt r .clz = (r.src1I.setWidth 32).clz.toNat := by simp [firstAt, hwrd]
    have hload : loaded r .clz = r.src1I.setWidth 32 ++ allOnes 32 := by
      simp [loaded, hwrd, hlow, hones]
    rw [hat, hload]
    refine hfst.padded (by omega) (fun j hj => ?_) ?_
    · rw [BitVec.getMsbD_append]
      simp [hj]
    · rw [BitVec.getMsbD_append]
      simp
  rw [scanBit_ctz]
  cases hwrd : r.wordOpI
  · simpa [loaded, firstAt, hwrd] using firstOne_ctz r.src1I
  have hfst := firstOne_ctz (r.src1I.setWidth 32)
  have hat : firstAt r .ctz = (r.src1I.setWidth 32).ctz.toNat := by simp [firstAt, hwrd]
  have hload : loaded r .ctz = allOnes 32 ++ r.src1I.setWidth 32 := by
    simp [loaded, hwrd, hlow, hones]
  rw [hat, hload]
  refine hfst.padded (by omega) (fun j hj => ?_) ?_
  · rw [getLsbD_append, if_pos hj]
  · rw [getLsbD_append, if_neg (by omega), BitVec.getLsbD_allOnes]
    rfl

theorem signExtend_count (x : BitVec 32) (hx : x.toNat ≤ 32) :
    x.signExtend 64 = ofNat 64 x.toNat := by
  have hmsb : x.msb = false := by
    rw [BitVec.msb_eq_false_iff_two_mul_lt]
    omega
  rw [BitVec.signExtend_eq_setWidth_of_msb_false hmsb]
  apply BitVec.eq_of_toNat_eq
  simp

theorem answer_scan (hreq : r.opSelI = some op) (hop : op = .clz ∨ op = .ctz) :
    r.answer = ⟨false, ofNat 64 (firstAt r op)⟩ := by
  have hval : op.valid r.wordOpI := by rcases hop with rfl | rfl <;> rfl
  cases hwrd : r.wordOpI
  · rw [answer_long hreq hval hwrd]
    rcases hop with rfl | rfl <;> simp [evalSized, firstAt, hwrd]
  rw [answer_word hreq hval hwrd (by rcases hop with rfl | rfl <;> simp)]
  rcases hop with rfl | rfl
  · have hle := (firstOne_clz (r.src1I.setWidth 32)).le
    simp [evalSized, firstAt, hwrd, signExtend_count _ hle]
  · have hle := (firstOne_ctz (r.src1I.setWidth 32)).le
    simp [evalSized, firstAt, hwrd, signExtend_count _ hle]

/-- A scan before its step `k`. -/
structure Scan (r : ZbbRequest) (op : ZbbOp) (k : ℕ) (s : ZbbState) : Prop where
  step : s.stepQ = k
  last : k ≤ 5
  bits : ∀ j, scanBit op s.workQ j = scanBit op (loaded r op) (s.countQ + j)
  found : Found 64 (firstAt r op) s.countQ (2 ^ (6 - k))

theorem scanShift_eq (hstep : s.stepQ = k) (hk : k ≤ 5) : s.scanShift = 2 ^ (5 - k) := by
  unfold scanShift
  rw [hstep]
  interval_cases k <;> rfl

theorem scanZero_iff (hsop : s.opQ = some op) (hop : op = .clz ∨ op = .ctz) (hk : s.stepQ ≤ 5) :
    s.scanZero ↔ ∀ j < s.scanShift, scanBit op s.workQ j = false := by
  unfold scanZero scanShift
  rw [hsop]
  generalize s.stepQ = k at hk
  rcases hop with rfl | rfl
  · have hclz : (some clz == some clz) := rfl
    rw [scanBit_clz, if_pos hclz]
    have htop (len : ℕ) (hlen : len ≤ 64) := extractLsb'_top_eq_zero_iff s.workQ hlen
    interval_cases k
    · exact beq_iff_eq.trans (htop 32 (by omega))
    · exact beq_iff_eq.trans (htop 16 (by omega))
    · exact beq_iff_eq.trans (htop 8 (by omega))
    · exact beq_iff_eq.trans (htop 4 (by omega))
    · exact beq_iff_eq.trans (htop 2 (by omega))
    · simp [BitVec.getMsbD_eq_getLsbD]
  have hctz : ¬ (some ctz == some clz) := by simp
  rw [scanBit_ctz, if_neg hctz]
  have hlow (len : ℕ) : s.workQ.extractLsb' 0 len = 0 ↔ ∀ j < len, s.workQ.getLsbD j = false := by
    simpa using extractLsb'_eq_zero_iff_getLsbD s.workQ 0 len
  interval_cases k
  · exact beq_iff_eq.trans (hlow 32)
  · exact beq_iff_eq.trans (hlow 16)
  · exact beq_iff_eq.trans (hlow 8)
  · exact beq_iff_eq.trans (hlow 4)
  · exact beq_iff_eq.trans (hlow 2)
  · simp

theorem Scan.found_next (h : s.Scan r op k) (hsop : s.opQ = some op) (hop : op = .clz ∨ op = .ctz) :
    Found 64 (firstAt r op) s.scanCountNext (2 ^ (5 - k)) := by
  have hlast := h.last
  have hspan : 2 ^ (6 - k) = 2 * 2 ^ (5 - k) := by
    have hexp : 6 - k = 5 - k + 1 := by omega
    rw [hexp, Nat.pow_succ, Nat.mul_comm]
  have hfnd := h.found
  rw [hspan] at hfnd
  have hshift := scanShift_eq h.step hlast
  have hz := scanZero_iff hsop hop (by rw [h.step]; exact hlast)
  rw [hshift] at hz
  unfold scanCountNext
  rw [hshift]
  refine hfnd.halve (firstOne_loaded hop) (hz.trans ?_)
  simp only [h.bits]

theorem scanBit_shift (hop : op = .clz ∨ op = .ctz) (x : BitVec 64) (n j : ℕ) :
    scanBit op (if op == .clz then x <<< n else x >>> n) j = scanBit op x (n + j) := by
  rcases hop with rfl | rfl
  · change (x <<< n).getMsbD j = x.getMsbD (n + j)
    rw [BitVec.getMsbD_shiftLeft, Nat.add_comm]
  · change (x >>> n).getLsbD j = x.getLsbD (n + j)
    rw [BitVec.getLsbD_ushiftRight]

theorem scan_alu (h : s.On r op) (hop : op = .clz ∨ op = .ctz) (hscan : s.Scan r op k) :
    s.alu pc = some (if op == .clz then s.workQ <<< s.scanShift else s.workQ >>> s.scanShift) := by
  have hlast := hscan.last
  have hshift : s.scanShift < 64 := by
    rw [scanShift_eq hscan.step hlast]
    interval_cases k <;> decide
  have hmod : s.scanShift % 64 = s.scanShift := Nat.mod_eq_of_lt hshift
  rcases hop with rfl | rfl
  · simp [alu, microOp, logicOp, minmaxOp, rotateOp, scanOp, h.op, h.active, aluRv64i,
      shiftLeft_eq', hmod]
  · simp [alu, microOp, logicOp, minmaxOp, rotateOp, scanOp, h.op, h.active, aluRv64i,
      ushiftRight_eq', hmod]

theorem work_scan (h : s.On r op) (hop : op = .clz ∨ op = .ctz) (hscan : s.Scan r op k)
    (hk : k ≠ 5) : (s.work (s.alu pc)).On r op ∧ (s.work (s.alu pc)).Scan r op (k + 1) := by
  have hstep := hscan.step
  have hlast := hscan.last
  have halu := scan_alu pc h hop hscan
  have hwork : s.work (s.alu pc) =
      { s with
        countQ := s.scanCountNext
        workQ := if s.scanZero then
            (if op == .clz then s.workQ <<< s.scanShift else s.workQ >>> s.scanShift)
          else s.workQ
        stepQ := k + 1 } := by
    rw [halu]
    rcases hop with rfl | rfl <;>
      simp [work, logicOp, minmaxOp, rotateOp, scanOp, h.op, hstep, hk]
  rw [hwork]
  refine ⟨⟨h.request, h.valid, h.active, h.shown, h.legal, h.op, h.word⟩, ?_⟩
  have hnxt := hscan.found_next h.op hop
  have hexp : 6 - (k + 1) = 5 - k := by omega
  refine ⟨rfl, by omega, fun j => ?_, by rw [hexp]; exact hnxt⟩
  simp only [scanCountNext]
  cases s.scanZero
  · simpa using hscan.bits j
  · simp only [if_true]
    rw [scanBit_shift hop, hscan.bits, Nat.add_assoc]

theorem scanBit_of_ge (hop : op = .clz ∨ op = .ctz) (x : BitVec 64) {j : ℕ} (hj : 64 ≤ j) :
    scanBit op x j = false := by
  rcases hop with rfl | rfl
  · exact BitVec.getMsbD_of_ge x j hj
  · exact BitVec.getLsbD_of_ge x j hj

theorem eq_zero_of_scanBit (hop : op = .clz ∨ op = .ctz) {x : BitVec 64}
    (hx : ∀ j, scanBit op x j = false) : x = 0 := by
  rcases hop with rfl | rfl
  · apply BitVec.eq_of_getMsbD_eq
    intro j hj
    rw [← scanBit_clz, hx]
    simp
  · apply eq_of_getLsbD_eq
    intro j hj
    rw [← scanBit_ctz, hx]
    simp

/-- The last counter, and the correction for a word without a one. -/
theorem Scan.result (hscan : s.Scan r op 5) (hsop : s.opQ = some op)
    (hop : op = .clz ∨ op = .ctz) : s.scanResult = firstAt r op := by
  have hnxt : Found 64 (firstAt r op) s.scanCountNext 1 := hscan.found_next hsop hop
  have hfst := firstOne_loaded (r := r) hop
  have hle := hfst.le
  have hcnt := hscan.found.le
  have hnear := hnxt.near
  have hle' := hnxt.le
  have hinside := hnxt.inside
  unfold scanResult
  rw [hscan.step]
  by_cases hwork : s.workQ = 0
  · have hnone : ¬ firstAt r op < 64 := by
      intro hlt
      have hone := hfst.here hlt
      have hidx : s.countQ + (firstAt r op - s.countQ) = firstAt r op := by omega
      rw [← hidx, ← hscan.bits, hwork] at hone
      rcases hop with rfl | rfl
      · simp [scanBit] at hone
      · simp [scanBit] at hone
    have hz : (s.workQ == 0) := beq_iff_eq.mpr hwork
    simp only [hz, beq_self_eq_true, Bool.and_self, if_true]
    omega
  have hlt : firstAt r op < 64 := by
    by_contra hge
    refine hwork (eq_zero_of_scanBit hop fun j => ?_)
    rw [hscan.bits]
    by_cases hin : s.countQ + j < 64
    · exact hfst.below _ (by omega)
    · exact scanBit_of_ge hop _ (by omega)
  have hz : (s.workQ == 0) = false := beq_eq_false_iff_ne.mpr hwork
  simp only [hz, Bool.and_false, if_low]
  omega

theorem work_scanLast (h : s.On r op) (hop : op = .clz ∨ op = .ctz) (hscan : s.Scan r op 5) :
    (s.work (s.alu pc)).Shows r := by
  have hstep := hscan.step
  have halu := scan_alu pc h hop hscan
  have hfinish := On.finish (t := { s with countQ := s.scanCountNext }) h.legal
    (answer_scan h.request hop)
  rw [← hscan.result h.op hop] at hfinish
  rw [halu]
  rcases hop with rfl | rfl <;>
    simpa [work, logicOp, minmaxOp, rotateOp, scanOp, h.op, hstep] using hfinish

/-! ### Counts -/

theorem popcount16_eq (value : BitVec 16) : popcount16 value = value.cpop.toNat := by
  rw [BitVec.toNat_cpop]
  simp only [BitVec.cpopNatRec_succ, BitVec.cpopNatRec_zero_self, popcount16]
  omega

/-- The ones of the operand, and the parts in which they are counted. -/
def ones (r : ZbbRequest) : ℕ :=
  if r.wordOpI then (r.src1I.setWidth 32).cpop.toNat else r.src1I.cpop.toNat

def parts (r : ZbbRequest) : ℕ := if r.wordOpI then 2 else 4

theorem answer_pop (hreq : r.opSelI = some .cpop) : r.answer = ⟨false, ofNat 64 (ones r)⟩ := by
  cases hwrd : r.wordOpI
  · rw [answer_long hreq rfl hwrd]
    simp [evalSized, ones, hwrd]
  · rw [answer_word hreq rfl hwrd (by simp)]
    have hle : (r.src1I.setWidth 32).cpop.toNat ≤ 32 := BitVec.toNat_cpop_le _
    simp [evalSized, ones, hwrd, signExtend_count _ hle]

/-- A count before its step `k`. -/
structure Pop (r : ZbbRequest) (k : ℕ) (s : ZbbState) : Prop where
  step : s.stepQ = k
  last : k < parts r
  count : s.countQ + s.workQ.cpop.toNat = ones r
  fits : s.workQ.toNat < 2 ^ (16 * (parts r - k))

theorem Pop.countNext (h : s.Pop r k) : s.popCountNext + (s.workQ >>> 16).cpop.toNat = ones r := by
  have hsplit := toNat_cpop_split s.workQ (v := 16) (by omega)
  have hcnt := h.count
  unfold popCountNext
  rw [popcount16_eq]
  omega

theorem pop_alu (h : s.On r .cpop) : s.microOp = none := by
  simp [microOp, logicOp, minmaxOp, rotateOp, scanOp, h.op]

theorem popLast_iff (h : s.On r .cpop) (hpop : s.Pop r k) : s.popLast = (k + 1 == parts r) := by
  unfold popLast parts
  rw [h.word, hpop.step]
  cases r.wordOpI <;> simp

theorem work_pop (h : s.On r .cpop) (hpop : s.Pop r k) (hk : k + 1 ≠ parts r) :
    (s.work (s.alu pc)).On r .cpop ∧ (s.work (s.alu pc)).Pop r (k + 1) := by
  have hlast := hpop.last
  have hfits := hpop.fits
  have hmore : s.popLast = false := by
    rw [popLast_iff h hpop]
    exact beq_eq_false_iff_ne.mpr hk
  have hwork : s.work (s.alu pc) =
      { s with
        countQ := s.popCountNext
        workQ := s.workQ >>> 16
        stepQ := k + 1 } := by
    simp [work, alu, pop_alu h, logicOp, minmaxOp, rotateOp, scanOp, popOp, h.op, hmore, hpop.step]
  rw [hwork]
  refine ⟨⟨h.request, h.valid, h.active, h.shown, h.legal, h.op, h.word⟩, rfl, by omega,
    hpop.countNext, ?_⟩
  have hexp : 16 * (parts r - k) = 16 * (parts r - (k + 1)) + 16 := by omega
  rw [hexp, Nat.pow_add] at hfits
  simp only [BitVec.toNat_ushiftRight, Nat.shiftRight_eq_div_pow]
  exact Nat.div_lt_of_lt_mul (by rwa [Nat.mul_comm])

theorem work_popLast (h : s.On r .cpop) (hpop : s.Pop r k) (hk : k + 1 = parts r) :
    (s.work (s.alu pc)).Shows r := by
  have hfits := hpop.fits
  have hmore : s.popLast := by
    rw [popLast_iff h hpop]
    exact beq_iff_eq.mpr hk
  have hone : 16 * (parts r - k) = 16 := by omega
  rw [hone] at hfits
  have hrest : s.workQ >>> 16 = 0 := by
    apply BitVec.eq_of_toNat_eq
    rw [BitVec.toNat_ushiftRight, Nat.shiftRight_eq_div_pow, Nat.div_eq_of_lt hfits]
    rfl
  have hcnt := hpop.countNext
  rw [hrest] at hcnt
  have hall : s.popCountNext = ones r := by simpa using hcnt
  have hfinish := On.finish (t := { s with countQ := s.popCountNext }) h.legal
    (answer_pop h.request)
  rw [← hall] at hfinish
  simpa [work, alu, pop_alu h, logicOp, minmaxOp, rotateOp, scanOp, popOp, h.op, hmore]
    using hfinish

/-! ## A cycle -/

/-- The micro-programs: what is done of one, and how many cycles are left of it. -/
inductive Program (r : ZbbRequest) (s : ZbbState) : ZbbOp → ℕ → Prop
  | logic {op : ZbbOp} : (op = .andn ∨ op = .orn ∨ op = .xnor) → s.workQ = r.src1I →
      s.auxQ = (if op == .andn || op == .orn then ~~~r.src2I else r.src2I) → Program r s op 1
  | minmax {op : ZbbOp} : (op = .min ∨ op = .minu ∨ op = .max ∨ op = .maxu) →
      s.workQ = r.src1I → s.auxQ = r.src2I → Program r s op 1
  | shiftAway {op : ZbbOp} : (op = .rol ∨ op = .ror) → s.stepQ = 0 → s.workQ = r.src1I →
      s.amountQ.toNat = amount r → Program r s op 3
  | shiftBack {op : ZbbOp} : (op = .rol ∨ op = .ror) → s.stepQ = 1 → s.workQ = r.src1I →
      s.amountQ.toNat = amount r →
      s.auxQ = shifted (op == .rol) r.wordOpI r.src1I (amount r) → Program r s op 2
  | join {op : ZbbOp} : (op = .rol ∨ op = .ror) → s.stepQ = 2 →
      s.auxQ = shifted (op == .rol) r.wordOpI r.src1I (amount r) →
      s.workQ = shifted (op == .ror) r.wordOpI r.src1I (amountBack r) → Program r s op 1
  | scan {op : ZbbOp} {k : ℕ} : (op = .clz ∨ op = .ctz) → s.Scan r op k → Program r s op (6 - k)
  | pop {k : ℕ} : s.Pop r k → Program r s .cpop (parts r - k)

variable {n : ℕ}

theorem Program.pos (h : Program r s op n) : 0 < n := by
  cases h with
  | scan _ hscan =>
    have hlast := hscan.last
    omega
  | pop hpop =>
    have hlast := hpop.last
    omega
  | _ => decide

theorem Program.le (h : Program r s op n) : n ≤ 6 := by
  cases h with
  | pop =>
    unfold parts
    split <;> omega
  | _ => omega

/-- A cycle ends the operation with its answer, or goes on with the program. -/
theorem Program.work (h : Program r s op n) (hon : s.On r op) : (s.work (s.alu pc)).Shows r ∨
      (s.work (s.alu pc)).On r op ∧ Program r (s.work (s.alu pc)) op (n - 1) := by
  cases h with
  | logic hop hwork haux => exact .inl (work_logic pc hon hop hwork haux)
  | minmax hop hwork haux => exact .inl (work_minmax pc hon hop hwork haux)
  | shiftAway hop hstep hwork hamount =>
    rw [work_shiftAway pc hon hop hstep hwork hamount]
    exact .inr ⟨⟨hon.request, hon.valid, hon.active, hon.shown, hon.legal, hon.op, hon.word⟩,
      .shiftBack hop rfl hwork hamount rfl⟩
  | shiftBack hop hstep hwork hamount haux =>
    rw [work_shiftBack pc hon hop hstep hwork hamount]
    exact .inr ⟨⟨hon.request, hon.valid, hon.active, hon.shown, hon.legal, hon.op, hon.word⟩,
      .join hop rfl haux rfl⟩
  | join hop hstep haux hwork => exact .inl (work_rotate pc hon hop hstep haux hwork)
  | @scan op k hop hscan =>
    by_cases hk : k = 5
    · rw [hk] at hscan
      exact .inl (work_scanLast pc hon hop hscan)
    · obtain ⟨hnxt, hscan'⟩ := work_scan pc hon hop hscan hk
      have hleft : 6 - k - 1 = 6 - (k + 1) := by omega
      rw [hleft]
      exact .inr ⟨hnxt, .scan hop hscan'⟩
  | @pop k hpop =>
  by_cases hk : k + 1 = parts r
  · exact .inl (work_popLast pc hon hpop hk)
  · obtain ⟨hnxt, hpop'⟩ := work_pop pc hon hpop hk
    have hleft : parts r - k - 1 = parts r - (k + 1) := by omega
    rw [hleft]
    exact .inr ⟨hnxt, .pop hpop'⟩

end ZbbState

end OpenRV64
