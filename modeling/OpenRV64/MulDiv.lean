/-
The multiplier and divider `openrv64_exec_rv64m`.  There are two of them, which differ in how they
multiply: `rv64-m.v` takes a few bits of the multiplier in each cycle, and `rv64-m-fpga.v` has the
whole product in one.  Beside the unit stand the operations that it has taken and not discarded and
the results that it has handed out.
-/
import OpenRV64.BitSerial
import OpenRV64.DecodeTop
import OpenRV64.ServedUnit

namespace OpenRV64

open BitSerial
open BitVec (ofInt allOnes)

/-- An operation at the inputs of the unit.  The codes of no multiplication and no division behave
alike and are `none`. -/
structure MulDivRequest where
  opSelI : Option MulOp
  wordOpI : Bool
  src1I : BitVec 64
  src2I : BitVec 64
deriving DecidableEq, Repr

structure MulDivInput extends MulDivRequest where
  flushI : Bool
  validI : Bool
  resultReadyI : Bool
deriving DecidableEq, Repr

/-- `illegal_o` and `result_o`. -/
structure MulDivAnswer where
  illegal : Bool
  result : BitVec 64
deriving DecidableEq, Repr

/-! ## What the instruction set says -/

namespace MulOp

def isMul (op : MulOp) : Bool := op == .mul || op == .mulh || op == .mulhsu || op == .mulhu

def isDiv (op : MulOp) : Bool := op == .div || op == .divu || op == .rem || op == .remu

def isSignedDiv (op : MulOp) : Bool := op == .div || op == .rem

/-- The multiplications of the upper half, which have no word form. -/
def isMulHigh (op : MulOp) : Bool := op == .mulh || op == .mulhsu || op == .mulhu

/-- The result for operands of `w` bits. -/
def eval {w : ℕ} (op : MulOp) (a b : BitVec w) : BitVec w :=
  match op with
  | .mul => BitVec.ofInt w (a.toInt * b.toInt)
  | .mulh => BitVec.ofInt w (a.toInt * b.toInt / 2 ^ w)
  | .mulhsu => BitVec.ofInt w (a.toInt * b.toNat / 2 ^ w)
  | .mulhu => BitVec.ofInt w (a.toNat * b.toNat / 2 ^ w)
  | .div => if b = 0 then BitVec.allOnes w else BitVec.ofInt w (a.toInt.tdiv b.toInt)
  | .divu => if b = 0 then BitVec.allOnes w else BitVec.ofInt w (a.toNat / b.toNat)
  | .rem => if b = 0 then a else BitVec.ofInt w (a.toInt.tmod b.toInt)
  | .remu => if b = 0 then a else BitVec.ofInt w (a.toNat % b.toNat)

end MulOp

/-- The result of an operation; a word form works on the low words and extends its sign. -/
def MulDivRequest.answer (r : MulDivRequest) : MulDivAnswer :=
  match r.opSelI with
  | none => ⟨true, 0⟩
  | some op =>
    if r.wordOpI && op.isMulHigh then ⟨true, 0⟩
    else if r.wordOpI then
      ⟨false, (op.eval (r.src1I.setWidth 32) (r.src2I.setWidth 32)).signExtend 64⟩
    else ⟨false, op.eval r.src1I r.src2I⟩

/-! ## The flags of a start -/

namespace MulDivRequest

variable (r : MulDivRequest)

def startMulOp : Bool := r.opSelI.any MulOp.isMul

def startDivOp : Bool := r.opSelI.any MulOp.isDiv

def startSignedDivOp : Bool := r.opSelI.any MulOp.isSignedDiv

def startInvalidMulWord : Bool := r.wordOpI && r.opSelI.any MulOp.isMulHigh

def startMulValid : Bool := r.startMulOp && !r.startInvalidMulWord

def startDivValid : Bool := r.startDivOp

def startDivisorZero : Bool :=
  if r.wordOpI then r.src2I.setWidth 32 == 0 else r.src2I == 0

def startDivOverflow : Bool :=
  r.startSignedDivOp && !r.startDivisorZero &&
    if r.wordOpI then
      r.src1I.setWidth 32 == (0x80000000 : BitVec 32) &&
        r.src2I.setWidth 32 == (0xffffffff : BitVec 32)
    else r.src1I == 0x8000000000000000 && r.src2I == 0xffffffffffffffff

end MulDivRequest

/-! ## The functions of the unit -/

def sextWord (value : BitVec 32) : BitVec 64 := value.signExtend 64

/-- `~value + 1` if `negative`. -/
def negateIf {w : ℕ} (negative : Bool) (value : BitVec w) : BitVec w :=
  if negative then ~~~value + 1 else value

def abs64 (value : BitVec 64) : BitVec 64 := negateIf value.msb value

def abs32 (value : BitVec 32) : BitVec 32 := negateIf value.msb value

def finishDivResult (opSel : Option MulOp) (wordOp : Bool) (quotient remainder : BitVec 64)
    (negQuot negRem : Bool) : BitVec 64 :=
  let quotientSigned := negateIf negQuot quotient
  let remainderSigned := negateIf negRem remainder
  let quotientWord := negateIf negQuot (quotient.setWidth 32)
  let remainderWord := negateIf negRem (remainder.setWidth 32)
  match opSel with
  | some .div | some .divu => if wordOp then sextWord quotientWord else quotientSigned
  | some .rem | some .remu => if wordOp then sextWord remainderWord else remainderSigned
  | _ => 0

def divZeroResult (opSel : Option MulOp) (wordOp : Bool) (dividend : BitVec 64) : BitVec 64 :=
  match opSel with
  | some .div | some .divu => if wordOp then sextWord 0xffffffff else BitVec.allOnes 64
  | some .rem | some .remu => if wordOp then sextWord (dividend.setWidth 32) else dividend
  | _ => 0

def divOverflowResult (opSel : Option MulOp) (wordOp : Bool) : BitVec 64 :=
  match opSel with
  | some .div => if wordOp then sextWord 0x80000000 else 0x8000000000000000
  | _ => 0

def divStartDividend (signedOp wordOp : Bool) (value : BitVec 64) : BitVec 64 :=
  if wordOp then
    (if signedOp then abs32 (value.setWidth 32) else value.setWidth 32) ++ (0 : BitVec 32)
  else if signedOp then abs64 value else value

def divStartDivisor (signedOp wordOp : Bool) (value : BitVec 64) : BitVec 64 :=
  if wordOp then
    (0 : BitVec 32) ++ (if signedOp then abs32 (value.setWidth 32) else value.setWidth 32)
  else if signedOp then abs64 value else value

/-- `MUL_CHUNK_WIDTH` and `DIV_CHUNK_WIDTH`, of the parameters `*_BITS_PER_CYCLE`. -/
def chunkWidth (bitsPerCycle : ℤ) : ℕ :=
  if bitsPerCycle < 1 then 1 else if bitsPerCycle > 16 then 16 else bitsPerCycle.toNat

/-- `bits_left_next`. -/
def bitsLeftNext (chunk bitsLeft : ℕ) : ℕ := if bitsLeft > chunk then bitsLeft - chunk else 0

def divStageStep (chunk : ℕ) (s : Division 64) (divisor : BitVec 64) (bitsLeft : ℕ) :
    Division 64 × ℕ :=
  let stepBits := if bitsLeft < chunk then bitsLeft else chunk
  ((List.range chunk).foldl (fun next bitIdx =>
    if bitIdx < stepBits then next.step divisor else next) s, bitsLeftNext chunk bitsLeft)

/-! ## The multiplier -/

/-- The part in which the two units differ: what a multiplication loads, what it does in a cycle,
whether that cycle is its last, and the result that is then taken. -/
structure Multiplier where
  State : Type
  reset : State
  load : MulDivRequest → State
  step : State → State
  lastStep : State → Bool
  result : State → Option MulOp → Bool → BitVec 64

/-- The registers `mul_*_q` of `rv64-m.v`. -/
structure IterativeMul where
  bitsLeftQ : ℕ
  accQ : BitVec 128
  multiplicandQ : BitVec 128
  multiplierQ : BitVec 64
  negateQ : Bool
  boothPrevQ : Bool
deriving DecidableEq, Repr

namespace IterativeMul

def mulShiftAddChunk (chunk : ℕ) (multiplicand : BitVec 128) (multiplier : BitVec 64) :
    BitVec 128 :=
  shiftAdd chunk multiplicand multiplier

/-- The partial product for `{y[2i+1], y[2i], y[2i-1]}`. -/
def mulBoothPartial (multiplicand : BitVec 128) (high low below : Bool) : BitVec 128 :=
  let doubled := multiplicand <<< 1
  match high, low, below with
  | false, false, true => multiplicand
  | false, true, false => multiplicand
  | false, true, true => doubled
  | true, false, false => ~~~doubled + 1
  | true, false, true => ~~~multiplicand + 1
  | true, true, false => ~~~multiplicand + 1
  | _, _, _ => 0

def mulBoothChunk (multiplicand : BitVec 128) (multiplier : BitVec 64) (boothPrev : Bool) :
    BitVec 128 :=
  let boothLow :=
    mulBoothPartial multiplicand (multiplier.getLsbD 1) (multiplier.getLsbD 0) boothPrev
  let boothHigh := mulBoothPartial multiplicand (multiplier.getLsbD 3) (multiplier.getLsbD 2)
    (multiplier.getLsbD 1)
  boothLow + boothHigh <<< 2

def mulStageStep (chunk : ℕ) (s : IterativeMul) : IterativeMul :=
  if s.bitsLeftQ != 0 then
    { s with
      accQ := s.accQ +
        if chunk = 4 then mulBoothChunk s.multiplicandQ s.multiplierQ s.boothPrevQ
        else mulShiftAddChunk chunk s.multiplicandQ s.multiplierQ
      boothPrevQ := if chunk = 4 then s.multiplierQ.getLsbD 3 else s.boothPrevQ
      multiplicandQ := s.multiplicandQ <<< chunk
      multiplierQ := s.multiplierQ >>> chunk
      bitsLeftQ := bitsLeftNext chunk s.bitsLeftQ }
  else s

def startMulMultiplicand (r : MulDivRequest) : BitVec 128 :=
  match r.opSelI with
  | some .mulh | some .mulhsu => (abs64 r.src1I).setWidth 128
  | _ => if r.wordOpI then (r.src1I.setWidth 32).setWidth 128 else r.src1I.setWidth 128

def startMulMultiplier (r : MulDivRequest) : BitVec 64 :=
  match r.opSelI with
  | some .mulh => abs64 r.src2I
  | some .mulhsu => r.src2I
  | _ => if r.wordOpI then (r.src2I.setWidth 32).setWidth 64 else r.src2I

def startMulNegate (r : MulDivRequest) : Bool :=
  match r.opSelI with
  | some .mulh => r.src1I.msb ^^ r.src2I.msb
  | some .mulhsu => r.src1I.msb
  | _ => false

def startMulBoothCorrection (chunk : ℕ) (r : MulDivRequest) : BitVec 128 :=
  if chunk ≠ 4 then 0
  else if r.wordOpI then
    if (startMulMultiplier r).getLsbD 31 then startMulMultiplicand r <<< 32 else 0
  else if (startMulMultiplier r).getLsbD 63 then startMulMultiplicand r <<< 64 else 0

def finishMulResult (product : BitVec 128) (opSel : Option MulOp) (wordOp : Bool) : BitVec 64 :=
  if wordOp then sextWord (product.setWidth 32)
  else
    match opSel with
    | some .mulh | some .mulhsu | some .mulhu => product.extractLsb' 64 64
    | _ => product.setWidth 64

end IterativeMul

open IterativeMul in
/-- The multiplier of `rv64-m.v`. -/
def iterativeMultiplier (mulBitsPerCycle : ℤ) : Multiplier where
  State := IterativeMul
  reset := ⟨0, 0, 0, 0, false, false⟩
  load r :=
    { bitsLeftQ := if r.wordOpI then 32 else 64
      accQ := startMulBoothCorrection (chunkWidth mulBitsPerCycle) r
      multiplicandQ := startMulMultiplicand r
      multiplierQ := startMulMultiplier r
      negateQ := startMulNegate r
      boothPrevQ := false }
  step s := mulStageStep (chunkWidth mulBitsPerCycle) s
  lastStep s := (mulStageStep (chunkWidth mulBitsPerCycle) s).bitsLeftQ == 0
  result s opSel wordOp :=
    finishMulResult
      (negateIf s.negateQ (mulStageStep (chunkWidth mulBitsPerCycle) s).accQ) opSel wordOp

/-- The registers `mul_src1_q` and `mul_src2_q` of `rv64-m-fpga.v`. -/
structure ProductMul where
  src1Q : BitVec 64
  src2Q : BitVec 64
deriving DecidableEq, Repr

namespace ProductMul

variable (s : ProductMul)

def mulProduct : BitVec 128 := s.src1Q.setWidth 128 * s.src2Q.setWidth 128

def mulHighSs : BitVec 64 :=
  s.mulProduct.extractLsb' 64 64 - (if s.src1Q.msb then s.src2Q else 0) -
    (if s.src2Q.msb then s.src1Q else 0)

def mulHighSu : BitVec 64 := s.mulProduct.extractLsb' 64 64 - (if s.src1Q.msb then s.src2Q else 0)

def finishMulResult (product : BitVec 128) (highSs highSu : BitVec 64) (opSel : Option MulOp)
    (wordOp : Bool) : BitVec 64 :=
  if wordOp then sextWord (product.setWidth 32)
  else
    match opSel with
    | some .mulh => highSs
    | some .mulhsu => highSu
    | some .mulhu => product.extractLsb' 64 64
    | _ => product.setWidth 64

end ProductMul

/-- The multiplier of `rv64-m-fpga.v`. -/
def productMultiplier : Multiplier where
  State := ProductMul
  reset := ⟨0, 0⟩
  load r := ⟨r.src1I, r.src2I⟩
  step s := s
  lastStep _ := true
  result s opSel wordOp :=
    ProductMul.finishMulResult s.mulProduct s.mulHighSs s.mulHighSu opSel wordOp

/-! ## The unit -/

/-- `work_kind_q`. -/
inductive WorkKind where
  | mul
  | div
deriving DecidableEq, Repr

structure MulDivState (m : Multiplier) where
  activeQ : Bool
  workKindQ : WorkKind
  wordQ : Bool
  opQ : Option MulOp
  mulQ : m.State
  divBitsLeftQ : ℕ
  /-- `div_remainder_q`, `div_quotient_q` and `div_dividend_q`. -/
  divQ : Division 64
  divDivisorQ : BitVec 64
  divNegQuotQ : Bool
  divNegRemQ : Bool
  divFinalizeQ : Bool
  resultValidQ : Bool
  illegalQ : Bool
  resultQ : BitVec 64

namespace MulDivState

variable {m : Multiplier} (divChunk : ℕ) (s : MulDivState m) (i : MulDivInput)

def reset : MulDivState m where
  activeQ := false
  workKindQ := .mul
  wordQ := false
  opQ := none
  mulQ := m.reset
  divBitsLeftQ := 0
  divQ := Division.start 0
  divDivisorQ := 0
  divNegQuotQ := false
  divNegRemQ := false
  divFinalizeQ := false
  resultValidQ := false
  illegalQ := false
  resultQ := 0

def readyO : Bool := !s.activeQ && (!s.resultValidQ || i.resultReadyI)

def busyO : Bool := s.activeQ || s.resultValidQ

def resultValidO : Bool := s.resultValidQ

def illegalO : Bool := s.resultValidQ && s.illegalQ

def resultO : BitVec 64 := if s.resultValidQ then s.resultQ else 0

/-- `start`. -/
def start : Bool := i.validI && s.readyO i

/-- A cycle of a multiplication. -/
def mulCycle : MulDivState m :=
  let t := { s with mulQ := m.step s.mulQ }
  if m.lastStep s.mulQ then
    { t with
      activeQ := false
      resultValidQ := true
      illegalQ := false
      resultQ := m.result s.mulQ s.opQ s.wordQ }
  else t

/-- A cycle of a division. -/
def divCycle : MulDivState m :=
  if s.divFinalizeQ then
    { s with
      activeQ := false
      divFinalizeQ := false
      resultValidQ := true
      illegalQ := false
      resultQ := finishDivResult s.opQ s.wordQ s.divQ.quotient (s.divQ.remainder.setWidth 64)
        s.divNegQuotQ s.divNegRemQ }
  else
    let next := divStageStep divChunk s.divQ s.divDivisorQ s.divBitsLeftQ
    { s with
      divQ := next.1
      divBitsLeftQ := next.2
      divFinalizeQ := s.divFinalizeQ || next.2 == 0 }

/-- What becomes of a new operation. -/
def startWork (r : MulDivRequest) : MulDivState m :=
  let t := { s with wordQ := r.wordOpI, opQ := r.opSelI }
  if r.startMulValid then
    { t with
      activeQ := true
      workKindQ := .mul
      mulQ := m.load r }
  else if r.startDivValid && !r.startDivisorZero && !r.startDivOverflow then
    { t with
      activeQ := true
      workKindQ := .div
      divBitsLeftQ := if r.wordOpI then 32 else 64
      divQ := Division.start (divStartDividend r.startSignedDivOp r.wordOpI r.src1I)
      divDivisorQ := divStartDivisor r.startSignedDivOp r.wordOpI r.src2I
      divNegQuotQ := r.startSignedDivOp &&
        if r.wordOpI then r.src1I.getLsbD 31 ^^ r.src2I.getLsbD 31
        else r.src1I.getLsbD 63 ^^ r.src2I.getLsbD 63
      divNegRemQ := r.startSignedDivOp &&
        if r.wordOpI then r.src1I.getLsbD 31 else r.src1I.getLsbD 63
      divFinalizeQ := false }
  else
    { t with
      activeQ := false
      divFinalizeQ := false
      resultValidQ := true
      illegalQ := !r.startDivValid
      resultQ :=
        if r.startDivisorZero then divZeroResult r.opSelI r.wordOpI r.src1I
        else if r.startDivOverflow then divOverflowResult r.opSelI r.wordOpI
        else 0 }

/-- A result that is taken goes. -/
def taken : MulDivState m :=
  if s.resultValidQ && i.resultReadyI then
    { s with resultValidQ := false, illegalQ := false, resultQ := 0 }
  else s

def step : MulDivState m :=
  if i.flushI then reset
  else if s.activeQ && s.workKindQ == .mul then (s.taken i).mulCycle
  else if s.activeQ && s.workKindQ == .div then (s.taken i).divCycle divChunk
  else if s.start i then (s.taken i).startWork i.toMulDivRequest
  else s.taken i

end MulDivState

/-! ## The two units -/

def mulDivUnit (m : Multiplier) (divBitsPerCycle : ℤ) :
    Sync.Server (MulDivState m) MulDivInput MulDivRequest MulDivAnswer where
  Init s := s = .reset
  step := MulDivState.step (chunkWidth divBitsPerCycle)
  flush := MulDivInput.flushI
  ready := MulDivInput.resultReadyI
  takes s i := if s.start i then some i.toMulDivRequest else none
  shows s := if s.resultValidO then some ⟨s.illegalO, s.resultO⟩ else none

/-- `openrv64_exec_rv64m` of `rv64-m.v`. -/
def iterativeUnit (mulBitsPerCycle divBitsPerCycle : ℤ) :=
  mulDivUnit (iterativeMultiplier mulBitsPerCycle) divBitsPerCycle

/-- `openrv64_exec_rv64m` of `rv64-m-fpga.v`, which does not use `MUL_BITS_PER_CYCLE`. -/
def productUnit (divBitsPerCycle : ℤ) := mulDivUnit productMultiplier divBitsPerCycle

/-- The unit with the operations that it took and did not discard, and the results that it has
handed out. -/
abbrev MulDivServed (m : Multiplier) := Sync.Served (MulDivState m) MulDivRequest MulDivAnswer

/-- One operation at a time. -/
def MulDivState.inside {m : Multiplier} (s : MulDivState m) : ℕ := s.busyO.toNat

/-- Both units on one schedule. -/
def unitPair (mulBitsPerCycle divBitsPerCycle divBitsPerCycle' : ℤ) :
    Sync.Circuit (MulDivServed (iterativeMultiplier mulBitsPerCycle) ×
      MulDivServed productMultiplier) MulDivInput where
  Init t := (iterativeUnit mulBitsPerCycle divBitsPerCycle).served.Init t.1 ∧
    (productUnit divBitsPerCycle').served.Init t.2
  step t i := ((iterativeUnit mulBitsPerCycle divBitsPerCycle).served.step t.1 i,
    (productUnit divBitsPerCycle').served.step t.2 i)

/-- Nothing is flushed, and what is offered finds both units ready. -/
def offeredToBoth {m m' : Multiplier} (t : MulDivServed m × MulDivServed m')
    (i : MulDivInput) : Prop :=
  i.flushI = false ∧ (i.validI = true → t.1.unit.readyO i = true ∧ t.2.unit.readyO i = true)

instance {m m' : Multiplier} (t : MulDivServed m × MulDivServed m') (i : MulDivInput) :
    Decidable (offeredToBoth t i) :=
  inferInstanceAs (Decidable (_ ∧ (_ → _ ∧ _)))

end OpenRV64
