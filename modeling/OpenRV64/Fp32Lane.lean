/-
The FP32 lane of the vector unit: addition and multiplication of binary32 words, and the
pipeline in which a multiply-accumulate uses the multiplier first and the adder after it.
-/
import OpenRV64.SyncRun
import Mathlib.Data.Nat.Notation
import Mathlib.Logic.Function.Iterate

namespace OpenRV64

open BitVec (ofBool allOnes ofInt)

def shiftRightJam (value : BitVec 64) (distance : ℤ) : BitVec 64 :=
  if distance ≤ 0 then value
  else if 64 ≤ distance then (BitVec.ofBool (value != 0)).setWidth 64
  else
    let mask : BitVec 64 := BitVec.allOnes 64 >>> (64 - distance).toNat
    let sticky : Bool := value &&& mask != 0
    (value >>> distance.toNat) ||| (BitVec.ofBool sticky).setWidth 64

/-- A binary32 word from its three fields. -/
def packFp32 (sign : Bool) (field : BitVec 8) (fraction : BitVec 23) : BitVec 32 :=
  BitVec.ofBool sign ++ field ++ fraction

/-- A significand below the least exponent is shifted to it. -/
def denormalize (exponent : ℤ) (work : BitVec 64) : ℤ × BitVec 64 :=
  if exponent < -126 then (-126, shiftRightJam work (-126 - exponent)) else (exponent, work)

/-- `main_sig` after the increment. -/
def roundSignificand (work : BitVec 64) : BitVec 32 :=
  let mainSig : BitVec 32 := (work >>> 3).setWidth 32
  let guardBit := work.getLsbD 2
  let roundBit := work.getLsbD 1
  let stickyBit := work.getLsbD 0
  let increment := guardBit && (roundBit || stickyBit || mainSig.getLsbD 0)
  if increment then mainSig + 1 else mainSig

def packRounded (sign : Bool) (exponent : ℤ) (mainSig : BitVec 32) : BitVec 32 :=
  let (mainSig, exponent) :=
    if mainSig.getLsbD 24 then (mainSig >>> 1, exponent + 1) else (mainSig, exponent)
  if 127 < exponent then packFp32 sign 0xff 0
  else
    let tiny := exponent = -126 ∧ mainSig.getLsbD 23 = false
    let biasedExponent := exponent + 127
    packFp32 sign (if tiny then 0 else BitVec.ofInt 8 biasedExponent) (mainSig.setWidth 23)

/-- `sig_ext` has the normalized 24-bit significand above three bits to round. -/
def roundPack (sign : Bool) (exponentIn : ℤ) (sigExtIn : BitVec 64) : BitVec 32 :=
  if sigExtIn = 0 then packFp32 sign 0 0
  else
    let (exponent, work) := denormalize exponentIn sigExtIn
    packRounded sign exponent (roundSignificand work)

namespace Fp32

/-! The fields and classes that both operations read from an operand. -/

variable (a : BitVec 32)

def sign : Bool := a.getLsbD 31

def field : BitVec 8 := a.extractLsb' 23 8

def fraction : BitVec 23 := a.extractLsb' 0 23

def nan : Bool := field a == BitVec.allOnes 8 && fraction a != 0

def inf : Bool := field a == BitVec.allOnes 8 && fraction a == 0

def zero : Bool := field a == 0 && fraction a == 0

end Fp32

/-- One turn of the loop that normalizes a subnormal operand of an addition. -/
def normalizeAddend (s : BitVec 32 × ℤ) : BitVec 32 × ℤ :=
  if s.1 ≠ 0 ∧ s.1.getLsbD 23 = false then (s.1 <<< 1, s.2 - 1) else s

/-- One turn of the loop that normalizes a subnormal operand of a multiplication. -/
def normalizeFactor (s : BitVec 32 × ℤ) : BitVec 32 × ℤ :=
  if s.1.getLsbD 23 = false then (s.1 <<< 1, s.2 - 1) else s

/-- One turn of the loop that normalizes a difference. -/
def normalizeDifference (s : BitVec 64 × ℤ) : BitVec 64 × ℤ :=
  if s.1.getLsbD 26 = false then (s.1 <<< 1, s.2 - 1) else s

/-- The significand and the exponent of an operand, normalized by the loop given. -/
def unpackFp32 (normalize : BitVec 32 × ℤ → BitVec 32 × ℤ) (a : BitVec 32) : BitVec 32 × ℤ :=
  if Fp32.field a = 0 then normalize^[24] ((Fp32.fraction a).setWidth 32, -126)
  else (((1 : BitVec 1) ++ Fp32.fraction a).setWidth 32, ((Fp32.field a).toNat : ℤ) - 127)

/-- The operand with the lesser exponent is shifted to the other one. -/
def alignFp32 (extA extB : BitVec 64) (expA expB : ℤ) : BitVec 64 × BitVec 64 × ℤ :=
  if expB < expA then (extA, shiftRightJam extB (expA - expB), expA)
  else if expA < expB then (shiftRightJam extA (expB - expA), extB, expB)
  else (extA, extB, expA)

/-- The sum of the aligned operands, or their difference normalized again. -/
def combineFp32 (signA signB : Bool) (extA extB : BitVec 64) (exponent : ℤ) :
    Bool × BitVec 64 × ℤ :=
  let (signResult, extResult, exponent) :=
    if signA = signB then
      let extResult := extA + extB
      if extResult.getLsbD 27 then (signA, shiftRightJam extResult 1, exponent + 1)
      else (signA, extResult, exponent)
    else if extB < extA then (signA, extA - extB, exponent)
    else if extA < extB then (signB, extB - extA, exponent)
    else (false, 0, exponent)
  if signA ≠ signB ∧ extResult ≠ 0 then
    (signResult, normalizeDifference^[24] (extResult, exponent))
  else (signResult, extResult, exponent)

def addFp32 (a b : BitVec 32) : BitVec 32 :=
  if Fp32.nan a || Fp32.nan b || (Fp32.inf a && Fp32.inf b && Fp32.sign a != Fp32.sign b) then
    0x7fc00000
  else if Fp32.inf a then packFp32 (Fp32.sign a) 0xff 0
  else if Fp32.inf b then packFp32 (Fp32.sign b) 0xff 0
  else if Fp32.zero a && Fp32.zero b then packFp32 (Fp32.sign a && Fp32.sign b) 0 0
  else if Fp32.zero a then b
  else if Fp32.zero b then a
  else
    let (sigA, expA) := unpackFp32 normalizeAddend a
    let (sigB, expB) := unpackFp32 normalizeAddend b
    let (extA, extB, exponent) :=
      alignFp32 (sigA.setWidth 64 <<< 3) (sigB.setWidth 64 <<< 3) expA expB
    let (signResult, extResult, exponent) :=
      combineFp32 (Fp32.sign a) (Fp32.sign b) extA extB exponent
    roundPack signResult exponent extResult

/-- A word with its sign turned over. -/
def negateFp32 (a : BitVec 32) : BitVec 32 := BitVec.ofBool (!Fp32.sign a) ++ a.extractLsb' 0 31

def multiplyFp32 (a b : BitVec 32) : BitVec 32 :=
  let signResult := Fp32.sign a ^^ Fp32.sign b
  if Fp32.nan a || Fp32.nan b || (Fp32.inf a && Fp32.zero b || Fp32.inf b && Fp32.zero a) then
    0x7fc00000
  else if Fp32.inf a || Fp32.inf b then packFp32 signResult 0xff 0
  else if Fp32.zero a || Fp32.zero b then packFp32 signResult 0 0
  else if a = 0x3f800000 then b
  else if b = 0x3f800000 then a
  else if a = 0xbf800000 then negateFp32 b
  else if b = 0xbf800000 then negateFp32 a
  else
    let (sigA, expA) := unpackFp32 normalizeFactor a
    let (sigB, expB) := unpackFp32 normalizeFactor b
    let product : BitVec 64 := sigA.setWidth 64 * sigB.setWidth 64
    let (exponent, shiftDistance) :=
      if product.getLsbD 47 then (expA + expB + 1, 21) else (expA + expB, 20)
    roundPack signResult exponent (shiftRightJam product shiftDistance)

/-! ## The pipeline -/

/-- The latencies that pass the checks of the elaboration. -/
structure LaneParams where
  tagWidth : ℕ
  addLatency : ℕ
  mulLatency : ℕ
  add_pos : 1 ≤ addLatency
  add_lt_mul : addLatency < mulLatency

namespace LaneParams

variable (p : LaneParams)

def macLatency : ℕ := p.mulLatency + p.addLatency

def pipelineDepth : ℕ := p.macLatency + 1

def macAddStage : ℕ := p.mulLatency + 1

end LaneParams

structure LaneInput (p : LaneParams) where
  flushI : Bool
  validI : Bool
  tagI : BitVec p.tagWidth
  multiplyI : Bool
  macI : Bool
  src1I : BitVec 32
  src2I : BitVec 32
  src3I : BitVec 32
  resultReadyI : Bool

structure LaneStage (p : LaneParams) where
  validQ : Bool
  multiplyModeQ : Bool
  macModeQ : Bool
  tagQ : BitVec p.tagWidth
  resultQ : BitVec 32
  accQ : BitVec 32

structure LaneState (p : LaneParams) where
  stageQ : ℕ → LaneStage p
  outputReservationQ : ℕ → Bool

namespace LaneState

variable {p : LaneParams} (s : LaneState p) (i : LaneInput p)

def addResultValid : Bool :=
  (s.stageQ p.addLatency).validQ && !(s.stageQ p.addLatency).multiplyModeQ &&
    !(s.stageQ p.addLatency).macModeQ

def mulResultValid : Bool :=
  (s.stageQ p.mulLatency).validQ && (s.stageQ p.mulLatency).multiplyModeQ &&
    !(s.stageQ p.mulLatency).macModeQ

def macResultValid : Bool := (s.stageQ p.macLatency).validQ && (s.stageQ p.macLatency).macModeQ

def resultValidO : Bool := s.addResultValid || s.mulResultValid || s.macResultValid

/-- The stage that drives the result port. -/
def resultStage : LaneStage p :=
  if s.addResultValid then s.stageQ p.addLatency
  else if s.mulResultValid then s.stageQ p.mulLatency
  else s.stageQ p.macLatency

def resultTagO : BitVec p.tagWidth := s.resultStage.tagQ

def resultO : BitVec 32 := s.resultStage.resultQ

def inputCompletionReserved : Bool :=
  if i.macI then false
  else if i.multiplyI then s.outputReservationQ (p.mulLatency + 1)
  else s.outputReservationQ (p.addLatency + 1)

def macAddDue : Bool := (s.stageQ p.mulLatency).validQ && (s.stageQ p.mulLatency).macModeQ

def pipelineAdvance : Bool := !s.resultValidO || i.resultReadyI

def readyO : Bool :=
  s.pipelineAdvance i && !s.inputCompletionReserved i && !(!i.multiplyI && !i.macI && s.macAddDue)

def accepts : Bool := i.validI && s.readyO i

def sharedAddResult : BitVec 32 :=
  if s.macAddDue then
    addFp32 (s.stageQ p.mulLatency).accQ (s.stageQ p.mulLatency).resultQ
  else addFp32 i.src1I i.src2I

/-- Whether a stage holds a token at the end of its way. -/
def finished (n : ℕ) : Bool :=
  (n == p.addLatency && !(s.stageQ n).multiplyModeQ && !(s.stageQ n).macModeQ) ||
    (n == p.mulLatency && (s.stageQ n).multiplyModeQ && !(s.stageQ n).macModeQ) ||
      (n == p.macLatency && (s.stageQ n).macModeQ)

def firstStage : LaneStage p where
  validQ := s.accepts i
  multiplyModeQ := s.accepts i && i.multiplyI
  macModeQ := s.accepts i && i.macI
  tagQ := i.tagI
  resultQ :=
    if s.accepts i && (i.macI || i.multiplyI) then multiplyFp32 i.src1I i.src2I
    else if !s.macAddDue && s.accepts i then s.sharedAddResult i
    else (s.stageQ 0).resultQ
  accQ := if s.accepts i then i.src3I else (s.stageQ 0).accQ

def laterStage (n : ℕ) : LaneStage p :=
  { s.stageQ n with
    validQ := (s.stageQ n).validQ && !s.finished n
    resultQ :=
      if n + 1 = p.macAddStage ∧ s.macAddDue = true then s.sharedAddResult i
      else (s.stageQ n).resultQ }

/-- The stage whose result the accepted token will drive. -/
def inputResultStage (p : LaneParams) (i : LaneInput p) : ℕ :=
  if i.macI then p.macLatency else if i.multiplyI then p.mulLatency else p.addLatency

def advancedStage : ℕ → LaneStage p
  | 0 => s.firstStage i
  | n + 1 => s.laterStage i n

def advancedReservation (n : ℕ) : Bool :=
  if s.accepts i && n == inputResultStage p i then true
  else decide (n + 1 < p.pipelineDepth) && s.outputReservationQ (n + 1)

def step : LaneState p :=
  if i.flushI then
    { stageQ n := { s.stageQ n with validQ := false, multiplyModeQ := false, macModeQ := false }
      outputReservationQ _ := false }
  else if s.pipelineAdvance i then
    { stageQ := s.advancedStage i
      outputReservationQ := s.advancedReservation i }
  else s

end LaneState

/-- `openrv64_exec_vec_fp32_lane`. -/
def fp32Lane (p : LaneParams) : Sync.Circuit (LaneState p) (LaneInput p) where
  Init s := s = ⟨fun _ => ⟨false, false, false, 0, 0, 0⟩, fun _ => false⟩
  step s i := s.step i

end OpenRV64
