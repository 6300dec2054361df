/-
The pipelined rotator `openrv64_exec_zbb_rotate`: two shifters of 32 bits, which a word rotation
uses
once and a rotation of a doubleword twice, and two elastic stages after them.
-/
import OpenRV64.ZbbUnit

namespace OpenRV64

/-- A rotation at the inputs; the tag goes with it. -/
structure RotateRequest (τ : Type) where
  opSelI : Option ZbbOp
  wordOpI : Bool
  srcI : BitVec 64
  amountI : BitVec 64
  tagI : τ
deriving DecidableEq, Repr

structure RotateInput (τ : Type) extends RotateRequest τ where
  flushI : Bool
  validI : Bool
  resultReadyI : Bool
deriving DecidableEq, Repr

/-- `result_o` and `result_tag_o`. -/
structure RotateAnswer (τ : Type) where
  result : BitVec 64
  tag : τ
deriving DecidableEq, Repr

variable {τ : Type}

/-- The rotation as an operation of the sequencer. -/
def RotateRequest.sequenced (r : RotateRequest τ) : ZbbRequest where
  opSelI := r.opSelI
  wordOpI := r.wordOpI
  src1I := r.srcI
  src2I := r.amountI

/-- What the instruction set says, with the tag. -/
def RotateRequest.answer (r : RotateRequest τ) : RotateAnswer τ where
  result := r.sequenced.answer.result
  tag := r.tagI

namespace RotateRequest

variable (r : RotateRequest τ)

def rotateLeftI : Bool := r.opSelI == some .rol

def inputValidOp : Bool := r.opSelI == some .rol || r.opSelI == some .ror

def shiftI : BitVec 5 := r.amountI.extractLsb' 0 5

def inverseShiftI : BitVec 5 := -r.shiftI

def inputHi : BitVec 32 :=
  if r.amountI.getLsbD 5 then r.srcI.extractLsb' 0 32 else r.srcI.extractLsb' 32 32

def inputLo : BitVec 32 :=
  if r.amountI.getLsbD 5 then r.srcI.extractLsb' 32 32 else r.srcI.extractLsb' 0 32

end RotateRequest

def reverse32 (value : BitVec 32) : BitVec 32 :=
  BitScan.ofBits (fun bitIndex => value.getLsbD (31 - bitIndex)) 32

/-- One of the two shifters: a shift to the left is one to the right of the reversed word. -/
def shifterLane (left : Bool) (src : BitVec 32) (amount : BitVec 5) : BitVec 32 :=
  let normalizedSrc := if left then reverse32 src else src
  let shifted := normalizedSrc >>> amount
  if left then reverse32 shifted else shifted

structure RotateState (τ : Type) where
  stage0ValidQ : Bool
  stage0Term0Q : BitVec 64
  stage0Term1Q : BitVec 64
  stage0WordQ : Bool
  stage0TagQ : τ
  stage1ValidQ : Bool
  stage1ResultQ : BitVec 64
  stage1TagQ : τ
  wideActiveQ : Bool
  wideLeftQ : Bool
  wideHiQ : BitVec 32
  wideLoQ : BitVec 32
  wideInverseShiftQ : BitVec 5
  wideDirectHiQ : BitVec 32
  wideDirectLoQ : BitVec 32
  wideTagQ : τ
deriving DecidableEq, Repr

namespace RotateState

variable (s : RotateState τ) (i : RotateInput τ)

def reset (zero : τ) : RotateState τ where
  stage0ValidQ := false
  stage0Term0Q := 0
  stage0Term1Q := 0
  stage0WordQ := false
  stage0TagQ := zero
  stage1ValidQ := false
  stage1ResultQ := 0
  stage1TagQ := zero
  wideActiveQ := false
  wideLeftQ := false
  wideHiQ := 0
  wideLoQ := 0
  wideInverseShiftQ := 0
  wideDirectHiQ := 0
  wideDirectLoQ := 0
  wideTagQ := zero

def stage1Ready : Bool := !s.stage1ValidQ || i.resultReadyI

def stage0Ready : Bool := !s.stage0ValidQ || s.stage1Ready i

/-! ### The shifters -/

def shiftersDoWideWrap : Bool := s.wideActiveQ

def shifter0Result : BitVec 32 :=
  shifterLane (if s.shiftersDoWideWrap then !s.wideLeftQ else i.rotateLeftI)
    (if s.shiftersDoWideWrap then s.wideLoQ
      else if i.wordOpI then i.srcI.extractLsb' 0 32 else i.inputHi)
    (if s.shiftersDoWideWrap then s.wideInverseShiftQ else i.shiftI)

def shifter1Result : BitVec 32 :=
  shifterLane
    (if s.shiftersDoWideWrap then !s.wideLeftQ
      else if i.wordOpI then !i.rotateLeftI else i.rotateLeftI)
    (if s.shiftersDoWideWrap then s.wideHiQ
      else if i.wordOpI then i.srcI.extractLsb' 0 32 else i.inputLo)
    (if s.shiftersDoWideWrap then s.wideInverseShiftQ
      else if i.wordOpI then i.inverseShiftI else i.shiftI)

/-- A five-bit amount cannot say 32, by which nothing is left of a half. -/
def wideWrapHi : BitVec 32 := if s.wideInverseShiftQ == 0 then 0 else s.shifter0Result i

def wideWrapLo : BitVec 32 := if s.wideInverseShiftQ == 0 then 0 else s.shifter1Result i

/-! ### The handshakes -/

def readyO : Bool := !s.wideActiveQ && i.inputValidOp && (!i.wordOpI || s.stage0Ready i)

/-- `start`. -/
def start : Bool := i.validI && s.readyO i

def busyO : Bool := s.wideActiveQ || s.stage0ValidQ || s.stage1ValidQ

def stage0WordResult : BitVec 32 :=
  s.stage0Term0Q.extractLsb' 0 32 ||| s.stage0Term1Q.extractLsb' 0 32

/-- The last stage takes the two terms together. -/
def advance1 : RotateState τ :=
  if s.stage1Ready i then
    if s.stage0ValidQ then
      { s with
        stage1ValidQ := true
        stage1ResultQ :=
          if s.stage0WordQ then s.stage0WordResult.signExtend 64
          else s.stage0Term0Q ||| s.stage0Term1Q
        stage1TagQ := s.stage0TagQ }
    else { s with stage1ValidQ := false }
  else s

def step : RotateState τ :=
  if i.flushI then
    { s with
      stage0ValidQ := false
      stage1ValidQ := false
      wideActiveQ := false }
  else
    let t := s.advance1 i
    let t := if s.stage0Ready i then { t with stage0ValidQ := false } else t
    if s.wideActiveQ && s.stage0Ready i then
      { t with
        stage0ValidQ := true
        stage0Term0Q := s.wideDirectHiQ ++ s.wideDirectLoQ
        stage0Term1Q := s.wideWrapHi i ++ s.wideWrapLo i
        stage0WordQ := false
        stage0TagQ := s.wideTagQ
        wideActiveQ := false }
    else if s.start i && i.wordOpI then
      { t with
        stage0ValidQ := true
        stage0Term0Q := 0#32 ++ s.shifter0Result i
        stage0Term1Q := 0#32 ++ s.shifter1Result i
        stage0WordQ := true
        stage0TagQ := i.tagI }
    else if s.start i then
      { t with
        wideActiveQ := true
        wideLeftQ := i.rotateLeftI
        wideHiQ := i.inputHi
        wideLoQ := i.inputLo
        wideInverseShiftQ := i.inverseShiftI
        wideDirectHiQ := s.shifter0Result i
        wideDirectLoQ := s.shifter1Result i
        wideTagQ := i.tagI }
    else t

/-- The rotations in the rotator. -/
def inside : ℕ := s.stage1ValidQ.toNat + s.stage0ValidQ.toNat + s.wideActiveQ.toNat

end RotateState

/-- `openrv64_exec_zbb_rotate`; `zero` is the tag of zeros. -/
def zbbRotate (zero : τ) :
    Sync.Server (RotateState τ) (RotateInput τ) (RotateRequest τ) (RotateAnswer τ) where
  Init s := s = .reset zero
  step := RotateState.step
  flush := RotateInput.flushI
  ready := RotateInput.resultReadyI
  takes s i := if s.start i then some i.toRotateRequest else none
  shows s := if s.stage1ValidQ then some ⟨s.stage1ResultQ, s.stage1TagQ⟩ else none

end OpenRV64
