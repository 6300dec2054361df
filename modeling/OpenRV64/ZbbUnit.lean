/-
The Zbb sequencer `openrv64_exec_ext_zbb`, which has no shifter and no comparator of its own: it
sends its shifts, Boolean operations and comparisons to the ALU `openrv64_exec_alu_rv64i`.
-/
import OpenRV64.BitScan
import OpenRV64.DecodeTop
import OpenRV64.ServedUnit

namespace OpenRV64

/-- An operation at the inputs of the sequencer.  The codes of no operation behave alike and are
`none`. -/
structure ZbbRequest where
  opSelI : Option ZbbOp
  wordOpI : Bool
  src1I : BitVec 64
  src2I : BitVec 64
deriving DecidableEq, Repr

structure ZbbInput extends ZbbRequest where
  flushI : Bool
  validI : Bool
  resultReadyI : Bool
  /-- `pc_i` of the ALU. -/
  pcI : BitVec 64
deriving DecidableEq, Repr

/-- `illegal_o` and `result_o`. -/
structure ZbbAnswer where
  illegal : Bool
  result : BitVec 64
deriving DecidableEq, Repr

/-! ## The ALU -/

/-- `openrv64_exec_alu_rv64i`: nothing where `valid_o` is low. -/
def aluRv64i (opSel : AluOp) (wordOp : Bool) (src1 src2 pc : BitVec 64) : Option (BitVec 64) :=
  let acceptWord (value : BitVec 32) : Option (BitVec 64) := some (value.signExtend 64)
  let acceptXlen (value : BitVec 64) : Option (BitVec 64) := if wordOp then none else some value
  let low1 := src1.setWidth 32
  match opSel with
  | .add => if wordOp then acceptWord ((src1 + src2).setWidth 32) else some (src1 + src2)
  | .sub => if wordOp then acceptWord ((src1 - src2).setWidth 32) else some (src1 - src2)
  | .sll =>
    if wordOp then acceptWord (low1 <<< src2.setWidth 5) else some (src1 <<< src2.setWidth 6)
  | .slt => acceptXlen (if src1.slt src2 then 1 else 0)
  | .sltu => acceptXlen (if src1.ult src2 then 1 else 0)
  | .xor => acceptXlen (src1 ^^^ src2)
  | .srl =>
    if wordOp then acceptWord (low1 >>> src2.setWidth 5) else some (src1 >>> src2.setWidth 6)
  | .sra =>
    if wordOp then acceptWord (low1.sshiftRight' (src2.setWidth 5))
    else some (src1.sshiftRight' (src2.setWidth 6))
  | .or => acceptXlen (src1 ||| src2)
  | .and => acceptXlen (src1 &&& src2)
  | .lui => acceptXlen src2
  | .auipc => acceptXlen (pc + src2)

/-! ## What the instruction set says -/

/-- The byte of `x` that bit `i` is in. -/
def byteOf (x : BitVec 64) (i : ℕ) : BitVec 8 := x.extractLsb' (8 * (i / 8)) 8

namespace ZbbOp

/-- `operation_valid`. -/
def valid (op : ZbbOp) (word : Bool) : Bool :=
  match op with
  | .andn | .orn | .xnor | .min | .minu | .max | .maxu => !word
  | .sextB | .sextH | .orcB | .rev8 => !word
  | .zextH => word
  | .rol | .ror | .clz | .ctz | .cpop => true

/-- `operation_direct`. -/
def direct (op : ZbbOp) : Bool :=
  op == .sextB || op == .sextH || op == .zextH || op == .orcB || op == .rev8

/-- The results of the operations that have a word form. -/
def evalSized {w : ℕ} (op : ZbbOp) (a b : BitVec w) : BitVec w :=
  match op with
  | .rol => a.rotateLeft (b.toNat % w)
  | .ror => a.rotateRight (b.toNat % w)
  | .clz => a.clz
  | .ctz => a.ctz
  | .cpop => a.cpop
  | _ => 0

/-- The results of the operations on doublewords. -/
def eval (op : ZbbOp) (a b : BitVec 64) : BitVec 64 :=
  match op with
  | .andn => a &&& ~~~b
  | .orn => a ||| ~~~b
  | .xnor => ~~~(a ^^^ b)
  | .min => if a.toInt < b.toInt then a else b
  | .minu => if a.toNat < b.toNat then a else b
  | .max => if a.toInt < b.toInt then b else a
  | .maxu => if a.toNat < b.toNat then b else a
  | .sextB => (a.setWidth 8).signExtend 64
  | .sextH => (a.setWidth 16).signExtend 64
  | .zextH => (a.setWidth 16).setWidth 64
  | .orcB => BitScan.ofBits (fun i => byteOf a i != 0) 64
  | .rev8 => BitScan.ofBits (fun i => a.getLsbD (8 * (7 - i / 8) + i % 8)) 64
  | .rol | .ror | .clz | .ctz | .cpop => op.evalSized a b

end ZbbOp

/-- The answer to an operation; the word form of `ZEXT.H` is the only one that it has, and the
other word forms work on the low words and extend the sign of the result. -/
def ZbbRequest.answer (r : ZbbRequest) : ZbbAnswer :=
  match r.opSelI with
  | none => ⟨true, 0⟩
  | some op =>
    if op.valid r.wordOpI then
      if r.wordOpI && op != .zextH then
        ⟨false, (op.evalSized (r.src1I.setWidth 32) (r.src2I.setWidth 32)).signExtend 64⟩
      else ⟨false, op.eval r.src1I r.src2I⟩
    else ⟨true, 0⟩

/-! ## The functions of the sequencer -/

def orcByte (value : BitVec 8) : BitVec 8 := if value != 0 then 0xff else 0

def directResult (op : ZbbOp) (value : BitVec 64) : BitVec 64 :=
  match op with
  | .sextB => (value.extractLsb' 0 8).signExtend 64
  | .sextH => (value.extractLsb' 0 16).signExtend 64
  | .zextH => 0#48 ++ value.extractLsb' 0 16
  | .orcB =>
    orcByte (value.extractLsb' 56 8) ++ orcByte (value.extractLsb' 48 8) ++
      orcByte (value.extractLsb' 40 8) ++ orcByte (value.extractLsb' 32 8) ++
      orcByte (value.extractLsb' 24 8) ++ orcByte (value.extractLsb' 16 8) ++
      orcByte (value.extractLsb' 8 8) ++ orcByte (value.extractLsb' 0 8)
  | .rev8 =>
    value.extractLsb' 0 8 ++ value.extractLsb' 8 8 ++ value.extractLsb' 16 8 ++
      value.extractLsb' 24 8 ++ value.extractLsb' 32 8 ++ value.extractLsb' 40 8 ++
      value.extractLsb' 48 8 ++ value.extractLsb' 56 8
  | _ => 0

/-- `popcount16`; none of its sums is wider than its wire. -/
def popcount16 (value : BitVec 16) : ℕ :=
  let bit (i : ℕ) : ℕ := (value.getLsbD i).toNat
  let p0 := bit 0 + bit 1
  let p1 := bit 2 + bit 3
  let p2 := bit 4 + bit 5
  let p3 := bit 6 + bit 7
  let p4 := bit 8 + bit 9
  let p5 := bit 10 + bit 11
  let p6 := bit 12 + bit 13
  let p7 := bit 14 + bit 15
  let q0 := p0 + p1
  let q1 := p2 + p3
  let q2 := p4 + p5
  let q3 := p6 + p7
  let r0 := q0 + q1
  let r1 := q2 + q3
  r0 + r1

/-! ## The sequencer -/

/-- The micro-operation port `alu_*_o`. -/
structure MicroOp where
  aluOp : AluOp
  aluWord : Bool
  aluSrc1 : BitVec 64
  aluSrc2 : BitVec 64
deriving DecidableEq, Repr

structure ZbbState where
  activeQ : Bool
  resultValidQ : Bool
  illegalQ : Bool
  opQ : Option ZbbOp
  wordQ : Bool
  stepQ : ℕ
  workQ : BitVec 64
  auxQ : BitVec 64
  amountQ : BitVec 6
  countQ : ℕ
deriving DecidableEq, Repr

namespace ZbbState

variable (s : ZbbState) (i : ZbbInput)

def reset : ZbbState where
  activeQ := false
  resultValidQ := false
  illegalQ := false
  opQ := none
  wordQ := false
  stepQ := 0
  workQ := 0
  auxQ := 0
  amountQ := 0
  countQ := 0

def logicOp : Bool := s.opQ == some .andn || s.opQ == some .orn || s.opQ == some .xnor

def minmaxOp : Bool :=
  s.opQ == some .min || s.opQ == some .minu || s.opQ == some .max || s.opQ == some .maxu

def rotateOp : Bool := s.opQ == some .rol || s.opQ == some .ror

def scanOp : Bool := s.opQ == some .clz || s.opQ == some .ctz

def popOp : Bool := s.opQ == some .cpop

def scanShift : ℕ :=
  match s.stepQ with
  | 0 => 32
  | 1 => 16
  | 2 => 8
  | 3 => 4
  | 4 => 2
  | _ => 1

def scanZero : Bool :=
  if s.opQ == some .clz then
    match s.stepQ with
    | 0 => s.workQ.extractLsb' 32 32 == 0
    | 1 => s.workQ.extractLsb' 48 16 == 0
    | 2 => s.workQ.extractLsb' 56 8 == 0
    | 3 => s.workQ.extractLsb' 60 4 == 0
    | 4 => s.workQ.extractLsb' 62 2 == 0
    | _ => !s.workQ.getLsbD 63
  else
    match s.stepQ with
    | 0 => s.workQ.extractLsb' 0 32 == 0
    | 1 => s.workQ.extractLsb' 0 16 == 0
    | 2 => s.workQ.extractLsb' 0 8 == 0
    | 3 => s.workQ.extractLsb' 0 4 == 0
    | 4 => s.workQ.extractLsb' 0 2 == 0
    | _ => !s.workQ.getLsbD 0

def scanCountNext : ℕ := s.countQ + if s.scanZero then s.scanShift else 0

def scanResult : ℕ := s.scanCountNext + if s.stepQ == 5 && s.workQ == 0 then 1 else 0

def popCountNext : ℕ := s.countQ + popcount16 (s.workQ.extractLsb' 0 16)

def popLast : Bool := if s.wordQ then s.stepQ == 1 else s.stepQ == 3

def inverseAmount : BitVec 6 :=
  if s.wordQ then 0#1 ++ (~~~(s.amountQ.extractLsb' 0 5) + 1) else ~~~s.amountQ + 1

/-- `alu_request_o` and the operation requested. -/
def microOp : Option MicroOp :=
  if s.activeQ && s.logicOp then
    some
      { aluOp := if s.opQ == some .andn then .and else if s.opQ == some .orn then .or else .xor
        aluWord := false
        aluSrc1 := s.workQ
        aluSrc2 := s.auxQ }
  else if s.activeQ && s.minmaxOp then
    some
      { aluOp := if s.opQ == some .min || s.opQ == some .max then .slt else .sltu
        aluWord := false
        aluSrc1 := s.workQ
        aluSrc2 := s.auxQ }
  else if s.activeQ && s.rotateOp then
    if s.stepQ == 0 then
      some
        { aluOp := if s.opQ == some .ror then .srl else .sll
          aluWord := s.wordQ
          aluSrc1 := s.workQ
          aluSrc2 := 0#58 ++ s.amountQ }
    else if s.stepQ == 1 then
      some
        { aluOp := if s.opQ == some .ror then .sll else .srl
          aluWord := s.wordQ
          aluSrc1 := s.workQ
          aluSrc2 := 0#58 ++ s.inverseAmount }
    else
      some
        { aluOp := .or
          aluWord := false
          aluSrc1 := s.auxQ
          aluSrc2 := s.workQ }
  else if s.activeQ && s.scanOp then
    some
      { aluOp := if s.opQ == some .clz then .sll else .srl
        aluWord := false
        aluSrc1 := s.workQ
        aluSrc2 := BitVec.ofNat 64 s.scanShift }
  else none

def readyO : Bool := !s.activeQ && (!s.resultValidQ || i.resultReadyI)

def busyO : Bool := s.activeQ || s.resultValidQ

def resultValidO : Bool := s.resultValidQ

def illegalO : Bool := s.resultValidQ && s.illegalQ

def resultO : BitVec 64 := if s.resultValidQ then s.workQ else 0

/-- `start`. -/
def start : Bool := i.validI && s.readyO i

/-- The operation ends with a value. -/
def finish (value : BitVec 64) : ZbbState :=
  { s with
    activeQ := false
    resultValidQ := true
    workQ := value }

/-- The operation ends as an illegal one. -/
def refuse : ZbbState :=
  { s with
    activeQ := false
    resultValidQ := true
    illegalQ := true
    workQ := 0 }

/-- A cycle of an operation; `alu` is the ALU's answer to the micro-operation. -/
def work (alu : Option (BitVec 64)) : ZbbState :=
  let aluResult := alu.getD 0
  if s.microOp.isSome && alu.isNone then s.refuse
  else if s.logicOp then s.finish (if s.opQ == some .xnor then ~~~aluResult else aluResult)
  else if s.minmaxOp then
    if s.opQ == some .min || s.opQ == some .minu then
      s.finish (if aluResult.getLsbD 0 then s.workQ else s.auxQ)
    else s.finish (if aluResult.getLsbD 0 then s.auxQ else s.workQ)
  else if s.rotateOp then
    if s.stepQ == 0 then { s with auxQ := aluResult, stepQ := 1 }
    else if s.stepQ == 1 then { s with workQ := aluResult, stepQ := 2 }
    else
      s.finish (if s.wordQ then (aluResult.extractLsb' 0 32).signExtend 64 else aluResult)
  else if s.scanOp then
    let t := { s with countQ := s.scanCountNext }
    if s.stepQ == 5 then t.finish (BitVec.ofNat 64 s.scanResult)
    else
      { t with
        workQ := if s.scanZero then aluResult else s.workQ
        stepQ := s.stepQ + 1 }
  else if s.popOp then
    let t := { s with countQ := s.popCountNext }
    if s.popLast then t.finish (BitVec.ofNat 64 s.popCountNext)
    else
      { t with
        workQ := s.workQ >>> 16
        stepQ := s.stepQ + 1 }
  else s.refuse

/-- What becomes of a new operation. -/
def startWork (r : ZbbRequest) : ZbbState :=
  let t :=
    { s with
      opQ := r.opSelI
      wordQ := r.wordOpI
      stepQ := 0
      amountQ := if r.wordOpI then 0#1 ++ r.src2I.extractLsb' 0 5 else r.src2I.extractLsb' 0 6
      countQ := 0
      illegalQ := false }
  match r.opSelI with
  | none => { t.refuse with auxQ := 0 }
  | some op =>
    if !op.valid r.wordOpI then { t.refuse with auxQ := 0 }
    else if op.direct then { t.finish (directResult op r.src1I) with auxQ := 0 }
    else
      { t with
        activeQ := true
        resultValidQ := false
        auxQ := if op == .andn || op == .orn then ~~~r.src2I else r.src2I
        workQ :=
          if op == .clz && r.wordOpI then r.src1I.extractLsb' 0 32 ++ 0xffffffff#32
          else if op == .ctz && r.wordOpI then 0xffffffff#32 ++ r.src1I.extractLsb' 0 32
          else if op == .cpop && r.wordOpI then 0#32 ++ r.src1I.extractLsb' 0 32
          else r.src1I }

/-- A result that is taken goes. -/
def taken : ZbbState :=
  if s.resultValidQ && i.resultReadyI then { s with resultValidQ := false, illegalQ := false }
  else s

/-- The ALU's answer to the micro-operation. -/
def alu (pc : BitVec 64) : Option (BitVec 64) :=
  s.microOp.bind fun m => aluRv64i m.aluOp m.aluWord m.aluSrc1 m.aluSrc2 pc

def step : ZbbState :=
  if i.flushI then reset
  else if s.activeQ then (s.taken i).work (s.alu i.pcI)
  else if s.start i then (s.taken i).startWork i.toZbbRequest
  else s.taken i

/-- One operation at a time. -/
def inside : ℕ := s.busyO.toNat

end ZbbState

/-- `openrv64_exec_ext_zbb` with its ALU. -/
def zbbUnit : Sync.Server ZbbState ZbbInput ZbbRequest ZbbAnswer where
  Init s := s = .reset
  step := ZbbState.step
  flush := ZbbInput.flushI
  ready := ZbbInput.resultReadyI
  takes s i := if s.start i then some i.toZbbRequest else none
  shows s := if s.resultValidO then some ⟨s.illegalO, s.resultO⟩ else none

end OpenRV64
