/-
The two units with which the one-wide core reaches memory: the lane logic of plain loads and
stores, and the blocking unit that performs an atomic as a read, a write, or both.
-/
import OpenRV64.ScalarDecode

namespace OpenRV64

abbrev lsuSizeByte : BitVec 2 := 0
abbrev lsuSizeHalf : BitVec 2 := 1
abbrev lsuSizeWord : BitVec 2 := 2
abbrev lsuSizeDword : BitVec 2 := 3

/-! ## Plain loads and stores: `openrv64_exec_lsu_rv64i` -/

def accessMisaligned (size : BitVec 2) (offset : BitVec 3) : Bool :=
  if size == lsuSizeByte then false
  else if size == lsuSizeHalf then offset.getLsbD 0
  else if size == lsuSizeWord then offset.extractLsb' 0 2 != 0
  else offset != 0

namespace LsuOp

/-- The size of a plain access. -/
def plainSize : LsuOp → BitVec 2
  | lb | lbu | sb => lsuSizeByte
  | lh | lhu | sh => lsuSizeHalf
  | lw | lwu | sw => lsuSizeWord
  | _ => lsuSizeDword

/-- `valid_o`: the operation is a plain one. -/
def plain (op : LsuOp) : Bool := op.isLoad || op.isStore

def plainMisaligned (op : LsuOp) (addr : BitVec 64) : Bool :=
  op.plain && accessMisaligned op.plainSize (addr.extractLsb' 0 3)

/-- The shift, in bits, of the bytes at `addr` in their doubleword. -/
def byteShift (addr : BitVec 64) : ℕ := 8 * (addr.extractLsb' 0 3).toNat

def loadData (op : LsuOp) (addr rdata : BitVec 64) : BitVec 64 :=
  let shifted := rdata >>> byteShift addr
  match op with
  | lb => (shifted.extractLsb' 0 8).signExtend 64
  | lh => (shifted.extractLsb' 0 16).signExtend 64
  | lw => (shifted.extractLsb' 0 32).signExtend 64
  | ld => shifted
  | lbu => (shifted.extractLsb' 0 8).zeroExtend 64
  | lhu => (shifted.extractLsb' 0 16).zeroExtend 64
  | lwu => (shifted.extractLsb' 0 32).zeroExtend 64
  | _ => 0

/-- The write data of an aligned store. -/
def storeData (op : LsuOp) (addr data : BitVec 64) : BitVec 64 :=
  match op with
  | sb => (data.extractLsb' 0 8).zeroExtend 64 <<< byteShift addr
  | sh => (data.extractLsb' 0 16).zeroExtend 64 <<< byteShift addr
  | sw => (data.extractLsb' 0 32).zeroExtend 64 <<< byteShift addr
  | sd => data
  | _ => 0

def storeStrb (op : LsuOp) (addr : BitVec 64) : BitVec 8 :=
  let offset := (addr.extractLsb' 0 3).toNat
  match op with
  | sb => 0x01#8 <<< offset
  | sh => 0x03#8 <<< offset
  | sw => 0x0f#8 <<< offset
  | sd => 0xff#8
  | _ => 0

end LsuOp

/-! ## Atomics: `openrv64_exec_lsu_rv64a` with local reservations -/

inductive AmoPhase where
  | idle
  | read
  | write
  | done
deriving DecidableEq, Repr

@[simp] theorem AmoPhase.beq_eq_decide (a b : AmoPhase) : (a == b) = decide (a = b) := rfl

structure AmoState where
  stateQ : AmoPhase
  opQ : Option LsuOp
  sizeQ : BitVec 2
  addrQ : BitVec 64
  operandQ : BitVec 64
  writeDataQ : BitVec 64
  resultQ : BitVec 64
  misalignedQ : Bool
  accessFaultQ : Bool
  pageFaultQ : Bool
  reservationValidQ : Bool
  reservationAddrQ : BitVec 64
  reservationSizeQ : BitVec 2

/-- `mem_access_allowed_i` is tied to one: the bus does the access check.  An operation
that is not an atomic does not get here, so `illegal_q` stays clear and is left out. -/
structure AmoInput where
  flushI : Bool
  validI : Bool
  consumeI : Bool
  clearReservationI : Bool
  opSelI : LsuOp
  sizeSelI : BitVec 2
  addrI : BitVec 64
  storeDataI : BitVec 64
  memReadyI : Bool
  memErrorI : Bool
  memPageFaultI : Bool
  memRdataI : BitVec 64

/-- `amo_value` on operands of `n` bits. -/
def amoResult {n : ℕ} (op : LsuOp) (old operand : BitVec n) : BitVec n :=
  match op with
  | .amoswap => operand
  | .amoadd => old + operand
  | .amoxor => old ^^^ operand
  | .amoand => old &&& operand
  | .amoor => old ||| operand
  | .amomin => if old.slt operand then old else operand
  | .amomax => if operand.slt old then old else operand
  | .amominu => if old.ult operand then old else operand
  | .amomaxu => if operand.ult old then old else operand
  | _ => 0

namespace AmoState

variable (s : AmoState) (i : AmoInput)

def wordAccessQ : Bool := s.sizeQ == lsuSizeWord

def readShift : ℕ := if s.wordAccessQ && s.addrQ.getLsbD 2 then 32 else 0

def readValue : BitVec 64 :=
  let shifted := i.memRdataI >>> s.readShift
  if s.wordAccessQ then (shifted.extractLsb' 0 32).zeroExtend 64 else i.memRdataI

def readResult : BitVec 64 :=
  if s.wordAccessQ then ((s.readValue i).extractLsb' 0 32).signExtend 64 else s.readValue i

def amoValue (op : LsuOp) : BitVec 64 :=
  if s.wordAccessQ then
    (amoResult op ((s.readValue i).extractLsb' 0 32) (s.operandQ.extractLsb' 0 32)).zeroExtend 64
  else amoResult op (s.readValue i) s.operandQ

def completeO : Bool := i.validI && s.stateQ == .done

def memValidO : Bool := i.validI && (s.stateQ == .read || s.stateQ == .write)

def memWriteO : Bool := i.validI && s.stateQ == .write

def memWdataO : BitVec 64 :=
  if s.wordAccessQ then (s.writeDataQ.extractLsb' 0 32).zeroExtend 64 <<< s.readShift
  else s.writeDataQ

def memWstrbO : BitVec 8 :=
  if s.stateQ == .write then
    if s.wordAccessQ then if s.addrQ.getLsbD 2 then 0xf0 else 0x0f else 0xff
  else 0

/-- An SC writes only under a reservation of exactly its address and size. -/
def reserved : Bool :=
  s.reservationValidQ && s.reservationAddrQ == i.addrI && s.reservationSizeQ == i.sizeSelI

/-- A new operation is captured, and what it does first is decided. -/
def start : AmoState :=
  let misaligned := accessMisaligned i.sizeSelI (i.addrI.extractLsb' 0 3)
  { s with
    opQ := some i.opSelI
    sizeQ := i.sizeSelI
    addrQ := i.addrI
    operandQ := i.storeDataI
    writeDataQ := i.storeDataI
    resultQ := if !misaligned && i.opSelI == .sc && !s.reserved i then 1 else 0
    misalignedQ := misaligned
    accessFaultQ := false
    pageFaultQ := false
    reservationValidQ := false
    stateQ :=
      if misaligned then .done
      else if i.opSelI == .sc then if s.reserved i then .write else .done
      else .read }

/-- The read is answered. -/
def readDone (op : LsuOp) : AmoState :=
  if i.memErrorI then { s with accessFaultQ := true, stateQ := .done }
  else if i.memPageFaultI then { s with pageFaultQ := true, stateQ := .done }
  else if op == .lr then
    { s with
      resultQ := s.readResult i
      reservationValidQ := !i.clearReservationI
      reservationAddrQ := s.addrQ
      reservationSizeQ := s.sizeQ
      stateQ := .done }
  else
    { s with
      resultQ := s.readResult i
      writeDataQ := s.amoValue i op
      stateQ := .write }

/-- The write is answered. -/
def writeDone (op : LsuOp) : AmoState :=
  { s with
    accessFaultQ := s.accessFaultQ || i.memErrorI
    pageFaultQ := s.pageFaultQ || (!i.memErrorI && i.memPageFaultI)
    resultQ := if !i.memErrorI && !i.memPageFaultI && op == .sc then 0 else s.resultQ
    reservationValidQ := false
    stateQ := .done }

def step : AmoState :=
  if i.flushI then { s with stateQ := .idle, reservationValidQ := false }
  else
    let t := { s with reservationValidQ := s.reservationValidQ && !i.clearReservationI }
    match s.stateQ with
    | .idle => if i.validI then s.start i else t
    | .read => if i.memReadyI then t.readDone i (s.opQ.getD .lr) else t
    | .write => if i.memReadyI then t.writeDone i (s.opQ.getD .lr) else t
    | .done => if i.consumeI || !i.validI then { t with stateQ := .idle } else t

def reset : AmoState where
  stateQ := .idle
  opQ := none
  sizeQ := lsuSizeWord
  addrQ := 0
  operandQ := 0
  writeDataQ := 0
  resultQ := 0
  misalignedQ := false
  accessFaultQ := false
  pageFaultQ := false
  reservationValidQ := false
  reservationAddrQ := 0
  reservationSizeQ := lsuSizeWord

end AmoState

end OpenRV64
