/-
The atomic unit `openrv64_exec_lsu_rv64a` with both its parameters: the blocking unit of the
one-wide core, with the status of an SC in the read data and reservations at the home.  Beside
it stands what the memory port has answered to the instruction it works on.
-/
import OpenRV64.ScalarLsu
import OpenRV64.SyncRun

namespace OpenRV64

/-- `op_valid`.  The codes of no operation behave like the plain ones. -/
def LsuOp.atomic (op : LsuOp) : Bool := op == .lr || op == .sc || op.isAmo

structure AtomicParams where
  /-- `SC_STATUS_IN_RDATA != 0`. -/
  scStatusInRdata : Bool
  /-- `COHERENT_RESERVATIONS != 0`. -/
  coherentReservations : Bool
deriving DecidableEq, Repr

structure AtomicState extends AmoState where
  illegalQ : Bool

structure AtomicInput extends AmoInput where
  memAccessAllowedI : Bool

namespace AtomicState

variable (p : AtomicParams) (s : AtomicState) (i : AtomicInput)

def completeO : Bool := s.toAmoState.completeO i.toAmoInput

def memValidO : Bool := s.toAmoState.memValidO i.toAmoInput

def memWriteO : Bool := s.toAmoState.memWriteO i.toAmoInput

def memLockO : Bool :=
  s.memValidO i &&
    (s.opQ.any LsuOp.isAmo || s.opQ == some .sc || (p.coherentReservations && s.opQ == some .lr))

/-- What becomes of a new operation. -/
def start : AtomicState :=
  let t : AtomicState :=
    { s with
      opQ := some i.opSelI
      sizeQ := i.sizeSelI
      addrQ := i.addrI
      operandQ := i.storeDataI
      writeDataQ := i.storeDataI
      resultQ := 0
      illegalQ := false
      misalignedQ := false
      accessFaultQ := false
      pageFaultQ := false
      reservationValidQ := false }
  if !i.opSelI.atomic || (i.sizeSelI != lsuSizeWord && i.sizeSelI != lsuSizeDword) then
    { t with illegalQ := true, stateQ := .done }
  else if (i.sizeSelI == lsuSizeWord && i.addrI.extractLsb' 0 2 != 0) ||
      (i.sizeSelI == lsuSizeDword && i.addrI.extractLsb' 0 3 != 0) then
    { t with misalignedQ := true, stateQ := .done }
  else if !i.memAccessAllowedI then { t with accessFaultQ := true, stateQ := .done }
  else if i.opSelI == .sc then
    if s.reserved i.toAmoInput then { t with stateQ := .write }
    else { t with resultQ := 1, stateQ := .done }
  else { t with stateQ := .read }

/-- The read is answered. -/
def readDone : AtomicState :=
  if i.memErrorI then { s with accessFaultQ := true, stateQ := .done }
  else if i.memPageFaultI then { s with pageFaultQ := true, stateQ := .done }
  else if s.opQ == some .lr then
    { s with
      resultQ := s.readResult i.toAmoInput
      reservationValidQ := !i.clearReservationI
      reservationAddrQ := s.addrQ
      reservationSizeQ := s.sizeQ
      stateQ := .done }
  else
    { s with
      resultQ := s.readResult i.toAmoInput
      writeDataQ := s.amoValue i.toAmoInput (s.opQ.getD .lr)
      stateQ := .write }

/-- The home has refused the write of an AMO. -/
def refused : Bool := p.scStatusInRdata && i.memRdataI.getLsbD 0 && s.opQ.any LsuOp.isAmo

/-- The write is answered.  Whether the unit leaves the state is decided by a condition of its
own, which does not look at the faults. -/
def writeDone : AtomicState :=
  let t : AtomicState :=
    if i.memErrorI then { s with accessFaultQ := true }
    else if i.memPageFaultI then { s with pageFaultQ := true }
    else if s.refused p i then { s with reservationValidQ := false, stateQ := .read }
    else if s.opQ == some .sc then
      { s with resultQ := if p.scStatusInRdata && i.memRdataI.getLsbD 0 then 1 else 0 }
    else s
  if !s.refused p i then { t with reservationValidQ := false, stateQ := .done } else t

def step : AtomicState :=
  if i.flushI then { s with stateQ := .idle, reservationValidQ := false }
  else
    let t := { s with reservationValidQ := s.reservationValidQ && !i.clearReservationI }
    match s.stateQ with
    | .idle => if i.validI then s.start i else t
    | .read => if i.memReadyI then t.readDone i else t
    | .write => if i.memReadyI then t.writeDone p i else t
    | .done => if i.consumeI || !i.validI then { t with stateQ := .idle } else t

def reset : AtomicState := { AmoState.reset with illegalQ := false }

end AtomicState

/-! ## What the memory port has answered -/

/-- What an observer of the port notes about the instruction in the unit: what it is, the last
read that was answered without a fault, the same with the answers to writes taken into account,
and the fault of a write. -/
structure AtomicHistory where
  op : LsuOp
  size : BitVec 2
  addr : BitVec 64
  operand : BitVec 64
  lastRead : Option (BitVec 64)
  /-- The last read, unless a write has been answered since. -/
  freshRead : Option (BitVec 64)
  /-- A write was answered with an access fault, or else with a page fault. -/
  writeAccessFault : Bool
  writePageFault : Bool
deriving DecidableEq

structure AtomicTracked (p : AtomicParams) where
  unit : AtomicState
  hist : AtomicHistory

namespace AtomicTracked

variable {p : AtomicParams} (t : AtomicTracked p) (i : AtomicInput)

/-- A new instruction is taken. -/
def starts : Bool := !i.flushI && t.unit.stateQ == .idle && i.validI

/-- The read is answered. -/
def readAnswered : Bool := !i.flushI && t.unit.stateQ == .read && i.memReadyI

/-- The write is answered. -/
def writeAnswered : Bool := !i.flushI && t.unit.stateQ == .write && i.memReadyI

def step : AtomicTracked p where
  unit := t.unit.step p i
  hist :=
    if t.starts i then
      { op := i.opSelI
        size := i.sizeSelI
        addr := i.addrI
        operand := i.storeDataI
        lastRead := none
        freshRead := none
        writeAccessFault := false
        writePageFault := false }
    else if t.readAnswered i && !i.memErrorI && !i.memPageFaultI then
      { t.hist with lastRead := some i.memRdataI, freshRead := some i.memRdataI }
    else if t.writeAnswered i then
      { t.hist with
        freshRead := none
        writeAccessFault := t.hist.writeAccessFault || i.memErrorI
        writePageFault := t.hist.writePageFault || (!i.memErrorI && i.memPageFaultI) }
    else t.hist

end AtomicTracked

/-- `SC_STATUS_IN_RDATA = 1` and `COHERENT_RESERVATIONS = 1`. -/
def coherentAtomic : AtomicParams := ⟨true, true⟩

def atomicUnit (p : AtomicParams) : Sync.Circuit (AtomicTracked p) AtomicInput where
  Init t := t.unit = .reset
  step := AtomicTracked.step

/-! ## The property -/

/-- The operand in memory of an access of `size` at `addr`, of the doubleword `rdata`. -/
def wordLane (addr : BitVec 64) (rdata : BitVec 64) : BitVec 32 :=
  if addr.getLsbD 2 then rdata.extractLsb' 32 32 else rdata.extractLsb' 0 32

namespace AtomicHistory

variable (h : AtomicHistory) (rdata : BitVec 64)

/-- What an AMO writes when it has read `rdata`, in the lanes that it addresses. -/
def amoWdata : BitVec 64 :=
  if h.size == lsuSizeWord then
    let value := amoResult h.op (wordLane h.addr rdata) (h.operand.extractLsb' 0 32)
    if h.addr.getLsbD 2 then value ++ 0#32 else 0#32 ++ value
  else amoResult h.op rdata h.operand

def amoWstrb : BitVec 8 :=
  if h.size == lsuSizeWord then if h.addr.getLsbD 2 then 0xf0 else 0x0f else 0xff

/-- What it returns. -/
def amoReturn : BitVec 64 :=
  if h.size == lsuSizeWord then (wordLane h.addr rdata).signExtend 64 else rdata

end AtomicHistory

namespace AtomicTracked

variable {p : AtomicParams} (t : AtomicTracked p)

/-- No AMO writes a value that has become stale, a fault of a write ends it, and it returns what
it read last. -/
structure AmoRight : Prop where
  fresh : ∀ i, t.unit.memWriteO i = true → t.hist.op.isAmo = true →
    ∃ rdata, t.hist.freshRead = some rdata ∧ t.unit.addrQ = t.hist.addr ∧
      t.unit.memWdataO = t.hist.amoWdata rdata ∧ t.unit.memWstrbO = t.hist.amoWstrb
  ends : t.unit.stateQ ≠ .idle → t.hist.op.isAmo = true →
    (t.hist.writeAccessFault || t.hist.writePageFault) = true →
    (∀ i, t.unit.memValidO i = false ∧ (i.validI = true → t.unit.completeO i = true)) ∧
      t.unit.accessFaultQ = t.hist.writeAccessFault ∧ t.unit.pageFaultQ = t.hist.writePageFault
  returns : ∀ i, t.unit.completeO i = true → t.hist.op.isAmo = true →
    t.unit.illegalQ = false → t.unit.misalignedQ = false → t.unit.accessFaultQ = false →
    t.unit.pageFaultQ = false →
    ∃ rdata, t.hist.lastRead = some rdata ∧ t.unit.resultQ = t.hist.amoReturn rdata

/-- An AMO's write is answered with a fault while the read data say that the home refused it. -/
def faultsRefused (i : AtomicInput) : Bool :=
  t.writeAnswered i && (i.memErrorI || i.memPageFaultI) && t.unit.refused p i

end AtomicTracked

end OpenRV64
