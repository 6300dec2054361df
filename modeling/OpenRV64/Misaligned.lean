/-
The component-serial engine for misaligned loads and stores, and the books that its
surroundings keep beside it: the translation and the memory request in flight, the bytes
written, and the first fault reported.
-/
import OpenRV64.ByteLanes
import OpenRV64.SyncRun

namespace OpenRV64

open ByteLanes

structure MisalignedParams where
  tagWidth : ℕ
  cacheableBase : BitVec 64
  cacheableSize : BitVec 64

inductive MisalignedStateId
  | idle
  | xlate
  | access
  | result
deriving DecidableEq, Repr

/-- The registers of `openrv64_lsu_misaligned`.  Stores consume `dataQ`; loads assemble
their result into it. -/
structure MisalignedState (p : MisalignedParams) where
  stateQ : MisalignedStateId
  writeQ : Bool
  translationBypassQ : Bool
  baseAddrQ : BitVec 64
  dataQ : BitVec 64
  paddrQ : BitVec 64
  byteIndexQ : BitVec 3
  lastByteQ : BitVec 3
  xlateSentQ : Bool
  accessSentQ : Bool
  accessFaultQ : Bool
  pageFaultQ : Bool

structure MisalignedInput (p : MisalignedParams) where
  flushI : Bool
  startValidI : Bool
  startWriteI : Bool
  startAddrI : BitVec 64
  startSizeI : BitVec 3
  startWdataI : BitVec 64
  translationBypassI : Bool
  resultReadyI : Bool
  xlateReadyI : Bool
  xlateRespValidI : Bool
  xlateRespTagI : BitVec p.tagWidth
  xlateRespPaddrI : BitVec 64
  xlateRespAccessFaultI : Bool
  xlateRespPageFaultI : Bool
  memReadyI : Bool
  memRespValidI : Bool
  memRespTagI : BitVec p.tagWidth
  memRdataI : BitVec 64
  memErrorI : Bool
  memPageFaultI : Bool
  memStoreDoneValidI : Bool
  memStoreDoneTagI : BitVec p.tagWidth

def accessLastByte (size : BitVec 3) : BitVec 3 :=
  match size with
  | 1 => 1
  | 2 => 3
  | _ => 7

namespace MisalignedState

variable {p : MisalignedParams} (s : MisalignedState p) (i : MisalignedInput p)

/-! ## Component selection -/

def currentVaddr : BitVec 64 := s.baseAddrQ + s.byteIndexQ.setWidth 64

def remainingBytes : BitVec 4 := s.lastByteQ.setWidth 4 + 1 - s.byteIndexQ.setWidth 4

def componentSize : BitVec 3 :=
  if 4 ≤ s.remainingBytes ∧ s.currentVaddr.extractLsb' 0 2 = 0 then 2
  else if 2 ≤ s.remainingBytes ∧ s.currentVaddr.extractLsb' 0 1 = 0 then 1
  else 0

def componentBytes : BitVec 4 :=
  if s.componentSize = 2 then 4 else if s.componentSize = 1 then 2 else 1

def nextByteIndex : BitVec 4 := s.byteIndexQ.setWidth 4 + s.componentBytes

def paddrOffset : BitVec 64 := s.paddrQ - p.cacheableBase

def currentPaddrCacheable : Bool :=
  p.cacheableSize != 0 && decide (s.paddrOffset < p.cacheableSize) &&
    decide (s.componentBytes.setWidth 64 ≤ p.cacheableSize - s.paddrOffset)

/-! ## Lanes -/

/-- `{paddr_q[2:0], 3'b000}`. -/
def paddrByteShift : ℕ := 8 * (s.paddrQ.extractLsb' 0 3).toNat

/-- `{byte_index_q, 3'b000}`. -/
def resultByteShift : ℕ := 8 * s.byteIndexQ.toNat

def componentDataMask : BitVec 64 :=
  if s.componentSize = 2 then 0x00000000ffffffff
  else if s.componentSize = 1 then 0x000000000000ffff
  else 0x00000000000000ff

def componentStrobe : BitVec 8 :=
  if s.componentSize = 2 then 0x0f else if s.componentSize = 1 then 0x03 else 0x01

def currentStoreComponent : BitVec 64 := s.dataQ >>> s.resultByteShift &&& s.componentDataMask

def responseLoadComponent : BitVec 64 := i.memRdataI >>> s.paddrByteShift &&& s.componentDataMask

/-! ## Ports -/

def startReadyO : Bool := s.stateQ == .idle
def startFire : Bool := i.startValidI && s.startReadyO
def activeO : Bool := s.stateQ != .idle

def resultValidO : Bool := s.stateQ == .result
def resultRdataO : BitVec 64 := s.dataQ
def resultAccessFaultO : Bool := s.accessFaultQ
def resultPageFaultO : Bool := s.pageFaultQ
def resultFaultAddrO : BitVec 64 := s.currentVaddr
def resultFire : Bool := s.resultValidO && i.resultReadyI

def xlateValidO : Bool := s.stateQ == .xlate && !s.xlateSentQ
def xlateWriteO : Bool := s.writeQ
def xlateSizeO : BitVec 3 := s.componentSize
def xlateVaddrO : BitVec 64 := s.currentVaddr
def xlateFire : Bool := s.xlateValidO && i.xlateReadyI
def xlateRespReadyO : Bool := s.stateQ == .xlate

def xlateRespFire : Bool :=
  i.xlateRespValidI && s.xlateRespReadyO && i.xlateRespTagI == 0 && (s.xlateSentQ || s.xlateFire i)

def memValidO : Bool := s.stateQ == .access && !s.accessSentQ && s.currentPaddrCacheable

def memWriteO : Bool := s.writeQ
def memAddrO : BitVec 64 := s.paddrQ
def memWdataO : BitVec 64 := s.currentStoreComponent <<< s.paddrByteShift

def memWstrbO : BitVec 8 :=
  if s.writeQ then s.componentStrobe <<< (s.paddrQ.extractLsb' 0 3).toNat else 0

def memEffectiveAddrO : BitVec 64 := s.currentVaddr
def memSizeO : BitVec 3 := s.componentSize
def memFire : Bool := s.memValidO && i.memReadyI
def memRespReadyO : Bool := s.stateQ == .access

def memRespFire : Bool :=
  i.memRespValidI && s.memRespReadyO && i.memRespTagI == 0 && (s.accessSentQ || s.memFire i)

def memStoreDoneReadyO : Bool := s.stateQ == .access

def storeDoneFire : Bool :=
  s.writeQ && i.memStoreDoneValidI && s.memStoreDoneReadyO &&
    i.memStoreDoneTagI == 0 && (s.accessSentQ || s.memFire i)

def componentDone : Bool := s.memRespFire i || s.storeDoneFire i

def componentFault : Bool := s.memRespFire i && (i.memErrorI || i.memPageFaultI)

/-! ## Registers -/

/-- `STATE_IDLE` on `start_fire`. -/
def start : MisalignedState p where
  stateQ := if i.translationBypassI then .access else .xlate
  writeQ := i.startWriteI
  translationBypassQ := i.translationBypassI
  baseAddrQ := i.startAddrI
  dataQ := if i.startWriteI then i.startWdataI else 0
  paddrQ := if i.translationBypassI then i.startAddrI else 0
  byteIndexQ := 0
  lastByteQ := accessLastByte i.startSizeI
  xlateSentQ := false
  accessSentQ := false
  accessFaultQ := false
  pageFaultQ := false

/-- `STATE_XLATE` when the response is taken. -/
def translated : MisalignedState p :=
  if i.xlateRespAccessFaultI || i.xlateRespPageFaultI then
    { s with
      xlateSentQ := false
      accessFaultQ := i.xlateRespAccessFaultI
      pageFaultQ := i.xlateRespPageFaultI
      stateQ := .result }
  else
    { s with
      xlateSentQ := false
      paddrQ := i.xlateRespPaddrI
      stateQ := .access }

/-- `data_q` after a component of a load. -/
def assembled : BitVec 64 :=
  if s.writeQ then s.dataQ
  else s.dataQ ||| s.responseLoadComponent i <<< s.resultByteShift

/-- `STATE_ACCESS` when the component is done. -/
def accessed : MisalignedState p :=
  if s.componentFault i then
    { s with
      accessSentQ := false
      accessFaultQ := i.memErrorI
      pageFaultQ := i.memPageFaultI
      stateQ := .result }
  else if s.lastByteQ.setWidth 4 < s.nextByteIndex then
    { s with
      accessSentQ := false
      dataQ := s.assembled i
      stateQ := .result }
  else if s.translationBypassQ then
    { s with
      accessSentQ := false
      dataQ := s.assembled i
      byteIndexQ := s.nextByteIndex.setWidth 3
      paddrQ := s.paddrQ + s.componentBytes.setWidth 64
      stateQ := .access }
  else
    { s with
      accessSentQ := false
      dataQ := s.assembled i
      byteIndexQ := s.nextByteIndex.setWidth 3
      xlateSentQ := false
      stateQ := .xlate }

/-- A redirect cancels an ordinary load in flight; the component is issued again. -/
def waiting : MisalignedState p :=
  { s with
    accessSentQ :=
      if i.flushI && !s.writeQ && s.accessSentQ then false
      else s.memFire i || s.accessSentQ }

/-- One clock edge of `openrv64_lsu_misaligned`. -/
def step : MisalignedState p :=
  match s.stateQ with
  | .idle => if s.startFire i then start i else s
  | .xlate =>
    if s.xlateRespFire i then s.translated i
    else if s.xlateFire i then { s with xlateSentQ := true }
    else s
  | .access =>
    if !s.currentPaddrCacheable then
      { s with
        accessFaultQ := true
        pageFaultQ := false
        accessSentQ := false
        stateQ := .result }
    else if s.componentDone i then s.accessed i
    else s.waiting i
  | .result => if s.resultFire i then { s with stateQ := .idle } else s

/-- The registers after reset. -/
def reset : MisalignedState p where
  stateQ := .idle
  writeQ := false
  translationBypassQ := false
  baseAddrQ := 0
  dataQ := 0
  paddrQ := 0
  byteIndexQ := 0
  lastByteQ := 0
  xlateSentQ := false
  accessSentQ := false
  accessFaultQ := false
  pageFaultQ := false

end MisalignedState

/-! ## The books of the surroundings -/

/-- The operation that the engine was started with. -/
structure MisalignedOp where
  write : Bool
  addr : BitVec 64
  size : BitVec 3
  wdata : BitVec 64
  bypass : Bool

/-- The bytes of a half, a word or a double. -/
def MisalignedOp.bytes (op : MisalignedOp) : ℕ := 2 ^ op.size.toNat

/-- A fault, and the virtual address of the component that met it. -/
structure MisalignedFault where
  vaddr : BitVec 64
  access : Bool
  page : Bool

/-- The engine with its operation, the requests that translation and memory have
accepted and not answered, the bytes that stores have written, and the first fault. -/
structure MisalignedBooks (p : MisalignedParams) where
  engine : MisalignedState p
  op : MisalignedOp
  xlating : Option (BitVec 64)
  asked : Option (BitVec 64)
  written : List (BitVec 64 × BitVec 8)
  fault : Option MisalignedFault

/-- The doubleword that an address lies in. -/
def dwordBase (addr : BitVec 64) : BitVec 64 := (addr >>> 3) <<< 3

/-- The bytes that an accepted store request writes, in the order of their lanes. -/
def bytesWritten (addr wdata : BitVec 64) (wstrb : BitVec 8) : List (BitVec 64 × BitVec 8) :=
  ((List.range 8).filter fun k => wstrb.getLsbD k).map fun k =>
    (dwordBase addr + BitVec.ofNat 64 k, lane wdata k)

namespace MisalignedBooks

variable {p : MisalignedParams} (t : MisalignedBooks p) (i : MisalignedInput p)

/-- The translation that can be answered in this cycle. -/
def xlateOpen : Option (BitVec 64) :=
  if t.engine.xlateFire i then some t.engine.xlateVaddrO else t.xlating

/-- The memory request that can be answered in this cycle. -/
def memOpen : Option (BitVec 64) :=
  if t.engine.memFire i then some t.engine.memAddrO else t.asked

/-- A translation response is handed over. -/
def xlateAnswered : Bool := i.xlateRespValidI && t.engine.xlateRespReadyO && i.xlateRespTagI == 0

/-- A memory response is handed over. -/
def memAnswered : Bool := i.memRespValidI && t.engine.memRespReadyO && i.memRespTagI == 0

/-- A store release is handed over. -/
def storeReleased : Bool :=
  t.op.write && i.memStoreDoneValidI && t.engine.memStoreDoneReadyO && i.memStoreDoneTagI == 0

/-- A redirect suppresses the answer of a load that was accepted in an earlier
cycle. -/
def askedNext : Option (BitVec 64) :=
  if t.memAnswered i || t.storeReleased i then none
  else if t.engine.memFire i then some t.engine.memAddrO
  else if i.flushI && !t.op.write then none
  else t.asked

def writtenNext : List (BitVec 64 × BitVec 8) :=
  if t.engine.startFire i then []
  else if t.engine.memFire i && t.engine.memWriteO then
    t.written ++ bytesWritten t.engine.memAddrO t.engine.memWdataO t.engine.memWstrbO
  else t.written

/-- The fault that the component in hand meets in this cycle: its translation is
refused, it lies outside the cacheable range, or its access is. -/
def faultNow : Option MisalignedFault :=
  if t.xlateAnswered i && (i.xlateRespAccessFaultI || i.xlateRespPageFaultI) then
    some ⟨t.engine.xlateVaddrO, i.xlateRespAccessFaultI, i.xlateRespPageFaultI⟩
  else if t.engine.stateQ == .access && !t.engine.currentPaddrCacheable then
    some ⟨t.engine.memEffectiveAddrO, true, false⟩
  else if t.memAnswered i && (i.memErrorI || i.memPageFaultI) then
    some ⟨t.engine.memEffectiveAddrO, i.memErrorI, i.memPageFaultI⟩
  else none

def faultNext : Option MisalignedFault :=
  if t.engine.startFire i then none
  else match t.fault with
    | some f => some f
    | none => t.faultNow i

def opNext : MisalignedOp :=
  if t.engine.startFire i then
    ⟨i.startWriteI, i.startAddrI, i.startSizeI, i.startWdataI, i.translationBypassI⟩
  else t.op

end MisalignedBooks

/-- The engine from reset, with its books. -/
def misalignedBooks (p : MisalignedParams) :
    Sync.Circuit (MisalignedBooks p) (MisalignedInput p) where
  Init t := t.engine = .reset ∧ t.xlating = none ∧ t.asked = none
  step t i :=
    { engine := t.engine.step i
      op := t.opNext i
      xlating := if t.xlateAnswered i then none else t.xlateOpen i
      asked := t.askedNext i
      written := t.writtenNext i
      fault := t.faultNext i }

end OpenRV64
