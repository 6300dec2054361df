/-
The one-wide core: fetch, one instruction in each of the stages ID, EX, MEM and WB, the CSR
block, and the generic bus.  The stages are registered, as their parameters have it by
default.
-/
import OpenRV64.BusAdapter
import OpenRV64.Csr
import OpenRV64.ScalarFetch
import OpenRV64.ScalarLsu

namespace OpenRV64

/-! ## `openrv64_stage`: a register that holds at most one item -/

namespace Stage

variable {α : Type} (reg : Option α)

def out (flush : Bool) : Option α := if flush then none else reg

def inClear (flush outClear : Bool) : Bool := flush || reg.isNone || outClear

def next (flush outClear : Bool) (input : Option α) : Option α :=
  if flush then none else if inClear reg flush outClear then input else reg

end Stage

/-- An address whose two low bits are not zero. -/
def misaligned (addr : BitVec 64) : Bool := addr.extractLsb' 0 2 != 0

/-! ## What the stages hold

Decoding is a function of the instruction word, so a register keeps the word instead of the
decoded fields. -/

structure DispatchPacket where
  pc : BitVec 64
  instr : BitVec 32
  predictedTaken : Bool
  fault : Bool
  pageFault : Bool
deriving DecidableEq, Repr

structure ExMemPacket where
  pc : BitVec 64
  nextPc : BitVec 64
  instr : BitVec 32
  wbData : BitVec 64
  lsuBase : BitVec 64
  lsuOffset : BitVec 64
  lsuStoreData : BitVec 64
  illegal : Bool
  instrMisaligned : Bool
  instrBadaddr : BitVec 64
  mret : Bool
  sret : Bool
  privMode : BitVec 2
  accessFault : Bool
  pageFault : Bool
deriving DecidableEq, Repr

structure MemWbPacket where
  pc : BitVec 64
  nextPc : BitVec 64
  instr : BitVec 32
  data : BitVec 64
  exception : Bool
  halt : Bool
  cause : BitVec 5
  tval : BitVec 64
  mret : Bool
  sret : Bool
deriving DecidableEq, Repr

structure ScalarParams where
  resetVector : BitVec 64
  reset_aligned : misaligned resetVector = false
  enableRv64m : Bool
  decode : DecodeParams
  csr : CsrParams
  bus : GenBusParams

structure ScalarState (p : ScalarParams) where
  fetch : FetchState
  ifIdQ : Option FetchPacket
  dispatchQ : Option DispatchPacket
  csrActiveQ : Bool
  fenceActiveQ : Bool
  exMemQ : Option ExMemPacket
  memWbQ : Option MemWbPacket
  serializingQ : Bool
  amo : AmoState
  pcQ : BitVec 64
  haltedQ : Bool
  wfiSleepQ : Bool
  haltPendingQ : Bool
  resetPendingQ : Bool
  redirectDispatchFlushQ : Bool
  /-- The predictor's record of where it sent fetch for the control in flight. -/
  predictedTargetQ : BitVec 64
  csr : CsrState p.csr
  bus : CoreBusState

/-- The inputs of a cycle: the pins of the core and, where the values do not matter, what its
parts compute.  The operands, the ALU and its multiplier, the delay of a counter read, the
scoreboard and the predictor may do anything. -/
structure ScalarInput where
  reqReadyI : Bool
  reqRdataI : BitVec 64
  reqErrorI : Bool
  pmpAllowI : Bool
  icx : GenBusIcx
  irqSoftwareI : Bool
  irqTimerI : Bool
  irqExternalI : Bool
  irqSSoftwareI : Bool
  irqSTimerI : Bool
  irqSExternalI : Bool
  perfEventsI : BitVec cmuEventCount
  rs1DataI : BitVec 64
  rs2DataI : BitVec 64
  aluResultI : BitVec 64
  aluIllegalI : Bool
  /-- `alu_m_ready`, and that the multiplier has the result of the instruction. -/
  aluMReadyI : Bool
  aluMDoneI : Bool
  hpmDelayDoneI : Bool
  regMapCanAllocateI : Bool
  predictionTakenI : Bool
  predictionFastI : Bool
  predictionTargetI : BitVec 64
  bpFetchStallI : Bool
  bpDecodeStallI : Bool

namespace DispatchPacket

variable (p : ScalarParams) (d : DispatchPacket)

def op : ScalarOp := p.decode.decodeTop d.instr

def ebreak : Bool := d.instr == instrEbreak

def ecall : Bool := d.instr == instrEcall

def csrSelected : Bool := (d.op p).system && rvFunct3 d.instr != 0b000 && !(d.op p).illegal

def fenceSelected : Bool := (d.op p).fence && !(d.op p).illegal

def mSelected : Bool := (d.op p).alu == some aluExtM && p.enableRv64m && !(d.op p).illegal

def serializing : Bool :=
  ((d.op p).system && !d.csrSelected p) || (d.op p).illegal || d.ebreak || d.ecall

/-- `ex_hpm_selected`: an access to the counter block. -/
def hpmSelected : Bool :=
  let addr := rvCsr d.instr
  d.csrSelected p &&
    (addr == 0x106 || addr == 0x306 || addr == 0x320 || addr == 0xb00 || addr == 0xb02 ||
      addr == 0xc00 || addr == 0xc01 || addr == 0xc02 ||
      (decide (0xb03#12 ≤ addr) && decide (addr ≤ 0xb1f#12)) ||
      (decide (0x323#12 ≤ addr) && decide (addr ≤ 0x33f#12)) ||
      (decide (0xc03#12 ≤ addr) && decide (addr ≤ 0xc1f#12)))

def requiresDrain : Bool := d.serializing p || d.csrSelected p || d.fenceSelected p

end DispatchPacket

/-- `openrv64_exec_br` for a legal operation: whether it is taken, and where to. -/
def BrOp.execute (op : BrOp) (pc src1 src2 imm : BitVec 64) : Bool × BitVec 64 :=
  let branch (condition : Bool) := (condition, if condition then pc + imm else pc + 4)
  match op with
  | .beq => branch (src1 == src2)
  | .bne => branch (src1 != src2)
  | .blt => branch (src1.slt src2)
  | .bge => branch (!src1.slt src2)
  | .bltu => branch (src1.ult src2)
  | .bgeu => branch (!src1.ult src2)
  | .jal => (true, pc + imm)
  | .jalr => (true, (src1 + imm) &&& ~~~1#64)

namespace ExMemPacket

variable (p : ScalarParams) (m : ExMemPacket)

def op : ScalarOp := p.decode.decodeTop m.instr

def isAtomic : Bool := rvOpcode m.instr == opcodeAmo

def memRead : Bool := (m.op p).memRead

def memWrite : Bool := (m.op p).memWrite

def lsuOp : LsuOp := (m.op p).lsu.getD .lb

def badaddr : BitVec 64 := m.lsuBase + m.lsuOffset

def memory : Bool := (m.memRead p || m.memWrite p) && !m.illegal

def lsuMemAccess : Bool := m.memory p && !m.isAtomic

def atomicMemAccess : Bool := m.memory p && m.isAtomic

/-- The plain unit knows the operation and finds the address misaligned. -/
def lsuMisaligned : Bool := (m.op p).lsu.isSome && (m.lsuOp p).plainMisaligned m.badaddr

def lsuMemValid : Bool := m.lsuMemAccess p && (m.lsuOp p).plain && !m.lsuMisaligned p

def ebreak : Bool := m.instr == instrEbreak

def ecall : Bool := m.instr == instrEcall

end ExMemPacket

namespace MemWbPacket

variable (w : MemWbPacket)

def isCsr : Bool := rvOpcode w.instr == opcodeSystem && rvFunct3 w.instr != 0b000

def arch : Bool := !w.exception

def isMret : Bool := w.mret && !w.exception

def isSret : Bool := w.sret && !w.exception

def isWfi : Bool := w.arch && w.instr == instrWfi

def isFence : Bool := w.arch && rvOpcode w.instr == opcodeMiscMem

def isFenceI : Bool := w.isFence && rvFunct3 w.instr == 0b001

def isSfenceVma : Bool := w.arch && OpenRV64.isSfenceVma w.instr

def csrWriteRequired : Bool :=
  let funct3 := rvFunct3 w.instr
  funct3 == 0b001 || funct3 == 0b101 ||
    ((funct3 == 0b010 || funct3 == 0b011 || funct3 == 0b110 || funct3 == 0b111) &&
      rvRs1 w.instr != 0)

def isSatpWrite : Bool := w.isCsr && w.arch && w.csrWriteRequired && rvCsr w.instr == csrSatp

def isTranslationFence : Bool := w.isSfenceVma || w.isSatpWrite

/-- A retirement with which an interrupt may be taken. -/
def interruptible : Bool := !w.exception && !w.halt && !w.isMret && !w.isSret

end MemWbPacket

namespace ScalarState

variable {p : ScalarParams} (s : ScalarState p) (i : ScalarInput)

/-! ### Retirement -/

section Retire

/-- `csr_serial_busy`. -/
def csrBusy : Bool := s.csr.pmp.csrBusyO || s.csr.satp.satpBusyQ || s.csr.hpm.hpmWriteBusyQ

/-- The CSR port with nothing but the interrupt lines and the address of an access. -/
def csrPort (addr : BitVec 12) : CsrInput where
  csrAddrI := addr
  csrWriteI := false
  csrOpI := 0
  csrWdataI := 0
  extensionCsrSelectedI := false
  extensionCsrValidI := false
  extensionCsrWritableI := false
  extensionCsrRdataI := 0
  extensionCsrWriteReadyI := true
  extensionMisaBitsI := 0
  extensionMstatusBitsI := 0
  extensionSstatusBitsI := 0
  trapEnterI := false
  trapInterruptI := false
  trapCauseI := 0
  trapPcI := 0
  trapTvalI := 0
  mretI := false
  sretI := false
  retireCountI := 0
  perfEventsI := i.perfEventsI
  irqSoftwareI := i.irqSoftwareI
  irqTimerI := i.irqTimerI
  irqExternalI := i.irqExternalI
  irqSSoftwareI := i.irqSSoftwareI
  irqSTimerI := i.irqSTimerI
  irqSExternalI := i.irqSExternalI

def csrIrqPending : Bool := s.csr.regs.irqPendingO (csrPort i 0)

def csrWfiWake : Bool := s.csr.regs.wfiWakeO (csrPort i 0)

/-- The instruction that leaves WB. -/
def retiring : Option MemWbPacket := if s.csrBusy then none else s.memWbQ

def retires (f : MemWbPacket → Bool) : Bool := (s.retiring.map f).getD false

def wbPacket : MemWbPacket := s.memWbQ.getD ⟨0, 0, 0, 0, false, false, 0, 0, false, false⟩

def wfiIrqTake : Bool := s.wfiSleepQ && s.csrIrqPending i

def irqTake : Bool := s.wfiIrqTake i || (s.csrIrqPending i && s.retires MemWbPacket.interruptible)

def trapEnter : Bool := s.retires MemWbPacket.exception || s.irqTake i

def trapCause : BitVec 5 :=
  if s.irqTake i then s.csr.regs.irqCauseO (csrPort i 0) else s.wbPacket.cause

def trapPc : BitVec 64 :=
  if s.wfiIrqTake i then s.pcQ
  else if s.irqTake i then s.wbPacket.nextPc
  else s.wbPacket.pc

def trapTval : BitVec 64 := if s.irqTake i then 0 else s.wbPacket.tval

def hardFlushTrap : Bool := s.retires fun w => w.exception && !w.halt

def hardFlushRestart : Bool :=
  s.retires MemWbPacket.isFenceI || s.retires MemWbPacket.isTranslationFence ||
    s.retires MemWbPacket.isWfi

def flushExMem : Bool :=
  s.hardFlushTrap || s.irqTake i || s.retires MemWbPacket.isMret || s.retires MemWbPacket.isSret

def flushIdEx : Bool := s.flushExMem i || s.hardFlushRestart || s.redirectDispatchFlushQ

end Retire

/-! ### Memory access -/

section Memory

/-- `ex_mem_out_*`. -/
def mem : Option ExMemPacket := Stage.out s.exMemQ (s.flushExMem i)

/-- The instruction in MEM, if there is one, has the property. -/
def memIs (f : ExMemPacket → Bool) : Bool := ((s.mem i).map f).getD false

def memPacket : ExMemPacket :=
  (s.mem i).getD ⟨0, 0, 0, 0, 0, 0, 0, false, false, 0, false, false, 0, false, false⟩

/-- The inputs of the atomic unit that do not depend on the bus. -/
def amoPort : AmoInput :=
  let m := s.memPacket i
  { flushI := s.flushExMem i
    validI := s.memIs i (ExMemPacket.atomicMemAccess p)
    consumeI := false
    clearReservationI := s.memIs i fun m => !m.isAtomic && m.memWrite p
    opSelI := m.lsuOp p
    sizeSelI := m.instr.extractLsb' 12 2
    addrI := m.badaddr
    storeDataI := m.lsuStoreData
    memReadyI := false
    memErrorI := false
    memPageFaultI := false
    memRdataI := 0 }

def memIsAtomic : Bool := s.memIs i ExMemPacket.isAtomic

def execMemValid : Bool :=
  if s.memIsAtomic i then s.amo.memValidO (s.amoPort i)
  else s.memIs i (ExMemPacket.lsuMemValid p)

def execMemRequest : LsuRequest :=
  let m := s.memPacket i
  let priv := s.csr.regs.dataPrivModeO
  { write :=
      if s.memIsAtomic i then s.amo.memWriteO (s.amoPort i) else (m.lsuOp p).isStore
    addr := if s.memIsAtomic i then s.amo.addrQ else m.badaddr
    wdata :=
      if s.memIsAtomic i then s.amo.memWdataO
      else (m.lsuOp p).storeData m.badaddr m.lsuStoreData
    wstrb := if s.memIsAtomic i then s.amo.memWstrbO else (m.lsuOp p).storeStrb m.badaddr
    size := (m.instr.extractLsb' 12 2).zeroExtend 3
    priv := priv
    vmMode := if priv == privM then satpModeBare else s.csr.satp.satpQ.extractLsb' 60 4
    asid := s.csr.satp.satpQ.extractLsb' 44 16
    rootPpn := s.csr.satp.satpQ.extractLsb' 0 44
    sum := s.csr.regs.mstatusQ.getLsbD mstatusSum
    mxr := s.csr.regs.mstatusQ.getLsbD mstatusMxr }

/-- `translation_barrier_busy`. -/
def translationBarrierBusy : Bool :=
  s.retires MemWbPacket.isSfenceVma || s.retires MemWbPacket.isSatpWrite ||
    s.bus.bus.ptw.shootdownPending || s.bus.bus.ptw.shootdownInflight

/-- The bus with its data client; the tagged channel and the translation port are idle. -/
def busPort : CoreBusInput where
  fetchValidI := false
  fetchCancelI := false
  fetchI := ⟨0, 0, 0, 0, 0, false, false⟩
  fetchNextValidI := false
  fetchNextAddrI := 0
  lsuValidI := s.execMemValid i && !s.translationBarrierBusy
  lsuI := s.execMemRequest i
  lsuPipeReqValidI := false
  lsuPipeReqI := ⟨0, false, false, ⟨false, 0, 0, 0, 0, privM, 0, 0, 0, false, false⟩⟩
  lsuPipeCancelI := false
  lsuPipeRespReadyI := false
  lsuXlateReqValidI := false
  lsuXlateReqI := ⟨0, 0, 0⟩
  lsuXlateRespReadyI := true
  tlbiI := s.retires MemWbPacket.isSfenceVma
  contextFlushI := s.retires MemWbPacket.isSatpWrite
  reqReadyI := i.reqReadyI
  reqRdataI := i.reqRdataI
  reqErrorI := i.reqErrorI
  pmpAllowI := i.pmpAllowI
  icx := i.icx

def execMemReady : Bool := s.bus.lsuReadyO p.bus (s.busPort i) && !s.translationBarrierBusy

def execMemAnswer : BusAnswer := s.bus.lsuAnswerO p.bus (s.busPort i)

/-- The answer as MEM sees it. -/
def lsuBusError : Bool := s.execMemValid i && s.execMemReady i && (s.execMemAnswer i).accessFault

def lsuPageFault : Bool := s.execMemValid i && s.execMemReady i && (s.execMemAnswer i).pageFault

def memoryComplete (m : ExMemPacket) : Bool :=
  if m.isAtomic then s.amo.completeO (s.amoPort i)
  else !m.lsuMemAccess p || !(m.lsuOp p).plain || m.lsuMisaligned p ||
    (m.lsuMemValid p && s.execMemReady i)

def memWbInClear : Bool := Stage.inClear s.memWbQ false (!s.csrBusy)

def exMemOutClear : Bool := s.memWbInClear && s.memIs i (s.memoryComplete i)

def exMemInClear : Bool := Stage.inClear s.exMemQ (s.flushExMem i) (s.exMemOutClear i)

/-- The whole input of the atomic unit. -/
def amoInput : AmoInput :=
  { s.amoPort i with
    consumeI := s.exMemOutClear i && s.memIsAtomic i
    memReadyI := s.execMemReady i
    memErrorI := (s.execMemAnswer i).accessFault
    memPageFaultI := (s.execMemAnswer i).pageFault
    memRdataI := (s.execMemAnswer i).rdata }

end Memory

/-! ### Exceptions -/

section Except

variable (m : ExMemPacket)

def isLr : Bool := m.lsuOp p == .lr

def loadMisaligned : Bool :=
  (!m.isAtomic && m.memRead p && m.lsuMisaligned p) ||
    (m.atomicMemAccess p && isLr (p := p) m && s.amo.misalignedQ)

def storeMisaligned : Bool :=
  (!m.isAtomic && m.memWrite p && m.lsuMisaligned p) ||
    (m.atomicMemAccess p && !isLr (p := p) m && s.amo.misalignedQ)

def loadAccessFault : Bool :=
  (!m.isAtomic && m.memRead p && s.lsuBusError i) ||
    (m.isAtomic && isLr (p := p) m && s.amo.accessFaultQ)

def storeAccessFault : Bool :=
  (!m.isAtomic && m.memWrite p && s.lsuBusError i) ||
    (m.isAtomic && !isLr (p := p) m && s.amo.accessFaultQ)

def loadPageFault : Bool :=
  (!m.isAtomic && m.memRead p && s.lsuPageFault i) ||
    (m.isAtomic && isLr (p := p) m && s.amo.pageFaultQ)

def storePageFault : Bool :=
  (!m.isAtomic && m.memWrite p && s.lsuPageFault i) ||
    (m.isAtomic && !isLr (p := p) m && s.amo.pageFaultQ)

/-- `openrv64_except`: the cause and the trap value of the first exception in its order. -/
def exceptCause : Option (BitVec 5 × BitVec 64) :=
  let pc := if m.instrMisaligned then m.instrBadaddr else m.pc
  if m.instrMisaligned then some (0, pc)
  else if m.accessFault then some (1, pc)
  else if m.pageFault then some (12, pc)
  else if m.illegal then some (2, m.instr.zeroExtend 64)
  else if s.loadMisaligned m then some (4, m.badaddr)
  else if s.loadAccessFault i m then some (5, m.badaddr)
  else if s.loadPageFault i m then some (13, m.badaddr)
  else if s.storeMisaligned m then some (6, m.badaddr)
  else if s.storeAccessFault i m then some (7, m.badaddr)
  else if s.storePageFault i m then some (15, m.badaddr)
  else if m.ecall then
    some (if m.privMode == privU then 8 else if m.privMode == privS then 9 else 11, 0)
  else if m.ebreak then some (3, 0)
  else none

/-- An EBREAK in M-mode halts, unless another exception goes before it. -/
def exceptHalt : Bool := (s.exceptCause i m == some (3, 0)) && m.ebreak && m.privMode == privM

/-- What MEM hands to WB. -/
def memWbIn : MemWbPacket where
  pc := m.pc
  nextPc := m.nextPc
  instr := m.instr
  data :=
    if m.isAtomic then s.amo.resultQ
    else if m.memRead p then (m.lsuOp p).loadData m.badaddr (s.execMemAnswer i).rdata
    else m.wbData
  exception := (s.exceptCause i m).isSome
  halt := s.exceptHalt i m
  cause := ((s.exceptCause i m).map Prod.fst).getD 0
  tval := ((s.exceptCause i m).map Prod.snd).getD 0
  mret := m.mret
  sret := m.sret

end Except

/-! ### Execution -/

section Execute

/-- `dispatch_exec_*`. -/
def ex : Option DispatchPacket := Stage.out s.dispatchQ (s.flushIdEx i)

def pipelineEmpty : Bool := (s.mem i).isNone && s.memWbQ.isNone

def serialIssueReady : Bool := s.pipelineEmpty i && !s.serializingQ

/-- `br_ready_o` and `lsu_ready_o`. -/
def exUnitReady : Bool := s.exMemInClear i && !s.serializingQ && !s.csrBusy

/-- An access to the counter block waits for a few cycles. -/
def hpmDelayReady : Bool :=
  !((s.ex i).map (DispatchPacket.hpmSelected p)).getD false || i.hpmDelayDoneI

def exReady (d : DispatchPacket) : Bool :=
  s.exUnitReady i && s.hpmDelayReady i &&
    (!d.requiresDrain p || s.serialIssueReady i) && (!d.mSelected p || i.aluMDoneI)

/-- The ready of the unit for which an instruction is meant. -/
def unitReady (instr : BitVec 32) : Bool :=
  let o := p.decode.decodeTop instr
  if o.control then s.exUnitReady i
  else if o.lsu.isSome then s.exUnitReady i
  else if o.system || o.fence || o.illegal || instr == instrEbreak || instr == instrEcall then
    s.exMemInClear i && s.serialIssueReady i && !s.csrBusy && s.hpmDelayReady i
  else s.exMemInClear i && i.aluMReadyI && !s.serializingQ && !s.csrBusy

/-- The instruction that leaves EX for MEM. -/
def exFires : Option DispatchPacket := (s.ex i).filter (s.exReady i)

def firesIs (f : DispatchPacket → Bool) : Bool := ((s.exFires i).map f).getD false

variable (d : DispatchPacket)

def brResult : Bool × BitVec 64 :=
  ((d.op p).br.map fun op => op.execute d.pc i.rs1DataI i.rs2DataI (d.op p).imm).getD
    (false, d.pc + 4)

def targetMisaligned : Bool :=
  (d.op p).control && (brResult (p := p) i d).1 && misaligned (brResult (p := p) i d).2

def instrMisaligned : Bool := misaligned d.pc || targetMisaligned (p := p) i d

def csrRead : CsrAnswer := s.csr.access (csrPort i (if d.csrSelected p then rvCsr d.instr else 0))

def csrUnitWriteRequired : Bool :=
  let funct3 := rvFunct3 d.instr
  funct3 == 0b001 || funct3 == 0b101 ||
    ((funct3 == 0b010 || funct3 == 0b011 || funct3 == 0b110 || funct3 == 0b111) &&
      rvRs1 d.instr != 0)

def csrIllegal : Bool :=
  !csrFunct3 (rvFunct3 d.instr) || !(s.csrRead i d).valid ||
    (csrUnitWriteRequired d && !(s.csrRead i d).writable)

def csrUnitWrite : Bool :=
  d.csrSelected p && csrFunct3 (rvFunct3 d.instr) && (s.csrRead i d).valid &&
    (s.csrRead i d).writable && csrUnitWriteRequired d

/-- The operand of the immediate forms is the register field. -/
def csrOperand : BitVec 64 :=
  if (rvFunct3 d.instr).getLsbD 2 then (rvRs1 d.instr).zeroExtend 64 else i.rs1DataI

def isMret : Bool := (d.op p).system && d.instr == instrMret

def isSret : Bool := (d.op p).system && d.instr == instrSret

def exReturnIllegal : Bool :=
  (isMret (p := p) d && s.csr.regs.privModeQ != privM) ||
    (isSret (p := p) d && !s.csr.regs.sretAllowedO) ||
    ((d.op p).system && isSfenceVma d.instr &&
      !(s.csr.regs.privModeQ == privM ||
        (s.csr.regs.privModeQ == privS && !s.csr.regs.mstatusQ.getLsbD mstatusTvm)))

def exIllegal : Bool :=
  (d.op p).illegal || ((d.op p).alu.isSome && i.aluIllegalI) ||
    (d.csrSelected p && s.csrIllegal i d) || s.exReturnIllegal d

/-- `ex_control_transfer_taken`. -/
def exTaken : Bool :=
  (d.op p).control && (brResult (p := p) i d).1 && !instrMisaligned (p := p) i d && !s.exIllegal i d

def exNextPc : BitVec 64 := if s.exTaken i d then (brResult (p := p) i d).2 else d.pc + 4

def redirects : Bool :=
  (d.op p).control && !instrMisaligned (p := p) i d && !s.exIllegal i d &&
    d.predictedTaken != s.exTaken i d

/-- The predictor's check of the target of the control that resolves. -/
def targetMispredicts : Bool :=
  (d.op p).control && d.predictedTaken && s.exTaken i d && s.exNextPc i d != s.predictedTargetQ

def exMemIn : ExMemPacket where
  pc := d.pc
  nextPc := s.exNextPc i d
  instr := d.instr
  wbData :=
    if d.csrSelected p then (s.csrRead i d).rdata
    else if (d.op p).br == some .jal || (d.op p).br == some .jalr then d.pc + 4
    else i.aluResultI
  lsuBase := i.rs1DataI
  lsuOffset := (d.op p).imm
  lsuStoreData := i.rs2DataI
  illegal := s.exIllegal i d
  instrMisaligned := instrMisaligned (p := p) i d
  instrBadaddr := if targetMisaligned (p := p) i d then (brResult (p := p) i d).2 else d.pc
  mret := isMret (p := p) d
  sret := isSret (p := p) d
  privMode := s.csr.regs.privModeQ
  accessFault := d.fault
  pageFault := d.pageFault

end Execute

/-! ### Flushes and the front end -/

section Control

def hardFlushRedirect : Bool := s.firesIs i fun d => s.redirects i d || s.targetMispredicts i d

/-- `except_vector_valid`. -/
def hardFlush : Bool :=
  s.resetPendingQ || s.flushExMem i || s.hardFlushRestart || s.hardFlushRedirect i

/-- Everything the CSR block sees in the cycle. -/
def csrInput : CsrInput :=
  { csrPort i (((s.ex i).map fun d => if d.csrSelected p then rvCsr d.instr else 0).getD 0) with
    csrWriteI := s.firesIs i (s.csrUnitWrite i)
    csrOpI := ((s.ex i).map fun d => rvFunct3 d.instr).getD 0
    csrWdataI := ((s.ex i).map fun d => if s.csrUnitWrite i d then csrOperand i d else 0).getD 0
    trapEnterI := s.trapEnter i
    trapInterruptI := s.irqTake i
    trapCauseI := s.trapCause i
    trapPcI := s.trapPc i
    trapTvalI := s.trapTval i
    mretI := s.retires MemWbPacket.isMret
    sretI := s.retires MemWbPacket.isSret
    retireCountI := if s.retires MemWbPacket.arch then 1 else 0 }

def trapVector : BitVec 64 := s.csr.regs.trapVectorO (s.csrInput i)

/-- `except_vector_target`. -/
def vectorTarget : BitVec 64 :=
  if s.resetPendingQ then p.resetVector
  else if s.hardFlushTrap || s.irqTake i then s.trapVector i
  else if s.retires MemWbPacket.isMret then s.csr.regs.mepcQ
  else if s.retires MemWbPacket.isSret then s.csr.regs.sepcQ
  else if s.hardFlushRestart then s.wbPacket.nextPc
  else ((s.exFires i).map (s.exNextPc i)).getD 0

/-- `if_id_out_*`. -/
def ifId : Option FetchPacket := Stage.out s.ifIdQ (s.hardFlush i)

def ifIdIs (f : FetchPacket → Bool) : Bool := ((s.ifId i).map f).getD false

/-- `exec_accept`: the instruction in EX goes, as the dispatch register sees it. -/
def execAccept : Bool :=
  (s.dispatchQ.map fun d => s.exReady i d && s.unitReady i d.instr).getD false

def canDispatch : Bool :=
  (s.dispatchQ.isNone || s.execAccept i) &&
    s.unitReady i (((s.ifId i).map FetchPacket.instr).getD 0) && i.regMapCanAllocateI

def decodeClear : Bool := s.flushIdEx i || (s.canDispatch i && !s.csrActiveQ && !s.fenceActiveQ)

def ifIdOutClear : Bool := s.decodeClear i && !i.bpDecodeStallI

/-- The instruction that enters the dispatch register. -/
def dispatches : Option FetchPacket :=
  if s.decodeClear i && !s.flushIdEx i && !i.bpDecodeStallI then s.ifId i else none

/-- `bp_branch_allocate`: a control leaves decode with its prediction. -/
def branchAllocate : Bool :=
  s.ifIdIs i (fun f => (p.decode.decodeTop f.instr).control) && !s.wfiSleepQ && s.ifIdOutClear i

def predictRedirect : Bool := s.branchAllocate i && i.predictionTakenI

def decodeEbreakAccept : Bool := s.ifIdIs i (fun f => f.instr == instrEbreak) && s.ifIdOutClear i

def drainFetch : Bool := s.decodeEbreakAccept i || s.haltedQ

def invalidateFetch : Bool :=
  s.resetPendingQ || s.drainFetch i || s.flushExMem i || s.hardFlushRestart

def redirectFetch : Bool := s.hardFlushRedirect i || s.predictRedirect i

def flushFetch : Bool := s.invalidateFetch i || s.redirectFetch i

def ifIdInClear : Bool := Stage.inClear s.ifIdQ (s.hardFlush i) (s.ifIdOutClear i)

/-- The input of the bus, with the fetch client. -/
def busInput : CoreBusInput :=
  let priv := s.csr.regs.privModeQ
  { s.busPort i with
    fetchValidI := s.fetch.reqActiveQ
    fetchCancelI := s.flushFetch i
    fetchI :=
      { addr := s.fetch.reqPcQ
        priv := priv
        vmMode := if priv == privM then satpModeBare else s.csr.satp.satpQ.extractLsb' 60 4
        asid := s.csr.satp.satpQ.extractLsb' 44 16
        rootPpn := s.csr.satp.satpQ.extractLsb' 0 44
        sum := s.csr.regs.mstatusQ.getLsbD mstatusSum
        mxr := s.csr.regs.mstatusQ.getLsbD mstatusMxr } }

def fetchBusReady : Bool := s.bus.bus.fetchReadyO p.bus (s.bus.busInput (s.busInput i))

/-- The input of the fetch unit without the address that it may take. -/
def fetchPort : FetchInput where
  flushI := s.invalidateFetch i
  redirectI := s.redirectFetch i
  redirectReplayI := s.predictRedirect i && i.predictionFastI
  redirectPcI := i.predictionTargetI
  pcValidI := false
  pcI := s.pcQ
  memReadyI := s.fetchBusReady i
  memRdataI := i.reqRdataI
  memFaultI := s.fetchBusReady i &&
    (s.bus.bus.translationAccessFault p.bus (s.bus.busInput (s.busInput i)) ||
      (s.bus.bus.accessComplete (s.bus.busInput (s.busInput i)) &&
        (s.bus.busInput (s.busInput i)).reqErrorI))
  memPageFaultI := s.fetchBusReady i &&
    s.bus.bus.translationPageFault p.bus (s.bus.busInput (s.busInput i))
  decodeReadyI := s.ifIdInClear i && !i.bpFetchStallI

def fetchPcValid : Bool :=
  s.fetch.pcReadyO (s.fetchPort i) && !s.haltedQ && !s.wfiSleepQ && !s.haltPendingQ &&
    !s.decodeEbreakAccept i && !i.bpFetchStallI && !s.hardFlush i && !s.translationBarrierBusy

def fetchInput : FetchInput := { s.fetchPort i with pcValidI := s.fetchPcValid i }

/-- The whole input of the bus. -/
def busEdge : CoreBusInput :=
  { s.busInput i with
    fetchNextValidI := s.fetch.memNextValidO (s.fetchInput i)
    fetchNextAddrI := s.pcQ }

/-- What fetch puts into IF/ID. -/
def fetchOut : Option FetchPacket :=
  if s.fetch.decodeValidO (s.fetchInput i) && !i.bpFetchStallI then
    some (s.fetch.decodeO (s.fetchInput i))
  else none

end Control

/-! ### One cycle -/

section Next

/-- The next line of the stream; the upper half of a line is one instruction. -/
def pcAfter (pc : BitVec 64) : BitVec 64 := pc + if pc.getLsbD 2 then 4 else 8

def pcNext : BitVec 64 :=
  if s.hardFlush i then s.vectorTarget i
  else if s.predictRedirect i then
    if s.fetch.redirectReplayO (s.fetchInput i) then pcAfter i.predictionTargetI
    else i.predictionTargetI
  else if s.fetchPcValid i then pcAfter s.pcQ
  else s.pcQ

def dispatchIn (f : FetchPacket) : DispatchPacket where
  pc := f.pc
  instr := f.instr
  predictedTaken := i.predictionTakenI
  fault := f.fault
  pageFault := f.pageFault

def dispatchNext : Option DispatchPacket :=
  if s.flushIdEx i then none
  else if s.decodeClear i then (s.dispatches i).map (dispatchIn i)
  else if s.execAccept i then none
  else s.dispatchQ

def csrActiveNext : Bool :=
  if s.flushIdEx i then false
  else if ((s.dispatches i).map fun f =>
      (p.decode.decodeTop f.instr).system && rvFunct3 f.instr != 0b000).getD false then true
  else s.csrActiveQ && !s.retires MemWbPacket.isCsr

def fenceActiveNext : Bool :=
  if s.flushIdEx i then false
  else if ((s.dispatches i).map fun f => (p.decode.decodeTop f.instr).fence).getD false then true
  else s.fenceActiveQ && !s.retires MemWbPacket.isFence

def serializingNext : Bool :=
  if s.flushExMem i then false
  else if s.firesIs i (DispatchPacket.serializing p) then true
  else s.serializingQ && s.retiring.isNone

/-- What MEM lets go. -/
def memOut : Option MemWbPacket := ((s.mem i).filter (s.memoryComplete i)).map (s.memWbIn i)

def step : ScalarState p where
  fetch := s.fetch.step (s.fetchInput i)
  ifIdQ := Stage.next s.ifIdQ (s.hardFlush i) (s.ifIdOutClear i) (s.fetchOut i)
  dispatchQ := s.dispatchNext i
  csrActiveQ := s.csrActiveNext i
  fenceActiveQ := s.fenceActiveNext i
  exMemQ :=
    Stage.next s.exMemQ (s.flushExMem i) (s.exMemOutClear i) ((s.exFires i).map (s.exMemIn i))
  memWbQ := Stage.next s.memWbQ false (!s.csrBusy) (s.memOut i)
  serializingQ := s.serializingNext i
  amo := s.amo.step (s.amoInput i)
  pcQ := s.pcNext i
  haltedQ := s.haltedQ || (s.memWbQ.map MemWbPacket.halt).getD false
  wfiSleepQ :=
    if s.wfiSleepQ then !s.csrWfiWake i
    else s.retires MemWbPacket.isWfi && !s.csrWfiWake i
  haltPendingQ :=
    !(s.memWbQ.map MemWbPacket.halt).getD false && !s.hardFlush i &&
      (s.decodeEbreakAccept i || s.haltPendingQ)
  resetPendingQ := false
  redirectDispatchFlushQ := s.hardFlushRedirect i
  predictedTargetQ := if s.branchAllocate i then i.predictionTargetI else s.predictedTargetQ
  csr := s.csr.step (s.csrInput i)
  bus := s.bus.step p.bus (s.busEdge i)

/-- `powerUp` is what the page-table walker keeps through reset. -/
def reset (powerUp : PtwState) : ScalarState p where
  fetch := .flushed
  ifIdQ := none
  dispatchQ := none
  csrActiveQ := false
  fenceActiveQ := false
  exMemQ := none
  memWbQ := none
  serializingQ := false
  amo := .reset
  pcQ := 0
  haltedQ := false
  wfiSleepQ := false
  haltPendingQ := false
  resetPendingQ := true
  redirectDispatchFlushQ := false
  predictedTargetQ := 0
  csr := .reset
  bus := .reset powerUp

end Next

end ScalarState

end OpenRV64
