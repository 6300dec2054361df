/-
The commit path of the core: the retirement queue with its records, the commit logic and
the CSR block, with the traps, interrupts and flushes that the core derives from them.

The core ties the extension ports of the queue and of the CSR block off.
-/
import OpenRV64.CsrWrite
import OpenRV64.Retire
import OpenRV64.RetireExact

namespace OpenRV64

open CsrState
open CsrAnswer (valid writable)
open RetireEntry (seq)

structure CommitParams where
  queue : RetireQueueParams
  csr : CsrParams
  enableWfiSleep : Bool
  noExtension : csr.enableExtension = false

/-- A store that failed after it had retired. -/
structure StoreFault where
  cause : BitVec 5
  pc : BitVec 64
  addr : BitVec 64

structure CommitState (p : CommitParams) where
  retire : RetireTracked p.queue
  allocQ : ℕ → RetireRecord
  resultQ : ℕ → RetireResult
  csr : CsrState p.csr
  asyncStoreFaultPendingQ : Bool
  asyncStoreFaultQ : StoreFault
  lastArchNextPcQ : BitVec 64
  wfiSleepQ : Bool
  pcQ : BitVec 64

/-- `completeSeq` is the allocation that a completion port answers, which the queue itself
cannot see. -/
structure CommitInput (p : CommitParams) where
  allocValidI : Fin 3 → Bool
  allocCompleteI : Fin 3 → Bool
  allocRecordI : Fin 3 → RetireRecord
  allocResultI : Fin 3 → RetireResult
  completeValidI : Fin 3 → Bool
  completeIdI : Fin 3 → BitVec p.queue.idWidth
  completeSlotI : Fin 3 → ℕ
  completeResultI : Fin 3 → RetireResult
  completeSeq : Fin 3 → ℕ
  squashYoungerI : Bool
  squashIdI : BitVec p.queue.idWidth
  squashSlotI : ℕ
  squashAllI : Bool
  csrAddrI : BitVec 12
  asyncStoreFaultI : Bool
  storeFaultI : StoreFault
  fetchPcI : BitVec 64
  perfEventsI : BitVec cmuEventCount
  irqSoftwareI : Bool
  irqTimerI : Bool
  irqExternalI : Bool
  irqSSoftwareI : Bool
  irqSTimerI : Bool
  irqSExternalI : Bool

/-- The last lane with a property, whose assignment wins. -/
def lastLane (f : Fin 3 → Bool) : Option (Fin 3) :=
  if f 2 then some 2 else if f 1 then some 1 else if f 0 then some 0 else none

namespace CommitState

variable {p : CommitParams} (s : CommitState p) (i : CommitInput p)

/-! ### Retirement and the CSR port -/

/-- The commit logic before the CSR block has answered.  A delayed store failure holds the
lanes back. -/
def request : RetireIn where
  queueValidI k := !s.asyncStoreFaultPendingQ && s.retire.queue.retireValidO k
  lane k := ⟨s.allocQ (s.retire.queue.retireSlotO k), s.resultQ (s.retire.queue.retireSlotO k)⟩
  csrWriteReadyI := false
  irqPendingI := false
  irqCauseI := 0

/-- The request at the CSR block.  Without one the port reads for the execution stage. -/
def csrPort : CsrInput where
  csrAddrI := if s.request.csrWriteO then s.request.csrAddrO else i.csrAddrI
  csrWriteI := s.request.csrWriteO
  csrOpI := s.request.csrOpO
  csrWdataI := s.request.csrWdataO
  extensionCsrSelectedI := false
  extensionCsrValidI := false
  extensionCsrWritableI := false
  extensionCsrRdataI := 0
  extensionCsrWriteReadyI := true
  extensionMisaBitsI := 0
  extensionMstatusBitsI := 0
  extensionSstatusBitsI := 0
  trapEnterI := false
  trapInterruptI := false
  trapCauseI := 0
  trapPcI := 0
  trapTvalI := 0
  mretI := false
  sretI := false
  retireCountI := 0
  perfEventsI := i.perfEventsI
  irqSoftwareI := i.irqSoftwareI
  irqTimerI := i.irqTimerI
  irqExternalI := i.irqExternalI
  irqSSoftwareI := i.irqSSoftwareI
  irqSTimerI := i.irqSTimerI
  irqSExternalI := i.irqSExternalI

def csrWriteReady : Bool := s.csr.csrWriteReadyO (s.csrPort i)

def csrIrqPending : Bool := s.csr.regs.irqPendingO (s.csrPort i)

/-- The commit logic with the answers of the CSR block. -/
def retireIn : RetireIn :=
  { s.request with
    csrWriteReadyI := s.csrWriteReady i
    irqPendingI := s.csrIrqPending i
    irqCauseI := s.csr.regs.irqCauseO (s.csrPort i) }

/-! ### Control -/

/-- A delayed store failure traps at the next address to commit. -/
def asyncAbortPc : BitVec 64 :=
  if s.lastArchNextPcQ != 0 then s.lastArchNextPcQ else s.asyncStoreFaultQ.pc + 4

def backendHalt : Bool := !s.asyncStoreFaultPendingQ && (s.retireIn i).haltO

def backendException : Bool := s.asyncStoreFaultPendingQ || (s.retireIn i).exceptionO

def backendIrq : Bool := !s.asyncStoreFaultPendingQ && (s.retireIn i).irqO

def backendMret : Bool := !s.asyncStoreFaultPendingQ && (s.retireIn i).mretO

def backendSret : Bool := !s.asyncStoreFaultPendingQ && (s.retireIn i).sretO

def backendFenceI : Bool := !s.asyncStoreFaultPendingQ && RetireIn.fenceIO (s.retireIn i)

def backendSfenceVma : Bool := !s.asyncStoreFaultPendingQ && (s.retireIn i).sfenceVmaO

def controlTrap : Bool := s.backendException i && !s.backendHalt i

def wfiIrqTake : Bool := s.wfiSleepQ && s.csrIrqPending i

def backendWfi : Bool :=
  p.enableWfiSleep && RetireIn.anyLane (s.retireIn i).retireArchO &&
    (s.retireIn i).instrO == (0x10500073 : BitVec 32)

def backendSatpWrite : Bool :=
  s.request.csrWriteO && s.csrWriteReady i && s.request.csrAddrO == csrSatp

def backendPmpUpdate : Bool :=
  s.request.csrWriteO && s.csrWriteReady i &&
    (s.request.csrAddrO == csrPmpcfg0 || s.request.csrAddrO == csrPmpcfg2 ||
      (decide (csrPmpaddr0 ≤ s.request.csrAddrO) && decide (s.request.csrAddrO ≤ csrPmpaddr0 + 15)))

def controlRestart : Bool :=
  s.backendFenceI i || s.backendSfenceVma i || s.backendSatpWrite i ||
    s.backendPmpUpdate i || s.backendWfi i

def trapEnter : Bool := s.controlTrap i || s.backendIrq i || s.wfiIrqTake i

def controlFlush : Bool := s.trapEnter i || s.backendMret i || s.backendSret i || s.controlRestart i

def trapCause : BitVec 5 :=
  if s.wfiIrqTake i then s.csr.regs.irqCauseO (s.csrPort i)
  else if s.asyncStoreFaultPendingQ then s.asyncStoreFaultQ.cause
  else (s.retireIn i).causeO

def trapPc : BitVec 64 :=
  if s.wfiIrqTake i then s.pcQ
  else if s.backendIrq i then (s.retireIn i).nextPcO
  else if s.asyncStoreFaultPendingQ then s.asyncAbortPc
  else (s.retireIn i).pcO

def trapTval : BitVec 64 :=
  if s.backendIrq i || s.wfiIrqTake i then 0
  else if s.asyncStoreFaultPendingQ then s.asyncStoreFaultQ.addr
  else (s.retireIn i).tvalO

/-- Everything the CSR block sees in the cycle. -/
def csrInput : CsrInput :=
  { s.csrPort i with
    trapEnterI := s.trapEnter i
    trapInterruptI := s.backendIrq i || s.wfiIrqTake i
    trapCauseI := s.trapCause i
    trapPcI := s.trapPc i
    trapTvalI := s.trapTval i
    mretI := s.backendMret i
    sretI := s.backendSret i
    retireCountI := BitVec.ofNat 2 (s.retireIn i).retireCountO }

/-- Where fetching goes on after a flush. -/
def vectorTarget : BitVec 64 :=
  if s.trapEnter i then s.csr.regs.trapVectorO (s.csrInput i)
  else if s.backendMret i then s.csr.regs.mepcQ
  else if s.backendSret i then s.csr.regs.sepcQ
  else (s.retireIn i).nextPcO

/-! ### One cycle -/

/-- What the queue sees.  Without a speculation window a resolved branch flushes it. -/
def queueInput : RetireInput p.queue where
  pins :=
    { flushI := s.controlFlush i || i.squashAllI
      squashYoungerI := i.squashYoungerI
      squashIdI := i.squashIdI
      squashSlotI := i.squashSlotI
      allocValidI := i.allocValidI
      allocCompleteI := i.allocCompleteI
      completeValidI := i.completeValidI
      completeIdI := i.completeIdI
      completeSlotI := i.completeSlotI
      extensionCompleteValidI := false
      extensionCompleteIdI := 0
      extensionCompleteSlotI := 0
      retireAcceptI := (s.retireIn i).queueAcceptO }
  completeSeq := i.completeSeq
  extensionCompleteSeq := 0

/-- The records: completions are written first, and an allocation owns its slot. -/
def allocStep (slot : ℕ) : RetireRecord :=
  match s.retire.queue.allocLane (s.queueInput i).pins slot with
  | some lane => i.allocRecordI lane
  | none => s.allocQ slot

def completionStep (slot : ℕ) : RetireResult :=
  match lastLane fun port =>
      s.retire.queue.completeAcceptO (s.queueInput i).pins port && i.completeSlotI port == slot with
  | some port => i.completeResultI port
  | none => s.resultQ slot

def resultStep (slot : ℕ) : RetireResult :=
  match lastLane fun lane => s.retire.queue.allocFire (s.queueInput i).pins lane &&
      s.retire.queue.allocSlot lane == slot && i.allocCompleteI lane with
  | some lane => i.allocResultI lane
  | none => s.completionStep i slot

/-- One clock edge.  The core sleeps after a WFI until an interrupt is pending; the front
end stands still while it sleeps, and the retirement queue is empty, so that withholding
its clock changes nothing. -/
def step : CommitState p where
  retire := (retireTracked p.queue).step s.retire (s.queueInput i)
  allocQ := s.allocStep i
  resultQ := s.resultStep i
  csr := s.csr.step (s.csrInput i)
  asyncStoreFaultPendingQ :=
    if i.asyncStoreFaultI then true
    else if s.controlFlush i || s.asyncStoreFaultPendingQ then false
    else s.asyncStoreFaultPendingQ
  asyncStoreFaultQ := if i.asyncStoreFaultI then i.storeFaultI else s.asyncStoreFaultQ
  lastArchNextPcQ :=
    if RetireIn.anyLane (s.retireIn i).retireArchO then (s.retireIn i).nextPcO
    else s.lastArchNextPcQ
  wfiSleepQ :=
    if s.wfiSleepQ then !s.csr.regs.wfiWakeO (s.csrPort i)
    else s.backendWfi i && !s.csr.regs.wfiWakeO (s.csrPort i)
  pcQ :=
    if s.controlFlush i then s.vectorTarget i
    else if s.wfiSleepQ then s.pcQ
    else i.fetchPcI

theorem clientAnswer_congr :
    (s.csr.clientAnswer (s.csrInput i)).valid = (s.csr.clientAnswer (s.csrPort i)).valid ∧
      (s.csr.clientAnswer (s.csrInput i)).writable =
        (s.csr.clientAnswer (s.csrPort i)).writable := by
  constructor
  · simp only [clientAnswer, CmuState.access, apply_ite valid]
    rfl
  · simp only [clientAnswer, CmuState.access, apply_ite writable]
    rfl

/-- Whether an access is let through does not depend on the rest of the cycle. -/
theorem access_congr : (s.csr.access (s.csrInput i)).valid = (s.csr.access (s.csrPort i)).valid ∧
      (s.csr.access (s.csrInput i)).writable = (s.csr.access (s.csrPort i)).writable := by
  obtain ⟨hval, hwritable⟩ := clientAnswer_congr s i
  constructor
  · simp only [access, decoded, apply_ite valid, hval]
    rfl
  · simp only [access, decoded, apply_ite writable, hwritable]
    rfl

theorem csrWriteReady_eq : s.csr.csrWriteReadyO (s.csrInput i) = s.csrWriteReady i := by
  obtain ⟨hval, hwritable⟩ := access_congr s i
  have hacc : s.csr.csrWriteAccept (s.csrInput i) = s.csr.csrWriteAccept (s.csrPort i) := by
    rw [csrWriteAccept, hval, hwritable]
    rfl
  have hpmp : s.csr.pmpCsrWrite (s.csrInput i) = s.csr.pmpCsrWrite (s.csrPort i) := by
    rw [pmpCsrWrite, hacc]
    rfl
  have hport : s.csr.pmp.csrWriteReadyO (s.csr.pmpPort (s.csrInput i)) =
      s.csr.pmp.csrWriteReadyO (s.csr.pmpPort (s.csrPort i)) := by
    rw [pmpPort, pmpPort, hpmp]
    rfl
  rw [csrWriteReady, csrWriteReadyO, csrWriteReadyO, hport, satpWriteRequest, hpmWriteRequest, hacc]
  rfl

end CommitState

/-! ## What has been committed -/

/-- A CSR write that was stored: the instruction that requested it, and what the register
read as when the request began. -/
structure CsrStore where
  seq : Option ℕ
  old : BitVec 64
  write : CsrPerform

/-- The committed history.  Instructions are numbered by their allocation. -/
structure CommitTrace where
  consumed : List ℕ
  dropped : List ℕ
  effects : List CommitEffect
  instret : ℕ
  csrStores : List CsrStore
  csrOld : BitVec 64

/-- The commit path next to the history of what it did. -/
structure CommitTracked (p : CommitParams) where
  core : CommitState p
  trace : CommitTrace

namespace CommitTracked

variable {p : CommitParams} (t : CommitTracked p) (i : CommitInput p)

/-- The instructions in flight, the oldest first. -/
def live : List RetireEntry := t.core.retire.ledger.live

/-- The entries accepted in this cycle. -/
def accepted : List RetireEntry := t.live.take (t.core.retireIn i).accepted.length

/-- The entries a flush or a squash removes in this cycle. -/
def drops : List RetireEntry :=
  if (t.core.queueInput i).pins.flushI then t.live.drop (t.core.retireIn i).accepted.length
  else t.core.retire.ledger.squashed (t.core.retire.queue.event (t.core.queueInput i))

/-- The instruction whose CSR request is at the CSR block. -/
def requester : Option ℕ :=
  if t.core.request.csrWriteO then (t.live[t.core.request.csrLane.val]?).map RetireEntry.seq
  else none

/-- What the register of the current request read as in its first cycle. -/
def csrOld : BitVec 64 :=
  if t.core.csr.Idle then (t.core.csr.access (t.core.csrInput i)).rdata else t.trace.csrOld

def traceStep : CommitTrace where
  consumed := t.trace.consumed ++ (t.accepted i).map RetireEntry.seq
  dropped := t.trace.dropped ++ (t.drops i).map RetireEntry.seq
  effects := t.trace.effects ++ (t.core.retireIn i).effectsO
  instret := t.trace.instret + (t.core.retireIn i).retireCountO
  csrStores := t.trace.csrStores ++
    (t.core.csr.performed (t.core.csrInput i)).map fun e => ⟨t.requester, t.csrOld i, e⟩
  csrOld := t.csrOld i

def step : CommitTracked p := ⟨t.core.step i, t.traceStep i⟩

/-- What reset leaves behind; the record banks and the identifiers keep what they held. -/
def Reset : Prop :=
  (∃ s : RetireQueueState p.queue, t.core.retire = ⟨s.reset, .empty⟩) ∧
    t.core.csr = reset ∧ t.core.asyncStoreFaultPendingQ = false ∧
    t.core.wfiSleepQ = false ∧ t.core.lastArchNextPcQ = 0 ∧ t.trace = ⟨[], [], [], 0, [], 0⟩

end CommitTracked

/-- The commit path from reset. -/
def commitPath (p : CommitParams) : Sync.Circuit (CommitTracked p) (CommitInput p) where
  Init := CommitTracked.Reset
  step := CommitTracked.step

end OpenRV64
