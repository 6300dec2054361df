/-
The issue window next to the retirement queue, wired as the three-pipe back end wires
them, with the program order that neither of them sees.
-/
import OpenRV64.DispatchWindow
import OpenRV64.LatestWriter
import OpenRV64.RetireExact

namespace OpenRV64

open ModularAge LatestWriter

/-- The retirement queue beside a window.  Its extension port is tied off. -/
def WindowParams.retireQueue (p : WindowParams) : RetireQueueParams where
  depth := p.depth
  idWidth := p.idWidth
  enableExtensionCompletion := false
  depth_pos := by
    rw [← p.depth_pow]
    exact Nat.two_pow_pos _
  depth_lt := p.depth_lt

theorem WindowParams.idWidth_pos (p : WindowParams) : 0 < p.idWidth := p.retireQueue.idWidth_pos

structure BackendState (p : WindowParams) where
  window : WindowState p
  queue : RetireQueueState p.retireQueue

/-- What the execution pipes, decode and retirement give to the two in one cycle, and
the allocation that each completion port answers, which neither of them can see. -/
structure BackendInput (p : WindowParams) where
  flushI : Bool
  squashFrontendI : Bool
  translationBypassI : Bool
  decodeValidI : Fin 3 → Bool
  decodePayloadI : Fin 3 → IssuePayload
  decodeUsesI : Fin 3 → Operand → Bool
  gprReadDataI : Fin 3 → Operand → BitVec 64
  pipeReadyI : ExecPipe → Bool
  completeValidI : Fin 3 → Bool
  completeIdI : Fin 3 → BitVec p.idWidth
  completeSlotI : Fin 3 → Nat
  completePayloadI : Fin 3 → CompletePayload
  completeSeq : Fin 3 → Nat
  /-- EX1 resolves a conditional branch. -/
  branchResolvedI : Bool
  /-- The instruction that EX1 takes in this cycle. -/
  redirectIdI : BitVec p.idWidth
  redirectSlotI : Nat
  retireAcceptI : Fin 3 → Bool

namespace BackendInput

variable {p : WindowParams} (i : BackendInput p)

def selectiveSquash : Bool := i.squashFrontendI && p.enableSpeculation

/-- Everything in flight goes. -/
def clears : Bool := i.flushI || (i.squashFrontendI && !p.enableSpeculation)

/-- A completion port hands out a value for instruction number `n`. -/
def broadcasts (n : Nat) (port : Fin 3) : Bool :=
  i.completeValidI port && (i.completePayloadI port).safe && i.completeSeq port == n

/-- The value that this cycle hands out for instruction number `n`. -/
def answer (n : Nat) : Option (BitVec 64) :=
  ((List.finRange 3).find? (i.broadcasts n)).map fun port => (i.completePayloadI port).data

end BackendInput

namespace BackendState

variable {p : WindowParams} (s : BackendState p) (i : BackendInput p)

/-- Room for a whole group.  The subtraction is one of unsigned words. -/
def allocationReady : Bool := decide (s.queue.countQ.toNat ≤ (BitVec.ofNat 32 p.depth - 3).toNat)

def nextRetireIdO : BitVec p.idWidth :=
  if s.queue.validAt s.queue.headQ then s.queue.idQ s.queue.headQ else s.queue.nextAllocIdQ

def windowInput : WindowInput p where
  flushI := i.flushI
  squashFrontendI := i.squashFrontendI
  squashIdI := i.redirectIdI
  translationBypassI := i.translationBypassI
  decodeValidI := i.decodeValidI
  decodePayloadI := i.decodePayloadI
  decodeUsesI := i.decodeUsesI
  gprReadDataI := i.gprReadDataI
  allocationReadyI := s.allocationReady
  allocationIdI := s.queue.allocId
  allocationSlotI := s.queue.allocSlot
  pipeReadyI := i.pipeReadyI
  completionValidI := i.completeValidI
  completionIdI := i.completeIdI
  completionPayloadI := i.completePayloadI
  conditionalResolveValidI := i.branchResolvedI
  conditionalResolveIdI := i.redirectIdI
  conditionalResolveSlotI := i.redirectSlotI
  retireValidI := i.retireAcceptI
  retireIdI := s.queue.retireIdO
  retireSlotI := s.queue.retireSlotO
  nextRetireIdI := s.nextRetireIdO
  nextRetireSlotI := s.queue.headQ

def queueInput : RetireQueueInput p.retireQueue where
  flushI := i.clears
  squashYoungerI := i.selectiveSquash
  squashIdI := i.redirectIdI
  squashSlotI := i.redirectSlotI
  allocValidI := s.window.decodeFire (s.windowInput i)
  allocCompleteI := fun _ => false
  completeValidI := i.completeValidI
  completeIdI := i.completeIdI
  completeSlotI := i.completeSlotI
  extensionCompleteValidI := false
  extensionCompleteIdI := 0
  extensionCompleteSlotI := 0
  retireAcceptI := i.retireAcceptI

def step : BackendState p where
  window := s.window.step (s.windowInput i)
  queue := s.queue.step (s.queueInput i)

/-- The window entry that EX1 takes is the one that the redirect outputs name. -/
def ex1Takes : Bool :=
  s.window.pipeEntry (s.windowInput i) .ex1 == some i.redirectSlotI && i.pipeReadyI .ex1 &&
    (s.window.entry i.redirectSlotI).id == i.redirectIdI

end BackendState

/-! ## Program order -/

/-- The register that an instruction writes. -/
def IssuePayload.target (x : IssuePayload) : Option (BitVec 5) :=
  if x.writesGpr then some x.rd else none

/-- What decode sees to: a conditional branch writes no register, and neither control
nor a faulting instruction is a memory operation. -/
structure IssuePayload.Decoded (x : IssuePayload) : Prop where
  branch : x.branch = true → x.regWrite = false
  hard : x.isHard = true → x.isMem = false

instance decidableForallOperand {P : Operand → Prop} [∀ o, Decidable (P o)] :
    Decidable (∀ o, P o) :=
  decidable_of_iff (P .rs1 ∧ P .rs2)
    ⟨fun h o => match o with
      | .rs1 => h.1
      | .rs2 => h.2, fun h => ⟨h .rs1, h .rs2⟩⟩

instance (x : IssuePayload) : Decidable x.Decoded :=
  decidable_of_iff ((x.branch = true → x.regWrite = false) ∧ (x.isHard = true → x.isMem = false))
    ⟨fun h => ⟨h.1, h.2⟩, fun h => ⟨h.branch, h.hard⟩⟩

/-- The hardware next to the instructions in flight: the program so far, the values
handed out and the architectural registers. -/
structure BackendTracked (p : WindowParams) extends BackendState p where
  ledger : RetireLedger
  program : Nat → IssuePayload
  uses : Nat → Operand → Bool
  result : Nat → Option (BitVec 64)
  committed : BitVec 5 → BitVec 64

namespace BackendTracked

variable {p : WindowParams} (t : BackendTracked p) (i : BackendInput p)

abbrev retire : RetireTracked p.retireQueue := ⟨t.queue, t.ledger⟩

abbrev retireInput : RetireInput p.retireQueue := ⟨t.queueInput i, i.completeSeq, 0⟩

/-- The instructions in flight as their readers see them. -/
def flight : Flight (BitVec 5) (BitVec 64) where
  live := {n | ∃ e ∈ t.ledger.live, e.seq = n}
  writes n := (t.program n).target
  result := t.result
  committed := t.committed

/-- The instructions that leave in this cycle, the oldest first. -/
def leaving : List RetireEntry := t.ledger.live.take (t.queue.retireCount (t.queueInput i))

/-- The instructions in flight with this cycle's values and without what retires. -/
def retired : Flight (BitVec 5) (BitVec 64) :=
  (t.leaving i).foldl (fun f e => f.commit e.seq) (t.flight.answer i.answer)

/-- The lane that admits instruction number `n`. -/
def admitLane (n : Nat) : Option (Fin 3) :=
  (List.finRange 3).find? fun lane =>
    t.window.decodeFire (t.windowInput i) lane && n == t.ledger.next + lane

end BackendTracked

/-- A window in which nothing is resident. -/
def WindowState.reset (p : WindowParams) : WindowState p where
  entry := fun _ =>
    { valid := false
      issued := false
      id := 0
      payload := IssuePayload.zero
      src := fun _ => ⟨false, false, 0, 0⟩
      resultReady := false
      resultData := 0 }
  owner := fun _ => ⟨false, false, 0, 0⟩
  countQ := 0

/-- The two from reset, with their program order. -/
def issueBackend (p : WindowParams) : Sync.Circuit (BackendTracked p) (BackendInput p) where
  Init t :=
    t.window = .reset p ∧ (∃ q : RetireQueueState p.retireQueue, t.queue = q.reset) ∧
      t.ledger = .empty ∧ t.result = fun _ => none
  step t i :=
    { t.toBackendState.step i with
      ledger := ((retireTracked p.retireQueue).step t.retire (t.retireInput i)).ledger
      program := fun n => match t.admitLane i n with
        | some lane => i.decodePayloadI lane
        | none => t.program n
      uses := fun n => match t.admitLane i n with
        | some lane => i.decodeUsesI lane
        | none => t.uses n
      result := fun n => (i.answer n).or (t.result n)
      committed := (t.retired i).committed }

namespace BackendTracked

variable {p : WindowParams} (t : BackendTracked p) (i : BackendInput p)

theorem program_step (n : Nat) : ((issueBackend p).step t i).program n =
      (t.admitLane i n).elim (t.program n) i.decodePayloadI := by
  cases h : t.admitLane i n <;> simp [issueBackend, h]

theorem uses_step (n : Nat) :
    ((issueBackend p).step t i).uses n = (t.admitLane i n).elim (t.uses n) i.decodeUsesI := by
  cases h : t.admitLane i n <;> simp [issueBackend, h]

theorem window_next : ((issueBackend p).step t i).window = t.window.step (t.windowInput i) := rfl

theorem result_next (n : Nat) :
    ((issueBackend p).step t i).result n = (i.answer n).or (t.result n) := rfl

/-! ## What the surroundings promise -/

/-- A completion answers an instruction that was allocated and, while it is in flight,
issued; the value it carries is the only one for that instruction, and is for the
register that it writes. -/
structure Answers (port : Fin 3) : Prop where
  allocated : i.completeValidI port = true → i.completeSeq port < t.ledger.next
  named : i.completeValidI port = true → i.completeIdI port = idOf p.idWidth (i.completeSeq port)
  issued : i.completeValidI port = true → ∀ e ∈ t.ledger.live, e.seq = i.completeSeq port →
    (t.window.entry e.slot).issued = true
  writes : i.broadcasts (i.completeSeq port) port = true →
    (t.program (i.completeSeq port)).regWrite = true ∧
      (i.completePayloadI port).rd = (t.program (i.completeSeq port)).rd
  fresh : i.broadcasts (i.completeSeq port) port = true → t.result (i.completeSeq port) = none
  single : ∀ other, i.broadcasts (i.completeSeq port) port = true →
    i.broadcasts (i.completeSeq port) other = true → other = port

/-- What decode, the pipes, the register file and retirement promise about a cycle. -/
structure Promises : Prop where
  decodePrefix : (i.decodeValidI 1 = true → i.decodeValidI 0 = true) ∧
    (i.decodeValidI 2 = true → i.decodeValidI 1 = true)
  decoded : ∀ lane, i.decodeValidI lane = true → (i.decodePayloadI lane).Decoded
  retireAvailable : ∀ lane, i.retireAcceptI lane = true → t.queue.retireValidO lane = true
  retirePrefix : (i.retireAcceptI 1 = true → i.retireAcceptI 0 = true) ∧
    (i.retireAcceptI 2 = true → i.retireAcceptI 1 = true)
  /-- A selective recovery is that of the control which EX1 takes in the same cycle. -/
  redirect : i.selectiveSquash = true → t.ex1Takes i = true
  resolve : i.branchResolvedI = true →
    t.ex1Takes i = true ∧ (t.window.entry i.redirectSlotI).payload.branch = true
  answers : ∀ port, t.Answers i port
  /-- An instruction without the value it should write retires under a flush. -/
  values : i.clears = true ∨ ∀ e ∈ t.leaving i, (t.program e.seq).target ≠ none →
    t.result e.seq ≠ none
  /-- The register file reads what is committed, this cycle's retirements included. -/
  registers : ∀ lane o, (i.decodePayloadI lane).rsAddr o ≠ 0 →
    i.gprReadDataI lane o = (t.retired i).committed ((i.decodePayloadI lane).rsAddr o)

/-- The instructions in flight, completions under way included, span at most half of
the identifier space, and no more of them retire than are live, which a window of four
or more entries sees to by itself. -/
structure Bounded : Prop where
  window : ∀ e ∈ t.ledger.live, t.ledger.next ≤ e.seq + 2 ^ (p.idWidth - 1)
  answers : ∀ port, i.completeValidI port = true →
    t.ledger.next ≤ i.completeSeq port + 2 ^ (p.idWidth - 1)
  retires : 4 ≤ p.depth ∨ t.queue.retireCount (t.queueInput i) ≤ t.queue.countQ.toNat

instance (port : Fin 3) : Decidable (t.Answers i port) :=
  decidable_of_iff
    ((i.completeValidI port = true → i.completeSeq port < t.ledger.next) ∧
      (i.completeValidI port = true → i.completeIdI port = idOf p.idWidth (i.completeSeq port)) ∧
      (i.completeValidI port = true → ∀ e ∈ t.ledger.live, e.seq = i.completeSeq port →
        (t.window.entry e.slot).issued = true) ∧ (i.broadcasts (i.completeSeq port) port = true →
        (t.program (i.completeSeq port)).regWrite = true ∧
          (i.completePayloadI port).rd = (t.program (i.completeSeq port)).rd) ∧
      (i.broadcasts (i.completeSeq port) port = true → t.result (i.completeSeq port) = none) ∧
      ∀ other, i.broadcasts (i.completeSeq port) port = true →
        i.broadcasts (i.completeSeq port) other = true → other = port)
    ⟨fun ⟨ha, hn, hi, hw, hf, hs⟩ => ⟨ha, hn, hi, hw, hf, hs⟩,
      fun h => ⟨h.allocated, h.named, h.issued, h.writes, h.fresh, h.single⟩⟩

instance : Decidable (t.Promises i) :=
  decidable_of_iff
    (((i.decodeValidI 1 = true → i.decodeValidI 0 = true) ∧
        (i.decodeValidI 2 = true → i.decodeValidI 1 = true)) ∧
      (∀ lane, i.decodeValidI lane = true → (i.decodePayloadI lane).Decoded) ∧
      (∀ lane, i.retireAcceptI lane = true → t.queue.retireValidO lane = true) ∧
      ((i.retireAcceptI 1 = true → i.retireAcceptI 0 = true) ∧
        (i.retireAcceptI 2 = true → i.retireAcceptI 1 = true)) ∧
      (i.selectiveSquash = true → t.ex1Takes i = true) ∧
      (i.branchResolvedI = true → t.ex1Takes i = true ∧
        (t.window.entry i.redirectSlotI).payload.branch = true) ∧ (∀ port, t.Answers i port) ∧
      (i.clears = true ∨ ∀ e ∈ t.leaving i, (t.program e.seq).target ≠ none →
        t.result e.seq ≠ none) ∧ ∀ lane o, (i.decodePayloadI lane).rsAddr o ≠ 0 →
        i.gprReadDataI lane o = (t.retired i).committed ((i.decodePayloadI lane).rsAddr o))
    ⟨fun ⟨hp, hd, ha, hr, hs, hb, hc, hv, hg⟩ => ⟨hp, hd, ha, hr, hs, hb, hc, hv, hg⟩,
      fun h => ⟨h.decodePrefix, h.decoded, h.retireAvailable, h.retirePrefix, h.redirect,
        h.resolve, h.answers, h.values, h.registers⟩⟩

instance : Decidable (t.Bounded i) :=
  decidable_of_iff
    ((∀ e ∈ t.ledger.live, t.ledger.next ≤ e.seq + 2 ^ (p.idWidth - 1)) ∧
      (∀ port, i.completeValidI port = true →
        t.ledger.next ≤ i.completeSeq port + 2 ^ (p.idWidth - 1)) ∧
      (4 ≤ p.depth ∨ t.queue.retireCount (t.queueInput i) ≤ t.queue.countQ.toNat))
    ⟨fun ⟨hw, ha, hr⟩ => ⟨hw, ha, hr⟩, fun h => ⟨h.window, h.answers, h.retires⟩⟩

end BackendTracked

end OpenRV64
