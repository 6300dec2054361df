/-
The producer-tagged issue window: the owner table that names the youngest producer
of every register, admission, wakeup, eligibility, selection, and the entry update
with its selective recovery.
-/
import OpenRV64.BackendDefs
import OpenRV64.RetireQueue

namespace OpenRV64

open ModularAge
open List (range finRange)

/-- The parameters of the window with the bounds its simulation checks enforce. -/
structure WindowParams where
  enableSpeculation : Bool
  depth : Nat
  cacheableBase : BitVec 64
  cacheableSize : BitVec 64
  /-- `OPENRV64_3P_RESULT_READY_CONTROL_RELEASE`. -/
  resultReadyControlRelease : Bool
  idWidth : Nat
  depth_pow : 2 ^ clog2 depth = depth
  depth_lt : depth < 2 ^ (idWidth - 1)

def WindowParams.countWidth (p : WindowParams) : Nat := clog2 (p.depth + 1)

/-! ## Classes of instructions -/

namespace IssuePayload

variable (x : IssuePayload)

def isHard : Bool :=
  x.branch || x.jump || x.system || x.fence || x.illegal || x.ebreak || x.ecall ||
    x.instrFault || x.instrPageFault

/-- The PC is 32-bit aligned, so `imm[1]` decides whether the target is. -/
def isReplayableDirectJal : Bool :=
  x.jump && x.brOp == brOpJal && !x.illegal && !x.instrFault && !x.instrPageFault &&
    !x.imm.getLsbD 1

def isEarlyConditionalBranch : Bool :=
  x.branch && !x.illegal && !x.instrFault && !x.instrPageFault && !x.imm.getLsbD 1

def maySpeculatePastUnissuedControl (p : WindowParams) : Bool :=
  x.isReplayableDirectJal || (p.enableSpeculation && x.isEarlyConditionalBranch)

def isPersistentHard : Bool := x.isHard && !x.isEarlyConditionalBranch && !x.isReplayableDirectJal

def isMem : Bool := x.memRead || x.memWrite

def isMem1Op : Bool := x.memWrite || rvOpcode x.instr == opcodeAmo

/-- A load whose translation, or whose bare address, keeps it away from devices. -/
def isSpeculativeLoadCandidate (p : WindowParams) (translationBypass : Bool)
    (rs1Data : BitVec 64) : Bool :=
  p.enableSpeculation && x.memRead && !x.memWrite &&
    (!translationBypass ||
      (p.cacheableSize != 0 && decide (rs1Data + x.imm - p.cacheableBase < p.cacheableSize)))

def isFixedEx0 : Bool := !x.isHard && !x.isMem && (x.aluExt == aluExtM || x.aluExt == aluExtZbb)

def isFixedEx1 : Bool := x.isHard

def isFlexibleAlu : Bool := !x.isHard && !x.isMem && x.aluExt == aluExtBase

/-- A control that gates younger memory operations. -/
def isGatingControl : Bool := x.branch || x.isReplayableDirectJal

def writesGpr : Bool := x.regWrite && x.rd != 0

end IssuePayload

/-- A completion that carries a value. -/
def CompletePayload.safe (x : CompletePayload) : Bool := x.regWrite && !x.illegal && !x.exception

/-! ## State and inputs -/

/-- A source operand of an entry. -/
structure WindowSource (w : Nat) where
  ready : Bool
  producerValid : Bool
  tag : BitVec w
  data : BitVec 64
deriving DecidableEq, Repr

structure WindowEntry (w : Nat) where
  valid : Bool
  issued : Bool
  id : BitVec w
  payload : IssuePayload
  src : Operand → WindowSource w
  resultReady : Bool
  resultData : BitVec 64

/-- The youngest producer of a register. -/
structure Owner (w : Nat) where
  valid : Bool
  ready : Bool
  id : BitVec w
  data : BitVec 64
deriving DecidableEq, Repr

structure WindowState (p : WindowParams) where
  entry : Nat → WindowEntry p.idWidth
  owner : BitVec 5 → Owner p.idWidth
  countQ : BitVec p.countWidth

structure WindowInput (p : WindowParams) where
  flushI : Bool
  squashFrontendI : Bool
  squashIdI : BitVec p.idWidth
  translationBypassI : Bool
  decodeValidI : Fin 3 → Bool
  decodePayloadI : Fin 3 → IssuePayload
  decodeUsesI : Fin 3 → Operand → Bool
  gprReadDataI : Fin 3 → Operand → BitVec 64
  allocationReadyI : Bool
  allocationIdI : Fin 3 → BitVec p.idWidth
  allocationSlotI : Fin 3 → Nat
  pipeReadyI : ExecPipe → Bool
  completionValidI : Fin 3 → Bool
  completionIdI : Fin 3 → BitVec p.idWidth
  completionPayloadI : Fin 3 → CompletePayload
  conditionalResolveValidI : Bool
  conditionalResolveIdI : BitVec p.idWidth
  conditionalResolveSlotI : Nat
  retireValidI : Fin 3 → Bool
  retireIdI : Fin 3 → BitVec p.idWidth
  retireSlotI : Fin 3 → Nat
  nextRetireIdI : BitVec p.idWidth
  nextRetireSlotI : Nat

namespace WindowInput

variable {p : WindowParams} (i : WindowInput p)

/-- A completion that broadcasts the value of instruction `id`. -/
def broadcasts (port : Fin 3) (id : BitVec p.idWidth) : Bool :=
  i.completionValidI port && (i.completionPayloadI port).safe && i.completionIdI port == id

/-- The first port that broadcasts for `id`, and the last one. -/
def firstBroadcast (id : BitVec p.idWidth) : Option (Fin 3) :=
  (List.finRange 3).find? fun port => i.broadcasts port id

def lastBroadcast (id : BitVec p.idWidth) : Option (Fin 3) :=
  (List.finRange 3).reverse.find? fun port => i.broadcasts port id

def retires (id : BitVec p.idWidth) : Bool :=
  (List.finRange 3).any fun lane => i.retireValidI lane && i.retireIdI lane == id

def retireCount : Nat :=
  (i.retireValidI 0).toNat + (i.retireValidI 1).toNat + (i.retireValidI 2).toNat

def selectiveSquash : Bool := i.squashFrontendI && p.enableSpeculation

/-- Everything goes: a flush, or a recovery without the means for a selective one. -/
def clears : Bool := i.flushI || (i.squashFrontendI && !p.enableSpeculation)

end WindowInput

namespace WindowState

variable {p : WindowParams} (s : WindowState p) (i : WindowInput p)

/-! ## Admission -/

def freeCount : Nat := p.depth - s.countQ.toNat

def decodeReadyO (lane : Fin 3) : Bool :=
  !i.flushI && !i.squashFrontendI && i.allocationReadyI && decide (lane.val < s.freeCount)

def decodeFire : Fin 3 → Bool
  | 0 => i.decodeValidI 0 && s.decodeReadyO i 0
  | 1 => i.decodeValidI 1 && s.decodeReadyO i 1 && (i.decodeValidI 0 && s.decodeReadyO i 0)
  | 2 =>
    i.decodeValidI 2 && s.decodeReadyO i 2 &&
      (i.decodeValidI 1 && s.decodeReadyO i 1 && (i.decodeValidI 0 && s.decodeReadyO i 0))

def decodeCount : Nat :=
  (s.decodeFire i 0).toNat + (s.decodeFire i 1).toNat + (s.decodeFire i 2).toNat

/-- The owner table after one completion port. -/
def completeOwner (owner : BitVec 5 → Owner p.idWidth) (port : Fin 3) :
    BitVec 5 → Owner p.idWidth :=
  let x := i.completionPayloadI port
  fun r =>
    if r = x.rd ∧ i.completionValidI port ∧ x.safe ∧ x.rd ≠ 0 ∧ (owner r).valid ∧
        (owner r).id = i.completionIdI port
    then { owner r with ready := true, data := x.data }
    else owner r

/-- The owner table after one retirement lane. -/
def retireOwner (owner : BitVec 5 → Owner p.idWidth) (lane : Fin 3) :
    BitVec 5 → Owner p.idWidth := fun r =>
  if i.retireValidI lane ∧ r ≠ 0 ∧ (owner r).valid ∧ (owner r).id = i.retireIdI lane
  then { owner r with valid := false, ready := false }
  else owner r

/-- The owner table after the admission of one lane. -/
def admitOwner (owner : BitVec 5 → Owner p.idWidth) (lane : Fin 3) : BitVec 5 → Owner p.idWidth :=
  let x := i.decodePayloadI lane
  fun r =>
    if r = x.rd ∧ s.decodeFire i lane ∧ x.writesGpr
    then { valid := true, ready := false, id := i.allocationIdI lane, data := 0 }
    else owner r

/-- Completion precedes retirement, which precedes the admission of lane 0. -/
def ownerView0 : BitVec 5 → Owner p.idWidth :=
  (List.finRange 3).foldl (retireOwner i) ((List.finRange 3).foldl (completeOwner i) s.owner)

/-- The owner table that a lane of decode reads. -/
def ownerView : Fin 3 → BitVec 5 → Owner p.idWidth
  | 0 => s.ownerView0 i
  | 1 => s.admitOwner i (s.ownerView0 i) 0
  | 2 => s.admitOwner i (s.admitOwner i (s.ownerView0 i) 0) 1

/-- The owner table for the next cycle. -/
def ownerViewEnd : BitVec 5 → Owner p.idWidth :=
  fun r =>
    let view := s.admitOwner i (s.ownerView i 2) 2 r
    if r = 0 then { view with valid := false, ready := false } else view

def admitSrc (lane : Fin 3) (o : Operand) : WindowSource p.idWidth :=
  let r := (i.decodePayloadI lane).rsAddr o
  if i.decodeUsesI lane o && r != 0 then
    let owner := s.ownerView i lane r
    if owner.valid then
      { ready := owner.ready, producerValid := true, tag := owner.id, data := owner.data }
    else
      { ready := true, producerValid := false, tag := 0, data := i.gprReadDataI lane o }
  else { ready := true, producerValid := false, tag := 0, data := 0 }

def admitEntry (lane : Fin 3) : WindowEntry p.idWidth where
  valid := true
  issued := false
  id := i.allocationIdI lane
  payload := i.decodePayloadI lane
  src := s.admitSrc i lane
  resultReady := false
  resultData := 0

/-! ## Wakeup -/

/-- A source operand with the completions of this cycle. -/
def srcNow (n : Nat) (o : Operand) : WindowSource p.idWidth :=
  let src := (s.entry n).src o
  if src.ready then src
  else
    match i.firstBroadcast src.tag with
    | some port => { src with ready := true, data := (i.completionPayloadI port).data }
    | none => src

/-- A source operand with the completions that the entry keeps. -/
def srcNext (n : Nat) (o : Operand) : WindowSource p.idWidth :=
  let src := (s.entry n).src o
  if src.ready then src
  else
    match i.lastBroadcast src.tag with
    | some port => { src with ready := true, data := (i.completionPayloadI port).data }
    | none => src

/-! ## Eligibility -/

/-- `older` is a resident entry that compares older than entry `n`. -/
def isOlder (n older : Nat) : Bool :=
  (s.entry older).valid && isYounger (s.entry n).id (s.entry older).id

def olderUnissuedHard (n : Nat) : Bool :=
  (List.range p.depth).any fun o =>
    s.isOlder n o && !(s.entry o).issued && (s.entry o).payload.isHard &&
      !(s.entry o).payload.maySpeculatePastUnissuedControl p

def olderPersistentHard (n : Nat) : Bool :=
  (List.range p.depth).any fun o => s.isOlder n o && (s.entry o).payload.isPersistentHard

def olderUnissuedMem (n : Nat) : Bool :=
  (List.range p.depth).any fun o =>
    s.isOlder n o && !(s.entry o).issued && (s.entry o).payload.isMem

def olderUnresolvedConditional (n : Nat) : Bool :=
  (List.range p.depth).any fun o =>
    s.isOlder n o && !(s.entry o).issued && (s.entry o).payload.isEarlyConditionalBranch

/-- The scan over the slots assigns this flag: it keeps the value for the last older
control that it meets. -/
def olderLiveControl (n : Nat) : Bool :=
  (List.range p.depth).foldl (fun live o =>
    if s.isOlder n o && (s.entry o).payload.isGatingControl then
      !p.resultReadyControlRelease || !(s.entry o).resultReady
    else live) false

def operandsReady (n : Nat) : Bool := (s.srcNow i n .rs1).ready && (s.srcNow i n .rs2).ready

/-- What eligibility asks of every instruction. -/
def baseEligible (n : Nat) : Bool :=
  (s.entry n).valid && !(s.entry n).issued && s.operandsReady i n &&
    !s.olderUnissuedHard n && !s.olderPersistentHard n &&
    !((s.entry n).payload.isPersistentHard && (s.entry n).id != i.nextRetireIdI) &&
    !(p.enableSpeculation && (s.entry n).payload.isEarlyConditionalBranch &&
      s.olderUnresolvedConditional n)

/-- A memory operation that has to wait for older controls, by the flag above. -/
def controlBlocked (n : Nat) : Bool :=
  (s.entry n).payload.isMem && s.olderLiveControl n &&
    !(s.entry n).payload.isSpeculativeLoadCandidate p i.translationBypassI (s.srcNow i n .rs1).data

def memPairEligible (n : Nat) : Bool :=
  s.baseEligible i n && (s.entry n).payload.isMem && !s.controlBlocked i n

def eligible (n : Nat) : Bool :=
  s.baseEligible i n && !s.controlBlocked i n &&
    !((s.entry n).payload.isMem && s.olderUnissuedMem n)

/-! ## Selection -/

/-- The slots from the retirement head on. -/
def scanSlots : List Nat :=
  (List.range p.depth).map fun offset =>
    if i.nextRetireSlotI + offset ≥ p.depth then i.nextRetireSlotI + offset - p.depth
    else i.nextRetireSlotI + offset

def selectBy (f : IssuePayload → Bool) : Option Nat :=
  (scanSlots i).find? fun n => s.eligible i n && f (s.entry n).payload

def selectEx1Fixed : Option Nat := s.selectBy i IssuePayload.isFixedEx1

def selectEx0 : Option Nat :=
  (s.selectBy i IssuePayload.isFixedEx0).or <| (scanSlots i).find? fun n =>
      s.eligible i n && (s.entry n).payload.isFlexibleAlu && s.selectEx1Fixed i != some n

def selectEx1 : Option Nat :=
  (s.selectEx1Fixed i).or <| (scanSlots i).find? fun n =>
      s.eligible i n && (s.entry n).payload.isFlexibleAlu && s.selectEx0 i != some n

def selectMem : Option Nat := s.selectBy i IssuePayload.isMem

/-- The next unissued memory operation after `first`, whether or not it is eligible. -/
def nextUnissuedMem (first : Nat) : Option Nat :=
  (((scanSlots i).dropWhile (· != first)).drop 1).find? fun n =>
    (s.entry n).valid && !(s.entry n).issued && (s.entry n).payload.isMem

def selectMem2 : Option Nat :=
  (s.selectMem i).bind fun first =>
    (s.nextUnissuedMem i first).filter fun n =>
      s.memPairEligible i n && (s.entry n).payload.isMem1Op != (s.entry first).payload.isMem1Op

def memPipe (n : Nat) : ExecPipe :=
  if (s.entry n).payload.isMem1Op then .mem1 else .mem0

/-- The second memory operation is offered only when both pipes take their operation. -/
def pairAccepted : Bool :=
  match s.selectMem i, s.selectMem2 i with
  | some first, some second =>
    i.pipeReadyI (s.memPipe first) && i.pipeReadyI (s.memPipe second)
  | _, _ => false

/-- The memory operation that is offered to a pipe. -/
def memEntry (pipe : ExecPipe) : Option Nat :=
  ((s.selectMem2 i).filter fun n => s.memPipe n == pipe && s.pairAccepted i).or
    ((s.selectMem i).filter fun n => s.memPipe n == pipe)

/-- The entry that is offered to a pipe. -/
def pipeEntry : ExecPipe → Option Nat
  | .ex0 => s.selectEx0 i
  | .ex1 => s.selectEx1 i
  | .mem0 => s.memEntry i .mem0
  | .mem1 => s.memEntry i .mem1

/-- The entry leaves the window for its pipe in this cycle. -/
def issues (n : Nat) : Bool :=
  (s.pipeEntry i .ex0 == some n && i.pipeReadyI .ex0) ||
    (s.pipeEntry i .ex1 == some n && i.pipeReadyI .ex1) ||
    (s.pipeEntry i .mem0 == some n && i.pipeReadyI .mem0) ||
    (s.pipeEntry i .mem1 == some n && i.pipeReadyI .mem1)

/-! ## Recovery -/

/-- The entry stays through a recovery. -/
def survives (n : Nat) : Bool :=
  (s.entry n).valid && !i.retires (s.entry n).id && !isYounger (s.entry n).id i.squashIdI

def survivorCount : BitVec p.countWidth :=
  BitVec.ofNat _ ((List.range p.depth).countP (s.survives i))

/-- The result of an entry with the completions of this cycle. -/
def resultNow (n : Nat) : Bool × BitVec 64 :=
  match i.lastBroadcast (s.entry n).id with
  | some port => (true, (i.completionPayloadI port).data)
  | none => ((s.entry n).resultReady, (s.entry n).resultData)

/-- The owner of a register among the survivors in the slots of a list: the youngest
writer so far is replaced by a younger one. -/
def survivorOwner (r : BitVec 5) : List Nat → Owner p.idWidth → Owner p.idWidth
  | [], owner => owner
  | n :: rest, owner =>
    survivorOwner r rest <|
      if s.survives i n ∧ (s.entry n).payload.writesGpr ∧ (s.entry n).payload.rd = r ∧
          (!owner.valid ∨ isYounger (s.entry n).id owner.id) then
        { valid := true
          ready := (s.resultNow i n).1
          id := (s.entry n).id
          data := (s.resultNow i n).2 }
      else owner

def survivorOwners (r : BitVec 5) : Owner p.idWidth :=
  s.survivorOwner i r (List.range p.depth) ⟨false, false, 0, 0⟩

/-! ## The clock edge -/

def resolves (n : Nat) : Bool :=
  i.conditionalResolveValidI && i.conditionalResolveSlotI == n && (s.entry n).valid &&
    (s.entry n).id == i.conditionalResolveIdI

/-- An entry with the completions of this cycle. -/
def wake (n : Nat) : WindowEntry p.idWidth :=
  { s.entry n with
    src := s.srcNext i n
    resultReady := (s.resultNow i n).1
    resultData := (s.resultNow i n).2 }

/-- An entry after a selective recovery. -/
def recoverEntry (n : Nat) : WindowEntry p.idWidth :=
  let issued := s.issues i n && !isYounger (s.entry n).id i.squashIdI
  if s.survives i n then
    let e := s.wake i n
    { e with
      issued := e.issued || issued
      resultReady := e.resultReady || s.resolves i n }
  else
    { s.entry n with
      valid := false
      issued := issued
      resultReady := s.resolves i n }

/-- The lane that allocates slot `n`, the last one if there are several. -/
def allocationLane (n : Nat) : Option (Fin 3) :=
  (List.finRange 3).reverse.find? fun lane =>
    s.decodeFire i lane && i.allocationSlotI lane == n

def retiresSlot (n : Nat) : Bool :=
  (List.finRange 3).any fun lane => i.retireValidI lane && i.retireSlotI lane == n

/-- An entry after a cycle without recovery. -/
def advanceEntry (n : Nat) : WindowEntry p.idWidth :=
  match s.allocationLane i n with
  | some lane => s.admitEntry i lane
  | none =>
    let e := if (s.entry n).valid then s.wake i n else s.entry n
    if retiresSlot i n then { e with valid := false, issued := false, resultReady := false }
    else
      { e with
        issued := e.issued || s.issues i n
        resultReady := e.resultReady || s.resolves i n }

/-- One clock edge of `openrv64_dispatch_window_3p`. -/
def step : WindowState p :=
  if i.clears then
    { entry := fun n => { s.entry n with valid := false, issued := false }
      owner := fun r => { s.owner r with valid := false, ready := false }
      countQ := 0 }
  else if i.selectiveSquash then
    { entry := s.recoverEntry i
      owner := s.survivorOwners i
      countQ := s.survivorCount i }
  else
    { entry := s.advanceEntry i
      owner := s.ownerViewEnd i
      countQ := s.countQ + BitVec.ofNat _ (s.decodeCount i) - BitVec.ofNat _ i.retireCount }

end WindowState

end OpenRV64
