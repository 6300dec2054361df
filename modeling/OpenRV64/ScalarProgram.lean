/-
The program that the one-wide core executes: beside the pipeline the stream of its fetch
unit, the address of the next instruction in program order, and what memory has answered to
fetch.
-/
import OpenRV64.BranchTarget
import OpenRV64.FetchDelivery
import OpenRV64.ScalarPath
import OpenRV64.ScalarReserve

namespace OpenRV64

open Sync ScalarState

/-! ### The stalls of the predictor -/

/-- From what `openrv64_exec_bp` makes its direction and its stalls. -/
structure BpSignals where
  bpType : BpType
  lookupIndirectI : Bool
  rasPredictionValidRaw : Bool
  /-- The direction of a simple policy other than the one that always stalls. -/
  policyPredictionTaken : Bool
  tablePredictionTaken : Bool
  selectedTargetValid : Bool
  unresolvedQ : Bool
  selectedAllocationStall : Bool

namespace BpSignals

variable (b : BpSignals) (lookupValid : Bool)

def rasPredictionValid : Bool := !b.bpType.policyStallsAll && b.rasPredictionValidRaw

def policyTaken : Bool := !b.bpType.policyStallsAll && b.policyPredictionTaken

def predictionTakenO : Bool :=
  if b.bpType.useTablePredictor then b.tablePredictionTaken
  else lookupValid && (b.rasPredictionValid || (!b.lookupIndirectI && b.policyTaken))

def effectiveLookupRequiresStall : Bool :=
  lookupValid && (b.bpType.policyStallsAll || (b.lookupIndirectI && !b.selectedTargetValid))

def fetchStallO : Bool :=
  b.effectiveLookupRequiresStall lookupValid || b.unresolvedQ || b.selectedAllocationStall

def decodeStallO : Bool := b.unresolvedQ || b.selectedAllocationStall

end BpSignals

namespace ScalarState

variable {p : ScalarParams} (s : ScalarState p) (i : ScalarInput)

/-- `bp_branch_present`. -/
def branchPresent : Bool :=
  s.ifIdIs i (fun f => (p.decode.decodeTop f.instr).control) && !s.wfiSleepQ

/-- The predictor's ports.  What fetch has predecoded is a direct control. -/
structure Predicted (b : BpSignals) : Prop where
  taken : i.predictionTakenI = b.predictionTakenO (s.branchPresent i)
  fetchStall : i.bpFetchStallI = b.fetchStallO (s.branchPresent i)
  decodeStall : i.bpDecodeStallI = b.decodeStallO
  direct : i.predictionFastI = true → b.lookupIndirectI = false

/-- What comes in program order after an instruction that leaves WB. -/
def successor (w : MemWbPacket) : BitVec 64 :=
  if w.exception then s.trapVector i
  else if w.isMret then s.csr.regs.mepcQ
  else if w.isSret then s.csr.regs.sepcQ
  else w.nextPc

/-- Everything in the pipeline is thrown away, or has just left it. -/
def startsAnew : Bool := s.resetPendingQ || s.flushExMem i || s.hardFlushRestart

end ScalarState

/-- The core with its program. -/
structure ScalarProgram (p : IssueParams) where
  machine : IssueState p
  stream : FetchStream
  /-- The address of the next instruction in program order. -/
  nextPc : BitVec 64
  /-- What memory has answered to fetch since the core last started anew. -/
  fetched : List (BitVec 61 × FetchAnswer)

namespace ScalarProgram

variable {p : IssueParams} (t : ScalarProgram p) (i : IssueInput)

def core : ScalarState p.core := t.machine.core

def input : ScalarInput := t.machine.input i

def frontInput : FetchFrontInput := t.core.frontInput (t.input i)

def fetchedNext : List (BitVec 61 × FetchAnswer) :=
  if t.core.startsAnew (t.input i) then []
  else t.stream.givenNext (t.frontInput i) ++ t.fetched

def step : ScalarProgram p where
  machine := t.machine.step i
  stream := t.stream.step (t.frontInput i)
  nextPc :=
    if t.core.irqTake (t.input i) then t.core.trapVector (t.input i)
    else (t.core.retiring.map (t.core.successor (t.input i))).getD t.nextPc
  fetched := t.fetchedNext i

/-- The instruction is the next one of the program: it has its address, and its word is what
memory has given for that address.  A word that could not be fetched traps. -/
structure Next (w : MemWbPacket) : Prop where
  place : w.pc = t.nextPc
  word : ∃ a : FetchAnswer, (lineOf w.pc, a) ∈ t.fetched ∧ w.instr = a.word (w.pc.getLsbD 2) ∧
    (w.exception = false → a.failed = false)

/-- Whatever leaves WB is the next instruction of the program. -/
def Executes : Prop := ∀ w, t.core.retiring = some w → t.Next w

end ScalarProgram

/-- The registers and what reset leaves in the page-table walker may be anything. -/
def scalarProgram (p : IssueParams) : Circuit (ScalarProgram p) IssueInput where
  Init t := ∃ powerUp gpr, t =
    ⟨(IssueTracked.reset powerUp gpr).machine, .reset, p.core.resetVector, []⟩
  step := ScalarProgram.step

/-- The predictor drives its ports; its tables may hold anything. -/
def predictedEnv {p : IssueParams} : Past (ScalarProgram p) IssueInput → ScalarProgram p →
    IssueInput → Prop :=
  cycleEnv fun t i => ∃ b, t.core.Predicted (t.input i) b

end OpenRV64
