/-
The one-wide fetch unit with what `openrv64_rv64_top` keeps for it: the address that it is to
fetch next, and the predecode of the resident lines.
-/
import OpenRV64.ScalarCore

namespace OpenRV64

/-! ### Predecode -/

/-- What fetch tells of a word: whether it is a jump or a branch with a target of its own,
and how far that target is. -/
structure Predecode where
  valid : Bool
  conditional : Bool
  offset : BitVec 20
deriving DecidableEq, Repr

def Predecode.none : Predecode := ⟨false, false, 0⟩

/-- `direct_control_valid`. -/
def directControlValid (instr : BitVec 32) : Bool :=
  rvOpcode instr == opcodeJal ||
    (rvOpcode instr == opcodeBranch && rvFunct3 instr != 0b010 && rvFunct3 instr != 0b011)

def predecodeOf (instr : BitVec 32) : Predecode where
  valid := directControlValid instr
  conditional := directControlValid instr && rvOpcode instr == opcodeBranch
  offset := (if rvOpcode instr == opcodeJal then immJ instr else immB instr).extractLsb' 1 20

structure PredecodeState where
  target : BitVec 3 → Bool → Predecode
  pendingQ : Bool
  bankQ : BitVec 3

namespace PredecodeState

variable (q : PredecodeState) (s : FetchState) (i : FetchInput)

def reset : PredecodeState where
  target _ _ := .none
  pendingQ := false
  bankQ := 0

/-- A line is predecoded in the cycle after it has come. -/
def targetNext (bank : BitVec 3) (upper : Bool) : Predecode :=
  if s.reqComplete i && bank == s.reqBankQ then .none
  else if q.pendingQ && bank == q.bankQ then predecodeOf ((s.buffer bank).slot upper)
  else q.target bank upper

def step : PredecodeState :=
  if i.flushI then reset
  else
    { target := q.targetNext s i
      pendingQ := s.reqComplete i && !(i.memFaultI || i.memPageFaultI)
      bankQ := if s.reqComplete i then s.reqBankQ else q.bankQ }

/-- What goes to decode with the instruction. -/
def decodeO (enablePredecodeTargets : Bool) : Predecode :=
  if !enablePredecodeTargets then .none
  else if s.replayValid i then q.target (s.lookupBank i) ((s.replayPc i).getLsbD 2)
  else q.target s.readBankQ s.readSlotQ

end PredecodeState

/-! ### The address to fetch next -/

/-- What the core asks of fetch in a cycle.  The instruction in decode is not both a
predicted control and an EBREAK, and neither is looked at in the cycle of a vector. -/
inductive FetchCommand where
  /-- A vector that invalidates the lines: reset, a trap, an interrupt, a return or a refetch.
  An execution redirect may be asked for besides. -/
  | restart (target : BitVec 64) (both : Bool)
  /-- A redirect of execution. -/
  | redirect (target : BitVec 64)
  /-- An EBREAK leaves decode. -/
  | ebreak
  /-- A control predicted taken leaves decode; `fast` says that it was predecoded. -/
  | predict (target : BitVec 64) (fast : Bool)
  /-- The stream goes on, unless `hold` keeps the next address back: the core sleeps, is about
  to halt, waits for a target, or for the translation barrier. -/
  | stream (hold : Bool)
deriving DecidableEq, Repr

namespace FetchCommand

def invalidates : FetchCommand → Bool
  | restart .. | ebreak => true
  | _ => false

def redirects : FetchCommand → Bool
  | restart _ both => both
  | redirect _ | predict .. => true
  | _ => false

/-- `bp_fast_predict_redirect`. -/
def replays : FetchCommand → Bool
  | predict _ fast => fast
  | _ => false

def offers : FetchCommand → Bool
  | stream hold => !hold
  | _ => false

/-- Where it sends fetch. -/
def target : FetchCommand → Option (BitVec 64)
  | restart target _ | redirect target | predict target _ => some target
  | _ => none

end FetchCommand

structure FetchFrontInput where
  command : FetchCommand
  /-- `bp_predict_target` when nothing is predicted. -/
  predictTargetI : BitVec 64
  /-- `exec_wb_halt`. -/
  haltI : Bool
  memReadyI : Bool
  memRdataI : BitVec 64
  memFaultI : Bool
  memPageFaultI : Bool
  decodeReadyI : Bool

/-- The fetch unit, the address in the core and whether the core has halted. -/
structure FetchFront where
  fetch : FetchState
  pcQ : BitVec 64
  haltedQ : Bool

namespace FetchFront

open ScalarState (pcAfter)

variable (f : FetchFront) (i : FetchFrontInput)

def reset : FetchFront := ⟨.flushed, 0, false⟩

/-- `bp_predict_target`. -/
def predictTarget : BitVec 64 :=
  match i.command with
  | .predict target _ => target
  | _ => i.predictTargetI

def fetchPort : FetchInput where
  flushI := f.haltedQ || i.command.invalidates
  redirectI := i.command.redirects
  redirectReplayI := i.command.replays
  redirectPcI := predictTarget i
  pcValidI := false
  pcI := f.pcQ
  memReadyI := i.memReadyI
  memRdataI := i.memRdataI
  memFaultI := i.memFaultI
  memPageFaultI := i.memPageFaultI
  decodeReadyI := i.decodeReadyI

def fetchPcValid : Bool := f.fetch.pcReadyO (f.fetchPort i) && !f.haltedQ && i.command.offers

def fetchInput : FetchInput := { f.fetchPort i with pcValidI := f.fetchPcValid i }

def pcNext : BitVec 64 :=
  match i.command with
  | .restart target _ | .redirect target => target
  | .predict target _ =>
    if f.fetch.redirectReplayO (f.fetchInput i) then pcAfter target else target
  | .ebreak | .stream _ => if f.fetchPcValid i then pcAfter f.pcQ else f.pcQ

def step : FetchFront where
  fetch := f.fetch.step (f.fetchInput i)
  pcQ := f.pcNext i
  haltedQ := f.haltedQ || i.haltI

def decodeValid : Bool := f.fetch.decodeValidO (f.fetchInput i)

def decodeFire : Bool := f.decodeValid i && i.decodeReadyI

end FetchFront

/-! ### In the core -/

namespace ScalarState

variable {p : ScalarParams} (s : ScalarState p) (i : ScalarInput)

def front : FetchFront := ⟨s.fetch, s.pcQ, s.haltedQ⟩

def frontCommand : FetchCommand :=
  if s.hardFlush i then
    if s.resetPendingQ || s.flushExMem i || s.hardFlushRestart then
      .restart (s.vectorTarget i) (s.hardFlushRedirect i)
    else .redirect (s.vectorTarget i)
  else if s.decodeEbreakAccept i then .ebreak
  else if s.predictRedirect i then .predict i.predictionTargetI i.predictionFastI
  else .stream (s.wfiSleepQ || s.haltPendingQ || i.bpFetchStallI || s.translationBarrierBusy)

def frontInput : FetchFrontInput where
  command := s.frontCommand i
  predictTargetI := i.predictionTargetI
  haltI := (s.memWbQ.map MemWbPacket.halt).getD false
  memReadyI := (s.fetchPort i).memReadyI
  memRdataI := (s.fetchPort i).memRdataI
  memFaultI := (s.fetchPort i).memFaultI
  memPageFaultI := (s.fetchPort i).memPageFaultI
  decodeReadyI := (s.fetchPort i).decodeReadyI

variable {s : ScalarState p} {i : ScalarInput}

/-- In the cycle of a vector decode holds nothing. -/
theorem ifId_of_hardFlush (h : s.hardFlush i) : s.ifId i = none := by
  rw [ifId, Stage.out, h, if_pos rfl]

theorem ebreak_of_hardFlush (h : s.hardFlush i) : s.decodeEbreakAccept i = false := by
  rw [decodeEbreakAccept, ifIdIs, ifId_of_hardFlush h]
  rfl

theorem predict_of_hardFlush (h : s.hardFlush i) : s.predictRedirect i = false := by
  rw [predictRedirect, branchAllocate, ifIdIs, ifId_of_hardFlush h]
  rfl

theorem predict_of_ebreak (h : s.decodeEbreakAccept i) : s.predictRedirect i = false := by
  rw [decodeEbreakAccept, Bool.and_eq_true, ifIdIs] at h
  rw [predictRedirect, branchAllocate, ifIdIs]
  cases hifId : s.ifId i with
  | none => rfl
  | some f =>
    rw [hifId] at h
    have hinstr : f.instr = instrEbreak := by simpa using h.1
    have hctl : (p.decode.decodeTop instrEbreak).control = false := rfl
    rw [Option.map_some, Option.getD_some, hinstr, hctl]
    rfl

theorem noVector_of_not_hardFlush (h : s.hardFlush i = false) :
    (s.resetPendingQ || s.flushExMem i || s.hardFlushRestart) = false ∧
      s.hardFlushRedirect i = false := Bool.or_eq_false_iff.mp h

/-- The command of a cycle flushes, redirects and replays as the core does. -/
theorem frontCommand_spec : (s.haltedQ || (s.frontCommand i).invalidates) = s.invalidateFetch i ∧
      (s.frontCommand i).redirects = s.redirectFetch i ∧
      (s.frontCommand i).replays = (s.predictRedirect i && i.predictionFastI) ∧
      FetchFront.predictTarget (s.frontInput i) = i.predictionTargetI := by
  have hinput : (s.frontInput i).command = s.frontCommand i := rfl
  rw [FetchFront.predictTarget, hinput, frontCommand, invalidateFetch, drainFetch, redirectFetch]
  cases hhard : s.hardFlush i with
  | true =>
    rw [ebreak_of_hardFlush hhard, predict_of_hardFlush hhard, if_pos rfl]
    have hparts : ((s.resetPendingQ || s.flushExMem i || s.hardFlushRestart) ||
      s.hardFlushRedirect i) := hhard
    cases hrst : s.resetPendingQ || s.flushExMem i || s.hardFlushRestart with
    | true =>
      rw [if_pos rfl]
      refine ⟨?_, by rw [Bool.or_false]; rfl, rfl, rfl⟩
      change (s.haltedQ || true) = _
      rw [Bool.or_true, Bool.false_or, Bool.or_right_comm _ s.haltedQ,
        Bool.or_right_comm _ s.haltedQ, hrst, Bool.true_or]
    | false =>
      rw [hrst, Bool.false_or] at hparts
      rw [Bool.or_eq_false_iff, Bool.or_eq_false_iff] at hrst
      rw [if_low, hparts, hrst.1.1, hrst.1.2, hrst.2]
      refine ⟨?_, rfl, rfl, rfl⟩
      change (s.haltedQ || false) = _
      rw [Bool.or_false, Bool.false_or, Bool.false_or, Bool.or_false, Bool.or_false]
  | false =>
    obtain ⟨hrst, hredir⟩ := noVector_of_not_hardFlush hhard
    rw [Bool.or_eq_false_iff, Bool.or_eq_false_iff] at hrst
    rw [if_low, hredir, hrst.1.1, hrst.1.2, hrst.2]
    cases hebreak : s.decodeEbreakAccept i with
    | true =>
      rw [predict_of_ebreak hebreak, if_pos rfl]
      refine ⟨?_, rfl, rfl, rfl⟩
      change (s.haltedQ || true) = _
      rw [Bool.or_true]
      rfl
    | false =>
      rw [if_low]
      have hnone : (s.haltedQ || false) = (false || (false || s.haltedQ) || false || false) := by
        rw [Bool.or_false, Bool.false_or, Bool.false_or, Bool.or_false, Bool.or_false]
      cases s.predictRedirect i with
      | true => exact ⟨hnone, rfl, rfl, rfl⟩
      | false => exact ⟨hnone, rfl, rfl, rfl⟩

theorem front_fetchPort : s.front.fetchPort (s.frontInput i) = s.fetchPort i := by
  obtain ⟨hfl, hredir, hrep, htgt⟩ := frontCommand_spec (s := s) (i := i)
  rw [FetchFront.fetchPort, htgt]
  change FetchInput.mk (s.haltedQ || (s.frontCommand i).invalidates) (s.frontCommand i).redirects
    (s.frontCommand i).replays _ _ _ _ _ _ _ _ = _
  rw [hfl, hredir, hrep]
  rfl

theorem front_fetchPcValid : s.front.fetchPcValid (s.frontInput i) = s.fetchPcValid i := by
  rw [FetchFront.fetchPcValid, front_fetchPort, fetchPcValid]
  change (s.fetch.pcReadyO (s.fetchPort i) && !s.haltedQ && (s.frontCommand i).offers) = _
  cases hrdy : s.fetch.pcReadyO (s.fetchPort i) with
  | false => simp
  | true =>
    have hredir : s.redirectFetch i = false := by
      rw [FetchState.pcReadyO, Bool.and_eq_true, Bool.and_eq_true, Bool.not_eq_true'] at hrdy
      have hport : (s.fetchPort i).redirectI = false := by simpa using hrdy.1.2
      exact hport
    rw [redirectFetch, Bool.or_eq_false_iff] at hredir
    rw [frontCommand]
    cases hhard : s.hardFlush i with
    | true =>
      rw [if_pos rfl]
      split <;> simp [FetchCommand.offers]
    | false =>
      rw [if_low]
      cases hebreak : s.decodeEbreakAccept i with
      | true => simp [FetchCommand.offers]
      | false =>
        rw [if_low, hredir.2, if_low, FetchCommand.offers]
        cases s.haltedQ <;> cases s.wfiSleepQ <;> cases s.haltPendingQ <;>
          cases i.bpFetchStallI <;> rfl

/-- The fetch unit of the core and its address go on as by themselves. -/
theorem front_step : (s.step i).front = s.front.step (s.frontInput i) := by
  have hinput : s.front.fetchInput (s.frontInput i) = s.fetchInput i := by
    rw [FetchFront.fetchInput, front_fetchPort, front_fetchPcValid]
    rfl
  have hpc : s.front.pcNext (s.frontInput i) = s.pcNext i := by
    have hcmd : (s.frontInput i).command = s.frontCommand i := rfl
    rw [FetchFront.pcNext, hcmd, hinput, front_fetchPcValid, pcNext, frontCommand]
    cases hhard : s.hardFlush i with
    | true =>
      rw [if_pos rfl, if_pos rfl]
      cases s.resetPendingQ || s.flushExMem i || s.hardFlushRestart <;> rfl
    | false =>
      rw [if_low, if_low]
      cases hebreak : s.decodeEbreakAccept i with
      | true => rw [predict_of_ebreak hebreak]; rfl
      | false =>
        rw [if_low]
        cases s.predictRedirect i <;> rfl
  rw [FetchFront.step, hinput, hpc]
  rfl

end ScalarState

end OpenRV64
