/-
The core bus in its generic geometry: a one-entry adapter puts a tagged load/store channel
on the port of the generic bus, next to the untagged one.  A history beside it names every
request by the cycle in which it came.
-/
import OpenRV64.GenBus

namespace OpenRV64

open GenBusState

/-- A request of the tagged channel.  `lsu_pipe_req_pmp_checked_i` and
`lsu_pipe_req_lock_i` are not read in this geometry. -/
structure PipeRequest where
  tag : BitVec 3
  xlateOnly : Bool
  physical : Bool
  lsu : LsuRequest
deriving DecidableEq, Repr

namespace PipeRequest

/-- The request as it goes to the generic bus. -/
def access (q : PipeRequest) : LsuRequest :=
  { q.lsu with vmMode := if q.physical then satpModeBare else q.lsu.vmMode }

/-- A tagged store is irrevocable once it has been accepted. -/
def isStore (q : PipeRequest) : Bool := q.lsu.write && !q.xlateOnly

/-- The generic bus has no port for a translation alone: one without translation is exact,
any other is refused. -/
def xlateAnswer (q : PipeRequest) : BusAnswer := ⟨0, q.lsu.vmMode != satpModeBare, false⟩

end PipeRequest

/-- A request of the port for translations alone; its other fields are not read. -/
structure XlatePortRequest where
  tag : BitVec 3
  vaddr : BitVec 64
  vmMode : BitVec 4
deriving DecidableEq, Repr

structure CoreBusState where
  bus : GenBusState
  pipeActiveQ : Bool
  pipeRespValidQ : Bool
  pipeTagQ : BitVec 3
  pipeXlateOnlyQ : Bool
  /-- `pipe_write_q`, `pipe_addr_q` and the other registers of the request. -/
  pipeQ : LsuRequest
  pipeRespQ : BusAnswer
  pipeRespPaddrQ : BitVec 64
  genXlateRespValidQ : Bool
  genXlateRespTagQ : BitVec 3
  genXlateRespPaddrQ : BitVec 64
  genXlateRespAccessFaultQ : Bool

structure CoreBusInput where
  fetchValidI : Bool
  fetchCancelI : Bool
  fetchI : FetchRequest
  fetchNextValidI : Bool
  fetchNextAddrI : BitVec 64
  lsuValidI : Bool
  lsuI : LsuRequest
  lsuPipeReqValidI : Bool
  lsuPipeReqI : PipeRequest
  lsuPipeCancelI : Bool
  lsuPipeRespReadyI : Bool
  lsuXlateReqValidI : Bool
  lsuXlateReqI : XlatePortRequest
  lsuXlateRespReadyI : Bool
  tlbiI : Bool
  contextFlushI : Bool
  reqReadyI : Bool
  reqRdataI : BitVec 64
  reqErrorI : Bool
  pmpAllowI : Bool
  icx : GenBusIcx

namespace CoreBusState

variable (p : GenBusParams) (s : CoreBusState) (i : CoreBusInput)

section Ports

/-- An access that the PMP refuses ends at once, with an error. -/
def pmpRefused : Bool := s.bus.reqValidO && !i.pmpAllowI

def rawReqReady : Bool := s.pmpRefused i || i.reqReadyI

def rawReqError : Bool := s.pmpRefused i || i.reqErrorI

def genLsuValid : Bool := s.pipeActiveQ || i.lsuValidI

def genLsu : LsuRequest := if s.pipeActiveQ then s.pipeQ else i.lsuI

def busInput : GenBusInput where
  fetchValidI := i.fetchValidI
  fetchCancelI := i.fetchCancelI
  fetchI := i.fetchI
  fetchNextValidI := i.fetchNextValidI
  fetchNextAddrI := i.fetchNextAddrI
  lsuValidI := s.genLsuValid i
  lsuI := s.genLsu i
  tlbiI := i.tlbiI || i.contextFlushI
  reqReadyI := s.rawReqReady i
  reqRdataI := i.reqRdataI
  reqErrorI := s.rawReqError i
  pmpAllowI := i.pmpAllowI
  icx := i.icx

def genLsuReady : Bool := s.bus.lsuReadyO p (s.busInput i)

def genLsuAnswer : BusAnswer := s.bus.lsuAnswerO p (s.busInput i)

/-- The generic bus takes a data request in this cycle. -/
def genLsuTaken : Bool := s.bus.lsuTaken (s.busInput i)

def reqValidO : Bool := s.bus.reqValidO && i.pmpAllowI

/-- Memory performs a data access in this cycle. -/
def performs : Bool := s.reqValidO i && i.reqReadyI && !s.bus.ownerIsFetch

def lsuReadyO : Bool := s.genLsuReady p i && !s.pipeActiveQ

def lsuAnswerO : BusAnswer :=
  let a := s.genLsuAnswer p i
  ⟨a.rdata, a.accessFault && !s.pipeActiveQ, a.pageFault && !s.pipeActiveQ⟩

def lsuPipeReqReadyO : Bool :=
  !i.lsuPipeCancelI && !s.pipeActiveQ && !s.pipeRespValidQ && !i.lsuValidI

def pipeAccept : Bool := i.lsuPipeReqValidI && s.lsuPipeReqReadyO i

/-- The response of the tagged channel is taken. -/
def pipeRespFire : Bool := s.pipeRespValidQ && i.lsuPipeRespReadyI

/-- A cancel takes effect on everything but a store. -/
def pipeCancel : Bool :=
  i.lsuPipeCancelI && !((s.pipeQ.write && !s.pipeXlateOnlyQ) && (s.pipeActiveQ || s.pipeRespValidQ))

def pipeDone : Bool := s.pipeActiveQ && s.genLsuReady p i

def lsuXlateReqReadyO : Bool := !s.genXlateRespValidQ || i.lsuXlateRespReadyI

def xlateAccept : Bool := i.lsuXlateReqValidI && s.lsuXlateReqReadyO i

end Ports

section Next

def pipeActiveNext : Bool :=
  if s.pipeCancel i then false
  else if s.pipeDone p i then false
  else if s.pipeAccept i then !i.lsuPipeReqI.xlateOnly
  else s.pipeActiveQ

def pipeRespValidNext : Bool :=
  if s.pipeCancel i then false
  else if s.pipeRespFire i then false
  else if s.pipeDone p i then true
  else if s.pipeAccept i && i.lsuPipeReqI.xlateOnly then true
  else s.pipeRespValidQ

def pipeRespNext : BusAnswer :=
  if s.pipeCancel i then s.pipeRespQ
  else if s.pipeDone p i then s.genLsuAnswer p i
  else if s.pipeAccept i && i.lsuPipeReqI.xlateOnly then i.lsuPipeReqI.xlateAnswer
  else s.pipeRespQ

def pipeRespPaddrNext : BitVec 64 :=
  if s.pipeCancel i then s.pipeRespPaddrQ
  else if s.pipeDone p i then s.pipeQ.addr
  else if s.pipeAccept i && i.lsuPipeReqI.xlateOnly then i.lsuPipeReqI.lsu.addr
  else s.pipeRespPaddrQ

def step : CoreBusState where
  bus := s.bus.step p (s.busInput i)
  pipeActiveQ := s.pipeActiveNext p i
  pipeRespValidQ := s.pipeRespValidNext p i
  -- a request is never accepted in the cycle of a cancel
  pipeTagQ := if s.pipeAccept i then i.lsuPipeReqI.tag else s.pipeTagQ
  pipeXlateOnlyQ := if s.pipeAccept i then i.lsuPipeReqI.xlateOnly else s.pipeXlateOnlyQ
  pipeQ := if s.pipeAccept i then i.lsuPipeReqI.access else s.pipeQ
  pipeRespQ := s.pipeRespNext p i
  pipeRespPaddrQ := s.pipeRespPaddrNext p i
  genXlateRespValidQ := s.xlateAccept i || (s.genXlateRespValidQ && !i.lsuXlateRespReadyI)
  genXlateRespTagQ := if s.xlateAccept i then i.lsuXlateReqI.tag else s.genXlateRespTagQ
  genXlateRespPaddrQ :=
    if s.xlateAccept i then i.lsuXlateReqI.vaddr else s.genXlateRespPaddrQ
  genXlateRespAccessFaultQ :=
    if s.xlateAccept i then i.lsuXlateReqI.vmMode != satpModeBare
    else s.genXlateRespAccessFaultQ

def reset (powerUp : PtwState) : CoreBusState where
  bus := .reset powerUp
  pipeActiveQ := false
  pipeRespValidQ := false
  pipeTagQ := 0
  pipeXlateOnlyQ := false
  pipeQ := ⟨false, 0, 0, 0, 0, 3, 0, 0, 0, false, false⟩
  pipeRespQ := ⟨0, false, false⟩
  pipeRespPaddrQ := 0
  genXlateRespValidQ := false
  genXlateRespTagQ := 0
  genXlateRespPaddrQ := 0
  genXlateRespAccessFaultQ := false

end Next

section Answers

variable {p : GenBusParams} {s : CoreBusState} {i : CoreBusInput}

/-- Memory performs a data access only in the cycle of its answer. -/
theorem ready_of_performs (hperforms : s.performs i) : s.genLsuReady p i := by
  simp only [performs, reqValidO, GenBusState.reqValidO, Bool.and_eq_true,
    Bool.not_eq_true'] at hperforms
  obtain ⟨⟨⟨hacs, -⟩, hrdy⟩, hown⟩ := hperforms
  simp [genLsuReady, GenBusState.lsuReadyO, hown, accessComplete, hacs, busInput, rawReqReady, hrdy]

theorem performs_of_answer (hrdy : s.genLsuReady p i)
    (hacs : (s.genLsuAnswer p i).accessFault = false)
    (hpage : (s.genLsuAnswer p i).pageFault = false) : s.performs i := by
  have hlsu : s.bus.lsuReadyO p (s.busInput i) := hrdy
  simp only [genLsuAnswer, GenBusState.lsuAnswerO, hlsu, Bool.true_and,
    Bool.or_eq_false_iff] at hacs hpage
  obtain ⟨htranslation, herr⟩ := hacs
  rw [GenBusState.lsuReadyO, ownerCompletion, hpage, htranslation, Bool.or_false,
    Bool.false_or, Bool.and_eq_true] at hlsu
  rw [hlsu.2, Bool.true_and] at herr
  have href : s.pmpRefused i = false := by
    have hraw : s.rawReqError i = false := herr
    rw [rawReqError, Bool.or_eq_false_iff] at hraw
    exact hraw.1
  obtain ⟨hown, hcomp⟩ := hlsu
  rw [accessComplete, Bool.and_eq_true] at hcomp
  have hraw : s.rawReqReady i := hcomp.2
  rw [rawReqReady, href, Bool.false_or] at hraw
  have hallow : i.pmpAllowI := by
    simpa [pmpRefused, GenBusState.reqValidO, hcomp.1] using href
  simp [performs, reqValidO, GenBusState.reqValidO, hcomp.1, hallow, hraw, hown]

/-- What memory reports of an access that it performs is the whole of the answer. -/
theorem answer_of_performs (hperforms : s.performs i) :
    (s.genLsuAnswer p i).accessFault = (s.busInput i).reqErrorI ∧
      (s.genLsuAnswer p i).pageFault = false := by
  have hrdy : s.bus.lsuReadyO p (s.busInput i) := ready_of_performs hperforms
  simp only [performs, reqValidO, GenBusState.reqValidO, Bool.and_eq_true] at hperforms
  have hacs := hperforms.1.1.1
  have hst : s.bus.stateQ = .access := by simpa [accessing] using hacs
  have hcomp : s.bus.accessComplete (s.busInput i) := by
    simp [accessComplete, hacs, busInput, rawReqReady, hperforms.1.2]
  have hnone : s.bus.translationPageFault p (s.busInput i) = false ∧
      s.bus.translationAccessFault p (s.busInput i) = false := by
    have hdone : s.bus.ownerCompletion p (s.busInput i) = false := by
      refine eq_false_of_ne_true fun hdone => ?_
      rw [stateQ_of_ownerCompletion hdone] at hst
      cases hst
    simpa [ownerCompletion] using hdone
  simp [genLsuAnswer, GenBusState.lsuAnswerO, hrdy, hcomp, hnone.1, hnone.2]

end Answers

end CoreBusState

/-- A request by the cycle in which it was accepted on the tagged channel, or from which on
it has been presented on the untagged one. -/
inductive BusSource where
  | tagged (accepted : ℕ)
  | legacy (since : ℕ)
deriving DecidableEq, Repr

def BusSource.cycle : BusSource → ℕ
  | .tagged n => n
  | .legacy n => n

/-- A data access of the engine: the request for which it runs, and its contents. -/
structure BusAccess where
  source : BusSource
  request : LsuRequest
deriving DecidableEq, Repr

/-- What an observer of the ports notes, the most recent first. -/
structure AdapterHistory where
  clock : ℕ
  accepted : List (ℕ × PipeRequest)
  /-- The untagged request that waited in the last cycle, and since when. -/
  presented : Option (ℕ × LsuRequest)
  access : Option BusAccess
  answers : List (BusSource × BusAnswer)
  performed : List BusSource
  delivered : List ℕ
  cancelled : List ℕ
  xlate : Option XlatePortRequest

structure AdapterTracked where
  core : CoreBusState
  hist : AdapterHistory

namespace AdapterTracked

variable (p : GenBusParams) (t : AdapterTracked) (i : CoreBusInput)

/-- The number of the request that the adapter holds. -/
def held : ℕ := (t.hist.accepted.head?.map Prod.fst).getD 0

/-- The cycle since which the untagged request has been presented, unchanged. -/
def lsuSince : ℕ :=
  match t.hist.presented with
  | some (since, q) => if q = i.lsuI then since else t.hist.clock
  | none => t.hist.clock

/-- The access that begins when the engine takes a request. -/
def takenAccess : BusAccess :=
  ⟨if t.core.pipeActiveQ then .tagged t.held else .legacy (t.lsuSince i), t.core.genLsu i⟩

/-- Somebody still waits for the answer to a request. -/
def waits : BusSource → Bool
  | .tagged n => t.core.pipeActiveQ && t.held == n
  | .legacy n => i.lsuValidI && t.lsuSince i == n

/-- The engine runs an access that nobody waits for any more. -/
def abandoned : Bool :=
  match t.hist.access with
  | some x => !t.waits i x.source
  | none => false

def historyNext : AdapterHistory where
  clock := t.hist.clock + 1
  accepted :=
    if t.core.pipeAccept i then (t.hist.clock, i.lsuPipeReqI) :: t.hist.accepted
    else t.hist.accepted
  presented :=
    if i.lsuValidI && !t.core.lsuReadyO p i then some (t.lsuSince i, i.lsuI) else none
  access :=
    if t.core.genLsuTaken i then some (t.takenAccess i)
    else if t.core.genLsuReady p i then none
    else t.hist.access
  answers :=
    match t.hist.access with
    | some x =>
      if t.core.genLsuReady p i then (x.source, t.core.genLsuAnswer p i) :: t.hist.answers
      else t.hist.answers
    | none => t.hist.answers
  performed :=
    match t.hist.access with
    | some x => if t.core.performs i then x.source :: t.hist.performed else t.hist.performed
    | none => t.hist.performed
  delivered :=
    if t.core.pipeRespFire i then t.held :: t.hist.delivered else t.hist.delivered
  -- a response that is taken in the cycle of the cancel has been delivered
  cancelled :=
    if t.core.pipeCancel i && (t.core.pipeActiveQ || t.core.pipeRespValidQ) &&
        !t.core.pipeRespFire i then
      t.held :: t.hist.cancelled
    else t.hist.cancelled
  xlate := if t.core.xlateAccept i then some i.lsuXlateReqI else t.hist.xlate

def step : AdapterTracked := ⟨t.core.step p i, t.historyNext p i⟩

end AdapterTracked

/-- The adapter from reset, with its history. -/
def busAdapter (p : GenBusParams) : Sync.Circuit AdapterTracked CoreBusInput where
  Init t := (∃ powerUp, t.core = CoreBusState.reset powerUp) ∧
    t.hist = ⟨0, [], none, none, [], [], [], [], none⟩
  step t i := t.step p i

namespace AdapterTracked

variable (p : GenBusParams) (t : AdapterTracked) (i : CoreBusInput)

/-- A memory access is accepted on the tagged channel. -/
def acceptsAccess : Bool := t.core.pipeAccept i && !i.lsuPipeReqI.xlateOnly

/-- Every answer goes to the request that it answers. -/
structure Attributed : Prop where
  /-- While an access runs the port shows it. -/
  port : ∀ x, t.hist.access = some x →
    t.core.bus.lsuBusy = true ∧ t.core.bus.requestQ = x.request.captured
  /-- What the walker has to do, it does for the request that the engine took last. -/
  fresh : t.core.genLsuTaken i = true → t.core.bus.ptw.walker.phase = .idle
  /-- The held request gets the answer of its own access. -/
  tagged : t.core.pipeDone p i = true → ∃ n q, t.hist.accepted.head? = some (n, q) ∧
    t.hist.access = some ⟨.tagged n, q.access⟩
  /-- The untagged request gets the answer of its own access. -/
  legacy : t.core.lsuReadyO p i = true → i.lsuValidI = true →
    t.hist.access = some ⟨.legacy (t.lsuSince i), i.lsuI⟩
  /-- A response carries the tag and the answer of the request it is given for. -/
  response : t.core.pipeRespValidQ = true → ∃ n q, t.hist.accepted.head? = some (n, q) ∧
    t.core.pipeTagQ = q.tag ∧ t.core.pipeRespPaddrQ = q.lsu.addr ∧
      if q.xlateOnly then t.core.pipeRespQ = q.xlateAnswer
      else (.tagged n, t.core.pipeRespQ) ∈ t.hist.answers
  /-- A cancelled request delivers nothing, and is no store. -/
  cancelled : ∀ n ∈ t.hist.cancelled,
    n ∉ t.hist.delivered ∧ ∀ q, (n, q) ∈ t.hist.accepted → q.isStore = false
  deliveredOnce : t.hist.delivered.Nodup
  answeredOnce : (t.hist.answers.map Prod.fst).Nodup
  performedOnce : t.hist.performed.Nodup
  /-- Memory performs only accesses that are answered, and all that are answered without a
  fault. -/
  performed : (∀ x ∈ t.hist.performed, ∃ a, (x, a) ∈ t.hist.answers) ∧
    ∀ x a, (x, a) ∈ t.hist.answers → a.accessFault = false → a.pageFault = false →
      x ∈ t.hist.performed
  /-- An accepted store stays in the adapter until its response is delivered. -/
  store : ∀ n q, (n, q) ∈ t.hist.accepted → q.isStore = true →
    n ∈ t.hist.delivered ∨ (t.hist.accepted.head? = some (n, q) ∧
      (t.core.pipeActiveQ = true ∨ t.core.pipeRespValidQ = true))
  /-- A translation is for the last request of its port. -/
  xlate : t.core.genXlateRespValidQ = true → ∃ q, t.hist.xlate = some q ∧
    t.core.genXlateRespTagQ = q.tag ∧ t.core.genXlateRespPaddrQ = q.vaddr ∧
      t.core.genXlateRespAccessFaultQ = (q.vmMode != satpModeBare)
  /-- A memory access is accepted only when no other one goes on underneath. -/
  toldApart : t.acceptsAccess i = true → t.hist.access = none ∨ t.core.genLsuReady p i = true

/-- While an abandoned access runs no memory access is accepted before the cycle in which it
ends, and no untagged request is there in that cycle. -/
def Clear : Prop := t.abandoned i = true →
  (t.acceptsAccess i = true → t.core.genLsuReady p i = true) ∧
    (t.core.genLsuReady p i = true → t.core.pipeActiveQ = false → i.lsuValidI = false)

end AdapterTracked

end OpenRV64
