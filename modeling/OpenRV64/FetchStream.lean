/-
The instruction stream of the one-wide fetch unit: what decode is owed next, and the answers
of memory from which it is to come.
-/
import OpenRV64.FetchLines

namespace OpenRV64

open ScalarState (pcAfter)

/-- What memory answers to the request for a line. -/
structure FetchAnswer where
  rdata : BitVec 64
  fault : Bool
  pageFault : Bool
deriving DecidableEq, Repr

namespace FetchAnswer

variable (a : FetchAnswer)

def failed : Bool := a.fault || a.pageFault

/-- One of the two words of the line.  A line that failed reads as NOPs. -/
def word (upper : Bool) : BitVec 32 :=
  if a.failed then instrNop
  else if upper then a.rdata.extractLsb' 32 32 else a.rdata.extractLsb' 0 32

end FetchAnswer

/-- The fetch unit with the address that decode is owed next and every answer of memory since
the lines were last invalidated. -/
structure FetchStream where
  front : FetchFront
  predecode : PredecodeState
  next : BitVec 64
  given : List (BitVec 61 × FetchAnswer)

namespace FetchStream

variable (enablePredecodeTargets : Bool) (t : FetchStream) (i : FetchFrontInput)

def fetch : FetchState := t.front.fetch

def fetchInput : FetchInput := t.front.fetchInput i

def memAnswer : FetchAnswer := ⟨i.memRdataI, i.memFaultI, i.memPageFaultI⟩

/-- The address that the stream is at: where the cycle sends it, or where it was.  After an
EBREAK has emptied the unit it goes on at the address in the core. -/
def expected : BitVec 64 :=
  match i.command with
  | .ebreak => t.front.pcQ
  | _ => i.command.target.getD t.next

def flushes : Bool := (t.fetchInput i).flushI

def redirects : Bool := (t.fetchInput i).redirectI

def decodeValid : Bool := t.front.decodeValid i

def packet : FetchPacket := t.fetch.decodeO (t.fetchInput i)

def predecodeO : Predecode := t.predecode.decodeO t.fetch (t.fetchInput i) enablePredecodeTargets

/-- An answer to a request that is given up in the same cycle is not taken. -/
def givenNext : List (BitVec 61 × FetchAnswer) :=
  if t.flushes i then []
  else if t.fetch.reqComplete (t.fetchInput i) && !t.redirects i then
    (lineOf t.fetch.reqAddrQ, memAnswer i) :: t.given
  else t.given

def step : FetchStream where
  front := t.front.step i
  predecode := t.predecode.step t.fetch (t.fetchInput i)
  next := if t.front.decodeFire i then t.expected i + 4 else t.expected i
  given := t.givenNext i

def reset : FetchStream := ⟨.reset, .reset, 0, []⟩

end FetchStream

def fetchStream : Sync.Circuit FetchStream FetchFrontInput where
  Init t := t = .reset
  step := FetchStream.step

namespace FetchStream

variable (enablePredecodeTargets : Bool) (t : FetchStream) (i : FetchFrontInput)

/-! ### What is owed -/

/-- A packet is the instruction at `pc`, out of what memory has given.  A word that comes out
of a bank has the address of a word. -/
structure IsAt (given : List (BitVec 61 × FetchAnswer)) (pc : BitVec 64) (p : FetchPacket) :
    Prop where
  address : p.pc = pc ∨ p.pc = pc &&& ~~~3
  word : ∃ a : FetchAnswer, (lineOf pc, a) ∈ given ∧ p.instr = a.word (pc.getLsbD 2) ∧
    p.fault = a.fault ∧ p.pageFault = a.pageFault

/-- What a cycle owes to decode. -/
structure Delivers : Prop where
  /-- Whatever is offered is the instruction that comes next. -/
  packet : t.decodeValid i = true → IsAt t.given (t.expected i) (t.packet i)
  predecode : t.decodeValid i = true → (t.predecodeO enablePredecodeTargets i).valid = true →
    t.predecodeO enablePredecodeTargets i = predecodeOf (t.packet i).instr
  /-- No request outlives a flush or a redirect. -/
  abandons : t.flushes i = true ∨ t.redirects i = true → (t.step i).fetch.reqActiveQ = false
  /-- The stream waits for nothing but decode and memory. -/
  goesOn : t.front.haltedQ = false → i.command = .stream false →
    t.decodeValid i = true ∨ t.fetch.reqActiveQ = true ∨ t.fetch.pcAccept (t.fetchInput i) = true

/-- Decode takes the instruction that a predicted redirect finds resident. -/
def ReplayTaken : Prop :=
  t.front.haltedQ = false → t.fetch.redirectReplayValid (t.fetchInput i) = true →
    i.decodeReadyI = true

instance : Decidable (t.ReplayTaken i) := by
  unfold ReplayTaken
  infer_instance

end FetchStream

end OpenRV64
