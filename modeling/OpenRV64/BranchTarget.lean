/-
The branch predictor as far as targets go: the return-address stack, the table of
indirect targets with its ring of in-flight records, and the wrapper that compares
a resolved target with the predicted one.
-/
import OpenRV64.BackendDefs
import OpenRV64.ModularAge
import OpenRV64.SnoopFilter

namespace OpenRV64

open ModularAge
open BitVec (ofNat)

inductive BpType where
  | stall
  | alwaysBranch
  | alwaysDecline
  | repeatLast
  | btfnt
  | bimodal
  | gshareBtb
  | gshareBtb512
  | tournamentBtb
  | invalid
deriving DecidableEq, Repr

namespace BpType

def policyStallsAll : BpType → Bool
  | .stall | .invalid => true
  | _ => false

def useAdvanced : BpType → Bool
  | .gshareBtb | .gshareBtb512 => true
  | _ => false

def useTournament : BpType → Bool
  | .tournamentBtb => true
  | _ => false

def useTablePredictor (t : BpType) : Bool := t.useAdvanced || t.useTournament

end BpType

/-- The parameters.  The bounds are those that the simulation checks enforce on a
table predictor that exists. -/
structure BpParams where
  bpType : BpType
  enableRas : Bool
  rasDepth : Nat
  btbEntries : Nat
  btbTagBits : Nat
  inflightDepth : Nat
  enableTaggedResolution : Bool
  inflight_two_le : bpType.useTablePredictor = true → 2 ≤ inflightDepth
  inflight_pow : bpType.useTablePredictor = true → 2 ^ clog2 inflightDepth = inflightDepth

structure BpInput where
  flushI : Bool
  squashI : Bool
  rasContextFlushI : Bool
  lookupValidI : Bool
  lookupIndirectI : Bool
  lookupInstrI : BitVec 32
  lookupPcI : BitVec 64
  lookupIdI : BitVec instrIdWidth
  lookupAllocateI : Bool
  resolveValidI : Bool
  resolveTakenI : Bool
  resolveInstrI : BitVec 32
  resolvePcI : BitVec 64
  resolveTargetI : BitVec 64
  resolveIdI : BitVec instrIdWidth

/-! ## Hints of an instruction -/

def isJalr (instr : BitVec 32) : Bool := rvOpcode instr == opcodeJalr
def isJal (instr : BitVec 32) : Bool := rvOpcode instr == opcodeJal
def isLinkReg (reg : BitVec 5) : Bool := reg == 1 || reg == 5

namespace BpInput

variable (i : BpInput)

/-- A return by the link-register hints. -/
def lookupReturn : Bool :=
  i.lookupValidI && i.lookupIndirectI && isJalr i.lookupInstrI &&
    isLinkReg (rvRs1 i.lookupInstrI) && !isLinkReg (rvRd i.lookupInstrI)

def lookupCall : Bool :=
  i.lookupValidI && (isJal i.lookupInstrI || isJalr i.lookupInstrI) &&
    isLinkReg (rvRd i.lookupInstrI)

def resolvePush : Bool :=
  i.resolveValidI && (isJal i.resolveInstrI || isJalr i.resolveInstrI) &&
    isLinkReg (rvRd i.resolveInstrI)

def resolvePop : Bool :=
  i.resolveValidI && isJalr i.resolveInstrI && isLinkReg (rvRs1 i.resolveInstrI) &&
    (!isLinkReg (rvRd i.resolveInstrI) || rvRd i.resolveInstrI != rvRs1 i.resolveInstrI)

end BpInput

/-! ## The return-address stack -/

/-- `openrv64_exec_bp_ras`. -/
structure Ras (depth : Nat) where
  stackQ : BitVec (clog2 depth) → BitVec 64
  spQ : BitVec (clog2 depth)
  countQ : BitVec (clog2 (depth + 1))
  pendingCallsQ : BitVec (clog2 (depth + 1))

namespace Ras

variable {depth : Nat} (r : Ras depth) (i : BpInput)

def reset : Ras depth := ⟨fun _ => 0, 0, 0, 0⟩

def topIndex : BitVec (clog2 depth) := r.spQ - 1

def predictionValidO : Bool := i.lookupReturn && r.countQ != 0 && r.pendingCallsQ == 0

def predictionTargetO : BitVec 64 := r.stackQ r.topIndex

def full (count : BitVec (clog2 (depth + 1))) : Bool := count == BitVec.ofNat _ depth

def pendingCallsNext : BitVec (clog2 (depth + 1)) :=
  let allocate := i.lookupAllocateI && i.lookupCall
  let resolve := i.resolvePush && r.pendingCallsQ != 0
  if i.flushI || i.squashI then 0
  else if allocate && !resolve then
    if full r.pendingCallsQ then r.pendingCallsQ else r.pendingCallsQ + 1
  else if !allocate && resolve then r.pendingCallsQ - 1
  else r.pendingCallsQ

def push (pc : BitVec 64) : Ras depth :=
  { r with
    stackQ := fun n => if n = r.spQ then pc + 4 else r.stackQ n
    spQ := r.spQ + 1
    countQ := if full r.countQ then r.countQ else r.countQ + 1 }

def pop : Ras depth :=
  if r.countQ != 0 then { r with spQ := r.spQ - 1, countQ := r.countQ - 1 } else r

/-- The coroutine hint: pop the old top, then push this link. -/
def popPush (pc : BitVec 64) : Ras depth :=
  if r.countQ != 0 then
    { r with stackQ := fun n => if n = r.topIndex then pc + 4 else r.stackQ n }
  else
    { r with
      stackQ := fun n => if n = r.spQ then pc + 4 else r.stackQ n
      spQ := r.spQ + 1
      countQ := r.countQ + 1 }

def stackNext : Ras depth :=
  match i.resolvePush, i.resolvePop with
  | true, false => r.push i.resolvePcI
  | false, true => r.pop
  | true, true => r.popPush i.resolvePcI
  | false, false => r

def step : Ras depth :=
  if i.rasContextFlushI then { r with spQ := 0, countQ := 0, pendingCallsQ := 0 }
  else { r.stackNext i with pendingCallsQ := r.pendingCallsNext i }

end Ras

/-! ## The target half of the table predictors -/

structure InflightRecord where
  valid : Bool
  resolved : Bool
  id : BitVec instrIdWidth
  targetValid : Bool
  target : BitVec 64
deriving DecidableEq, Repr

namespace BpParams

variable (p : BpParams)

def btbIndexWidth : Nat := clog2 p.btbEntries
def inflightPtrWidth : Nat := clog2 p.inflightDepth
def inflightCountWidth : Nat := clog2 (p.inflightDepth + 1)

def btbIndex (pc : BitVec 64) : BitVec p.btbIndexWidth := pc.extractLsb' 2 _
def btbTag (pc : BitVec 64) : BitVec p.btbTagBits := pc.extractLsb' (p.btbIndexWidth + 2) _

/-- A pointer of the ring, incremented. -/
def inflightPtrNext (ptr : Nat) : Nat := (ptr + 1) % 2 ^ p.inflightPtrWidth

end BpParams

/-- What `openrv64_exec_bp_gshare_btb` and `openrv64_exec_bp_tournament_btb` have in
common: the indirect-target table and the ordered records of in-flight controls. -/
structure TargetTable (p : BpParams) where
  btbValidQ : BitVec p.btbIndexWidth → Bool
  btbTagQ : BitVec p.btbIndexWidth → BitVec p.btbTagBits
  btbTargetQ : BitVec p.btbIndexWidth → BitVec 64
  inflightQ : Nat → InflightRecord
  inflightHeadQ : Nat
  inflightTailQ : Nat
  inflightCountQ : BitVec p.inflightCountWidth
  updateOverflowQ : Bool

namespace TargetTable

variable {p : BpParams} (t : TargetTable p) (i : BpInput)

/-- Asynchronous reset.  The table and the predicted targets keep what they held. -/
def reset : TargetTable p :=
  { t with
    btbValidQ := fun _ => false
    inflightQ := fun n => { t.inflightQ n with valid := false, resolved := false, id := 0 }
    inflightHeadQ := 0
    inflightTailQ := 0
    inflightCountQ := 0
    updateOverflowQ := false }

def lookupBtbHit : Bool :=
  t.btbValidQ (p.btbIndex i.lookupPcI) && t.btbTagQ (p.btbIndex i.lookupPcI) == p.btbTag i.lookupPcI

def btbPredictionValid : Bool :=
  i.lookupValidI && i.lookupIndirectI && !i.lookupReturn && t.lookupBtbHit i

def selectedTargetValid (rasValid : Bool) : Bool :=
  if i.lookupReturn then rasValid else t.btbPredictionValid i

def selectedTarget (rasTarget : BitVec 64) : BitVec 64 :=
  if i.lookupReturn then rasTarget else t.btbTargetQ (p.btbIndex i.lookupPcI)

def predictionTargetValidO (rasValid : Bool) : Bool :=
  i.lookupValidI && t.selectedTargetValid i rasValid

def queueFull : Bool := t.inflightCountQ == BitVec.ofNat _ p.inflightDepth

def tagMatches (n : Nat) : Bool := (t.inflightQ n).valid && (t.inflightQ n).id == i.resolveIdI

def resolveTagMatch : Bool := (List.range p.inflightDepth).any (t.tagMatches i)

/-- The first slot that matches. -/
def resolveTagIndex : Nat :=
  ((List.range p.inflightDepth).find? (t.tagMatches i)).getD t.inflightHeadQ

def squashKeepCount : BitVec p.inflightCountWidth :=
  BitVec.ofNat _ ((List.range p.inflightDepth).countP fun n =>
    (t.inflightQ n).valid && !isYounger (t.inflightQ n).id i.resolveIdI)

def resolveIndex : Nat :=
  if p.enableTaggedResolution then t.resolveTagIndex i else t.inflightHeadQ

def resolveHasRecord : Bool :=
  i.resolveValidI && t.inflightCountQ != 0 && (!p.enableTaggedResolution || t.resolveTagMatch i)

def targetMispredictO : Bool :=
  t.resolveHasRecord i && (t.inflightQ (t.resolveIndex i)).targetValid &&
    i.resolveTakenI && i.resolveTargetI != (t.inflightQ (t.resolveIndex i)).target

def allocationStallO : Bool := i.lookupValidI && t.queueFull

def headCommit : Bool :=
  t.inflightCountQ != 0 && (t.inflightQ t.inflightHeadQ).valid &&
    (t.inflightQ t.inflightHeadQ).resolved

def recordCommit : Bool :=
  if p.enableTaggedResolution then t.headCommit else t.resolveHasRecord i

/-- The branch of the clocked process that recovers selectively. -/
def squashing : Bool := i.squashI && t.resolveHasRecord i && p.enableTaggedResolution

def allocates : Bool := i.lookupAllocateI && !t.queueFull

def newRecord (rasValid : Bool) (rasTarget : BitVec 64) : InflightRecord where
  valid := true
  resolved := false
  id := i.lookupIdI
  targetValid := t.predictionTargetValidO i rasValid
  target := t.selectedTarget i rasTarget

def recordNext (rasValid : Bool) (rasTarget : BitVec 64) (n : Nat) : InflightRecord :=
  let e := t.inflightQ n
  if i.flushI then { e with valid := false, resolved := false }
  else if t.squashing i then
    let dropped := e.valid && isYounger e.id i.resolveIdI
    let committed := t.headCommit && n == t.inflightHeadQ
    { e with
      valid := e.valid && !dropped && !committed
      resolved := n == t.resolveIndex i || (e.resolved && !dropped && !committed) }
  else if t.allocates i && n == t.inflightTailQ then t.newRecord i rasValid rasTarget
  else
    let resolved := p.enableTaggedResolution && t.resolveHasRecord i && n == t.resolveIndex i
    let committed := t.recordCommit i && n == t.inflightHeadQ
    { e with
      valid := e.valid && !committed
      resolved := (e.resolved || resolved) && !committed }

def headNext : Nat :=
  if i.flushI then 0
  else if (if t.squashing i then t.headCommit else t.recordCommit i) then
    p.inflightPtrNext t.inflightHeadQ
  else t.inflightHeadQ

def tailNext : Nat :=
  if i.flushI then 0
  else if t.squashing i then p.inflightPtrNext (t.resolveIndex i)
  else if t.allocates i then p.inflightPtrNext t.inflightTailQ
  else t.inflightTailQ

def countNext : BitVec p.inflightCountWidth :=
  if i.flushI then 0
  else if t.squashing i then
    t.squashKeepCount i - BitVec.ofNat _ t.headCommit.toNat
  else
    match t.allocates i, t.recordCommit i with
    | true, false => t.inflightCountQ + 1
    | false, true => t.inflightCountQ - 1
    | _, _ => t.inflightCountQ

def btbWrite : Bool := t.resolveHasRecord i && isJalr i.resolveInstrI && i.resolveTakenI

def step (rasValid : Bool) (rasTarget : BitVec 64) : TargetTable p where
  btbValidQ n := t.btbValidQ n || (t.btbWrite i && n == p.btbIndex i.resolvePcI)
  btbTagQ n :=
    if t.btbWrite i && n == p.btbIndex i.resolvePcI then p.btbTag i.resolvePcI
    else t.btbTagQ n
  btbTargetQ n :=
    if t.btbWrite i && n == p.btbIndex i.resolvePcI then i.resolveTargetI
    else t.btbTargetQ n
  inflightQ := t.recordNext i rasValid rasTarget
  inflightHeadQ := t.headNext i
  inflightTailQ := t.tailNext i
  inflightCountQ := t.countNext i
  updateOverflowQ := t.updateOverflowQ || (i.lookupAllocateI && t.queueFull)

end TargetTable

/-! ## The wrapper -/

/-- `openrv64_exec_bp`. -/
structure BpState (p : BpParams) where
  ras : Ras p.rasDepth
  table : TargetTable p
  unresolvedQ : Bool
  rasOutstandingQ : Bool
  rasOutstandingTargetQ : BitVec 64

namespace BpState

variable {p : BpParams} (s : BpState p) (i : BpInput)

def reset : BpState p where
  ras := .reset
  table := s.table.reset
  unresolvedQ := false
  rasOutstandingQ := false
  rasOutstandingTargetQ := 0

def rasPredictionValid : Bool :=
  !p.bpType.policyStallsAll && (p.enableRas && s.ras.predictionValidO i)

def rasPredictionTarget : BitVec 64 := if p.enableRas then s.ras.predictionTargetO else 0

def selectedTargetValid : Bool :=
  if p.bpType.useTablePredictor then
    s.table.predictionTargetValidO i (s.rasPredictionValid i)
  else s.rasPredictionValid i

def selectedAllocationStall : Bool := p.bpType.useTablePredictor && s.table.allocationStallO i

def effectiveLookupRequiresStall : Bool :=
  i.lookupValidI && (p.bpType.policyStallsAll || (i.lookupIndirectI && !s.selectedTargetValid i))

def predictionTargetValidO : Bool :=
  if p.bpType.useTablePredictor then
    s.table.predictionTargetValidO i (s.rasPredictionValid i)
  else i.lookupValidI && s.rasPredictionValid i

def predictionTargetO : BitVec 64 :=
  if p.bpType.useTablePredictor then s.table.selectedTarget i s.rasPredictionTarget
  else s.rasPredictionTarget

def targetMispredictO : Bool :=
  if p.bpType.useTablePredictor then s.table.targetMispredictO i
  else
    i.resolveValidI && s.rasOutstandingQ && i.resolveTakenI &&
      i.resolveTargetI != s.rasOutstandingTargetQ

def fetchStallO : Bool :=
  s.effectiveLookupRequiresStall i || s.unresolvedQ || s.selectedAllocationStall i

def decodeStallO : Bool := s.unresolvedQ || s.selectedAllocationStall i

def unresolvedNext : Bool :=
  if i.flushI || i.squashI then false
  else if i.lookupAllocateI && s.effectiveLookupRequiresStall i then true
  else if i.resolveValidI then false
  else s.unresolvedQ

/-- The lookup that takes over the outstanding target. -/
def rasAllocates : Bool :=
  !p.bpType.useTablePredictor && i.lookupAllocateI && s.rasPredictionValid i

def rasOutstandingNext : Bool :=
  if i.flushI || i.squashI then false
  else if s.rasAllocates i then true
  else if i.resolveValidI then false
  else s.rasOutstandingQ

def step : BpState p where
  ras := s.ras.step i
  table :=
    if p.bpType.useTablePredictor then
      s.table.step i (s.rasPredictionValid i) s.rasPredictionTarget
    else s.table
  unresolvedQ := s.unresolvedNext i
  rasOutstandingQ := s.rasOutstandingNext i
  rasOutstandingTargetQ :=
    if !(i.flushI || i.squashI) && s.rasAllocates i then s.rasPredictionTarget
    else s.rasOutstandingTargetQ

end BpState

end OpenRV64
