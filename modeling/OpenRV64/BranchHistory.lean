/-
The predictors with a speculative global history.  Every admitted control has a record
that carries the history it was predicted under; the records are the checkpoints from
which a redirect restores the history.
-/
import OpenRV64.BranchTargetCheck

namespace OpenRV64

/-- The inputs of a table predictor. -/
structure PredictorInput extends BpInput where
  lookupBranchI : Bool
  lookupJumpI : Bool
  lookupBackwardI : Bool
  rasPredictionValidI : Bool
  rasPredictionTargetI : BitVec 64

/-- `{history[HISTORY_BITS-2:0], taken}`. -/
def shiftIn {H : ℕ} (history : BitVec H) (taken : Bool) : BitVec H :=
  (history.concat taken).setWidth H

/-- The part of a record that restores the history. -/
structure HistoryRecord (H : ℕ) where
  branch : Bool
  actualTaken : Bool
  predictedTaken : Bool
  ghrBefore : BitVec H
deriving DecidableEq

/-- What the two predictors have in common: the targets with the ring of records, and the
two global histories. -/
structure HistoryTable (p : BpParams) (H : ℕ) where
  table : TargetTable p
  historyQ : ℕ → HistoryRecord H
  speculativeGhrQ : BitVec H
  committedGhrQ : BitVec H

namespace HistoryTable

variable {p : BpParams} {H : ℕ} (t : HistoryTable p H) (i : PredictorInput) (conditional : Bool)

/-- Asynchronous reset. -/
def reset : HistoryTable p H where
  table := t.table.reset
  historyQ n := { t.historyQ n with actualTaken := false }
  speculativeGhrQ := 0
  committedGhrQ := 0

def predictionTakenO : Bool :=
  i.lookupValidI && ((i.lookupBranchI && conditional) || (i.lookupJumpI && !i.lookupIndirectI) ||
    (i.lookupIndirectI && t.table.selectedTargetValid i.toBpInput i.rasPredictionValidI))

/-- The record a resolution names. -/
def resolved : HistoryRecord H := t.historyQ (t.table.resolveIndex i.toBpInput)

/-- The oldest record. -/
def head : HistoryRecord H := t.historyQ t.table.inflightHeadQ

def resolvedHistory : BitVec H := shiftIn (t.resolved i).ghrBefore i.resolveTakenI

def committedHeadHistory : BitVec H := shiftIn t.head.ghrBefore t.head.actualTaken

def recordCommitBranch : Bool :=
  if p.enableTaggedResolution then t.head.branch else (t.resolved i).branch

def recordCommitHistory : BitVec H :=
  if p.enableTaggedResolution then t.committedHeadHistory else t.resolvedHistory i

/-- A conditional branch resolves at the head of the ring. -/
def headResolves : Bool :=
  t.table.resolveHasRecord i.toBpInput &&
    t.table.resolveIndex i.toBpInput == t.table.inflightHeadQ && (t.resolved i).branch

def committedGhrNext : BitVec H :=
  if i.flushI && t.headResolves i then t.resolvedHistory i
  else if t.table.recordCommit i.toBpInput && t.recordCommitBranch i then t.recordCommitHistory i
  else t.committedGhrQ

def speculativeGhrNext : BitVec H :=
  if i.flushI then
    if t.headResolves i then t.resolvedHistory i
    else if t.table.recordCommit i.toBpInput then t.recordCommitHistory i
    else t.committedGhrQ
  else if t.table.squashing i.toBpInput then
    if (t.resolved i).branch then t.resolvedHistory i else (t.resolved i).ghrBefore
  else if t.table.allocates i.toBpInput && i.lookupBranchI then
    shiftIn t.speculativeGhrQ conditional
  else t.speculativeGhrQ

/-- A lookup takes the slot at the tail: no recovery is under way. -/
def takesSlot (n : ℕ) : Bool :=
  !i.flushI && !t.table.squashing i.toBpInput && t.table.allocates i.toBpInput &&
    n == t.table.inflightTailQ

def newHistory : HistoryRecord H where
  branch := i.lookupBranchI
  actualTaken := false
  predictedTaken := t.predictionTakenO i conditional
  ghrBefore := t.speculativeGhrQ

def historyNext (n : ℕ) : HistoryRecord H :=
  if t.takesSlot i n then t.newHistory i conditional
  else
    { t.historyQ n with
      actualTaken :=
        if p.enableTaggedResolution && t.table.resolveHasRecord i.toBpInput &&
            n == t.table.resolveIndex i.toBpInput then i.resolveTakenI
        else (t.historyQ n).actualTaken }

def step : HistoryTable p H where
  table := t.table.step i.toBpInput i.rasPredictionValidI i.rasPredictionTargetI
  historyQ := t.historyNext i conditional
  speculativeGhrQ := t.speculativeGhrNext i conditional
  committedGhrQ := t.committedGhrNext i

/-- A conditional branch is resolved in this cycle. -/
def trains : Bool := t.table.resolveHasRecord i.toBpInput && (t.resolved i).branch

end HistoryTable

/-! ## Saturating counters -/

/-- `{1'b1, 0…}`. -/
def weakTaken (w : ℕ) : BitVec w := BitVec.twoPow w (w - 1)

/-- `{1'b0, 1…}`. -/
def weakNotTaken (w : ℕ) : BitVec w := weakTaken w - 1

/-- A counter counts up to its largest value and down to zero. -/
def counted {w : ℕ} (up : Bool) (counter : BitVec w) : BitVec w :=
  if up then if counter = BitVec.allOnes w then counter else counter + 1
  else if counter = 0 then counter else counter - 1

/-- A cold counter starts next to the middle. -/
def trained {w : ℕ} (valid taken : Bool) (counter : BitVec w) : BitVec w :=
  if valid then counted taken counter else if taken then weakTaken w else weakNotTaken w

/-! ## Gshare -/

structure GshareParams where
  bp : BpParams
  phtIndexWidth : ℕ
  counterBits : ℕ
  historyBits : ℕ
  table_ok : bp.bpType.useTablePredictor = true
  index_ok : 1 ≤ phtIndexWidth
  counter_ok : 2 ≤ counterBits
  history_ok : 2 ≤ historyBits ∧ phtIndexWidth ≤ historyBits

/-- `openrv64_exec_bp_gshare_btb`. -/
structure GshareState (g : GshareParams) where
  history : HistoryTable g.bp g.historyBits
  phtValidQ : BitVec g.phtIndexWidth → Bool
  phtCounterQ : BitVec g.phtIndexWidth → BitVec g.counterBits
  inflightPhtIndexQ : ℕ → BitVec g.phtIndexWidth

namespace GshareState

variable {g : GshareParams} (s : GshareState g) (i : PredictorInput)

def reset : GshareState g :=
  { s with
    history := s.history.reset
    phtValidQ := fun _ => false }

def lookupPhtIndex : BitVec g.phtIndexWidth :=
  i.lookupPcI.extractLsb' 2 _ ^^^ s.history.speculativeGhrQ.setWidth _

def conditionalPrediction : Bool :=
  if s.phtValidQ (s.lookupPhtIndex i) then (s.phtCounterQ (s.lookupPhtIndex i)).msb
  else i.lookupBackwardI

def learnedPredictionWeak : Bool :=
  (s.phtCounterQ (s.lookupPhtIndex i)).msb !=
    (s.phtCounterQ (s.lookupPhtIndex i)).getLsbD (g.counterBits - 2)

def predictionWeakO : Bool :=
  i.lookupValidI && i.lookupBranchI &&
    (!s.phtValidQ (s.lookupPhtIndex i) || s.learnedPredictionWeak i)

def resolvedPhtIndex : BitVec g.phtIndexWidth :=
  s.inflightPhtIndexQ (s.history.table.resolveIndex i.toBpInput)

def step : GshareState g where
  history := s.history.step i (s.conditionalPrediction i)
  phtValidQ n := s.phtValidQ n || (s.history.trains i && n == s.resolvedPhtIndex i)
  phtCounterQ n :=
    if s.history.trains i && n == s.resolvedPhtIndex i then
      trained (s.phtValidQ n) i.resolveTakenI (s.phtCounterQ n)
    else s.phtCounterQ n
  inflightPhtIndexQ n :=
    if s.history.takesSlot i n then s.lookupPhtIndex i else s.inflightPhtIndexQ n

end GshareState

/-- The gshare predictor from reset. -/
def gshareBtb (g : GshareParams) : Sync.Circuit (GshareState g) PredictorInput where
  Init s := ∃ s' : GshareState g, s = s'.reset
  step := GshareState.step

/-! ## Tournament -/

structure TournamentParams where
  bp : BpParams
  globalIndexWidth : ℕ
  globalCounterBits : ℕ
  globalHistoryBits : ℕ
  localHistoryIndexWidth : ℕ
  localHistoryBits : ℕ
  localCounterBits : ℕ
  chooserIndexWidth : ℕ
  chooserCounterBits : ℕ
  table_ok : bp.bpType.useTablePredictor = true
  index_ok : 1 ≤ globalIndexWidth ∧ 1 ≤ localHistoryIndexWidth ∧ 1 ≤ chooserIndexWidth
  counter_ok : 2 ≤ globalCounterBits ∧ 2 ≤ localCounterBits ∧ 2 ≤ chooserCounterBits
  global_ok : 2 ≤ globalHistoryBits ∧ globalIndexWidth ≤ globalHistoryBits
  local_ok : 2 ≤ localHistoryBits

/-- What a record keeps of the direction predictors it was predicted with. -/
structure DirectionRecord (g : TournamentParams) where
  globalPrediction : Bool
  localPrediction : Bool
  globalIndex : BitVec g.globalIndexWidth
  localHistoryIndex : BitVec g.localHistoryIndexWidth
  localPhtIndex : BitVec g.localHistoryBits
  chooserIndex : BitVec g.chooserIndexWidth

/-- `openrv64_exec_bp_tournament_btb`; the local table has an entry for each local history. -/
structure TournamentState (g : TournamentParams) where
  history : HistoryTable g.bp g.globalHistoryBits
  globalValidQ : BitVec g.globalIndexWidth → Bool
  globalCounterQ : BitVec g.globalIndexWidth → BitVec g.globalCounterBits
  localHistoryQ : BitVec g.localHistoryIndexWidth → BitVec g.localHistoryBits
  localHistoryValidQ : BitVec g.localHistoryIndexWidth → Bool
  localValidQ : BitVec g.localHistoryBits → Bool
  localCounterQ : BitVec g.localHistoryBits → BitVec g.localCounterBits
  chooserCounterQ : BitVec g.chooserIndexWidth → BitVec g.chooserCounterBits
  chooserValidQ : BitVec g.chooserIndexWidth → Bool
  inflightDirectionQ : ℕ → DirectionRecord g

namespace TournamentState

variable {g : TournamentParams} (s : TournamentState g) (i : PredictorInput)

def reset : TournamentState g :=
  { s with
    history := s.history.reset
    globalValidQ := fun _ => false
    localHistoryValidQ := fun _ => false
    localValidQ := fun _ => false
    chooserValidQ := fun _ => false }

def lookupGlobalIndex : BitVec g.globalIndexWidth :=
  i.lookupPcI.extractLsb' 2 _ ^^^ s.history.speculativeGhrQ.setWidth _

def lookupLocalHistoryIndex : BitVec g.localHistoryIndexWidth := i.lookupPcI.extractLsb' 2 _

def lookupLocalPhtIndex : BitVec g.localHistoryBits :=
  if s.localHistoryValidQ (lookupLocalHistoryIndex i) then
    s.localHistoryQ (lookupLocalHistoryIndex i)
  else 0

def lookupChooserIndex : BitVec g.chooserIndexWidth := i.lookupPcI.extractLsb' 2 _

def globalPrediction : Bool :=
  if s.globalValidQ (s.lookupGlobalIndex i) then (s.globalCounterQ (s.lookupGlobalIndex i)).msb
  else i.lookupBackwardI

def localPrediction : Bool :=
  if s.localValidQ (s.lookupLocalPhtIndex i) then
    (s.localCounterQ (s.lookupLocalPhtIndex i)).msb
  else i.lookupBackwardI

/-- A cold chooser leans to the global side. -/
def chooserCounter (n : BitVec g.chooserIndexWidth) : BitVec g.chooserCounterBits :=
  if s.chooserValidQ n then s.chooserCounterQ n else weakNotTaken _

def chooserSelectLocal : Bool := (s.chooserCounter (lookupChooserIndex i)).msb

def conditionalPrediction : Bool :=
  if s.chooserSelectLocal i then s.localPrediction i else s.globalPrediction i

def conditionalPredictionWeak : Bool :=
  !s.globalValidQ (s.lookupGlobalIndex i) || !s.localHistoryValidQ (lookupLocalHistoryIndex i) ||
    !s.localValidQ (s.lookupLocalPhtIndex i) || s.globalPrediction i != s.localPrediction i

def predictionWeakO : Bool := i.lookupValidI && i.lookupBranchI && s.conditionalPredictionWeak i

def newDirection : DirectionRecord g where
  globalPrediction := s.globalPrediction i
  localPrediction := s.localPrediction i
  globalIndex := s.lookupGlobalIndex i
  localHistoryIndex := lookupLocalHistoryIndex i
  localPhtIndex := s.lookupLocalPhtIndex i
  chooserIndex := lookupChooserIndex i

def resolved : DirectionRecord g := s.inflightDirectionQ (s.history.table.resolveIndex i.toBpInput)

/-- The two predictors disagreed about the branch that is resolved. -/
def disagreed : Bool :=
  s.history.trains i && (s.resolved i).globalPrediction != (s.resolved i).localPrediction

def chooserNext (n : BitVec g.chooserIndexWidth) : BitVec g.chooserCounterBits :=
  if s.disagreed i && n == (s.resolved i).chooserIndex then
    if (s.resolved i).localPrediction == i.resolveTakenI then
      if s.chooserCounter n = BitVec.allOnes _ then s.chooserCounterQ n
      else s.chooserCounter n + 1
    else if s.chooserCounter n = 0 then s.chooserCounterQ n
    else s.chooserCounter n - 1
  else s.chooserCounterQ n

def step : TournamentState g where
  history := s.history.step i (s.conditionalPrediction i)
  globalValidQ n := s.globalValidQ n || (s.history.trains i && n == (s.resolved i).globalIndex)
  globalCounterQ n :=
    if s.history.trains i && n == (s.resolved i).globalIndex then
      trained (s.globalValidQ n) i.resolveTakenI (s.globalCounterQ n)
    else s.globalCounterQ n
  localHistoryQ n :=
    if s.history.trains i && n == (s.resolved i).localHistoryIndex then
      shiftIn (s.resolved i).localPhtIndex i.resolveTakenI
    else s.localHistoryQ n
  localHistoryValidQ n :=
    s.localHistoryValidQ n || (s.history.trains i && n == (s.resolved i).localHistoryIndex)
  localValidQ n := s.localValidQ n || (s.history.trains i && n == (s.resolved i).localPhtIndex)
  localCounterQ n :=
    if s.history.trains i && n == (s.resolved i).localPhtIndex then
      trained (s.localValidQ n) i.resolveTakenI (s.localCounterQ n)
    else s.localCounterQ n
  chooserCounterQ := s.chooserNext i
  chooserValidQ n := s.chooserValidQ n || (s.disagreed i && n == (s.resolved i).chooserIndex)
  inflightDirectionQ n :=
    if s.history.takesSlot i n then s.newDirection i else s.inflightDirectionQ n

end TournamentState

/-- The tournament predictor from reset. -/
def tournamentBtb (g : TournamentParams) : Sync.Circuit (TournamentState g) PredictorInput where
  Init s := ∃ s' : TournamentState g, s = s'.reset
  step := TournamentState.step

end OpenRV64
