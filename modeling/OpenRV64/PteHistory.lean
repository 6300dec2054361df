/-
What a run of the native L2 has done to each copy of a line: how many page-table fences came
before the fill that fetched it, and how often the generation had advanced when its miss was
taken.  The history is read off the past; it is no part of the registers.
-/
import OpenRV64.L2Runs

namespace OpenRV64

/-- A copy of a line. -/
structure LineCopy where
  /-- the fences dispatched before the request that fetched it -/
  fetched : ℕ
  /-- the advances of the generation before its miss was taken -/
  advance : ℕ
  payload : SramPayload

namespace L2State

variable {p : L2Params} (s : L2State p) (i : L2Input p)

/-- A page-table fence is answered without error.  It has waited until nothing is under way. -/
def fenceFire : Bool := s.pteGenerationAdvance i && !s.coherenceHartError && !s.lookupInvariantMatch

/-- The fill of register `k` is requested, or its line arrives. -/
def fetchesAt (k : ℕ) : Bool := s.requestsAt i k && s.busCandidateAction == .fill

def fillsAt (k : ℕ) : Bool := s.answeredAt i k && s.busResponseAction == .fill && !i.busRespErrorI

def writesBackAt (k : ℕ) : Bool :=
  s.answeredAt i k && s.busResponseAction == .wb && !i.busRespErrorI

def cacheWritesAt (k : ℕ) : Bool := s.replayCacheWrite i && k == s.replayMshr

end L2State

/-- The bytes of a beat over a payload. -/
def SramPayload.written (d : SramPayload) (b : L2Beat) : SramPayload :=
  ⟨d.data.merge b.wstrb b.wdata, d.strb.or b.wstrb⟩

structure PteHistory where
  fences : ℕ
  advances : ℕ
  /-- the fences dispatched before the command of a label was accepted -/
  acceptFences : ℕ → ℕ
  way : ℕ → ℕ → LineCopy
  /-- the copy that a miss register fetches, or has taken over from its way -/
  held : ℕ → LineCopy
  taken : ℕ → ℕ
  resident : ℕ → Bool
  /-- the address and the payload of the dirty line that a miss register replaces -/
  evicted : ℕ → Option (BitVec 64 × SramPayload)
  writtenBack : ℕ → Bool

namespace PteHistory

variable {p : L2Params} (h : PteHistory) (s : L2State p) (i : L2Input p)

def empty : PteHistory where
  fences := 0
  advances := 0
  acceptFences _ := 0
  way _ _ := ⟨0, 0, ⟨.zero, .none⟩⟩
  held _ := ⟨0, 0, ⟨.zero, .none⟩⟩
  taken _ := 0
  resident _ := false
  evicted _ := none
  writtenBack _ := false

def heldNext (k : ℕ) : LineCopy :=
  if s.allocates i k then
    if s.lookupBaseAction i == .hit then h.way s.lookupSet s.lookupHitWay
    else { h.held k with advance := h.advances }
  else if s.fetchesAt i k then { h.held k with fetched := h.fences }
  else if s.fillsAt i k then { h.held k with payload := ⟨i.busRespRdataI, .none⟩ }
  else if s.cacheWritesAt i k then
    { h.held k with payload := (h.held k).payload.written s.replayBeat }
  else h.held k

def wayNext (set way : ℕ) : LineCopy :=
  if s.fillSramWrite i && s.wayOf s.busResponseMshr set way then
    { h.held s.busResponseMshr with payload := ⟨i.busRespRdataI, .none⟩ }
  else if s.replayCacheWrite i && s.wayOf s.replayMshr set way then
    { h.held s.replayMshr with payload := (h.held s.replayMshr).payload.written s.replayBeat }
  else if s.lookupHitWrite i && set == s.lookupSet && way == s.lookupHitWay then
    { h.way set way with payload := (h.way set way).payload.written s.lookup }
  else h.way set way

def evictedNext (k : ℕ) : Option (BitVec 64 × SramPayload) :=
  if s.allocates i k then
    if s.lookupBaseAction i == .alloc && s.victimDirty then
      some (p.lineOf s.victimTag s.lookupSet, (h.way s.lookupSet s.victimWay).payload)
    else none
  else h.evicted k

def next : PteHistory where
  fences := if s.fenceFire i then h.fences + 1 else h.fences
  advances := if s.pteGenerationAdvance i then h.advances + 1 else h.advances
  acceptFences n := if s.commandPush i && n == s.acceptedQ then h.fences else h.acceptFences n
  way := h.wayNext s i
  held := h.heldNext s i
  taken k := if s.allocates i k then h.advances else h.taken k
  resident k := if s.allocates i k then s.lookupBaseAction i == .hit else h.resident k
  evicted := h.evictedNext s i
  writtenBack k :=
    if s.allocates i k then false else s.writesBackAt i k || h.writtenBack k

/-- The history of a run. -/
def of : Sync.Past (L2State p) (L2Input p) → PteHistory
  | [] => empty
  | (s, i) :: past => (of past).next s i

end PteHistory

end OpenRV64
