/-
What the native L2 computes in a cycle: which beat the command queue offers, what the
beat in the lookup stage may do, and which transaction of the miss registers goes next.
-/
import OpenRV64.L2Native

namespace OpenRV64

open List (range)

namespace L2Params

variable (p : L2Params)

def isRead (op : BitVec 4) : Bool := op == icxOpRead || (p.enableCoherence && op == icxOpLr)

def isWrite (op : BitVec 4) : Bool := op == icxOpWrite || (p.enableCoherence && op == icxOpSc)

end L2Params

/-- The sources whose reads fill a private cache. -/
def isPrivateSource (source : BitVec 2) : Bool :=
  source == icxSourceIcache || source == icxSourceDcache

/-- The `j`-th of `n` indices from `start` on, in turn. -/
def rotate (n start j : ℕ) : ℕ := if n ≤ start + j then start + j - n else start + j

/-- The aperture whose contents the L2 generates: the read word of the random page. -/
def randomWord (state addr : BitVec 64) : BitVec 64 := state ^^^ (addr &&& 0xfc0)

/-- `xorshift64`. -/
def xorshift64 (value : BitVec 64) : BitVec 64 :=
  let a := value ^^^ (value <<< 13)
  let b := a ^^^ (a >>> 7)
  b ^^^ (b <<< 17)

/-- Byte `b` of the aperture: ones in the second page, eight rotations of the random word
in the third, zero elsewhere. -/
def invariantData (state addr : BitVec 64) : LineData := fun b =>
  if addr.toNat / 2 ^ 12 % 2 ^ 12 = 1 then (if b.val % 8 = 0 then 1 else 0)
  else if addr.toNat / 2 ^ 12 % 2 ^ 12 = 2 then
    ((randomWord state addr).rotateLeft (8 * (b.val / 8))).extractLsb' (8 * (b.val % 8)) 8
  else 0

/-- A request to the backing bus. -/
structure BusRequest where
  write : Bool
  addr : BitVec 64
  size : BitVec 3
  wdata : LineData
  wstrb : LineStrobe
  cacheable : Bool

namespace L2State

variable {p : L2Params} (s : L2State p) (i : L2Input p)

/-! ## The command queue -/

def commandQueueFull : Bool := s.cmdCountQ == p.commandEntries

def incomingLockAllowed : Bool :=
  !s.lockActiveQ || (i.reqI.lock && i.reqI.hartId == s.lockHartIdQ &&
    lineAddr i.reqI.addr == s.lockLineAddrQ)

def reqReadyO : Bool := !s.commandQueueFull && s.incomingLockAllowed i

def commandPush : Bool := i.reqValidI && s.reqReadyO i

def cmdHead : L2CommandSlot := s.cmd s.cmdHeadQ

def cmdHeadWrite : Bool := p.isWrite s.cmdHead.command.op

def cmdHeadLine : Bool := s.cmdHead.command.size == 6

def cmdHeadLast : Bool := s.cmdBeatQ == s.cmdHead.command.burstLen

def cmdHeadEffectiveAddr : BitVec 64 :=
  if s.cmdHeadLine then
    lineAddr s.cmdHead.command.addr + BitVec.ofNat 64 (s.cmdBeatQ.toNat * 64)
  else s.cmdHead.command.addr

def cmdHeadOpSupported : Bool :=
  p.isRead s.cmdHead.command.op || p.isWrite s.cmdHead.command.op ||
    s.cmdHead.command.op == icxOpFence

def cmdHeadProtocolError : Bool :=
  !s.cmdHeadOpSupported || (s.cmdHead.command.burstLen != 0 && !s.cmdHeadLine) ||
    (s.cmdHeadLine && s.cmdHead.command.addr &&& 0x3f != 0) ||
    (!s.cmdHeadLine && decide (3 < s.cmdHead.command.size)) ||
    (s.cmdHead.command.lock && (s.cmdHeadLine || s.cmdHead.command.burstLen != 0))

/-- The offered write data belongs to slot `k`.  Only the head can have advanced beyond
beat zero. -/
def wdataMatch (k : ℕ) : Bool :=
  (s.cmd k).entryValid && p.isWrite (s.cmd k).command.op && !(s.cmd k).wdataValid &&
    i.wdataHartIdI == (s.cmd k).command.hartId && i.wdataTxnIdI == (s.cmd k).command.txnId &&
    i.wdataSourceIdI == (s.cmd k).command.sourceId &&
    i.wdataBeatIndexI == (if k == s.cmdHeadQ then s.cmdBeatQ else 0)

def wdataMatches : List ℕ := (List.range p.commandEntries).filter (s.wdataMatch i)

def wdataMatchIndex : ℕ := (s.wdataMatches i).headD 0

def wdataReadyO : Bool := (s.wdataMatches i).length == 1

def wdataFire : Bool := i.wdataValidI && s.wdataReadyO i

/-! ## The response queue -/

def respValidO : Bool := s.responseCountQ != 0

def respO : L2Response := (s.response s.responseHeadQ).response

def responseDequeue : Bool := s.respValidO && i.respReadyI

def responseSpace : Bool := decide (s.responseCountQ < p.responseEntries) || s.responseDequeue i

def hitEnqueue : Bool := s.hitValidQ && s.responseSpace i

def hitSlotReady : Bool := !s.hitValidQ || s.hitEnqueue i

/-! ## The backing bus -/

/-- The transaction that miss register `k` waits to issue. -/
def busWants (k : ℕ) : Option BusAction :=
  if (s.mshr k).valid then
    match (s.mshr k).state with
    | .needWb => some .wb
    | .needFill => some .fill
    | .needBypass => some .bypass
    | _ => none
  else none

def busCandidate : Option ℕ :=
  ((List.range p.mshrEntries).map (rotate p.mshrEntries s.busRoundRobinQ)).find?
    fun k => (s.busWants k).isSome

def busCandidateMshr : ℕ := s.busCandidate.getD s.busRoundRobinQ

def busCandidateAction : BusAction := (s.busWants s.busCandidateMshr).getD .fill

def busRespReadyO : Bool := s.trackCountQ != 0

def busResponseFire : Bool := i.busRespValidI && s.busRespReadyO

def busTrackSpace : Bool := decide (s.trackCountQ < p.busTrackEntries) || s.busResponseFire i

def busReqValidO : Bool := s.busCandidate.isSome && s.busTrackSpace i

def busRequestFire : Bool := s.busReqValidO i && i.busReqReadyI

def busResponseMshr : ℕ := (s.track s.trackHeadQ).1

def busResponseAction : BusAction := (s.track s.trackHeadQ).2

/-- The request of miss register `k`. -/
def busRequestOf (k : ℕ) : BusAction → BusRequest
  | .wb =>
    { write := true
      addr := (s.mshr k).victimAddr
      size := 6
      wdata := (s.mshr k).victimData
      wstrb := (s.mshr k).victimStrb
      cacheable := true }
  | .fill =>
    { write := false
      addr := (s.mshr k).lineAddr
      size := 6
      wdata := .zero
      wstrb := .none
      cacheable := true }
  | .bypass =>
    { write := p.isWrite (s.waiter k 0).op
      addr := (s.waiter k 0).addr
      size := (s.waiter k 0).size
      wdata := (s.waiter k 0).wdata
      wstrb := (s.waiter k 0).wstrb
      cacheable := (s.mshr k).busCacheable }

def busReqO : BusRequest := s.busRequestOf s.busCandidateMshr s.busCandidateAction

def fillSramWrite : Bool := s.busResponseFire i && s.busResponseAction == .fill && !i.busRespErrorI

/-! ## Replay of the waiters -/

def replayWants (k : ℕ) : Bool :=
  (s.mshr k).valid && ((s.mshr k).state == .replay || (s.mshr k).state == .error)

def replayCandidate : Option ℕ :=
  ((List.range p.mshrEntries).map (rotate p.mshrEntries s.replayRoundRobinQ)).find?
    s.replayWants

def replayMshr : ℕ := s.replayCandidate.getD s.replayRoundRobinQ

def replayIndex : ℕ := (s.mshr s.replayMshr).replay

def replayFinal : Bool := decide ((s.mshr s.replayMshr).waiterCount ≤ s.replayIndex + 1)

def replayBeat : L2Beat := s.waiter s.replayMshr s.replayIndex

def replayError : Bool := (s.mshr s.replayMshr).state == .error || (s.mshr s.replayMshr).error

def replayIsWrite : Bool :=
  !s.replayError && !(s.mshr s.replayMshr).bypass && p.isWrite s.replayBeat.op

def replayNeedsSramWrite : Bool := s.replayCandidate.isSome && s.replayIsWrite

def replayEnqueue : Bool :=
  s.replayCandidate.isSome && s.responseSpace i && !s.hitValidQ &&
    (!s.replayNeedsSramWrite || !s.fillSramWrite i)

def responseEnqueue : Bool := s.hitEnqueue i || s.replayEnqueue i

def replayCacheWrite : Bool := s.replayEnqueue i && s.replayIsWrite

def replayWriteData : LineData :=
  (s.mshr s.replayMshr).replayData.merge s.replayBeat.wstrb s.replayBeat.wdata

def replayWriteStrb : LineStrobe := (s.mshr s.replayMshr).replayStrb.or s.replayBeat.wstrb

def replayData : LineData :=
  if s.replayError || !p.isRead s.replayBeat.op then .zero
  else if (s.mshr s.replayMshr).bypass then (s.mshr s.replayMshr).bypassData
  else (s.mshr s.replayMshr).replayData.read s.replayBeat.size s.replayBeat.addr

def replayPrivateFill : Bool :=
  p.enableCoherence && (s.mshr s.replayMshr).busCacheable &&
    (s.replayBeat.op == icxOpRead || s.replayBeat.op == icxOpLr) &&
    isPrivateSource s.replayBeat.sourceId

def lookupSramWriteBlocked : Bool := s.fillSramWrite i || s.replayCacheWrite i

/-- The response that enters the queue: the hit stage's, else the replayed waiter's. -/
def enqueueHit : L2Hit :=
  if s.hitEnqueue i then s.hit
  else
    { hartId := s.replayBeat.hartId
      txnId := s.replayBeat.txnId
      sourceId := s.replayBeat.sourceId
      op := s.replayBeat.op
      lock := s.replayBeat.lock
      beat := s.replayBeat.beat
      last := s.replayBeat.last
      addr := s.replayBeat.addr
      data := s.replayData
      error := s.replayError
      scSuccess := p.enableCoherence && s.replayBeat.op == icxOpSc && !s.replayError
      privateFill := s.replayPrivateFill
      label := s.replayBeat.label }

/-! ## The lookup stage -/

def dir : DirectoryPort p := if p.enableCoherence then i.directory else .tied p

def lookupCacheable : Bool :=
  s.lookup.attr &&& icxAttrCacheable != 0 && !(s.lookup.attr &&& icxAttrDevice != 0)

def lookupLineAddr : BitVec 64 := lineAddr s.lookup.addr

def lookupSet : ℕ := p.setOf s.lookup.addr

def lookupTag : ℕ := p.tagOf s.lookup.addr

def lookupIsPte : Bool := s.lookup.kind == icxKindPte

def lookupIsRead : Bool := p.isRead s.lookup.op

def lookupIsWrite : Bool := p.isWrite s.lookup.op

def lookupInvariantMatch : Bool := p.invariantMatch s.lookup.addr

def lookupPrivateFill : Bool :=
  p.enableCoherence && !s.lookupInvariantMatch && s.lookupCacheable && s.lookupIsRead &&
    isPrivateSource s.lookup.sourceId

def lookupCoherentWrite : Bool :=
  p.enableCoherence && !s.lookupInvariantMatch && s.lookupCacheable && s.lookupIsWrite

def lookupRequestHartMask : HartVec p.numHarts := fun h => s.lookup.hartId == p.hartId h

def lookupRequestHartValid : Bool := s.lookupRequestHartMask.any

/-- The requester holds a reservation of the line.  No two harts have one identity. -/
def lookupScReservationMatch : Bool :=
  HartVec.any fun h => s.lookupRequestHartMask h && s.reservationValidQ h &&
    s.reservationLineQ h == s.lookupLineAddr

def coherenceHartError : Bool := p.enableCoherence && !s.lookupRequestHartValid

def lookupScFailed : Bool :=
  p.enableCoherence && s.lookup.op == icxOpSc && !s.lookupScReservationMatch

def writeProbeTargets : HartVec p.numHarts :=
  fun h => (dir i).lookupDSharers h && !s.lookupRequestHartMask h

def victimSharers : HartVec p.numHarts :=
  fun h => (dir i).victimISharers h || (dir i).victimDSharers h

def privateProbeNeeded : Bool :=
  s.lookupPrivateFill && !(dir i).lookupHit && (dir i).victimValid && (victimSharers i).any

def writeProbeNeeded : Bool :=
  s.lookupCoherentWrite && !s.lookupScFailed && (dir i).lookupHit && (s.writeProbeTargets i).any

def probeNeeded : Bool := s.privateProbeNeeded i || s.writeProbeNeeded i

def lookupResultReady : Bool :=
  !p.enableCoherence || (dir i).lookupResponseValid || s.lookupCohResponseSeenQ

/-- Miss register `k` waits for acknowledgements of its probe. -/
def probing (k : ℕ) : Bool := (s.mshr k).state == .needProbe || (s.mshr k).state == .probeInflight

def coherenceSetLocked : Bool :=
  (List.range p.mshrEntries).any fun k =>
    (s.mshr k).valid && ((s.mshr k).privateFill || s.probing k) &&
      p.directorySetOf (s.mshr k).lineAddr == p.directorySetOf s.lookupLineAddr &&
      (s.mshr k).lineAddr != s.lookupLineAddr

/-- A response that fills a private cache has not been accepted yet, and its line shares
the directory set. -/
def pendingFillSetLocked : Bool :=
  (s.hitValidQ && s.hit.privateFill &&
      p.directorySetOf s.hit.addr == p.directorySetOf s.lookupLineAddr) ||
    (List.range p.responseEntries).any fun k =>
      (s.response k).privateFill && (s.response k).directorySet == p.directorySetOf s.lookupLineAddr

def probeCandidate : Option ℕ :=
  (List.range p.mshrEntries).find? fun k => (s.mshr k).valid && (s.mshr k).state == .needProbe

def probeCandidateMshr : ℕ := s.probeCandidate.getD 0

def probeStartFire : Bool := s.probeCandidate.isSome && (p.enableCoherence && s.tracker.startReadyO)

def probeCompletion : Bool := p.enableCoherence && s.tracker.doneValidQ

/-- The tag of a way matches, and the way may be used. -/
def wayMatches (way : ℕ) : Bool :=
  (s.wayMeta s.lookupSet way).valid && !(s.wayMeta s.lookupSet way).reserved &&
    (s.way way).readTagO.tag == s.lookupTag

/-- A page-table read refuses a line that an earlier generation filled. -/
def wayStale (way : ℕ) : Bool :=
  s.lookupIsPte && (s.way way).readTagO.generation != s.pteGenerationQ

def hitWay : Option ℕ := (List.range p.ways).find? fun way => s.wayMatches way && !s.wayStale way

def lookupHitWay : ℕ := s.hitWay.getD 0

def staleWay : Option ℕ := (List.range p.ways).find? fun way => s.wayMatches way && s.wayStale way

def hitPayload : SramPayload := (s.way s.lookupHitWay).readDataO

/-- Miss register `k` owns the line of the lookup stage: it fills the line, or writes
around it. -/
def mshrMatches (k : ℕ) : Bool :=
  (s.mshr k).valid && (!(s.mshr k).bypass || (s.mshr k).busCacheable) &&
    (s.mshr k).lineAddr == s.lookupLineAddr

def mshrMatch : Option ℕ := (List.range p.mshrEntries).find? s.mshrMatches

def lookupMshrIndex : ℕ := s.mshrMatch.getD 0

def mshrMergeable (k : ℕ) : Bool :=
  !(s.mshr k).bypass && !(s.probing k && (s.mshr k).cohAction == .clear) &&
    (s.mshr k).state != .replay && (s.mshr k).state != .error &&
    decide ((s.mshr k).waiterCount < p.waitersPerMshr)

/-- Miss register `k` holds the only copy of the line: a dirty victim whose writeback has
not been answered. -/
def dirtyVictimMatches (k : ℕ) : Bool :=
  (s.mshr k).valid && !(s.mshr k).bypass &&
    ((s.mshr k).state == .needWb || (s.mshr k).state == .wbInflight) &&
    (s.mshr k).victimAddr == s.lookupLineAddr

def dirtyVictim : Option ℕ := (List.range p.mshrEntries).find? s.dirtyVictimMatches

def mshrFree : Option ℕ := (List.range p.mshrEntries).find? fun k => !(s.mshr k).valid

def mshrFreeIndex : ℕ := s.mshrFree.getD 0

/-- The way that a miss fills: the stale one, an unused one, or the next in turn. -/
def victim : Option ℕ :=
  s.staleWay <|>
    ((List.range p.ways).find? fun way =>
      !(s.wayMeta s.lookupSet way).valid && !(s.wayMeta s.lookupSet way).reserved) <|>
    (((List.range p.ways).map (rotate p.ways (s.replaceQ s.lookupSet))).find? fun way =>
      !(s.wayMeta s.lookupSet way).reserved)

def victimWay : ℕ := s.victim.getD 0

def victimPayload : SramPayload := (s.way s.victimWay).readDataO

def victimTag : ℕ := (s.way s.victimWay).readTagO.tag

def victimDirty : Bool :=
  (s.wayMeta s.lookupSet s.victimWay).valid && (s.wayMeta s.lookupSet s.victimWay).dirty

def fenceDrainComplete : Bool :=
  ((List.range p.mshrEntries).all fun k => !(s.mshr k).valid) && s.trackCountQ == 0 &&
    s.responseCountQ == 0 && !s.hitValidQ

/-- The lookup stage holds a beat that nothing blocks for the sake of the directory. -/
def lookupOpen : Bool :=
  s.lookupValidQ && s.lookupResultReady i && !s.probeCompletion &&
    !s.pendingFillSetLocked && (!s.coherenceSetLocked || s.mshrMatch.isSome)

/-- What the beat would do if no probe were needed. -/
def lookupBaseAction : LookupAction :=
  if s.lookupProtocolErrorQ || s.coherenceHartError then
    if s.hitSlotReady i then .immediate else .none
  else if s.lookupInvariantMatch then
    if s.hitSlotReady i then .immediate else .none
  else if s.lookupScFailed then
    if s.hitSlotReady i then .immediate else .none
  else if s.lookup.op == icxOpFence then
    if s.fenceDrainComplete && s.hitSlotReady i then .immediate else .none
  else if !s.lookupCacheable then
    if s.mshrFree.isSome then .bypass else .none
  else if s.mshrMatch.isSome then
    if s.mshrMergeable s.lookupMshrIndex && (!s.lookupCoherentWrite || !p.enableCoherence) &&
        (!s.probeNeeded i || (s.privateProbeNeeded i &&
          (s.mshr s.lookupMshrIndex).cohAction == .allocate &&
          s.probing s.lookupMshrIndex)) then .merge
    else .none
  else if s.dirtyVictim.isSome then
    if s.lookupIsRead && s.hitSlotReady i then .victimHit else .none
  else if s.hitWay.isSome then
    if s.hitSlotReady i && (!s.lookupIsWrite || !s.lookupSramWriteBlocked i) then .hit
    else .none
  else if s.lookupIsWrite && !(p.enableCoherence && s.lookup.op == icxOpSc) &&
      s.mshrFree.isSome then .writeAround
  else if s.mshrFree.isSome && s.victim.isSome then .alloc
  else .none

def lookupAction : LookupAction :=
  if !s.lookupOpen i then .none
  else if s.probeNeeded i && s.lookupBaseAction i != .none then
    if s.lookupBaseAction i == .merge then .merge
    else if s.mshrFree.isSome && (s.lookupBaseAction i == .hit ||
        s.lookupBaseAction i == .alloc || s.lookupBaseAction i == .writeAround) then .cohProbe
    else .none
  else s.lookupBaseAction i

def lookupDispatch : Bool := s.lookupAction i != .none

def lookupAllocates : Bool :=
  s.lookupAction i == .alloc || s.lookupAction i == .bypass ||
    s.lookupAction i == .writeAround || s.lookupAction i == .cohProbe

def lookupAnswers : Bool :=
  s.lookupAction i == .immediate || s.lookupAction i == .hit || s.lookupAction i == .victimHit

def lookupHitWrite : Bool := s.lookupAction i == .hit && s.lookupIsWrite

def lookupDirectoryWrite : Bool :=
  p.enableCoherence && s.lookupDispatch i && !s.lookupProtocolErrorQ &&
    !s.coherenceHartError && !s.probeCompletion &&
    ((s.lookupPrivateFill && !s.privateProbeNeeded i) ||
      (s.lookup.op == icxOpSc && !s.lookupScFailed && (dir i).lookupHit &&
        !(s.writeProbeTargets i).any))

def directoryWriteValid : Bool := s.probeCompletion || s.lookupDirectoryWrite i

def lookupStageReady : Bool := !s.lookupValidQ || s.lookupDispatch i

def commandSourceValid : Bool := s.cmdCountQ != 0 && (!s.cmdHeadWrite || s.cmdHead.wdataValid)

def lookupCapture : Bool :=
  s.commandSourceValid && s.lookupStageReady i && (dir i).lookupReady && !s.directoryWriteValid i

def commandPop : Bool := s.lookupCapture i && s.cmdHeadLast

def commandAdvance : Bool := s.lookupCapture i && !s.cmdHeadLast

/-- What a beat in the lookup stage answers at once. -/
def lookupAnswerData : LineData :=
  if s.lookupAction i == .immediate && s.lookupInvariantMatch && s.lookup.op == icxOpRead then
    invariantData s.randomStateQ s.lookup.addr
  else if s.lookupAction i == .hit && s.lookupIsRead then
    s.hitPayload.data.read s.lookup.size s.lookup.addr
  else if s.lookupAction i == .victimHit && s.lookupIsRead then
    (s.mshr (s.dirtyVictim.getD 0)).victimData.read s.lookup.size s.lookup.addr
  else .zero

def pteGenerationAdvance : Bool :=
  s.lookupAction i == .immediate && !s.lookupProtocolErrorQ &&
    s.lookup.op == icxOpFence && s.lookup.kind == icxKindPte

def invariantReadFire : Bool :=
  s.lookupDispatch i && s.lookupInvariantMatch && s.lookup.op == icxOpRead &&
    !s.lookupProtocolErrorQ && !s.coherenceHartError

end L2State

end OpenRV64
