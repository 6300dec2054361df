/-
One clock edge of the native L2.  Each register takes the assignments of the source in
their order, so that a later one wins.
-/
import OpenRV64.L2Lookup
import OpenRV64.RingSegment
import OpenRV64.SyncRun

namespace OpenRV64

/-- The fields of a miss register that reset sets. -/
structure Mshr.Reset {p : L2Params} (m : Mshr p) : Prop where
  valid : m.valid = false
  bypass : m.bypass = false
  state : m.state = .idle
  waiters : m.waiterCount = 0 ∧ m.replay = 0
  error : m.error = false
  fill : m.privateFill = false ∧ m.pteGeneration = 0 ∧ m.busCacheable = false
  strobes : m.victimStrb = .none ∧ m.replayStrb = .none
  probe : m.cohAction = .allocate ∧ m.postProbeState = .idle ∧ m.directoryEntry = 0 ∧
    m.probeTarget = (fun _ => false) ∧ m.probeCacheMask = 0 ∧ m.probeLineAddr = 0
  directory : m.directoryAddI = (fun _ => false) ∧ m.directoryAddD = (fun _ => false) ∧
    m.directoryClearD = fun _ => false

namespace L2State

open RingSegment

variable {p : L2Params} (s : L2State p) (i : L2Input p)

/-! ## The command queue -/

def cmdNext (k : ℕ) : L2CommandSlot :=
  let pushed : L2CommandSlot :=
    if s.commandPush i && k == s.cmdTailQ then
      { s.cmd k with
        command := { i.reqI with label := s.acceptedQ }
        entryValid := true
        wdataValid := false
        wdataError := false }
    else s.cmd k
  let offered : L2CommandSlot :=
    if s.wdataFire i && k == s.wdataMatchIndex i then
      { pushed with
        wdataValid := true
        wdata := i.wdataI
        wstrb := i.wstrbI
        wdataError := i.wdataLastI != (i.wdataBeatIndexI == (s.cmd k).command.burstLen) }
    else pushed
  let popped : L2CommandSlot :=
    if s.commandPop i && k == s.cmdHeadQ && !(s.commandPush i && s.cmdTailQ == s.cmdHeadQ) then
      { offered with
        entryValid := false
        wdataValid := false
        wdataError := false }
    else offered
  if s.lookupCapture i && s.cmdHeadWrite && k == s.cmdHeadQ then
    { popped with
      wdataValid := false
      wdataError := false }
  else popped

def lockNext : Bool × BitVec 4 × BitVec 64 :=
  let taken :=
    if s.commandPush i && i.reqI.lock && !s.lockActiveQ && i.reqI.op == icxOpRead then
      (true, i.reqI.hartId, lineAddr i.reqI.addr)
    else (s.lockActiveQ, s.lockHartIdQ, s.lockLineAddrQ)
  if s.responseEnqueue i && (s.enqueueHit i).lock &&
      ((s.enqueueHit i).op == icxOpWrite || (s.enqueueHit i).error) &&
      (s.enqueueHit i).hartId == s.lockHartIdQ then (false, taken.2)
  else taken

/-! ## The lookup and hit stages -/

/-- The beat at the head of the command queue. -/
def capturedBeat : L2Beat where
  hartId := s.cmdHead.command.hartId
  txnId := s.cmdHead.command.txnId
  sourceId := s.cmdHead.command.sourceId
  op := s.cmdHead.command.op
  lock := s.cmdHead.command.lock
  order := s.cmdHead.command.order
  kind := s.cmdHead.command.kind
  attr := s.cmdHead.command.attr
  size := s.cmdHead.command.size
  addr := s.cmdHeadEffectiveAddr
  beat := s.cmdBeatQ
  last := s.cmdHeadLast
  wdata := s.cmdHead.wdata
  wstrb := s.cmdHead.wstrb
  label := s.cmdHead.command.label

def hitNext : L2Hit :=
  if s.lookupAnswers i then
    { hartId := s.lookup.hartId
      txnId := s.lookup.txnId
      sourceId := s.lookup.sourceId
      op := s.lookup.op
      lock := s.lookup.lock
      beat := s.lookup.beat
      last := s.lookup.last
      addr := s.lookup.addr
      data := s.lookupAnswerData i
      error := s.lookupProtocolErrorQ || s.coherenceHartError ||
        (s.lookupInvariantMatch && s.lookup.op != icxOpRead && s.lookup.op != icxOpWrite)
      scSuccess := p.enableCoherence && s.lookup.op == icxOpSc && s.lookupScReservationMatch
      privateFill := s.lookupPrivateFill && !s.lookupProtocolErrorQ && !s.coherenceHartError
      label := s.lookup.label }
  else s.hit

/-! ## Reservations -/

/-- An LR reserves when its response is enqueued without error. -/
def lrReserves (h : Fin p.numHarts) : Bool :=
  p.enableCoherence && s.responseEnqueue i && !(s.enqueueHit i).error &&
    (s.enqueueHit i).op == icxOpLr && (s.enqueueHit i).hartId == p.hartId h

/-- A dispatched SC ends the requester's reservation, and a dispatched coherent write
those of its line. -/
def reservationCleared (h : Fin p.numHarts) : Bool :=
  p.enableCoherence && s.lookupDispatch i && !s.lookupProtocolErrorQ && !s.coherenceHartError &&
    ((s.lookup.op == icxOpSc && s.lookupRequestHartMask h) ||
      (s.lookupCoherentWrite && (s.lookup.op != icxOpSc || s.lookupScReservationMatch) &&
        s.reservationValidQ h && s.reservationLineQ h == s.lookupLineAddr))

/-! ## The miss registers -/

/-- The beat in the lookup stage joins the waiters of miss register `k`. -/
def merges (k : ℕ) : Bool := s.lookupAction i == .merge && k == s.lookupMshrIndex

/-- The beat in the lookup stage takes miss register `k`. -/
def allocates (k : ℕ) : Bool := s.lookupAllocates i && k == s.mshrFreeIndex

def mergeUpdate (k : ℕ) (m : Mshr p) : Mshr p :=
  if s.merges i k then
    { m with
      waiterCount := (s.mshr k).waiterCount + 1
      privateFill := if s.lookupPrivateFill then true else m.privateFill
      directoryAddI := fun h =>
        m.directoryAddI h || (s.privateProbeNeeded i &&
          s.lookup.sourceId == icxSourceIcache && s.lookupRequestHartMask h)
      directoryAddD := fun h =>
        m.directoryAddD h || (s.privateProbeNeeded i &&
          s.lookup.sourceId == icxSourceDcache && s.lookupRequestHartMask h) }
  else m

/-- The victim of a new miss, and the way that it is going to fill. -/
def allocVictim (m : Mshr p) : Mshr p :=
  { m with
    set := s.lookupSet
    tag := s.lookupTag
    way := s.victimWay
    pteGeneration := s.pteGenerationQ
    victimAddr := p.lineOf s.victimTag s.lookupSet
    victimData := s.victimPayload.data
    victimStrb := s.victimPayload.strb }

/-- A resident line that waits for a probe before it is written. -/
def allocHit (m : Mshr p) : Mshr p :=
  { m with
    set := s.lookupSet
    tag := s.lookupTag
    way := s.lookupHitWay
    pteGeneration := s.pteGenerationQ
    replayData := s.hitPayload.data
    replayStrb := s.hitPayload.strb }

/-- What the miss does once nothing has to be probed. -/
def allocState : MshrState :=
  if s.lookupBaseAction i == .hit then .replay
  else if s.lookupBaseAction i == .alloc then
    (if s.victimDirty then .needWb else .needFill)
  else .needBypass

/-- The probe that a new miss needs, and what becomes of the directory entry. -/
def allocProbe (m : Mshr p) : Mshr p :=
  if s.privateProbeNeeded i then
    { m with
      cohAction := .allocate
      directoryEntry := (dir i).victimEntry
      probeTarget := victimSharers i
      probeCacheMask :=
        (if HartVec.any (dir i).victimDSharers then icxProbeCacheD else 0) |||
          (if HartVec.any (dir i).victimISharers then icxProbeCacheI else 0)
      probeLineAddr := (dir i).victimLineAddr
      directoryAddI := fun h =>
        s.lookup.sourceId == icxSourceIcache && s.lookupRequestHartMask h
      directoryAddD := fun h =>
        s.lookup.sourceId == icxSourceDcache && s.lookupRequestHartMask h
      directoryClearD := fun _ => false }
  else
    { m with
      cohAction := .clear
      directoryEntry := (dir i).lookupEntry
      probeTarget := s.writeProbeTargets i
      probeCacheMask := icxProbeCacheD
      probeLineAddr := s.lookupLineAddr
      directoryAddI := (dir i).lookupISharers
      directoryAddD := (dir i).lookupDSharers
      directoryClearD := fun h =>
        s.lookup.op == icxOpSc || s.writeProbeTargets i h }

/-- What a miss register holds once the beat in the lookup stage has taken it. -/
def allocated (m : Mshr p) : Mshr p :=
  let taken : Mshr p :=
    { m with
      valid := true
      bypass := s.lookupAction i == .bypass || s.lookupAction i == .writeAround ||
        (s.lookupAction i == .cohProbe && s.lookupBaseAction i == .writeAround)
      busCacheable := s.lookupCacheable
      lineAddr := s.lookupLineAddr
      waiterCount := 1
      replay := 0
      error := false
      replayStrb := .none
      privateFill := s.lookupPrivateFill }
  let placed : Mshr p :=
    if s.lookupBaseAction i == .hit then s.allocHit taken
    else if s.lookupBaseAction i == .alloc then s.allocVictim taken
    else taken
  if s.lookupAction i == .cohProbe then
    s.allocProbe i { placed with
      state := .needProbe
      postProbeState := s.allocState i }
  else { placed with state := s.allocState i }

def allocUpdate (k : ℕ) (m : Mshr p) : Mshr p :=
  if s.allocates i k then s.allocated i m else m

/-- The events beside a lookup that name a miss register, at register `k`. -/
def probeStartsAt (k : ℕ) : Bool := s.probeStartFire && k == s.probeCandidateMshr

def probeDoneAt (k : ℕ) : Bool := s.probeCompletion && k == s.activeProbeMshrQ

def requestsAt (k : ℕ) : Bool := s.busRequestFire i && k == s.busCandidateMshr

def answeredAt (k : ℕ) : Bool := s.busResponseFire i && k == s.busResponseMshr

def replaysAt (k : ℕ) : Bool := s.replayEnqueue i && k == s.replayMshr

def probeUpdate (k : ℕ) (m : Mshr p) : Mshr p :=
  let started : Mshr p :=
    if s.probeStartsAt k then { m with state := .probeInflight } else m
  if s.probeDoneAt k then { started with state := (s.mshr k).postProbeState } else started

def busRequestUpdate (k : ℕ) (m : Mshr p) : Mshr p :=
  if s.requestsAt i k then { m with state := s.busCandidateAction.inflight } else m

/-- A miss register after the answer to its transaction. -/
def answered (m : Mshr p) : Mshr p :=
  let taken : Mshr p :=
    match s.busResponseAction with
    | .wb => m
    | .fill =>
      if i.busRespErrorI then m
      else
        { m with
          replayData := i.busRespRdataI
          replayStrb := .none }
    | .bypass => { m with bypassData := i.busRespRdataI }
  if i.busRespErrorI then
    { taken with
      error := true
      state := .error }
  else
    { taken with state := if s.busResponseAction == .wb then .needFill else .replay }

def busResponseUpdate (k : ℕ) (m : Mshr p) : Mshr p :=
  if s.answeredAt i k then s.answered i m else m

/-- A miss register after one of its waiters has been answered. -/
def replayed (k : ℕ) (m : Mshr p) : Mshr p :=
  if s.replayFinal then
    { m with
      valid := false
      state := .idle
      waiterCount := 0
      replay := 0 }
  else { m with replay := (s.mshr k).replay + 1 }

def replayUpdate (k : ℕ) (m : Mshr p) : Mshr p :=
  let written : Mshr p :=
    if s.replayCacheWrite i && k == s.replayMshr then
      { m with
        replayData := s.replayWriteData
        replayStrb := s.replayWriteStrb }
    else m
  if s.replaysAt i k then s.replayed k written else written

def mshrNext (k : ℕ) : Mshr p :=
  s.replayUpdate i k <| s.busResponseUpdate i k <| s.busRequestUpdate i k <|
    s.probeUpdate k <| s.allocUpdate i k <| s.mergeUpdate i k <| s.mshr k

def waiterNext (k j : ℕ) : L2Beat :=
  if (s.merges i k && j == (s.mshr k).waiterCount) || (s.allocates i k && j == 0) then
    s.lookup
  else s.waiter k j

/-! ## The cache's ways -/

/-- The way that the beat in the lookup stage reserves for a miss register. -/
def reserves (set way : ℕ) : Bool :=
  s.lookupAllocates i && set == s.lookupSet &&
    ((s.lookupBaseAction i == .hit && way == s.lookupHitWay) ||
      (s.lookupBaseAction i == .alloc && way == s.victimWay))

/-- `set` and `way` are those of miss register `k`. -/
def wayOf (k set way : ℕ) : Bool := set == (s.mshr k).set && way == (s.mshr k).way

def wayMetaNext (set way : ℕ) : WayMeta :=
  let hit : WayMeta :=
    if s.lookupHitWrite i && set == s.lookupSet && way == s.lookupHitWay then
      { s.wayMeta set way with dirty := true }
    else s.wayMeta set way
  let reserved : WayMeta :=
    if s.reserves i set way then { hit with reserved := true } else hit
  let answered : WayMeta :=
    if s.busResponseFire i && !i.busRespErrorI && s.wayOf s.busResponseMshr set way then
      match s.busResponseAction with
      | .wb =>
        { reserved with
          valid := false
          dirty := false }
      | .fill =>
        { reserved with
          valid := true
          dirty := false }
      | .bypass => reserved
    else reserved
  let written : WayMeta :=
    if s.replayCacheWrite i && s.wayOf s.replayMshr set way then
      { answered with dirty := true }
    else answered
  if s.replayEnqueue i && s.replayFinal && !(s.mshr s.replayMshr).bypass &&
      s.wayOf s.replayMshr set way then { written with reserved := false }
  else written

def replaceNext (set : ℕ) : ℕ :=
  if s.fillSramWrite i && set == (s.mshr s.busResponseMshr).set then
    if (s.mshr s.busResponseMshr).way = p.ways - 1 then 0
    else (s.mshr s.busResponseMshr).way + 1
  else s.replaceQ set

/-- The write port of the memories: whether, which set and way, the payload, and the
tag when it is written. -/
structure SramWrite (p : L2Params) where
  valid : Bool
  set : ℕ
  way : ℕ
  payload : SramPayload
  writeTag : Bool
  tag : SramTag p

/-- A fill has priority over a replayed write, and that over a write that hits. -/
def sramWrite : SramWrite p :=
  if s.fillSramWrite i then
    { valid := true
      set := (s.mshr s.busResponseMshr).set
      way := (s.mshr s.busResponseMshr).way
      payload := ⟨i.busRespRdataI, .none⟩
      writeTag := true
      tag := ⟨(s.mshr s.busResponseMshr).pteGeneration, (s.mshr s.busResponseMshr).tag⟩ }
  else if s.replayCacheWrite i then
    { valid := true
      set := (s.mshr s.replayMshr).set
      way := (s.mshr s.replayMshr).way
      payload := ⟨s.replayWriteData, s.replayWriteStrb⟩
      writeTag := false
      tag := ⟨0, 0⟩ }
  else if s.lookupHitWrite i then
    { valid := true
      set := s.lookupSet
      way := s.lookupHitWay
      payload :=
        ⟨s.hitPayload.data.merge s.lookup.wstrb s.lookup.wdata, s.hitPayload.strb.or s.lookup.wstrb⟩
      writeTag := false
      tag := ⟨0, 0⟩ }
  else
    { valid := false
      set := 0
      way := 0
      payload := ⟨.zero, .none⟩
      writeTag := false
      tag := ⟨0, 0⟩ }

def wayNext (way : ℕ) : SramWay p :=
  (s.way way).step (s.lookupCapture i || (s.lookupValidQ && !s.lookupDispatch i))
    (if s.lookupCapture i then p.setOf s.cmdHeadEffectiveAddr else s.lookupSet)
    ((s.sramWrite i).valid && (s.sramWrite i).way == way) (s.sramWrite i).set
    (s.sramWrite i).payload (s.sramWrite i).writeTag (s.sramWrite i).tag

/-! ## The response queue -/

def responseNext (k : ℕ) : L2ResponseSlot :=
  let entered : L2ResponseSlot :=
    if s.responseEnqueue i && k == s.responseTailQ then
      { response :=
          { hartId := (s.enqueueHit i).hartId
            txnId := (s.enqueueHit i).txnId
            sourceId := (s.enqueueHit i).sourceId
            beat := (s.enqueueHit i).beat
            last := (s.enqueueHit i).last
            data := (s.enqueueHit i).data
            error := (s.enqueueHit i).error
            scSuccess := (s.enqueueHit i).scSuccess
            label := (s.enqueueHit i).label }
        privateFill := !(s.enqueueHit i).error && (s.enqueueHit i).privateFill
        directorySet := p.directorySetOf (s.enqueueHit i).addr }
    else s.response k
  if s.responseDequeue i && k == s.responseHeadQ &&
      !(s.responseEnqueue i && s.responseTailQ == s.responseHeadQ) then
    { entered with privateFill := false }
  else entered

/-! ## The edge -/

def badProbeResponse : HartVec p.numHarts := fun h =>
  i.probeRespValidI h && (i.probeRespKindI h != icxProbeRespAck || i.probeRespErrorI h)

def trackerInput : ProbeTrackerInput p.numHarts where
  startValidI := s.probeCandidate.isSome
  startTargetHartsI := (s.mshr s.probeCandidateMshr).probeTarget
  startProbeIdI := s.nextProbeIdQ
  startCommandI := icxProbeInv
  startCacheMaskI := (s.mshr s.probeCandidateMshr).probeCacheMask
  startLineAddrI := (s.mshr s.probeCandidateMshr).probeLineAddr
  probeReadyI := i.probeReadyI
  probeAckValidI := fun h => i.probeRespValidI h && !badProbeResponse i h
  probeAckIdI := i.probeRespIdI
  doneReadyI := true
  protocolErrorClearI := i.protocolErrorClearI

def step : L2State p where
  way := s.wayNext i
  wayMeta := s.wayMetaNext i
  replaceQ := s.replaceNext i
  pteGenerationQ :=
    if s.pteGenerationAdvance i then s.pteGenerationQ + 1 else s.pteGenerationQ
  cmd := s.cmdNext i
  cmdHeadQ := if s.commandPop i then next p.commandEntries s.cmdHeadQ else s.cmdHeadQ
  cmdTailQ := if s.commandPush i then next p.commandEntries s.cmdTailQ else s.cmdTailQ
  cmdCountQ := occupancy s.cmdCountQ (s.commandPush i) (s.commandPop i)
  cmdBeatQ :=
    if s.commandPop i then 0
    else if s.commandAdvance i then s.cmdBeatQ + 1
    else s.cmdBeatQ
  lookupValidQ :=
    if s.lookupCapture i then true
    else if s.lookupDispatch i then false
    else s.lookupValidQ
  lookup := if s.lookupCapture i then s.capturedBeat else s.lookup
  lookupProtocolErrorQ :=
    if s.lookupCapture i then s.cmdHeadProtocolError || s.cmdHead.wdataError
    else s.lookupProtocolErrorQ
  hitValidQ :=
    if s.lookupAnswers i then true else if s.hitEnqueue i then false else s.hitValidQ
  hit := s.hitNext i
  mshr := s.mshrNext i
  waiter := s.waiterNext i
  response := s.responseNext i
  responseHeadQ :=
    if s.responseDequeue i then next p.responseEntries s.responseHeadQ
    else s.responseHeadQ
  responseTailQ :=
    if s.responseEnqueue i then next p.responseEntries s.responseTailQ
    else s.responseTailQ
  responseCountQ := occupancy s.responseCountQ (s.responseEnqueue i) (s.responseDequeue i)
  track := fun k =>
    if s.busRequestFire i && k == s.trackTailQ then
      (s.busCandidateMshr, s.busCandidateAction)
    else s.track k
  trackHeadQ :=
    if s.busResponseFire i then next p.busTrackEntries s.trackHeadQ else s.trackHeadQ
  trackTailQ :=
    if s.busRequestFire i then next p.busTrackEntries s.trackTailQ else s.trackTailQ
  trackCountQ := occupancy s.trackCountQ (s.busRequestFire i) (s.busResponseFire i)
  busRoundRobinQ :=
    if s.busRequestFire i then next p.mshrEntries s.busCandidateMshr
    else s.busRoundRobinQ
  replayRoundRobinQ :=
    if s.replayEnqueue i then next p.mshrEntries s.replayMshr else s.replayRoundRobinQ
  lockActiveQ := (s.lockNext i).1
  lockHartIdQ := (s.lockNext i).2.1
  lockLineAddrQ := (s.lockNext i).2.2
  protocolErrorQ :=
    if p.enableCoherence && (badProbeResponse i).any then true
    else if i.protocolErrorClearI then false
    else s.protocolErrorQ
  lookupCohResponseSeenQ :=
    if s.lookupCapture i then false
    else if s.lookupDispatch i then false
    else if s.lookupValidQ && (dir i).lookupResponseValid then true
    else s.lookupCohResponseSeenQ
  activeProbeMshrQ :=
    if s.probeStartFire then s.probeCandidateMshr else s.activeProbeMshrQ
  nextProbeIdQ := if s.probeStartFire then s.nextProbeIdQ + 1 else s.nextProbeIdQ
  reservationValidQ := fun h =>
    if s.reservationCleared i h then false
    else if s.lrReserves i h then true
    else s.reservationValidQ h
  reservationLineQ := fun h =>
    if s.lrReserves i h then lineAddr (s.enqueueHit i).addr else s.reservationLineQ h
  tracker := if p.enableCoherence then s.tracker.step (s.trackerInput i) else s.tracker
  randomStateQ :=
    if s.invariantReadFire i && s.lookup.addr.toNat / 2 ^ 12 % 2 ^ 12 == 2 then
      xorshift64 s.randomStateQ
    else s.randomStateQ
  acceptedQ := if s.commandPush i then s.acceptedQ + 1 else s.acceptedQ

/-- The registers that reset sets.  The memories and the payload of the queues keep what
they held. -/
structure Reset : Prop where
  ways : ∀ set way, s.wayMeta set way = ⟨false, false, false⟩
  replace : ∀ set, s.replaceQ set = 0
  generation : s.pteGenerationQ = 0
  cmd : ∀ k, (s.cmd k).entryValid = false ∧ (s.cmd k).wdataValid = false ∧
    (s.cmd k).wdataError = false
  cmdQueue : s.cmdHeadQ = 0 ∧ s.cmdTailQ = 0 ∧ s.cmdCountQ = 0 ∧ s.cmdBeatQ = 0
  lookup : s.lookupValidQ = false
  hit : s.hitValidQ = false ∧ s.hit.addr = 0 ∧ s.hit.privateFill = false
  mshr : ∀ k, (s.mshr k).Reset
  response : ∀ k, (s.response k).privateFill = false ∧ (s.response k).directorySet = 0
  responseQueue : s.responseHeadQ = 0 ∧ s.responseTailQ = 0 ∧ s.responseCountQ = 0
  track : s.trackHeadQ = 0 ∧ s.trackTailQ = 0 ∧ s.trackCountQ = 0
  roundRobin : s.busRoundRobinQ = 0 ∧ s.replayRoundRobinQ = 0
  lock : s.lockActiveQ = false ∧ s.lockHartIdQ = 0 ∧ s.lockLineAddrQ = 0
  protocolError : s.protocolErrorQ = false
  seen : s.lookupCohResponseSeenQ = false
  probe : s.activeProbeMshrQ = 0 ∧ s.nextProbeIdQ = 0
  reservation : ∀ h, s.reservationValidQ h = false ∧ s.reservationLineQ h = 0
  tracker : s.tracker = .reset p.numHarts
  random : s.randomStateQ = 0x4f50454e52563634
  accepted : s.acceptedQ = 0

end L2State

/-- The native L2 from reset. -/
def l2Native (p : L2Params) : Sync.Circuit (L2State p) (L2Input p) where
  Init := L2State.Reset
  step := L2State.step

end OpenRV64
