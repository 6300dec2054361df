/-
The coherence home: one global transaction at a time, a snoop-filter directory
lookup, invalidation probes before a write or before a directory entry is
reused, LR/SC reservations, and the request forwarded to the shared L2.
-/
import OpenRV64.ProbeTracker
import OpenRV64.SyncRun

namespace OpenRV64

open BitVec (ofNat ofBool)

/-! ## Protocol encodings -/

def icxSourceIcache : BitVec 2 := 0
def icxSourceDcache : BitVec 2 := 1

def icxOpRead : BitVec 4 := 0
def icxOpWrite : BitVec 4 := 1
def icxOpLr : BitVec 4 := 2
def icxOpSc : BitVec 4 := 3
def icxOpFence : BitVec 4 := 13

def icxAttrCacheable : BitVec 4 := 0b0001
def icxAttrDevice : BitVec 4 := 0b0010

def icxProbeInv : BitVec 2 := 0
def icxProbeCacheI : BitVec 2 := 0b01
def icxProbeCacheD : BitVec 2 := 0b10
def icxProbeRespAck : BitVec 2 := 0

/-- The parameters of the coherence home with its accepted hart ID range. -/
structure CoherentParams extends SnoopFilterParams where
  hartIdBase : Nat
  hartId_ok : hartIdBase + numHarts ≤ 16

/-- The states of the home.  The sixteenth encoding of the register is never
loaded. -/
inductive HomeState
  | idle
  | waitWdata
  | dirLookup
  | evictProbeStart
  | evictProbeWait
  | dirAllocate
  | writeProbeStart
  | writeProbeWait
  | dirClear
  | l2Req
  | l2Wdata
  | l2Resp
  | dirRecord
  | resp
  | dirWait
deriving DecidableEq, Repr

/-- The edges of the state graph of the home. -/
def HomeState.next : HomeState → List HomeState
  | .idle => [.idle, .waitWdata, .dirLookup, .resp]
  | .waitWdata => [.waitWdata, .dirLookup, .resp]
  | .dirLookup => [.dirLookup, .dirWait]
  | .dirWait => [.dirWait, .evictProbeStart, .dirAllocate, .writeProbeStart,
      .dirClear, .l2Req, .resp]
  | .evictProbeStart => [.evictProbeStart, .evictProbeWait]
  | .evictProbeWait => [.evictProbeWait, .dirAllocate]
  | .dirAllocate => [.l2Req]
  | .writeProbeStart => [.writeProbeStart, .writeProbeWait]
  | .writeProbeWait => [.writeProbeWait, .dirClear]
  | .dirClear => [.l2Req]
  | .l2Req => [.l2Req, .l2Wdata, .l2Resp]
  | .l2Wdata => [.l2Wdata, .l2Resp]
  | .l2Resp => [.l2Resp, .dirRecord, .resp]
  | .dirRecord => [.resp]
  | .resp => [.resp, .idle]

structure CoherentState (p : CoherentParams) where
  stateQ : HomeState
  reqHartIdQ : BitVec 4
  reqTxnIdQ : BitVec 4
  reqSourceIdQ : BitVec 2
  reqOpQ : BitVec 4
  reqOrderQ : BitVec 2
  reqKindQ : BitVec 2
  reqAttrQ : BitVec 4
  reqSizeQ : BitVec 3
  reqAddrQ : BitVec 64
  commandErrorQ : Bool
  wdataQ : BitVec 512
  wstrbQ : BitVec 64
  respRdataQ : BitVec 512
  respErrorQ : Bool
  respScSuccessQ : Bool
  directoryEntryQ : BitVec p.entryWidth
  probeTargetQ : HartVec p.numHarts
  probeCacheMaskQ : BitVec 2
  probeLineAddrQ : BitVec 64
  nextProbeIdQ : BitVec 4
  protocolErrorQ : Bool
  reservationValidQ : HartVec p.numHarts
  reservationLineQ : Fin p.numHarts → BitVec 64
  filter : SnoopFilterState p.toSnoopFilterParams
  tracker : ProbeTrackerState p.numHarts

structure CoherentInput (p : CoherentParams) where
  reqValidI : Bool
  reqHartIdI : BitVec 4
  reqTxnIdI : BitVec 4
  reqSourceIdI : BitVec 2
  reqOpI : BitVec 4
  reqLockI : Bool
  reqOrderI : BitVec 2
  reqKindI : BitVec 2
  reqAttrI : BitVec 4
  reqSizeI : BitVec 3
  reqAddrI : BitVec 64
  reqBurstLenI : BitVec 8
  wdataValidI : Bool
  wdataHartIdI : BitVec 4
  wdataTxnIdI : BitVec 4
  wdataSourceIdI : BitVec 2
  wdataBeatIndexI : BitVec 8
  wdataLastI : Bool
  wdataI : BitVec 512
  wstrbI : BitVec 64
  respReadyI : Bool
  probeReadyI : HartVec p.numHarts
  probeRespValidI : HartVec p.numHarts
  probeRespIdI : Fin p.numHarts → BitVec 4
  probeRespKindI : Fin p.numHarts → BitVec 2
  probeRespErrorI : HartVec p.numHarts
  l2ReqReadyI : Bool
  l2WdataReadyI : Bool
  l2RespValidI : Bool
  l2RespHartIdI : BitVec 4
  l2RespTxnIdI : BitVec 4
  l2RespSourceIdI : BitVec 2
  l2RespBeatIndexI : BitVec 8
  l2RespLastI : Bool
  l2RespRdataI : BitVec 512
  l2RespErrorI : Bool
  l2RespScSuccessI : Bool
  protocolErrorClearI : Bool

/-- The hart ID of hart `h` of this home. -/
def CoherentParams.hartId (p : CoherentParams) (h : Fin p.numHarts) : BitVec 4 :=
  BitVec.ofNat 4 (p.hartIdBase + h)

namespace CoherentState

variable {p : CoherentParams}

/-! ## Combinational signals -/

def reqReadyO (s : CoherentState p) (i : CoherentInput p) : Bool :=
  s.stateQ == .idle && !s.filter.initBusyO && i.reqBurstLenI == 0

def wdataReadyO (s : CoherentState p) : Bool := s.stateQ == .waitWdata
def respValidO (s : CoherentState p) : Bool := s.stateQ == .resp
def l2ReqValidO (s : CoherentState p) : Bool := s.stateQ == .l2Req
def l2WdataValidO (s : CoherentState p) : Bool := s.stateQ == .l2Wdata
def l2RespReadyO (s : CoherentState p) : Bool := s.stateQ == .l2Resp

/-- L2 sees the successful data operations as ordinary reads and writes. -/
def l2ReqOpO (s : CoherentState p) : BitVec 4 :=
  if s.reqOpQ = icxOpLr then icxOpRead
  else if s.reqOpQ = icxOpSc then icxOpWrite
  else s.reqOpQ

def requestFire (s : CoherentState p) (i : CoherentInput p) : Bool := i.reqValidI && s.reqReadyO i

def wdataFire (s : CoherentState p) (i : CoherentInput p) : Bool := i.wdataValidI && s.wdataReadyO

def l2RequestFire (s : CoherentState p) (i : CoherentInput p) : Bool :=
  s.l2ReqValidO && i.l2ReqReadyI

def l2WdataFire (s : CoherentState p) (i : CoherentInput p) : Bool :=
  s.l2WdataValidO && i.l2WdataReadyI

def l2ResponseFire (s : CoherentState p) (i : CoherentInput p) : Bool :=
  i.l2RespValidI && s.l2RespReadyO

def responseFire (s : CoherentState p) (i : CoherentInput p) : Bool := s.respValidO && i.respReadyI

def requestHartValid (p : CoherentParams) (i : CoherentInput p) : Bool :=
  BitVec.ofNat 4 p.hartIdBase ≤ i.reqHartIdI &&
    i.reqHartIdI < BitVec.ofNat 4 (p.hartIdBase + p.numHarts)

def requestOpSupported (i : CoherentInput p) : Bool :=
  i.reqOpI == icxOpRead || i.reqOpI == icxOpWrite || i.reqOpI == icxOpLr ||
    i.reqOpI == icxOpSc || i.reqOpI == icxOpFence

def requestProtocolError (p : CoherentParams) (i : CoherentInput p) : Bool :=
  !requestHartValid p i || !requestOpSupported i || i.reqLockI

def wdataProtocolError (s : CoherentState p) (i : CoherentInput p) : Bool :=
  i.wdataHartIdI != s.reqHartIdQ || i.wdataTxnIdI != s.reqTxnIdQ ||
    i.wdataSourceIdI != s.reqSourceIdQ || i.wdataBeatIndexI != 0 || !i.wdataLastI

def requestCacheable (s : CoherentState p) : Bool :=
  s.reqAttrQ &&& icxAttrCacheable != 0 && !(s.reqAttrQ &&& icxAttrDevice != 0)

def requestPrivateFill (s : CoherentState p) : Bool :=
  s.requestCacheable && (s.reqOpQ == icxOpRead || s.reqOpQ == icxOpLr) &&
    (s.reqSourceIdQ == icxSourceIcache || s.reqSourceIdQ == icxSourceDcache)

def requestIsWrite (s : CoherentState p) : Bool := s.reqOpQ == icxOpWrite || s.reqOpQ == icxOpSc

def requestCoherentWrite (s : CoherentState p) : Bool := s.requestCacheable && s.requestIsWrite

def requestLineAddr (s : CoherentState p) : BitVec 64 := lineAddr s.reqAddrQ

def requestHartMask (s : CoherentState p) : HartVec p.numHarts :=
  fun h => s.reqHartIdQ == p.hartId h

/-- The hart IDs of a home are distinct, so at most one hart is compared. -/
def requestScReservationMatch (s : CoherentState p) : Bool :=
  HartVec.any fun h => s.requestHartMask h && s.reservationValidQ h &&
    s.reservationLineQ h == s.requestLineAddr

/-- The requester has invalidated its own line before an SC and keeps its
updated copy on a store, so only other sharers are probed. -/
def writeProbeTargets (s : CoherentState p) : HartVec p.numHarts :=
  fun h => s.filter.lookupDSharersO h && !s.requestHartMask h

/-- `1 << (req_hart_id_q - HART_ID_BASE)` for requests of source `source`. -/
def directoryRecord (s : CoherentState p) (source : BitVec 2) : HartVec p.numHarts :=
  fun h => s.reqSourceIdQ == source && h.val == (s.reqHartIdQ - BitVec.ofNat 4 p.hartIdBase).toNat

/-- The port of the snoop filter as the home drives it. -/
def filterInput (s : CoherentState p) : SnoopFilterInput p.toSnoopFilterParams where
  lookupValidI := s.stateQ == .dirLookup
  lookupLineAddrI := s.requestLineAddr
  writeValidI := s.stateQ == .dirAllocate || s.stateQ == .dirClear || s.stateQ == .dirRecord
  writeAllocateI := s.stateQ == .dirAllocate
  writeOverwriteI := false
  writeEntryI := s.directoryEntryQ
  writeLineAddrI := s.requestLineAddr
  writeAddISharersI := fun h => s.stateQ == .dirRecord && s.directoryRecord icxSourceIcache h
  writeAddDSharersI := fun h => s.stateQ == .dirRecord && s.directoryRecord icxSourceDcache h
  writeClearISharersI := fun _ => false
  writeClearDSharersI := fun h => s.stateQ == .dirClear && (s.reqOpQ == icxOpSc || s.probeTargetQ h)

def badProbeResponse (i : CoherentInput p) : HartVec p.numHarts :=
  fun h => i.probeRespValidI h && (i.probeRespKindI h != icxProbeRespAck || i.probeRespErrorI h)

/-- The port of the probe tracker as the home drives it. -/
def trackerInput (s : CoherentState p) (i : CoherentInput p) : ProbeTrackerInput p.numHarts where
  startValidI := s.stateQ == .evictProbeStart || s.stateQ == .writeProbeStart
  startTargetHartsI := s.probeTargetQ
  startProbeIdI := s.nextProbeIdQ
  startCommandI := icxProbeInv
  startCacheMaskI := s.probeCacheMaskQ
  startLineAddrI := s.probeLineAddrQ
  probeReadyI := i.probeReadyI
  probeAckValidI := fun h => i.probeRespValidI h && !badProbeResponse i h
  probeAckIdI := i.probeRespIdI
  doneReadyI := s.stateQ == .evictProbeWait || s.stateQ == .writeProbeWait
  protocolErrorClearI := i.protocolErrorClearI

def l2ResponseIdentityError (s : CoherentState p) (i : CoherentInput p) : Bool :=
  i.l2RespHartIdI != s.reqHartIdQ || i.l2RespTxnIdI != s.reqTxnIdQ ||
    i.l2RespSourceIdI != s.reqSourceIdQ || i.l2RespBeatIndexI != 0 || !i.l2RespLastI

/-- The error flag before the assignments of a particular state: held, cleared
on request, and set by a burst command or a bad probe response. -/
def protocolErrorHeld (s : CoherentState p) (i : CoherentInput p) : Bool :=
  (s.protocolErrorQ && !i.protocolErrorClearI) ||
    (s.stateQ == .idle && i.reqValidI && i.reqBurstLenI != 0) || HartVec.any (badProbeResponse i)

/-! ## Registers -/

/-- `ST_IDLE`: capture the command on `request_fire`. -/
def acceptRequest (s : CoherentState p) (i : CoherentInput p) : CoherentState p :=
  { s with
    reqHartIdQ := i.reqHartIdI
    reqTxnIdQ := i.reqTxnIdI
    reqSourceIdQ := i.reqSourceIdI
    reqOpQ := i.reqOpI
    reqOrderQ := i.reqOrderI
    reqKindQ := i.reqKindI
    reqAttrQ := i.reqAttrI
    reqSizeQ := i.reqSizeI
    reqAddrQ := i.reqAddrI
    commandErrorQ := requestProtocolError p i
    respRdataQ := 0
    respErrorQ := requestProtocolError p i
    respScSuccessQ := false
    protocolErrorQ := s.protocolErrorHeld i || requestProtocolError p i
    stateQ :=
      if i.reqOpI = icxOpWrite ∨ i.reqOpI = icxOpSc then .waitWdata
      else if requestProtocolError p i then .resp
      else .dirLookup }

/-- The reservations after a directory response: every SC attempt consumes the
requester's, and a coherent write that proceeds consumes every matching one. -/
def reservationAfterLookup (s : CoherentState p) : HartVec p.numHarts :=
  fun h =>
    if s.requestCoherentWrite && (s.reqOpQ != icxOpSc || s.requestScReservationMatch) &&
        (s.reservationValidQ h && s.reservationLineQ h == s.requestLineAddr)
      then false
    else if s.reqOpQ == icxOpSc && s.requestHartMask h then false
    else s.reservationValidQ h

/-- `ST_DIR_WAIT` once the directory has answered. -/
def directoryResponse (s : CoherentState p) (i : CoherentInput p) : CoherentState p :=
  let s' : CoherentState p :=
    { s with
      protocolErrorQ := s.protocolErrorHeld i
      reservationValidQ := s.reservationAfterLookup
      respScSuccessQ :=
        if s.reqOpQ = icxOpSc then s.requestScReservationMatch
        else s.respScSuccessQ }
  if s.reqOpQ == icxOpSc && !s.requestScReservationMatch then
    -- A failed SC performs no write; its data beat was already consumed.
    { s' with stateQ := .resp }
  else if s.requestPrivateFill then
    if s.filter.lookupHitO then
      { s' with
        directoryEntryQ := s.filter.lookupEntryO
        stateQ := .l2Req }
    else
      let victimSharers : HartVec p.numHarts := fun h =>
        s.filter.victimISharersO h || s.filter.victimDSharersO h
      if s.filter.victimValidO && victimSharers.any then
        { s' with
          directoryEntryQ := s.filter.victimEntryO
          probeTargetQ := victimSharers
          probeCacheMaskQ :=
            BitVec.ofBool s.filter.victimDSharersO.any ++ BitVec.ofBool s.filter.victimISharersO.any
          probeLineAddrQ := s.filter.victimLineAddrO
          stateQ := .evictProbeStart }
      else
        { s' with
          directoryEntryQ := s.filter.victimEntryO
          stateQ := .dirAllocate }
  else if s.requestCoherentWrite && s.filter.lookupHitO && s.writeProbeTargets.any then
    { s' with
      directoryEntryQ := s.filter.lookupEntryO
      probeTargetQ := s.writeProbeTargets
      probeCacheMaskQ := icxProbeCacheD
      probeLineAddrQ := s.requestLineAddr
      stateQ := .writeProbeStart }
  else if s.reqOpQ == icxOpSc && s.filter.lookupHitO then
    { s' with
      directoryEntryQ := s.filter.lookupEntryO
      probeTargetQ := fun _ => false
      stateQ := .dirClear }
  else
    { s' with stateQ := .l2Req }

/-- `ST_L2_RESP` on `l2_response_fire`. -/
def l2Response (s : CoherentState p) (i : CoherentInput p) : CoherentState p :=
  let failed := i.l2RespErrorI || s.l2ResponseIdentityError i
  { s with
    respRdataQ := i.l2RespRdataI
    respErrorQ := failed
    respScSuccessQ :=
      if s.reqOpQ = icxOpSc then s.respScSuccessQ else i.l2RespScSuccessI
    protocolErrorQ := s.protocolErrorHeld i || s.l2ResponseIdentityError i
    reservationValidQ := fun h =>
      if s.reqOpQ == icxOpLr && !failed && s.requestHartMask h then true
      else s.reservationValidQ h
    reservationLineQ := fun h =>
      if s.reqOpQ == icxOpLr && !failed && s.requestHartMask h
        then s.requestLineAddr
      else s.reservationLineQ h
    stateQ := if s.requestPrivateFill && !failed then .dirRecord else .resp }

/-- The clocked block of the home, by state. -/
def home (s : CoherentState p) (i : CoherentInput p) : CoherentState p :=
  let held := s.protocolErrorHeld i
  match s.stateQ with
  | .idle =>
    if s.requestFire i then s.acceptRequest i
    else { s with protocolErrorQ := held }
  | .waitWdata =>
    if s.wdataFire i then
      if s.commandErrorQ || s.wdataProtocolError i then
        { s with
          wdataQ := i.wdataI
          wstrbQ := i.wstrbI
          respErrorQ := true
          protocolErrorQ := true
          stateQ := .resp }
      else
        { s with
          wdataQ := i.wdataI
          wstrbQ := i.wstrbI
          protocolErrorQ := held
          stateQ := .dirLookup }
    else { s with protocolErrorQ := held }
  | .dirLookup =>
    { s with
      protocolErrorQ := held
      stateQ :=
        if s.filter.lookupReadyO s.filterInput then .dirWait else .dirLookup }
  | .dirWait =>
    if s.filter.lookupResponseValidO then s.directoryResponse i
    else { s with protocolErrorQ := held }
  | .evictProbeStart =>
    if s.tracker.startReadyO then
      { s with
        nextProbeIdQ := s.nextProbeIdQ + 1
        protocolErrorQ := held
        stateQ := .evictProbeWait }
    else { s with protocolErrorQ := held }
  | .evictProbeWait =>
    { s with
      protocolErrorQ := held
      stateQ := if s.tracker.doneValidQ then .dirAllocate else .evictProbeWait }
  | .dirAllocate => { s with protocolErrorQ := held, stateQ := .l2Req }
  | .writeProbeStart =>
    if s.tracker.startReadyO then
      { s with
        nextProbeIdQ := s.nextProbeIdQ + 1
        protocolErrorQ := held
        stateQ := .writeProbeWait }
    else { s with protocolErrorQ := held }
  | .writeProbeWait =>
    { s with
      protocolErrorQ := held
      stateQ := if s.tracker.doneValidQ then .dirClear else .writeProbeWait }
  | .dirClear => { s with protocolErrorQ := held, stateQ := .l2Req }
  | .l2Req =>
    if s.l2RequestFire i then
      { s with
        protocolErrorQ := held
        stateQ := if s.requestIsWrite then .l2Wdata else .l2Resp }
    else { s with protocolErrorQ := held }
  | .l2Wdata =>
    { s with
      protocolErrorQ := held
      stateQ := if s.l2WdataFire i then .l2Resp else .l2Wdata }
  | .l2Resp =>
    if s.l2ResponseFire i then s.l2Response i
    else { s with protocolErrorQ := held }
  | .dirRecord => { s with protocolErrorQ := held, stateQ := .resp }
  | .resp =>
    { s with
      protocolErrorQ := held
      stateQ := if s.responseFire i then .idle else .resp }

/-- One clock edge of `openrv64_icx_coherent_protocol`. -/
def step (s : CoherentState p) (i : CoherentInput p) : CoherentState p :=
  { s.home i with
    filter := s.filter.step s.filterInput
    tracker := s.tracker.step (s.trackerInput i) }

/-- The home moves along the edges of its state graph only. -/
theorem stateQ_step_mem (s : CoherentState p) (i : CoherentInput p) :
    (s.step i).stateQ ∈ s.stateQ.next := by
  change (s.home i).stateQ ∈ s.stateQ.next
  cases hst : s.stateQ <;> simp only [home, hst, HomeState.next]
  case idle =>
      by_cases hfire : s.requestFire i
      · simp only [hfire, if_true, acceptRequest]
        by_cases hwr : i.reqOpI = icxOpWrite ∨ i.reqOpI = icxOpSc
        · simp [hwr]
        · by_cases herr : requestProtocolError p i <;>
            simp [hwr, herr]
      · simp [hfire]
  case dirWait =>
      by_cases hval : s.filter.lookupResponseValidO
      · simp only [hval, if_true, directoryResponse]
        repeat' split
        all_goals simp
      · simp [hval]
  case l2Resp =>
      by_cases hfire : s.l2ResponseFire i
      · simp only [hfire, if_true, l2Response]
        split <;> simp
      · simp [hfire]
  all_goals repeat' split
  all_goals simp_all

/-- Asynchronous reset of the home and of the modules inside it. -/
def reset (s : CoherentState p) : CoherentState p where
  stateQ := .idle
  reqHartIdQ := 0
  reqTxnIdQ := 0
  reqSourceIdQ := 0
  reqOpQ := icxOpRead
  reqOrderQ := 0
  reqKindQ := 0
  reqAttrQ := 0
  reqSizeQ := 0
  reqAddrQ := 0
  commandErrorQ := false
  wdataQ := 0
  wstrbQ := 0
  respRdataQ := 0
  respErrorQ := false
  respScSuccessQ := false
  directoryEntryQ := 0
  probeTargetQ := fun _ => false
  probeCacheMaskQ := 0
  probeLineAddrQ := 0
  nextProbeIdQ := 0
  protocolErrorQ := false
  reservationValidQ := fun _ => false
  reservationLineQ := fun _ => 0
  filter := s.filter.reset
  tracker := ProbeTrackerState.reset p.numHarts

end CoherentState

/-- The coherence home as a circuit.  Reset leaves the directory memories with
whatever they held at power-up. -/
def coherentHome (p : CoherentParams) : Sync.Circuit (CoherentState p) (CoherentInput p) where
  Init := fun s => ∃ powerUp : CoherentState p, s = powerUp.reset
  step := CoherentState.step

namespace CoherentState

/-! ## Runs on concrete geometries -/

/-- A power-up state with every register and memory cleared. -/
def powerUpZero (p : CoherentParams) : CoherentState p where
  stateQ := .idle
  reqHartIdQ := 0
  reqTxnIdQ := 0
  reqSourceIdQ := 0
  reqOpQ := 0
  reqOrderQ := 0
  reqKindQ := 0
  reqAttrQ := 0
  reqSizeQ := 0
  reqAddrQ := 0
  commandErrorQ := false
  wdataQ := 0
  wstrbQ := 0
  respRdataQ := 0
  respErrorQ := false
  respScSuccessQ := false
  directoryEntryQ := 0
  probeTargetQ := fun _ => false
  probeCacheMaskQ := 0
  probeLineAddrQ := 0
  nextProbeIdQ := 0
  protocolErrorQ := false
  reservationValidQ := fun _ => false
  reservationLineQ := fun _ => 0
  filter :=
    { way := fun _ => ⟨fun _ => DirWord.zero _, 0, DirWord.zero _⟩
      replace := ⟨fun _ => 0, 0, 0⟩
      lookupSetQ := 0
      lookupTagQ := 0
      lookupResponseValidQ := false
      initBusyQ := false
      initSetQ := 0 }
  tracker := ProbeTrackerState.reset p.numHarts

/-- Every ready is given at once, and L2 answers transaction 0 of hart `hart`
and source `source` without error. -/
def promptInput (p : CoherentParams) (hart : BitVec 4) (source : BitVec 2) : CoherentInput p where
  reqValidI := false
  reqHartIdI := hart
  reqTxnIdI := 0
  reqSourceIdI := source
  reqOpI := icxOpRead
  reqLockI := false
  reqOrderI := 0
  reqKindI := 0
  reqAttrI := icxAttrCacheable
  reqSizeI := 0
  reqAddrI := 0
  reqBurstLenI := 0
  wdataValidI := true
  wdataHartIdI := hart
  wdataTxnIdI := 0
  wdataSourceIdI := source
  wdataBeatIndexI := 0
  wdataLastI := true
  wdataI := 0
  wstrbI := 0
  respReadyI := true
  probeReadyI := fun _ => true
  probeRespValidI := fun _ => false
  probeRespIdI := fun _ => 0
  probeRespKindI := fun _ => icxProbeRespAck
  probeRespErrorI := fun _ => false
  l2ReqReadyI := true
  l2WdataReadyI := true
  l2RespValidI := true
  l2RespHartIdI := hart
  l2RespTxnIdI := 0
  l2RespSourceIdI := source
  l2RespBeatIndexI := 0
  l2RespLastI := true
  l2RespRdataI := 0
  l2RespErrorI := false
  l2RespScSuccessI := false
  protocolErrorClearI := false

/-- One command of hart `hart`'s D$, followed by `n` prompt cycles. -/
def command (p : CoherentParams) (hart : BitVec 4) (op attr : BitVec 4)
    (addr : BitVec 64) (n : Nat) : List (CoherentInput p) :=
  { promptInput p hart icxSourceDcache with
    reqValidI := true
    reqOpI := op
    reqAttrI := attr
    reqAddrI := addr } ::
    List.replicate n (promptInput p hart icxSourceDcache)

/-- A directory of two sets of one way. -/
def oneWayParams : CoherentParams where
  numHarts := 2
  entries := 2
  ways := 1
  hartIdBase := 0
  numHarts_ok := by decide
  ways_pos := by decide
  sets_ok := by decide
  entries_dvd := by decide
  ways_pow := by decide
  sets_pow := by decide
  entries_lt := by decide
  hartId_ok := by decide

/-- A directory of two sets of two ways. -/
def twoWayParams : CoherentParams :=
  { oneWayParams with
    entries := 4
    ways := 2
    ways_pos := by decide
    sets_ok := by decide
    entries_dvd := by decide
    ways_pow := by decide
    sets_pow := by decide
    entries_lt := by decide }

/-- The initialisation sweep of two sets followed by `inputs`. -/
def demoInputs (p : CoherentParams) (inputs : List (CoherentInput p)) : List (CoherentInput p) :=
  List.replicate 2 (promptInput p 0 icxSourceDcache) ++ inputs

def demoRun (p : CoherentParams) (inputs : List (CoherentInput p)) :
    Sync.Past (CoherentState p) (CoherentInput p) × CoherentState p :=
  Sync.exec (coherentHome p) [] (powerUpZero p).reset (demoInputs p inputs)

theorem powerUpZero_init (p : CoherentParams) : (coherentHome p).Init (powerUpZero p).reset :=
  ⟨powerUpZero p, rfl⟩

end CoherentState

end OpenRV64
