/-
The native shared L2: its geometry, what a command carries through it, and its registers.
-/
import OpenRV64.CoherentProtocol

namespace OpenRV64

def icxSourcePtw : BitVec 2 := 2

def icxKindPte : BitVec 2 := 3

/-- A 64-byte line, byte by byte, and one strobe for each byte. -/
abbrev LineData := Fin 64 → BitVec 8
abbrev LineStrobe := Fin 64 → Bool

namespace LineData

def zero : LineData := fun _ => 0

/-- The strobed bytes of `wdata` over a line. -/
def merge (line : LineData) (wstrb : LineStrobe) (wdata : LineData) : LineData :=
  fun b => if wstrb b then wdata b else line b

/-- What a read of `size` at `addr` returns of a line: all of it, or the doubleword. -/
def read (line : LineData) (size : BitVec 3) (addr : BitVec 64) : LineData :=
  fun b => if size = 6 ∨ b.val / 8 = addr.toNat / 8 % 8 then line b else 0

end LineData

namespace LineStrobe

def none : LineStrobe := fun _ => false

def or (a b : LineStrobe) : LineStrobe := fun k => a k || b k

end LineStrobe

/-- The parameters of the native L2, with the geometry its checks accept.  Without
coherence nothing reads the number of harts or the directory's geometry. -/
structure L2Params where
  addrWidth : ℕ
  cacheBytes : ℕ
  ways : ℕ
  mshrEntries : ℕ
  waitersPerMshr : ℕ
  commandEntries : ℕ
  responseEntries : ℕ
  busTrackEntries : ℕ
  pteGenerationBits : ℕ
  invariantBase : BitVec 64
  enableCoherence : Bool
  hartIdBase : ℕ
  directory : SnoopFilterParams
  addr_ok : 32 ≤ addrWidth ∧ addrWidth ≤ 64
  cache_ok : 256 * 1024 ≤ cacheBytes ∧ cacheBytes ≤ 1024 * 1024
  cache_pow : cacheBytes &&& (cacheBytes - 1) = 0
  ways_pos : 1 ≤ ways
  ways_pow : ways &&& (ways - 1) = 0
  mshr_ok : 2 ≤ mshrEntries ∧ mshrEntries ≤ 16
  waiters_ok : 1 ≤ waitersPerMshr ∧ waitersPerMshr ≤ 16
  command_ok : 2 ≤ commandEntries ∧ commandEntries ≤ 32
  response_ok : 2 ≤ responseEntries ∧ responseEntries ≤ 32
  pte_ok : 1 ≤ pteGenerationBits ∧ pteGenerationBits ≤ 16
  track_ok : 2 ≤ busTrackEntries ∧ busTrackEntries ≤ mshrEntries
  sets_pos : 1 ≤ cacheBytes / (64 * ways)
  base_ok : invariantBase &&& 0xffffff = 0

namespace L2Params

variable (p : L2Params)

def numHarts : ℕ := p.directory.numHarts
def entryWidth : ℕ := p.directory.entryWidth
def sets : ℕ := p.cacheBytes / (64 * p.ways)
def setBits : ℕ := clog2 p.sets
def setIndexWidth : ℕ := if p.sets > 1 then clog2 p.sets else 1
def tagBits : ℕ := p.addrWidth - 6 - p.setBits

/-- `addr[LINE_OFFSET_BITS +: SET_INDEX_WIDTH]`. -/
def setOf (addr : BitVec 64) : ℕ := addr.toNat / 64 % 2 ^ p.setIndexWidth

/-- `addr[ADDR_WIDTH-1:LINE_OFFSET_BITS + SET_BITS]`. -/
def tagOf (addr : BitVec 64) : ℕ := addr.toNat / 2 ^ (6 + p.setBits) % 2 ^ p.tagBits

/-- `{tag, set, {LINE_OFFSET_BITS{1'b0}}}`. -/
def lineOf (tag set : ℕ) : BitVec 64 := BitVec.ofNat 64 ((tag * 2 ^ p.setIndexWidth + set) * 64)

/-- `HART_ID_WIDTH'(HART_ID_BASE + h)`. -/
def hartId (h : ℕ) : BitVec 4 := BitVec.ofNat 4 (p.hartIdBase + h)

/-- `line[LINE_OFFSET_BITS +: DIRECTORY_SET_WIDTH]`. -/
def directorySetOf (line : BitVec 64) : ℕ := p.directory.lineSet line

/-- `addr_i[63:24] == BASE[63:24]`. -/
def invariantMatch (addr : BitVec 64) : Bool := addr >>> 24 == p.invariantBase >>> 24

end L2Params

/-- The address part of a command, as the request channel presents it.  `label` numbers
the commands in the order of their acceptance; nothing in the L2 reads it. -/
structure L2Command where
  hartId : BitVec 4
  txnId : BitVec 4
  sourceId : BitVec 2
  op : BitVec 4
  lock : Bool
  order : BitVec 2
  kind : BitVec 2
  attr : BitVec 4
  size : BitVec 3
  addr : BitVec 64
  burstLen : BitVec 8
  label : ℕ
deriving DecidableEq

/-- One beat of a command, with its own address and write data. -/
structure L2Beat where
  hartId : BitVec 4
  txnId : BitVec 4
  sourceId : BitVec 2
  op : BitVec 4
  lock : Bool
  order : BitVec 2
  kind : BitVec 2
  attr : BitVec 4
  size : BitVec 3
  addr : BitVec 64
  beat : BitVec 8
  last : Bool
  wdata : LineData
  wstrb : LineStrobe
  label : ℕ

/-- A slot of the command queue: the command, and the one pending beat of write data. -/
structure L2CommandSlot where
  command : L2Command
  entryValid : Bool
  wdataValid : Bool
  wdata : LineData
  wstrb : LineStrobe
  wdataError : Bool

/-- A response on its way out. -/
structure L2Response where
  hartId : BitVec 4
  txnId : BitVec 4
  sourceId : BitVec 2
  beat : BitVec 8
  last : Bool
  data : LineData
  error : Bool
  scSuccess : Bool
  label : ℕ

inductive MshrState
  | idle
  | needWb
  | wbInflight
  | needFill
  | fillInflight
  | needBypass
  | bypassInflight
  | replay
  | error
  | needProbe
  | probeInflight
deriving DecidableEq, Repr

inductive BusAction
  | wb
  | fill
  | bypass
deriving DecidableEq, Repr

/-- The state of a miss register that waits to issue a transaction, and of one that waits
for its answer. -/
def BusAction.need : BusAction → MshrState
  | .wb => .needWb
  | .fill => .needFill
  | .bypass => .needBypass

def BusAction.inflight : BusAction → MshrState
  | .wb => .wbInflight
  | .fill => .fillInflight
  | .bypass => .bypassInflight

inductive LookupAction
  | none
  | immediate
  | hit
  | merge
  | alloc
  | bypass
  | writeAround
  | victimHit
  | cohProbe
deriving DecidableEq, Repr

inductive CohAction
  | allocate
  | clear
deriving DecidableEq, Repr

structure Mshr (p : L2Params) where
  valid : Bool
  bypass : Bool
  state : MshrState
  lineAddr : BitVec 64
  set : ℕ
  tag : ℕ
  way : ℕ
  pteGeneration : BitVec p.pteGenerationBits
  victimAddr : BitVec 64
  victimData : LineData
  victimStrb : LineStrobe
  replayData : LineData
  replayStrb : LineStrobe
  waiterCount : ℕ
  replay : ℕ
  bypassData : LineData
  busCacheable : Bool
  error : Bool
  privateFill : Bool
  cohAction : CohAction
  postProbeState : MshrState
  directoryEntry : BitVec p.entryWidth
  probeTarget : HartVec p.numHarts
  probeCacheMask : BitVec 2
  probeLineAddr : BitVec 64
  directoryAddI : HartVec p.numHarts
  directoryAddD : HartVec p.numHarts
  directoryClearD : HartVec p.numHarts

/-- A word of a way's data memory: the line and its dirty bytes. -/
structure SramPayload where
  data : LineData
  strb : LineStrobe

/-- A word of a way's tag memory, with the generation in which a page-table line was
filled. -/
structure SramTag (p : L2Params) where
  generation : BitVec p.pteGenerationBits
  tag : ℕ

/-- The valid, dirty and reserved bits of a way in one set. -/
structure WayMeta where
  valid : Bool
  dirty : Bool
  reserved : Bool
deriving DecidableEq, Repr

/-- One way: the two memories, their registered read words, and the registers that put
a write of the same cycle in their place. -/
structure SramWay (p : L2Params) where
  dataMem : ℕ → SramPayload
  tagMem : ℕ → SramTag p
  readDataQ : SramPayload
  readTagQ : SramTag p
  dataBypassQ : Bool
  tagBypassQ : Bool
  bypassDataQ : SramPayload
  bypassTagQ : SramTag p

namespace SramWay

variable {p : L2Params}

def readDataO (m : SramWay p) : SramPayload :=
  if m.dataBypassQ then m.bypassDataQ else m.readDataQ

def readTagO (m : SramWay p) : SramTag p :=
  if m.tagBypassQ then m.bypassTagQ else m.readTagQ

/-- One clock edge of `openrv64_l2_sram_way`. -/
def step (m : SramWay p) (readEnableI : Bool) (readSetI : ℕ) (writeEnableI : Bool)
    (writeSetI : ℕ) (writeDataI : SramPayload) (writeTagI : Bool)
    (writeTagDataI : SramTag p) : SramWay p where
  dataMem := fun set =>
    if writeEnableI && set == writeSetI then writeDataI else m.dataMem set
  tagMem := fun set =>
    if writeEnableI && writeTagI && set == writeSetI then writeTagDataI else m.tagMem set
  readDataQ := if readEnableI then m.dataMem readSetI else m.readDataQ
  readTagQ := if readEnableI then m.tagMem readSetI else m.readTagQ
  dataBypassQ :=
    if readEnableI then writeEnableI && writeSetI == readSetI else m.dataBypassQ
  tagBypassQ :=
    if readEnableI then writeEnableI && writeTagI && writeSetI == readSetI
    else m.tagBypassQ
  bypassDataQ := if readEnableI then writeDataI else m.bypassDataQ
  bypassTagQ := if readEnableI then writeTagDataI else m.bypassTagQ

/-- The read word of a way is what its memories hold for `set`. -/
structure Shows (m : SramWay p) (set : ℕ) : Prop where
  data : m.readDataO = m.dataMem set
  tag : m.readTagO = m.tagMem set

/-- A read shows the memories as the same edge leaves them. -/
theorem shows_step_of_read (m : SramWay p) (set : ℕ) (writeEnable : Bool) (writeSet : ℕ)
    (writeData : SramPayload) (writeTag : Bool) (writeTagData : SramTag p) :
    (m.step true set writeEnable writeSet writeData writeTag writeTagData).Shows set := by
  constructor
  · cases writeEnable with
    | false => rfl
    | true =>
    by_cases h : writeSet = set
    · subst h
      simp [step, readDataO]
    · have hne : ¬ set = writeSet := fun heq => h heq.symm
      simp [step, readDataO, h, hne]
  · cases hwr : writeEnable && writeTag with
    | false => simp [step, readTagO, hwr]
    | true =>
    by_cases h : writeSet = set
    · subst h
      simp [step, readTagO, hwr]
    · have hne : ¬ set = writeSet := fun heq => h heq.symm
      simp [step, readTagO, hwr, h, hne]

end SramWay

/-- A response in the hit stage. -/
structure L2Hit where
  hartId : BitVec 4
  txnId : BitVec 4
  sourceId : BitVec 2
  op : BitVec 4
  lock : Bool
  beat : BitVec 8
  last : Bool
  addr : BitVec 64
  data : LineData
  error : Bool
  scSuccess : Bool
  privateFill : Bool
  label : ℕ

/-- A slot of the response queue. -/
structure L2ResponseSlot where
  response : L2Response
  privateFill : Bool
  directorySet : ℕ

structure L2State (p : L2Params) where
  way : ℕ → SramWay p
  wayMeta : ℕ → ℕ → WayMeta
  replaceQ : ℕ → ℕ
  pteGenerationQ : BitVec p.pteGenerationBits
  cmd : ℕ → L2CommandSlot
  cmdHeadQ : ℕ
  cmdTailQ : ℕ
  cmdCountQ : ℕ
  cmdBeatQ : BitVec 8
  lookupValidQ : Bool
  lookup : L2Beat
  lookupProtocolErrorQ : Bool
  hitValidQ : Bool
  hit : L2Hit
  mshr : ℕ → Mshr p
  waiter : ℕ → ℕ → L2Beat
  response : ℕ → L2ResponseSlot
  responseHeadQ : ℕ
  responseTailQ : ℕ
  responseCountQ : ℕ
  track : ℕ → ℕ × BusAction
  trackHeadQ : ℕ
  trackTailQ : ℕ
  trackCountQ : ℕ
  busRoundRobinQ : ℕ
  replayRoundRobinQ : ℕ
  lockActiveQ : Bool
  lockHartIdQ : BitVec 4
  lockLineAddrQ : BitVec 64
  protocolErrorQ : Bool
  lookupCohResponseSeenQ : Bool
  activeProbeMshrQ : ℕ
  nextProbeIdQ : BitVec 4
  reservationValidQ : HartVec p.numHarts
  reservationLineQ : Fin p.numHarts → BitVec 64
  tracker : ProbeTrackerState p.numHarts
  randomStateQ : BitVec 64
  acceptedQ : ℕ

/-- What the directory shows for the command in the lookup stage. -/
structure DirectoryPort (p : L2Params) where
  lookupReady : Bool
  lookupResponseValid : Bool
  lookupHit : Bool
  lookupEntry : BitVec p.entryWidth
  lookupISharers : HartVec p.numHarts
  lookupDSharers : HartVec p.numHarts
  victimValid : Bool
  victimEntry : BitVec p.entryWidth
  victimLineAddr : BitVec 64
  victimISharers : HartVec p.numHarts
  victimDSharers : HartVec p.numHarts

/-- The values that a home without coherence ties the directory's wires to. -/
def DirectoryPort.tied (p : L2Params) : DirectoryPort p where
  lookupReady := true
  lookupResponseValid := false
  lookupHit := false
  lookupEntry := 0
  lookupISharers := fun _ => false
  lookupDSharers := fun _ => false
  victimValid := false
  victimEntry := 0
  victimLineAddr := 0
  victimISharers := fun _ => false
  victimDSharers := fun _ => false

structure L2Input (p : L2Params) where
  reqValidI : Bool
  reqI : L2Command
  wdataValidI : Bool
  wdataHartIdI : BitVec 4
  wdataTxnIdI : BitVec 4
  wdataSourceIdI : BitVec 2
  wdataBeatIndexI : BitVec 8
  wdataLastI : Bool
  wdataI : LineData
  wstrbI : LineStrobe
  respReadyI : Bool
  probeReadyI : HartVec p.numHarts
  probeRespValidI : HartVec p.numHarts
  probeRespIdI : Fin p.numHarts → BitVec 4
  probeRespKindI : Fin p.numHarts → BitVec 2
  probeRespErrorI : HartVec p.numHarts
  protocolErrorClearI : Bool
  busReqReadyI : Bool
  busRespValidI : Bool
  busRespRdataI : LineData
  busRespErrorI : Bool
  directory : DirectoryPort p

end OpenRV64
