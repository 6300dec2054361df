/-
The tag side of the shared L1 array where tags are read on the clock edge and read misses are
detached: lookups, fill probes and snoop probes share the read port of the tags.
-/
import OpenRV64.SyncRun
import Mathlib.Data.Nat.Notation

namespace OpenRV64

/-- The parameters of the array with the conditions that its checks impose on the sets. -/
structure L1Params where
  addrWidth : ℕ
  lineBytes : ℕ
  ways : ℕ
  cacheBytes : ℕ
  syncStoreExtension : Bool
  idealRefills : Bool
  cache_ok : 1024 ≤ cacheBytes ∧ cacheBytes ≤ 32768 ∧ cacheBytes &&& (cacheBytes - 1) = 0
  line_ok : 1 ≤ lineBytes ∧ lineBytes &&& (lineBytes - 1) = 0
  ways_ok : 1 ≤ ways ∧ ways &&& (ways - 1) = 0
  sets_ok : cacheBytes % (lineBytes * ways) = 0

namespace L1Params

variable (p : L1Params)

abbrev Addr := BitVec p.addrWidth

def sets : ℕ := p.cacheBytes / (p.lineBytes * p.ways)

/-- `set_index_of`: `address[LINE_OFFSET_BITS +: SET_INDEX_WIDTH]`. -/
def setIndexOf (a : p.Addr) : ℕ := a.toNat / p.lineBytes % p.sets

/-- `address[ADDR_WIDTH-1:LINE_OFFSET_BITS + SET_BITS]`. -/
def tagOf (a : p.Addr) : ℕ := a.toNat / (p.lineBytes * p.sets)

/-- `address[ADDR_WIDTH-1:LINE_OFFSET_BITS]`. -/
def lineOf (a : p.Addr) : ℕ := a.toNat / p.lineBytes

/-- The way after `way` in turn. -/
def nextWay (way : ℕ) : ℕ := if way = p.ways - 1 then 0 else way + 1

/-- A loop over the ways that keeps the first, or the last, that it finds. -/
def firstWay (f : ℕ → Bool) : Option ℕ := (List.range p.ways).find? f
def lastWay (f : ℕ → Bool) : Option ℕ := (List.range p.ways).reverse.find? f

end L1Params

structure L1Request (p : L1Params) where
  write : Bool
  cacheable : Bool
  addr : p.Addr
  physAddr : p.Addr
  prefetch : Bool
  aged : Bool
  separateWriteResp : Bool
deriving Inhabited

structure L1Input (p : L1Params) where
  reqValidI : Bool
  reqI : L1Request p
  respReadyI : Bool
  writeRespReadyI : Bool
  missReadyI : Bool
  fillValidI : Bool
  fillAddrI : p.Addr
  fillAgedI : Bool
  invalidateValidI : Bool
  invalidateAllI : Bool
  invalidateAddrI : p.Addr
  memReadyI : Bool
  idealRefillValidI : Bool
deriving Inhabited

/-- The states of this mode: its misses leave the array, and no refill waits in it. -/
inductive L1Phase
  | run
  | access
deriving DecidableEq, Repr, Inhabited

/-- The registered lookup stage: the request and the valid bits sampled with the tags. -/
structure SyncLookup (p : L1Params) where
  request : L1Request p
  set : ℕ
  tag : ℕ
  idealValid : Bool
  validBits : ℕ → Bool
deriving Inhabited

/-- A fill that has read the tags of its set. -/
structure FillProbe where
  set : ℕ
  tag : ℕ
  validBits : ℕ → Bool
  agedBits : ℕ → Bool
  replace : ℕ
deriving Inhabited

/-- A targeted invalidation that has read the tags of its set. -/
structure InvalidateProbe (p : L1Params) where
  addr : p.Addr
  set : ℕ
  tag : ℕ
  validBits : ℕ → Bool
deriving Inhabited

structure L1State (p : L1Params) where
  state : L1Phase
  valid : ℕ → ℕ → Bool
  tagMem : ℕ → ℕ → ℕ
  aged : ℕ → ℕ → Bool
  replaceQ : ℕ → ℕ
  request : L1Request p
  accessWayQ : ℕ
  syncStoreExtensionValidQ : Bool
  responseValidQ : Bool
  writeResponseValidQ : Bool
  syncLookupValidQ : Bool
  syncLookupClassifiedQ : Bool
  syncLookup : SyncLookup p
  syncLookupHitQ : Bool
  syncLookupWayQ : ℕ
  syncFillProbeQ : Bool
  syncFill : FillProbe
  syncInvalidateProbeQ : Bool
  syncInvalidate : InvalidateProbe p
  syncTagReadQ : ℕ → ℕ
deriving Inhabited

namespace L1State

variable {p : L1Params} (s : L1State p) (i : L1Input p)

/-- The way of a fill: the way of its line, else an unused one, else the first aged one, else
the next in turn. -/
def fillWay : ℕ :=
  (((p.firstWay fun way => s.syncFill.validBits way && s.syncTagReadQ way == s.syncFill.tag).orElse
        fun _ => p.firstWay fun way => !s.syncFill.validBits way).orElse
    fun _ => p.firstWay fun way => s.syncFill.validBits way && s.syncFill.agedBits way).getD
      s.syncFill.replace

/-! ## The classification of the lookup stage -/

def syncLookupFound : Option ℕ :=
  p.lastWay fun way => s.syncLookup.validBits way && s.syncTagReadQ way == s.syncLookup.tag

def syncLookupHit : Bool :=
  if s.syncLookupClassifiedQ then s.syncLookupHitQ else s.syncLookupFound.isSome

def syncLookupWay : ℕ :=
  if s.syncLookupClassifiedQ then s.syncLookupWayQ else s.syncLookupFound.getD 0

def syncLookupRead : Bool :=
  s.syncLookupValidQ && s.syncLookup.request.cacheable && !s.syncLookup.request.write

def syncLookupHitResponse : Bool := s.syncLookupRead && s.syncLookupHit

def syncLookupResponse : Bool :=
  s.syncLookupHitResponse || (s.syncLookupRead && !s.syncLookupHit && s.syncLookup.idealValid)

/-- `miss_valid_o`. -/
def syncLookupMiss : Bool := s.syncLookupRead && !s.syncLookupHit && !s.syncLookup.idealValid

def syncLookupAccess : Bool :=
  s.syncLookupValidQ && (!s.syncLookup.request.cacheable || s.syncLookup.request.write)

/-! ## Handshakes -/

def responseSlotAvailable : Bool := !s.responseValidQ || i.respReadyI

def writeResponseSlotAvailable : Bool := !s.writeResponseValidQ || i.writeRespReadyI

/-- A cacheable read may pass a posted write that waits for the memory. -/
def accessReadOverlap : Bool :=
  s.state == .access && s.request.write && s.request.separateWriteResp && i.reqValidI &&
    !i.reqI.write && i.reqI.cacheable && s.writeResponseSlotAvailable i

def invalidateReadyO : Bool :=
  if i.invalidateAllI then s.state == .run else s.syncInvalidateProbeQ

def invalidateFire : Bool := i.invalidateValidI && s.invalidateReadyO i

def fillReadyO : Bool := s.syncFillProbeQ && s.state == .run

def fillFire : Bool := i.fillValidI && s.fillReadyO

def syncLookupResponsePresent : Bool := s.syncLookupResponse && !s.responseValidQ

def syncLookupResponseSpill : Bool := s.syncLookupResponsePresent && !i.respReadyI

def syncLookupMissFire : Bool := s.syncLookupMiss && i.missReadyI

def syncLookupAccessFire : Bool :=
  s.syncLookupAccess && s.state == .run && !s.invalidateFire i && !s.fillFire i

def syncLookupConsume : Bool :=
  s.syncLookupResponsePresent || s.syncLookupMissFire i || s.syncLookupAccessFire i

def syncLookupSlotAvailable : Bool :=
  !s.syncLookupValidQ || (s.syncLookupConsume i && !s.syncLookupAccessFire i)

def syncTagPortAvailable : Bool :=
  !s.syncFillProbeQ && !s.syncInvalidateProbeQ &&
    (!s.syncLookupValidQ || s.syncLookupClassifiedQ || s.syncLookupConsume i)

def syncInvalidateLaunch : Bool :=
  i.invalidateValidI && !i.invalidateAllI && (s.state == .run || s.state == .access) &&
    s.syncTagPortAvailable i

def syncFillLaunch : Bool :=
  i.fillValidI && s.state == .run && !i.invalidateValidI && s.syncTagPortAvailable i

def syncRequestBaseReady : Bool :=
  (s.state == .run || s.accessReadOverlap i) && !i.invalidateValidI && !i.fillValidI &&
    !s.syncFillProbeQ && !s.syncInvalidateProbeQ && s.responseSlotAvailable i &&
    s.syncLookupSlotAvailable i

def reqReadyO : Bool :=
  s.syncRequestBaseReady i && (!i.reqI.separateWriteResp || s.writeResponseSlotAvailable i) &&
    (i.reqI.write || !i.reqI.cacheable || i.missReadyI)

def requestFire : Bool := i.reqValidI && s.reqReadyO i

/-- A posted store to the line of the store before it takes over that store's way. -/
def syncStoreExtensionFire : Bool :=
  s.requestFire i && p.syncStoreExtension && s.syncStoreExtensionValidQ && i.reqI.write &&
    i.reqI.cacheable && i.reqI.separateWriteResp && p.lineOf i.reqI.addr == p.lineOf s.request.addr

def syncTagReadFire : Bool := s.syncInvalidateLaunch i || s.syncFillLaunch i || s.requestFire i

def syncTagReadSet : ℕ :=
  p.setIndexOf (if s.syncInvalidateLaunch i then i.invalidateAddrI
    else if s.syncFillLaunch i then i.fillAddrI
    else i.reqI.addr)

/-! ## The clock edge

Each register takes the assignments of the source in their order, so that a later one wins. -/

/-- The lookup stage hands a hit over, and its line counts as used. -/
def syncHitConsumed : Bool := s.syncLookupHitResponse && s.syncLookupConsume i

/-- A store in the lookup stage goes to the memory, and hits. -/
def syncStoreHit : Bool :=
  s.syncLookupAccessFire i && s.syncLookup.request.cacheable &&
    s.syncLookup.request.write && s.syncLookupHit

def accessDone : Bool := s.state == .access && i.memReadyI

/-- A targeted invalidation finds its line in a way. -/
def invalidates (set way : ℕ) : Bool :=
  s.valid set way && set == s.syncInvalidate.set && s.syncInvalidate.validBits way &&
    s.syncTagReadQ way == s.syncInvalidate.tag

/-- The invalidation that is accepted drops a way. -/
def dropped (set way : ℕ) : Bool :=
  s.invalidateFire i &&
    ((s.state == .run && (i.invalidateAllI || s.invalidates set way)) ||
      (s.state == .access && s.invalidates set way))

def stateNext : L1Phase :=
  match s.state with
  | .run => if s.syncStoreExtensionFire i || s.syncLookupAccessFire i then .access else .run
  | .access => if i.memReadyI then .run else .access

def tagNext (way set : ℕ) : ℕ :=
  if s.fillFire i && way == s.fillWay && set == s.syncFill.set then s.syncFill.tag
  else s.tagMem way set

def validNext (set way : ℕ) : Bool :=
  if s.dropped i set way then false
  else if s.fillFire i && set == s.syncFill.set && way == s.fillWay then true
  else s.valid set way

def agedNext (set way : ℕ) : Bool :=
  if s.dropped i set way then false
  else if s.syncStoreHit i && set == s.syncLookup.set && way == s.syncLookupWay then false
  else if s.syncStoreExtensionFire i && set == p.setIndexOf i.reqI.addr &&
      way == s.accessWayQ then false
  else if s.fillFire i && set == s.syncFill.set && way == s.fillWay then i.fillAgedI
  else if s.syncHitConsumed i && set == s.syncLookup.set && way == s.syncLookupWay &&
      (!s.syncLookup.request.prefetch || s.syncLookup.request.aged) then
    s.syncLookup.request.prefetch
  else s.aged set way

def replaceNext (set : ℕ) : ℕ :=
  if s.state == .run && s.invalidateFire i && i.invalidateAllI then 0
  else if s.syncStoreHit i && set == s.syncLookup.set then p.nextWay s.syncLookupWay
  else if s.syncStoreExtensionFire i && set == p.setIndexOf i.reqI.addr then
    p.nextWay s.accessWayQ
  else if s.fillFire i && set == s.syncFill.set then p.nextWay s.fillWay
  else if s.syncHitConsumed i && set == s.syncLookup.set then p.nextWay s.syncLookupWay
  else s.replaceQ set

/-- A request enters the tag stage. -/
def syncCapture : Bool := s.requestFire i && !s.syncStoreExtensionFire i

def capturedLookup : SyncLookup p where
  request := i.reqI
  set := p.setIndexOf i.reqI.addr
  tag := p.tagOf i.reqI.physAddr
  idealValid := p.idealRefills && i.idealRefillValidI
  validBits := s.valid (p.setIndexOf i.reqI.addr)

def syncClassify : Bool := s.syncLookupValidQ && !s.syncLookupClassifiedQ && !s.syncLookupConsume i

def capturedFill : FillProbe where
  set := p.setIndexOf i.fillAddrI
  tag := p.tagOf i.fillAddrI
  validBits := s.valid (p.setIndexOf i.fillAddrI)
  agedBits := s.aged (p.setIndexOf i.fillAddrI)
  replace := s.replaceQ (p.setIndexOf i.fillAddrI)

def capturedInvalidate : InvalidateProbe p where
  addr := i.invalidateAddrI
  set := p.setIndexOf i.invalidateAddrI
  tag := p.tagOf i.invalidateAddrI
  validBits := s.valid (p.setIndexOf i.invalidateAddrI)

/-- A posted store that hits keeps its way for the next one, until a request, a fill or an
invalidation comes between. -/
def extensionValidNext : Bool :=
  if s.syncFillLaunch i || s.syncInvalidateLaunch i || s.invalidateFire i then false
  else if s.syncStoreExtensionFire i then true
  else if s.syncLookupAccessFire i then
    s.syncStoreHit i && s.syncLookup.request.separateWriteResp
  else if s.requestFire i then false
  else s.syncStoreExtensionValidQ

def step : L1State p where
  state := s.stateNext i
  valid := s.validNext i
  tagMem := s.tagNext i
  aged := s.agedNext i
  replaceQ := s.replaceNext i
  request :=
    if s.state == .run && s.syncStoreExtensionFire i then i.reqI
    else if s.state == .run && s.syncLookupAccessFire i then s.syncLookup.request
    else s.request
  accessWayQ := if s.syncLookupAccessFire i then s.syncLookupWay else s.accessWayQ
  syncStoreExtensionValidQ := s.extensionValidNext i
  responseValidQ :=
    if s.accessDone i && !s.request.separateWriteResp then true
    else if s.syncLookupResponseSpill i then true
    else if s.responseValidQ && i.respReadyI then false
    else s.responseValidQ
  writeResponseValidQ :=
    if s.accessDone i && s.request.separateWriteResp then true
    else if s.writeResponseValidQ && i.writeRespReadyI then false
    else s.writeResponseValidQ
  syncLookupValidQ :=
    if s.syncCapture i then true
    else if s.syncLookupConsume i then false
    else s.syncLookupValidQ
  syncLookupClassifiedQ :=
    if s.syncCapture i then false
    else if s.syncClassify i then true
    else s.syncLookupClassifiedQ
  syncLookup := if s.syncCapture i then s.capturedLookup i else s.syncLookup
  syncLookupHitQ := if s.syncClassify i then s.syncLookupHit else s.syncLookupHitQ
  syncLookupWayQ := if s.syncClassify i then s.syncLookupWay else s.syncLookupWayQ
  syncFillProbeQ :=
    if s.fillFire i then false
    else if s.syncFillLaunch i then true
    else s.syncFillProbeQ
  syncFill := if s.syncFillLaunch i then s.capturedFill i else s.syncFill
  syncInvalidateProbeQ :=
    if s.invalidateFire i && !i.invalidateAllI then false
    else if s.syncInvalidateLaunch i then true
    else s.syncInvalidateProbeQ
  syncInvalidate := if s.syncInvalidateLaunch i then s.capturedInvalidate i else s.syncInvalidate
  syncTagReadQ := fun way =>
    if s.syncTagReadFire i then s.tagMem way (s.syncTagReadSet i) else s.syncTagReadQ way

/-- The registers that reset sets.  The tags and the payload of the stages that are empty keep
what they held. -/
structure Reset : Prop where
  state : s.state = .run
  valid : ∀ set way, s.valid set way = false
  aged : ∀ set way, s.aged set way = false
  replace : ∀ set, s.replaceQ set = 0
  request : s.request.write = false ∧ s.request.aged = false ∧
    s.request.separateWriteResp = false ∧ s.request.addr = 0 ∧ s.request.physAddr = 0
  access : s.accessWayQ = 0 ∧ s.syncStoreExtensionValidQ = false
  response : s.responseValidQ = false ∧ s.writeResponseValidQ = false
  lookup : s.syncLookupValidQ = false ∧ s.syncLookupClassifiedQ = false ∧
    s.syncLookupHitQ = false ∧ s.syncLookupWayQ = 0
  probes : s.syncFillProbeQ = false ∧ s.syncInvalidateProbeQ = false

end L1State

/-- The shared L1 array from reset. -/
def l1Cache (p : L1Params) : Sync.Circuit (L1State p) (L1Input p) where
  Init := L1State.Reset
  step := L1State.step

end OpenRV64
