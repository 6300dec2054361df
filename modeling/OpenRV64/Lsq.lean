/-
The unified load/store queue: slots of age-tagged memory operations, the scans
that pick a translation, a physical request and a local completion, and the slot
update in which responses, results, allocations and recoveries meet.
-/
import OpenRV64.AgeScan
import OpenRV64.BackendDefs
import OpenRV64.ModularAge
import OpenRV64.SyncRun

namespace OpenRV64

open ModularAge
open List (range)
open AgeScan (scan)

structure LsqParams where
  retireSlotWidth : Nat
  metaWidth : Nat
  loadQueueDepth : Nat
  storeQueueDepth : Nat
  cacheableBase : BitVec 64
  cacheableSize : BitVec 64
  load_pos : 1 ≤ loadQueueDepth
  store_pos : 1 ≤ storeQueueDepth

def LsqParams.depth (p : LsqParams) : Nat := p.loadQueueDepth + p.storeQueueDepth

/-- The bytes of a doubleword that an access of `size` touches, of which those
beyond the doubleword are cut off. -/
def accessByteMask (size byteOffset : BitVec 3) : BitVec 8 :=
  let baseMask : BitVec 8 :=
    match size with
    | 0 => 0x01
    | 1 => 0x03
    | 2 => 0x0f
    | _ => 0xff
  baseMask <<< byteOffset.toNat

/-- The doubleword of an address, `addr[63:3]`. -/
def wordOf (addr : BitVec 64) : BitVec 61 := addr.extractLsb' 3 61

/-- The byte lane of an address, `addr[2:0]`. -/
def byteOffset (addr : BitVec 64) : BitVec 3 := addr.extractLsb' 0 3

/-- `word[lane*8 +: 8]`. -/
def byteAt (word : BitVec 64) (lane : Nat) : BitVec 8 := word.extractLsb' (8 * lane) 8

/-- `word[lane*8 +: 8] = byte`. -/
def setByte (word : BitVec 64) (lane : Nat) (byte : BitVec 8) : BitVec 64 :=
  (word &&& ~~~ (BitVec.setWidth 64 (BitVec.allOnes 8) <<< (8 * lane))) |||
    (BitVec.setWidth 64 byte <<< (8 * lane))

/-- One queue entry, `slot_*_q`. -/
structure LsqSlot (p : LsqParams) where
  valid : Bool
  store : Bool
  atomic : Bool
  immediate : Bool
  inputAccessFault : Bool
  xlateSent : Bool
  xlateDone : Bool
  pmpChecked : Bool
  xlateAccessFault : Bool
  xlatePageFault : Bool
  accessSent : Bool
  storeResultSent : Bool
  accessDone : Bool
  killed : Bool
  id : BitVec instrIdWidth
  retire : BitVec p.retireSlotWidth
  info : BitVec p.metaWidth
  vaddr : BitVec 64
  paddr : BitVec 64
  size : BitVec 3
  wdata : BitVec 64
  wstrb : BitVec 8

/-- The allocation port of loads or of stores.  A load carries no data. -/
structure LsqAlloc (p : LsqParams) where
  valid : Bool
  id : BitVec instrIdWidth
  slot : BitVec p.retireSlotWidth
  info : BitVec p.metaWidth
  immediate : Bool
  accessFault : Bool
  atomic : Bool
  vaddr : BitVec 64
  size : BitVec 3
  wdata : BitVec 64
  wstrb : BitVec 8

structure LsqInput (p : LsqParams) where
  flushI : Bool
  squashYoungerI : Bool
  squashIdI : BitVec instrIdWidth
  translationBypassI : Bool
  loadAllocI : LsqAlloc p
  storeAllocI : LsqAlloc p
  orderedHeadValidI : Bool
  orderedHeadIdI : BitVec instrIdWidth
  orderedHeadSlotI : BitVec p.retireSlotWidth
  atomicActiveI : Bool
  atomicTagI : Nat
  atomicIrrevocableI : Bool
  atomicDoneI : Bool
  xlateReqReadyI : Bool
  xlateRespValidI : Bool
  xlateRespTagI : Nat
  xlateRespPaddrI : BitVec 64
  xlateRespAccessFaultI : Bool
  xlateRespPageFaultI : Bool
  reqReadyI : Bool
  respValidI : Bool
  respTagI : Nat
  respRdataI : BitVec 64
  respAccessFaultI : Bool
  respPageFaultI : Bool
  storeDoneValidI : Bool
  storeDoneTagI : Nat
  resultReadyI : Bool

structure LsqState (p : LsqParams) where
  slots : Nat → LsqSlot p

namespace LsqSlot

variable {p : LsqParams}

def loadMask (slot : LsqSlot p) : BitVec 8 := accessByteMask slot.size (byteOffset slot.paddr)

def xlateFault (slot : LsqSlot p) : Bool :=
  slot.xlateDone && (slot.xlateAccessFault || slot.xlatePageFault)

def cacheable (slot : LsqSlot p) : Bool :=
  p.cacheableSize != 0 && decide (slot.paddr - p.cacheableBase < p.cacheableSize)

def orderMatch (slot : LsqSlot p) (i : LsqInput p) : Bool :=
  i.orderedHeadValidI && i.orderedHeadIdI == slot.id && i.orderedHeadSlotI == slot.retire

/-- The entry takes part in the ordering of memory operations. -/
def live (slot : LsqSlot p) : Bool := slot.valid && !slot.killed

end LsqSlot

/-- The variables of the store scan for one load. -/
structure LoadScan where
  block : Bool
  olderStore : Bool
  ownerValid : Nat → Bool
  ownerId : Nat → BitVec instrIdWidth
  forwardWord : BitVec 64

namespace LsqState

variable {p : LsqParams} (s : LsqState p) (i : LsqInput p)

/-! ## Free entries -/

/-- The first free entry of a partition. -/
def freeIn (first count : Nat) : Option Nat :=
  (List.range' first count).find? fun k => !(s.slots k).valid

def loadFree : Option Nat := s.freeIn 0 p.loadQueueDepth
def storeFree : Option Nat := s.freeIn p.loadQueueDepth p.storeQueueDepth

def loadFreeIndex : Nat := s.loadFree.getD 0
def storeFreeIndex : Nat := s.storeFree.getD p.loadQueueDepth

def loadAllocReadyO : Bool := s.loadFree.isSome && !i.squashYoungerI
def loadAllocFire : Bool := i.loadAllocI.valid && s.loadAllocReadyO i
def storeAllocReadyO : Bool := s.storeFree.isSome && !i.squashYoungerI
def storeAllocFire : Bool := i.storeAllocI.valid && s.storeAllocReadyO i

/-! ## Disambiguation and byte forwarding -/

/-- A load that takes part in the scan. -/
def scanned (load : Nat) : Bool :=
  (s.slots load).live && !(s.slots load).store && (s.slots load).xlateDone &&
    !(s.slots load).xlateFault

def olderStoreOf (load store : Nat) : Bool :=
  (s.slots store).live && (s.slots store).store && isYounger (s.slots load).id (s.slots store).id

/-- The address of a store that a load may not pass is not known. -/
def unknownAddress (store : Nat) : Bool :=
  (s.slots store).atomic || !(s.slots store).xlateDone || (s.slots store).xlateFault

/-- The store takes over one byte of the load. -/
def takesByte (load store : Nat) (scan : LoadScan) (byte : Nat) : Bool :=
  (s.slots load).loadMask.getLsbD byte && (s.slots store).wstrb.getLsbD byte &&
    (!scan.ownerValid byte || isYounger (s.slots store).id (scan.ownerId byte))

/-- The loop over the bytes of one store. -/
def scanBytes (load store : Nat) : Nat → LoadScan → LoadScan
  | 0, scan => scan
  | byte + 1, scan =>
    let scan := scanBytes load store byte scan
    if s.takesByte load store scan byte then
      { scan with
        ownerValid := fun b => if b = byte then true else scan.ownerValid b
        ownerId := fun b =>
          if b = byte then (s.slots store).id else scan.ownerId b
        forwardWord := setByte scan.forwardWord byte (byteAt (s.slots store).wdata byte) }
    else scan

/-- The body of the loop over the stores. -/
def scanStore (load store : Nat) (scan : LoadScan) : LoadScan :=
  if s.olderStoreOf load store then
    let scan := { scan with olderStore := true }
    if s.unknownAddress store then { scan with block := true }
    else if wordOf (s.slots load).paddr = wordOf (s.slots store).paddr then
      s.scanBytes load store 8 scan
    else scan
  else scan

/-- The loop over the stores, through the first `count` slots. -/
def scanStores (load : Nat) : Nat → LoadScan
  | 0 => ⟨false, false, fun _ => false, fun _ => 0, 0⟩
  | count + 1 => s.scanStore load count (scanStores load count)

def loadScan (load : Nat) : LoadScan := s.scanStores load p.depth

/-- `load_cover_mask_r[byte]`: an older store supplies the byte. -/
def loadCoverMask (load byte : Nat) : Bool := (s.loadScan load).ownerValid byte

/-- `|(load_cover_mask & load_mask)`. -/
def someByteCovered (load : Nat) : Bool :=
  (List.range 8).any fun byte =>
    s.loadCoverMask load byte && (s.slots load).loadMask.getLsbD byte

/-- `(load_cover_mask & load_mask) == load_mask`. -/
def everyByteCovered (load : Nat) : Bool :=
  (List.range 8).all fun byte =>
    !(s.slots load).loadMask.getLsbD byte || s.loadCoverMask load byte

/-- A device read does not pass an older store. -/
def deviceWaits (load : Nat) : Bool := (s.loadScan load).olderStore && !(s.slots load).cacheable

/-- A load that is covered in part waits. -/
def loadBlock (load : Nat) : Bool :=
  s.scanned load &&
    ((s.loadScan load).block ||
      (s.someByteCovered load && !s.everyByteCovered load) || s.deviceWaits load)

def loadForward (load : Nat) : Bool :=
  s.scanned load && s.someByteCovered load && s.everyByteCovered load &&
    !(s.loadScan load).block && !s.deviceWaits load

def loadForwardWord (load : Nat) : BitVec 64 :=
  if s.scanned load then (s.loadScan load).forwardWord else 0

/-! ## Translation requests -/

/-- An older candidate takes the place of a younger choice. -/
def older (k best : Nat) : Bool := isYounger (s.slots best).id (s.slots k).id

def xlateCandidate (k : Nat) : Bool :=
  (s.slots k).valid && !(s.slots k).killed && !(s.slots k).atomic &&
    !(s.slots k).immediate && !(s.slots k).xlateDone && !(s.slots k).xlateSent

def xlateRequestScan : Option Nat := AgeScan.scan s.xlateCandidate s.older p.depth
def xlateRequestFound : Bool := s.xlateRequestScan.isSome
def xlateRequestIndex : Nat := s.xlateRequestScan.getD 0

def loadAllocNeedsXlate : Bool := s.loadAllocFire i && !i.loadAllocI.immediate

def storeAllocNeedsXlate : Bool :=
  s.storeAllocFire i && !i.storeAllocI.immediate && !i.storeAllocI.atomic

def xlateAllocSelectLoad : Bool :=
  s.loadAllocNeedsXlate i &&
    (!s.storeAllocNeedsXlate i || isYounger i.storeAllocI.id i.loadAllocI.id)

def xlateAllocSelectStore : Bool := s.storeAllocNeedsXlate i && !s.xlateAllocSelectLoad i

def xlateRequestFromAlloc : Bool :=
  !s.xlateRequestFound && (s.xlateAllocSelectLoad i || s.xlateAllocSelectStore i)

def xlateReqTagO : Nat :=
  if s.xlateRequestFound then s.xlateRequestIndex
  else if s.xlateAllocSelectLoad i then s.loadFreeIndex
  else s.storeFreeIndex

def xlateReqValidO : Bool :=
  (s.xlateRequestFound || s.xlateRequestFromAlloc i) && !i.atomicActiveI && !i.squashYoungerI

def xlateReqWriteO : Bool :=
  if s.xlateRequestFound then (s.slots s.xlateRequestIndex).store
  else s.xlateAllocSelectStore i

def xlateReqSizeO : BitVec 3 :=
  if s.xlateRequestFound then (s.slots s.xlateRequestIndex).size
  else if s.xlateAllocSelectLoad i then i.loadAllocI.size
  else i.storeAllocI.size

def xlateReqVaddrO : BitVec 64 :=
  if s.xlateRequestFound then (s.slots s.xlateRequestIndex).vaddr
  else if s.xlateAllocSelectLoad i then i.loadAllocI.vaddr
  else i.storeAllocI.vaddr

def xlateReqFire : Bool := s.xlateReqValidO i && i.xlateReqReadyI

/-! ## Physical requests -/

def requestCandidate (k : Nat) : Bool :=
  (s.slots k).valid && !(s.slots k).killed && !(s.slots k).atomic &&
    !(s.slots k).immediate && !(s.slots k).xlateFault && (s.slots k).xlateDone &&
    !(s.slots k).accessSent &&
    (if (s.slots k).store then (s.slots k).orderMatch i
    else !s.loadBlock k && !s.loadForward k && ((s.slots k).cacheable || (s.slots k).orderMatch i))

def requestScan : Option Nat := AgeScan.scan (s.requestCandidate i) s.older p.depth
def requestFound : Bool := (s.requestScan i).isSome
def requestIndex : Nat := (s.requestScan i).getD 0

def reqValidO : Bool := s.requestFound i && !i.atomicActiveI && !i.squashYoungerI

def reqWriteO : Bool := (s.slots (s.requestIndex i)).store
def reqPmpCheckedO : Bool := (s.slots (s.requestIndex i)).pmpChecked
def reqAddrO : BitVec 64 := (s.slots (s.requestIndex i)).paddr
def reqVaddrO : BitVec 64 := (s.slots (s.requestIndex i)).vaddr
def reqSizeO : BitVec 3 := (s.slots (s.requestIndex i)).size
def reqWdataO : BitVec 64 := (s.slots (s.requestIndex i)).wdata
def reqWstrbO : BitVec 8 := (s.slots (s.requestIndex i)).wstrb
def reqFire : Bool := s.reqValidO i && i.reqReadyI

/-! ## Local completions -/

/-- The squash of this cycle removes the entry. -/
def squashVictim (k : Nat) : Bool := i.squashYoungerI && isYounger (s.slots k).id i.squashIdI

/-- A posted store whose architectural completion is still to be reported. -/
def postedStoreReports (k : Nat) : Bool :=
  ((s.slots k).accessSent && !(s.slots k).storeResultSent) || (s.reqFire i && s.requestIndex i == k)

def localCandidate (k : Nat) : Bool :=
  (s.slots k).valid && !(s.slots k).killed && !s.squashVictim i k && !(s.slots k).atomic &&
    ((s.slots k).immediate || (s.slots k).xlateFault || s.loadForward k ||
      ((s.slots k).store && (s.slots k).cacheable && s.postedStoreReports i k))

def localScan : Option Nat := AgeScan.scan (s.localCandidate i) s.older p.depth
def localFound : Bool := (s.localScan i).isSome
def localIndex : Nat := (s.localScan i).getD 0

/-! ## Responses -/

def slotValidAt (tag : Nat) : Bool := decide (tag < p.depth) && (s.slots tag).valid

def xlateRespMatchesRequest : Bool := s.xlateReqFire i && s.xlateReqTagO i == i.xlateRespTagI

def xlateRespMatchesAllocation : Bool := s.xlateRespMatchesRequest i && s.xlateRequestFromAlloc i

def xlateRespIsExpected : Bool :=
  (s.slotValidAt i.xlateRespTagI &&
    ((s.slots i.xlateRespTagI).xlateSent || s.xlateRespMatchesRequest i)) ||
  s.xlateRespMatchesAllocation i

def xlateRespFire : Bool := i.xlateRespValidI && s.xlateRespIsExpected i

def respSlotKilled : Bool := s.slotValidAt i.respTagI && (s.slots i.respTagI).killed

def respIsAccess : Bool := s.slotValidAt i.respTagI && (s.slots i.respTagI).accessSent

def respIsPostedStore : Bool :=
  s.respIsAccess i && (s.slots i.respTagI).store && !(s.slots i.respTagI).atomic &&
    (s.slots i.respTagI).cacheable

def respReadyO : Bool :=
  if s.respIsAccess i then
    if s.respSlotKilled i || s.respIsPostedStore i then true else i.resultReadyI
  else true

def respFire : Bool := i.respValidI && s.respReadyO i

def postedStoreRespFire : Bool := s.respFire i && s.respIsPostedStore i && !s.respSlotKilled i

def storeDoneIsExpected : Bool :=
  s.slotValidAt i.storeDoneTagI && (s.slots i.storeDoneTagI).accessSent &&
    (s.slots i.storeDoneTagI).store && !(s.slots i.storeDoneTagI).atomic &&
    (s.slots i.storeDoneTagI).cacheable

def storeDoneSlotKilled : Bool := s.slotValidAt i.storeDoneTagI && (s.slots i.storeDoneTagI).killed

def storeDoneFire : Bool := i.storeDoneValidI && s.storeDoneIsExpected i && !s.storeDoneSlotKilled i

def storeDoneKilledFire : Bool :=
  i.storeDoneValidI && s.storeDoneIsExpected i && s.storeDoneSlotKilled i

def postedStoreDoneFire : Bool := s.storeDoneFire i || s.postedStoreRespFire i

/-- One release is taken in a cycle, and a store-done comes first. -/
def postedStoreDoneTag : Nat :=
  if s.storeDoneFire i then i.storeDoneTagI else i.respTagI

def accessRespVisible : Bool := i.respValidI && s.respIsAccess i

def accessRespSquashedNow : Bool := s.accessRespVisible i && s.squashVictim i i.respTagI

def accessRespResult : Bool :=
  s.accessRespVisible i && !s.respSlotKilled i && !s.respIsPostedStore i &&
    !s.accessRespSquashedNow i

/-! ## The result port -/

def resultValidO : Bool := s.accessRespResult i || s.localFound i

def resultIndex : Nat :=
  if s.accessRespResult i then i.respTagI else s.localIndex i

def resultIdO : BitVec instrIdWidth := (s.slots (s.resultIndex i)).id
def resultSlotO : BitVec p.retireSlotWidth := (s.slots (s.resultIndex i)).retire
def resultMetaO : BitVec p.metaWidth := (s.slots (s.resultIndex i)).info
def resultStoreO : Bool := (s.slots (s.resultIndex i)).store

def resultRdataO : BitVec 64 :=
  if s.accessRespResult i then i.respRdataI
  else if s.loadForward (s.localIndex i) then s.loadForwardWord (s.localIndex i)
  else 0

def resultAccessFaultO : Bool :=
  if s.accessRespResult i then i.respAccessFaultI
  else (s.slots (s.localIndex i)).inputAccessFault || (s.slots (s.localIndex i)).xlateAccessFault

def resultPageFaultO : Bool :=
  if s.accessRespResult i then i.respPageFaultI
  else (s.slots (s.localIndex i)).xlatePageFault

def resultFire : Bool := s.resultValidO i && i.resultReadyI

def resultIsPostedStore : Bool :=
  !s.accessRespResult i && s.localFound i && (s.slots (s.localIndex i)).store &&
    (s.slots (s.localIndex i)).cacheable && s.postedStoreReports i (s.localIndex i)

def postedStoreResultDoneSame : Bool :=
  s.resultFire i && s.resultIsPostedStore i && s.postedStoreDoneFire i &&
    s.resultIndex i == s.postedStoreDoneTag i

/-! ## Atomics and status -/

def atomicStartCandidate (k : Nat) : Bool :=
  (s.slots k).valid && !(s.slots k).killed && (s.slots k).atomic && (s.slots k).orderMatch i

def atomicStartScan : Option Nat := AgeScan.scan (s.atomicStartCandidate i) s.older p.depth

def atomicStartValidO : Bool := (s.atomicStartScan i).isSome && !i.atomicActiveI
def atomicStartTagO : Nat := (s.atomicStartScan i).getD 0

/-- An accepted transaction is still to be answered. -/
def anyTransactionInflight : Bool :=
  (List.range p.depth).any fun k =>
    (s.slots k).valid && ((s.slots k).xlateSent || (s.slots k).accessSent)

def storePendingO : Bool :=
  ((List.range p.depth).any fun k => (s.slots k).live && (s.slots k).store) || i.atomicActiveI

def quiescentO : Bool := !s.anyTransactionInflight && !i.atomicActiveI

def emptyO : Bool := !((List.range p.depth).any fun k => (s.slots k).valid) && !i.atomicActiveI

end LsqState

/-! ## The slot update -/

namespace LsqSlot

variable {p : LsqParams}

/-- An entry as its allocation leaves it. -/
def allocated (a : LsqAlloc p) (store bypass : Bool) : LsqSlot p where
  valid := true
  store := store
  atomic := store && a.atomic
  immediate := a.immediate
  inputAccessFault := a.accessFault
  xlateSent := false
  xlateDone := a.immediate || (store && a.atomic)
  pmpChecked := false
  xlateAccessFault := false
  xlatePageFault := false
  accessSent := false
  storeResultSent := false
  accessDone := false
  killed := false
  id := a.id
  retire := a.slot
  info := a.info
  vaddr := a.vaddr
  paddr := if bypass then a.vaddr else 0
  size := a.size
  wdata := if store then a.wdata else 0
  wstrb := if store then a.wstrb else 0

/-- The entry is free again. -/
def release (slot : LsqSlot p) : LsqSlot p :=
  { slot with
    valid := false
    accessSent := false
    storeResultSent := false
    accessDone := false }

/-- The entry is removed with everything that it had under way. -/
def drop (slot : LsqSlot p) : LsqSlot p :=
  { slot.release with
    xlateSent := false
    killed := false }

end LsqSlot

namespace LsqState

variable {p : LsqParams} (s : LsqState p) (i : LsqInput p)

/-! The assignments of one clock edge to the slot `k`, in the order of the
source: a later one replaces an earlier one. -/

def updateLoadAlloc (k : Nat) (slot : LsqSlot p) : LsqSlot p :=
  if s.loadAllocFire i && s.loadFreeIndex == k then
    .allocated i.loadAllocI false i.translationBypassI
  else slot

def updateStoreAlloc (k : Nat) (slot : LsqSlot p) : LsqSlot p :=
  if s.storeAllocFire i && s.storeFreeIndex == k then
    .allocated i.storeAllocI true i.translationBypassI
  else slot

def updateXlateReq (k : Nat) (slot : LsqSlot p) : LsqSlot p :=
  if s.xlateReqFire i && s.xlateReqTagO i == k then { slot with xlateSent := true }
  else slot

def updateReq (k : Nat) (slot : LsqSlot p) : LsqSlot p :=
  if s.reqFire i && s.requestIndex i == k then { slot with accessSent := true }
  else slot

def updateXlateResp (k : Nat) (slot : LsqSlot p) : LsqSlot p :=
  if s.xlateRespFire i && i.xlateRespTagI == k then
    if (s.slots k).killed then
      { slot with
        valid := false
        killed := false
        xlateSent := false }
    else
      { slot with
        xlateSent := false
        xlateDone := true
        pmpChecked := true
        xlateAccessFault := i.xlateRespAccessFaultI
        xlatePageFault := i.xlateRespPageFaultI
        paddr := i.xlateRespPaddrI }
  else slot

def updateKilledResp (k : Nat) (slot : LsqSlot p) : LsqSlot p :=
  if s.respFire i && s.respIsAccess i && (s.slots k).killed && i.respTagI == k then
    { slot.release with killed := false }
  else slot

def updateKilledDone (k : Nat) (slot : LsqSlot p) : LsqSlot p :=
  if s.storeDoneKilledFire i && i.storeDoneTagI == k then
    { slot.release with killed := false }
  else slot

/-- A posted store keeps its entry until both of its halves have completed. -/
def updateResult (k : Nat) (slot : LsqSlot p) : LsqSlot p :=
  if s.resultFire i && s.resultIndex i == k then
    if s.resultIsPostedStore i then
      if (s.slots k).accessDone || s.postedStoreResultDoneSame i then slot.release
      else { slot with storeResultSent := true }
    else { slot.release with xlateSent := false }
  else slot

def updateDone (k : Nat) (slot : LsqSlot p) : LsqSlot p :=
  if s.postedStoreDoneFire i && s.postedStoreDoneTag i == k then
    if (s.slots k).storeResultSent || s.postedStoreResultDoneSame i then slot.release
    else { slot with accessDone := true }
  else slot

def updateAtomicDone (k : Nat) (slot : LsqSlot p) : LsqSlot p :=
  if i.atomicDoneI && i.atomicTagI == k then { slot with valid := false } else slot

/-- A transaction of the entry is answered in this cycle. -/
def answeredNow (k : Nat) : Bool :=
  (s.respFire i && i.respTagI == k) || (s.xlateRespFire i && i.xlateRespTagI == k) ||
    ((s.storeDoneFire i || s.storeDoneKilledFire i) && i.storeDoneTagI == k)

/-- A squashed entry with an accepted request keeps its tag until the answer. -/
def updateSquash (k : Nat) (slot : LsqSlot p) : LsqSlot p :=
  if s.squashVictim i k && (s.slots k).valid then
    if ((s.slots k).xlateSent || (s.slots k).accessSent) && !s.answeredNow i k then
      { slot with killed := true }
    else slot.drop
  else slot

/-- A flush keeps the accepted stores and the irrevocable atomic, and the tags
of translations under way. -/
def updateFlush (k : Nat) (slot : LsqSlot p) : LsqSlot p :=
  if (s.slots k).valid && (s.slots k).store && (s.slots k).accessSent then
    { slot with valid := true }
  else if i.atomicIrrevocableI && i.atomicTagI == k then
    { slot with valid := true }
  else if (s.slots k).valid && (s.slots k).xlateSent &&
      !(s.xlateRespFire i && i.xlateRespTagI == k) then
    { slot with
      valid := true
      killed := true }
  else slot.drop

/-- One clock edge of `openrv64_lsq`. -/
def step : LsqState p where
  slots k :=
    if i.flushI then
      updateAtomicDone i k <| s.updateDone i k <| s.updateResult i k <|
        s.updateFlush i k <| s.slots k
    else
      s.updateSquash i k <| updateAtomicDone i k <| s.updateDone i k <|
        s.updateResult i k <| s.updateKilledDone i k <| s.updateKilledResp i k <|
          s.updateXlateResp i k <| s.updateReq i k <| s.updateXlateReq i k <|
            s.updateStoreAlloc i k <| s.updateLoadAlloc i k <| s.slots k

/-- Every slot as reset leaves it. -/
def reset : LsqState p where
  slots _ :=
    { valid := false
      store := false
      atomic := false
      immediate := false
      inputAccessFault := false
      xlateSent := false
      xlateDone := false
      pmpChecked := false
      xlateAccessFault := false
      xlatePageFault := false
      accessSent := false
      storeResultSent := false
      accessDone := false
      killed := false
      id := 0
      retire := 0
      info := 0
      vaddr := 0
      paddr := 0
      size := 0
      wdata := 0
      wstrb := 0 }

end LsqState

/-- The load/store queue from reset. -/
def lsq (p : LsqParams) : Sync.Circuit (LsqState p) (LsqInput p) where
  Init s := s = .reset
  step s i := s.step i

/-! ## Inputs for concrete runs -/

/-- Four loads and four stores, with the first gibibyte cacheable. -/
def smallLsq : LsqParams where
  retireSlotWidth := 3
  metaWidth := 8
  loadQueueDepth := 4
  storeQueueDepth := 4
  cacheableBase := 0
  cacheableSize := 0x40000000
  load_pos := by decide
  store_pos := by decide

namespace LsqInput

variable {p : LsqParams}

def noAlloc (p : LsqParams) : LsqAlloc p where
  valid := false
  id := 0
  slot := 0
  info := 0
  immediate := false
  accessFault := false
  atomic := false
  vaddr := 0
  size := 0
  wdata := 0
  wstrb := 0

/-- A cycle in which nothing happens and every port is ready. -/
def quiet (p : LsqParams) : LsqInput p where
  flushI := false
  squashYoungerI := false
  squashIdI := 0
  translationBypassI := false
  loadAllocI := noAlloc p
  storeAllocI := noAlloc p
  orderedHeadValidI := false
  orderedHeadIdI := 0
  orderedHeadSlotI := 0
  atomicActiveI := false
  atomicTagI := 0
  atomicIrrevocableI := false
  atomicDoneI := false
  xlateReqReadyI := true
  xlateRespValidI := false
  xlateRespTagI := 0
  xlateRespPaddrI := 0
  xlateRespAccessFaultI := false
  xlateRespPageFaultI := false
  reqReadyI := true
  respValidI := false
  respTagI := 0
  respRdataI := 0
  respAccessFaultI := false
  respPageFaultI := false
  storeDoneValidI := false
  storeDoneTagI := 0
  resultReadyI := true

/-- Allocate a doubleword load. -/
def withLoad (i : LsqInput p) (id : BitVec instrIdWidth) (vaddr : BitVec 64) : LsqInput p :=
  { i with
    loadAllocI :=
      { noAlloc p with
        valid := true
        id := id
        vaddr := vaddr
        size := 3 } }

/-- Allocate a doubleword store. -/
def withStore (i : LsqInput p) (id : BitVec instrIdWidth) (vaddr wdata : BitVec 64) : LsqInput p :=
  { i with
    storeAllocI :=
      { noAlloc p with
        valid := true
        id := id
        vaddr := vaddr
        size := 3
        wdata := wdata
        wstrb := 0xff } }

/-- Answer the translation request with `tag`. -/
def translating (i : LsqInput p) (tag : Nat) (paddr : BitVec 64) : LsqInput p :=
  { i with
    xlateRespValidI := true
    xlateRespTagI := tag
    xlateRespPaddrI := paddr }

/-- Retirement has reached the instruction `id`. -/
def headAt (i : LsqInput p) (id : BitVec instrIdWidth) : LsqInput p :=
  { i with
    orderedHeadValidI := true
    orderedHeadIdI := id }

end LsqInput

end OpenRV64
