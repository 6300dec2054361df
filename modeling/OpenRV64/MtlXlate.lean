/-
The translation path of the memory unit: who looks up which cache, what refills
them, the one walk that may be active, and the service that translates for
instruction prefetches.
-/
import OpenRV64.Tlb
import OpenRV64.SyncRun

namespace OpenRV64

abbrev satpModeBare : BitVec 4 := 0
abbrev accessExec : BitVec 2 := 2

inductive PrefetchXlatePhase where
  | idle
  | lookup
  | miss
  | pmp
  | resp
deriving DecidableEq, Repr

inductive XlateOwner where
  | fetch
  | lsu
  | prefetch
deriving DecidableEq, Repr

@[simp] theorem PrefetchXlatePhase.beq_eq_decide (a b : PrefetchXlatePhase) :
    (a == b) = decide (a = b) := rfl

@[simp] theorem XlateOwner.beq_eq_decide (a b : XlateOwner) : (a == b) = decide (a = b) := rfl

/-- The registers of the prefetch service. -/
structure PrefetchXlate where
  phase : PrefetchXlatePhase
  req : XlateRequest
  paddr : BitVec 64
  fault : Bool

structure MtlXlateState where
  main : MainTlb
  itlb : MicroTlb
  dtlb : MicroTlb
  prefetch : PrefetchXlate
  missActiveQ : Bool
  missOwnerQ : XlateOwner
  missInvalidatedQ : Bool

/-- The requests that the fetch slots and the load/store port hold come in as inputs, and
so does the walker. -/
structure MtlXlateInput where
  tlbiI : Bool
  contextFlushI : Bool
  /-- The mode and the address space in `satp`; the second is `fetch_req_asid_i`. -/
  csrSatpModeI : BitVec 4
  csrSatpAsidI : BitVec 16
  /-- The first slot that waits for its translation. -/
  fetchXlate : Option XlateRequest
  /-- The slot whose walk is active, and whether it has been cancelled. -/
  missFetch : XlateRequest
  missFetchCancelled : Bool
  lsuTranslate : Bool
  lsuPhysicalQ : Bool
  lsuQ : XlateRequest
  lsuXlateReqI : Option XlateRequest
  tlbiBusy : Bool
  ptwReqReady : Bool
  ptwRespValid : Bool
  ptwResp : PtwResp
  l1iXlateReq : Option XlateRequest
  l1iXlateRespReady : Bool
  prefetchPmpComplete : Bool
  pmpAllowI : Bool

def XlateRequest.bare (r : XlateRequest) : Bool := r.vmMode == satpModeBare

def MtlXlateInput.translationInvalidate (i : MtlXlateInput) : Bool := i.tlbiI || i.contextFlushI

/-- The fill that a response of the walker makes for a request. -/
def PtwResp.fill (q : XlateRequest) (resp : PtwResp) : TlbFill :=
  ⟨q.vaddr, resp.paddr, q.vmMode, q.asid, resp.global, resp.level,
    ⟨resp.readable, resp.writable, resp.executable, resp.user, resp.accessed, resp.dirty⟩⟩

/-- The fill that a hit in the main array makes. -/
def TlbHit.fill (r : XlateRequest) (hit : TlbHit) : TlbFill :=
  ⟨r.vaddr, hit.paddr, r.vmMode, r.asid, hit.global, hit.level, hit.flags⟩

namespace MtlXlateState

variable (p : TlbParams) (s : MtlXlateState) (i : MtlXlateInput)

section Lookup

def microTlbi : Bool := i.translationInvalidate || s.main.fillEvictCurrentQ

/-- A prefetch looks up only when no fetch does. -/
def prefetchXlateLookup : Bool := s.prefetch.phase == .lookup && i.fetchXlate.isNone

def prefetchReq : Option XlateRequest :=
  if s.prefetchXlateLookup i && !s.prefetch.req.bare then some s.prefetch.req else none

def fetchReq : Option XlateRequest := i.fetchXlate.filter fun r => !r.bare

def itlbReq : Option XlateRequest := (s.prefetchReq i).or (fetchReq i)

def itlbLookup : Option TlbHit := s.itlb.lookup p.microEntries (s.microTlbi i) (s.itlbReq i)

def serialReq : Option XlateRequest :=
  if i.lsuTranslate && !(i.lsuPhysicalQ || i.lsuQ.bare) then some i.lsuQ else none

/-- A live request is looked up only when the serial port does not look up. -/
def xlateReq : Option XlateRequest :=
  if (serialReq i).isNone && !i.translationInvalidate && !i.tlbiBusy then
    i.lsuXlateReqI.filter fun r => !r.bare
  else none

def dtlbReq : Option XlateRequest := (xlateReq i).or (serialReq i)

def dtlbLookup : Option TlbHit := s.dtlb.lookup p.microEntries (s.microTlbi i) (dtlbReq i)

def selectXlate : Option XlateRequest :=
  if (s.dtlbLookup p i).isNone then xlateReq i else none

def selectSerial : Option XlateRequest :=
  if !s.missActiveQ && (s.selectXlate p i).isNone && (s.dtlbLookup p i).isNone then
    serialReq i
  else none

def selectLsu : Option XlateRequest := (s.selectXlate p i).or (s.selectSerial p i)

def selectFetch : Option XlateRequest :=
  if !s.missActiveQ && (s.selectLsu p i).isNone && (s.itlbLookup p i).isNone then
    fetchReq i
  else none

def selectPrefetch : Option XlateRequest :=
  if !s.missActiveQ && (s.selectLsu p i).isNone && (s.selectFetch p i).isNone &&
      (s.itlbLookup p i).isNone then
    s.prefetchReq i
  else none

/-- The request that the main array serves. -/
def mainReq : Option XlateRequest :=
  (s.selectLsu p i).or ((s.selectFetch p i).or (s.selectPrefetch p i))

end Lookup

section Fill

/-- The captured request of the active walk. -/
def ownerReq : XlateRequest :=
  match s.missOwnerQ with
  | .fetch => i.missFetch
  | .lsu => i.lsuQ
  | .prefetch => s.prefetch.req

/-- A response that fills: its walk is active, no invalidation has overtaken it, and it
carries no fault. -/
def walkFillValid : Bool :=
  i.ptwRespValid && s.missActiveQ && !s.missInvalidatedQ && !i.ptwResp.invalidated &&
    !i.ptwResp.pageFault && !i.ptwResp.accessFault && !i.translationInvalidate

def walkFill : Option TlbFill :=
  if s.walkFillValid i then some (i.ptwResp.fill (s.ownerReq i)) else none

def mainLookup : Option TlbHit := s.main.lookup p i.tlbiI (s.walkFill i) (s.mainReq p i)

def itlbWalkFill : Option TlbFill :=
  if (s.missOwnerQ == .fetch && !i.missFetchCancelled) || s.missOwnerQ == .prefetch then
    s.walkFill i
  else none

def dtlbWalkFill : Option TlbFill :=
  if s.missOwnerQ == .lsu then s.walkFill i else none

/-- A hit in the main array refills the cache that asked. -/
def refill (select : Option XlateRequest) : Option TlbFill :=
  match select, s.mainLookup p i with
  | some r, some hit => if i.translationInvalidate then none else some (hit.fill r)
  | _, _ => none

def itlbFill : Option TlbFill :=
  (s.itlbWalkFill i).or (s.refill p i ((s.selectFetch p i).or (s.selectPrefetch p i)))

def dtlbFill : Option TlbFill := (s.dtlbWalkFill i).or (s.refill p i (s.selectLsu p i))

end Fill

section Walk

def needsWalk (select : Option XlateRequest) : Bool := select.isSome && (s.mainLookup p i).isNone

/-- The owner of a walk that starts in this cycle.  A live request never starts one. -/
def startWalk : Option XlateOwner :=
  if s.missActiveQ || !i.ptwReqReady then none
  else if s.needsWalk p i (s.selectSerial p i) then some .lsu
  else if s.needsWalk p i (s.selectFetch p i) then some .fetch
  else if s.needsWalk p i (s.selectPrefetch p i) then some .prefetch
  else none

/-- One cycle of the prefetch service.  An invalidated walk goes back to the lookup. -/
def prefetchStep : PrefetchXlate :=
  let f := s.prefetch
  match f.phase with
  | .idle =>
    match i.l1iXlateReq with
    | some r =>
      if i.translationInvalidate then f
      else
        { f with
          phase := .lookup
          req := { r with access := accessExec }
          fault := false }
    | none => f
  | .lookup =>
    if s.prefetchXlateLookup i && f.req.bare then
      { f with phase := .pmp, paddr := f.req.vaddr }
    else
      match (if s.prefetchXlateLookup i then s.itlbLookup p i else none) with
      | some hit =>
        if hit.pageFault then { f with phase := .resp, fault := true }
        else { f with phase := .pmp, paddr := hit.paddr }
      | none =>
        if s.startWalk p i == some .prefetch then { f with phase := .miss } else f
  | .miss =>
    if i.ptwRespValid && s.missActiveQ && s.missOwnerQ == .prefetch then
      if s.missInvalidatedQ || i.ptwResp.invalidated || i.translationInvalidate then
        { f with phase := .lookup }
      else if i.ptwResp.pageFault || i.ptwResp.accessFault then
        { f with phase := .resp, fault := true }
      else { f with phase := .pmp, paddr := i.ptwResp.paddr }
    else f
  | .pmp =>
    if i.prefetchPmpComplete then { f with phase := .resp, fault := !i.pmpAllowI } else f
  | .resp => if i.l1iXlateRespReady then { f with phase := .idle } else f

/-- One clock edge. -/
def step : MtlXlateState :=
  let started := s.startWalk p i
  { main := s.main.step p i.csrSatpAsidI i.tlbiI (s.walkFill i)
    itlb := s.itlb.step p.microEntries (s.microTlbi i) (s.itlbFill p i)
    dtlb := s.dtlb.step p.microEntries (s.microTlbi i) (s.dtlbFill p i)
    prefetch := s.prefetchStep p i
    missActiveQ :=
      if i.ptwRespValid then false else s.missActiveQ || started.isSome
    missOwnerQ := started.getD s.missOwnerQ
    missInvalidatedQ :=
      if i.ptwRespValid then false
      else if i.translationInvalidate && s.missActiveQ then true
      else if started.isSome then false
      else s.missInvalidatedQ }

end Walk

/-- What reset leaves behind: nothing is valid, and the contents of the arrays are not
reset. -/
structure Init (s : MtlXlateState) : Prop where
  array : ∀ way set, (s.main.entry way set).valid = false
  superpage : ∀ n, (s.main.superpage.entry n).valid = false
  itlb : ∀ n, (s.itlb.entry n).valid = false
  dtlb : ∀ n, (s.dtlb.entry n).valid = false
  prefetch : s.prefetch.phase = .idle
  miss : s.missActiveQ = false
  evict : s.main.fillEvictCurrentQ = false

end MtlXlateState

/-- The translation path of `openrv64_mtl` from reset. -/
def mtlXlateCircuit (p : TlbParams) : Sync.Circuit MtlXlateState MtlXlateInput where
  Init := MtlXlateState.Init
  step := MtlXlateState.step p

end OpenRV64
