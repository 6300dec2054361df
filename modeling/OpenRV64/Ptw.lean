/-
The page-table walker: one walk at a time over a cached-line port, with a cache of the
entries that point to tables, a watchdog on the port, and a fence on the same port for
every invalidation.
-/
import OpenRV64.SnoopFilter
import OpenRV64.SyncRun
import OpenRV64.Sv39

namespace OpenRV64

open Sv39 Pte

/-- The parameters of the walker with the bounds its simulation checks enforce. -/
structure PtwParams where
  pteCacheEntries : Nat
  pteCacheWays : Nat
  icxTimeoutCycles : Nat
  hartId : BitVec 4
  txnId : BitVec 4
  ways_pos : 0 < pteCacheWays
  geometry : 0 < pteCacheEntries → pteCacheWays.isPowerOfTwo ∧ pteCacheEntries % pteCacheWays = 0 ∧
      (pteCacheEntries / pteCacheWays).isPowerOfTwo

namespace PtwParams

variable (p : PtwParams)

def activeWays : Nat := if p.pteCacheEntries > 0 then p.pteCacheWays else 1

def sets : Nat := if p.pteCacheEntries > 0 then p.pteCacheEntries / p.activeWays else 1

def ageWidth : Nat := if p.activeWays > 1 then clog2 p.activeWays else 1

def icxTimeoutLast : Nat := p.icxTimeoutCycles - 1

/-- The set of an address: the bits above the eight bytes of an entry. -/
def cacheSet (addr : BitVec 64) : Nat :=
  if p.sets > 1 then (addr.extractLsb' 3 (clog2 p.sets)).toNat else 0

end PtwParams

inductive PtwPhase where
  | idle
  | walk
  | resp
  | abort
deriving DecidableEq, Repr

inductive PtwBackend where
  | pmp
  | send
  | wait
deriving DecidableEq, Repr

@[simp] theorem PtwPhase.beq_eq_decide (a b : PtwPhase) : (a == b) = decide (a = b) := rfl

@[simp] theorem PtwBackend.beq_eq_decide (a b : PtwBackend) :
    (a == b) = decide (a = b) := rfl

structure PtwResp where
  paddr : BitVec 64
  pageFault : Bool
  accessFault : Bool
  invalidated : Bool
  global : Bool
  level : Nat
  readable : Bool
  writable : Bool
  executable : Bool
  user : Bool
  accessed : Bool
  dirty : Bool
deriving DecidableEq, Repr

structure PteCacheEntry where
  valid : Bool
  tag : BitVec 53
  data : BitVec 64
  level : Nat
  age : Nat

/-- The registers of the walk itself.  Levels are `0` for a page of 4 KiB, `1` for 2 MiB
and `2` for 1 GiB. -/
structure PtwWalker where
  phase : PtwPhase
  backend : PtwBackend
  icxTimeoutDrain : Bool
  vaddr : BitVec 64
  access : BitVec 2
  priv : BitVec 2
  sum : Bool
  mxr : Bool
  level : Nat
  tableBase : BitVec 64
  global : Bool
  resp : PtwResp

structure PtwState where
  walker : PtwWalker
  shootdownPending : Bool
  shootdownInflight : Bool
  icxTimeoutCount : Nat
  pteCache : Nat → Nat → PteCacheEntry

structure PtwInput where
  invalidateI : Bool
  shootdownReadyI : Bool
  reqValidI : Bool
  reqVaddrI : BitVec 64
  reqAccessI : BitVec 2
  reqPrivI : BitVec 2
  reqVmModeI : BitVec 4
  reqRootPpnI : BitVec 44
  reqSumI : Bool
  reqMxrI : Bool
  respReadyI : Bool
  pmpReadyI : Bool
  pmpAllowI : Bool
  icxReqReadyI : Bool
  icxRespValidI : Bool
  icxRespHartIdI : BitVec 4
  icxRespTxnIdI : BitVec 4
  icxRespSourceIdI : BitVec 2
  icxRespBeatIndexI : BitVec 8
  icxRespLastI : Bool
  icxRespRdataI : BitVec 512
  icxRespErrorI : Bool

section Encoding

/-- The line that holds an address. -/
def icxLineAddr (addr : BitVec 64) : BitVec 64 := addr.extractLsb' 6 58 ++ 0#6

/-- The entry of a line that an address selects. -/
def linePte (line : BitVec 512) (addr : BitVec 64) : BitVec 64 :=
  line.extractLsb' ((addr.extractLsb' 3 3).toNat * 64) 64

def pteEncodingInvalid (pte : BitVec 64) : Bool :=
  !Sv39.Pte.v pte || (!Sv39.Pte.r pte && Pte.w pte) || reserved pte != 0

def pteLeaf (pte : BitVec 64) : Bool := r pte || x pte

def pteNonleafReserved (pte : BitVec 64) : Bool := u pte || a pte || d pte

def superpageAligned (level : Nat) (ppn : BitVec 44) : Bool :=
  if level == 2 then ppn.extractLsb' 0 18 == 0
  else if level == 1 then ppn.extractLsb' 0 9 == 0
  else true

def accessPermission (access : BitVec 2) (mxr r w x : Bool) : Bool :=
  if access == 2 then x
  else if access == 1 then w
  else if access == 0 then r || (mxr && x)
  else false

def privilegePermission (priv access : BitVec 2) (sum u : Bool) : Bool :=
  if priv == 0 then u
  else if priv == 1 then !u || (access != 2 && sum)
  else false

def adPermission (access : BitVec 2) (a d : Bool) : Bool := a && (access != 1 || d)

def composePaddr (ppn : BitVec 44) (vaddr : BitVec 64) (level : Nat) : BitVec 64 :=
  match level with
  | 2 => 0#8 ++ ppn.extractLsb' 18 26 ++ vaddr.extractLsb' 0 30
  | 1 => 0#8 ++ ppn.extractLsb' 9 35 ++ vaddr.extractLsb' 0 21
  | _ => 0#8 ++ ppn ++ vaddr.extractLsb' 0 12

/-- `{8'd0, ppn, 12'd0}` -/
def ppnBase (ppn : BitVec 44) : BitVec 64 := 0#8 ++ ppn ++ 0#12

def canonicalSv39 (vaddr : BitVec 64) : Bool :=
  vaddr.extractLsb' 39 25 == BitVec.replicate 25 (vaddr.extractLsb' 38 1)

end Encoding

namespace PtwResp

/-- The fields that `set_fault_response` and `set_invalidated_response` write. -/
def refuse (pageFault accessFault invalidated : Bool) : PtwResp where
  paddr := 0
  pageFault := pageFault
  accessFault := accessFault
  invalidated := invalidated
  global := false
  level := 0
  readable := false
  writable := false
  executable := false
  user := false
  accessed := false
  dirty := false

/-- The response without translation. -/
def bare (vaddr : BitVec 64) : PtwResp where
  paddr := vaddr
  pageFault := false
  accessFault := false
  invalidated := false
  global := true
  level := 0
  readable := true
  writable := true
  executable := true
  user := true
  accessed := true
  dirty := true

/-- The response for a leaf. -/
def ofLeaf (paddr : BitVec 64) (level : Nat) (global : Bool) (pte : BitVec 64) : PtwResp where
  paddr := paddr
  pageFault := false
  accessFault := false
  invalidated := false
  global := global
  level := level
  readable := r pte
  writable := Pte.w pte
  executable := x pte
  user := u pte
  accessed := a pte
  dirty := d pte

end PtwResp

namespace PtwWalker

variable (w : PtwWalker)

theorem with_icxTimeoutDrain {w : PtwWalker} {b : Bool} (h : w.icxTimeoutDrain = b) :
    { w with icxTimeoutDrain := b } = w := by
  subst h
  rfl

def setFaultResponse (pageFault accessFault : Bool) : PtwWalker :=
  { w with resp := .refuse pageFault accessFault false, phase := .resp }

def setInvalidatedResponse : PtwWalker :=
  { w with resp := .refuse false false true, phase := .resp }

def walkVpn : BitVec 9 :=
  if w.level == 2 then w.vaddr.extractLsb' 30 9
  else if w.level == 1 then w.vaddr.extractLsb' 21 9
  else w.vaddr.extractLsb' 12 9

def walkPteAddr : BitVec 64 := w.tableBase + (0#52 ++ w.walkVpn ++ 0#3)

def leafPermission (pte : BitVec 64) : Bool :=
  accessPermission w.access w.mxr (r pte) (Pte.w pte) (x pte) &&
    privilegePermission w.priv w.access w.sum (u pte) &&
      adPermission w.access (a pte) (d pte)

/-- An entry without an error becomes the response, or the next table. -/
def takeEntry (pte : BitVec 64) : PtwWalker :=
  if pteEncodingInvalid pte then w.setFaultResponse true false
  else if pteLeaf pte then
    if !superpageAligned w.level (ppn pte) || !w.leafPermission pte then
      w.setFaultResponse true false
    else
      { w with
        resp := .ofLeaf (composePaddr (ppn pte) w.vaddr w.level) w.level
          (w.global || g pte) pte
        phase := .resp }
  else if w.level == 0 || pteNonleafReserved pte then w.setFaultResponse true false
  else
    { w with
      tableBase := ppnBase (ppn pte)
      level := w.level - 1
      global := w.global || g pte
      backend := .pmp }

end PtwWalker

namespace PtwState

variable (p : PtwParams) (s : PtwState) (i : PtwInput)

section Lookup

def cacheSet : Nat := p.cacheSet s.walker.walkPteAddr

def wayMatches (way : Nat) : Bool :=
  (s.pteCache way (s.cacheSet p)).valid &&
    (s.pteCache way (s.cacheSet p)).tag == s.walker.walkPteAddr.extractLsb' 3 53

/-- The first way that holds the entry of this level. -/
def pteCacheHit : Option Nat :=
  if p.pteCacheEntries > 0 ∧ s.walker.phase = .walk then
    (List.range p.activeWays).find? (s.wayMatches p)
  else none

def pteCacheHitWay : Nat := (s.pteCacheHit p).getD 0

def pteCacheHitData : BitVec 64 :=
  match s.pteCacheHit p with
  | some way => (s.pteCache way (s.cacheSet p)).data
  | none => 0

/-- The entry of a way is worth less than the one of another way. -/
def lessValuable (way other : Nat) : Bool :=
  let e := s.pteCache way (s.cacheSet p)
  let o := s.pteCache other (s.cacheSet p)
  decide (e.level < o.level) || (e.level == o.level && decide (e.age > o.age))

/-- An invalid way if there is one, else the least valuable. -/
def pteCacheVictimWay : Nat :=
  match (List.range p.activeWays).find? fun way =>
      !(s.pteCache way (s.cacheSet p)).valid with
  | some way => way
  | none =>
    (List.range' 1 (p.activeWays - 1)).foldl
      (fun best way => if s.lessValuable p way best then way else best) 0

end Lookup

section Ports

def walking : Bool := s.walker.phase == .walk || s.walker.phase == .abort

def reqReadyO : Bool :=
  s.walker.phase == .idle && !i.invalidateI && !s.shootdownPending &&
    !s.shootdownInflight && !s.walker.icxTimeoutDrain

def reqFire : Bool := i.reqValidI && s.reqReadyO i

def respValidO : Bool := s.walker.phase == .resp && !i.invalidateI

def respFire : Bool := s.respValidO i && i.respReadyI

def pmpValidO : Bool := s.walker.phase == .walk && s.walker.backend == .pmp && !i.invalidateI

def pmpFire : Bool := s.pmpValidO i && i.pmpReadyI

def pmpDenied : Bool := s.pmpFire i && !i.pmpAllowI

def pteCacheHitUse : Bool := s.pmpFire i && i.pmpAllowI && (s.pteCacheHit p).isSome

def walkIcxReqValid : Bool := s.walking && s.walker.backend == .send

def shootdownIcxReqValid : Bool :=
  s.walker.phase == .idle && s.shootdownPending && !s.shootdownInflight && i.shootdownReadyI

def icxReqValidO : Bool := s.shootdownIcxReqValid i || s.walkIcxReqValid

def icxReqFire : Bool := s.icxReqValidO i && i.icxReqReadyI

def shootdownReqFire : Bool := s.shootdownIcxReqValid i && i.icxReqReadyI

def icxRespOwned : Bool := i.icxRespSourceIdI == 2

def icxRespReadyO : Bool :=
  icxRespOwned i && (s.walker.icxTimeoutDrain || s.shootdownInflight ||
    (s.walking && s.walker.backend == .wait))

def icxRespFire : Bool := i.icxRespValidI && s.icxRespReadyO i

def shootdownRespFire : Bool := s.icxRespFire i && s.shootdownInflight

def icxRespIdentityError : Bool :=
  i.icxRespHartIdI != p.hartId || i.icxRespTxnIdI != p.txnId ||
    i.icxRespBeatIndexI != 0 || !i.icxRespLastI

def invalidateBusyO : Bool := i.invalidateI || s.shootdownPending || s.shootdownInflight

def icxReqAddrO : BitVec 64 :=
  if s.shootdownIcxReqValid i then 0 else icxLineAddr s.walker.walkPteAddr

end Ports

section Watchdog

def walkBackendPending : Bool :=
  s.walking && (s.walker.backend == .send || s.walker.backend == .wait)

def walkBackendProgress : Bool :=
  (s.walker.backend == .send && s.icxReqFire i) || (s.walker.backend == .wait && s.icxRespFire i)

def walkBackendTimeout : Bool :=
  p.icxTimeoutCycles != 0 && s.walkBackendPending && !s.walkBackendProgress i &&
    s.icxTimeoutCount == p.icxTimeoutLast

def icxTimeoutCountNext : Nat :=
  if p.icxTimeoutCycles == 0 || !s.walkBackendPending || s.walkBackendProgress i ||
      s.walkBackendTimeout p i then 0
  else s.icxTimeoutCount + 1

end Watchdog

section Entry

def icxPteData : BitVec 64 := linePte i.icxRespRdataI s.walker.walkPteAddr

def walkPteData : BitVec 64 :=
  if s.pteCacheHitUse p i then s.pteCacheHitData p else s.icxPteData i

def walkPteReady : Bool := s.pmpDenied i || s.pteCacheHitUse p i || s.icxRespFire i

def walkPteError : Bool :=
  s.pmpDenied i || (s.icxRespFire i && (i.icxRespErrorI || icxRespIdentityError p i))

def pteCacheFill : Bool :=
  decide (p.pteCacheEntries > 0) && s.walker.phase == .walk && (s.pteCacheHit p).isNone &&
    s.icxRespFire i && !s.walkPteError p i && !pteEncodingInvalid (s.walkPteData p i) &&
      !pteLeaf (s.walkPteData p i) && s.walker.level != 0 && !pteNonleafReserved (s.walkPteData p i)

end Entry

section Next

def shootdownPendingNext : Bool := i.invalidateI || (s.shootdownPending && !s.shootdownReqFire i)

def shootdownInflightNext : Bool :=
  !s.shootdownRespFire i && (s.shootdownReqFire i || s.shootdownInflight)

def ageAfter (age : Nat) : Nat := (age + 1) % 2 ^ p.ageWidth

/-- A hit makes its way the youngest of the set. -/
def wayHit (way : Nat) : PteCacheEntry :=
  let e := s.pteCache way (s.cacheSet p)
  if way == s.pteCacheHitWay p then { e with age := 0 }
  else if e.valid && decide (e.age < (s.pteCache (s.pteCacheHitWay p) (s.cacheSet p)).age) then
    { e with age := ageAfter p e.age }
  else e

/-- A fill replaces the victim and ages the ways that were younger. -/
def wayFilled (way : Nat) : PteCacheEntry :=
  let e := s.pteCache way (s.cacheSet p)
  let victim := s.pteCache (s.pteCacheVictimWay p) (s.cacheSet p)
  if way == s.pteCacheVictimWay p then
    { valid := true
      tag := s.walker.walkPteAddr.extractLsb' 3 53
      data := s.walkPteData p i
      level := s.walker.level
      age := 0 }
  else if e.valid && (!victim.valid || decide (e.age < victim.age)) then
    { e with age := ageAfter p e.age }
  else e

def pteCacheNext (way set : Nat) : PteCacheEntry :=
  if i.invalidateI then { s.pteCache way set with valid := false }
  else if set == s.cacheSet p then
    if s.pteCacheHitUse p i then s.wayHit p way
    else if s.pteCacheFill p i then s.wayFilled p i way
    else s.pteCache way set
  else s.pteCache way set

/-- A late response is consumed before anything else happens. -/
def drained : PtwWalker :=
  { s.walker with
    icxTimeoutDrain := s.walker.icxTimeoutDrain && !s.icxRespFire i }

/-- The walker under `invalidate_i`. -/
def walkerInvalidated : PtwWalker :=
  let w := s.drained i
  match s.walker.phase with
  | .walk =>
    match s.walker.backend with
    | .pmp => w.setInvalidatedResponse
    | .send =>
      { w with phase := .abort, backend := if s.icxReqFire i then .wait else .send }
    | .wait =>
      if s.icxRespFire i then w.setInvalidatedResponse else { w with phase := .abort }
  | .abort =>
    if s.walker.backend == .send && s.icxReqFire i then { w with backend := .wait }
    else if s.walker.backend == .wait && s.icxRespFire i then w.setInvalidatedResponse
    else w
  | .resp => w.setInvalidatedResponse
  | .idle => w

/-- A request is answered at once, or starts a walk. -/
def accept : PtwWalker :=
  let w := s.drained i
  if i.reqVmModeI == 0 then { w with resp := .bare i.reqVaddrI, phase := .resp }
  else if i.reqVmModeI != 8 || !canonicalSv39 i.reqVaddrI || i.reqPrivI == 3 then
    w.setFaultResponse true false
  else
    { w with
      vaddr := i.reqVaddrI
      access := i.reqAccessI
      priv := i.reqPrivI
      sum := i.reqSumI
      mxr := i.reqMxrI
      level := 2
      tableBase := ppnBase i.reqRootPpnI
      global := false
      resp := { w.resp with invalidated := false }
      backend := .pmp
      phase := .walk }

/-- The request of a level moves through the check and the port. -/
def backendMoved : PtwWalker :=
  let w := s.drained i
  if s.walker.backend == .pmp && s.pmpFire i && i.pmpAllowI && (s.pteCacheHit p).isNone then
    { w with backend := .send }
  else if s.walker.backend == .send && s.icxReqFire i then { w with backend := .wait }
  else w

/-- The watchdog leaves the response of an accepted request to be drained. -/
def tombstoned (w : PtwWalker) : PtwWalker :=
  { w with icxTimeoutDrain := w.icxTimeoutDrain || s.walker.backend == .wait }

def walkNext : PtwWalker :=
  let w := s.backendMoved p i
  if s.walkBackendTimeout p i then (s.tombstoned w).setFaultResponse false true
  else if s.walkPteReady p i then
    if s.walkPteError p i then w.setFaultResponse false true
    else w.takeEntry (s.walkPteData p i)
  else w

def abortNext : PtwWalker :=
  let w := s.drained i
  if s.walkBackendTimeout p i then (s.tombstoned w).setInvalidatedResponse
  else if s.walker.backend == .send && s.icxReqFire i then { w with backend := .wait }
  else if s.walker.backend == .wait && s.icxRespFire i then w.setInvalidatedResponse
  else w

def walkerNext : PtwWalker :=
  if i.invalidateI then s.walkerInvalidated i
  else
    match s.walker.phase with
    | .idle => if s.reqFire i then s.accept i else s.drained i
    | .walk => s.walkNext p i
    | .abort => s.abortNext p i
    | .resp => if i.respReadyI then { s.drained i with phase := .idle } else s.drained i

end Next

/-- The state that reset leaves; the backend and the contents of the cache are those of
power-up. -/
def reset (powerUp : PtwState) : PtwState where
  walker :=
    { phase := .idle
      backend := powerUp.walker.backend
      icxTimeoutDrain := false
      vaddr := 0
      access := 0
      priv := 3
      sum := false
      mxr := false
      level := 2
      tableBase := 0
      global := false
      resp := .refuse false false false }
  shootdownPending := false
  shootdownInflight := false
  icxTimeoutCount := 0
  pteCache := fun way set => { powerUp.pteCache way set with valid := false }

def step : PtwState where
  walker := s.walkerNext p i
  shootdownPending := s.shootdownPendingNext i
  shootdownInflight := s.shootdownInflightNext i
  icxTimeoutCount := s.icxTimeoutCountNext p i
  pteCache := s.pteCacheNext p i

end PtwState

/-- The walker from reset. -/
def ptw (p : PtwParams) : Sync.Circuit PtwState PtwInput where
  Init s := ∃ powerUp, s = PtwState.reset powerUp
  step s i := s.step p i

end OpenRV64
