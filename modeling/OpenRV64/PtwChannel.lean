/-
The transactions of the page-table walker on its port, and the use it makes of each
response.
-/
import OpenRV64.Ptw

namespace OpenRV64

open PtwPhase PtwState PtwWalker Sync
open Bool (or_eq_true and_eq_true)

/-- What an accepted transaction is: a read that a walk waits for, a read that the
watchdog has given up, or a fence. -/
inductive PtwTxnKind where
  | read
  | expired
  | fence
deriving DecidableEq, Repr

structure PtwTxn where
  kind : PtwTxnKind
  line : BitVec 64
  walk : Nat
  issued : Nat
deriving DecidableEq, Repr

/-- A request as it was accepted. -/
structure PtwRequest where
  vaddr : BitVec 64
  access : BitVec 2
  priv : BitVec 2
  vmMode : BitVec 4
  rootPpn : BitVec 44
  sum : Bool
  mxr : Bool
deriving DecidableEq, Repr

/-- An entry that a response brought. -/
structure PtwFetch where
  addr : BitVec 64
  data : BitVec 64
  txn : Option PtwTxn
deriving DecidableEq, Repr

/-- An entry that a walk went by, or `none` where it found none, with the time at which
it was asked for. -/
structure PtwUse where
  level : Nat
  addr : BitVec 64
  outcome : Option (BitVec 64)
  issued : Nat
deriving DecidableEq, Repr

/-- The walker with what has happened on its ports since reset, which is at time `0`. -/
structure PtwLedger where
  ptw : PtwState
  now : Nat
  lastInvalidate : Nat
  pending : List PtwTxn
  accepted : Nat
  delivered : Nat
  request : PtwRequest
  interrupted : Bool
  reads : Nat
  uses : List PtwUse
  fetched : List PtwFetch
  cacheIssued : Nat → Nat → Nat
  fenceDone : Nat

/-- The watchdog gives up the read that a walk waits for. -/
def PtwState.expires (p : PtwParams) (s : PtwState) (i : PtwInput) : Bool :=
  !i.invalidateI && s.walkBackendTimeout p i && s.walker.backend == .wait

namespace PtwLedger

variable (p : PtwParams) (t : PtwLedger) (i : PtwInput)

/-- The transaction that a response of this cycle answers. -/
def answered : Option PtwTxn := t.pending.head?

def answeredSince : Nat := (t.answered.map PtwTxn.issued).getD 0

def issue : PtwTxn where
  kind := if t.ptw.shootdownIcxReqValid i then .fence else .read
  line := t.ptw.icxReqAddrO i
  walk := t.accepted
  issued := t.now

def expire (x : PtwTxn) : PtwTxn :=
  if x.kind = .read ∧ x.walk = t.accepted then { x with kind := .expired } else x

def pendingNext : List PtwTxn :=
  let rest := if t.ptw.icxRespFire i then t.pending.tail else t.pending
  (if t.ptw.expires p i then rest.map t.expire else rest) ++
    if t.ptw.icxReqFire i then [t.issue i] else []

def requestNext : PtwRequest :=
  if t.ptw.reqFire i then
    { vaddr := i.reqVaddrI
      access := i.reqAccessI
      priv := i.reqPrivI
      vmMode := i.reqVmModeI
      rootPpn := i.reqRootPpnI
      sum := i.reqSumI
      mxr := i.reqMxrI }
  else t.request

/-- The walk goes by the outcome of an access in this cycle. -/
def usesNow : Bool :=
  t.ptw.walker.phase == .walk && !i.invalidateI &&
    (t.ptw.walkBackendTimeout p i || t.ptw.walkPteReady p i)

def useNow : PtwUse where
  level := t.ptw.walker.level
  addr := t.ptw.walker.walkPteAddr
  outcome :=
    if t.ptw.walkBackendTimeout p i || t.ptw.walkPteError p i then none
    else some (t.ptw.walkPteData p i)
  issued :=
    if t.ptw.walkBackendTimeout p i || t.ptw.pmpDenied i then t.now
    else if t.ptw.pteCacheHitUse p i then
      t.cacheIssued (t.ptw.pteCacheHitWay p) (t.ptw.cacheSet p)
    else t.answeredSince

def usesNext : List PtwUse :=
  if t.ptw.reqFire i then []
  else if t.usesNow p i then t.uses ++ [t.useNow p i]
  else t.uses

/-- A response is used as an entry. -/
def fetches : Bool :=
  t.ptw.walker.phase == .walk && !i.invalidateI && t.ptw.icxRespFire i && !t.ptw.walkPteError p i

def fetchNow : PtwFetch where
  addr := t.ptw.walker.walkPteAddr
  data := t.ptw.icxPteData i
  txn := t.answered

def fetchedNext : List PtwFetch :=
  if t.fetches p i then t.fetchNow i :: t.fetched else t.fetched

def cacheIssuedNext (way set : Nat) : Nat :=
  if !i.invalidateI && !t.ptw.pteCacheHitUse p i && t.ptw.pteCacheFill p i &&
      set == t.ptw.cacheSet p && way == t.ptw.pteCacheVictimWay p then
    t.answeredSince
  else t.cacheIssued way set

/-- The response of this cycle completes a fence. -/
def fenceAnswered : Bool := t.ptw.icxRespFire i && (t.answered.map PtwTxn.kind == some .fence)

end PtwLedger

/-- The walker from reset, with its ledger. -/
def ptwLedger (p : PtwParams) : Circuit PtwLedger PtwInput where
  Init t := (ptw p).Init t.ptw ∧ t.now = 1 ∧ t.lastInvalidate = 0 ∧ t.pending = [] ∧
    t.accepted = 0 ∧ t.delivered = 0 ∧ t.interrupted = false ∧ t.uses = [] ∧
      t.fetched = [] ∧ t.fenceDone = 0
  step t i :=
    { ptw := t.ptw.step p i
      now := t.now + 1
      lastInvalidate := if i.invalidateI then t.now else t.lastInvalidate
      pending := t.pendingNext p i
      accepted := t.accepted + (t.ptw.reqFire i).toNat
      delivered := t.delivered + (t.ptw.respFire i).toNat
      request := t.requestNext i
      interrupted := !t.ptw.reqFire i && (t.interrupted || i.invalidateI)
      reads := if t.ptw.reqFire i then 0
        else t.reads + (t.ptw.walkIcxReqValid && i.icxReqReadyI).toNat
      uses := t.usesNext p i
      fetched := t.fetchedNext p i
      cacheIssued := t.cacheIssuedNext p i
      fenceDone := if t.fenceAnswered i then t.answeredSince else t.fenceDone }

namespace PtwState

variable {p : PtwParams} {s : PtwState} {i : PtwInput}

/-- What the walker waits for on its port. -/
def awaits (s : PtwState) : List PtwTxnKind :=
  if s.walker.icxTimeoutDrain then [.expired]
  else if s.shootdownInflight then [.fence]
  else if s.walking && s.walker.backend == .wait then [.read]
  else []

/-- The uses that the walker makes of a response: it ends the wait of a walk, ends the
wait of an aborted walk, is drained, or completes a fence. -/
inductive Role where
  | entry
  | abort
  | drain
  | fence
deriving DecidableEq, Repr

def roles (s : PtwState) : List Role :=
  (if s.walker.phase = .walk then [.entry] else []) ++
    (if s.walker.phase = .abort then [.abort] else []) ++
      (if s.walker.icxTimeoutDrain then [.drain] else []) ++
        (if s.shootdownInflight then [.fence] else [])

/-- The phases exclude each other's transactions. -/
structure Exclusive (s : PtwState) : Prop where
  walk : s.walker.phase = .walk → s.walker.icxTimeoutDrain = false ∧
    s.shootdownInflight = false ∧ s.shootdownPending = false
  abort : s.walker.phase = .abort → s.walker.icxTimeoutDrain = false ∧
    s.shootdownInflight = false ∧ s.walker.backend ≠ .pmp
  fence : s.shootdownInflight = true → s.walker.phase = .idle ∧ s.walker.icxTimeoutDrain = false

section Walking

variable (hx : s.Exclusive) (hph : s.walker.phase = .walk)

include hph

theorem icxReqFire_of_walk : s.icxReqFire i = (s.walker.backend == .send && i.icxReqReadyI) := by
  simp [icxReqFire, icxReqValidO, shootdownIcxReqValid, walkIcxReqValid, walking, hph]

theorem pmpFire_of_walk :
    s.pmpFire i = (s.walker.backend == .pmp && !i.invalidateI && i.pmpReadyI) := by
  simp [pmpFire, pmpValidO, hph]

include hx

theorem drained_of_walk : s.drained i = s.walker := by
  have hdr := (hx.walk hph).1
  rw [drained, hdr, Bool.false_and, with_icxTimeoutDrain hdr]

theorem icxRespFire_of_walk :
    s.icxRespFire i = (i.icxRespValidI && icxRespOwned i && s.walker.backend == .wait) := by
  simp [icxRespFire, icxRespReadyO, walking, hph, hx.walk hph, Bool.and_assoc]

/-- The check of an entry: refused, answered by the cache, or passed on to the port. -/
theorem walkNext_pmp (hback : s.walker.backend = .pmp) (hinval : i.invalidateI = false) :
    s.walkNext p i =
      if !i.pmpReadyI then s.walker
      else if !i.pmpAllowI then s.walker.setFaultResponse false true
      else if (s.pteCacheHit p).isSome then s.walker.takeEntry (s.pteCacheHitData p)
      else { s.walker with backend := .send } := by
  have htime : s.walkBackendTimeout p i = false := by
    simp [walkBackendTimeout, walkBackendPending, hback]
  have hfire : s.pmpFire i = i.pmpReadyI := by
    simp [pmpFire_of_walk hph, hback, hinval]
  have hrsp : s.icxRespFire i = false := by
    simp [icxRespFire_of_walk hx hph, hback]
  simp only [walkNext, htime, walkPteReady, walkPteError, walkPteData, pmpDenied,
    pteCacheHitUse, backendMoved, drained_of_walk hx hph, hfire, hrsp, hback]
  cases i.pmpReadyI <;> cases i.pmpAllowI <;> cases hhit : s.pteCacheHit p <;> simp

theorem walkNext_send (hback : s.walker.backend = .send) : s.walkNext p i =
      if i.icxReqReadyI then { s.walker with backend := .wait }
      else if s.walkBackendTimeout p i then s.walker.setFaultResponse false true
      else s.walker := by
  have hpmp : s.pmpFire i = false := by simp [pmpFire_of_walk hph, hback]
  have hrsp : s.icxRespFire i = false := by
    simp [icxRespFire_of_walk hx hph, hback]
  have hreq : s.icxReqFire i = i.icxReqReadyI := by
    simp [icxReqFire_of_walk hph, hback]
  have htime : i.icxReqReadyI → s.walkBackendTimeout p i = false := by
    intro hrdy
    simp [walkBackendTimeout, walkBackendProgress, hback, hreq, hrdy]
  have hdr := (hx.walk hph).1
  cases hrdy : i.icxReqReadyI with
  | true =>
    simp [walkNext, htime hrdy, walkPteReady, pmpDenied, pteCacheHitUse,
      backendMoved, drained_of_walk hx hph, hpmp, hrsp, hreq, hback, hrdy]
  | false =>
    have htomb : s.tombstoned s.walker = s.walker := by
      apply with_icxTimeoutDrain
      simp [hdr, hback]
    simp [walkNext, walkPteReady, pmpDenied, pteCacheHitUse, backendMoved,
      drained_of_walk hx hph, hpmp, hrsp, hreq, hback, hrdy, htomb]

theorem walkNext_wait (hback : s.walker.backend = .wait) : s.walkNext p i =
      if s.icxRespFire i then
        if i.icxRespErrorI || icxRespIdentityError p i then
          s.walker.setFaultResponse false true
        else s.walker.takeEntry (s.icxPteData i)
      else if s.walkBackendTimeout p i then
        { s.walker with icxTimeoutDrain := true }.setFaultResponse false true
      else s.walker := by
  have hpmp : s.pmpFire i = false := by simp [pmpFire_of_walk hph, hback]
  have hreq : s.icxReqFire i = false := by
    simp [icxReqFire_of_walk hph, hback]
  have htime : s.icxRespFire i → s.walkBackendTimeout p i = false := by
    intro hfire
    simp [walkBackendTimeout, walkBackendProgress, hback, hfire]
  have hmoved : s.backendMoved p i = s.walker := by
    simp [backendMoved, drained_of_walk hx hph, hpmp, hreq]
  cases hfire : s.icxRespFire i with
  | true =>
    simp [walkNext, htime hfire, walkPteReady, walkPteError, walkPteData, pmpDenied,
      pteCacheHitUse, hmoved, hpmp, hfire]
  | false =>
    have htomb : s.tombstoned s.walker = { s.walker with icxTimeoutDrain := true } := by
      simp [tombstoned, hback]
    simp [walkNext, walkPteReady, pmpDenied, pteCacheHitUse, hmoved, hpmp, hfire, htomb]

end Walking

section Aborting

variable (hx : s.Exclusive) (hph : s.walker.phase = .abort)

include hph

theorem icxReqFire_of_abort : s.icxReqFire i = (s.walker.backend == .send && i.icxReqReadyI) := by
  simp [icxReqFire, icxReqValidO, shootdownIcxReqValid, walkIcxReqValid, walking, hph]

include hx

theorem icxRespFire_of_abort :
    s.icxRespFire i = (i.icxRespValidI && icxRespOwned i && s.walker.backend == .wait) := by
  simp [icxRespFire, icxRespReadyO, walking, hph, hx.abort hph, Bool.and_assoc]

theorem drained_of_abort : s.drained i = s.walker := by
  have hdr := (hx.abort hph).1
  rw [drained, hdr, Bool.false_and, with_icxTimeoutDrain hdr]

end Aborting

/-- An entry ends the walk, or leads to the table of the next level. -/
theorem takeEntry_cases (w : PtwWalker) (pte : BitVec 64) :
    (∃ r, w.takeEntry pte = { w with resp := r, phase := .resp }) ∨ (w.level ≠ 0 ∧ w.takeEntry pte =
        { w with
          tableBase := ppnBase (Sv39.Pte.ppn pte)
          level := w.level - 1
          global := w.global || Sv39.Pte.g pte
          backend := .pmp }) := by
  unfold takeEntry
  split
  · exact .inl ⟨_, rfl⟩
  split
  · split
    · exact .inl ⟨_, rfl⟩
    · exact .inl ⟨_, rfl⟩
  split
  · exact .inl ⟨_, rfl⟩
  · rename_i h
    simp only [or_eq_true, beq_iff_eq, not_or] at h
    exact .inr ⟨h.1, rfl⟩

/-- A walk, aborted or not, either ends in this cycle or keeps waiting for its port. -/
inductive Moves (p : PtwParams) (s : PtwState) (i : PtwInput) : Prop where
  | ended (phase : (s.walkerNext p i).phase = .resp)
      (drain : (s.walkerNext p i).icxTimeoutDrain = s.expires p i)
      (request : s.icxReqFire i = false)
      (wait : s.walker.backend = .wait → (s.icxRespFire i || s.expires p i) = true)
  | stays
      (phase : ((s.walkerNext p i).phase = .walk ∧ i.invalidateI = false ∧ s.walker.phase = .walk) ∨
        ((s.walkerNext p i).phase = .abort ∧ (s.walkerNext p i).backend ≠ .pmp))
      (drain : (s.walkerNext p i).icxTimeoutDrain = false)
      (timely : s.expires p i = false)
      (wait : (s.walkerNext p i).backend = .wait ↔ s.icxReqFire i = true ∨
        (s.walker.backend = .wait ∧ s.icxRespFire i = false))
      (addr : (s.walkerNext p i).backend = .wait →
        (s.walkerNext p i).walkPteAddr = s.walker.walkPteAddr)

theorem timeout_of_progress (h : s.walkBackendProgress i) : s.walkBackendTimeout p i = false := by
  simp [walkBackendTimeout, h]

theorem timeout_of_pmp (h : s.walker.backend = .pmp) : s.walkBackendTimeout p i = false := by
  simp [walkBackendTimeout, walkBackendPending, h]

section

variable (hx : s.Exclusive) (hph : s.walker.phase = .walk)

include hx hph

theorem moves_takeEntry (hinval : i.invalidateI = false) {pte : BitVec 64}
    (htimely : s.expires p i = false) (hreq : s.icxReqFire i = false)
    (hwait : s.walker.backend = .wait → s.icxRespFire i)
    (hnxt : s.walkerNext p i = s.walker.takeEntry pte) : s.Moves p i := by
  rcases takeEntry_cases s.walker pte with ⟨r, htake⟩ | ⟨-, htake⟩
  · refine .ended ?_ ?_ hreq fun h => by simp [hwait h]
    · simp [hnxt, htake]
    · simp [hnxt, htake, htimely, (hx.walk hph).1]
  refine .stays (.inl ⟨?_, hinval, hph⟩) ?_ htimely ?_ (by simp [hnxt, htake])
  · simp [hnxt, htake, hph]
  · simp [hnxt, htake, (hx.walk hph).1]
  · simp only [hnxt, htake, hreq, reduceCtorEq, Bool.false_eq_true, false_or, false_iff,
      not_and, Bool.not_eq_false]
    exact hwait

theorem moves_of_walk_invalidated (hinval : i.invalidateI) : s.Moves p i := by
  have hdr := (hx.walk hph).1
  have htimely : s.expires p i = false := by simp [expires, hinval]
  have hnxt : s.walkerNext p i = s.walkerInvalidated i := by simp [walkerNext, hinval]
  have hdrained := drained_of_walk hx hph (i := i)
  have hreq := icxReqFire_of_walk (i := i) hph
  simp only [walkerInvalidated, hph, hdrained] at hnxt
  cases hback : s.walker.backend with
  | pmp =>
    simp only [hback] at hnxt hreq
    exact .ended (by simp [hnxt, setInvalidatedResponse])
      (by simp [hnxt, setInvalidatedResponse, hdr, htimely])
      (by simp [hreq]) (by simp [hback])
  | send =>
    simp only [hback] at hnxt
    refine .stays (.inr ⟨by simp [hnxt], ?_⟩) (by simp [hnxt, hdr]) htimely ?_
      (by simp [hnxt, walkPteAddr, walkVpn])
    · cases hfire : s.icxReqFire i <;> simp [hnxt, hfire]
    · cases hfire : s.icxReqFire i <;> simp [hnxt, hfire, hback]
  | wait =>
    simp only [hback] at hnxt hreq
    cases hfire : s.icxRespFire i with
    | true =>
      simp only [hfire, if_true] at hnxt
      exact .ended (by simp [hnxt, setInvalidatedResponse])
        (by simp [hnxt, setInvalidatedResponse, hdr, htimely])
        (by simp [hreq]) (by simp [hfire])
    | false =>
      simp only [hfire, if_low] at hnxt
      exact .stays (.inr ⟨by simp [hnxt], by simp [hnxt]⟩)
        (by simp [hnxt, hdr]) htimely (by simp [hnxt, hfire, hback])
        (by simp [hnxt, walkPteAddr, walkVpn])

theorem moves_of_walk : s.Moves p i := by
  cases hinval : i.invalidateI with
  | true => exact moves_of_walk_invalidated hx hph hinval
  | false =>
    have hdr := (hx.walk hph).1
    have hnxt : s.walkerNext p i = s.walkNext p i := by
      simp [walkerNext, hinval, hph]
    have hreq := icxReqFire_of_walk (i := i) hph
    cases hback : s.walker.backend with
    | pmp =>
      have htimely : s.expires p i = false := by simp [expires, hback]
      rw [walkNext_pmp hx hph hback hinval] at hnxt
      simp only [hback] at hreq
      split at hnxt
      · exact .stays (.inl ⟨by simp [hnxt, hph], hinval, hph⟩)
          (by simp [hnxt, hdr]) htimely (by simp [hnxt, hback, hreq])
          (by simp [hnxt, walkPteAddr, walkVpn])
      split at hnxt
      · exact .ended (by simp [hnxt, setFaultResponse])
          (by simp [hnxt, setFaultResponse, hdr, htimely])
          (by simp [hreq]) (by simp [hback])
      split at hnxt
      · exact moves_takeEntry hx hph hinval htimely (by simp [hreq]) (by simp [hback]) hnxt
      · exact .stays (.inl ⟨by simp [hnxt, hph], hinval, hph⟩)
          (by simp [hnxt, hdr]) htimely (by simp [hnxt, hback, hreq])
          (by simp [hnxt, walkPteAddr, walkVpn])
    | send =>
      have htimely : s.expires p i = false := by simp [expires, hback]
      rw [walkNext_send hx hph hback] at hnxt
      simp only [hback] at hreq
      split at hnxt
      · rename_i hrdy
        exact .stays (.inl ⟨by simp [hnxt, hph], hinval, hph⟩)
          (by simp [hnxt, hdr]) htimely (by simp [hnxt, hreq, hrdy])
          (by simp [hnxt, walkPteAddr, walkVpn])
      rename_i hrdy
      split at hnxt
      · exact .ended (by simp [hnxt, setFaultResponse])
          (by simp [hnxt, setFaultResponse, hdr, htimely])
          (by simp [hreq, hrdy]) (by simp [hback])
      · exact .stays (.inl ⟨by simp [hnxt, hph], hinval, hph⟩)
          (by simp [hnxt, hdr]) htimely (by simp [hnxt, hback, hreq, hrdy])
          (by simp [hnxt, walkPteAddr, walkVpn])
    | wait =>
      rw [walkNext_wait hx hph hback] at hnxt
      simp only [hback] at hreq
      cases hfire : s.icxRespFire i with
      | true =>
        have htimely : s.expires p i = false := by
          simp [expires, timeout_of_progress, walkBackendProgress, hback, hfire]
        simp only [hfire, if_true] at hnxt
        split at hnxt
        · exact .ended (by simp [hnxt, setFaultResponse])
            (by simp [hnxt, setFaultResponse, hdr, htimely])
            (by simp [hreq]) (by simp [hfire])
        · exact moves_takeEntry hx hph hinval htimely (by simp [hreq]) (by simp [hfire]) hnxt
      | false =>
        simp only [hfire, if_low] at hnxt
        cases htime : s.walkBackendTimeout p i with
        | true =>
          have hlate : s.expires p i := by
            simp [expires, hinval, hback, htime]
          simp only [htime, if_true] at hnxt
          exact .ended (by simp [hnxt, setFaultResponse]) (by simp [hnxt, setFaultResponse, hlate])
            (by simp [hreq]) (by simp [hlate])
        | false =>
          simp only [htime, if_low] at hnxt
          exact .stays (.inl ⟨by simp [hnxt, hph], hinval, hph⟩)
            (by simp [hnxt, hdr]) (by simp [expires, htime])
            (by simp [hnxt, hfire, hback])
            (by simp [hnxt, walkPteAddr, walkVpn])

end

theorem walkerNext_of_abort (hx : s.Exclusive) (hph : s.walker.phase = .abort) :
    s.walkerNext p i =
      if !i.invalidateI && s.walkBackendTimeout p i then
        (s.tombstoned s.walker).setInvalidatedResponse
      else if s.icxReqFire i then { s.walker with backend := .wait }
      else if s.icxRespFire i then s.walker.setInvalidatedResponse
      else s.walker := by
  have hpmp := (hx.abort hph).2.2
  have hreq := icxReqFire_of_abort (i := i) hph
  have hdrained := drained_of_abort hx hph (i := i)
  have hrsp := icxRespFire_of_abort hx hph (i := i)
  cases hinval : i.invalidateI <;> cases hback : s.walker.backend <;>
    simp_all [walkerNext, walkerInvalidated, abortNext]

theorem moves_of_abort (hx : s.Exclusive) (hph : s.walker.phase = .abort) : s.Moves p i := by
  obtain ⟨hdr, -, hpmp⟩ := hx.abort hph
  have hreq := icxReqFire_of_abort (i := i) hph
  have hnxt := walkerNext_of_abort (p := p) (i := i) hx hph
  cases hlate : !i.invalidateI && s.walkBackendTimeout p i with
  | true =>
    have htime : s.walkBackendTimeout p i := by simp_all
    have hprogress : s.walkBackendProgress i = false := by
      refine eq_false_of_ne_true fun hprogress => ?_
      simp [timeout_of_progress hprogress] at htime
    have hexpires : s.expires p i = (s.walker.backend == .wait) := by
      simp [expires, hlate]
    rw [hlate, if_pos rfl] at hnxt
    refine .ended (by simp [hnxt, setInvalidatedResponse]) ?_ ?_ ?_
    · simp [hnxt, setInvalidatedResponse, tombstoned, hdr, hexpires]
    · cases hback : s.walker.backend <;> simp_all [walkBackendProgress]
    · exact fun hback => by simp [hexpires, hback]
  | false =>
    have htimely : s.expires p i = false := by simp [expires, hlate]
    rw [hlate] at hnxt
    cases hfire : s.icxReqFire i with
    | true =>
      simp only [hfire, if_true] at hnxt
      exact .stays (.inr ⟨by simp [hnxt, hph], by simp [hnxt]⟩)
        (by simp [hnxt, hdr]) htimely (by simp [hnxt, hfire])
        (by simp [hnxt, walkPteAddr, walkVpn])
    | false =>
      simp only [hfire, if_low] at hnxt
      cases hrsp : s.icxRespFire i with
      | true =>
        simp only [hrsp, if_true] at hnxt
        exact .ended (by simp [hnxt, setInvalidatedResponse])
          (by simp [hnxt, setInvalidatedResponse, hdr, htimely]) hfire
          (by simp [hrsp])
      | false =>
        simp only [hrsp, if_low] at hnxt
        exact .stays (.inr ⟨by simp [hnxt, hph], by simp [hnxt, hpmp]⟩)
          (by simp [hnxt, hdr]) htimely (by simp [hnxt, hfire, hrsp])
          (by simp [hnxt, walkPteAddr, walkVpn])

theorem moves_of_walking (hx : s.Exclusive) (hwalk : s.walking) : s.Moves p i := by
  simp only [walking, beq_eq_decide, or_eq_true, decide_eq_true_eq] at hwalk
  rcases hwalk with hph | hph
  · exact moves_of_walk hx hph
  · exact moves_of_abort hx hph

/-- A fence is accepted only once a late response is consumed, at the latest in the same
cycle. -/
def SafeDrain (s : PtwState) (i : PtwInput) : Prop :=
  s.shootdownReqFire i = true → s.walker.icxTimeoutDrain = true → s.icxRespFire i = true

def issuedKind (s : PtwState) (i : PtwInput) : PtwTxnKind :=
  if s.shootdownIcxReqValid i then .fence else .read

/-- The kinds of the transactions on the port after a cycle. -/
def kindsNext (p : PtwParams) (s : PtwState) (i : PtwInput) : List PtwTxnKind :=
  let rest := if s.icxRespFire i then s.awaits.tail else s.awaits
  (if s.expires p i then rest.map fun _ => .expired else rest) ++
    if s.icxReqFire i then [s.issuedKind i] else []

section Walking

variable (hx : s.Exclusive) (hwalk : s.walking)

include hx hwalk

theorem clear_of_walking : s.walker.icxTimeoutDrain = false ∧ s.shootdownInflight = false := by
  simp only [walking, beq_eq_decide, or_eq_true, decide_eq_true_eq] at hwalk
  rcases hwalk with hph | hph
  · exact ⟨(hx.walk hph).1, (hx.walk hph).2.1⟩
  · exact ⟨(hx.abort hph).1, (hx.abort hph).2.1⟩

theorem quiet_of_walking : s.walker.icxTimeoutDrain = false ∧ s.shootdownInflight = false ∧
      s.shootdownIcxReqValid i = false := by
  obtain ⟨hdr, hinfl⟩ := clear_of_walking hx hwalk
  refine ⟨hdr, hinfl, ?_⟩
  simp only [walking, beq_eq_decide, or_eq_true, decide_eq_true_eq] at hwalk
  rcases hwalk with hph | hph <;> simp [shootdownIcxReqValid, hph]

theorem inflight_of_walking : s.shootdownInflightNext i = false := by
  obtain ⟨-, hinfl, hval⟩ := quiet_of_walking (i := i) hx hwalk
  simp [shootdownInflightNext, shootdownReqFire, hval, hinfl]

theorem awaits_step_of_walking : (s.step p i).awaits = s.kindsNext p i := by
  obtain ⟨hdr, hinfl, hval⟩ := quiet_of_walking (i := i) hx hwalk
  have hin := inflight_of_walking (i := i) hx hwalk
  have hkind : s.issuedKind i = .read := by simp [issuedKind, hval]
  have hawaits : s.awaits = if s.walker.backend = .wait then [.read] else [] := by
    simp [awaits, hdr, hinfl, hwalk]
  have hfire : s.icxRespFire i → s.walker.backend = .wait := by
    simp [icxRespFire, icxRespReadyO, hdr, hinfl]
  rcases moves_of_walking (p := p) (i := i) hx hwalk with
    ⟨hph, hdr', hreq, hwait⟩ | ⟨hph, hdr', htimely, hwait, -⟩
  · have hwalk' : (s.step p i).walking = false := by simp [walking, step, hph]
    have hafter : (s.step p i).awaits = if s.expires p i then [.expired] else [] := by
      simp [awaits, step, hdr', hin, walking, hph]
    have htimely : s.icxRespFire i → s.expires p i = false := by
      intro h
      simp [expires, timeout_of_progress, walkBackendProgress, h, hfire h]
    rw [hafter, kindsNext, hreq, hawaits]
    by_cases hback : s.walker.backend = .wait
    · cases hrsp : s.icxRespFire i with
      | true => simp [htimely hrsp, hback]
      | false =>
        have hlate : s.expires p i := by simpa [hrsp] using hwait hback
        simp [hlate, hback]
    have hrsp : s.icxRespFire i = false := by
      refine eq_false_of_ne_true fun h => ?_
      exact absurd (hfire h) hback
    have hlate : s.expires p i = false := by simp [expires, hback]
    simp [hback, hlate]
  · have hwalk' : (s.walkerNext p i).phase = .walk ∨ (s.walkerNext p i).phase = .abort :=
      hph.imp And.left And.left
    have hafter : (s.step p i).awaits =
        if (s.walkerNext p i).backend = .wait then [.read] else [] := by
      simp [awaits, step, hdr', hin, walking, hwalk']
    have hreq : s.icxReqFire i → s.walker.backend ≠ .wait := by
      intro h hback
      simp [icxReqFire, icxReqValidO, hval, walkIcxReqValid, hback] at h
    rw [hafter, kindsNext, htimely, hawaits, hkind]
    cases hfire' : s.icxReqFire i with
    | true => simp [hwait, hfire', hreq hfire']
    | false =>
      cases hrsp : s.icxRespFire i with
      | true => simp [hwait, hfire', hrsp, hfire hrsp]
      | false => simp [hwait, hfire', hrsp]

theorem exclusive_step_of_walking : (s.step p i).Exclusive := by
  obtain ⟨-, -, hval⟩ := quiet_of_walking (i := i) hx hwalk
  have hin := inflight_of_walking (i := i) hx hwalk
  rcases moves_of_walking (p := p) (i := i) hx hwalk with
    ⟨hph, -, -, -⟩ | ⟨hph, hdrain', -, -, -⟩
  · constructor <;> simp [step, hph, hin]
  · rcases hph with ⟨hph, hinval, hbef⟩ | ⟨hph, hback⟩
    · have hpend := (hx.walk hbef).2.2
      constructor <;>
        simp [step, hph, hin, hdrain', shootdownPendingNext, hinval, hpend]
    · constructor <;> simp [step, hph, hin, hdrain', hback]

end Walking

/-- A request is answered at once, or its walk begins with the check of an entry. -/
theorem accept_cases (s : PtwState) (i : PtwInput) :
    ((s.accept i).phase = .resp ∨ ((s.accept i).phase = .walk ∧ (s.accept i).backend = .pmp)) ∧
        (s.accept i).icxTimeoutDrain = (s.walker.icxTimeoutDrain && !s.icxRespFire i) := by
  unfold accept
  split
  · exact ⟨.inl rfl, rfl⟩
  · split
    · exact ⟨.inl rfl, rfl⟩
    · exact ⟨.inr ⟨rfl, rfl⟩, rfl⟩

theorem quiet_of_reqFire (hfire : s.reqFire i) :
    s.walker.icxTimeoutDrain = false ∧ s.shootdownInflight = false ∧
      s.shootdownPending = false ∧ i.invalidateI = false ∧ s.walker.phase = .idle := by
  simp only [reqFire, reqReadyO, beq_eq_decide, and_eq_true,
    Bool.not_eq_true', decide_eq_true_eq] at hfire
  obtain ⟨-, ⟨⟨⟨hph, hinval⟩, hpend⟩, hinfl⟩, hdr⟩ := hfire
  exact ⟨hdr, hinfl, hpend, hinval, hph⟩

section Resting

variable (hx : s.Exclusive) (hresting : s.walking = false)

include hresting

theorem expires_of_resting : s.expires p i = false := by
  simp [expires, walkBackendTimeout, walkBackendPending, hresting]

theorem icxReqFire_of_resting : s.icxReqFire i = s.shootdownReqFire i := by
  simp [icxReqFire, icxReqValidO, walkIcxReqValid, hresting, shootdownReqFire]

theorem icxRespFire_of_resting : s.icxRespFire i = (i.icxRespValidI && icxRespOwned i &&
      (s.walker.icxTimeoutDrain || s.shootdownInflight)) := by
  simp [icxRespFire, icxRespReadyO, hresting, Bool.and_assoc]

theorem phase_of_resting : s.walker.phase = .idle ∨ s.walker.phase = .resp := by
  cases hph : s.walker.phase with
  | idle => exact .inl rfl
  | resp => exact .inr rfl
  | walk => simp [walking, hph] at hresting
  | abort => simp [walking, hph] at hresting

/-- Without a walk, the only way to the port is to start one. -/
theorem walkerNext_of_resting :
    ((s.walkerNext p i).phase = .idle ∨ (s.walkerNext p i).phase = .resp ∨
      ((s.walkerNext p i).phase = .walk ∧ (s.walkerNext p i).backend = .pmp ∧ s.reqFire i)) ∧
      (s.walkerNext p i).icxTimeoutDrain = (s.walker.icxTimeoutDrain && !s.icxRespFire i) := by
  rcases phase_of_resting hresting with hph | hph
  · cases hinval : i.invalidateI with
    | true => simp [walkerNext, hinval, walkerInvalidated, hph, drained]
    | false =>
    cases hfire : s.reqFire i with
    | false => simp [walkerNext, hinval, hph, hfire, drained]
    | true =>
      have hnxt : s.walkerNext p i = s.accept i := by
        simp [walkerNext, hinval, hph, hfire]
      obtain ⟨hacc, hdr⟩ := accept_cases s i
      rw [hnxt, hdr]
      refine ⟨.inr (hacc.imp id ?_), rfl⟩
      exact fun ⟨hph', hback⟩ => ⟨hph', hback, rfl⟩
  cases hinval : i.invalidateI with
  | true =>
    simp [walkerNext, hinval, walkerInvalidated, hph, drained, setInvalidatedResponse]
  | false =>
    cases hrdy : i.respReadyI <;>
      simp [walkerNext, hinval, hph, hrdy, drained]

include hx

theorem awaits_step_of_resting (hsafe : s.SafeDrain i) : (s.step p i).awaits = s.kindsNext p i := by
  obtain ⟨hph, hdr'⟩ := walkerNext_of_resting (p := p) (i := i) hresting
  have hrest : ((s.step p i).walking && (s.step p i).walker.backend == .wait) = false := by
    rcases hph with hph | hph | ⟨-, hback, -⟩
    · simp [step, walking, hph]
    · simp [step, walking, hph]
    · simp [step, hback]
  have hafter : (s.step p i).awaits =
      if s.walker.icxTimeoutDrain && !s.icxRespFire i then [.expired]
      else if s.shootdownInflightNext i then [.fence] else [] := by
    rw [awaits, hrest]
    simp [step, hdr']
  have hbef : s.awaits =
      if s.walker.icxTimeoutDrain then [.expired]
      else if s.shootdownInflight then [.fence] else [] := by
    simp [awaits, hresting]
  have hkind : s.shootdownReqFire i → s.issuedKind i = .fence := by
    intro h
    simp only [shootdownReqFire, and_eq_true] at h
    simp [issuedKind, h.1]
  have hrsp := icxRespFire_of_resting (i := i) hresting
  rw [hafter, kindsNext, expires_of_resting hresting, icxReqFire_of_resting hresting, hbef]
  cases hreq : s.shootdownReqFire i with
  | true =>
    have hinfl : s.shootdownInflight = false := by
      simp only [shootdownReqFire, shootdownIcxReqValid, and_eq_true, Bool.not_eq_true'] at hreq
      exact hreq.1.1.2
    cases hdr : s.walker.icxTimeoutDrain with
    | true =>
      simp [shootdownInflightNext, shootdownRespFire, hsafe hreq hdr, hinfl, hreq, hkind hreq]
    | false =>
      have hquiet : s.icxRespFire i = false := by simp [hrsp, hdr, hinfl]
      simp [shootdownInflightNext, shootdownRespFire, hquiet, hinfl, hreq, hkind hreq]
  | false =>
  cases hdr : s.walker.icxTimeoutDrain with
  | true =>
    have hinfl : s.shootdownInflight = false := by
      refine eq_false_of_ne_true fun h => ?_
      exact absurd (hx.fence h).2 (by simp [hdr])
    cases hfire : s.icxRespFire i <;>
      simp [shootdownInflightNext, shootdownRespFire, hinfl, hreq, hfire]
  | false =>
  cases hinfl : s.shootdownInflight with
  | true =>
    cases hfire : s.icxRespFire i <;>
      simp [shootdownInflightNext, shootdownRespFire, hinfl, hreq, hfire]
  | false =>
    have hquiet : s.icxRespFire i = false := by simp [hrsp, hdr, hinfl]
    simp [shootdownInflightNext, hinfl, hreq, hquiet]

theorem exclusive_step_of_resting (hsafe : s.SafeDrain i) : (s.step p i).Exclusive := by
  obtain ⟨hph, hdr'⟩ := walkerNext_of_resting (p := p) (i := i) hresting
  have hfen : s.shootdownInflightNext i →
      (s.step p i).walker.phase = .idle ∧ (s.step p i).walker.icxTimeoutDrain = false := by
    intro h
    have hidle : s.walker.phase = .idle ∧
        (s.walker.icxTimeoutDrain && !s.icxRespFire i) = false ∧ s.reqFire i = false := by
      simp only [shootdownInflightNext, and_eq_true, or_eq_true] at h
      rcases h.2 with hreq | hinfl
      · have hval := hreq
        simp only [shootdownReqFire, shootdownIcxReqValid, beq_eq_decide,
          and_eq_true, decide_eq_true_eq] at hval
        refine ⟨hval.1.1.1.1, ?_, ?_⟩
        · cases hdr : s.walker.icxTimeoutDrain with
          | false => rfl
          | true => simp [hsafe hreq hdr]
        · simp [reqFire, reqReadyO, hval.1.1.1.2]
      · obtain ⟨hph, hdr⟩ := hx.fence hinfl
        exact ⟨hph, by simp [hdr], by simp [reqFire, reqReadyO, hinfl]⟩
    obtain ⟨hbef, hclr, hfire⟩ := hidle
    refine ⟨?_, hdr'.trans hclr⟩
    cases hinval : i.invalidateI <;>
      simp [step, walkerNext, hinval, walkerInvalidated, hbef, hfire, drained]
  rcases hph with hph | hph | ⟨hph, -, hfire⟩
  · exact ⟨by simp [step, hph], by simp [step, hph], hfen⟩
  · exact ⟨by simp [step, hph], by simp [step, hph], hfen⟩
  obtain ⟨hdr, hinfl, hpend, hinval, -⟩ := quiet_of_reqFire hfire
  refine ⟨fun _ => ⟨?_, ?_, ?_⟩, by simp [step, hph], hfen⟩
  · simp [step, hdr', hdr]
  · simp [step, shootdownInflightNext, shootdownReqFire, shootdownIcxReqValid, hinfl, hpend]
  · simp [step, shootdownPendingNext, hinval, hpend]

end Resting

theorem exclusive_step (hx : s.Exclusive) (hsafe : s.SafeDrain i) : (s.step p i).Exclusive := by
  cases hwalk : s.walking with
  | true => exact exclusive_step_of_walking hx hwalk
  | false => exact exclusive_step_of_resting hx hwalk hsafe

theorem awaits_step (hx : s.Exclusive) (hsafe : s.SafeDrain i) :
    (s.step p i).awaits = s.kindsNext p i := by
  cases hwalk : s.walking with
  | true => exact awaits_step_of_walking hx hwalk
  | false => exact awaits_step_of_resting hx hwalk hsafe

/-- A response that is taken has exactly the use that its kind calls for. -/
theorem roles_of_awaits (hx : s.Exclusive) (hfire : s.icxRespFire i) :
    (s.awaits = [.expired] ∧ s.roles = [.drain]) ∨ (s.awaits = [.fence] ∧ s.roles = [.fence]) ∨
        (s.awaits = [.read] ∧ ((s.walker.phase = .walk ∧ s.roles = [.entry]) ∨
          (s.walker.phase = .abort ∧ s.roles = [.abort]))) := by
  cases hwalk : s.walking with
  | true =>
    obtain ⟨hdr, hinfl, -⟩ := quiet_of_walking (i := i) hx hwalk
    have hback : s.walker.backend = .wait := by
      simp only [icxRespFire, icxRespReadyO, hdr, hinfl, hwalk, Bool.false_or,
        Bool.true_and, PtwBackend.beq_eq_decide, and_eq_true, decide_eq_true_eq]
        at hfire
      exact hfire.2.2
    simp only [walking, beq_eq_decide, or_eq_true, decide_eq_true_eq] at hwalk
    refine .inr (.inr ⟨by simp [awaits, walking, hdr, hinfl, hwalk, hback], ?_⟩)
    rcases hwalk with hph | hph
    · exact .inl ⟨hph, by simp [roles, hph, hdr, hinfl]⟩
    · exact .inr ⟨hph, by simp [roles, hph, hdr, hinfl]⟩
  | false =>
    have hph : s.walker.phase ≠ .walk ∧ s.walker.phase ≠ .abort := by
      rcases phase_of_resting hwalk with h | h <;> simp [h]
    rw [icxRespFire_of_resting hwalk] at hfire
    simp only [and_eq_true, or_eq_true] at hfire
    cases hdr : s.walker.icxTimeoutDrain with
    | true =>
      have hinfl : s.shootdownInflight = false := by
        refine eq_false_of_ne_true fun h => ?_
        exact absurd (hx.fence h).2 (by simp [hdr])
      exact .inl ⟨by simp [awaits, hdr], by simp [roles, hph, hdr, hinfl]⟩
    | false =>
      have hinfl : s.shootdownInflight := by simpa [hdr] using hfire.2
      exact .inr (.inl ⟨by simp [awaits, hdr, hinfl],
        by simp [roles, hph, hdr, hinfl]⟩)

end PtwState

namespace PtwLedger

variable {p : PtwParams} {t : PtwLedger} {i : PtwInput}

/-- The port answers what has been accepted, the oldest first. -/
def Answers (t : PtwLedger) (i : PtwInput) : Prop :=
  i.icxRespValidI = true → icxRespOwned i = true → t.pending ≠ []

/-- The use that a response to the transaction is for. -/
def roleOf (t : PtwLedger) (x : PtwTxn) : Role :=
  match x.kind with
  | .fence => .fence
  | .expired => .drain
  | .read => if t.ptw.walker.phase = .abort then .abort else .entry

/-- A response that is taken is used as the answer to the transaction that it answers,
and as nothing else. -/
def Attributed (t : PtwLedger) (i : PtwInput) : Prop :=
  t.ptw.icxRespFire i = true → ∃ x, t.answered = some x ∧ t.ptw.roles = [t.roleOf x] ∧
      (x.kind = .read → x.walk = t.accepted ∧ x.line = icxLineAddr t.ptw.walker.walkPteAddr)

/-- No response of a run is misattributed. -/
def AllAttributed (past : Past PtwLedger PtwInput) : Prop := ∀ x ∈ past, x.1.Attributed x.2

/-- The transactions on the port are those that the walker waits for. -/
structure Channel (t : PtwLedger) : Prop where
  exclusive : t.ptw.Exclusive
  kinds : t.pending.map PtwTxn.kind = t.ptw.awaits
  current : ∀ x ∈ t.pending, x.kind = .read → x.walk = t.accepted ∧
    x.line = icxLineAddr t.ptw.walker.walkPteAddr

theorem reqFire_of_walking {s : PtwState} (hwalk : s.walking) : s.reqFire i = false := by
  simp only [walking, beq_eq_decide, or_eq_true, decide_eq_true_eq] at hwalk
  rcases hwalk with hph | hph <;>
    simp [reqFire, reqReadyO, hph]

/-- The walker waits for a read exactly while a walk waits. -/
theorem awaits_read_iff {s : PtwState} (hx : s.Exclusive) :
    .read ∈ s.awaits ↔ s.walking ∧ s.walker.backend = .wait := by
  cases hwalk : s.walking with
  | true =>
    obtain ⟨hdr, hinfl⟩ := clear_of_walking hx hwalk
    by_cases hback : s.walker.backend = .wait <;>
      simp [awaits, hdr, hinfl, hwalk, hback]
  | false =>
    cases hdr : s.walker.icxTimeoutDrain <;> cases hinfl : s.shootdownInflight <;>
      simp [awaits, hdr, hinfl, hwalk]

theorem awaits_of_expires {s : PtwState} (hx : s.Exclusive) (hlate : s.expires p i) :
    s.awaits = [.read] := by
  simp only [expires, walkBackendTimeout, walkBackendPending,
    PtwBackend.beq_eq_decide, and_eq_true, decide_eq_true_eq] at hlate
  have hwalk := hlate.1.2.1.1.2.1
  obtain ⟨hdr, hinfl⟩ := clear_of_walking hx hwalk
  simp [awaits, hdr, hinfl, hwalk, hlate.2]

namespace Channel

theorem map_kind_pendingNext (h : t.Channel) :
    (t.pendingNext p i).map PtwTxn.kind = t.ptw.kindsNext p i := by
  have hrest : (if t.ptw.icxRespFire i then t.pending.tail else t.pending).map PtwTxn.kind =
      if t.ptw.icxRespFire i then t.ptw.awaits.tail else t.ptw.awaits := by
    split
    · rw [List.map_tail, h.kinds]
    · exact h.kinds
  have hnew : (if t.ptw.icxReqFire i then [t.issue i] else []).map PtwTxn.kind =
      if t.ptw.icxReqFire i then [t.ptw.issuedKind i] else [] := by
    split <;> rfl
  rw [pendingNext, kindsNext, List.map_append, hnew, ← hrest]
  congr 1
  cases hlate : t.ptw.expires p i with
  | false => rfl
  | true =>
    have hall : ∀ x ∈ (if t.ptw.icxRespFire i then t.pending.tail else t.pending),
        (t.expire x).kind = .expired := by
      intro x hx
      have hmem : x ∈ t.pending := by
        split at hx
        · exact List.mem_of_mem_tail hx
        · exact hx
      have hread : x.kind = .read := by
        have hkind := List.mem_map_of_mem (f := PtwTxn.kind) hmem
        rw [h.kinds, awaits_of_expires h.exclusive hlate] at hkind
        exact List.mem_singleton.mp hkind
      simp [expire, hread, (h.current x hmem hread).1]
    rw [if_pos rfl, if_pos rfl, List.map_map, List.map_map]
    exact List.map_congr_left hall

theorem expire_of_read {x : PtwTxn} (hread : (t.expire x).kind = .read) : t.expire x = x := by
  by_cases h : x.kind = .read ∧ x.walk = t.accepted
  · simp [expire, h] at hread
  · simp [expire, h]

theorem mem_pendingNext_read {x : PtwTxn} (hx : x ∈ t.pendingNext p i)
    (hread : x.kind = .read) : x ∈ t.pending ∨ (t.ptw.icxReqFire i ∧ x = t.issue i) := by
  rw [pendingNext, List.mem_append] at hx
  rcases hx with hx | hx
  · left
    have hrest : x ∈ if t.ptw.icxRespFire i then t.pending.tail else t.pending := by
      split at hx
      · obtain ⟨y, hy, rfl⟩ := List.mem_map.mp hx
        rwa [expire_of_read hread]
      · exact hx
    split at hrest
    · exact List.mem_of_mem_tail hrest
    · exact hrest
  right
  split at hx
  · rename_i hfire
    exact ⟨hfire, List.mem_singleton.mp hx⟩
  · cases hx

theorem current_step (h : t.Channel) (hsafe : t.ptw.SafeDrain i) :
    ∀ x ∈ t.pendingNext p i, x.kind = .read → x.walk = t.accepted + (t.ptw.reqFire i).toNat ∧
        x.line = icxLineAddr (t.ptw.walkerNext p i).walkPteAddr := by
  intro x hx hread
  have hnxt := exclusive_step (p := p) h.exclusive hsafe
  have hawaits : .read ∈ (t.ptw.step p i).awaits := by
    rw [awaits_step h.exclusive hsafe, ← h.map_kind_pendingNext]
    exact List.mem_map.mpr ⟨x, hx, hread⟩
  obtain ⟨hwalk', hwait'⟩ := (awaits_read_iff hnxt).mp hawaits
  cases hwalk : t.ptw.walking with
  | false =>
    obtain ⟨hph, -⟩ := walkerNext_of_resting (p := p) (i := i) hwalk
    rcases hph with hph | hph | ⟨-, hback, -⟩
    · simp [walking, step, hph] at hwalk'
    · simp [walking, step, hph] at hwalk'
    · simp [step, hback] at hwait'
  | true =>
    have haddr : (t.ptw.walkerNext p i).walkPteAddr = t.ptw.walker.walkPteAddr := by
      rcases moves_of_walking (p := p) (i := i) h.exclusive hwalk with
        ⟨hph, -, -, -⟩ | ⟨-, -, -, -, haddr⟩
      · simp [walking, step, hph] at hwalk'
      · exact haddr hwait'
    rw [haddr, reqFire_of_walking hwalk]
    rcases mem_pendingNext_read hx hread with hmem | ⟨-, rfl⟩
    · exact h.current x hmem hread
    · obtain ⟨-, -, hval⟩ := quiet_of_walking (i := i) h.exclusive hwalk
      simp [issue, icxReqAddrO, hval]

theorem step (h : t.Channel) (hsafe : t.ptw.SafeDrain i) : Channel ((ptwLedger p).step t i) where
  exclusive := exclusive_step h.exclusive hsafe
  kinds := h.map_kind_pendingNext.trans (awaits_step h.exclusive hsafe).symm
  current := h.current_step hsafe

theorem attributed (h : t.Channel) : t.Attributed i := by
  intro hfire
  rcases roles_of_awaits h.exclusive hfire with
    ⟨hawaits, hroles⟩ | ⟨hawaits, hroles⟩ | ⟨hawaits, hroles⟩
  all_goals
    have hkinds := h.kinds
    rw [hawaits, List.map_eq_singleton_iff] at hkinds
    obtain ⟨x, hpend, hkind⟩ := hkinds
    refine ⟨x, by simp [answered, hpend], ?_, fun hread =>
      h.current x (by simp [hpend]) hread⟩
  · simp [hroles, roleOf, hkind]
  · simp [hroles, roleOf, hkind]
  · rcases hroles with ⟨hph, hroles⟩ | ⟨hph, hroles⟩
    · simp [hroles, roleOf, hkind, hph]
    · simp [hroles, roleOf, hkind, hph]

end Channel

theorem channel_init (hinit : (ptwLedger p).Init t) : t.Channel := by
  obtain ⟨⟨powerUp, hptw⟩, -, -, hpend, -⟩ := hinit
  refine ⟨⟨?_, ?_, ?_⟩, ?_, ?_⟩
  · simp [hptw, reset]
  · simp [hptw, reset]
  · simp [hptw, reset]
  · simp [hpend, hptw, reset, awaits, walking]
  · simp [hpend]

/-- The surroundings of a run: answers to what has been accepted, and no fence accepted
ahead of a late response. -/
structure AnswersSafely (t : PtwLedger) (i : PtwInput) : Prop where
  answers : t.Answers i
  safe : t.ptw.SafeDrain i

section

variable {past : Past PtwLedger PtwInput} (hrun : Run (ptwLedger p) (cycleEnv AnswersSafely) past t)

include hrun

theorem channel_of_run : t.Channel :=
  hrun.stateInvariant (fun _ => channel_init) fun _ _ _ henv h => h.step henv.safe

/-- Every response that the walker takes is attributed to the request that it answers, as
long as no fence is accepted ahead of a late response. -/
theorem attributed_of_safe : AllAttributed past := by
  intro x hx
  obtain ⟨newer, older, rfl⟩ := List.append_of_mem hx
  exact (channel_of_run hrun.of_suffix.1).attributed

end

/-- No cache, and a watchdog of one cycle. -/
def plainPtw : PtwParams where
  pteCacheEntries := 0
  pteCacheWays := 1
  icxTimeoutCycles := 1
  hartId := 0
  txnId := 0
  ways_pos := Nat.one_pos
  geometry h := absurd h (Nat.lt_irrefl 0)

def calmPtw : PtwInput where
  invalidateI := false
  shootdownReadyI := false
  reqValidI := false
  reqVaddrI := 0
  reqAccessI := 0
  reqPrivI := 1
  reqVmModeI := 8
  reqRootPpnI := 0
  reqSumI := false
  reqMxrI := false
  respReadyI := false
  pmpReadyI := false
  pmpAllowI := false
  icxReqReadyI := false
  icxRespValidI := false
  icxRespHartIdI := 0
  icxRespTxnIdI := 0
  icxRespSourceIdI := 2
  icxRespBeatIndexI := 0
  icxRespLastI := true
  icxRespRdataI := 0
  icxRespErrorI := false

def emptyPtw : PtwLedger where
  ptw := reset
    { walker :=
        { phase := .idle
          backend := .pmp
          icxTimeoutDrain := false
          vaddr := 0
          access := 0
          priv := 0
          sum := false
          mxr := false
          level := 0
          tableBase := 0
          global := false
          resp := .refuse false false false }
      shootdownPending := false
      shootdownInflight := false
      icxTimeoutCount := 0
      pteCache := fun _ _ => ⟨false, 0, 0, 0, 0⟩ }
  now := 1
  lastInvalidate := 0
  pending := []
  accepted := 0
  delivered := 0
  request := ⟨0, 0, 0, 0, 0, false, false⟩
  interrupted := false
  reads := 0
  uses := []
  fetched := []
  cacheIssued := fun _ _ => 0
  fenceDone := 0

/-- A read that times out, and an invalidation after it. -/
def timedOut : List PtwInput :=
  [{ calmPtw with reqValidI := true }, { calmPtw with pmpReadyI := true, pmpAllowI := true },
    { calmPtw with icxReqReadyI := true }, calmPtw, { calmPtw with respReadyI := true },
    { calmPtw with invalidateI := true }]

def answeredPtw : PtwInput := { calmPtw with icxRespValidI := true }

def fenced : PtwInput := { calmPtw with shootdownReadyI := true, icxReqReadyI := true }

instance decidableAnswers (t : PtwLedger) (i : PtwInput) : Decidable (Answers t i) :=
  inferInstanceAs (Decidable (_ → _ → ¬ _))

instance decidableAnswersSafely (t : PtwLedger) (i : PtwInput) : Decidable (AnswersSafely t i) :=
  decidable_of_iff (Answers t i ∧ (t.ptw.shootdownReqFire i = true →
      t.ptw.walker.icxTimeoutDrain = true → t.ptw.icxRespFire i = true))
    ⟨fun h => ⟨h.1, h.2⟩, fun h => ⟨h.1, h.2⟩⟩

theorem attributed_of_safe_drained :
    AllAttributed (exec (ptwLedger plainPtw) [] emptyPtw
      (timedOut ++ [answeredPtw, fenced, answeredPtw])).1 :=
  attributed_of_safe (exec_run_decide _
    ⟨⟨_, rfl⟩, rfl, rfl, rfl, rfl, rfl, rfl, rfl, rfl, rfl⟩ (by decide +kernel))

/-- A late response that arrives while a fence is in flight is taken as its answer. -/
theorem attributed_fails :
    ¬ ∀ (p : PtwParams) past t,
      Run (ptwLedger p) (cycleEnv Answers) past t → AllAttributed past := by
  intro hall
  have hrun : Run (ptwLedger plainPtw) (cycleEnv Answers) _ _ :=
    exec_run_decide (s := emptyPtw) (timedOut ++ [fenced, answeredPtw])
      ⟨⟨_, rfl⟩, rfl, rfl, rfl, rfl, rfl, rfl, rfl, rfl, rfl⟩ (by decide +kernel)
  obtain ⟨x, -, hroles, -⟩ := hall plainPtw _ _ hrun _ List.mem_cons_self (by decide +kernel)
  have hone := congrArg List.length hroles
  rw [List.length_singleton] at hone
  revert hone
  decide +kernel

end PtwLedger

end OpenRV64
