/-
Invalidation in the page-table walker: what a response may depend on, what may be used
from the cache, and how long the walker reports that it is busy.
-/
import OpenRV64.PtwProgress
import OpenRV64.PtwReference

namespace OpenRV64

open PtwState PtwWalker Sv39 Sync
open List (mem_singleton mem_map mem_append)
open Bool (and_eq_true or_eq_false_iff)
open PtwResp (refuse)

namespace PtwLedger

/-- Accesses that give the outcomes of the entries that were gone by. -/
def Agrees (read : ℕ → Addr → Option Pte) (uses : List PtwUse) : Prop :=
  ∀ u ∈ uses, read u.level u.addr = u.outcome

/-- The transaction read the line of the address at the given time. -/
def ReadAt (f : PtwFetch) (issued : ℕ) : Prop :=
  ∃ x, f.txn = some x ∧ x.kind = .read ∧ x.line = icxLineAddr f.addr ∧ x.issued = issued

/-- An entry that was gone by was read from the port after the last invalidation. -/
structure Fresh (t : PtwLedger) (u : PtwUse) : Prop where
  issued : t.lastInvalidate < u.issued
  sourced : ∀ pte, u.outcome = some pte →
    ∃ f ∈ t.fetched, f.addr = u.addr ∧ f.data = pte ∧ ReadAt f u.issued

/-- The response is the translation of the request by the entries that were gone by, one
of each level, all of them fresh. -/
structure Delivered (t : PtwLedger) : Prop where
  fresh : ∀ u ∈ t.uses, t.Fresh u
  distinct : (t.uses.map PtwUse.level).Nodup
  result : ∀ read, Agrees read t.uses → t.ptw.walker.resp = t.request.translate read

/-- The walk has come to its level by fresh entries of the levels above. -/
structure Walking (t : PtwLedger) : Prop where
  mode : t.request.vmMode = 8
  vaddr : t.ptw.walker.vaddr = t.request.vaddr
  context : t.ptw.walker.context = t.request.context
  level : t.ptw.walker.level ≤ 2
  base : ∃ ppn, t.ptw.walker.tableBase = ppnBase ppn
  fresh : ∀ u ∈ t.uses, t.Fresh u
  distinct : (t.uses.map PtwUse.level).Nodup
  above : ∀ u ∈ t.uses, t.ptw.walker.level < u.level
  sofar : ∀ read, Agrees read t.uses →
    walk read t.request.context t.request.rootPpn t.request.vaddr =
      walkFrom read t.request.context t.request.vaddr t.ptw.walker.level
        t.ptw.walker.tableBase t.ptw.walker.global
  waiting : ∀ x ∈ t.pending, t.lastInvalidate < x.issued

/-- A walk has come to its level, and a response is the translation. -/
structure WalkSound (t : PtwLedger) : Prop where
  walking : t.ptw.walker.phase = .walk → t.Walking
  delivered : t.ptw.walker.phase = .resp → t.Delivered

/-- A valid entry of the cache was read from the port after the last invalidation. -/
structure Cached (t : PtwLedger) (way set : ℕ) : Prop where
  issued : t.lastInvalidate < t.cacheIssued way set
  sourced : ∃ f ∈ t.fetched, f.data = (t.ptw.pteCache way set).data ∧
    f.addr.extractLsb' 3 53 = (t.ptw.pteCache way set).tag ∧
      (∃ ppn vpn, f.addr = entryAddr ppn vpn) ∧ ReadAt f (t.cacheIssued way set)

/-- What the walker keeps about invalidations. -/
structure Barred (t : PtwLedger) : Prop where
  channel : t.Channel
  past : t.lastInvalidate < t.now
  walking : t.ptw.walker.phase = .walk → t.Walking
  answered : t.ptw.walker.phase = .resp → t.ptw.walker.resp.invalidated = false → t.Delivered
  cache : ∀ way set, (t.ptw.pteCache way set).valid = true → t.Cached way set
  inflight : t.ptw.shootdownPending = false → t.ptw.shootdownInflight = true →
    ∀ x ∈ t.pending, t.lastInvalidate < x.issued
  done : t.ptw.shootdownPending = false → t.ptw.shootdownInflight = false →
    t.lastInvalidate ≠ 0 → t.lastInvalidate < t.fenceDone

section Uses

variable {p : PtwParams} {t : PtwLedger} {i : PtwInput}

/-- A walk that is not invalidated stays at its level, or goes by the outcome of an
access: a fault, or an entry. -/
theorem walkNext_uses (hx : t.ptw.Exclusive) (hph : t.ptw.walker.phase = .walk)
    (hinval : i.invalidateI = false) :
    (t.usesNow p i = false ∧ ∃ b, t.ptw.walkNext p i = { t.ptw.walker with backend := b }) ∨
      (t.usesNow p i ∧ (t.useNow p i).outcome = none ∧ ∃ d, t.ptw.walkNext p i =
          { t.ptw.walker with icxTimeoutDrain := d }.setFaultResponse false true) ∨
      (t.usesNow p i ∧ ∃ pte, (t.useNow p i).outcome = some pte ∧
        t.ptw.walkNext p i = t.ptw.walker.takeEntry pte) := by
  have hreq := icxReqFire_of_walk (i := i) hph
  have hpmp := pmpFire_of_walk (i := i) hph
  have hrsp := icxRespFire_of_walk (i := i) hx hph
  cases hback : t.ptw.walker.backend with
  | pmp =>
    have htime := timeout_of_pmp (p := p) (i := i) hback
    simp only [hback, hinval] at hpmp hrsp
    rw [walkNext_pmp hx hph hback hinval]
    cases hrdy : i.pmpReadyI with
    | false =>
      left
      refine ⟨?_, t.ptw.walker.backend, rfl⟩
      simp [usesNow, hph, htime, walkPteReady, pmpDenied, pteCacheHitUse, hpmp, hrdy, hrsp]
    | true =>
    cases hallow : i.pmpAllowI with
    | false =>
      right; left
      refine ⟨?_, ?_, t.ptw.walker.icxTimeoutDrain, rfl⟩
      · simp [usesNow, hph, hinval, walkPteReady, pmpDenied, hpmp, hrdy, hallow]
      · simp [useNow, walkPteError, pmpDenied, hpmp, hrdy, hallow]
    | true =>
    cases hhit : (t.ptw.pteCacheHit p).isSome with
    | false =>
      left
      refine ⟨?_, .send, rfl⟩
      simp [usesNow, hph, htime, walkPteReady, pmpDenied, pteCacheHitUse, hpmp, hallow, hhit, hrsp]
    | true =>
      have huse : t.ptw.pteCacheHitUse p i := by
        simp [pteCacheHitUse, hpmp, hrdy, hallow, hhit]
      right; right
      refine ⟨?_, t.ptw.pteCacheHitData p, ?_, rfl⟩
      · simp [usesNow, hph, hinval, walkPteReady, huse]
      · simp [useNow, walkPteError, walkPteData, pmpDenied, htime, hallow, hrsp, huse]
  | send =>
    simp only [hback] at hpmp hrsp
    have hnone : t.ptw.walkPteReady p i = false := by
      simp [walkPteReady, pmpDenied, pteCacheHitUse, hpmp, hrsp]
    rw [walkNext_send hx hph hback]
    cases hrdy : i.icxReqReadyI with
    | true =>
      have htime : t.ptw.walkBackendTimeout p i = false := by
        apply timeout_of_progress
        simp [walkBackendProgress, hback, hreq, hrdy]
      left
      exact ⟨by simp [usesNow, htime, hnone], .wait, rfl⟩
    | false =>
    cases htime : t.ptw.walkBackendTimeout p i with
    | true =>
      right; left
      refine ⟨by simp [usesNow, hph, hinval, htime], ?_, t.ptw.walker.icxTimeoutDrain, rfl⟩
      simp [useNow, htime]
    | false =>
      left
      exact ⟨by simp [usesNow, htime, hnone], t.ptw.walker.backend, rfl⟩
  | wait =>
    simp only [hback] at hpmp
    rw [walkNext_wait hx hph hback]
    cases hfire : t.ptw.icxRespFire i with
    | true =>
      have htime : t.ptw.walkBackendTimeout p i = false := by
        apply timeout_of_progress
        simp [walkBackendProgress, hback, hfire]
      have huse : t.usesNow p i := by
        simp [usesNow, hph, hinval, walkPteReady, hfire]
      cases herr : i.icxRespErrorI || icxRespIdentityError p i with
      | true =>
        right; left
        refine ⟨huse, ?_, t.ptw.walker.icxTimeoutDrain, rfl⟩
        simp [useNow, walkPteError, hfire, herr]
      | false =>
        right; right
        refine ⟨huse, t.ptw.icxPteData i, ?_, rfl⟩
        simp [useNow, walkPteError, walkPteData, htime, pmpDenied, pteCacheHitUse, hpmp, herr]
    | false =>
      have hnone : t.ptw.walkPteReady p i = false := by
        simp [walkPteReady, pmpDenied, pteCacheHitUse, hpmp, hfire]
      cases htime : t.ptw.walkBackendTimeout p i with
      | true =>
        right; left
        refine ⟨by simp [usesNow, hph, hinval, htime], ?_, true, rfl⟩
        simp [useNow, htime]
      | false =>
        left
        exact ⟨by simp [usesNow, htime, hnone], t.ptw.walker.backend, rfl⟩

end Uses

section Step

variable {p : PtwParams} {t : PtwLedger} {i : PtwInput}

theorem pteCacheHit_spec {s : PtwState} {way : ℕ} (hhit : s.pteCacheHit p = some way) :
    (s.pteCache way (s.cacheSet p)).valid ∧
      (s.pteCache way (s.cacheSet p)).tag = s.walker.walkPteAddr.extractLsb' 3 53 := by
  unfold pteCacheHit at hhit
  split at hhit
  · have hmat := List.find?_some hhit
    simpa [wayMatches] using hmat
  · cases hhit

theorem Walking.addr (h : t.Walking) :
    t.ptw.walker.walkPteAddr = entryAddr (t.ptw.walker.tableBase.extractLsb' 12 44)
      t.ptw.walker.walkVpn := by
  obtain ⟨ppn, hbase⟩ := h.base
  have hppn : (ppnBase ppn).extractLsb' 12 44 = ppn := by
    apply BitVec.eq_of_getLsbD_eq
    intro k hk
    simp only [ppnBase]
    grind
  rw [walkPteAddr, hbase, hppn, ppnBase_add]

/-- The response that a waiting walk takes is that of its own read. -/
theorem pending_of_wait (h : t.Channel) (hph : t.ptw.walker.phase = .walk)
    (hback : t.ptw.walker.backend = .wait) :
    ∃ x, t.pending = [x] ∧ x.kind = .read ∧ x.line = icxLineAddr t.ptw.walker.walkPteAddr := by
  have hkinds := h.kinds
  have hawaits : t.ptw.awaits = [.read] := by
    simp [awaits, h.exclusive.walk hph, walking, hph, hback]
  rw [hawaits, List.map_eq_singleton_iff] at hkinds
  obtain ⟨x, hpend, hkind⟩ := hkinds
  exact ⟨x, hpend, hkind, (h.current x (by simp [hpend]) hkind).2⟩

/-- Without an invalidation, what was fresh stays fresh. -/
theorem Fresh.step {u : PtwUse} (h : t.Fresh u) (hinval : i.invalidateI = false) :
    Fresh ((ptwLedger p).step t i) u where
  issued := by simpa [ptwLedger, hinval] using h.issued
  sourced := by
    intro pte hpte
    obtain ⟨f, hf, hsrc⟩ := h.sourced pte hpte
    refine ⟨f, ?_, hsrc⟩
    simp only [ptwLedger, fetchedNext]
    split
    · exact List.mem_cons_of_mem _ hf
    · exact hf

/-- The entry of a hit has been read since the last invalidation. -/
theorem useNow_fresh_of_hit (h : t.Barred) (hph : t.ptw.walker.phase = .walk)
    (hhit : t.ptw.pteCacheHitUse p i)
    (hiss : (t.useNow p i).issued = t.cacheIssued (t.ptw.pteCacheHitWay p) (t.ptw.cacheSet p))
    (hout : ∀ pte, (t.useNow p i).outcome = some pte →
      pte = t.ptw.pteCacheHitData p) : t.Fresh (t.useNow p i) := by
  simp only [pteCacheHitUse, and_eq_true, Option.isSome_iff_exists] at hhit
  obtain ⟨-, way, hway⟩ := hhit
  obtain ⟨hval, htag⟩ := pteCacheHit_spec hway
  have hcached := h.cache way (t.ptw.cacheSet p) hval
  have hhitway : t.ptw.pteCacheHitWay p = way := by simp [pteCacheHitWay, hway]
  rw [hhitway] at hiss
  refine ⟨hiss ▸ hcached.issued, ?_⟩
  intro pte hpte
  obtain ⟨f, hf, hdata, hftag, ⟨ppn, vpn, haddr⟩, hread⟩ := hcached.sourced
  have hdata' : pte = f.data := by
    rw [hout pte hpte, hdata, pteCacheHitData, hway]
  have haddr' : f.addr = t.ptw.walker.walkPteAddr := by
    rw [htag, haddr, (h.walking hph).addr] at hftag
    rw [haddr, (h.walking hph).addr]
    exact entryAddr_eq_of_tag hftag
  exact ⟨f, hf, haddr', hdata'.symm, hiss ▸ hread⟩

theorem useNow_fresh (h : t.Barred) (hph : t.ptw.walker.phase = .walk)
    (hinval : i.invalidateI = false) (huse : t.usesNow p i) :
    Fresh ((ptwLedger p).step t i) (t.useNow p i) := by
  have hnow : t.lastInvalidate < t.now := h.past
  have hlast : ((ptwLedger p).step t i).lastInvalidate = t.lastInvalidate := by
    simp [ptwLedger, hinval]
  cases htime : t.ptw.walkBackendTimeout p i with
  | true => exact ⟨by simpa [hlast, useNow, htime] using hnow, by simp [useNow, htime]⟩
  | false =>
  cases hdenied : t.ptw.pmpDenied i with
  | true =>
    refine ⟨by simpa [hlast, useNow, hdenied] using hnow, ?_⟩
    simp [useNow, walkPteError, hdenied]
  | false =>
  cases hhit : t.ptw.pteCacheHitUse p i with
  | true =>
    apply Fresh.step (p := p) (h := useNow_fresh_of_hit h hph hhit ?_ ?_) hinval
    · simp [useNow, htime, hdenied, hhit]
    · intro pte hpte
      simp only [useNow, walkPteData, hhit] at hpte
      split at hpte
      · cases hpte
      · exact (Option.some.inj hpte).symm
  | false =>
    have hfire : t.ptw.icxRespFire i := by
      simpa [usesNow, hph, hinval, htime, walkPteReady, hdenied, hhit] using huse
    have hback : t.ptw.walker.backend = .wait := by
      rw [icxRespFire_of_walk h.channel.exclusive hph] at hfire
      simp only [and_eq_true, PtwBackend.beq_eq_decide, decide_eq_true_eq] at hfire
      exact hfire.2
    obtain ⟨x, hpend, hkind, hline⟩ := pending_of_wait h.channel hph hback
    have hiss : (t.useNow p i).issued = x.issued := by
      simp [useNow, htime, hdenied, hhit, answeredSince, answered, hpend]
    have hwaiting := (h.walking hph).waiting x (by simp [hpend])
    refine ⟨by rw [hlast, hiss]; exact hwaiting, ?_⟩
    intro pte hpte
    cases herr : t.ptw.walkPteError p i with
    | true => simp [useNow, herr] at hpte
    | false =>
      have hdata : t.ptw.icxPteData i = pte := by
        simpa [useNow, htime, herr, walkPteData, hhit] using hpte
      have hfetch : t.fetches p i := by
        simp [fetches, hph, hinval, hfire, herr]
      refine ⟨t.fetchNow i, ?_, rfl, hdata, x, ?_, hkind, hline, hiss.symm⟩
      · simp [ptwLedger, fetchedNext, hfetch]
      · simp [fetchNow, answered, hpend]

theorem issued_of_mem_pendingNext {x : PtwTxn} (hx : x ∈ t.pendingNext p i) :
    (∃ y ∈ t.pending, y.issued = x.issued ∧ (x.kind ≠ .expired → y = x)) ∨
      (t.ptw.icxReqFire i ∧ x = t.issue i) := by
  rw [pendingNext, mem_append] at hx
  rcases hx with hx | hx
  · left
    have hrest : ∃ y ∈ (if t.ptw.icxRespFire i then t.pending.tail else t.pending),
        x = y ∨ x = t.expire y := by
      split at hx
      · obtain ⟨y, hy, rfl⟩ := mem_map.mp hx
        exact ⟨y, hy, .inr rfl⟩
      · exact ⟨x, hx, .inl rfl⟩
    obtain ⟨y, hy, hxy⟩ := hrest
    have hmem : y ∈ t.pending := by
      split at hy
      · exact List.mem_of_mem_tail hy
      · exact hy
    rcases hxy with rfl | rfl
    · exact ⟨x, hmem, rfl, fun _ => rfl⟩
    refine ⟨y, hmem, ?_, ?_⟩
    · unfold expire
      split <;> rfl
    · intro hkind
      unfold expire at hkind ⊢
      split
      · rename_i h
        simp [h] at hkind
      · rfl
  right
  split at hx
  · rename_i hfire
    exact ⟨hfire, mem_singleton.mp hx⟩
  · cases hx

/-- Without an invalidation, transactions issued since the last one stay so. -/
theorem waiting_step (hnow : t.lastInvalidate < t.now)
    (h : ∀ x ∈ t.pending, t.lastInvalidate < x.issued) :
    ∀ x ∈ t.pendingNext p i, t.lastInvalidate < x.issued := by
  intro x hx
  rcases issued_of_mem_pendingNext hx with ⟨y, hy, hiss, -⟩ | ⟨-, rfl⟩
  · exact hiss ▸ h y hy
  · exact hnow

theorem translate_of_mode {q : PtwRequest} (hmode : q.vmMode = 8) (read : ℕ → Addr → Option Pte) :
    q.translate read = .ofOutcome q.vaddr (walk read q.context q.rootPpn q.vaddr) := by
  simp [PtwRequest.translate, hmode]

theorem Agrees.of_append {read : ℕ → Addr → Option Pte} {uses : List PtwUse}
    {u : PtwUse} (h : Agrees read (uses ++ [u])) :
    Agrees read uses ∧ read u.level u.addr = u.outcome :=
  ⟨fun x hx => h x (List.mem_append_left _ hx), h u (by simp)⟩

section

variable (h : t.Walking) (hbarred : t.Barred) (hph : t.ptw.walker.phase = .walk)
  (hinval : i.invalidateI = false)

include h hbarred hph hinval

/-- The entries that a walk has gone by, with the one of this cycle. -/
theorem Walking.uses_append (huse : t.usesNow p i) :
    (∀ u ∈ t.uses ++ [t.useNow p i], Fresh ((ptwLedger p).step t i) u) ∧
      ((t.uses ++ [t.useNow p i]).map PtwUse.level).Nodup := by
  constructor
  · intro u hu
    rcases mem_append.mp hu with hu | hu
    · exact (h.fresh u hu).step hinval
    · rw [mem_singleton.mp hu]
      exact useNow_fresh hbarred hph hinval huse
  · rw [List.map_append, List.nodup_append]
    refine ⟨h.distinct, by simp, ?_⟩
    intro level hlvl level' hlvl'
    obtain ⟨u, hu, rfl⟩ := mem_map.mp hlvl
    have habove := h.above u hu
    simp only [List.map_cons, List.map_nil, mem_singleton] at hlvl'
    subst hlvl'
    simp only [useNow]
    omega

/-- A walk that goes by no outcome in this cycle. -/
theorem Walking.stay (huse : t.usesNow p i = false) {b : PtwBackend}
    (hnxt : t.ptw.walkerNext p i = { t.ptw.walker with backend := b }) :
    Walking ((ptwLedger p).step t i) := by
  have hreq : t.ptw.reqFire i = false := reqFire_of_phase (by simp [hph])
  have hwalker : ((ptwLedger p).step t i).ptw.walker = { t.ptw.walker with backend := b } := hnxt
  have huses : ((ptwLedger p).step t i).uses = t.uses := by
    simp [ptwLedger, usesNext, hreq, huse]
  have hrequest : ((ptwLedger p).step t i).request = t.request := by
    simp [ptwLedger, requestNext, hreq]
  have hlast : ((ptwLedger p).step t i).lastInvalidate = t.lastInvalidate := by
    simp [ptwLedger, hinval]
  refine ⟨?_, ?_, ?_, ?_, ?_, ?_, ?_, ?_, ?_, ?_⟩
  · rw [hrequest]
    exact h.mode
  · rw [hwalker, hrequest]
    exact h.vaddr
  · rw [hwalker, hrequest]
    exact h.context
  · rw [hwalker]
    exact h.level
  · rw [hwalker]
    exact h.base
  · rw [huses]
    exact fun u hu => (h.fresh u hu).step hinval
  · rw [huses]
    exact h.distinct
  · rw [huses, hwalker]
    exact h.above
  · rw [huses, hwalker, hrequest]
    exact h.sofar
  · rw [hlast]
    exact waiting_step hbarred.past h.waiting

theorem Walking.fault (huse : t.usesNow p i) (hout : (t.useNow p i).outcome = none) {d : Bool}
    (hnxt : t.ptw.walkerNext p i =
      { t.ptw.walker with icxTimeoutDrain := d }.setFaultResponse false true) :
    Delivered ((ptwLedger p).step t i) := by
  have hreq : t.ptw.reqFire i = false := reqFire_of_phase (by simp [hph])
  have huses : ((ptwLedger p).step t i).uses = t.uses ++ [t.useNow p i] := by
    simp [ptwLedger, usesNext, hreq, huse]
  have hrequest : ((ptwLedger p).step t i).request = t.request := by
    simp [ptwLedger, requestNext, hreq]
  have hrsp : ((ptwLedger p).step t i).ptw.walker.resp = .refuse false true false := by
    change (t.ptw.walkerNext p i).resp = _
    rw [hnxt, setFaultResponse]
  obtain ⟨hfresh, hdistinct⟩ := h.uses_append hbarred hph hinval huse
  refine ⟨by rwa [huses], by rwa [huses], ?_⟩
  intro read hread
  rw [huses] at hread
  obtain ⟨hbef, hlast⟩ := hread.of_append
  have hnone : read t.ptw.walker.level (pteAddr t.ptw.walker.tableBase
      t.request.vaddr t.ptw.walker.level) = none := by
    rw [← h.vaddr, ← walkPteAddr_eq t.ptw.walker h.level]
    exact hlast.trans hout
  rw [hrsp, hrequest, translate_of_mode h.mode, h.sofar read hbef, walkFrom_none hnone]
  rfl

/-- A walk that takes an entry answers with the translation, or goes on below. -/
theorem Walking.take (huse : t.usesNow p i) {pte : BitVec 64}
    (hout : (t.useNow p i).outcome = some pte)
    (hnxt : t.ptw.walkerNext p i = t.ptw.walker.takeEntry pte) :
    WalkSound ((ptwLedger p).step t i) := by
  have hreq : t.ptw.reqFire i = false := reqFire_of_phase (by simp [hph])
  have hwalker : ((ptwLedger p).step t i).ptw.walker = t.ptw.walker.takeEntry pte := hnxt
  have huses : ((ptwLedger p).step t i).uses = t.uses ++ [t.useNow p i] := by
    simp [ptwLedger, usesNext, hreq, huse]
  have hrequest : ((ptwLedger p).step t i).request = t.request := by
    simp [ptwLedger, requestNext, hreq]
  have hlast : ((ptwLedger p).step t i).lastInvalidate = t.lastInvalidate := by
    simp [ptwLedger, hinval]
  obtain ⟨hfresh, hdistinct⟩ := h.uses_append hbarred hph hinval huse
  have hlevels : ∀ read, Agrees read (t.uses ++ [t.useNow p i]) →
      Agrees read t.uses ∧ read t.ptw.walker.level t.ptw.walker.walkPteAddr = some pte :=
    fun read hread => ⟨hread.of_append.1, hread.of_append.2.trans hout⟩
  constructor
  · intro hwalk
    rcases takeEntry_cases t.ptw.walker pte with ⟨r, htake⟩ | ⟨hlvl, htake⟩
    · simp [hwalker, htake] at hwalk
    rw [htake] at hwalker
    refine ⟨?_, ?_, ?_, ?_, ?_, ?_, ?_, ?_, ?_, ?_⟩
    · rw [hrequest]
      exact h.mode
    · rw [hwalker, hrequest]
      exact h.vaddr
    · rw [hwalker, hrequest]
      exact h.context
    · rw [hwalker]
      exact (Nat.sub_le _ _).trans h.level
    · rw [hwalker]
      exact ⟨_, rfl⟩
    · rwa [huses]
    · rwa [huses]
    · rw [huses, hwalker]
      intro u hu
      rcases mem_append.mp hu with hu | hu
      · exact (Nat.sub_le _ _).trans_lt (h.above u hu)
      · rw [mem_singleton.mp hu]
        exact Nat.sub_lt (Nat.pos_of_ne_zero hlvl) Nat.one_pos
    · rw [huses, hwalker, hrequest]
      intro read hread
      obtain ⟨hbef, hent⟩ := hlevels read hread
      rw [h.sofar read hbef]
      rcases t.ptw.walker.takeEntry_walkFrom h.level hent with htake' | ⟨-, -, hwalk'⟩
      · have hphases := congrArg phase (htake.symm.trans htake')
        simp [hph] at hphases
      · rwa [h.context, h.vaddr] at hwalk'
    · rw [hlast]
      exact waiting_step hbarred.past h.waiting
  · intro hrsp
    refine ⟨by rwa [huses], by rwa [huses], ?_⟩
    intro read hread
    rw [huses] at hread
    obtain ⟨hbef, hent⟩ := hlevels read hread
    rw [hrequest, translate_of_mode h.mode, h.sofar read hbef, hwalker]
    rcases t.ptw.walker.takeEntry_walkFrom h.level hent with htake | ⟨-, htake, -⟩
    · rw [htake, h.context, h.vaddr]
    · rw [hwalker, htake] at hrsp
      simp [hph] at hrsp

end

theorem privOf_machine_iff (priv : BitVec 2) : privOf priv = some .machine ↔ priv = 3 := by
  revert priv
  decide

/-- An accepted request is answered at once as the architecture asks for, or starts its
walk at the root. -/
theorem accept_step (hfire : t.ptw.reqFire i) (hchan : Channel ((ptwLedger p).step t i)) :
    WalkSound ((ptwLedger p).step t i) := by
  obtain ⟨-, -, -, hinval, hph⟩ := quiet_of_reqFire hfire
  have hwalker : ((ptwLedger p).step t i).ptw.walker = t.ptw.accept i := by
    simp [ptwLedger, step, walkerNext, hinval, hph, hfire]
  have huses : ((ptwLedger p).step t i).uses = [] := by simp [ptwLedger, usesNext, hfire]
  have hreq : ((ptwLedger p).step t i).request =
      ⟨i.reqVaddrI, i.reqAccessI, i.reqPrivI, i.reqVmModeI, i.reqRootPpnI, i.reqSumI,
        i.reqMxrI⟩ := by
    simp [ptwLedger, requestNext, hfire]
  have hdelivered : ∀ r, ((ptwLedger p).step t i).ptw.walker.resp = r →
      (∀ read, ((ptwLedger p).step t i).request.translate read = r) →
        Delivered ((ptwLedger p).step t i) := by
    intro r hrsp hres
    exact ⟨by simp [huses], by simp [huses], fun read _ => by rw [hrsp, hres]⟩
  unfold accept at hwalker
  split at hwalker
  · rename_i hmode
    refine ⟨by simp [hwalker], fun _ => hdelivered (.bare i.reqVaddrI) (by rw [hwalker]) ?_⟩
    intro read
    simp [hreq, PtwRequest.translate, beq_iff_eq.mp hmode]
  rename_i hmode
  split at hwalker
  · rename_i hbad
    refine ⟨by simp [hwalker, setFaultResponse],
      fun _ => hdelivered (.refuse true false false) (by rw [hwalker]; rfl) ?_⟩
    intro read
    simp only [PtwRequest.translate, hreq]
    have hbare : i.reqVmModeI ≠ 0 := by simpa using hmode
    rw [if_neg hbare]
    split
    · rename_i hsv39
      have href : (privOf i.reqPrivI == some .machine || !Sv39.canonical i.reqVaddrI) := by
        rw [canonicalSv39_eq] at hbad
        simp only [hsv39, bne_self_eq_false, Bool.false_or, Bool.or_eq_true, beq_iff_eq] at hbad
        rcases hbad with hcanonical | hpriv
        · simp [hcanonical]
        · simp [(privOf_machine_iff _).mpr hpriv]
      simp [walk, PtwRequest.context, href, PtwResp.ofOutcome]
    · rfl
  rename_i hgood
  rw [canonicalSv39_eq] at hgood
  simp only [Bool.or_eq_true, bne_iff_ne, ne_eq, Bool.not_eq_true', beq_iff_eq, not_or,
    not_not, Bool.not_eq_false] at hgood
  obtain ⟨⟨hsv39, hcanonical⟩, hpriv⟩ := hgood
  refine ⟨fun hwalk => ⟨?_, ?_, ?_, ?_, ?_, ?_, ?_, ?_, ?_, ?_⟩, by simp [hwalker]⟩
  · rw [hreq]
    exact hsv39
  · rw [hwalker, hreq]
  · rw [hwalker, hreq]
    rfl
  · rw [hwalker]
  · rw [hwalker]
    exact ⟨_, rfl⟩
  · simp [huses]
  · simp [huses]
  · simp [huses]
  · intro read _
    have hallowed : (privOf i.reqPrivI == some .machine ||
        !Sv39.canonical i.reqVaddrI) = false := by
      have hmachine : privOf i.reqPrivI ≠ some .machine := by
        rwa [Ne, privOf_machine_iff]
      simp [hmachine, hcanonical]
    rw [hreq, hwalker, ppnBase_eq]
    simp [walk, PtwRequest.context, hallowed]
  · intro x hx
    have hkinds := hchan.kinds
    have hback : ((ptwLedger p).step t i).ptw.walker.backend = .pmp := by
      rw [hwalker]
    have hawaits : ((ptwLedger p).step t i).ptw.awaits = [] := by
      simp [awaits, hchan.exclusive.walk hwalk, hback]
    rw [hawaits, List.map_eq_nil_iff] at hkinds
    rw [hkinds] at hx
    cases hx

/-- An invalidation ends a walk, or flags the response that waits. -/
theorem walkerNext_of_invalidate (hinval : i.invalidateI) :
    (t.ptw.walkerNext p i).phase ≠ .walk ∧
      ((t.ptw.walkerNext p i).phase = .resp → (t.ptw.walkerNext p i).resp.invalidated) := by
  rw [walkerNext, if_pos hinval, walkerInvalidated]
  cases hph : t.ptw.walker.phase with
  | idle => simp [drained, hph]
  | resp => simp [setInvalidatedResponse, refuse]
  | walk =>
    cases hback : t.ptw.walker.backend with
    | pmp => simp [setInvalidatedResponse, refuse]
    | send => simp
    | wait =>
      cases t.ptw.icxRespFire i <;> simp [setInvalidatedResponse, refuse]
  | abort =>
    simp only
    split
    · simp [drained, hph]
    · split
      · simp [setInvalidatedResponse, refuse]
      · simp [drained, hph]

/-- A request that is accepted, and a walk, lead to a walk or to a response that is the
translation. -/
theorem walker_step_of_open (h : t.Barred) (hchan : Channel ((ptwLedger p).step t i))
    (hinval : i.invalidateI = false)
    (hph : t.ptw.walker.phase = .idle ∨ t.ptw.walker.phase = .walk) :
    WalkSound ((ptwLedger p).step t i) := by
  rcases hph with hph | hph
  · cases hfire : t.ptw.reqFire i with
    | true => exact accept_step hfire hchan
    | false =>
      have hwalker : ((ptwLedger p).step t i).ptw.walker = t.ptw.drained i := by
        simp [ptwLedger, step, walkerNext, hinval, hph, hfire]
      constructor <;> simp [hwalker, drained, hph]
  have hwalking := h.walking hph
  have hnxt : t.ptw.walkerNext p i = t.ptw.walkNext p i := by
    simp [walkerNext, hinval, hph]
  rcases walkNext_uses (p := p) h.channel.exclusive hph hinval with
    ⟨huse, b, hwalk⟩ | ⟨huse, hout, d, hwalk⟩ | ⟨huse, pte, hout, hwalk⟩
  · refine ⟨fun _ => hwalking.stay h hph hinval huse (hnxt.trans hwalk), ?_⟩
    change (t.ptw.walkerNext p i).phase = .resp → _
    simp [hnxt, hwalk, hph]
  · refine ⟨?_, fun _ => hwalking.fault h hph hinval huse hout (hnxt.trans hwalk)⟩
    change (t.ptw.walkerNext p i).phase = .walk → _
    simp [hnxt, hwalk, setFaultResponse]
  · exact hwalking.take h hph hinval huse hout (hnxt.trans hwalk)

theorem abort_step (h : t.Barred) (hph : t.ptw.walker.phase = .abort) :
    (t.ptw.walkerNext p i).phase = .abort ∨ ((t.ptw.walkerNext p i).phase = .resp ∧
      (t.ptw.walkerNext p i).resp.invalidated) := by
  rw [walkerNext_of_abort h.channel.exclusive hph]
  split
  · exact .inr ⟨rfl, rfl⟩
  split
  · exact .inl hph
  · split
    · exact .inr ⟨rfl, rfl⟩
    · exact .inl hph

theorem resp_step (hinval : i.invalidateI = false) (hph : t.ptw.walker.phase = .resp) :
    (t.ptw.walkerNext p i).phase = .idle ∨ ((t.ptw.walkerNext p i).phase = .resp ∧
      (t.ptw.walkerNext p i).resp = t.ptw.walker.resp) := by
  cases hrdy : i.respReadyI <;>
    simp [walkerNext, hinval, hph, hrdy, drained]

/-- What the walker answers, or is about to walk, after a cycle without an
invalidation. -/
theorem walker_step (h : t.Barred) (hchan : Channel ((ptwLedger p).step t i))
    (hinval : i.invalidateI = false) :
    (((ptwLedger p).step t i).ptw.walker.phase = .walk → Walking ((ptwLedger p).step t i)) ∧
      (((ptwLedger p).step t i).ptw.walker.phase = .resp →
        ((ptwLedger p).step t i).ptw.walker.resp.invalidated = false →
          Delivered ((ptwLedger p).step t i)) := by
  cases hph : t.ptw.walker.phase with
  | idle =>
    obtain ⟨hwalk, hrsp⟩ := walker_step_of_open h hchan hinval (.inl hph)
    exact ⟨hwalk, fun hph' _ => hrsp hph'⟩
  | walk =>
    obtain ⟨hwalk, hrsp⟩ := walker_step_of_open h hchan hinval (.inr hph)
    exact ⟨hwalk, fun hph' _ => hrsp hph'⟩
  | abort =>
    change ((t.ptw.walkerNext p i).phase = .walk → _) ∧
      ((t.ptw.walkerNext p i).phase = .resp → (t.ptw.walkerNext p i).resp.invalidated = false → _)
    rcases abort_step (p := p) (i := i) h hph with hflag | ⟨hflag, hset⟩
    · simp [hflag]
    · simp [hflag, hset]
  | resp =>
    change ((t.ptw.walkerNext p i).phase = .walk → _) ∧
      ((t.ptw.walkerNext p i).phase = .resp → (t.ptw.walkerNext p i).resp.invalidated = false → _)
    rcases resp_step (p := p) hinval hph with hph' | ⟨hph', hsame⟩
    · simp [hph']
    refine ⟨by simp [hph'], fun _ hflag => ?_⟩
    have hdelivered := h.answered hph (hsame ▸ hflag)
    have hreq : t.ptw.reqFire i = false := reqFire_of_phase (by simp [hph])
    have huses : ((ptwLedger p).step t i).uses = t.uses := by
      simp [ptwLedger, usesNext, hreq, usesNow, hph]
    have hrequest : ((ptwLedger p).step t i).request = t.request := by
      simp [ptwLedger, requestNext, hreq]
    have hrsp : ((ptwLedger p).step t i).ptw.walker.resp = t.ptw.walker.resp := hsame
    refine ⟨?_, by rw [huses]; exact hdelivered.distinct, ?_⟩
    · rw [huses]
      exact fun u hu => (hdelivered.fresh u hu).step hinval
    · rw [huses, hrsp, hrequest]
      exact hdelivered.result

/-- An entry of the cache is filled in this cycle. -/
def fillsNow (p : PtwParams) (t : PtwLedger) (i : PtwInput) (way set : ℕ) : Bool :=
  !i.invalidateI && !t.ptw.pteCacheHitUse p i && t.ptw.pteCacheFill p i &&
    set == t.ptw.cacheSet p && way == t.ptw.pteCacheVictimWay p

theorem wayHit_same {s : PtwState} (way : ℕ) :
    (s.wayHit p way).valid = (s.pteCache way (s.cacheSet p)).valid ∧
      (s.wayHit p way).tag = (s.pteCache way (s.cacheSet p)).tag ∧
        (s.wayHit p way).data = (s.pteCache way (s.cacheSet p)).data := by
  simp only [wayHit]
  split
  · exact ⟨rfl, rfl, rfl⟩
  · split <;> exact ⟨rfl, rfl, rfl⟩

/-- A fill changes only ages of the ways that it does not replace. -/
theorem wayFilled_same {s : PtwState} {way : ℕ} (hway : way ≠ s.pteCacheVictimWay p) :
    (s.wayFilled p i way).valid = (s.pteCache way (s.cacheSet p)).valid ∧
      (s.wayFilled p i way).tag = (s.pteCache way (s.cacheSet p)).tag ∧
        (s.wayFilled p i way).data = (s.pteCache way (s.cacheSet p)).data := by
  unfold wayFilled
  rw [if_neg (by simpa using hway)]
  split <;> exact ⟨rfl, rfl, rfl⟩

/-- A valid entry after a cycle is the one just filled, or was there before. -/
theorem pteCacheNext_cases {way set : ℕ} (hval : (t.ptw.pteCacheNext p i way set).valid) :
    (t.fillsNow p i way set ∧ (t.ptw.pteCacheNext p i way set).tag =
          t.ptw.walker.walkPteAddr.extractLsb' 3 53 ∧
        (t.ptw.pteCacheNext p i way set).data = t.ptw.walkPteData p i) ∨
      (t.fillsNow p i way set = false ∧ (t.ptw.pteCache way set).valid ∧
        (t.ptw.pteCacheNext p i way set).tag = (t.ptw.pteCache way set).tag ∧
        (t.ptw.pteCacheNext p i way set).data = (t.ptw.pteCache way set).data) := by
  cases hinval : i.invalidateI with
  | true => simp [pteCacheNext, hinval] at hval
  | false =>
  by_cases hset : set = t.ptw.cacheSet p
  · subst hset
    cases hhit : t.ptw.pteCacheHitUse p i with
    | true =>
      have hnxt : t.ptw.pteCacheNext p i way (t.ptw.cacheSet p) = t.ptw.wayHit p way := by
        simp [pteCacheNext, hinval, hhit]
      obtain ⟨hsame, htag, hdata⟩ := wayHit_same (p := p) (s := t.ptw) way
      rw [hnxt] at hval ⊢
      exact .inr ⟨by simp [fillsNow, hhit], hsame ▸ hval, htag, hdata⟩
    | false =>
    cases hfill : t.ptw.pteCacheFill p i with
    | false =>
      right
      simpa [fillsNow, hfill, pteCacheNext, hinval, hhit] using hval
    | true =>
      have hnxt : t.ptw.pteCacheNext p i way (t.ptw.cacheSet p) = t.ptw.wayFilled p i way := by
        simp [pteCacheNext, hinval, hhit, hfill]
      rw [hnxt] at hval ⊢
      by_cases hway : way = t.ptw.pteCacheVictimWay p
      · left
        simp [fillsNow, hinval, hhit, hfill, hway, wayFilled]
      · obtain ⟨hsame, htag, hdata⟩ := wayFilled_same (p := p) (i := i) hway
        exact .inr ⟨by simp [fillsNow, hway], hsame ▸ hval, htag, hdata⟩
  · right
    simpa [fillsNow, hset, pteCacheNext, hinval] using hval

/-- Entries of the cache are read since the last invalidation. -/
theorem cache_step (h : t.Barred) {way set : ℕ}
    (hval : (((ptwLedger p).step t i).ptw.pteCache way set).valid) :
    Cached ((ptwLedger p).step t i) way set := by
  have hinval : i.invalidateI = false := by
    refine eq_false_of_ne_true fun hinval => ?_
    simp [ptwLedger, step, pteCacheNext, hinval] at hval
  have hlast : ((ptwLedger p).step t i).lastInvalidate = t.lastInvalidate := by
    simp [ptwLedger, hinval]
  have hiss : ((ptwLedger p).step t i).cacheIssued way set =
      if t.fillsNow p i way set then t.answeredSince else t.cacheIssued way set := rfl
  rcases pteCacheNext_cases hval with ⟨hfills, htag, hdata⟩ | ⟨hfills, hold, htag, hdata⟩
  · rw [hfills, if_pos rfl] at hiss
    simp only [fillsNow, pteCacheFill, PtwPhase.beq_eq_decide, and_eq_true,
      Bool.not_eq_true', decide_eq_true_eq] at hfills
    obtain ⟨⟨⟨⟨-, hhit⟩, ⟨⟨⟨⟨⟨⟨⟨⟨-, hph⟩, -⟩, hfire⟩, herr⟩, -⟩, -⟩, -⟩, -⟩⟩, -⟩, -⟩ := hfills
    have hfetch : t.fetches p i := by
      simp [fetches, hph, hinval, hfire, herr]
    have hback : t.ptw.walker.backend = .wait := by
      rw [icxRespFire_of_walk h.channel.exclusive hph] at hfire
      simp only [and_eq_true, PtwBackend.beq_eq_decide, decide_eq_true_eq] at hfire
      exact hfire.2
    obtain ⟨x, hpend, hkind, hline⟩ := pending_of_wait h.channel hph hback
    have hsince : t.answeredSince = x.issued := by
      simp [answeredSince, answered, hpend]
    refine ⟨?_, t.fetchNow i, by simp [ptwLedger, fetchedNext, hfetch], ?_, htag.symm, ?_,
      x, ?_, hkind, hline, ?_⟩
    · rw [hlast, hiss, hsince]
      exact (h.walking hph).waiting x (by simp [hpend])
    · exact (hdata.trans (by simp [walkPteData, hhit, fetchNow])).symm
    · exact ⟨_, _, (h.walking hph).addr⟩
    · simp [fetchNow, answered, hpend]
    · rw [hiss, hsince]
  rw [hfills, if_low] at hiss
  have hcached := h.cache way set hold
  obtain ⟨f, hf, hfdata, hftag, haddr, hread⟩ := hcached.sourced
  refine ⟨by rw [hlast, hiss]; exact hcached.issued, f, ?_, hfdata.trans hdata.symm,
    hftag.trans htag.symm, haddr, by rw [hiss]; exact hread⟩
  simp only [ptwLedger, fetchedNext]
  split
  · exact List.mem_cons_of_mem _ hf
  · exact hf

/-- A fence waits for its answer exactly while it is in flight. -/
theorem awaits_fence_iff {s : PtwState} (hx : s.Exclusive) :
    .fence ∈ s.awaits ↔ s.shootdownInflight := by
  cases hinfl : s.shootdownInflight with
  | true => simp [awaits, (hx.fence hinfl).2, hinfl]
  | false =>
    unfold awaits
    split
    · simp
    · rw [hinfl]
      split
      · contradiction
      · split <;> simp

/-- A fence in flight that no invalidation has followed was issued after the last one. -/
theorem inflight_step (h : t.Barred) (hchan : Channel ((ptwLedger p).step t i))
    (hpend : t.ptw.shootdownPendingNext i = false)
    (hinfl : t.ptw.shootdownInflightNext i) :
    ∀ x ∈ t.pendingNext p i, (if i.invalidateI then t.now else t.lastInvalidate) < x.issued := by
  intro x hx
  simp only [shootdownPendingNext, or_eq_false_iff] at hpend
  obtain ⟨hinval, hpend⟩ := hpend
  rw [hinval, if_low]
  rcases issued_of_mem_pendingNext hx with ⟨y, hy, hiss, hsame⟩ | ⟨-, rfl⟩
  · have hfen : x.kind = .fence := by
      have hkind := List.mem_map_of_mem (f := PtwTxn.kind) hx
      change x.kind ∈ ((ptwLedger p).step t i).pending.map PtwTxn.kind at hkind
      have hidle := hchan.exclusive.fence hinfl
      have hawaits : ((ptwLedger p).step t i).ptw.awaits = [.fence] := by
        rw [awaits, hidle.2, if_low]
        exact if_pos hinfl
      rw [hchan.kinds, hawaits] at hkind
      exact mem_singleton.mp hkind
    have hyx : y = x := hsame (by simp [hfen])
    have hbef : t.ptw.shootdownInflight := by
      rw [← awaits_fence_iff h.channel.exclusive, ← h.channel.kinds]
      exact mem_map.mpr ⟨y, hy, hyx ▸ hfen⟩
    have hquiet : t.ptw.shootdownPending = false := by
      simpa [shootdownReqFire, shootdownIcxReqValid, hbef] using hpend
    rw [← hiss]
    exact h.inflight hquiet hbef y hy
  · exact h.past

/-- With no fence due or in flight, the last completed one was issued after the last
invalidation. -/
theorem done_step (h : t.Barred) (hpend : t.ptw.shootdownPendingNext i = false)
    (hinfl : t.ptw.shootdownInflightNext i = false) (hlast : t.lastInvalidate ≠ 0) :
    t.lastInvalidate < if t.fenceAnswered i then t.answeredSince else t.fenceDone := by
  simp only [shootdownPendingNext, or_eq_false_iff] at hpend
  cases hbef : t.ptw.shootdownInflight with
  | true =>
    have hfire : t.ptw.icxRespFire i := by
      simpa [shootdownInflightNext, shootdownRespFire, hbef] using
        hinfl
    have hquiet : t.ptw.shootdownPending = false := by
      simpa [shootdownReqFire, shootdownIcxReqValid, hbef] using
        hpend.2
    have hkinds := h.channel.kinds
    have hawaits : t.ptw.awaits = [.fence] := by
      simp [awaits, (h.channel.exclusive.fence hbef).2, hbef]
    rw [hawaits, List.map_eq_singleton_iff] at hkinds
    obtain ⟨x, hx, hkind⟩ := hkinds
    have hansd : t.fenceAnswered i := by
      simp [fenceAnswered, hfire, answered, hx, hkind]
    have hsince : t.answeredSince = x.issued := by simp [answeredSince, answered, hx]
    rw [hansd, if_pos rfl, hsince]
    exact h.inflight hquiet hbef x (by simp [hx])
  | false =>
    have hreq : t.ptw.shootdownReqFire i = false := by
      simpa [shootdownInflightNext, shootdownRespFire, hbef] using
        hinfl
    have hquiet : t.ptw.shootdownPending = false := by simpa [hreq] using hpend.2
    have hansd : t.fenceAnswered i = false := by
      cases hx : t.pending with
      | nil => simp [fenceAnswered, answered, hx]
      | cons x rest =>
        have hkind : x.kind ≠ .fence := by
          intro hkind
          have hmem : .fence ∈ t.pending.map PtwTxn.kind := mem_map.mpr ⟨x, by simp [hx], hkind⟩
          rw [h.channel.kinds, awaits_fence_iff h.channel.exclusive, hbef] at hmem
          cases hmem
        simp [fenceAnswered, answered, hx, hkind]
    rw [hansd, if_low]
    exact h.done hquiet hbef hlast

/-- What the walker keeps about invalidations is kept by every cycle. -/
theorem Barred.step (h : t.Barred) (hsafe : t.ptw.SafeDrain i) :
    Barred ((ptwLedger p).step t i) := by
  have hchan : Channel ((ptwLedger p).step t i) := h.channel.step hsafe
  have hwalker := walker_step (p := p) h hchan
  have hinvalidated := walkerNext_of_invalidate (p := p) (t := t) (i := i)
  refine ⟨hchan, ?_, ?_, ?_, fun way set => cache_step h, ?_, ?_⟩
  · have hpast := h.past
    change (if i.invalidateI then t.now else t.lastInvalidate) < t.now + 1
    split <;> omega
  · intro hph
    cases hinval : i.invalidateI with
    | true => exact absurd hph (hinvalidated hinval).1
    | false => exact (hwalker hinval).1 hph
  · intro hph hflag
    cases hinval : i.invalidateI with
    | true => exact absurd (((hinvalidated hinval).2 hph).symm.trans hflag) (by simp)
    | false => exact (hwalker hinval).2 hph hflag
  · intro hpend hinfl
    exact inflight_step h hchan hpend hinfl
  · intro hpend hinfl hlast
    have hinval : i.invalidateI = false := by
      simpa using (or_eq_false_iff.mp hpend).1
    have hsame : ((ptwLedger p).step t i).lastInvalidate = t.lastInvalidate := by
      simp [ptwLedger, hinval]
    rw [hsame] at hlast ⊢
    exact done_step h hpend hinfl hlast

theorem barred_init (hinit : (ptwLedger p).Init t) : t.Barred := by
  have hchan := channel_init hinit
  obtain ⟨⟨powerUp, hptw⟩, hnow, hlast, -⟩ := hinit
  refine ⟨hchan, by omega, ?_, ?_, ?_, ?_, ?_⟩
  · simp [hptw, reset]
  · simp [hptw, reset]
  · simp [hptw, reset]
  · simp [hptw, reset]
  · simp [hlast]

theorem barred_of_run {past : Past PtwLedger PtwInput}
    (hrun : Run (ptwLedger p) (cycleEnv AnswersSafely) past t) : t.Barred :=
  hrun.stateInvariant (fun _ => barred_init) fun _ _ _ henv h => h.step henv.safe

end Step

/-- Responses and uses of the cache do not reach behind an invalidation, and the walker is
busy until a fence issued after the last one has been answered. -/
structure Barrier (p : PtwParams) (past : Past PtwLedger PtwInput)
    (t : PtwLedger) : Prop where
  delivered : ∀ x ∈ past, x.1.ptw.respFire x.2 = true →
    x.1.ptw.walker.resp.invalidated = false → x.1.Delivered
  cached : ∀ x ∈ past, x.1.ptw.pteCacheHitUse p x.2 = true →
    x.1.lastInvalidate < x.1.cacheIssued (x.1.ptw.pteCacheHitWay p) (x.1.ptw.cacheSet p)
  busy : ∀ i, t.ptw.invalidateBusyO i = false → t.lastInvalidate ≠ 0 →
    t.lastInvalidate < t.fenceDone

theorem barrier_of_run {p : PtwParams} {past : Past PtwLedger PtwInput} {t : PtwLedger}
    (hrun : Run (ptwLedger p) (cycleEnv AnswersSafely) past t) : Barrier p past t := by
  have hbarred : ∀ x ∈ past, x.1.Barred := by
    intro x hx
    obtain ⟨newer, older, rfl⟩ := List.append_of_mem hx
    exact barred_of_run hrun.of_suffix.1
  refine ⟨fun x hx hfire hflag => ?_, fun x hx huse => ?_, fun i hquiet hlast => ?_⟩
  · simp only [respFire, respValidO, PtwPhase.beq_eq_decide,
      and_eq_true, decide_eq_true_eq] at hfire
    exact (hbarred x hx).answered hfire.1.1 hflag
  · simp only [pteCacheHitUse, and_eq_true, Option.isSome_iff_exists] at huse
    obtain ⟨-, way, hway⟩ := huse
    rw [pteCacheHitWay, hway]
    exact ((hbarred x hx).cache way _ (pteCacheHit_spec hway).1).issued
  · simp only [invalidateBusyO, or_eq_false_iff] at hquiet
    exact (barred_of_run hrun).done hquiet.1.2 hquiet.2 hlast

/-- Every run keeps the barrier of its invalidations and answers every accepted request
exactly once, as long as no fence is accepted ahead of a late response. -/
theorem barrier_of_safe {p : PtwParams} (b : Behaviour (ptwLedger p) (cycleEnv AnswersSafely)) :
    (∀ n, Barrier p (b.past n) (b.state n)) ∧
      (Fair b → ∀ n, (b.state n).ptw.reqFire (b.input n) = true → ∃! m, Responds b n m) :=
  ⟨fun n => barrier_of_run (b.run n), fun hfair _ hfire =>
    exactly_one_response b hfair (fun m => counted_of_run (b.run m)) hfire⟩

section Witness

/-- A walk, an invalidation, its fence, and a second walk. -/
def barredWalks : List PtwInput :=
  [{ calmPtw with reqValidI := true }, { calmPtw with pmpReadyI := true, pmpAllowI := true },
    { calmPtw with icxReqReadyI := true, invalidateI := true }, answeredPtw,
    { calmPtw with respReadyI := true }, fenced, answeredPtw,
    { calmPtw with reqValidI := true }, { calmPtw with pmpReadyI := true, pmpAllowI := true },
    { calmPtw with icxReqReadyI := true }, answeredPtw, { calmPtw with respReadyI := true }]

theorem answersSafely_calm (t : PtwLedger) : t.AnswersSafely calmPtw :=
  ⟨by simp [Answers, calmPtw], by
    simp [SafeDrain, shootdownReqFire, calmPtw]⟩

/-- A behaviour of the walker without a cache, which ends calmly. -/
def plainBehaviour {ok : PtwLedger → PtwInput → Prop} [∀ t i, Decidable (ok t i)]
    (hcalm : ∀ t, ok t calmPtw) (inputs : List PtwInput)
    (hok : execOk (ptwLedger plainPtw) (fun t i => decide (ok t i)) emptyPtw inputs =
      true) : Behaviour (ptwLedger plainPtw) (cycleEnv ok) :=
  .ofInputs (fun k => inputs.getD k calmPtw) ⟨⟨_, rfl⟩, rfl, rfl, rfl, rfl, rfl, rfl, rfl, rfl, rfl⟩
    (Behaviour.statesFrom_ok hcalm hok)

/-- Nothing is open, and nothing is due. -/
structure Rests (t : PtwLedger) : Prop where
  idle : t.ptw.walker.phase = .idle
  empty : t.pending = []
  quiet : t.ptw.shootdownPending = false

theorem Rests.calm {p : PtwParams} {t : PtwLedger} (h : t.Rests) :
    Rests ((ptwLedger p).step t calmPtw) := by
  have hreq : t.ptw.reqFire calmPtw = false := by simp [reqFire, calmPtw]
  have hport : t.ptw.icxReqFire calmPtw = false := by simp [icxReqFire, calmPtw]
  refine ⟨?_, ?_, ?_⟩
  · change (t.ptw.walkerNext p calmPtw).phase = .idle
    rw [phase_step_of_idle h.idle]
    exact hreq
  · simp [ptwLedger, pendingNext, h.empty, hport]
  · simp [ptwLedger, step, shootdownPendingNext, h.quiet, calmPtw]

/-- Surroundings that leave nothing open are fair. -/
theorem fair_of_rests {p : PtwParams} {env : Past PtwLedger PtwInput → PtwLedger → PtwInput → Prop}
    (b : Behaviour (ptwLedger p) env) {n : ℕ} (hcalm : ∀ m, n ≤ m → b.input m = calmPtw)
    (hrests : (b.state n).Rests) : Fair b := by
  have hstay : ∀ m, n ≤ m → (b.state m).Rests := by
    intro m hm
    induction m, hm using Nat.le_induction with
    | base => exact hrests
    | succ m hm ih =>
      rw [b.next m, hcalm m hm]
      exact ih.calm
  refine ⟨fun m => ?_, fun m => ?_, fun m => ?_, fun m => ?_⟩
  all_goals
    refine ⟨max m n, le_max_left m n, .inl ?_⟩
    have hlate := hstay (max m n) (le_max_right m n)
  · simp [pmpValidO, hlate.idle]
  · simp [icxReqValidO, shootdownIcxReqValid, walkIcxReqValid, walking, hlate.idle, hlate.quiet]
  · exact hlate.empty
  · simp [hlate.idle]

theorem barrier_of_safe_restarted :
    ∃ b : Behaviour (ptwLedger plainPtw) (cycleEnv AnswersSafely),
      (∀ n, Barrier plainPtw (b.past n) (b.state n)) ∧ ∃! m, Responds b 7 m := by
  refine ⟨plainBehaviour answersSafely_calm barredWalks (by decide +kernel),
    (barrier_of_safe _).1, (barrier_of_safe _).2 ?_ 7 (by decide +kernel)⟩
  apply fair_of_rests (n := 12)
  · intro m hm
    simp [plainBehaviour, Behaviour.ofInputs, List.getElem?_eq_none (l := barredWalks) hm]
  · exact ⟨by decide +kernel, by decide +kernel, by decide +kernel⟩

/-- The walker reports that it is done when a late response has been taken for that of its
fence. -/
theorem barrier_fails :
    ¬ ∀ (p : PtwParams) (b : Behaviour (ptwLedger p) (cycleEnv Answers)),
      (∀ n, Barrier p (b.past n) (b.state n)) ∧
        (Fair b → ∀ n, (b.state n).ptw.reqFire (b.input n) = true → ∃! m, Responds b n m) := by
  intro hall
  have hbusy := ((hall plainPtw (plainBehaviour (fun t => (answersSafely_calm t).answers)
    (timedOut ++ [fenced, answeredPtw]) (by decide +kernel))).1 8).busy calmPtw
  revert hbusy
  decide +kernel

end Witness

end PtwLedger

end OpenRV64
