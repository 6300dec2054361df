/-
The generic bus: one blocking engine that translates and performs the accesses of a fetch
client and of a data client, with a translation cache and the page-table walker of its own.
-/
import OpenRV64.MtlXlate

namespace OpenRV64

open Bool (and_eq_true or_eq_true not_eq_true')

inductive GenBusPhase where
  | idle
  | translate
  | access
deriving DecidableEq, Repr

inductive GenBusOwner where
  | fetch
  | lsu
deriving DecidableEq, Repr

@[simp] theorem GenBusPhase.beq_eq_decide (a b : GenBusPhase) : (a == b) = decide (a = b) := rfl

@[simp] theorem GenBusOwner.beq_eq_decide (a b : GenBusOwner) : (a == b) = decide (a = b) := rfl

/-- A data request as the load/store ports carry it. -/
structure LsuRequest where
  write : Bool
  addr : BitVec 64
  wdata : BitVec 64
  wstrb : BitVec 8
  size : BitVec 3
  priv : BitVec 2
  vmMode : BitVec 4
  asid : BitVec 16
  rootPpn : BitVec 44
  sum : Bool
  mxr : Bool
deriving DecidableEq, Repr

/-- A fetch request; the successor sideband replaces its address only. -/
structure FetchRequest where
  addr : BitVec 64
  priv : BitVec 2
  vmMode : BitVec 4
  asid : BitVec 16
  rootPpn : BitVec 44
  sum : Bool
  mxr : Bool
deriving DecidableEq, Repr

/-- What the engine keeps of a data request: data and strobes only of a write. -/
def LsuRequest.captured (r : LsuRequest) : LsuRequest :=
  { r with
    wdata := if r.write then r.wdata else 0
    wstrb := if r.write then r.wstrb else 0 }

/-- What the engine keeps of a fetch request. -/
def FetchRequest.captured (r : FetchRequest) : LsuRequest where
  write := false
  addr := r.addr
  wdata := 0
  wstrb := 0
  size := 3
  priv := r.priv
  vmMode := r.vmMode
  asid := r.asid
  rootPpn := r.rootPpn
  sum := r.sum
  mxr := r.mxr

namespace TaggedTlb

variable (entries : Nat) (t : TaggedTlb)

/-- The place of a fill when `prefer_asid_valid_i` is tied to zero. -/
def fillIndexInTurn (f : TlbFill) : Nat :=
  match t.fillMatch entries f with
  | some n => n
  | none => ((List.range entries).find? fun n => !(t.entry n).valid).getD t.replaceQ

def stepInTurn (tlbi : Bool) (fill : Option TlbFill) : TaggedTlb :=
  if tlbi then
    { entry := fun n => { t.entry n with valid := false }, replaceQ := 0 }
  else
    match fill with
    | none => t
    | some f =>
      let index := t.fillIndexInTurn entries f
      { entry := fun n =>
          if n = index then f.entry
          else { t.entry n with valid := (t.entry n).valid && !t.duplicates f n }
        replaceQ := if index = entries - 1 then 0 else index + 1 }

/-- The cache after reset. -/
def reset : TaggedTlb where
  entry _ := ⟨false, 0, 0, 0, 0, false, 0, ⟨false, false, false, false, false, false⟩⟩
  replaceQ := 0

end TaggedTlb

structure GenBusParams where
  tlbEntries : Nat
  ptw : PtwParams

structure GenBusState where
  stateQ : GenBusPhase
  ownerQ : GenBusOwner
  cancelledQ : Bool
  /-- `write_q`, `vaddr_q`, `wdata_q` and the other registers of the request. -/
  requestQ : LsuRequest
  paddrQ : BitVec 64
  walkInvalidatedQ : Bool
  tlb : TaggedTlb
  ptw : PtwState

/-- The response channel of the walker's port, and the ready of its requests. -/
structure GenBusIcx where
  reqReadyI : Bool
  respValidI : Bool
  respHartIdI : BitVec 4
  respTxnIdI : BitVec 4
  respSourceIdI : BitVec 2
  respBeatIndexI : BitVec 8
  respLastI : Bool
  respRdataI : BitVec 512
  respErrorI : Bool

structure GenBusInput where
  fetchValidI : Bool
  fetchCancelI : Bool
  fetchI : FetchRequest
  fetchNextValidI : Bool
  fetchNextAddrI : BitVec 64
  lsuValidI : Bool
  lsuI : LsuRequest
  tlbiI : Bool
  reqReadyI : Bool
  reqRdataI : BitVec 64
  reqErrorI : Bool
  pmpAllowI : Bool
  icx : GenBusIcx

/-- What an access returns to its client. -/
structure BusAnswer where
  rdata : BitVec 64
  accessFault : Bool
  pageFault : Bool
deriving DecidableEq, Repr

namespace GenBusState

variable (p : GenBusParams) (s : GenBusState) (i : GenBusInput)

section Translation

def ownerIsFetch : Bool := s.ownerQ == .fetch

def fetchCancelled : Bool := s.ownerIsFetch && (s.cancelledQ || i.fetchCancelI)

def ptwReqAccess : BitVec 2 :=
  if s.ownerIsFetch then accessExec else if s.requestQ.write then 1 else 0

def xlateRequest : XlateRequest where
  vaddr := s.requestQ.addr
  access := s.ptwReqAccess
  priv := s.requestQ.priv
  vmMode := s.requestQ.vmMode
  rootPpn := s.requestQ.rootPpn
  sum := s.requestQ.sum
  mxr := s.requestQ.mxr
  asid := s.requestQ.asid

def translationBare : Bool := s.xlateRequest.bare

def translating : Bool := s.stateQ == .translate

def tlbLookup : Option TlbHit :=
  s.tlb.lookup p.tlbEntries i.tlbiI
    (if s.translating && !s.translationBare then some s.xlateRequest else none)

def tlbLookupHit : Bool := (s.tlbLookup p i).isSome

def tlbLookupPageFault : Bool := ((s.tlbLookup p i).map TlbHit.pageFault).getD false

def tlbLookupPaddr : BitVec 64 := ((s.tlbLookup p i).map TlbHit.paddr).getD 0

def ptwReqValid : Bool := s.translating && !s.translationBare && !s.tlbLookupHit p i

def ptwInput : PtwInput where
  invalidateI := i.tlbiI
  shootdownReadyI := true
  reqValidI := s.ptwReqValid p i
  reqVaddrI := s.requestQ.addr
  reqAccessI := s.ptwReqAccess
  reqPrivI := s.requestQ.priv
  reqVmModeI := s.requestQ.vmMode
  reqRootPpnI := s.requestQ.rootPpn
  reqSumI := s.requestQ.sum
  reqMxrI := s.requestQ.mxr
  respReadyI := s.translating
  -- `ptw_pmp_valid`
  pmpReadyI := s.ptw.walker.phase == .walk && s.ptw.walker.backend == .pmp && !i.tlbiI
  pmpAllowI := i.pmpAllowI
  icxReqReadyI := i.icx.reqReadyI
  icxRespValidI := i.icx.respValidI
  icxRespHartIdI := i.icx.respHartIdI
  icxRespTxnIdI := i.icx.respTxnIdI
  icxRespSourceIdI := i.icx.respSourceIdI
  icxRespBeatIndexI := i.icx.respBeatIndexI
  icxRespLastI := i.icx.respLastI
  icxRespRdataI := i.icx.respRdataI
  icxRespErrorI := i.icx.respErrorI

def ptwReqReady : Bool := s.ptw.reqReadyO (s.ptwInput p i)

def ptwRespValid : Bool := s.ptw.respValidO (s.ptwInput p i)

def ptwResp : PtwResp := s.ptw.walker.resp

def translationFault : Bool := s.ptwResp.pageFault || s.ptwResp.accessFault

def ptwTranslationComplete : Bool := s.translating && s.ptwRespValid p i

def tlbFaultComplete : Bool := s.translating && s.tlbLookupHit p i && s.tlbLookupPageFault p i

/-- A response that an invalidation has made stale is thrown away. -/
def ptwStale : Bool := s.walkInvalidatedQ || s.ptwResp.invalidated || i.tlbiI

def ptwResponseUsable : Bool := s.ptwTranslationComplete p i && !s.ptwStale i

def translationPageFault : Bool :=
  s.tlbFaultComplete p i || (s.ptwResponseUsable p i && s.ptwResp.pageFault)

def translationAccessFault : Bool := s.ptwResponseUsable p i && s.ptwResp.accessFault

def tlbFill : Option TlbFill :=
  if s.ptwResponseUsable p i && !s.translationFault && !s.fetchCancelled i then
    some (PtwResp.fill s.xlateRequest s.ptwResp)
  else none

end Translation

section Ports

def accessing : Bool := s.stateQ == .access

def reqValidO : Bool := s.accessing

def reqWriteO : Bool := s.requestQ.write

/-- A fetch reads the eight bytes around its address. -/
def reqAddrO : BitVec 64 :=
  if s.ownerIsFetch then s.paddrQ.extractLsb' 3 61 ++ 0#3 else s.paddrQ

def reqSizeO : BitVec 3 := if s.ownerIsFetch then 3 else s.requestQ.size

def accessComplete : Bool := s.accessing && i.reqReadyI

def ownerCompletion : Bool := s.translationPageFault p i || s.translationAccessFault p i

def fetchReadyO : Bool :=
  s.ownerIsFetch && !s.fetchCancelled i && (s.ownerCompletion p i || s.accessComplete i)

def lsuReadyO : Bool := !s.ownerIsFetch && (s.ownerCompletion p i || s.accessComplete i)

def lsuAnswerO : BusAnswer where
  rdata := i.reqRdataI
  accessFault := s.lsuReadyO p i &&
    (s.translationAccessFault p i || (s.accessComplete i && i.reqErrorI))
  pageFault := s.lsuReadyO p i && s.translationPageFault p i

/-- The engine is free: it waits, or the access of a fetch ends. -/
def lsuFree : Bool := s.stateQ == .idle || (s.accessComplete i && s.ownerIsFetch)

/-- The engine takes the data request. -/
def lsuTaken : Bool := s.lsuFree i && i.lsuValidI

/-- The engine is busy with a data request. -/
def lsuBusy : Bool := s.stateQ != .idle && !s.ownerIsFetch

end Ports

section Next

/-- The engine begins a request of its owner. -/
def begin (owner : GenBusOwner) (r : LsuRequest) : GenBusState :=
  { s with
    ownerQ := owner
    requestQ := r
    cancelledQ := false
    walkInvalidatedQ := false
    stateQ := .translate }

/-- The markers that a clock edge sets before the state is looked at. -/
def marked : GenBusState :=
  { s with
    cancelledQ := s.cancelledQ || (s.stateQ != .idle && s.ownerIsFetch && i.fetchCancelI)
    walkInvalidatedQ :=
      if i.tlbiI && s.translating then true
      else s.walkInvalidatedQ && !(s.ptwReqValid p i && s.ptwReqReady p i) }

def idleNext : GenBusState :=
  if i.lsuValidI then s.begin .lsu i.lsuI.captured
  else if i.fetchValidI && !i.fetchCancelI then s.begin .fetch i.fetchI.captured
  else { s with cancelledQ := false, walkInvalidatedQ := false }

/-- The translation is there: the access follows unless nobody waits for it. -/
def translated (t : GenBusState) (dropped : Bool) (paddr : BitVec 64) : GenBusState :=
  if dropped then { t with stateQ := .idle } else { t with paddrQ := paddr, stateQ := .access }

def translateNext : GenBusState :=
  let t := s.marked p i
  if s.translationBare then t.translated (s.fetchCancelled i) s.requestQ.addr
  else if s.tlbLookupHit p i then
    t.translated (s.fetchCancelled i || s.tlbLookupPageFault p i) (s.tlbLookupPaddr p i)
  else if s.ptwRespValid p i then
    if s.ptwStale i then { t with walkInvalidatedQ := i.tlbiI }
    else t.translated (s.translationFault || s.fetchCancelled i) s.ptwResp.paddr
  else t

/-- Behind a fetch a waiting data request goes first, then the successor of the fetch. -/
def accessNext : GenBusState :=
  if i.reqReadyI then
    if s.ownerIsFetch && i.lsuValidI then s.begin .lsu i.lsuI.captured
    else if s.ownerIsFetch && !s.fetchCancelled i && i.fetchNextValidI then
      s.begin .fetch { i.fetchI with addr := i.fetchNextAddrI }.captured
    else { s.marked p i with stateQ := .idle }
  else s.marked p i

def engineNext : GenBusState :=
  match s.stateQ with
  | .idle => s.idleNext i
  | .translate => s.translateNext p i
  | .access => s.accessNext p i

def step : GenBusState :=
  { s.engineNext p i with
    tlb := s.tlb.stepInTurn p.tlbEntries i.tlbiI (s.tlbFill p i)
    ptw := s.ptw.step p.ptw (s.ptwInput p i) }

/-- The state that reset leaves; `powerUp` is what the walker keeps through it. -/
def reset (powerUp : PtwState) : GenBusState where
  stateQ := .idle
  ownerQ := .fetch
  cancelledQ := false
  requestQ := ⟨false, 0, 0, 0, 0, 3, 0, 0, 0, false, false⟩
  paddrQ := 0
  walkInvalidatedQ := false
  tlb := .reset
  ptw := PtwState.reset powerUp

end Next

end GenBusState

namespace PtwState

/-- The walker is free after an edge that brings it nothing, and after its response. -/
theorem phase_step_idle {p : PtwParams} {s : PtwState} {i : PtwInput}
    (h : (s.walker.phase = .idle ∧ s.reqFire i = false) ∨ s.respFire i) :
    (s.step p i).walker.phase = .idle := by
  change (s.walkerNext p i).phase = .idle
  rcases h with ⟨hph, hfire⟩ | hfire
  · cases hinval : i.invalidateI <;>
      simp [walkerNext, hinval, walkerInvalidated, hph, hfire, drained]
  · simp only [respFire, respValidO, and_eq_true, PtwPhase.beq_eq_decide,
      decide_eq_true_eq, not_eq_true'] at hfire
    obtain ⟨⟨hph, hinval⟩, hrdy⟩ := hfire
    simp [walkerNext, hinval, hph, hrdy]

end PtwState

namespace TaggedTlb

/-- A cache that has just been flushed answers nothing. -/
theorem lookup_flushed {entries : Nat} {t : TaggedTlb} {fill : Option TlbFill} {tlbi : Bool}
    {r : Option XlateRequest} : (t.stepInTurn entries true fill).lookup entries tlbi r = none := by
  cases hlook : (t.stepInTurn entries true fill).lookup entries tlbi r with
  | none => rfl
  | some hit =>
    obtain ⟨q, -, n, hn, -⟩ := lookup_eq_some hlook
    simp [hits, stepInTurn] at hn

end TaggedTlb

namespace GenBusState

variable {p : GenBusParams} {s : GenBusState} {i : GenBusInput}

/-- The walker is at work only for the request in the engine, which the translation cache
does not know. -/
structure WalkOwned (p : GenBusParams) (s : GenBusState) : Prop where
  owned : s.ptw.walker.phase ≠ .idle → s.stateQ = .translate ∧ s.translationBare = false ∧
    ∀ tlbi, s.tlb.lookup p.tlbEntries tlbi (some s.xlateRequest) = none

theorem tlbLookup_eq (htranslate : s.stateQ = .translate) (hbare : s.translationBare = false) :
    s.tlbLookup p i = s.tlb.lookup p.tlbEntries i.tlbiI (some s.xlateRequest) := by
  simp [tlbLookup, translating, htranslate, hbare]

theorem tlbLookupHit_of_bare (hbare : s.translationBare) : s.tlbLookupHit p i = false := by
  simp [tlbLookupHit, tlbLookup, hbare, TaggedTlb.lookup]

theorem tlbFaultComplete_hit (h : s.tlbFaultComplete p i) :
    s.tlbLookupHit p i ∧ s.tlbLookupPageFault p i := by
  simp only [tlbFaultComplete, and_eq_true] at h
  exact ⟨h.1.2, h.2⟩

/-- A response comes only while the engine waits for it. -/
theorem WalkOwned.respValid (h : WalkOwned p s) (hrsp : s.ptwRespValid p i) :
    s.stateQ = .translate ∧ s.translationBare = false ∧ s.tlbLookupHit p i = false := by
  have hph : s.ptw.walker.phase ≠ .idle := by
    intro hidle
    simp [ptwRespValid, PtwState.respValidO, hidle] at hrsp
  obtain ⟨htranslate, hbare, hmiss⟩ := h.owned hph
  exact ⟨htranslate, hbare, by simp [tlbLookupHit, tlbLookup_eq htranslate hbare, hmiss]⟩

/-- A response is taken in the cycle in which it comes. -/
theorem WalkOwned.respFire (h : WalkOwned p s) (hrsp : s.ptwRespValid p i) :
    s.ptw.respFire (s.ptwInput p i) := by
  rw [PtwState.respFire, and_eq_true]
  exact ⟨hrsp, by simp [ptwInput, translating, (h.respValid hrsp).1]⟩

theorem reqFire_eq :
    s.ptw.reqFire (s.ptwInput p i) = (s.ptwReqValid p i && s.ptwReqReady p i) := rfl

/-! ### What one edge does to the engine -/

theorem step_stateQ : (s.step p i).stateQ = (s.engineNext p i).stateQ := rfl

theorem step_ownerQ : (s.step p i).ownerQ = (s.engineNext p i).ownerQ := rfl

theorem step_requestQ : (s.step p i).requestQ = (s.engineNext p i).requestQ := rfl

theorem translated_cases (t : GenBusState) (dropped : Bool) (paddr : BitVec 64) :
    (t.translated dropped paddr).ownerQ = t.ownerQ ∧
      (t.translated dropped paddr).requestQ = t.requestQ ∧
      (t.translated dropped paddr).stateQ = if dropped then .idle else .access := by
  cases dropped <;> exact ⟨rfl, rfl, rfl⟩

/-- The engine keeps owner and request through a translation. -/
theorem translateNext_keeps : (s.translateNext p i).ownerQ = s.ownerQ ∧
    (s.translateNext p i).requestQ = s.requestQ := by
  have hkept := translated_cases (s.marked p i)
  unfold translateNext
  split
  · exact ⟨(hkept _ _).1, (hkept _ _).2.1⟩
  split
  · exact ⟨(hkept _ _).1, (hkept _ _).2.1⟩
  split
  · split
    · exact ⟨rfl, rfl⟩
    · exact ⟨(hkept _ _).1, (hkept _ _).2.1⟩
  · exact ⟨rfl, rfl⟩

theorem fetchCancelled_of_lsu (hown : s.ownerQ = .lsu) : s.fetchCancelled i = false := by
  simp [fetchCancelled, ownerIsFetch, hown]

theorem lsuBusy_iff : s.lsuBusy ↔
    (s.stateQ = .translate ∨ s.stateQ = .access) ∧ s.ownerQ = .lsu := by
  cases hst : s.stateQ <;> cases hown : s.ownerQ <;>
    simp [lsuBusy, ownerIsFetch, hst, hown]

theorem ownerCompletion_cases (h : s.ownerCompletion p i) :
    s.tlbFaultComplete p i ∨ (s.ptwRespValid p i ∧ s.ptwStale i = false ∧ s.translationFault) := by
  simp only [ownerCompletion, translationPageFault, translationAccessFault, ptwResponseUsable,
    ptwTranslationComplete, or_eq_true, and_eq_true, not_eq_true'] at h
  rw [translationFault, or_eq_true]
  rcases h with (hflt | ⟨⟨⟨-, hrsp⟩, hstale⟩, hflt⟩) | ⟨⟨⟨-, hrsp⟩, hstale⟩, hflt⟩
  · exact .inl hflt
  · exact .inr ⟨hrsp, hstale, .inl hflt⟩
  · exact .inr ⟨hrsp, hstale, .inr hflt⟩

theorem stateQ_of_ownerCompletion (h : s.ownerCompletion p i) : s.stateQ = .translate := by
  simp only [ownerCompletion, translationPageFault, translationAccessFault, ptwResponseUsable,
    ptwTranslationComplete, tlbFaultComplete, translating, or_eq_true, and_eq_true,
    GenBusPhase.beq_eq_decide, decide_eq_true_eq] at h
  rcases h with (⟨⟨h, -⟩, -⟩ | ⟨⟨⟨h, -⟩, -⟩, -⟩) | ⟨⟨⟨h, -⟩, -⟩, -⟩ <;> exact h

theorem lsuReadyO_busy (h : s.lsuReadyO p i) : s.lsuBusy := by
  simp only [lsuReadyO, and_eq_true, not_eq_true', or_eq_true] at h
  obtain ⟨hown, hdone⟩ := h
  have hst : s.stateQ ≠ .idle := by
    rcases hdone with hdone | hdone
    · simp [stateQ_of_ownerCompletion hdone]
    · intro hidle
      simp [accessComplete, accessing, hidle] at hdone
  simp [lsuBusy, hown, hst]

/-- The engine takes a request only when it is not busy with one. -/
theorem lsuBusy_of_taken (h : s.lsuTaken i) : s.lsuBusy = false := by
  simp only [lsuTaken, lsuFree, and_eq_true, or_eq_true, GenBusPhase.beq_eq_decide,
    decide_eq_true_eq] at h
  rcases h.1 with hidle | hfetch
  · simp [lsuBusy, hidle]
  · simp [lsuBusy, hfetch.2]

theorem step_of_taken (h : s.lsuTaken i) : (s.step p i).stateQ = .translate ∧
    (s.step p i).ownerQ = .lsu ∧ (s.step p i).requestQ = i.lsuI.captured := by
  simp only [lsuTaken, lsuFree, accessComplete, accessing, and_eq_true, or_eq_true,
    GenBusPhase.beq_eq_decide, decide_eq_true_eq] at h
  obtain ⟨hidle | ⟨⟨hacs, hrdy⟩, hown⟩, hval⟩ := h
  · simp [step, engineNext, hidle, idleNext, hval, begin]
  · simp [step, engineNext, hacs, accessNext, hrdy, hown, hval, begin]

/-- The answer of a data access leaves the engine free. -/
theorem WalkOwned.step_of_ready (h : WalkOwned p s) (hrdy : s.lsuReadyO p i) :
    (s.step p i).stateQ = .idle := by
  have hown := (lsuBusy_iff.mp (lsuReadyO_busy hrdy)).2
  simp only [lsuReadyO, and_eq_true, or_eq_true] at hrdy
  rcases hrdy.2 with hdone | hdone
  · have htranslate := stateQ_of_ownerCompletion hdone
    rcases ownerCompletion_cases hdone with hflt | ⟨hrsp, hstale, hflt⟩
    · obtain ⟨hhit, hpage⟩ := tlbFaultComplete_hit hflt
      have hbare : s.translationBare = false := by
        by_contra hbare
        rw [tlbLookupHit_of_bare (by simpa using hbare)] at hhit
        exact Bool.false_ne_true hhit
      simp [step, engineNext, htranslate, translateNext, hbare, hhit, hpage, translated]
    · obtain ⟨-, hbare, hmiss⟩ := h.respValid hrsp
      simp [step, engineNext, htranslate, translateNext, hbare, hmiss, hrsp, hstale, hflt,
        translated]
  · simp only [accessComplete, accessing, and_eq_true, GenBusPhase.beq_eq_decide,
      decide_eq_true_eq] at hdone
    simp [step, engineNext, hdone.1, accessNext, hdone.2, ownerIsFetch, hown]

/-- A translation that nobody has dropped and that has not failed goes on, to the access. -/
theorem translateNext_goes (htranslate : s.stateQ = .translate)
    (hcan : s.fetchCancelled i = false) (hdone : s.ownerCompletion p i = false) :
    (s.translateNext p i).stateQ = .translate ∨ (s.translateNext p i).stateQ = .access := by
  rw [ownerCompletion, Bool.or_eq_false_iff, translationPageFault, Bool.or_eq_false_iff] at hdone
  obtain ⟨⟨hflt, hpage⟩, hacs⟩ := hdone
  have hmarked : (s.marked p i).stateQ = .translate := htranslate
  cases hbare : s.translationBare with
  | true => simp [translateNext, hbare, hcan, translated]
  | false =>
  cases hhit : s.tlbLookupHit p i with
  | true =>
    have hallowed : s.tlbLookupPageFault p i = false := by
      simpa [tlbFaultComplete, translating, htranslate, hhit] using hflt
    simp [translateNext, hbare, hhit, hcan, hallowed, translated]
  | false =>
  cases hrsp : s.ptwRespValid p i with
  | false => simp [translateNext, hbare, hhit, hrsp, hmarked]
  | true =>
  cases hstale : s.ptwStale i with
  | true => simp [translateNext, hbare, hhit, hrsp, hstale, hmarked]
  | false =>
    have husable : s.ptwResponseUsable p i := by
      simp [ptwResponseUsable, ptwTranslationComplete, translating, htranslate, hrsp, hstale]
    rw [translationAccessFault, husable, Bool.true_and] at hacs
    rw [husable, Bool.true_and] at hpage
    simp [translateNext, hbare, hhit, hrsp, hstale, hcan, translationFault, hpage, hacs, translated]

theorem step_of_waiting (hacs : s.stateQ = .access) (hwait : i.reqReadyI = false) :
    (s.step p i).stateQ = .access := by
  rw [step_stateQ, engineNext, hacs]
  simpa [accessNext, hwait, marked] using hacs

/-- Until its answer a data access stays in the engine. -/
theorem step_of_busy (hbsy : s.lsuBusy) (hrdy : s.lsuReadyO p i = false) :
    (s.step p i).lsuBusy ∧ (s.step p i).requestQ = s.requestQ := by
  obtain ⟨hst, hown⟩ := lsuBusy_iff.mp hbsy
  have hnot : s.ownerCompletion p i = false ∧ s.accessComplete i = false := by
    simpa [lsuReadyO, ownerIsFetch, hown] using hrdy
  rcases hst with hst | hst
  · have hnxt : s.engineNext p i = s.translateNext p i := by simp [engineNext, hst]
    obtain ⟨hkeepO, hkeepR⟩ := translateNext_keeps (p := p) (s := s) (i := i)
    refine ⟨lsuBusy_iff.mpr ⟨?_, ?_⟩, ?_⟩
    · rw [step_stateQ, hnxt]
      exact translateNext_goes hst (fetchCancelled_of_lsu hown) hnot.1
    · rw [step_ownerQ, hnxt, hkeepO, hown]
    · rw [step_requestQ, hnxt, hkeepR]
  have hwait : i.reqReadyI = false := by
    simpa [accessComplete, accessing, hst] using hnot.2
  have hnxt : s.engineNext p i = s.marked p i := by
    simp [engineNext, hst, accessNext, hwait]
  refine ⟨lsuBusy_iff.mpr ⟨?_, ?_⟩, ?_⟩
  · rw [step_stateQ, hnxt]
    exact .inr hst
  · rw [step_ownerQ, hnxt]
    exact hown
  · rw [step_requestQ, hnxt]
    rfl

/-- Nothing but a data request makes the engine busy with one. -/
theorem step_of_not_taken (hbsy : s.lsuBusy = false) (htaken : s.lsuTaken i = false) :
    (s.step p i).lsuBusy = false := by
  cases hst : s.stateQ with
  | idle =>
    have hval : i.lsuValidI = false := by simpa [lsuTaken, lsuFree, hst] using htaken
    have hnxt : s.engineNext p i = s.idleNext i := by simp [engineNext, hst]
    rw [lsuBusy, ownerIsFetch, step_stateQ, step_ownerQ, hnxt, idleNext, hval]
    cases hfetch : (i.fetchValidI && !i.fetchCancelI) <;> simp [begin, hst]
  | translate =>
    have hown : s.ownerQ = .fetch := by
      cases hown : s.ownerQ with
      | fetch => rfl
      | lsu => simp [lsuBusy, ownerIsFetch, hst, hown] at hbsy
    have hnxt : s.engineNext p i = s.translateNext p i := by simp [engineNext, hst]
    simp [lsuBusy, ownerIsFetch, step_ownerQ, hnxt, translateNext_keeps.1, hown]
  | access =>
    have hown : s.ownerQ = .fetch := by
      cases hown : s.ownerQ with
      | fetch => rfl
      | lsu => simp [lsuBusy, ownerIsFetch, hst, hown] at hbsy
    have hnxt : s.engineNext p i = s.accessNext p i := by simp [engineNext, hst]
    have hmarked : (s.marked p i).ownerQ = .fetch := hown
    rw [lsuBusy, ownerIsFetch, step_stateQ, step_ownerQ, hnxt, accessNext]
    cases hrdy : i.reqReadyI with
    | false => simp [hmarked]
    | true =>
      have hval : i.lsuValidI = false := by
        simpa [lsuTaken, lsuFree, accessComplete, accessing, hst, hrdy, ownerIsFetch,
          hown] using htaken
      cases hsucc : (s.ownerIsFetch && !s.fetchCancelled i && i.fetchNextValidI) <;>
        simp [hval, begin]

theorem miss_of_reqFire (hfire : s.ptw.reqFire (s.ptwInput p i)) :
    s.stateQ = .translate ∧ s.translationBare = false ∧
      ∀ tlbi, s.tlb.lookup p.tlbEntries tlbi (some s.xlateRequest) = none := by
  rw [reqFire_eq, and_eq_true] at hfire
  obtain ⟨hval, hrdy⟩ := hfire
  simp only [ptwReqValid, translating, and_eq_true, not_eq_true',
    GenBusPhase.beq_eq_decide, decide_eq_true_eq] at hval
  obtain ⟨⟨htranslate, hbare⟩, hmiss⟩ := hval
  have htlbi : i.tlbiI = false := by
    refine eq_false_of_ne_true fun htlbi => ?_
    simp [ptwReqReady, PtwState.reqReadyO, ptwInput, htlbi] at hrdy
  rw [tlbLookupHit, tlbLookup_eq htranslate hbare, htlbi, Option.isSome_eq_false_iff,
    Option.isNone_iff_eq_none] at hmiss
  refine ⟨htranslate, hbare, fun tlbi => ?_⟩
  cases tlbi with
  | true => rfl
  | false => exact hmiss

/-- The walker stays at work for the request in the engine alone. -/
theorem WalkOwned.step (h : WalkOwned p s) : WalkOwned p (s.step p i) := by
  constructor
  intro hph
  have hopen := mt (PtwState.phase_step_idle (p := p.ptw) (i := s.ptwInput p i)) hph
  have hquiet : s.ptwRespValid p i = false := by
    refine eq_false_of_ne_true fun hrsp => ?_
    exact absurd (.inr (h.respFire hrsp)) hopen
  have hmiss : s.stateQ = .translate ∧ s.translationBare = false ∧
      ∀ tlbi, s.tlb.lookup p.tlbEntries tlbi (some s.xlateRequest) = none := by
    by_cases hidle : s.ptw.walker.phase = .idle
    · cases hfire : s.ptw.reqFire (s.ptwInput p i) with
      | false => exact absurd (.inl ⟨hidle, hfire⟩) hopen
      | true => exact miss_of_reqFire hfire
    · exact h.owned hidle
  obtain ⟨htranslate, hbare, hnone⟩ := hmiss
  have hnxt : s.engineNext p i = s.marked p i := by
    have hhit : s.tlbLookupHit p i = false := by
      rw [tlbLookupHit, tlbLookup_eq htranslate hbare, hnone]
      rfl
    simp [engineNext, htranslate, translateNext, hbare, hhit, hquiet]
  have hreq : (s.step p i).xlateRequest = s.xlateRequest := by
    simp [xlateRequest, ptwReqAccess, ownerIsFetch, step_ownerQ, step_requestQ, hnxt, marked]
  refine ⟨by rw [step_stateQ, hnxt]; exact htranslate,
    by rw [translationBare, hreq]; exact hbare, fun tlbi => ?_⟩
  have hfill : s.tlbFill p i = none := by
    simp [tlbFill, ptwResponseUsable, ptwTranslationComplete, hquiet]
  rw [hreq]
  change (s.tlb.stepInTurn p.tlbEntries i.tlbiI (s.tlbFill p i)).lookup _ _ _ = none
  rw [hfill]
  cases htlbi : i.tlbiI with
  | true => exact TaggedTlb.lookup_flushed
  | false => exact hnone tlbi

theorem walkOwned_reset (powerUp : PtwState) : WalkOwned p (reset powerUp) :=
  ⟨fun hph => absurd rfl hph⟩

/-- When the engine takes a request no walk of an earlier one is under way. -/
theorem WalkOwned.idle_of_taken (h : WalkOwned p s) (htaken : s.lsuTaken i) :
    s.ptw.walker.phase = .idle := by
  by_contra hph
  simp [lsuTaken, lsuFree, accessComplete, accessing, (h.owned hph).1] at htaken

/-! ### Progress of a data request -/

/-- How far a data request that waits is from its answer.  The engine may have to finish a
fetch first. -/
def ahead (s : GenBusState) : ℕ :=
  match s.lsuBusy, s.stateQ with
  | true, .translate => 1
  | true, _ => 0
  | false, .idle => 2
  | false, .access => 3
  | false, .translate => 4

/-- What keeps it there: a translation, or memory. -/
def Stalls (s : GenBusState) (i : GenBusInput) : Prop :=
  s.stateQ = .translate ∨ s.stateQ = .access ∧ i.reqReadyI = false

theorem ahead_of_busy (hbsy : s.lsuBusy) : s.ahead = if s.stateQ = .translate then 1 else 0 := by
  rw [ahead, hbsy]
  cases s.stateQ <;> rfl

theorem ahead_of_free (hfree : s.lsuBusy = false) :
    s.ahead = if s.stateQ = .idle then 2 else if s.stateQ = .access then 3 else 4 := by
  rw [ahead, hfree]
  cases s.stateQ <;> rfl

theorem busy_of_taken (h : s.lsuTaken i) : (s.step p i).lsuBusy ∧ (s.step p i).ahead = 1 := by
  obtain ⟨hst, hown, -⟩ := step_of_taken (p := p) h
  have hbsy := lsuBusy_iff.mpr ⟨.inl hst, hown⟩
  exact ⟨hbsy, by rw [ahead_of_busy hbsy, if_pos hst]⟩

/-- A request that is held comes nearer to its answer, or it stalls. -/
theorem ahead_step (hval : i.lsuValidI) (hrdy : s.lsuReadyO p i = false) :
    (s.step p i).ahead < s.ahead ∨ ((s.step p i).ahead = s.ahead ∧ s.Stalls i) := by
  cases hbsy : s.lsuBusy with
  | true =>
    have hbsy' := (step_of_busy hbsy hrdy).1
    obtain ⟨hst, hown⟩ := lsuBusy_iff.mp hbsy
    rw [ahead_of_busy hbsy, ahead_of_busy hbsy']
    rcases hst with hst | hst
    · rw [if_pos hst]
      split_ifs
      · exact .inr ⟨rfl, .inl hst⟩
      · exact .inl Nat.zero_lt_one
    have hwait : i.reqReadyI = false := by
      have hnot : s.ownerCompletion p i = false ∧ s.accessComplete i = false := by
        simpa [lsuReadyO, ownerIsFetch, hown] using hrdy
      simpa [accessComplete, accessing, hst] using hnot.2
    rw [step_of_waiting hst hwait, hst]
    exact .inr ⟨rfl, .inr ⟨hst, hwait⟩⟩
  | false =>
    rw [ahead_of_free hbsy]
    cases htaken : s.lsuTaken i with
    | true =>
      rw [(busy_of_taken htaken).2]
      cases s.stateQ <;> exact .inl (by decide)
    | false =>
      rw [ahead_of_free (step_of_not_taken hbsy htaken)]
      cases hst : s.stateQ with
      | idle => simp [lsuTaken, lsuFree, hst, hval] at htaken
      | access =>
        have hown : s.ownerIsFetch := by
          simpa [lsuBusy, hst] using hbsy
        have hwait : i.reqReadyI = false := by
          simpa [lsuTaken, lsuFree, hst, hval, accessComplete, accessing, hown] using htaken
        rw [step_of_waiting hst hwait]
        exact .inr ⟨rfl, .inr ⟨hst, hwait⟩⟩
      | translate =>
      cases hnxt : (s.step p i).stateQ with
      | idle => exact .inl (by decide)
      | access => exact .inl (by decide)
      | translate => exact .inr ⟨rfl, .inl hst⟩

/-- The distance tells in which phase the engine is. -/
theorem ahead_eq (s : GenBusState) : s.stateQ =
    if s.ahead = 1 ∨ s.ahead = 4 then .translate else if s.ahead = 2 then .idle else .access := by
  cases hbsy : s.lsuBusy with
  | true =>
    rw [ahead_of_busy hbsy]
    rcases (lsuBusy_iff.mp hbsy).1 with hst | hst <;> rw [hst] <;> rfl
  | false =>
    rw [ahead_of_free hbsy]
    cases s.stateQ <;> rfl

end GenBusState

/-- The generic bus from reset. -/
def genBus (p : GenBusParams) : Sync.Circuit GenBusState GenBusInput where
  Init s := ∃ powerUp, s = GenBusState.reset powerUp
  step s i := s.step p i

end OpenRV64
