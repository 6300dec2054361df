/-
The directory records a superset of the private copies: from the response of a
private fill until the copy is given up, the entry of its line keeps the
sharer bit.
-/
import OpenRV64.CoherentProtocol

namespace OpenRV64

open ProbeTrackerState SnoopFilterInput SnoopFilterState Sync
open Bool (and_eq_true not_eq_true or_eq_true)

namespace CoherentState

variable {p : CoherentParams}

/-! ## Handshakes that create and release a private copy -/

/-- The source ID of a private cache. -/
def sourceOf : PrivateCache → BitVec 2
  | .icache => icxSourceIcache
  | .dcache => icxSourceDcache

/-- The cache mask of a probe names cache `c`. -/
def maskNames (mask : BitVec 2) : PrivateCache → Bool
  | .icache => mask.getLsbD 0
  | .dcache => mask.getLsbD 1

theorem maskNames_append (d i : Bool) (c : PrivateCache) :
    maskNames (BitVec.ofBool d ++ BitVec.ofBool i) c =
      match c with
      | .icache => i
      | .dcache => d := by
  cases d <;> cases i <;> cases c <;> rfl

theorem maskNames_probeCacheD : maskNames icxProbeCacheD .dcache := by
  decide

/-- A cacheable READ or LR of cache `c` of hart `h` to `line` is answered
without error in this cycle. -/
structure Answered (c : PrivateCache) (line : BitVec 64) (h : Fin p.numHarts)
    (s : CoherentState p) (i : CoherentInput p) : Prop where
  fire : s.responseFire i = true
  noError : s.respErrorQ = false
  cacheable : s.requestCacheable = true
  op : s.reqOpQ = icxOpRead ∨ s.reqOpQ = icxOpLr
  source : s.reqSourceIdQ = sourceOf c
  hart : s.requestHartMask h = true
  line : s.requestLineAddr = line

/-- Hart `h` acknowledges a probe for `line` whose mask names cache `c`. -/
structure Acknowledged (c : PrivateCache) (line : BitVec 64)
    (h : Fin p.numHarts) (s : CoherentState p) (i : CoherentInput p) : Prop where
  busy : s.tracker.busyQ = true
  ack : s.tracker.ackMatches (s.trackerInput i) h = true
  line : s.tracker.lineAddrQ = line
  mask : maskNames s.tracker.cacheMaskQ c = true

/-- An SC of hart `h` to `line` passes `ST_DIR_CLEAR`. -/
structure ScCleared (line : BitVec 64) (h : Fin p.numHarts)
    (s : CoherentState p) : Prop where
  state : s.stateQ = .dirClear
  op : s.reqOpQ = icxOpSc
  hart : s.requestHartMask h = true
  line : s.requestLineAddr = line

/-- Hart `h` gives up its copy of `line` in cache `c`.  Only an acknowledged
probe releases an I$ copy. -/
def Released (c : PrivateCache) (line : BitVec 64) (h : Fin p.numHarts)
    (s : CoherentState p) (i : CoherentInput p) : Prop :=
  Acknowledged c line h s i ∨ (c = .dcache ∧ ScCleared line h s)

/-- The copies that were answered and have not been released since. -/
def Live (past : Past (CoherentState p) (CoherentInput p))
    (c : PrivateCache) (line : BitVec 64) (h : Fin p.numHarts) : Prop :=
  Since (Answered c line h) (Released c line h) past

/-- Every live copy has its sharer bit in a valid entry of its line. -/
def DirectorySound (past : Past (CoherentState p) (CoherentInput p)) (s : CoherentState p) : Prop :=
  ∀ c line h, Live past c line h → s.filter.Holds c line h

/-- The branches that lose a sharer are not taken: a fill records its sharer in
a way that the directory entry reaches, and a successful SC leaves
`ST_DIR_WAIT` for `ST_DIR_CLEAR` with another sharer only if it is cacheable. -/
def directorySafe (s : CoherentState p) (_ : CoherentInput p) : Bool :=
  (s.stateQ != .dirRecord || decide (p.wayReached (p.lineSet s.requestLineAddr)))
    && !(s.stateQ == .dirWait && s.reqOpQ == icxOpSc &&
      s.requestScReservationMatch && s.filter.lookupHitO &&
      s.writeProbeTargets.any && !s.requestCacheable)

/-! ## The invariant of a transaction -/

/-- The private copies that the surroundings still hold. -/
abbrev Copies (p : CoherentParams) := PrivateCache → BitVec 64 → Fin p.numHarts → Prop

/-- The directory entry register names way `w` of the set of the request. -/
def EntryIs (s : CoherentState p) (w : Fin p.ways) : Prop :=
  s.directoryEntryQ = p.entryOf (p.lineSet s.requestLineAddr) w

/-- A fill that missed is about to reuse way `w`. -/
structure Evicting (s : CoherentState p) (w : Fin p.ways) : Prop where
  entry : s.EntryIs w
  miss : ∀ w', ¬ s.filter.Names s.requestLineAddr w'
  fill : s.requestPrivateFill = true

/-- The entry in way `w` belongs to another line of the set of the request. -/
def VictimOf (s : CoherentState p) (line : BitVec 64) (w : Fin p.ways) : Prop :=
  p.lineSet line = p.lineSet s.requestLineAddr ∧ s.filter.Names line w

/-- A write that hit way `w` leaves a copy to its requester only. -/
structure Writing (s : CoherentState p) (w : Fin p.ways) : Prop where
  entry : s.EntryIs w
  names : s.filter.Names s.requestLineAddr w
  write : s.requestIsWrite = true

/-- No hart but the requester holds the line of the request. -/
def OnlyRequester (live : Copies p) (s : CoherentState p) : Prop :=
  ∀ h, live .dcache s.requestLineAddr h → s.requestHartMask h = true

/-- A write that must not meet another copy. -/
def requestExclusive (s : CoherentState p) : Bool := s.requestCoherentWrite || s.reqOpQ == icxOpSc

/-- What the home knows about the copies in each of its states. -/
def PhaseInv (live : Copies p) (s : CoherentState p) : Prop :=
  match s.stateQ with
  | .idle | .waitWdata | .dirLookup | .dirWait => True
  | .evictProbeStart =>
    ∃ w, s.Evicting w ∧ ∀ c line h, live c line h → s.VictimOf line w →
      s.probeLineAddrQ = line ∧ s.probeTargetQ h = true ∧ maskNames s.probeCacheMaskQ c = true
  | .evictProbeWait =>
    ∃ w, s.Evicting w ∧ ∀ c line h, live c line h → s.VictimOf line w →
      s.tracker.lineAddrQ = line ∧ s.tracker.busyQ = true ∧
        s.tracker.Outstanding h ∧ maskNames s.tracker.cacheMaskQ c = true
  | .dirAllocate =>
    ∃ w, s.Evicting w ∧ ∀ c line h, live c line h → ¬ s.VictimOf line w
  | .writeProbeStart =>
    ∃ w, s.Writing w ∧ s.probeLineAddrQ = s.requestLineAddr ∧
      maskNames s.probeCacheMaskQ .dcache = true ∧
      (∀ h, s.probeTargetQ h = true → s.requestHartMask h = false) ∧
      ∀ h, live .dcache s.requestLineAddr h → s.requestHartMask h = true ∨ s.probeTargetQ h = true
  | .writeProbeWait =>
    ∃ w, s.Writing w ∧ s.tracker.lineAddrQ = s.requestLineAddr ∧
      maskNames s.tracker.cacheMaskQ .dcache = true ∧
      (∀ h, s.probeTargetQ h = true → s.requestHartMask h = false) ∧
      ∀ h, live .dcache s.requestLineAddr h → s.requestHartMask h = true ∨
        (s.tracker.busyQ = true ∧ s.tracker.Outstanding h)
  | .dirClear =>
    ∃ w, s.Writing w ∧ (∀ h, s.probeTargetQ h = true → s.requestHartMask h = false) ∧
      OnlyRequester live s
  | .l2Req | .l2Wdata | .l2Resp =>
    (s.requestPrivateFill = true → ∃ w, s.EntryIs w ∧
      (p.wayReached (p.lineSet s.requestLineAddr) → s.filter.Names s.requestLineAddr w)) ∧
    (s.requestExclusive = true → OnlyRequester live s)
  | .dirRecord =>
    s.requestPrivateFill = true ∧ ∃ w, s.EntryIs w ∧
      (p.wayReached (p.lineSet s.requestLineAddr) → s.filter.Names s.requestLineAddr w)
  | .resp =>
    s.requestPrivateFill = true → s.respErrorQ = false →
      ∀ c h, s.reqSourceIdQ = sourceOf c → s.requestHartMask h = true →
        s.filter.Holds c s.requestLineAddr h

/-- The states in which the registered image shows the set of the request. -/
def looked : HomeState → Bool
  | .idle | .waitWdata | .dirLookup | .resp => false
  | _ => true

structure HomeInv (live : Copies p) (s : CoherentState p) : Prop where
  wellFormed : s.filter.WellFormed
  settled : s.tracker.Settled
  initIdle : s.stateQ ≠ .idle → s.filter.initBusyQ = false
  image : looked s.stateQ = true → s.filter.ImageOf s.requestLineAddr
  aligned : ∀ c line h, live c line h → lineAddr line = line
  started : ∀ c line h, live c line h → s.filter.initBusyQ = false
  holds : ∀ c line h, live c line h → s.filter.Holds c line h
  phase : PhaseInv live s

/-! ## One cycle -/

/-- The request registers hold while a transaction is in progress. -/
structure SameRequest (s s' : CoherentState p) : Prop where
  hartId : s'.reqHartIdQ = s.reqHartIdQ
  sourceId : s'.reqSourceIdQ = s.reqSourceIdQ
  op : s'.reqOpQ = s.reqOpQ
  attr : s'.reqAttrQ = s.reqAttrQ
  addr : s'.reqAddrQ = s.reqAddrQ

theorem sameRequest_step {s : CoherentState p} (hst : s.stateQ ≠ .idle)
    (i : CoherentInput p) : SameRequest s (s.step i) := by
  have hresponse : SameRequest s (s.directoryResponse i) := by
    simp only [directoryResponse]
    repeat' split
    all_goals exact ⟨rfl, rfl, rfl, rfl, rfl⟩
  have hhome : SameRequest s (s.home i) := by
    rw [home]
    split
    case h_1 h => exact absurd h hst
    all_goals repeat' split
    all_goals first
      | exact hresponse
      | exact ⟨rfl, rfl, rfl, rfl, rfl⟩
  exact ⟨hhome.hartId, hhome.sourceId, hhome.op, hhome.attr, hhome.addr⟩

section SameRequest

variable {s s' : CoherentState p} (h : SameRequest s s')
include h

theorem SameRequest.requestLineAddr : s'.requestLineAddr = s.requestLineAddr := by
  rw [CoherentState.requestLineAddr, h.addr]
  rfl

theorem SameRequest.requestHartMask : s'.requestHartMask = s.requestHartMask := by
  funext x
  rw [CoherentState.requestHartMask, h.hartId]
  rfl

theorem SameRequest.requestCacheable : s'.requestCacheable = s.requestCacheable := by
  rw [CoherentState.requestCacheable, h.attr]
  rfl

theorem SameRequest.requestPrivateFill : s'.requestPrivateFill = s.requestPrivateFill := by
  rw [CoherentState.requestPrivateFill, h.requestCacheable, h.op, h.sourceId]
  rfl

theorem SameRequest.requestIsWrite : s'.requestIsWrite = s.requestIsWrite := by
  rw [CoherentState.requestIsWrite, h.op]
  rfl

theorem SameRequest.requestCoherentWrite : s'.requestCoherentWrite = s.requestCoherentWrite := by
  rw [CoherentState.requestCoherentWrite, h.requestCacheable, h.requestIsWrite]
  rfl

theorem SameRequest.requestExclusive : s'.requestExclusive = s.requestExclusive := by
  rw [CoherentState.requestExclusive, h.requestCoherentWrite, h.op]
  rfl

end SameRequest

/-- How the copies change in one cycle: a copy is new or was kept. -/
def CopiesStep (live live' : Copies p) (s : CoherentState p) (i : CoherentInput p) : Prop :=
  ∀ c line h, live' c line h → Answered c line h s i ∨ (live c line h ∧ ¬ Released c line h s i)

section Step

variable {live live' : Copies p} {s : CoherentState p} {i : CoherentInput p}

theorem Answered.resp {c : PrivateCache} {line : BitVec 64}
    {h : Fin p.numHarts} (ha : Answered c line h s i) : s.stateQ = .resp := by
  have hfire := ha.fire
  simp only [responseFire, respValidO, and_eq_true, beq_iff_eq] at hfire
  exact hfire.1

/-- Outside `ST_RESP` copies only go away. -/
theorem CopiesStep.kept (hlive : CopiesStep live live' s i)
    (hst : s.stateQ ≠ .resp) {c : PrivateCache} {line : BitVec 64}
    {h : Fin p.numHarts} (h' : live' c line h) : live c line h ∧ ¬ Released c line h s i := by
  rcases hlive c line h h' with ha | hkept
  · exact absurd ha.resp hst
  · exact hkept

theorem filter_lookupFire (hst : s.stateQ ≠ .dirLookup) :
    s.filter.lookupFire s.filterInput = false := by
  simp [lookupFire, filterInput, hst]

theorem filter_no_write (halloc : s.stateQ ≠ .dirAllocate)
    (hclr : s.stateQ ≠ .dirClear) (hrec : s.stateQ ≠ .dirRecord) :
    s.filterInput.writeValidI = false := by
  simp [filterInput, halloc, hclr, hrec]

theorem directoryRecord_requester {c : PrivateCache} {h : Fin p.numHarts}
    (hsrc : s.reqSourceIdQ = sourceOf c) (hmask : s.requestHartMask h) :
    s.directoryRecord (sourceOf c) h := by
  have hrng := p.hartId_ok
  have hlt := h.isLt
  simp only [requestHartMask, CoherentParams.hartId, beq_iff_eq] at hmask
  simp only [directoryRecord, hsrc, hmask, beq_self_eq_true, Bool.true_and,
    beq_iff_eq, BitVec.toNat_sub, BitVec.toNat_ofNat]
  omega

theorem requestPrivateFill_of_isWrite (h : s.requestIsWrite) : s.requestPrivateFill = false := by
  simp only [requestIsWrite, or_eq_true, beq_iff_eq] at h
  rcases h with h | h <;>
    simp [requestPrivateFill, h, icxOpWrite, icxOpSc, icxOpRead, icxOpLr]

theorem requestExclusive_isWrite (h : s.requestExclusive) : s.requestIsWrite := by
  simp only [requestExclusive, requestCoherentWrite, or_eq_true, and_eq_true, beq_iff_eq] at h
  rcases h with h | h
  · exact h.2
  · simp [requestIsWrite, h]

theorem wellFormed_step (hinv : HomeInv live s) : (s.step i).filter.WellFormed := by
  by_cases hbsy : s.filter.initBusyQ
  · exact hinv.wellFormed.step_of_init hbsy
  simp only [not_eq_true] at hbsy
  have hph := hinv.phase
  by_cases halloc : s.stateQ = .dirAllocate
  · simp only [PhaseInv, halloc] at hph
    obtain ⟨w, hevict, -⟩ := hph
    exact hinv.wellFormed.step_of_allocate hbsy (by simp [filterInput, halloc])
      (by simp [filterInput, halloc]) hevict.entry rfl hevict.miss
  have himg : s.stateQ = .dirClear ∨ s.stateQ = .dirRecord →
      s.filter.ImageOf s.requestLineAddr := by
    rintro (h | h) <;> exact hinv.image (by simp [looked, h])
  by_cases hclr : s.stateQ = .dirClear
  · simp only [PhaseInv, hclr] at hph
    obtain ⟨w, hwriting, -, -⟩ := hph
    exact hinv.wellFormed.step_of_update hbsy (himg (.inl hclr))
      (by simp [filterInput, hclr]) (by simp [filterInput, halloc]) rfl
      hwriting.entry rfl
  by_cases hrec : s.stateQ = .dirRecord
  · simp only [PhaseInv, hrec] at hph
    obtain ⟨-, w, hent, -⟩ := hph
    exact hinv.wellFormed.step_of_update hbsy (himg (.inr hrec))
      (by simp [filterInput, hrec]) (by simp [filterInput, halloc]) rfl
      hent rfl
  exact hinv.wellFormed.step_of_no_write hbsy (filter_no_write halloc hclr hrec)

/-- A copy that is not released in this cycle keeps its sharer bit. -/
theorem holds_step (hinv : HomeInv live s) {c : PrivateCache}
    {line : BitVec 64} {h : Fin p.numHarts} (hlive : live c line h)
    (hsafe : directorySafe s i)
    (hreleased : ¬ Released c line h s i) : (s.step i).filter.Holds c line h := by
  have hholds := hinv.holds c line h hlive
  have hbsy := hinv.started c line h hlive
  have hph := hinv.phase
  by_cases halloc : s.stateQ = .dirAllocate
  · simp only [PhaseInv, halloc] at hph
    obtain ⟨w, hevict, hnone⟩ := hph
    exact hholds.step_of_allocate hbsy (by simp [filterInput, halloc])
      hevict.entry rfl fun hset hname => hnone c line h hlive ⟨hset, hname⟩
  by_cases hclr : s.stateQ = .dirClear
  · simp only [PhaseInv, hclr] at hph
    obtain ⟨w, hwriting, htgt, honly⟩ := hph
    refine hholds.step_of_update ⟨hbsy, hinv.image (by simp [looked, hclr]),
      by simp [filterInput, hclr], by simp [filterInput, hclr], rfl, hwriting.entry, rfl⟩
      hwriting.names fun hline => ?_
    cases c with
    | icache => rfl
    | dcache =>
      have hown : line = s.requestLineAddr := by
        rw [← hinv.aligned _ _ _ hlive, hline, requestLineAddr, lineAddr_idem]
      subst hown
      have hmask := honly h hlive
      have hnotTarget : s.probeTargetQ h = false := by
        by_contra hbit
        have := htgt h (by simpa using hbit)
        simp [hmask] at this
      have hop : s.reqOpQ ≠ icxOpSc := fun hop =>
        hreleased (.inr ⟨rfl, hclr, hop, hmask, rfl⟩)
      simp [writeClear, filterInput, hop, hnotTarget]
  by_cases hrec : s.stateQ = .dirRecord
  · simp only [PhaseInv, hrec] at hph
    obtain ⟨-, w, hent, hname⟩ := hph
    have hreach : p.wayReached (p.lineSet s.requestLineAddr) := by
      simpa [directorySafe, hrec] using hsafe
    refine hholds.step_of_update ⟨hbsy, hinv.image (by simp [looked, hrec]),
      by simp [filterInput, hrec], by simp [filterInput, hrec], rfl, hent, rfl⟩
      (hname hreach) fun _ => ?_
    cases c <;> simp [writeClear, filterInput, hrec]
  exact hholds.step_of_no_write hbsy (filter_no_write halloc hclr hrec)

theorem filter_names_step (hinv : HomeInv live s) (hidle : s.stateQ ≠ .idle)
    (halloc : s.stateQ ≠ .dirAllocate) (hclr : s.stateQ ≠ .dirClear)
    (hrec : s.stateQ ≠ .dirRecord) (line : BitVec 64) (w : Fin p.ways) :
    (s.step i).filter.Names line w ↔ s.filter.Names line w :=
  names_step_of_no_write (hinv.initIdle hidle) (filter_no_write halloc hclr hrec)

theorem EntryIs.step {w : Fin p.ways} (hent : s.EntryIs w) (hsame : SameRequest s (s.step i))
    (hreg : (s.step i).directoryEntryQ = s.directoryEntryQ) : (s.step i).EntryIs w := by
  rw [EntryIs, hreg, hsame.requestLineAddr]
  exact hent

theorem Evicting.step {w : Fin p.ways} (hevict : s.Evicting w) (hsame : SameRequest s (s.step i))
    (hreg : (s.step i).directoryEntryQ = s.directoryEntryQ)
    (hnames : ∀ line w, (s.step i).filter.Names line w ↔ s.filter.Names line w) :
    (s.step i).Evicting w where
  entry := hevict.entry.step hsame hreg
  miss := fun w' => by
    rw [hsame.requestLineAddr, hnames]
    exact hevict.miss w'
  fill := by
    rw [hsame.requestPrivateFill]
    exact hevict.fill

theorem Writing.step {w : Fin p.ways} (hwriting : s.Writing w) (hsame : SameRequest s (s.step i))
    (hreg : (s.step i).directoryEntryQ = s.directoryEntryQ)
    (hnames : ∀ line w, (s.step i).filter.Names line w ↔ s.filter.Names line w) :
    (s.step i).Writing w where
  entry := hwriting.entry.step hsame hreg
  names := by
    rw [hsame.requestLineAddr, hnames]
    exact hwriting.names
  write := by
    rw [hsame.requestIsWrite]
    exact hwriting.write

theorem victimOf_step (hsame : SameRequest s (s.step i))
    (hnames : ∀ line w, (s.step i).filter.Names line w ↔ s.filter.Names line w)
    (line : BitVec 64) (w : Fin p.ways) : (s.step i).VictimOf line w ↔ s.VictimOf line w := by
  rw [VictimOf, VictimOf, hsame.requestLineAddr, hnames]

theorem OnlyRequester.step (hlive : CopiesStep live live' s i)
    (hsame : SameRequest s (s.step i)) (hrsp : s.stateQ ≠ .resp)
    (honly : OnlyRequester live s) : OnlyRequester live' (s.step i) := by
  intro h hh
  rw [hsame.requestLineAddr] at hh
  rw [hsame.requestHartMask]
  exact honly h (hlive.kept hrsp hh).1

/-- A lane of the tracker that still belongs to a copy stays outstanding. -/
theorem outstanding_step (hinv : HomeInv live s) (hlive : CopiesStep live live' s i)
    (hrsp : s.stateQ ≠ .resp) {c : PrivateCache} {line : BitVec 64}
    {h : Fin p.numHarts} (hcopy : live' c line h)
    (hline : s.tracker.lineAddrQ = line) (hbsy : s.tracker.busyQ)
    (hout : s.tracker.Outstanding h)
    (hmask : maskNames s.tracker.cacheMaskQ c) :
    (s.step i).tracker.busyQ ∧ (s.step i).tracker.Outstanding h := by
  have hack : s.tracker.ackMatches (s.trackerInput i) h = false := by
    by_contra hack
    exact (hlive.kept hrsp hcopy).2 (.inl ⟨hbsy, by simpa using hack, hline, hmask⟩)
  have hnxt : (s.step i).tracker.Outstanding h := outstanding_step_of_busy hbsy hout hack
  refine ⟨?_, hnxt⟩
  by_contra hidle
  have hsettled : (s.step i).tracker.Settled := hinv.settled.step _
  exact hsettled.quiet (by simpa using hidle) h hnxt

/-- The tracker takes over the probe registers of the home. -/
theorem tracker_started (hstart : s.tracker.startFire (s.trackerInput i)) :
    (s.step i).tracker.lineAddrQ = s.probeLineAddrQ ∧
      (s.step i).tracker.cacheMaskQ = s.probeCacheMaskQ ∧ (s.step i).tracker.busyQ := by
  refine ⟨?_, ?_, ?_⟩
  · exact (lineAddrQ_step _ _).trans (if_pos hstart)
  · exact (cacheMaskQ_step _ _).trans (if_pos hstart)
  · simp only [step, ProbeTrackerState.step, hstart, if_true]

theorem tracker_held (hstart : s.tracker.startFire (s.trackerInput i) = false) :
    (s.step i).tracker.lineAddrQ = s.tracker.lineAddrQ ∧
      (s.step i).tracker.cacheMaskQ = s.tracker.cacheMaskQ := by
  constructor
  · exact (lineAddrQ_step _ _).trans (by simp [hstart])
  · exact (cacheMaskQ_step _ _).trans (by simp [hstart])

/-- The probe registers hold until the tracker takes them. -/
theorem probeRegs_step (hst : s.stateQ = .evictProbeStart ∨ s.stateQ = .writeProbeStart) :
    (s.step i).directoryEntryQ = s.directoryEntryQ ∧ (s.step i).probeTargetQ = s.probeTargetQ ∧
      (s.step i).probeLineAddrQ = s.probeLineAddrQ ∧
      (s.step i).probeCacheMaskQ = s.probeCacheMaskQ := by
  rcases hst with h | h <;> simp only [step, home, h] <;> split <;>
    exact ⟨rfl, rfl, rfl, rfl⟩

/-! ## Each state of the home -/

theorem phase_of_quiet {s : CoherentState p}
    (h : s.stateQ = .idle ∨ s.stateQ = .waitWdata ∨ s.stateQ = .dirLookup ∨
      s.stateQ = .dirWait) : PhaseInv live s := by
  rcases h with h | h | h | h <;> simp [PhaseInv, h]

theorem phase_step_idle (hst : s.stateQ = .idle) : PhaseInv live' (s.step i) := by
  by_cases hfire : s.requestFire i
  · by_cases hop : i.reqOpI = icxOpWrite ∨ i.reqOpI = icxOpSc
    · exact phase_of_quiet (by simp [step, home, hst, hfire, acceptRequest, hop])
    by_cases herr : requestProtocolError p i
    · have hnxt : (s.step i).stateQ = .resp := by
        simp [step, home, hst, hfire, acceptRequest, hop, herr]
      have hrespError : (s.step i).respErrorQ := by
        simp [step, home, hst, hfire, acceptRequest, herr]
      simp [PhaseInv, hnxt, hrespError]
    · exact phase_of_quiet (by
        simp [step, home, hst, hfire, acceptRequest, hop, herr])
  · exact phase_of_quiet (by simp [step, home, hst, hfire])

theorem phase_step_waitWdata (hst : s.stateQ = .waitWdata) : PhaseInv live' (s.step i) := by
  by_cases hfire : s.wdataFire i
  · by_cases herr : (s.commandErrorQ || s.wdataProtocolError i)
    · have hnxt : (s.step i).stateQ = .resp := by
        simp only [step, home, hst, hfire, herr, if_true]
      have hrespError : (s.step i).respErrorQ := by
        simp only [step, home, hst, hfire, herr, if_true]
      simp [PhaseInv, hnxt, hrespError]
    · exact phase_of_quiet (by simp only [step, home, hst, hfire, herr]; simp)
  · exact phase_of_quiet (by simp [step, home, hst, hfire])

theorem phase_step_dirLookup (hst : s.stateQ = .dirLookup) : PhaseInv live' (s.step i) := by
  refine phase_of_quiet ?_
  by_cases hrdy : s.filter.lookupReadyO s.filterInput <;>
    simp [step, home, hst, hrdy]

section

variable (hinv : HomeInv live s)
include hinv

theorem phase_step_evictProbeStart (hlive : CopiesStep live live' s i)
    (hst : s.stateQ = .evictProbeStart) : PhaseInv live' (s.step i) := by
  have hsame := sameRequest_step (by simp [hst] : s.stateQ ≠ .idle) i
  have hnames := filter_names_step (i := i) hinv (by simp [hst])
    (by simp [hst]) (by simp [hst]) (by simp [hst])
  have hph := hinv.phase
  simp only [PhaseInv, hst] at hph
  obtain ⟨w, hevict, hplan⟩ := hph
  obtain ⟨hreg, htargets, haddr, hcache⟩ := probeRegs_step (i := i) (.inl hst)
  have hkept : ∀ c line h, live' c line h → (s.step i).VictimOf line w →
      s.probeLineAddrQ = line ∧ s.probeTargetQ h ∧ maskNames s.probeCacheMaskQ c := by
    intro c line h hcopy hvic
    exact hplan c line h (hlive.kept (by simp [hst]) hcopy).1
      ((victimOf_step hsame hnames line w).mp hvic)
  by_cases hrdy : s.tracker.startReadyO
  · have hnxt : (s.step i).stateQ = .evictProbeWait := by
      simp [step, home, hst, hrdy]
    have hstart : s.tracker.startFire (s.trackerInput i) := by
      simp [startFire, trackerInput, hst, hrdy]
    simp only [PhaseInv, hnxt]
    refine ⟨w, hevict.step hsame hreg hnames, ?_⟩
    intro c line h hcopy hvic
    obtain ⟨hline, htgt, hmask⟩ := hkept c line h hcopy hvic
    obtain ⟨haddr', hcache', hbsy⟩ := tracker_started hstart
    refine ⟨haddr'.trans hline, hbsy, ?_, by rwa [hcache']⟩
    exact (outstanding_step_of_start hstart h).mpr htgt
  have hnxt : (s.step i).stateQ = .evictProbeStart := by
    simp [step, home, hst, hrdy]
  simp only [PhaseInv, hnxt]
  refine ⟨w, hevict.step hsame hreg hnames, ?_⟩
  rw [htargets, haddr, hcache]
  exact hkept

theorem phase_step_evictProbeWait (hlive : CopiesStep live live' s i)
    (hst : s.stateQ = .evictProbeWait) : PhaseInv live' (s.step i) := by
  have hsame := sameRequest_step (by simp [hst] : s.stateQ ≠ .idle) i
  have hnames := filter_names_step (i := i) hinv (by simp [hst])
    (by simp [hst]) (by simp [hst]) (by simp [hst])
  have hph := hinv.phase
  simp only [PhaseInv, hst] at hph
  obtain ⟨w, hevict, hplan⟩ := hph
  have hreg : (s.step i).directoryEntryQ = s.directoryEntryQ := by
    simp only [step, home, hst]
  have hstart : s.tracker.startFire (s.trackerInput i) = false := by
    simp [startFire, trackerInput, hst]
  have hkept : ∀ c line h, live' c line h → (s.step i).VictimOf line w →
      s.tracker.lineAddrQ = line ∧ s.tracker.busyQ ∧
        s.tracker.Outstanding h ∧ maskNames s.tracker.cacheMaskQ c := by
    intro c line h hcopy hvic
    exact hplan c line h (hlive.kept (by simp [hst]) hcopy).1
      ((victimOf_step hsame hnames line w).mp hvic)
  by_cases hdone : s.tracker.doneValidQ
  · have hnxt : (s.step i).stateQ = .dirAllocate := by
      simp [step, home, hst, hdone]
    simp only [PhaseInv, hnxt]
    refine ⟨w, hevict.step hsame hreg hnames, ?_⟩
    intro c line h hcopy hvic
    obtain ⟨-, hbsy, -⟩ := hkept c line h hcopy hvic
    simp [hinv.settled.idle_of_done hdone] at hbsy
  have hnxt : (s.step i).stateQ = .evictProbeWait := by
    simp [step, home, hst, hdone]
  simp only [PhaseInv, hnxt]
  refine ⟨w, hevict.step hsame hreg hnames, ?_⟩
  intro c line h hcopy hvic
  obtain ⟨hline, hbsy, hout, hmask⟩ := hkept c line h hcopy hvic
  obtain ⟨hbsy', hout'⟩ := outstanding_step hinv hlive (by simp [hst])
    hcopy hline hbsy hout hmask
  obtain ⟨haddr, hcache⟩ := tracker_held hstart
  exact ⟨haddr.trans hline, hbsy', hout', by rwa [hcache]⟩

theorem phase_step_dirAllocate (hst : s.stateQ = .dirAllocate) : PhaseInv live' (s.step i) := by
  have hsame := sameRequest_step (by simp [hst] : s.stateQ ≠ .idle) i
  have hph := hinv.phase
  simp only [PhaseInv, hst] at hph
  obtain ⟨w, hevict, -⟩ := hph
  have hnxt : (s.step i).stateQ = .l2Req := by simp [step, home, hst]
  have hreg : (s.step i).directoryEntryQ = s.directoryEntryQ := by
    simp only [step, home, hst]
  simp only [PhaseInv, hnxt]
  constructor
  · intro _
    refine ⟨w, hevict.entry.step hsame hreg, fun hreach => ?_⟩
    rw [hsame.requestLineAddr] at hreach ⊢
    exact names_step_of_allocate (hinv.initIdle (by simp [hst])) (by simp [filterInput, hst])
      (by simp [filterInput, hst]) hevict.entry rfl hreach
  · intro hexcl
    have hwr := requestExclusive_isWrite hexcl
    rw [hsame.requestIsWrite] at hwr
    have hfill := requestPrivateFill_of_isWrite hwr
    simp [hevict.fill] at hfill

section

variable (hlive : CopiesStep live live' s i)

include hlive

theorem phase_step_writeProbeStart (hst : s.stateQ = .writeProbeStart) :
    PhaseInv live' (s.step i) := by
  have hsame := sameRequest_step (by simp [hst] : s.stateQ ≠ .idle) i
  have hnames := filter_names_step (i := i) hinv (by simp [hst])
    (by simp [hst]) (by simp [hst]) (by simp [hst])
  have hph := hinv.phase
  simp only [PhaseInv, hst] at hph
  obtain ⟨w, hwriting, hline, hmask, htgt, hplan⟩ := hph
  obtain ⟨hreg, htargets, haddr, hcache⟩ := probeRegs_step (i := i) (.inr hst)
  have htgt' : ∀ h, (s.step i).probeTargetQ h → (s.step i).requestHartMask h = false := by
    rw [htargets, hsame.requestHartMask]
    exact htgt
  by_cases hrdy : s.tracker.startReadyO
  · have hnxt : (s.step i).stateQ = .writeProbeWait := by
      simp [step, home, hst, hrdy]
    have hstart : s.tracker.startFire (s.trackerInput i) := by
      simp [startFire, trackerInput, hst, hrdy]
    obtain ⟨haddr', hcache', hbsy⟩ := tracker_started hstart
    simp only [PhaseInv, hnxt]
    refine ⟨w, hwriting.step hsame hreg hnames, ?_, by rwa [hcache'], htgt', ?_⟩
    · rw [hsame.requestLineAddr]
      exact haddr'.trans hline
    · intro h hcopy
      rw [hsame.requestLineAddr] at hcopy
      rw [hsame.requestHartMask]
      refine (hplan h (hlive.kept (by simp [hst]) hcopy).1).imp_right ?_
      intro hbit
      exact ⟨hbsy, (outstanding_step_of_start hstart h).mpr hbit⟩
  have hnxt : (s.step i).stateQ = .writeProbeStart := by
    simp [step, home, hst, hrdy]
  simp only [PhaseInv, hnxt]
  refine ⟨w, hwriting.step hsame hreg hnames, ?_, by rwa [hcache], htgt', ?_⟩
  · rw [hsame.requestLineAddr, haddr]
    exact hline
  · intro h hcopy
    rw [hsame.requestLineAddr] at hcopy
    rw [hsame.requestHartMask, htargets]
    exact hplan h (hlive.kept (by simp [hst]) hcopy).1

theorem phase_step_writeProbeWait (hst : s.stateQ = .writeProbeWait) :
    PhaseInv live' (s.step i) := by
  have hsame := sameRequest_step (by simp [hst] : s.stateQ ≠ .idle) i
  have hnames := filter_names_step (i := i) hinv (by simp [hst])
    (by simp [hst]) (by simp [hst]) (by simp [hst])
  have hph := hinv.phase
  simp only [PhaseInv, hst] at hph
  obtain ⟨w, hwriting, hline, hmask, htgt, hplan⟩ := hph
  have hreg : (s.step i).directoryEntryQ = s.directoryEntryQ := by
    simp only [step, home, hst]
  have hstart : s.tracker.startFire (s.trackerInput i) = false := by
    simp [startFire, trackerInput, hst]
  have htgt' : ∀ h, (s.step i).probeTargetQ h → (s.step i).requestHartMask h = false := by
    rw [hsame.requestHartMask]
    simpa only [step, home, hst] using htgt
  have hkept : ∀ h, live' .dcache (s.step i).requestLineAddr h →
      (s.step i).requestHartMask h ∨ (s.tracker.busyQ ∧ s.tracker.Outstanding h) := by
    intro h hcopy
    rw [hsame.requestLineAddr] at hcopy
    rw [hsame.requestHartMask]
    exact hplan h (hlive.kept (by simp [hst]) hcopy).1
  by_cases hdone : s.tracker.doneValidQ
  · have hnxt : (s.step i).stateQ = .dirClear := by
      simp [step, home, hst, hdone]
    simp only [PhaseInv, hnxt]
    refine ⟨w, hwriting.step hsame hreg hnames, htgt', fun h hcopy => ?_⟩
    rcases hkept h hcopy with hmask | ⟨hbsy, -⟩
    · exact hmask
    · simp [hinv.settled.idle_of_done hdone] at hbsy
  have hnxt : (s.step i).stateQ = .writeProbeWait := by
    simp [step, home, hst, hdone]
  obtain ⟨haddr, hcache⟩ := tracker_held hstart
  simp only [PhaseInv, hnxt]
  refine ⟨w, hwriting.step hsame hreg hnames, ?_, by rwa [hcache], htgt', ?_⟩
  · rw [hsame.requestLineAddr]
    exact haddr.trans hline
  · intro h hcopy
    refine (hkept h hcopy).imp_right ?_
    rintro ⟨hbsy, hout⟩
    rw [hsame.requestLineAddr] at hcopy
    exact outstanding_step hinv hlive (by simp [hst]) hcopy hline hbsy hout hmask

theorem phase_step_dirClear (hst : s.stateQ = .dirClear) : PhaseInv live' (s.step i) := by
  have hsame := sameRequest_step (by simp [hst] : s.stateQ ≠ .idle) i
  have hph := hinv.phase
  simp only [PhaseInv, hst] at hph
  obtain ⟨w, hwriting, -, honly⟩ := hph
  have hnxt : (s.step i).stateQ = .l2Req := by simp [step, home, hst]
  simp only [PhaseInv, hnxt]
  constructor
  · intro hfill
    rw [hsame.requestPrivateFill, requestPrivateFill_of_isWrite hwriting.write] at hfill
    simp at hfill
  · intro _
    exact honly.step hlive hsame (by simp [hst])

/-- The L2 exchange: the entry of a fill and the exclusivity of a write hold. -/
theorem phase_step_l2 (hst : s.stateQ = .l2Req ∨ s.stateQ = .l2Wdata ∨ s.stateQ = .l2Resp) :
    PhaseInv live' (s.step i) := by
  have hidle : s.stateQ ≠ .idle := by rcases hst with h | h | h <;> simp [h]
  have hrsp : s.stateQ ≠ .resp := by rcases hst with h | h | h <;> simp [h]
  have hsame := sameRequest_step hidle i
  have hnames := filter_names_step (i := i) hinv hidle (by rcases hst with h | h | h <;> simp [h])
    (by rcases hst with h | h | h <;> simp [h])
    (by rcases hst with h | h | h <;> simp [h])
  have hreg : (s.step i).directoryEntryQ = s.directoryEntryQ := by
    rcases hst with h | h | h <;> simp only [step, home, h, l2Response] <;>
      try split
    all_goals rfl
  have hph : (s.requestPrivateFill → ∃ w, s.EntryIs w ∧
        (p.wayReached (p.lineSet s.requestLineAddr) → s.filter.Names s.requestLineAddr w)) ∧
      (s.requestExclusive → OnlyRequester live s) := by
    have h := hinv.phase
    rcases hst with hs | hs | hs <;> simpa only [PhaseInv, hs] using h
  have hent : (s.step i).requestPrivateFill → ∃ w, (s.step i).EntryIs w ∧
        (p.wayReached (p.lineSet (s.step i).requestLineAddr) →
          (s.step i).filter.Names (s.step i).requestLineAddr w) := by
    rw [hsame.requestPrivateFill]
    intro hfill
    obtain ⟨w, hent, hname⟩ := hph.1 hfill
    refine ⟨w, hent.step hsame hreg, fun hreach => ?_⟩
    rw [hsame.requestLineAddr] at hreach ⊢
    rw [hnames]
    exact hname hreach
  have hexcl : (s.step i).requestExclusive → OnlyRequester live' (s.step i) := by
    rw [hsame.requestExclusive]
    exact fun h => (hph.2 h).step hlive hsame hrsp
  have hnxt : (s.step i).stateQ = .l2Req ∨ (s.step i).stateQ = .l2Wdata ∨
      (s.step i).stateQ = .l2Resp ∨
      ((s.step i).stateQ = .dirRecord ∧ (s.step i).requestPrivateFill) ∨
      ((s.step i).stateQ = .resp ∧ ((s.step i).requestPrivateFill = false ∨
        (s.step i).respErrorQ)) := by
    rw [hsame.requestPrivateFill]
    rcases hst with h | h | h
    · simp only [step, home, h]
      split
      · by_cases hw : s.requestIsWrite <;> simp [hw]
      · simp
    · simp only [step, home, h]
      split <;> simp
    simp only [step, home, h]
    split
    · simp only [l2Response]
      cases s.requestPrivateFill <;>
        cases (i.l2RespErrorI || s.l2ResponseIdentityError i) <;> simp
    · simp
  rcases hnxt with h | h | h | ⟨h, hfill⟩ | ⟨h, hnofill⟩
  · simpa only [PhaseInv, h] using ⟨hent, hexcl⟩
  · simpa only [PhaseInv, h] using ⟨hent, hexcl⟩
  · simpa only [PhaseInv, h] using ⟨hent, hexcl⟩
  · simpa only [PhaseInv, h] using ⟨hfill, hent hfill⟩
  simp only [PhaseInv, h]
  intro hfill herr
  rcases hnofill with hno | hno
  · simp [hfill] at hno
  · simp [herr] at hno

end

theorem not_live_of_miss (himg : s.filter.ImageOf s.requestLineAddr)
    (hmiss : s.filter.lookupWay = none) (c : PrivateCache) (h : Fin p.numHarts) :
    ¬ live c s.requestLineAddr h := by
  intro hcopy
  obtain ⟨w, hname, -⟩ := hinv.holds _ _ _ hcopy
  exact lookupWay_eq_none himg hmiss w hname

/-- On a hit every copy of the line is the requester's or a probe target. -/
theorem target_of_live (himg : s.filter.ImageOf s.requestLineAddr) {w : Fin p.ways}
    (hway : s.filter.lookupWay = some w) {h : Fin p.numHarts}
    (hcopy : live .dcache s.requestLineAddr h) : s.requestHartMask h ∨ s.writeProbeTargets h := by
  have hbit := lookupDSharersO_of_holds hinv.wellFormed
    (hinv.started _ _ _ hcopy) himg hway (hinv.holds _ _ _ hcopy)
  by_cases hmask : s.requestHartMask h
  · exact .inl hmask
  · exact .inr (by simp [writeProbeTargets, hbit, hmask])

end

/-- The victim sharers of cache `c`. -/
def victimSharers (s : CoherentState p) : PrivateCache → HartVec p.numHarts
  | .icache => s.filter.victimISharersO
  | .dcache => s.filter.victimDSharersO

/-- Every copy of the line in the victim way is probed. -/
theorem victim_probed (hinv : HomeInv live s) (hbsy : s.filter.initBusyQ = false)
    (himg : s.filter.ImageOf s.requestLineAddr)
    (hlt : s.filter.victimWay < p.ways) {c : PrivateCache} {line : BitVec 64}
    {h : Fin p.numHarts} (hcopy : live c line h)
    (hvic : s.VictimOf line ⟨s.filter.victimWay, hlt⟩) :
    s.filter.victimValidO ∧ s.filter.victimLineAddrO = line ∧ s.victimSharers c h := by
  obtain ⟨hset, hname⟩ := hvic
  obtain ⟨w, hname', hbit⟩ := hinv.holds _ _ _ hcopy
  have hw := hinv.wellFormed.names_unique hbsy hname' hname
  subst hw
  have hwrd := victimWayWord_eq himg hlt
  rw [← hset] at hwrd
  have hval : s.filter.victimWayWord.valid := by
    rw [hwrd]
    exact hname.valid
  refine ⟨hval, ?_, ?_⟩
  · rw [victimLineAddrO, if_pos hval, hwrd, hname.tag, himg.lookupSet, ← hset, p.lineOf_tag_set]
    exact hinv.aligned _ _ _ hcopy
  · cases c
    · rw [victimSharers, victimISharersO, if_pos hval, hwrd]
      exact hbit
    · rw [victimSharers, victimDSharersO, if_pos hval, hwrd]
      exact hbit

theorem HartVec_any_of {n : Nat} {v : HartVec n} {h : Fin n} (hbit : v h) : v.any := by
  simpa [HartVec.any] using ⟨h, hbit⟩

/-- The ways in which the answer of the directory moves the home on. -/
inductive DirectoryOutcome (s s' : CoherentState p) : Prop
  | failedSc (next : s'.stateQ = .resp) (write : s.requestIsWrite = true) (op : s.reqOpQ = icxOpSc)
  | fillHit (next : s'.stateQ = .l2Req) (fill : s.requestPrivateFill = true)
      (hit : s.filter.lookupHitO = true)
      (entry : s'.directoryEntryQ = s.filter.lookupEntryO)
  | fillEvict (next : s'.stateQ = .evictProbeStart)
      (fill : s.requestPrivateFill = true) (miss : s.filter.lookupHitO = false)
      (entry : s'.directoryEntryQ = s.filter.victimEntryO)
      (line : s'.probeLineAddrQ = s.filter.victimLineAddrO)
      (target : ∀ c h, s.victimSharers c h = true → s'.probeTargetQ h = true)
      (mask : ∀ c h, s.victimSharers c h = true → maskNames s'.probeCacheMaskQ c = true)
  | fillAllocate (next : s'.stateQ = .dirAllocate)
      (fill : s.requestPrivateFill = true) (miss : s.filter.lookupHitO = false)
      (entry : s'.directoryEntryQ = s.filter.victimEntryO)
      (unused : ∀ c h, s.filter.victimValidO = true → s.victimSharers c h = false)
  | writeProbe (next : s'.stateQ = .writeProbeStart)
      (write : s.requestIsWrite = true) (hit : s.filter.lookupHitO = true)
      (entry : s'.directoryEntryQ = s.filter.lookupEntryO)
      (line : s'.probeLineAddrQ = s.requestLineAddr)
      (target : s'.probeTargetQ = s.writeProbeTargets)
      (mask : maskNames s'.probeCacheMaskQ .dcache = true)
  | scClear (next : s'.stateQ = .dirClear) (write : s.requestIsWrite = true)
      (hit : s.filter.lookupHitO = true)
      (entry : s'.directoryEntryQ = s.filter.lookupEntryO)
      (target : ∀ h, s'.probeTargetQ h = false)
      (alone : s.requestCacheable = true → s.writeProbeTargets.any = false)
      (granted : s.reqOpQ = icxOpSc ∧ s.requestScReservationMatch = true)
  | direct (next : s'.stateQ = .l2Req) (noFill : s.requestPrivateFill = false)
      (alone : s.requestExclusive = true →
        s.filter.lookupHitO = false ∨ s.writeProbeTargets.any = false)

theorem directoryOutcome (hst : s.stateQ = .dirWait)
    (hval : s.filter.lookupResponseValidO) : DirectoryOutcome s (s.step i) := by
  have hstep : s.step i = { s.directoryResponse i with
      filter := s.filter.step s.filterInput
      tracker := s.tracker.step (s.trackerInput i) } := by
    simp only [step, home, hst, hval, if_true]
  rw [hstep]
  simp only [directoryResponse]
  split
  · rename_i hfailed
    simp only [and_eq_true, beq_iff_eq] at hfailed
    exact .failedSc rfl (by simp [requestIsWrite, hfailed.1]) hfailed.1
  rename_i hgranted
  split
  · rename_i hfill
    split
    · rename_i hhit
      exact .fillHit rfl hfill hhit rfl
    rename_i hmiss
    simp only [not_eq_true] at hmiss
    split
    · refine .fillEvict rfl hfill hmiss rfl rfl ?_ ?_
      · intro c h hbit
        cases c <;> simp only [victimSharers] at hbit <;> simp [hbit]
      · intro c h hbit
        have hany := HartVec_any_of hbit
        exact (maskNames_append _ _ c).trans (by cases c <;> exact hany)
    rename_i hprobe
    refine .fillAllocate rfl hfill hmiss rfl fun c h hvic => ?_
    by_contra hbit
    apply hprobe
    rw [hvic, Bool.true_and]
    apply HartVec_any_of (h := h)
    cases c <;> simp only [victimSharers] at hbit <;> simp [hbit]
  rename_i hfill
  simp only [not_eq_true] at hfill
  split
  · rename_i hprobe
    simp only [requestCoherentWrite, and_eq_true] at hprobe
    exact .writeProbe rfl hprobe.1.1.2 hprobe.1.2 rfl rfl rfl maskNames_probeCacheD
  rename_i hprobe
  split
  · rename_i hclr
    simp only [and_eq_true, beq_iff_eq] at hclr
    have hwr : s.requestIsWrite := by simp [requestIsWrite, hclr.1]
    refine .scClear rfl hwr hclr.2 rfl (fun _ => rfl) ?_ ⟨hclr.1, ?_⟩
    · intro hcach
      simpa [requestCoherentWrite, hcach, hwr, hclr.2] using hprobe
    · simpa [hclr.1] using hgranted
  rename_i hclr
  refine .direct rfl hfill fun hexcl => ?_
  by_cases hhit : s.filter.lookupHitO
  · have hop : (s.reqOpQ == icxOpSc) = false := by simpa [hhit] using hclr
    have hwr : s.requestCoherentWrite := by
      simpa [requestExclusive, hop] using hexcl
    exact .inr (by simpa [hwr, hhit] using hprobe)
  · exact .inl (by simpa using hhit)

theorem lookupWay_of_hit (hhit : s.filter.lookupHitO) : ∃ w, s.filter.lookupWay = some w :=
  Option.isSome_iff_exists.mp hhit

theorem lookupWay_of_miss (hmiss : s.filter.lookupHitO = false) : s.filter.lookupWay = none := by
  simpa [lookupHitO] using hmiss

section

variable (hinv : HomeInv live s)
include hinv

section

variable (hlive : CopiesStep live live' s i) (hsafe : directorySafe s i) (hst : s.stateQ = .dirWait)

include hlive hsafe hst

/-- The answer of the directory starts each kind of transaction correctly. -/
theorem phase_directoryResponse (hval : s.filter.lookupResponseValidO) :
    PhaseInv live' (s.step i) := by
  have hidle : s.stateQ ≠ .idle := by simp [hst]
  have hrsp : s.stateQ ≠ .resp := by simp [hst]
  have hbsy := hinv.initIdle hidle
  have himg := hinv.image (by simp [looked, hst])
  have hlt := victimWay_lt hinv.wellFormed hbsy himg
  have hsame := sameRequest_step hidle i
  have hnames := filter_names_step (i := i) hinv hidle (by simp [hst])
    (by simp [hst]) (by simp [hst])
  have hentryOf : ∀ w, s.filter.lookupWay = some w →
      (s.step i).directoryEntryQ = s.filter.lookupEntryO → (s.step i).EntryIs w ∧
        (s.step i).filter.Names (s.step i).requestLineAddr w := by
    intro w hway hreg
    rw [EntryIs, hreg, hsame.requestLineAddr, hnames]
    exact ⟨lookupEntryO_eq himg hway, lookupWay_eq_some himg hway⟩
  have hevict : s.requestPrivateFill → s.filter.lookupHitO = false →
      (s.step i).directoryEntryQ = s.filter.victimEntryO →
      (s.step i).Evicting ⟨s.filter.victimWay, hlt⟩ := by
    intro hfill hmiss hreg
    refine ⟨?_, fun w' => ?_, by rwa [hsame.requestPrivateFill]⟩
    · rw [EntryIs, hreg, hsame.requestLineAddr]
      exact victimEntryO_eq himg
    · rw [hsame.requestLineAddr, hnames]
      exact lookupWay_eq_none himg (lookupWay_of_miss hmiss) w'
  have hprobed : ∀ c line h, live' c line h → (s.step i).VictimOf line ⟨s.filter.victimWay, hlt⟩ →
      s.filter.victimValidO ∧ s.filter.victimLineAddrO = line ∧ s.victimSharers c h := by
    intro c line h hcopy hvic
    exact victim_probed hinv hbsy himg hlt (hlive.kept hrsp hcopy).1
      ((victimOf_step hsame hnames _ _).mp hvic)
  have hown : ∀ h, live' .dcache (s.step i).requestLineAddr h →
      live .dcache s.requestLineAddr h := by
    intro h hcopy
    rw [hsame.requestLineAddr] at hcopy
    exact (hlive.kept hrsp hcopy).1
  have halone : s.writeProbeTargets.any = false →
      s.filter.lookupHitO → OnlyRequester live' (s.step i) := by
    intro htargets hhit h hcopy
    obtain ⟨w, hway⟩ := lookupWay_of_hit hhit
    rw [hsame.requestHartMask]
    rcases target_of_live hinv himg hway (hown h hcopy) with hmask | hbit
    · exact hmask
    · simp [HartVec_any_of hbit] at htargets
  cases directoryOutcome (i := i) hst hval with
  | failedSc hnxt hwr =>
    simp [PhaseInv, hnxt, hsame.requestPrivateFill, requestPrivateFill_of_isWrite hwr]
  | fillHit hnxt hfill hhit hreg =>
    obtain ⟨w, hway⟩ := lookupWay_of_hit hhit
    obtain ⟨hent, hname⟩ := hentryOf w hway hreg
    simp only [PhaseInv, hnxt]
    refine ⟨fun _ => ⟨w, hent, fun _ => hname⟩, fun hexcl => ?_⟩
    have hwr := requestExclusive_isWrite hexcl
    rw [hsame.requestIsWrite] at hwr
    simp [requestPrivateFill_of_isWrite hwr] at hfill
  | fillEvict hnxt hfill hmiss hreg hline htgt hmask =>
    simp only [PhaseInv, hnxt]
    refine ⟨_, hevict hfill hmiss hreg, fun c line h hcopy hvic => ?_⟩
    obtain ⟨-, hvictimLine, hbit⟩ := hprobed c line h hcopy hvic
    exact ⟨hline.trans hvictimLine, htgt c h hbit, hmask c h hbit⟩
  | fillAllocate hnxt hfill hmiss hreg hunused =>
    simp only [PhaseInv, hnxt]
    refine ⟨_, hevict hfill hmiss hreg, fun c line h hcopy hvic => ?_⟩
    obtain ⟨hvictimValid, -, hbit⟩ := hprobed c line h hcopy hvic
    simp [hunused c h hvictimValid] at hbit
  | writeProbe hnxt hwr hhit hreg hline htgt hmask =>
    obtain ⟨w, hway⟩ := lookupWay_of_hit hhit
    obtain ⟨hent, hname⟩ := hentryOf w hway hreg
    simp only [PhaseInv, hnxt]
    refine ⟨w, ⟨hent, hname, by rwa [hsame.requestIsWrite]⟩, ?_, hmask, ?_, ?_⟩
    · rw [hsame.requestLineAddr, hline]
    · rw [htgt, hsame.requestHartMask]
      intro h hbit
      simp only [writeProbeTargets, and_eq_true, Bool.not_eq_true'] at hbit
      exact hbit.2
    · rw [htgt, hsame.requestHartMask]
      exact fun h hcopy => target_of_live hinv himg hway (hown h hcopy)
  | scClear hnxt hwr hhit hreg htgt hnone hgranted =>
    obtain ⟨w, hway⟩ := lookupWay_of_hit hhit
    obtain ⟨hent, hname⟩ := hentryOf w hway hreg
    -- The safe SC is cacheable, so its empty target set is the real one.
    have htargets : s.writeProbeTargets.any = false := by
      by_contra hany
      have hcach : s.requestCacheable := by
        simpa [directorySafe, hst, hgranted.1, hgranted.2, hhit, hany] using hsafe
      simp [hnone hcach] at hany
    simp only [PhaseInv, hnxt]
    refine ⟨w, ⟨hent, hname, by rwa [hsame.requestIsWrite]⟩, ?_, halone htargets hhit⟩
    intro h hbit
    simp [htgt h] at hbit
  | direct hnxt hfill hnone =>
    simp only [PhaseInv, hnxt]
    rw [hsame.requestPrivateFill, hsame.requestExclusive]
    refine ⟨fun h => by simp [hfill] at h, fun hexcl => ?_⟩
    rcases hnone hexcl with hmiss | htargets
    · intro h hcopy
      exact absurd (hown h hcopy) (not_live_of_miss hinv himg (lookupWay_of_miss hmiss) _ h)
    by_cases hhit : s.filter.lookupHitO
    · exact halone htargets hhit
    · intro h hcopy
      simp only [not_eq_true] at hhit
      exact absurd (hown h hcopy) (not_live_of_miss hinv himg (lookupWay_of_miss hhit) _ h)

theorem phase_step_dirWait : PhaseInv live' (s.step i) := by
  by_cases hval : s.filter.lookupResponseValidO
  · exact phase_directoryResponse hinv hlive hsafe hst hval
  · exact phase_of_quiet (by simp [step, home, hst, hval])

end

/-- `ST_DIR_RECORD` records the requester in the entry of its line. -/
theorem phase_step_dirRecord (hsafe : directorySafe s i) (hst : s.stateQ = .dirRecord) :
    PhaseInv live' (s.step i) := by
  have hidle : s.stateQ ≠ .idle := by simp [hst]
  have hsame := sameRequest_step hidle i
  have hph := hinv.phase
  simp only [PhaseInv, hst] at hph
  obtain ⟨-, w, hent, hname⟩ := hph
  have hreach : p.wayReached (p.lineSet s.requestLineAddr) := by
    simpa [directorySafe, hst] using hsafe
  have hnxt : (s.step i).stateQ = .resp := by simp [step, home, hst]
  simp only [PhaseInv, hnxt]
  intro _ _ c h hsrc hmask
  rw [hsame.sourceId] at hsrc
  rw [hsame.requestHartMask] at hmask
  rw [hsame.requestLineAddr]
  have hbit := directoryRecord_requester hsrc hmask
  refine holds_step_of_record ⟨hinv.initIdle hidle, hinv.image (by simp [looked, hst]),
    by simp [filterInput, hst], by simp [filterInput, hst], rfl, hent, rfl⟩ hreach
    (hname hreach) ?_ ?_
  · cases c <;>
      simpa [writeAdd, filterInput, hst, sourceOf] using hbit
  · cases c <;> simp [writeClear, filterInput, hst]

theorem phase_step_resp (hst : s.stateQ = .resp) : PhaseInv live' (s.step i) := by
  have hsame := sameRequest_step (by simp [hst] : s.stateQ ≠ .idle) i
  by_cases hfire : s.responseFire i
  · exact phase_of_quiet (by simp [step, home, hst, hfire])
  have hph := hinv.phase
  simp only [PhaseInv, hst] at hph
  have hnxt : (s.step i).stateQ = .resp := by simp [step, home, hst, hfire]
  have herr : (s.step i).respErrorQ = s.respErrorQ := by
    simp only [step, home, hst]
  simp only [PhaseInv, hnxt]
  rw [hsame.requestPrivateFill, herr, hsame.sourceId, hsame.requestHartMask, hsame.requestLineAddr]
  intro hfill hok c h hsrc hmask
  exact (hph hfill hok c h hsrc hmask).step_of_no_write (hinv.initIdle (by simp [hst]))
    (filter_no_write (by simp [hst]) (by simp [hst]) (by simp [hst]))

theorem phase_step (hlive : CopiesStep live live' s i) (hsafe : directorySafe s i) :
    PhaseInv live' (s.step i) := by
  cases hst : s.stateQ with
  | idle => exact phase_step_idle hst
  | waitWdata => exact phase_step_waitWdata hst
  | dirLookup => exact phase_step_dirLookup hst
  | evictProbeStart => exact phase_step_evictProbeStart hinv hlive hst
  | evictProbeWait => exact phase_step_evictProbeWait hinv hlive hst
  | dirAllocate => exact phase_step_dirAllocate hinv hst
  | writeProbeStart => exact phase_step_writeProbeStart hinv hlive hst
  | writeProbeWait => exact phase_step_writeProbeWait hinv hlive hst
  | dirClear => exact phase_step_dirClear hinv hlive hst
  | l2Req => exact phase_step_l2 hinv hlive (.inl hst)
  | l2Wdata => exact phase_step_l2 hinv hlive (.inr (.inl hst))
  | l2Resp => exact phase_step_l2 hinv hlive (.inr (.inr hst))
  | dirRecord => exact phase_step_dirRecord hinv hsafe hst
  | resp => exact phase_step_resp hinv hst
  | dirWait => exact phase_step_dirWait hinv hlive hsafe hst

/-- A state with a registered image is entered from the lookup or from another
such state. -/
theorem image_step : looked (s.step i).stateQ →
      (s.step i).filter.ImageOf (s.step i).requestLineAddr := by
  intro hnxt
  by_cases hidle : s.stateQ = .idle
  · exfalso
    simp only [step, home, hidle] at hnxt
    split at hnxt
    · simp only [acceptRequest] at hnxt
      split at hnxt
      · simp [looked] at hnxt
      · split at hnxt <;> simp [looked] at hnxt
    · simp [looked] at hnxt
  have hsame := sameRequest_step hidle i
  rw [hsame.requestLineAddr]
  by_cases hlook : s.stateQ = .dirLookup
  · have hrdy : s.filter.lookupReadyO s.filterInput := by
      by_contra hrdy
      simp [step, home, hlook, hrdy, looked] at hnxt
    exact imageOf_step_of_lookup
      (by
        simp [lookupFire, filterInput, hlook] at hrdy ⊢
        exact hrdy)
  have hlooked : looked s.stateQ := by
    by_contra hnot
    have hcases : s.stateQ = .waitWdata ∨ s.stateQ = .resp := by
      revert hnot hidle hlook
      cases s.stateQ <;> simp [looked]
    rcases hcases with h | h
    · simp only [step, home, h] at hnxt
      split at hnxt
      · split at hnxt <;> simp [looked] at hnxt
      · simp [looked] at hnxt
    · simp only [step, home, h] at hnxt
      split at hnxt <;> simp [looked] at hnxt
  exact imageOf_step (hinv.image hlooked) (filter_lookupFire hlook)

theorem initIdle_step : (s.step i).stateQ ≠ .idle → (s.step i).filter.initBusyQ = false := by
  intro hnxt
  by_cases hidle : s.stateQ = .idle
  · by_cases hfire : s.requestFire i
    · have hrdy : s.filter.initBusyQ = false := by
        simp only [requestFire, reqReadyO, initBusyO, and_eq_true, Bool.not_eq_true'] at hfire
        exact hfire.2.1.2
      exact initBusyQ_step hrdy
    · simp [step, home, hidle, hfire] at hnxt
  · exact initBusyQ_step (hinv.initIdle hidle)

theorem holds_of_answered {c : PrivateCache} {line : BitVec 64} {h : Fin p.numHarts}
    (ha : Answered c line h s i) : s.filter.Holds c line h := by
  have hph := hinv.phase
  simp only [PhaseInv, ha.resp] at hph
  rw [← ha.line]
  refine hph ?_ ha.noError c h ha.source ha.hart
  simp only [requestPrivateFill, ha.cacheable, ha.source, Bool.true_and,
    and_eq_true, or_eq_true, beq_iff_eq]
  refine ⟨ha.op, ?_⟩
  cases c
  · exact .inl rfl
  · exact .inr rfl

/-- One cycle keeps the invariant. -/
theorem HomeInv.step (hlive : CopiesStep live live' s i) (hsafe : directorySafe s i) :
    HomeInv live' (s.step i) where
  wellFormed := wellFormed_step hinv
  settled := hinv.settled.step _
  initIdle := initIdle_step hinv
  image := image_step hinv
  aligned := by
    intro c line h hcopy
    rcases hlive c line h hcopy with ha | ⟨hcopy, -⟩
    · rw [← ha.line, requestLineAddr, lineAddr_idem]
    · exact hinv.aligned c line h hcopy
  started := by
    intro c line h hcopy
    apply initBusyQ_step
    rcases hlive c line h hcopy with ha | ⟨hcopy, -⟩
    · exact hinv.initIdle (by simp [ha.resp])
    · exact hinv.started c line h hcopy
  holds := by
    intro c line h hcopy
    rcases hlive c line h hcopy with ha | ⟨hcopy, hreleased⟩
    · exact (holds_of_answered hinv ha).step_of_no_write (hinv.initIdle (by simp [ha.resp]))
        (filter_no_write (by simp [ha.resp]) (by simp [ha.resp]) (by simp [ha.resp]))
    · exact holds_step hinv hcopy hsafe hreleased
  phase := phase_step hinv hlive hsafe

end

end Step

theorem homeInv_reset (powerUp : CoherentState p) : HomeInv (fun _ _ _ => False) powerUp.reset where
  wellFormed := by
    constructor <;> simp [reset, SnoopFilterState.reset]
    exact Nat.lt_of_lt_of_le Nat.zero_lt_two p.sets_two_le
  settled := ProbeTrackerState.settled_reset
  initIdle := by simp [reset]
  image := by simp [reset, looked]
  aligned := by simp
  started := by simp
  holds := by simp
  phase := by simp [PhaseInv, reset]

section

variable {past : Past (CoherentState p) (CoherentInput p)} {s : CoherentState p}

/-- A run that keeps the promise keeps the invariant. -/
theorem homeInv_run (hrun : Run (coherentHome p) (cycleEnv fun s i => directorySafe s i) past s) :
    HomeInv (Live past) s := by
  refine hrun.invariant (P := fun past s => HomeInv (Live past) s) ?_ ?_
  · rintro s ⟨powerUp, rfl⟩
    exact homeInv_reset powerUp
  · intro past s i _ hsafe hinv
    exact hinv.step (fun _ _ _ h => h) hsafe

/-- In every run in which each fill is recorded in a reached way and no
uncacheable SC skips its probes, the directory covers every live copy. -/
theorem directorySound_of_safe
    (hrun : Run (coherentHome p) (cycleEnv fun s i => directorySafe s i = true) past s) :
    DirectorySound past s :=
  (homeInv_run hrun).holds

end

instance (c : PrivateCache) (line : BitVec 64) (h : Fin p.numHarts)
    (s : CoherentState p) (i : CoherentInput p) : Decidable (Answered c line h s i) :=
  decidable_of_iff
    (s.responseFire i = true ∧ s.respErrorQ = false ∧ s.requestCacheable = true ∧
      (s.reqOpQ = icxOpRead ∨ s.reqOpQ = icxOpLr) ∧
      s.reqSourceIdQ = sourceOf c ∧ s.requestHartMask h = true ∧ s.requestLineAddr = line)
    ⟨fun ⟨a, b, c, d, e, f, g⟩ => ⟨a, b, c, d, e, f, g⟩,
      fun ⟨a, b, c, d, e, f, g⟩ => ⟨a, b, c, d, e, f, g⟩⟩

instance (c : PrivateCache) (line : BitVec 64) (h : Fin p.numHarts)
    (s : CoherentState p) (i : CoherentInput p) : Decidable (Released c line h s i) :=
  decidable_of_iff
    ((s.tracker.busyQ = true ∧ s.tracker.ackMatches (s.trackerInput i) h = true ∧
        s.tracker.lineAddrQ = line ∧ maskNames s.tracker.cacheMaskQ c = true) ∨
      (c = .dcache ∧ s.stateQ = .dirClear ∧ s.reqOpQ = icxOpSc ∧
        s.requestHartMask h = true ∧ s.requestLineAddr = line))
    (or_congr ⟨fun ⟨a, b, c, d⟩ => ⟨a, b, c, d⟩, fun ⟨a, b, c, d⟩ => ⟨a, b, c, d⟩⟩
      (and_congr Iff.rfl ⟨fun ⟨a, b, c, d⟩ => ⟨a, b, c, d⟩, fun ⟨a, b, c, d⟩ => ⟨a, b, c, d⟩⟩))

instance (past : Past (CoherentState p) (CoherentInput p))
    (c : PrivateCache) (line : BitVec 64) (h : Fin p.numHarts) : Decidable (Live past c line h) :=
  decidableSince past

/-- A READ of hart 0 followed by a READ of hart 1, on two ways. -/
def sharedRead : List (CoherentInput twoWayParams) :=
  command _ 0 icxOpRead icxAttrCacheable 0x40 7 ++ command _ 1 icxOpRead icxAttrCacheable 0x40 6

theorem directorySound_of_safe_sharedRead :
    (demoRun _ sharedRead).2.filter.Holds .dcache 0x40 ⟨1, by decide⟩ :=
  directorySound_of_safe
    (exec_run_ok (demoInputs _ sharedRead)
      (.reset (powerUpZero_init twoWayParams)) (by decide +kernel))
    _ _ _ (by decide +kernel)

/-- With one way the fill of an odd set is answered and not recorded. -/
theorem directorySound_fails :
    ¬ ∀ (p : CoherentParams) past s,
      Run (coherentHome p) anyEnv past s → DirectorySound past s := by
  intro hsound
  have hholds := hsound oneWayParams _ _
    (exec_run (demoInputs _ (command _ 0 icxOpRead icxAttrCacheable 0x40 7))
      (.reset (powerUpZero_init oneWayParams)))
    .dcache 0x40 ⟨0, by decide⟩ (by decide +kernel)
  revert hholds
  decide +kernel

/-- An uncacheable SC whose line another hart shares clears that sharer too. -/
example : ¬ DirectorySound (demoRun twoWayParams (command _ 0 icxOpLr icxAttrCacheable 0x40 7 ++
        command _ 1 icxOpRead icxAttrCacheable 0x40 6 ++ command _ 0 icxOpSc 0 0x40 8)).1
    (demoRun twoWayParams (command _ 0 icxOpLr icxAttrCacheable 0x40 7 ++
        command _ 1 icxOpRead icxAttrCacheable 0x40 6 ++ command _ 0 icxOpSc 0 0x40 8)).2 := by
  intro hsound
  have hholds := hsound .dcache 0x40 ⟨1, by decide⟩ (by decide +kernel)
  revert hholds
  decide +kernel

end CoherentState

end OpenRV64
