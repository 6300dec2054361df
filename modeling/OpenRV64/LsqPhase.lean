/-
What one clock edge makes of a queue entry in each phase of its life, and that
its flags stay consistent.
-/
import OpenRV64.LsqControl

namespace OpenRV64

open Bool (or_eq_true not_eq_true' not_eq_false and_eq_true)
open LsqSlot (ctl release)

namespace LsqState

variable {p : LsqParams} {s : LsqState p} {i : LsqInput p} {k : Nat}

theorem atomicDoneAt_flags (hport : AtomicPorts s i) (h : atomicDoneAt i k) :
    (s.slots k).valid ∧ (s.slots k).atomic := by
  rw [atomicDoneAt, and_eq_true, beq_iff_eq] at h
  obtain ⟨hdone, rfl⟩ := h
  exact (hport.atomicDone hdone).2

/-- A free slot sees only the allocation and the translation of this cycle. -/
theorem step_unheld (hport : AtomicPorts s i) (hok : (s.slots k).Ok) (hfl : i.flushI = false)
    (hinvalid : (s.slots k).valid = false) : (s.step i).slots k =
      s.updateXlateResp i k (s.updateXlateReq i k (s.afterAlloc i k)) := by
  have hreq := reqAt_of_invalid (i := i) hinvalid
  have hres : s.resultAt i k = false := down_of_imp hinvalid fun hcon => (resultAt_flags hcon).1
  have hdone : s.doneAt i k = false := down_of_imp hinvalid fun hcon => (doneAt_spec hcon).1
  have hamo : atomicDoneAt i k = false :=
    down_of_imp hinvalid fun hcon => (atomicDoneAt_flags hport hcon).1
  have hsq : s.updateSquash i k = id := by
    funext slot
    rw [updateSquash, hinvalid, Bool.and_false, if_low]
    rfl
  rw [step_noFlush hfl, hsq, updateAtomicDone_of_not hamo,
    updateDone_of_not hdone, updateResult_of_not hres,
    updateKilled_of_not (hok.free hinvalid).killed, updateReq_of_not hreq]
  rfl

theorem step_alloc (hport : AtomicPorts s i) (hok : (s.slots k).Ok) {a : LsqAlloc p} {store : Bool}
    (halloc : s.allocInto i k = some (a, store)) :
    ((s.step i).slots k).ctl =
      ⟨true, s.xlateReqAt i k && !s.xlateRespAt i k, false, false, false, false⟩ := by
  obtain ⟨hfl, -, -, hinvalid, -⟩ := allocInto_some halloc
  have hfree := hok.free hinvalid
  rw [step_unheld hport hok hfl hinvalid, afterAlloc_some halloc]
  have hrsp : ∀ slot, s.updateXlateResp i k slot =
      if s.xlateRespAt i k then
        { slot with
          xlateSent := false
          xlateDone := true
          pmpChecked := true
          xlateAccessFault := i.xlateRespAccessFaultI
          xlatePageFault := i.xlateRespPageFaultI
          paddr := i.xlateRespPaddrI }
      else slot := by
    intro slot
    rw [updateXlateResp, hfree.killed, if_low, xlateRespAt]
  change (s.updateXlateResp i k (if s.xlateReqAt i k then _ else _)).ctl = _
  rw [hrsp]
  cases s.xlateRespAt i k with
  | false => cases s.xlateReqAt i k <;> rfl
  | true => cases s.xlateReqAt i k <;> rfl

theorem xlate_of_unused (hfl : i.flushI = false) (halloc : s.allocInto i k = none)
    (hinvalid : (s.slots k).valid = false) :
    s.xlateReqAt i k = false ∧ s.xlateRespAt i k = false := by
  constructor
  · by_contra hcon
    rcases (xlateReqAt_cases hfl (by simpa using hcon)).2 with ⟨-, hcand⟩ | hsome
    · rw [(xlateCandidate_flags hcand).1] at hinvalid
      cases hinvalid
    · obtain ⟨a, store, hsome, -⟩ := hsome
      rw [halloc] at hsome
      cases hsome
  · by_contra hcon
    rcases xlateRespAt_cases hfl (by simpa using hcon) with ⟨-, hval, -⟩ | hsome
    · rw [hval] at hinvalid
      cases hinvalid
    · obtain ⟨a, store, hsome⟩ := hsome
      rw [halloc] at hsome
      cases hsome

theorem step_invalid (hport : AtomicPorts s i) (hok : (s.slots k).Ok)
    (hfl : i.flushI = false) (halloc : s.allocInto i k = none)
    (hinvalid : (s.slots k).valid = false) : (s.step i).slots k = s.slots k := by
  obtain ⟨hxlateReq, hxlateResp⟩ := xlate_of_unused hfl halloc hinvalid
  rw [step_unheld hport hok hfl hinvalid, updateXlateResp_of_not hxlateResp,
    updateXlateReq_of_not hxlateReq, afterAlloc_none halloc]

theorem allocInto_of_valid (hval : (s.slots k).valid) : s.allocInto i k = none := by
  cases halloc : s.allocInto i k with
  | none => rfl
  | some entry =>
    rw [(allocInto_some (show s.allocInto i k = some (entry.1, entry.2)
      from halloc)).2.2.2.1] at hval
    cases hval

theorem xlateReqAt_flags (hfl : i.flushI = false)
    (hval : (s.slots k).valid) (h : s.xlateReqAt i k) :
    i.squashYoungerI = false ∧ (s.slots k).killed = false ∧
      (s.slots k).atomic = false ∧ (s.slots k).xlateDone = false ∧
      (s.slots k).xlateSent = false := by
  obtain ⟨hsq, hsrc⟩ := xlateReqAt_cases hfl h
  rcases hsrc with ⟨-, hcand⟩ | ⟨a, store, hsome, -⟩
  · obtain ⟨-, hkill, hamo, -, hdone, hsent⟩ := xlateCandidate_flags hcand
    exact ⟨hsq, hkill, hamo, hdone, hsent⟩
  · rw [allocInto_of_valid hval] at hsome
    cases hsome

theorem xlateRespAt_flags (hfl : i.flushI = false)
    (hval : (s.slots k).valid) (h : s.xlateRespAt i k) :
    (s.slots k).xlateSent ∨ s.xlateReqAt i k := by
  rcases xlateRespAt_cases hfl h with ⟨-, -, hsent⟩ | ⟨a, store, hsome⟩
  · exact hsent
  · rw [allocInto_of_valid hval] at hsome
    cases hsome

theorem respAt_of_not_answered (h : s.answeredNow i k = false) :
    s.respAt i k = false ∧ s.xlateRespAt i k = false ∧ s.storeDoneAt i k = false ∧
      s.doneAt i k = false := by
  simp only [answeredNow, Bool.or_eq_false_iff] at h
  obtain ⟨⟨hrsp, hxl⟩, hdone⟩ := h
  refine ⟨?_, hxl, ?_, ?_⟩
  · rw [respAt, Bool.and_right_comm, hrsp, Bool.false_and]
  · by_contra hcon
    rw [not_eq_false] at hcon
    obtain ⟨htag, hlt, hval, -⟩ := storeDoneAt_spec hcon
    simp only [storeDoneAt, and_eq_true] at hcon
    simp only [storeDoneFire, storeDoneKilledFire, storeDoneSlotKilled, slotValidAt,
      hcon.1.1, hcon.1.2, htag, hlt, hval] at hdone
    cases hkill : (s.slots k).killed <;> simp [hkill] at hdone
  · by_contra hcon
    rw [not_eq_false] at hcon
    rcases (doneAt_spec hcon).2.2.2.2.2 with ⟨hfire, htag⟩ | ⟨-, hfire, htag⟩
    · simp [hfire, htag] at hdone
    · simp only [postedStoreRespFire, and_eq_true] at hfire
      simp [hfire.1.1, htag] at hrsp

/-- A squashed entry that an unanswered request keeps. -/
theorem step_quarantine (hport : AtomicPorts s i) (hok : (s.slots k).Ok)
    (hfl : i.flushI = false) (hvic : s.squashVictim i k)
    (hsent : (s.slots k).xlateSent ∨ (s.slots k).accessSent)
    (hansd : s.answeredNow i k = false) :
    ((s.step i).slots k).ctl = { (s.slots k).ctl with killed := true } := by
  have hsq : i.squashYoungerI := by
    rw [squashVictim, and_eq_true] at hvic
    exact hvic.1
  obtain ⟨hval, hamo⟩ : (s.slots k).valid ∧ (s.slots k).atomic = false := by
    rcases hsent with hsent | hsent
    · exact ⟨(hok.xlateSent hsent).1, (hok.xlateSent hsent).2.2.2.1⟩
    · exact ⟨(hok.accessSent hsent).1, (hok.accessSent hsent).2.2.2.1⟩
  obtain ⟨hrsp, hxlateResp, hstoreDone, hdone⟩ := respAt_of_not_answered hansd
  have hxlateReq : s.xlateReqAt i k = false :=
    down_of_imp hsq fun hcon => (xlateReqAt_cases hfl hcon).1
  have hreq : s.reqAt i k = false := down_of_imp hsq fun hcon => (reqAt_spec hcon).1
  have hres : s.resultAt i k = false := down_of_imp hvic fun hcon => (resultAt_flags hcon).2.2
  have hatomicDone : atomicDoneAt i k = false :=
    down_of_imp hamo fun hcon => (atomicDoneAt_flags hport hcon).2
  have hkeep : (((s.slots k).xlateSent || (s.slots k).accessSent) && !s.answeredNow i k) := by
    rw [hansd]
    simpa using hsent
  rw [step_noFlush hfl, updateAtomicDone_of_not hatomicDone,
    updateDone_of_not hdone, updateResult_of_not hres, updateKilledDone_eq,
    hstoreDone, updateKilledResp_eq, hrsp, updateXlateResp_of_not hxlateResp,
    updateReq_of_not hreq, updateXlateReq_of_not hxlateReq,
    afterAlloc_none (allocInto_of_valid hval), updateSquash, hvic, hval, hkeep]
  rfl

theorem step_squash (hfl : i.flushI = false) (hval : (s.slots k).valid) (hvic : s.squashVictim i k)
    (hnone : ((s.slots k).xlateSent || (s.slots k).accessSent) = false ∨ s.answeredNow i k) :
    ((s.step i).slots k).ctl = ⟨false, false, false, false, false, false⟩ := by
  have hcond : (((s.slots k).xlateSent || (s.slots k).accessSent) &&
      !s.answeredNow i k) = false := by
    rcases hnone with hnone | hnone
    · rw [hnone, Bool.false_and]
    · rw [hnone, Bool.not_true, Bool.and_false]
  rw [step_noFlush hfl, updateSquash, hvic, hval, hcond]
  rfl

theorem xlateRespAt_of_done (hok : (s.slots k).Ok) (hfl : i.flushI = false)
    (hval : (s.slots k).valid) (hdone : (s.slots k).xlateDone) :
    s.xlateReqAt i k = false ∧ s.xlateRespAt i k = false := by
  have hreq : s.xlateReqAt i k = false :=
    down_of_imp hdone fun hcon => (xlateReqAt_flags hfl hval hcon).2.2.2.1
  refine ⟨hreq, ?_⟩
  by_contra hcon
  rcases xlateRespAt_flags hfl hval (by simpa using hcon) with hsent | hsent
  · rw [(hok.xlateSent hsent).2.1] at hdone
    cases hdone
  · rw [hreq] at hsent
    cases hsent

/-- A quarantined entry goes with the answer to its request. -/
theorem step_killed (hport : AtomicPorts s i) (hok : (s.slots k).Ok)
    (hfl : i.flushI = false) (hkill : (s.slots k).killed)
    (hvic : s.squashVictim i k = false) :
    ((s.step i).slots k).ctl =
      if s.xlateRespAt i k || s.respAt i k || s.storeDoneAt i k then
        ⟨false, false, false, false, false, false⟩
      else (s.slots k).ctl := by
  obtain ⟨hval, hsent⟩ := hok.killed hkill
  have hamo : (s.slots k).atomic = false := by
    rcases hsent with hsent | hsent
    · exact (hok.xlateSent hsent).2.2.2.1
    · exact (hok.accessSent hsent).2.2.2.1
  have hxlateReq : s.xlateReqAt i k = false :=
    down_of_imp hkill fun hcon => (xlateReqAt_flags hfl hval hcon).2.1
  have hreq : s.reqAt i k = false := down_of_imp hkill fun hcon => (reqAt_flags hcon).2.1
  have hres : s.resultAt i k = false := down_of_imp hkill fun hcon => (resultAt_flags hcon).2.1
  have hdone : s.doneAt i k = false := down_of_imp hkill fun hcon => (doneAt_spec hcon).2.2.2.2.1
  have hatomicDone : atomicDoneAt i k = false :=
    down_of_imp hamo fun hcon => (atomicDoneAt_flags hport hcon).2
  rw [step_noFlush hfl, updateSquash_of_not hvic,
    updateAtomicDone_of_not hatomicDone, updateDone_of_not hdone,
    updateResult_of_not hres, updateReq_of_not hreq,
    updateXlateReq_of_not hxlateReq, afterAlloc_none (allocInto_of_valid hval),
    updateKilledDone_eq, updateKilledResp_eq, updateXlateResp, ← xlateRespAt, hkill]
  rcases hsent with hsent | hsent
  · obtain ⟨-, -, hnsent, -⟩ := hok.xlateSent hsent
    have hrsp : s.respAt i k = false := down_of_imp hnsent fun hcon => (respAt_spec hcon).2.2.2
    have hstoreDone : s.storeDoneAt i k = false :=
      down_of_imp hnsent fun hcon => (storeDoneAt_spec hcon).2.2.2.1
    obtain ⟨hhalf, hoth⟩ := hok.noHalves hval hnsent
    rw [hrsp, hstoreDone]
    cases s.xlateRespAt i k with
    | false => simp
    | true => simp [ctl, hnsent, hhalf, hoth]
  obtain ⟨-, htrans, -⟩ := hok.accessSent hsent
  have hnsent := hok.noXlate_of_done htrans
  rw [(xlateRespAt_of_done hok hfl hval htrans).2]
  cases s.respAt i k with
  | false =>
    cases s.storeDoneAt i k with
    | false => simp
    | true => simp [ctl, release, hnsent]
  | true =>
    cases s.storeDoneAt i k with
    | false => simp [ctl, release, hnsent]
    | true => simp [ctl, release, hnsent]

theorem step_untranslated (hport : AtomicPorts s i) (hok : (s.slots k).Ok)
    (hfl : i.flushI = false) (hval : (s.slots k).valid)
    (hkill : (s.slots k).killed = false) (hvic : s.squashVictim i k = false)
    (huntr : (s.slots k).xlateDone = false) :
    ((s.step i).slots k).ctl =
      ⟨true, ((s.slots k).xlateSent || s.xlateReqAt i k) && !s.xlateRespAt i k,
        false, false, false, false⟩ := by
  have hnsent := hok.notSent_of_untranslated huntr
  obtain ⟨hhalf, hoth⟩ := hok.noHalves hval hnsent
  have hreq : s.reqAt i k = false := down_of_imp huntr fun hcon => (reqAt_flags hcon).2.2.2.2.2.1
  have hres : s.resultAt i k = false := down_of_imp huntr fun hcon => (resultAt_done hok hcon).1
  have hdone : s.doneAt i k = false := down_of_imp hnsent fun hcon => (doneAt_spec hcon).2.1
  have hatomicDone : atomicDoneAt i k = false := by
    by_contra hcon
    have hamo := (atomicDoneAt_flags hport (by simpa using hcon)).2
    rw [hok.exempt (.inl hamo)] at huntr
    cases huntr
  rw [step_noFlush hfl, updateSquash_of_not hvic,
    updateAtomicDone_of_not hatomicDone, updateDone_of_not hdone,
    updateResult_of_not hres, updateKilled_of_not hkill, updateReq_of_not hreq,
    afterAlloc_none (allocInto_of_valid hval), updateXlateResp, hkill,
    ← xlateRespAt, updateXlateReq, ← xlateReqAt]
  cases s.xlateRespAt i k with
  | false =>
    cases s.xlateReqAt i k with
    | false => simp [ctl, hval, hnsent, hhalf, hoth, hkill]
    | true => simp [ctl, hval, hnsent, hhalf, hoth, hkill]
  | true =>
    cases s.xlateReqAt i k with
    | false => simp [ctl, hval, hnsent, hhalf, hoth, hkill]
    | true => simp [ctl, hval, hnsent, hhalf, hoth, hkill]

theorem step_atomic (hok : (s.slots k).Ok) (hfl : i.flushI = false)
    (hval : (s.slots k).valid) (hvic : s.squashVictim i k = false)
    (hamo : (s.slots k).atomic) :
    ((s.step i).slots k).ctl = ⟨!atomicDoneAt i k, false, false, false, false, false⟩ := by
  have htrans := hok.exempt (.inl hamo)
  have hnsent : (s.slots k).accessSent = false :=
    down_of_imp hamo fun hcon => (hok.accessSent hcon).2.2.2.1
  have hnoXlate := hok.noXlate_of_done htrans
  obtain ⟨hhalf, hoth⟩ := hok.noHalves hval hnsent
  have hkill : (s.slots k).killed = false := by
    by_contra hcon
    rcases (hok.killed (by simpa using hcon)).2 with hsent | hsent
    · rw [hnoXlate] at hsent
      cases hsent
    · rw [hnsent] at hsent
      cases hsent
  have hreq : s.reqAt i k = false := down_of_imp hamo fun hcon => (reqAt_flags hcon).2.2.1
  have hres : s.resultAt i k = false := down_of_imp hamo fun hcon => (resultAt_done hok hcon).2
  have hdone : s.doneAt i k = false := down_of_imp hnsent fun hcon => (doneAt_spec hcon).2.1
  obtain ⟨hxlateReq, hxlateResp⟩ := xlateRespAt_of_done hok hfl hval htrans
  rw [step_noFlush hfl, updateSquash_of_not hvic, updateDone_of_not hdone,
    updateResult_of_not hres, updateKilled_of_not hkill,
    updateXlateResp_of_not hxlateResp, updateReq_of_not hreq,
    updateXlateReq_of_not hxlateReq, afterAlloc_none (allocInto_of_valid hval),
    updateAtomicDone, ← atomicDoneAt]
  cases atomicDoneAt i k with
  | false => simp [ctl, hval, hnoXlate, hnsent, hhalf, hoth, hkill]
  | true => simp [ctl, hnoXlate, hnsent, hhalf, hoth, hkill]

/-- A store that memory has accepted, or accepts now, and that completes in two
halves. -/
def posted (s : LsqState p) (i : LsqInput p) (k : Nat) : Bool :=
  (s.slots k).store && (s.slots k).cacheable && ((s.slots k).accessSent || s.reqAt i k)

/-- The result of a posted store is its own report. -/
theorem resultIsPostedStore_of_resultAt (hok : (s.slots k).Ok) (hres : s.resultAt i k) :
    s.resultIsPostedStore i = s.posted i k ∧
      (s.posted i k → (s.slots k).storeResultSent = false) := by
  rcases resultAt_cases hres with
    ⟨hrsp, htag, hat, hkill, -, hpost⟩ | ⟨hrsp, hidx, hlt, hcand⟩
  · obtain ⟨-, hlt, hval, hsent⟩ := respAt_spec hat
    have hamo := (hok.accessSent hsent).2.2.2.1
    have hnot : s.posted i k = false := by
      simp only [respIsPostedStore, respIsAccess, slotValidAt, htag, hlt, hval, hsent,
        hamo, decide_true, Bool.true_and, Bool.not_false, Bool.and_true] at hpost
      rw [posted, hpost, Bool.false_and]
    refine ⟨?_, fun hcon => ?_⟩
    · rw [resultIsPostedStore, hrsp, Bool.not_true, Bool.false_and, Bool.false_and,
        Bool.false_and, Bool.false_and, hnot]
    · rw [hnot] at hcon
      cases hcon
  · have hfnd : s.localFound i := by
      simp only [resultAt, resultFire, resultValidO, hrsp, Bool.false_or, and_eq_true] at hres
      exact hres.1.1
    have hreports : s.resultIsPostedStore i =
        ((s.slots k).store && (s.slots k).cacheable && s.postedStoreReports i k) := by
      simp only [resultIsPostedStore, hrsp, hfnd, hidx, Bool.not_false, Bool.true_and]
    have hhalf : s.posted i k → (s.slots k).storeResultSent = false := by
      intro hpost
      rw [posted, and_eq_true, and_eq_true, or_eq_true] at hpost
      by_contra hcon
      have hval := (resultAt_flags hres).1
      obtain ⟨hsent, -⟩ := hok.resultSent hval (by simpa using hcon)
      obtain ⟨-, -, hflt, -, himm⟩ := hok.accessSent hsent
      have hreq : s.reqAt i k = false := by
        by_contra hreq
        rw [(reqAt_flags (by simpa using hreq)).2.2.2.2.2.2] at hsent
        cases hsent
      have hfwd : s.loadForward k = false := by
        simp [loadForward, scanned, hpost.1.1]
      rw [not_eq_false] at hcon
      rw [reqAt] at hreq
      simp only [localCandidate, postedStoreReports, hcon, himm, hflt, hfwd,
        hreq, Bool.not_true, Bool.and_false, Bool.or_false, Bool.false_eq_true] at hcand
    refine ⟨?_, hhalf⟩
    rw [hreports, posted, postedStoreReports, ← reqAt]
    cases hsent : (s.slots k).accessSent with
    | false => rfl
    | true =>
    cases hstr : (s.slots k).store && (s.slots k).cacheable with
    | false => rfl
    | true =>
      rw [hhalf (by rw [posted, hstr, hsent]; rfl)]
      rfl

/-- The two halves of a posted store: the entry goes with the later one. -/
theorem updateHalves (hok : (s.slots k).Ok) (hpost : s.posted i k)
    (slot : LsqSlot p) (hhalf : slot.storeResultSent = (s.slots k).storeResultSent)
    (hoth : slot.accessDone = (s.slots k).accessDone)
    (hone : (s.slots k).storeResultSent → (s.slots k).accessDone = false) :
    (s.updateDone i k (s.updateResult i k slot)).ctl =
      if ((s.slots k).storeResultSent || s.resultAt i k) &&
          ((s.slots k).accessDone || s.doneAt i k) then slot.release.ctl
      else
        { slot.ctl with
          storeResultSent := (s.slots k).storeResultSent || s.resultAt i k
          accessDone := (s.slots k).accessDone || s.doneAt i k } := by
  have hsame : s.resultAt i k → s.postedStoreResultDoneSame i = s.doneAt i k := by
    intro hres
    have hisPosted := (resultIsPostedStore_of_resultAt hok hres).1
    rw [hpost] at hisPosted
    rw [resultAt, and_eq_true, beq_iff_eq] at hres
    rw [postedStoreResultDoneSame, hres.1, hisPosted, hres.2, doneAt,
      Bool.true_and, Bool.true_and, Bool.beq_comm]
  have hnotSame : s.resultAt i k = false → s.doneAt i k →
      s.postedStoreResultDoneSame i = false := by
    intro hres hdone
    rw [doneAt, and_eq_true, beq_iff_eq] at hdone
    rw [postedStoreResultDoneSame, hdone.2]
    rw [resultAt] at hres
    rw [Bool.and_right_comm, Bool.and_right_comm (s.resultFire i), hres,
      Bool.false_and, Bool.false_and]
  rw [updateDone, ← doneAt, updateResult, ← resultAt]
  cases hres : s.resultAt i k with
  | false =>
    cases hdone : s.doneAt i k with
    | false =>
      cases hsent : (s.slots k).storeResultSent with
      | false => simp [ctl, hhalf, ← hoth, hsent]
      | true => simp [ctl, hhalf, hoth, hsent, hone hsent]
    | true =>
      rw [hnotSame hres hdone]
      cases hsent : (s.slots k).storeResultSent with
      | false => simp [ctl, hhalf, hsent]
      | true => simp [ctl, release]
  | true =>
    obtain ⟨hisPosted, hfst⟩ := resultIsPostedStore_of_resultAt hok hres
    rw [hpost] at hisPosted
    rw [hsame hres, hisPosted, hfst hpost]
    cases hdone : s.doneAt i k with
    | false =>
      cases hend : (s.slots k).accessDone with
      | false => simp [ctl, hoth, hend]
      | true => simp [ctl, release]
    | true =>
      cases hend : (s.slots k).accessDone with
      | false => simp [ctl, release]
      | true => simp [ctl, release]

section

variable (hport : AtomicPorts s i) (hok : (s.slots k).Ok) (hfl : i.flushI = false)
  (hval : (s.slots k).valid) (hkill : (s.slots k).killed = false)
  (hvic : s.squashVictim i k = false)

include hport hok hfl hval hkill hvic

theorem step_posted (hpost : s.posted i k) : ((s.step i).slots k).ctl =
      if ((s.slots k).storeResultSent || s.resultAt i k) &&
          ((s.slots k).accessDone || s.doneAt i k) then
        ⟨false, false, false, false, false, false⟩
      else
        ⟨true, false, true, (s.slots k).storeResultSent || s.resultAt i k,
          (s.slots k).accessDone || s.doneAt i k, false⟩ := by
  have hsent : (s.slots k).accessSent ∨ s.reqAt i k := by
    simp only [posted, and_eq_true, or_eq_true] at hpost
    exact hpost.2
  obtain ⟨htrans, hamo⟩ : (s.slots k).xlateDone ∧ (s.slots k).atomic = false := by
    rcases hsent with hsent | hsent
    · exact ⟨(hok.accessSent hsent).2.1, (hok.accessSent hsent).2.2.2.1⟩
    · exact ⟨(reqAt_flags hsent).2.2.2.2.2.1, (reqAt_flags hsent).2.2.1⟩
  have hatomicDone : atomicDoneAt i k = false :=
    down_of_imp hamo fun hcon => (atomicDoneAt_flags hport hcon).2
  obtain ⟨hxlateReq, hxlateResp⟩ := xlateRespAt_of_done hok hfl hval htrans
  have hnoXlate := hok.noXlate_of_done htrans
  rw [step_noFlush hfl, updateSquash_of_not hvic,
    updateAtomicDone_of_not hatomicDone, updateKilled_of_not hkill,
    updateXlateResp_of_not hxlateResp, updateXlateReq_of_not hxlateReq,
    afterAlloc_none (allocInto_of_valid hval)]
  have hreq : s.updateReq i k (s.slots k) = { s.slots k with accessSent := true } := by
    rw [updateReq, ← reqAt]
    rcases hsent with hsent | hsent
    · cases s.reqAt i k with
      | false =>
        rw [if_low]
        cases hslot : s.slots k
        simp_all
      | true => rfl
    · rw [hsent, if_pos rfl]
  rw [hreq, updateHalves hok hpost { s.slots k with accessSent := true } rfl rfl (hok.oneHalf hval)]
  simp [ctl, release, hval, hnoXlate, hkill]

/-- Any other translated entry that no recovery hits. -/
theorem step_plain (htrans : (s.slots k).xlateDone)
    (hamo : (s.slots k).atomic = false) (hpost : s.posted i k = false) :
    ((s.step i).slots k).ctl =
      if s.resultAt i k then ⟨false, false, false, false, false, false⟩
      else ⟨true, false, (s.slots k).accessSent || s.reqAt i k, false, false, false⟩ := by
  have hatomicDone : atomicDoneAt i k = false :=
    down_of_imp hamo fun hcon => (atomicDoneAt_flags hport hcon).2
  have hnotPosted : (s.slots k).accessSent →
      ((s.slots k).store && (s.slots k).cacheable) = false := by
    intro hsent
    rw [posted, hsent, Bool.true_or, Bool.and_true] at hpost
    exact hpost
  have hdone : s.doneAt i k = false := by
    by_contra hcon
    obtain ⟨-, hsent, hstr, hcach, -⟩ := doneAt_spec (by simpa using hcon)
    have hnot := hnotPosted hsent
    rw [hstr, hcach] at hnot
    cases hnot
  have hhalf : (s.slots k).storeResultSent = false := by
    by_contra hcon
    obtain ⟨hsent, hstr, hcach⟩ := hok.resultSent hval (by simpa using hcon)
    have hnot := hnotPosted hsent
    rw [hstr, hcach] at hnot
    cases hnot
  have hoth : (s.slots k).accessDone = false := by
    by_contra hcon
    obtain ⟨hsent, hstr, hcach⟩ := hok.accessDone (by simpa using hcon)
    have hnot := hnotPosted hsent
    rw [hstr, hcach] at hnot
    cases hnot
  obtain ⟨hxlateReq, hxlateResp⟩ := xlateRespAt_of_done hok hfl hval htrans
  have hnoXlate := hok.noXlate_of_done htrans
  rw [step_noFlush hfl, updateSquash_of_not hvic,
    updateAtomicDone_of_not hatomicDone, updateDone_of_not hdone,
    updateKilled_of_not hkill, updateXlateResp_of_not hxlateResp,
    updateXlateReq_of_not hxlateReq, afterAlloc_none (allocInto_of_valid hval),
    updateResult, ← resultAt, updateReq, ← reqAt]
  cases hres : s.resultAt i k with
  | false =>
    cases s.reqAt i k with
    | false => simp [ctl, hval, hnoXlate, hhalf, hoth, hkill]
    | true => simp [ctl, hval, hnoXlate, hhalf, hoth, hkill]
  | true =>
    rw [(resultIsPostedStore_of_resultAt hok hres).1, hpost]
    cases s.reqAt i k with
    | false => simp [ctl, release, hkill]
    | true => simp [ctl, release, hkill]

end

/-! ## A flush -/

/-- Outside the accepted stores, a flush takes no result or release of a slot
that is not kept for them. -/
theorem doneAt_of_not_store (h : ((s.slots k).store && (s.slots k).accessSent) = false) :
    s.doneAt i k = false := by
  by_contra hcon
  obtain ⟨-, hsent, hstr, -⟩ := doneAt_spec (by simpa using hcon)
  rw [hsent, hstr] at h
  cases h

section

variable (hport : AtomicPorts s i) (hok : (s.slots k).Ok) (hfl : i.flushI)

include hport hok hfl

theorem step_flush_store (hstr : (s.slots k).store) (hsent : (s.slots k).accessSent) :
    ((s.step i).slots k).ctl =
      if (s.slots k).killed then (s.slots k).ctl
      else if (s.slots k).cacheable then
        if ((s.slots k).storeResultSent || s.resultAt i k) &&
            ((s.slots k).accessDone || s.doneAt i k) then
          ⟨false, false, false, false, false, false⟩
        else
          ⟨true, false, true, (s.slots k).storeResultSent || s.resultAt i k,
            (s.slots k).accessDone || s.doneAt i k, false⟩
      else if s.resultAt i k then ⟨false, false, false, false, false, false⟩
      else (s.slots k).ctl := by
  obtain ⟨hval, htrans, -, hamo, -⟩ := hok.accessSent hsent
  have hatomicDone : atomicDoneAt i k = false :=
    down_of_imp hamo fun hcon => (atomicDoneAt_flags hport hcon).2
  have hnoXlate := hok.noXlate_of_done htrans
  have hkeep : s.updateFlush i k (s.slots k) = s.slots k := by
    rw [updateFlush, hval, hstr, hsent, Bool.and_self, Bool.and_self, if_pos rfl]
    cases hslot : s.slots k
    simp_all
  rw [step_flush hfl, updateAtomicDone_of_not hatomicDone, hkeep]
  cases hkill : (s.slots k).killed with
  | true =>
    have hres : s.resultAt i k = false := down_of_imp hkill fun hcon => (resultAt_flags hcon).2.1
    have hdone : s.doneAt i k = false := down_of_imp hkill fun hcon => (doneAt_spec hcon).2.2.2.2.1
    rw [updateDone_of_not hdone, updateResult_of_not hres]
    rfl
  | false =>
  cases hcach : (s.slots k).cacheable with
  | true =>
    have hpost : s.posted i k := by
      simp [posted, hstr, hcach, hsent]
    rw [updateHalves hok hpost _ rfl rfl (hok.oneHalf hval)]
    simp [ctl, release, hval, hnoXlate, hkill, hsent]
  | false =>
    have hpost : s.posted i k = false := by
      simp [posted, hcach]
    have hdone : s.doneAt i k = false := down_of_imp hcach fun hcon => (doneAt_spec hcon).2.2.2.1
    rw [updateDone_of_not hdone, updateResult, ← resultAt]
    cases hres : s.resultAt i k with
    | false => simp
    | true =>
      rw [(resultIsPostedStore_of_resultAt hok hres).1, hpost]
      simp [ctl, release, hkill]

theorem step_flush_atomic (hirrev : i.atomicIrrevocableI) (htag : i.atomicTagI = k) :
    ((s.step i).slots k).ctl = ⟨!atomicDoneAt i k, false, false, false, false, false⟩ := by
  obtain ⟨-, hval, hamo⟩ := hport.atomicIrrevocable hirrev
  rw [htag] at hval hamo
  have hnsent : (s.slots k).accessSent = false :=
    down_of_imp hamo fun hcon => (hok.accessSent hcon).2.2.2.1
  have hnoXlate := hok.noXlate_of_done (hok.exempt (.inl hamo))
  obtain ⟨hhalf, hoth⟩ := hok.noHalves hval hnsent
  have hkill : (s.slots k).killed = false := by
    by_contra hcon
    rcases (hok.killed (by simpa using hcon)).2 with hsent | hsent
    · rw [hnoXlate] at hsent
      cases hsent
    · rw [hnsent] at hsent
      cases hsent
  have hres : s.resultAt i k = false := down_of_imp hamo fun hcon => (resultAt_done hok hcon).2
  have hdone := doneAt_of_not_store (i := i)
    (show ((s.slots k).store && (s.slots k).accessSent) = false by
      rw [hnsent, Bool.and_false])
  rw [step_flush hfl, updateDone_of_not hdone, updateResult_of_not hres,
    updateFlush, hnsent, hirrev, htag, beq_self_eq_true, updateAtomicDone, ← atomicDoneAt]
  cases atomicDoneAt i k with
  | false => simp [ctl, hnoXlate, hhalf, hoth, hkill]
  | true => simp [ctl, hnoXlate, hhalf, hoth, hkill]

/-- A flush keeps the tag of an unanswered translation. -/
theorem step_flush_xlate (hsent : (s.slots k).xlateSent) (hrsp : s.xlateRespAt i k = false) :
    ((s.step i).slots k).ctl = { (s.slots k).ctl with killed := true } := by
  obtain ⟨hval, huntr, hnsent, hamo, -⟩ := hok.xlateSent hsent
  have hatomicDone : atomicDoneAt i k = false :=
    down_of_imp hamo fun hcon => (atomicDoneAt_flags hport hcon).2
  have hnotIrrevocable : (i.atomicIrrevocableI && i.atomicTagI == k) = false := by
    by_contra hcon
    rw [not_eq_false, and_eq_true, beq_iff_eq] at hcon
    have hflags := (hport.atomicIrrevocable hcon.1).2.2
    rw [hcon.2, hamo] at hflags
    cases hflags
  have hres : s.resultAt i k = false := down_of_imp huntr fun hcon => (resultAt_done hok hcon).1
  have hdone := doneAt_of_not_store (i := i)
    (show ((s.slots k).store && (s.slots k).accessSent) = false by
      rw [hnsent, Bool.and_false])
  rw [xlateRespAt] at hrsp
  rw [step_flush hfl, updateAtomicDone_of_not hatomicDone, updateDone_of_not hdone,
    updateResult_of_not hres, updateFlush, hnsent, hnotIrrevocable, hsent, hrsp, hval]
  simp [ctl, hval, hsent, hnsent]

end

theorem step_flush_drop (hfl : i.flushI)
    (hstr : ((s.slots k).valid && (s.slots k).store && (s.slots k).accessSent) = false)
    (hamo : (i.atomicIrrevocableI && i.atomicTagI == k) = false)
    (hxl : ((s.slots k).valid && (s.slots k).xlateSent && !s.xlateRespAt i k) = false)
    (hdone : s.doneAt i k = false) : ((s.step i).slots k).Free := by
  rw [xlateRespAt] at hxl
  have hdrop : s.updateFlush i k (s.slots k) = (s.slots k).drop := by
    rw [updateFlush, hstr, hamo, hxl]
    rfl
  have hres : (s.updateResult i k (s.slots k).drop).Free := by
    rw [updateResult]
    split
    · split
      · split
        · exact ⟨rfl, rfl, rfl, rfl, rfl⟩
        · exact ⟨rfl, rfl, rfl, rfl, rfl⟩
      · exact ⟨rfl, rfl, rfl, rfl, rfl⟩
    · exact ⟨rfl, rfl, rfl, rfl, rfl⟩
  rw [step_flush hfl, updateDone_of_not hdone, hdrop, updateAtomicDone]
  split
  · exact ⟨rfl, hres.xlateSent, hres.accessSent, hres.accessDone, hres.killed⟩
  · exact hres

/-! ## The flags stay consistent -/

theorem exempt_step (hok : (s.slots k).Ok)
    (h : ((s.step i).slots k).atomic ∨ ((s.step i).slots k).immediate) :
    ((s.step i).slots k).xlateDone := by
  change ((s.step i).slots k).op.atomic ∨ ((s.step i).slots k).op.immediate at h
  change ((s.step i).slots k).xlate.done
  rw [step_op] at h
  rw [step_xlate]
  split
  · rfl
  cases halloc : s.allocInto i k with
  | none =>
    rw [afterAlloc_none halloc] at h ⊢
    exact hok.exempt h
  | some entry =>
    rw [afterAlloc_some (show s.allocInto i k = some (entry.1, entry.2) from halloc)] at h ⊢
    change (entry.2 && entry.1.atomic) ∨ entry.1.immediate at h
    change (entry.1.immediate || (entry.2 && entry.1.atomic))
    rcases h with h | h
    · rw [h, Bool.or_true]
    · rw [h, Bool.true_or]

end LsqState

theorem LsqSlot.Ok.of_idle {slot : LsqSlot p} {v : Bool}
    (hctl : slot.ctl = ⟨v, false, false, false, false, false⟩)
    (hexempt : slot.atomic ∨ slot.immediate → slot.xlateDone) : slot.Ok := by
  simp only [ctl, LsqCtl.mk.injEq] at hctl
  obtain ⟨-, hxl, hsent, hhalf, hoth, hkill⟩ := hctl
  constructor
  · intro h
    rw [hkill] at h
    cases h
  · intro h
    rw [hxl] at h
    cases h
  · intro h
    rw [hsent] at h
    cases h
  · intro h
    rw [hoth] at h
    cases h
  · intro _ h
    rw [hhalf] at h
    cases h
  · intro _ h
    rw [hhalf] at h
    cases h
  · exact hexempt

theorem LsqSlot.Ok.of_free {slot : LsqSlot p} (hfree : slot.Free)
    (hexempt : slot.atomic ∨ slot.immediate → slot.xlateDone) : slot.Ok := by
  constructor
  · intro h
    rw [hfree.killed] at h
    cases h
  · intro h
    rw [hfree.xlateSent] at h
    cases h
  · intro h
    rw [hfree.accessSent] at h
    cases h
  · intro h
    rw [hfree.accessDone] at h
    cases h
  · intro h
    rw [hfree.valid] at h
    cases h
  · intro h
    rw [hfree.valid] at h
    cases h
  · exact hexempt

namespace LsqSlot

variable {p : LsqParams}

/-- The entry still holds the same operation with the same translation. -/
structure SameParts (slot slot' : LsqSlot p) : Prop where
  op : slot'.op = slot.op
  xlate : slot'.xlate = slot.xlate

namespace SameParts

variable {slot slot' : LsqSlot p} (h : SameParts slot slot')
include h

theorem store : slot'.store = slot.store := congrArg LsqOp.store h.op
theorem atomic : slot'.atomic = slot.atomic := congrArg LsqOp.atomic h.op
theorem immediate : slot'.immediate = slot.immediate := congrArg LsqOp.immediate h.op
theorem xlateDone : slot'.xlateDone = slot.xlateDone := congrArg LsqXlate.done h.xlate

theorem xlateFault : slot'.xlateFault = slot.xlateFault :=
  congrArg (fun x : LsqXlate => x.done && (x.accessFault || x.pageFault)) h.xlate

theorem cacheable : slot'.cacheable = slot.cacheable :=
  congrArg (fun x : LsqXlate => p.cacheableSize != 0 &&
    decide (x.paddr - p.cacheableBase < p.cacheableSize)) h.xlate

/-- Flags that agree with the operation and its translation. -/
theorem ok {c : LsqCtl} (hctl : slot'.ctl = c)
    (hkill : c.killed → c.valid ∧ (c.xlateSent ∨ c.accessSent))
    (hxl : c.xlateSent → c.valid ∧ slot.xlateDone = false ∧
      c.accessSent = false ∧ slot.atomic = false ∧ slot.immediate = false)
    (hsent : c.accessSent → c.valid ∧ slot.xlateDone ∧
      slot.xlateFault = false ∧ slot.atomic = false ∧ slot.immediate = false)
    (hdone : c.accessDone → c.accessSent ∧ slot.store ∧ slot.cacheable)
    (hres : c.valid → c.storeResultSent → c.accessSent ∧ slot.store ∧ slot.cacheable)
    (hone : c.valid → c.storeResultSent → c.accessDone = false)
    (hexempt : slot.atomic ∨ slot.immediate → slot.xlateDone) : slot'.Ok := by
  subst hctl
  constructor
  · exact hkill
  · rw [h.xlateDone, h.atomic, h.immediate]
    exact hxl
  · rw [h.xlateDone, h.xlateFault, h.atomic, h.immediate]
    exact hsent
  · rw [h.store, h.cacheable]
    exact hdone
  · rw [h.store, h.cacheable]
    exact hres
  · exact hone
  · rw [h.xlateDone, h.atomic, h.immediate]
    exact hexempt

/-- The same entry with the same flags. -/
theorem ok_of_same (hok : slot.Ok) (hctl : slot'.ctl = slot.ctl) : slot'.Ok :=
  h.ok hctl hok.killed hok.xlateSent hok.accessSent hok.accessDone hok.resultSent
    hok.oneHalf hok.exempt

theorem ok_of_killed (hok : slot.Ok) (hctl : slot'.ctl = { slot.ctl with killed := true })
    (hsent : slot.xlateSent ∨ slot.accessSent) : slot'.Ok := by
  have hval : slot.valid := by
    rcases hsent with hsent | hsent
    · exact (hok.xlateSent hsent).1
    · exact (hok.accessSent hsent).1
  exact h.ok hctl (fun _ => ⟨hval, hsent⟩) hok.xlateSent hok.accessSent
    hok.accessDone hok.resultSent hok.oneHalf hok.exempt

/-- A posted store with at most one half complete. -/
theorem ok_of_posted {r d : Bool} (hctl : slot'.ctl = ⟨true, false, true, r, d, false⟩)
    (hone : (r && d) = false)
    (htrans : slot.xlateDone) (hflt : slot.xlateFault = false)
    (hamo : slot.atomic = false) (himm : slot.immediate = false)
    (hstr : slot.store) (hcach : slot.cacheable) : slot'.Ok := by
  apply h.ok hctl
  · intro hcon
    cases hcon
  · intro hcon
    cases hcon
  · exact fun _ => ⟨rfl, htrans, hflt, hamo, himm⟩
  · exact fun _ => ⟨rfl, hstr, hcach⟩
  · exact fun _ _ => ⟨rfl, hstr, hcach⟩
  · intro _ hr
    change r at hr
    rw [hr, Bool.true_and] at hone
    exact hone
  · exact fun _ => htrans

end SameParts

end LsqSlot

namespace LsqState

variable {p : LsqParams} {s : LsqState p} {i : LsqInput p} {k : Nat}

theorem sameParts_step (halloc : s.allocInto i k = none) (hwrs : s.xlateWrites i k = false) :
    LsqSlot.SameParts (s.slots k) ((s.step i).slots k) where
  op := by rw [step_op, afterAlloc_none halloc]
  xlate := by
    rw [step_xlate, hwrs, if_low, afterAlloc_none halloc]

theorem xlateWrites_of_flush (hfl : i.flushI) : s.xlateWrites i k = false := by
  rw [xlateWrites, hfl]
  rfl

theorem xlateWrites_eq (hfl : i.flushI = false) :
    s.xlateWrites i k = (s.xlateRespAt i k && !(s.slots k).killed) := by
  rw [xlateWrites, hfl, Bool.not_false, Bool.true_and, xlateRespAt]

theorem allocInto_of_flush (hfl : i.flushI) : s.allocInto i k = none := by
  rw [allocInto, hfl, if_pos rfl]

theorem sameParts_of_flush (hfl : i.flushI) : LsqSlot.SameParts (s.slots k) ((s.step i).slots k) :=
  sameParts_step (allocInto_of_flush hfl) (xlateWrites_of_flush hfl)

theorem sameParts_of_noXlate (hfl : i.flushI = false)
    (hval : (s.slots k).valid) (hrsp : s.xlateRespAt i k = false) :
    LsqSlot.SameParts (s.slots k) ((s.step i).slots k) := by
  apply sameParts_step (allocInto_of_valid hval)
  rw [xlateWrites_eq hfl, hrsp, Bool.false_and]

theorem ok_of_halves (hsame : LsqSlot.SameParts (s.slots k) ((s.step i).slots k))
    (htrans : (s.slots k).xlateDone)
    (hflt : (s.slots k).xlateFault = false) (hamo : (s.slots k).atomic = false)
    (himm : (s.slots k).immediate = false)
    (hstr : (s.slots k).store) (hcach : (s.slots k).cacheable)
    {r d : Bool}
    (hctl : ((s.step i).slots k).ctl =
      if r && d then ⟨false, false, false, false, false, false⟩
      else ⟨true, false, true, r, d, false⟩)
    (hexempt : ((s.step i).slots k).atomic ∨
      ((s.step i).slots k).immediate → ((s.step i).slots k).xlateDone) :
    ((s.step i).slots k).Ok := by
  cases hboth : r && d with
  | true =>
    rw [hboth, if_pos rfl] at hctl
    exact .of_idle hctl hexempt
  | false =>
    rw [hboth, if_low] at hctl
    exact hsame.ok_of_posted hctl hboth htrans hflt hamo himm hstr hcach

theorem ok_flush (hport : AtomicPorts s i) (hok : (s.slots k).Ok)
    (hfl : i.flushI) : ((s.step i).slots k).Ok := by
  have hsame := sameParts_of_flush (s := s) (k := k) hfl
  have hexempt := exempt_step (i := i) hok
  cases hkeep : (s.slots k).store && (s.slots k).accessSent with
  | true =>
    rw [and_eq_true] at hkeep
    obtain ⟨hstr, hsent⟩ := hkeep
    obtain ⟨-, htrans, hflt, hamo, himm⟩ := hok.accessSent hsent
    have hctl := step_flush_store hport hok hfl hstr hsent
    cases hkill : (s.slots k).killed with
    | true =>
      rw [hkill, if_pos rfl] at hctl
      exact hsame.ok_of_same hok hctl
    | false =>
      rw [hkill, if_low] at hctl
      cases hcach : (s.slots k).cacheable with
      | true =>
        rw [hcach, if_pos rfl] at hctl
        exact ok_of_halves hsame htrans hflt hamo himm hstr
          hcach hctl hexempt
      | false =>
        rw [hcach, if_low] at hctl
        cases hres : s.resultAt i k with
        | true =>
          rw [hres, if_pos rfl] at hctl
          exact .of_idle hctl hexempt
        | false =>
          rw [hres, if_low] at hctl
          exact hsame.ok_of_same hok hctl
  | false =>
  cases hamo : i.atomicIrrevocableI && i.atomicTagI == k with
  | true =>
    rw [and_eq_true, beq_iff_eq] at hamo
    exact .of_idle (step_flush_atomic hport hok hfl hamo.1 hamo.2) hexempt
  | false =>
    have hdone := doneAt_of_not_store (i := i) hkeep
    have hstr : ((s.slots k).valid && (s.slots k).store && (s.slots k).accessSent) = false := by
      rw [Bool.and_assoc, hkeep, Bool.and_false]
    cases hxl : (s.slots k).valid && (s.slots k).xlateSent && !s.xlateRespAt i k with
    | true =>
      simp only [and_eq_true, not_eq_true'] at hxl
      exact hsame.ok_of_killed hok (step_flush_xlate hport hok hfl hxl.1.2 hxl.2) (.inl hxl.1.2)
    | false =>
      exact .of_free (step_flush_drop hfl hstr hamo hxl hdone) hexempt

theorem ok_alloc (hport : AtomicPorts s i) (hok : (s.slots k).Ok) {a : LsqAlloc p}
    {store : Bool} (halloc : s.allocInto i k = some (a, store)) : ((s.step i).slots k).Ok := by
  obtain ⟨hfl, -, -, hinvalid, -⟩ := allocInto_some halloc
  have hctl := step_alloc hport hok halloc
  have hexempt := exempt_step (i := i) hok
  cases hsent : s.xlateReqAt i k && !s.xlateRespAt i k with
  | false =>
    rw [hsent] at hctl
    exact .of_idle hctl hexempt
  | true =>
    rw [hsent] at hctl
    rw [and_eq_true, not_eq_true'] at hsent
    obtain ⟨hreq, hrsp⟩ := hsent
    have hsame : LsqSlot.SameParts (.allocated a store i.translationBypassI)
        ((s.step i).slots k) := by
      constructor
      · rw [step_op, afterAlloc_some halloc]
      · rw [step_xlate, xlateWrites_eq hfl, hrsp, Bool.false_and, if_low, afterAlloc_some halloc]
    obtain ⟨himm, hamo⟩ : a.immediate = false ∧ (store && a.atomic) = false := by
      rcases (xlateReqAt_cases hfl hreq).2 with ⟨-, hcand⟩ | hsome
      · rw [(xlateCandidate_flags hcand).1] at hinvalid
        cases hinvalid
      · obtain ⟨b, store', hsome, hflags⟩ := hsome
        rw [halloc] at hsome
        cases hsome
        exact hflags
    have huntr : (a.immediate || (store && a.atomic)) = false := by
      rw [himm, hamo, Bool.false_or]
    apply hsame.ok hctl
    · intro hcon
      cases hcon
    · exact fun _ => ⟨rfl, huntr, rfl, hamo, himm⟩
    · intro hcon
      cases hcon
    · intro hcon
      cases hcon
    · intro _ hcon
      cases hcon
    · intro _ hcon
      cases hcon
    · intro hcon
      change (store && a.atomic) ∨ a.immediate at hcon
      rw [hamo, himm] at hcon
      rcases hcon with hcon | hcon <;> cases hcon

theorem ok_waiting (hok : (s.slots k).Ok) (hfl : i.flushI = false)
    (hval : (s.slots k).valid) (huntr : (s.slots k).xlateDone = false)
    (hctl : ((s.step i).slots k).ctl =
      ⟨true, ((s.slots k).xlateSent || s.xlateReqAt i k) && !s.xlateRespAt i k,
        false, false, false, false⟩)
    (hsent : (((s.slots k).xlateSent || s.xlateReqAt i k) && !s.xlateRespAt i k)) :
    ((s.step i).slots k).Ok := by
  rw [hsent] at hctl
  rw [and_eq_true, not_eq_true'] at hsent
  have hnone : (s.slots k).atomic = false ∧ (s.slots k).immediate = false := by
    constructor
    · by_contra hcon
      rw [hok.exempt (.inl (by simpa using hcon))] at huntr
      cases huntr
    · by_contra hcon
      rw [hok.exempt (.inr (by simpa using hcon))] at huntr
      cases huntr
  apply (sameParts_of_noXlate hfl hval hsent.2).ok hctl
  · intro hcon
    cases hcon
  · exact fun _ => ⟨rfl, huntr, rfl, hnone⟩
  · intro hcon
    cases hcon
  · intro hcon
    cases hcon
  · intro _ hcon
    cases hcon
  · intro _ hcon
    cases hcon
  · exact hok.exempt

section

variable (hport : AtomicPorts s i) (hok : (s.slots k).Ok)

include hport hok

theorem ok_translated (hfl : i.flushI = false) (hval : (s.slots k).valid)
    (hkill : (s.slots k).killed = false) (hvic : s.squashVictim i k = false)
    (htrans : (s.slots k).xlateDone)
    (hamo : (s.slots k).atomic = false) : ((s.step i).slots k).Ok := by
  have hexempt := exempt_step (i := i) hok
  have hsame := sameParts_of_noXlate hfl hval (xlateRespAt_of_done hok hfl hval htrans).2
  have hflags : ((s.slots k).accessSent || s.reqAt i k) →
      (s.slots k).xlateFault = false ∧ (s.slots k).immediate = false := by
    intro hsent
    rw [or_eq_true] at hsent
    rcases hsent with hsent | hsent
    · exact ⟨(hok.accessSent hsent).2.2.1, (hok.accessSent hsent).2.2.2.2⟩
    · exact ⟨(reqAt_flags hsent).2.2.2.2.1, (reqAt_flags hsent).2.2.2.1⟩
  cases hpost : s.posted i k with
  | true =>
    have hctl := step_posted hport hok hfl hval hkill hvic hpost
    rw [posted, and_eq_true, and_eq_true] at hpost
    obtain ⟨⟨hstr, hcach⟩, hsent⟩ := hpost
    exact ok_of_halves hsame htrans (hflags hsent).1 hamo (hflags hsent).2
      hstr hcach hctl hexempt
  | false =>
    have hctl := step_plain hport hok hfl hval hkill hvic htrans hamo hpost
    cases hres : s.resultAt i k with
    | true =>
      rw [hres, if_pos rfl] at hctl
      exact .of_idle hctl hexempt
    | false =>
      rw [hres, if_low] at hctl
      apply hsame.ok hctl
      · intro hcon
        cases hcon
      · intro hcon
        cases hcon
      · intro hsent
        exact ⟨rfl, htrans, (hflags hsent).1, hamo, (hflags hsent).2⟩
      · intro hcon
        cases hcon
      · intro _ hcon
        cases hcon
      · intro _ hcon
        cases hcon
      · exact hok.exempt

theorem ok_valid (hfl : i.flushI = false) (hval : (s.slots k).valid) : ((s.step i).slots k).Ok := by
  have hexempt := exempt_step (i := i) hok
  cases hvic : s.squashVictim i k with
  | true =>
    cases hkeep : ((s.slots k).xlateSent || (s.slots k).accessSent) && !s.answeredNow i k with
    | true =>
      rw [and_eq_true, or_eq_true, not_eq_true'] at hkeep
      have hrsp := (respAt_of_not_answered hkeep.2).2.1
      exact (sameParts_of_noXlate hfl hval hrsp).ok_of_killed hok
        (step_quarantine hport hok hfl hvic hkeep.1 hkeep.2) hkeep.1
    | false =>
      rw [Bool.and_eq_false_iff, Bool.not_eq_false'] at hkeep
      exact .of_idle (step_squash hfl hval hvic hkeep) hexempt
  | false =>
  cases hkill : (s.slots k).killed with
  | true =>
    have hctl := step_killed hport hok hfl hkill hvic
    split at hctl
    · exact .of_idle hctl hexempt
    · rename_i hnone
      simp only [or_eq_true, not_or, Bool.not_eq_true] at hnone
      exact (sameParts_of_noXlate hfl hval hnone.1.1).ok_of_same hok hctl
  | false =>
  cases htrans : (s.slots k).xlateDone with
  | false =>
    have hctl := step_untranslated hport hok hfl hval hkill hvic htrans
    cases hsent : ((s.slots k).xlateSent || s.xlateReqAt i k) && !s.xlateRespAt i k with
    | false =>
      rw [hsent] at hctl
      exact .of_idle hctl hexempt
    | true => exact ok_waiting hok hfl hval htrans hctl hsent
  | true =>
  cases hamo : (s.slots k).atomic with
  | true =>
    exact .of_idle (step_atomic hok hfl hval hvic hamo) hexempt
  | false =>
    exact ok_translated hport hok hfl hval hkill hvic htrans hamo

/-- The flags of an entry stay consistent. -/
theorem ok_step : ((s.step i).slots k).Ok := by
  cases hfl : i.flushI with
  | true => exact ok_flush hport hok hfl
  | false =>
  cases halloc : s.allocInto i k with
  | some entry =>
    exact ok_alloc hport hok (show s.allocInto i k = some (entry.1, entry.2) from halloc)
  | none =>
  cases hval : (s.slots k).valid with
  | false =>
    rw [step_invalid hport hok hfl halloc hval]
    exact hok
  | true => exact ok_valid hport hok hfl hval

end

/-! ## Translations under way -/

/-- A request that is not from the allocation port is for a waiting entry. -/
theorem candidate_of_request (hfire : s.xlateReqFire i) (hsrc : s.xlateRequestFromAlloc i = false) :
    s.xlateReqTagO i < p.depth ∧ s.xlateCandidate (s.xlateReqTagO i) := by
  simp only [xlateReqFire, xlateReqValidO, hsrc, Bool.or_false, and_eq_true] at hfire
  have hfnd := hfire.1.1.1
  rw [xlateReqTagO, hfnd, if_pos rfl]
  exact scan_getD hfnd rfl

theorem invalid_of_fromAlloc (h : s.xlateRequestFromAlloc i) :
    (s.slots (s.xlateReqTagO i)).valid = false := by
  rw [xlateRequestFromAlloc, and_eq_true, not_eq_true', or_eq_true] at h
  obtain ⟨hfnd, hsel⟩ := h
  rw [xlateReqTagO, hfnd, if_low]
  cases hload : s.xlateAllocSelectLoad i with
  | true =>
    rw [if_pos rfl]
    simp only [xlateAllocSelectLoad, loadAllocNeedsXlate, and_eq_true] at hload
    exact (loadAllocFire_free hload.1.1).2
  | false =>
    rw [hload, or_iff_right Bool.false_ne_true] at hsel
    rw [if_low]
    simp only [xlateAllocSelectStore, storeAllocNeedsXlate, and_eq_true] at hsel
    exact (storeAllocFire_free hsel.1.1.1).2.2

theorem notSent_of_xlateReqAt (hok : (s.slots k).Ok) (h : s.xlateReqAt i k) :
    (s.slots k).xlateSent = false := by
  rw [xlateReqAt, and_eq_true, beq_iff_eq] at h
  obtain ⟨hfire, rfl⟩ := h
  cases hsrc : s.xlateRequestFromAlloc i with
  | true => exact (hok.free (invalid_of_fromAlloc hsrc)).xlateSent
  | false =>
    exact (xlateCandidate_flags (candidate_of_request hfire hsrc).2).2.2.2.2.2

/-- A response is expected for a request under way and for one that is accepted in
the same cycle. -/
theorem xlateRespIsExpected_of (hk : i.xlateRespTagI = k)
    (h : (k < p.depth ∧ (s.slots k).valid ∧ (s.slots k).xlateSent) ∨
      s.xlateReqAt i k) : s.xlateRespIsExpected i := by
  subst hk
  rw [xlateRespIsExpected, slotValidAt]
  rcases h with ⟨hlt, hval, hsent⟩ | hreq
  · rw [hval, hsent, decide_eq_true hlt]
    rfl
  have hmatches : s.xlateRespMatchesRequest i := hreq
  rw [xlateReqAt, and_eq_true, beq_iff_eq] at hreq
  obtain ⟨hfire, htag⟩ := hreq
  rw [xlateRespMatchesAllocation, hmatches]
  cases hsrc : s.xlateRequestFromAlloc i with
  | true => rw [Bool.and_self, Bool.or_true]
  | false =>
    obtain ⟨hlt, hcand⟩ := candidate_of_request hfire hsrc
    rw [htag] at hlt hcand
    rw [(xlateCandidate_flags hcand).1, decide_eq_true hlt, Bool.or_true]
    rfl

theorem xlateRespAt_of_answered (hok : (s.slots k).Ok)
    (hrsp : s.respFire i → (s.slots i.respTagI).xlateSent = false)
    (hsent : (s.slots k).xlateSent) (hansd : s.answeredNow i k) : s.xlateRespAt i k := by
  have hnsent := (hok.xlateSent hsent).2.2.1
  simp only [answeredNow, or_eq_true, and_eq_true, beq_iff_eq] at hansd
  rcases hansd with (⟨hfire, rfl⟩ | hxl) | ⟨hfire, rfl⟩
  · rw [hrsp hfire] at hsent
    cases hsent
  · rw [xlateRespAt, hxl.1, hxl.2, beq_self_eq_true, Bool.and_self]
  simp only [storeDoneFire, storeDoneKilledFire, storeDoneIsExpected, and_eq_true, hnsent] at hfire
  rcases hfire with hfire | hfire
  · cases hfire.1.2.1.1.1.2
  · cases hfire.1.2.1.1.1.2

section

variable (hport : AtomicPorts s i) (hok : (s.slots k).Ok)

include hport hok

theorem xlateSent_flush (hfl : i.flushI) :
    ((s.step i).slots k).xlateSent = ((s.slots k).xlateSent && !s.xlateRespAt i k) := by
  have hctl := fun {c} (h : ((s.step i).slots k).ctl = c) => congrArg LsqCtl.xlateSent h
  cases hkeep : (s.slots k).store && (s.slots k).accessSent with
  | true =>
    rw [and_eq_true] at hkeep
    have hnone := hok.noXlate_of_done (hok.accessSent hkeep.2).2.1
    have hafter := hctl (step_flush_store hport hok hfl hkeep.1 hkeep.2)
    rw [hnone, Bool.false_and]
    refine hafter.trans ?_
    split
    · exact hnone
    split
    · split <;> rfl
    · split
      · rfl
      · exact hnone
  | false =>
  cases hamo : i.atomicIrrevocableI && i.atomicTagI == k with
  | true =>
    rw [and_eq_true, beq_iff_eq] at hamo
    have hslot := (hport.atomicIrrevocable hamo.1).2.2
    rw [hamo.2] at hslot
    rw [hok.noXlate_of_done (hok.exempt (.inl hslot)), Bool.false_and]
    exact hctl (step_flush_atomic hport hok hfl hamo.1 hamo.2)
  | false =>
    have hstr : ((s.slots k).valid && (s.slots k).store && (s.slots k).accessSent) = false := by
      rw [Bool.and_assoc, hkeep, Bool.and_false]
    cases hxl : (s.slots k).valid && (s.slots k).xlateSent && !s.xlateRespAt i k with
    | true =>
      simp only [and_eq_true, not_eq_true'] at hxl
      rw [hxl.2, Bool.not_false, Bool.and_true]
      exact hctl (step_flush_xlate hport hok hfl hxl.1.2 hxl.2)
    | false =>
      rw [(step_flush_drop hfl hstr hamo hxl (doneAt_of_not_store hkeep)).xlateSent]
      cases hsent : (s.slots k).xlateSent with
      | false => rfl
      | true =>
        rw [(hok.xlateSent hsent).1, hsent, Bool.true_and, Bool.true_and] at hxl
        rw [hxl, Bool.and_false]

theorem xlateSent_valid
    (hrsp : i.squashYoungerI → s.respFire i → (s.slots i.respTagI).xlateSent = false)
    (hfl : i.flushI = false) (hval : (s.slots k).valid) :
    ((s.step i).slots k).xlateSent =
      (((s.slots k).xlateSent || s.xlateReqAt i k) && !s.xlateRespAt i k) := by
  have hctl := fun {c} (h : ((s.step i).slots k).ctl = c) => congrArg LsqCtl.xlateSent h
  cases hvic : s.squashVictim i k with
  | true =>
    have hsq : i.squashYoungerI := by
      rw [squashVictim, and_eq_true] at hvic
      exact hvic.1
    have hreq : s.xlateReqAt i k = false :=
      down_of_imp hsq fun hcon => (xlateReqAt_cases hfl hcon).1
    rw [hreq, Bool.or_false]
    cases hkeep : ((s.slots k).xlateSent || (s.slots k).accessSent) && !s.answeredNow i k with
    | true =>
      rw [and_eq_true, or_eq_true, not_eq_true'] at hkeep
      rw [(respAt_of_not_answered hkeep.2).2.1, Bool.not_false, Bool.and_true]
      exact hctl (step_quarantine hport hok hfl hvic hkeep.1 hkeep.2)
    | false =>
      rw [Bool.and_eq_false_iff, Bool.not_eq_false'] at hkeep
      refine (hctl (step_squash hfl hval hvic hkeep)).trans ?_
      cases hsent : (s.slots k).xlateSent with
      | false => rfl
      | true =>
        rw [hsent, Bool.true_or] at hkeep
        rw [xlateRespAt_of_answered hok (hrsp hsq) hsent (hkeep.resolve_left Bool.true_eq_false.mp)]
        rfl
  | false =>
  cases hkill : (s.slots k).killed with
  | true =>
    have hafter := hctl (step_killed hport hok hfl hkill hvic)
    have hreq : s.xlateReqAt i k = false :=
      down_of_imp hkill fun hcon => (xlateReqAt_flags hfl hval hcon).2.1
    refine hafter.trans ?_
    rw [hreq, Bool.or_false]
    cases hsent : (s.slots k).xlateSent with
    | false => split <;> simp [ctl, hsent]
    | true =>
      have hnsent := (hok.xlateSent hsent).2.2.1
      have hrsp : s.respAt i k = false := down_of_imp hnsent fun hcon => (respAt_spec hcon).2.2.2
      have hdone : s.storeDoneAt i k = false :=
        down_of_imp hnsent fun hcon => (storeDoneAt_spec hcon).2.2.2.1
      rw [hrsp, hdone, Bool.or_false, Bool.or_false]
      cases s.xlateRespAt i k with
      | false => simp [ctl, hsent]
      | true => rfl
  | false =>
  cases htrans : (s.slots k).xlateDone with
  | false => exact hctl (step_untranslated hport hok hfl hval hkill
      hvic htrans)
  | true =>
    obtain ⟨hreq, hrsp⟩ := xlateRespAt_of_done hok hfl hval htrans
    have hsame := sameParts_of_noXlate hfl hval hrsp
    rw [hok.noXlate_of_done htrans, hreq, Bool.or_self, Bool.false_and]
    apply (ok_step hport hok).noXlate_of_done
    rw [hsame.xlateDone, htrans]

/-- An entry waits for a translation from its request to the answer. -/
theorem step_xlateSent (hsafe : i.flushI → s.xlateReqAt i k → s.xlateRespAt i k)
    (hrsp : i.squashYoungerI → s.respFire i → (s.slots i.respTagI).xlateSent = false) :
    ((s.step i).slots k).xlateSent =
      (((s.slots k).xlateSent || s.xlateReqAt i k) && !s.xlateRespAt i k) := by
  have hctl := fun {c} (h : ((s.step i).slots k).ctl = c) => congrArg LsqCtl.xlateSent h
  cases hfl : i.flushI with
  | true =>
    rw [xlateSent_flush hport hok hfl]
    cases hreq : s.xlateReqAt i k with
    | false => rw [Bool.or_false]
    | true => rw [hsafe hfl hreq, Bool.not_true, Bool.and_false, Bool.and_false]
  | false =>
  cases halloc : s.allocInto i k with
  | some entry =>
    have hsome : s.allocInto i k = some (entry.1, entry.2) := halloc
    rw [(hok.free (allocInto_some hsome).2.2.2.1).xlateSent, Bool.false_or]
    exact hctl (step_alloc hport hok hsome)
  | none =>
  cases hval : (s.slots k).valid with
  | false =>
    rw [step_invalid hport hok hfl halloc hval,
      (hok.free hval).xlateSent, (xlate_of_unused hfl halloc hval).1, Bool.or_false, Bool.false_and]
  | true => exact xlateSent_valid hport hok hrsp hfl hval

end

end LsqState

end OpenRV64
