/-
The life of a queue entry: which of its flags stand together, and which handshakes
can meet in its slot.
-/
import OpenRV64.LsqStep

namespace OpenRV64

open Bool (and_eq_true not_eq_true' or_eq_true)

/-- A signal is down if it would drive one that is not driven so. -/
theorem down_of_imp {a b v : Bool} (hb : b = v) (h : a → b = !v) : a = false := by
  cases a with
  | false => rfl
  | true => exact absurd (hb.symm.trans (h rfl)) (by cases v <;> decide)

open ModularAge

structure LsqCtl where
  valid : Bool
  xlateSent : Bool
  accessSent : Bool
  storeResultSent : Bool
  accessDone : Bool
  killed : Bool

namespace LsqSlot

variable {p : LsqParams}

/-- Which flags can stand together. -/
structure Ok (slot : LsqSlot p) : Prop where
  killed : slot.killed = true → slot.valid = true ∧ (slot.xlateSent = true ∨ slot.accessSent = true)
  xlateSent : slot.xlateSent = true → slot.valid = true ∧ slot.xlateDone = false ∧
    slot.accessSent = false ∧ slot.atomic = false ∧ slot.immediate = false
  accessSent : slot.accessSent = true → slot.valid = true ∧ slot.xlateDone = true ∧
    slot.xlateFault = false ∧ slot.atomic = false ∧ slot.immediate = false
  accessDone : slot.accessDone = true →
    slot.accessSent = true ∧ slot.store = true ∧ slot.cacheable = true
  resultSent : slot.valid = true → slot.storeResultSent = true →
    slot.accessSent = true ∧ slot.store = true ∧ slot.cacheable = true
  oneHalf : slot.valid = true → slot.storeResultSent = true → slot.accessDone = false
  exempt : slot.atomic = true ∨ slot.immediate = true → slot.xlateDone = true

/-- The flags that follow an entry through its life. -/
def ctl (slot : LsqSlot p) : LsqCtl :=
  ⟨slot.valid, slot.xlateSent, slot.accessSent, slot.storeResultSent, slot.accessDone, slot.killed⟩

/-- Nothing is left of an entry. -/
structure Free (slot : LsqSlot p) : Prop where
  valid : slot.valid = false
  xlateSent : slot.xlateSent = false
  accessSent : slot.accessSent = false
  accessDone : slot.accessDone = false
  killed : slot.killed = false

section

variable {slot : LsqSlot p} (h : slot.Ok)

include h

theorem Ok.free (hval : slot.valid = false) : slot.Free where
  valid := hval
  xlateSent := by
    by_contra hcon
    rw [(h.xlateSent (by simpa using hcon)).1] at hval
    cases hval
  accessSent := by
    by_contra hcon
    rw [(h.accessSent (by simpa using hcon)).1] at hval
    cases hval
  accessDone := by
    by_contra hcon
    have hsent := (h.accessDone (by simpa using hcon)).1
    rw [(h.accessSent hsent).1] at hval
    cases hval
  killed := by
    by_contra hcon
    rw [(h.killed (by simpa using hcon)).1] at hval
    cases hval

theorem Ok.noHalves (hval : slot.valid)
    (hsent : slot.accessSent = false) : slot.storeResultSent = false ∧ slot.accessDone = false := by
  constructor
  · by_contra hcon
    rw [(h.resultSent hval (by simpa using hcon)).1] at hsent
    cases hsent
  · by_contra hcon
    rw [(h.accessDone (by simpa using hcon)).1] at hsent
    cases hsent

theorem Ok.notSent_of_untranslated (hdone : slot.xlateDone = false) : slot.accessSent = false := by
  by_contra hcon
  rw [(h.accessSent (by simpa using hcon)).2.1] at hdone
  cases hdone

theorem Ok.noXlate_of_done (hdone : slot.xlateDone) : slot.xlateSent = false := by
  by_contra hcon
  rw [(h.xlateSent (by simpa using hcon)).2.1] at hdone
  cases hdone

end

end LsqSlot

namespace LsqState

variable {p : LsqParams}

/-! ## The handshakes of a slot -/

section Handshakes

variable (s : LsqState p) (i : LsqInput p) (k : Nat)

def xlateReqAt : Bool := s.xlateReqFire i && s.xlateReqTagO i == k
def reqAt : Bool := s.reqFire i && s.requestIndex i == k
def xlateRespAt : Bool := s.xlateRespFire i && i.xlateRespTagI == k
def respAt : Bool := s.respFire i && s.respIsAccess i && i.respTagI == k

def storeDoneAt : Bool := i.storeDoneValidI && s.storeDoneIsExpected i && i.storeDoneTagI == k

def resultAt : Bool := s.resultFire i && s.resultIndex i == k
def doneAt : Bool := s.postedStoreDoneFire i && s.postedStoreDoneTag i == k
def atomicDoneAt (i : LsqInput p) (k : Nat) : Bool := i.atomicDoneI && i.atomicTagI == k

end Handshakes

/-- The atomic engine works for a live atomic entry. -/
structure AtomicPorts (s : LsqState p) (i : LsqInput p) : Prop where
  atomicDone : i.atomicDoneI = true → i.atomicTagI < p.depth ∧
    (s.slots i.atomicTagI).valid = true ∧ (s.slots i.atomicTagI).atomic = true
  atomicIrrevocable : i.atomicIrrevocableI = true → i.atomicTagI < p.depth ∧
    (s.slots i.atomicTagI).valid = true ∧ (s.slots i.atomicTagI).atomic = true

instance (s : LsqState p) (i : LsqInput p) : Decidable (AtomicPorts s i) :=
  decidable_of_iff
    ((i.atomicDoneI = true → i.atomicTagI < p.depth ∧
        (s.slots i.atomicTagI).valid = true ∧ (s.slots i.atomicTagI).atomic = true) ∧
      (i.atomicIrrevocableI = true → i.atomicTagI < p.depth ∧
        (s.slots i.atomicTagI).valid = true ∧ (s.slots i.atomicTagI).atomic = true))
    ⟨fun h => ⟨h.1, h.2⟩, fun h => ⟨h.atomicDone, h.atomicIrrevocable⟩⟩

variable {s : LsqState p} {i : LsqInput p} {k : Nat}

theorem scan_getD {candidate : Nat → Bool} {beats : Nat → Nat → Bool} {n d : Nat}
    (hfnd : (AgeScan.scan candidate beats n).isSome)
    (hidx : (AgeScan.scan candidate beats n).getD d = k) : k < n ∧ candidate k := by
  obtain ⟨j, hj⟩ := Option.isSome_iff_exists.mp hfnd
  rw [hj, Option.getD_some] at hidx
  subst hidx
  exact AgeScan.scan_some hj

theorem xlateReqAt_cases (hfl : i.flushI = false) (h : s.xlateReqAt i k) :
    i.squashYoungerI = false ∧ ((k < p.depth ∧ s.xlateCandidate k) ∨
        ∃ a store, s.allocInto i k = some (a, store) ∧ a.immediate = false ∧
          (store && a.atomic) = false) := by
  simp only [xlateReqAt, xlateReqFire, xlateReqValidO, and_eq_true,
    or_eq_true, not_eq_true', beq_iff_eq] at h
  obtain ⟨⟨⟨⟨hsrc, -⟩, hsq⟩, -⟩, htag⟩ := h
  refine ⟨hsq, ?_⟩
  cases hfnd : s.xlateRequestFound with
  | true =>
    rw [xlateReqTagO, hfnd, if_pos rfl] at htag
    exact .inl (scan_getD hfnd htag)
  | false =>
    rw [hfnd, or_iff_right Bool.false_ne_true] at hsrc
    obtain ⟨a, store, halloc, -, himm, hamo⟩ := allocInto_of_fromAlloc hfl hsrc
    rw [htag] at halloc
    exact .inr ⟨a, store, halloc, himm, hamo⟩

theorem reqAt_spec (h : s.reqAt i k) :
    i.squashYoungerI = false ∧ k < p.depth ∧ s.requestCandidate i k := by
  simp only [reqAt, reqFire, reqValidO, and_eq_true, not_eq_true', beq_iff_eq] at h
  exact ⟨h.1.1.2, scan_getD h.1.1.1.1 h.2⟩

theorem reqAt_flags (h : s.reqAt i k) : (s.slots k).valid ∧ (s.slots k).killed = false ∧
      (s.slots k).atomic = false ∧ (s.slots k).immediate = false ∧
      (s.slots k).xlateFault = false ∧ (s.slots k).xlateDone ∧ (s.slots k).accessSent = false := by
  have hcand := (reqAt_spec h).2.2
  simp only [requestCandidate, and_eq_true, not_eq_true'] at hcand
  exact ⟨hcand.1.1.1.1.1.1.1, hcand.1.1.1.1.1.1.2, hcand.1.1.1.1.1.2,
    hcand.1.1.1.1.2, hcand.1.1.1.2, hcand.1.1.2, hcand.1.2⟩

theorem xlateCandidate_flags (h : s.xlateCandidate k) :
    (s.slots k).valid ∧ (s.slots k).killed = false ∧
      (s.slots k).atomic = false ∧ (s.slots k).immediate = false ∧
      (s.slots k).xlateDone = false ∧ (s.slots k).xlateSent = false := by
  simp only [xlateCandidate, and_eq_true, not_eq_true'] at h
  exact ⟨h.1.1.1.1.1, h.1.1.1.1.2, h.1.1.1.2, h.1.1.2, h.1.2, h.2⟩

theorem respAt_spec (h : s.respAt i k) :
    i.respTagI = k ∧ k < p.depth ∧ (s.slots k).valid ∧ (s.slots k).accessSent := by
  simp only [respAt, respIsAccess, slotValidAt, and_eq_true, beq_iff_eq, decide_eq_true_eq] at h
  obtain ⟨⟨-, ⟨hlt, hval⟩, hsent⟩, rfl⟩ := h
  exact ⟨rfl, hlt, hval, hsent⟩

theorem storeDoneAt_spec (h : s.storeDoneAt i k) :
    i.storeDoneTagI = k ∧ k < p.depth ∧ (s.slots k).valid ∧
      (s.slots k).accessSent ∧ (s.slots k).store ∧ (s.slots k).cacheable := by
  simp only [storeDoneAt, storeDoneIsExpected, slotValidAt, and_eq_true,
    beq_iff_eq, decide_eq_true_eq] at h
  obtain ⟨⟨-, ⟨⟨⟨⟨hlt, hval⟩, hsent⟩, hstr⟩, -⟩, hcach⟩, rfl⟩ := h
  exact ⟨rfl, hlt, hval, hsent, hstr, hcach⟩

theorem doneAt_spec (h : s.doneAt i k) : (s.slots k).valid ∧ (s.slots k).accessSent ∧
      (s.slots k).store ∧ (s.slots k).cacheable ∧ (s.slots k).killed = false ∧
      ((s.storeDoneFire i ∧ i.storeDoneTagI = k) ∨
        (s.storeDoneFire i = false ∧ s.postedStoreRespFire i ∧ i.respTagI = k)) := by
  rw [doneAt, postedStoreDoneFire, postedStoreDoneTag, and_eq_true, beq_iff_eq] at h
  obtain ⟨hfire, htag⟩ := h
  cases hdone : s.storeDoneFire i with
  | true =>
    rw [hdone, if_pos rfl] at htag
    subst htag
    have hflags := hdone
    simp only [storeDoneFire, storeDoneIsExpected, storeDoneSlotKilled,
      slotValidAt, and_eq_true, decide_eq_true_eq, not_eq_true', Bool.and_eq_false_iff] at hflags
    obtain ⟨⟨-, ⟨⟨⟨⟨hlt, hval⟩, hsent⟩, hstr⟩, -⟩, hcach⟩, hkill⟩ := hflags
    refine ⟨hval, hsent, hstr, hcach, ?_, .inl ⟨rfl, rfl⟩⟩
    simpa [hlt, hval] using hkill
  | false =>
    rw [hdone, Bool.false_or] at hfire
    rw [hdone, if_low] at htag
    subst htag
    have hflags := hfire
    simp only [postedStoreRespFire, respIsPostedStore, respIsAccess,
      respSlotKilled, slotValidAt, and_eq_true, decide_eq_true_eq,
      not_eq_true', Bool.and_eq_false_iff] at hflags
    obtain ⟨⟨-, ⟨⟨⟨⟨⟨hlt, hval⟩, hsent⟩, hstr⟩, -⟩, hcach⟩⟩, hkill⟩ := hflags
    refine ⟨hval, hsent, hstr, hcach, ?_, .inr ⟨rfl, hfire, rfl⟩⟩
    simpa [hlt, hval] using hkill

/-- A result comes from a response or from a local completion. -/
theorem resultAt_cases (h : s.resultAt i k) :
    (s.accessRespResult i ∧ i.respTagI = k ∧ s.respAt i k ∧
        (s.slots k).killed = false ∧ s.squashVictim i k = false ∧ s.respIsPostedStore i = false) ∨
      (s.accessRespResult i = false ∧ s.localIndex i = k ∧ k < p.depth ∧ s.localCandidate i k) := by
  simp only [resultAt, resultFire, resultValidO, and_eq_true, or_eq_true, beq_iff_eq] at h
  obtain ⟨⟨hval, hrdy⟩, hidx⟩ := h
  cases hrsp : s.accessRespResult i with
  | true =>
    rw [resultIndex, hrsp, if_pos rfl] at hidx
    subst hidx
    have hflags := hrsp
    simp only [accessRespResult, accessRespVisible, respSlotKilled, respIsAccess,
      accessRespSquashedNow, slotValidAt, and_eq_true, not_eq_true', decide_eq_true_eq] at hflags
    obtain ⟨⟨⟨⟨hin, ⟨hlt, hslot⟩, hsent⟩, hkill⟩, hpost⟩, hvic⟩ := hflags
    have hacs : s.respIsAccess i := by
      simp [respIsAccess, slotValidAt, hlt, hslot, hsent]
    refine .inl ⟨rfl, rfl, ?_, ?_, ?_, hpost⟩
    · simp [respAt, respFire, respReadyO, hacs, hin, hrdy]
    · simpa [hlt, hslot] using hkill
    · simpa [hin, hlt, hslot, hsent] using hvic
  | false =>
    rw [hrsp, or_iff_right Bool.false_ne_true] at hval
    rw [resultIndex, hrsp, if_low] at hidx
    obtain ⟨hlt, hcand⟩ := scan_getD hval hidx
    exact .inr ⟨rfl, hidx, hlt, hcand⟩

/-! ## Updates without their handshake -/

section NoHandshake

variable {slot : LsqSlot p}

theorem updateXlateReq_of_not (h : s.xlateReqAt i k = false) :
    s.updateXlateReq i k slot = slot := by
  rw [xlateReqAt] at h
  rw [updateXlateReq, h, if_low]

theorem updateReq_of_not (h : s.reqAt i k = false) : s.updateReq i k slot = slot := by
  rw [reqAt] at h
  rw [updateReq, h, if_low]

theorem updateXlateResp_of_not (h : s.xlateRespAt i k = false) :
    s.updateXlateResp i k slot = slot := by
  rw [xlateRespAt] at h
  rw [updateXlateResp, h, if_low]

theorem updateKilledResp_eq : s.updateKilledResp i k slot =
    if s.respAt i k && (s.slots k).killed then { slot.release with killed := false }
    else slot := by
  rw [updateKilledResp, respAt, Bool.and_right_comm (s.respFire i && s.respIsAccess i)]

theorem updateKilledDone_eq : s.updateKilledDone i k slot =
    if s.storeDoneAt i k && (s.slots k).killed then
      { slot.release with killed := false }
    else slot := by
  have hcond : (s.storeDoneKilledFire i && i.storeDoneTagI == k) =
      (s.storeDoneAt i k && (s.slots k).killed) := by
    rw [Bool.eq_iff_iff]
    simp only [storeDoneKilledFire, storeDoneSlotKilled, storeDoneAt,
      storeDoneIsExpected, slotValidAt, and_eq_true, beq_iff_eq]
    constructor
    · intro h
      obtain ⟨⟨⟨hin, hexp⟩, -, hkill⟩, rfl⟩ := h
      exact ⟨⟨⟨hin, hexp⟩, rfl⟩, hkill⟩
    · intro h
      obtain ⟨⟨⟨hin, hexp⟩, rfl⟩, hkill⟩ := h
      exact ⟨⟨⟨hin, hexp⟩, hexp.1.1.1.1, hkill⟩, rfl⟩
  rw [updateKilledDone, hcond]

theorem updateKilled_of_not (h : (s.slots k).killed = false) :
    s.updateKilledDone i k (s.updateKilledResp i k slot) = slot := by
  rw [updateKilledDone_eq, updateKilledResp_eq, h]
  simp

theorem updateResult_of_not (h : s.resultAt i k = false) : s.updateResult i k slot = slot := by
  rw [resultAt] at h
  rw [updateResult, h, if_low]

theorem updateDone_of_not (h : s.doneAt i k = false) : s.updateDone i k slot = slot := by
  rw [doneAt] at h
  rw [updateDone, h, if_low]

theorem updateAtomicDone_of_not (h : atomicDoneAt i k = false) :
    updateAtomicDone i k slot = slot := by
  rw [atomicDoneAt] at h
  rw [updateAtomicDone, h, if_low]

theorem updateSquash_of_not (h : s.squashVictim i k = false) : s.updateSquash i k slot = slot := by
  rw [updateSquash, h, Bool.false_and, if_low]

end NoHandshake

theorem step_noFlush (hfl : i.flushI = false) : (s.step i).slots k =
    s.updateSquash i k (updateAtomicDone i k (s.updateDone i k (s.updateResult i k
      (s.updateKilledDone i k (s.updateKilledResp i k (s.updateXlateResp i k
        (s.updateReq i k (s.updateXlateReq i k (s.afterAlloc i k))))))))) := by
  simp only [step, hfl, if_low, updateAllocs_eq hfl]

theorem step_flush (hfl : i.flushI) : (s.step i).slots k =
    updateAtomicDone i k (s.updateDone i k (s.updateResult i k
      (s.updateFlush i k (s.slots k)))) := by
  simp only [step, hfl, if_true]

/-! ## What cannot happen to a slot -/

theorem reqAt_of_invalid (h : (s.slots k).valid = false) : s.reqAt i k = false := by
  by_contra hcon
  rw [(reqAt_flags (by simpa using hcon)).1] at h
  cases h

theorem resultAt_flags (h : s.resultAt i k) :
    (s.slots k).valid ∧ (s.slots k).killed = false ∧ s.squashVictim i k = false := by
  rcases resultAt_cases h with ⟨-, -, hrsp, hkill, hvic, -⟩ | ⟨-, -, -, hcand⟩
  · exact ⟨(respAt_spec hrsp).2.2.1, hkill, hvic⟩
  · simp only [localCandidate, and_eq_true, not_eq_true'] at hcand
    exact ⟨hcand.1.1.1.1, hcand.1.1.1.2, hcand.1.1.2⟩

/-- A result needs a translated entry, or one that needs no translation. -/
theorem resultAt_done (hok : (s.slots k).Ok) (h : s.resultAt i k) :
    (s.slots k).xlateDone ∧ (s.slots k).atomic = false := by
  rcases resultAt_cases h with ⟨-, -, hrsp, -⟩ | ⟨-, -, -, hcand⟩
  · have hsent := hok.accessSent (respAt_spec hrsp).2.2.2
    exact ⟨hsent.2.1, hsent.2.2.2.1⟩
  simp only [localCandidate, and_eq_true, or_eq_true, not_eq_true'] at hcand
  obtain ⟨⟨-, hamo⟩, ((himm | hflt) | hfwd) | hpost⟩ := hcand
  · exact ⟨hok.exempt (.inr himm), hamo⟩
  · rw [LsqSlot.xlateFault, and_eq_true] at hflt
    exact ⟨hflt.1, hamo⟩
  · simp only [loadForward, scanned, and_eq_true] at hfwd
    exact ⟨hfwd.1.1.1.1.1.2, hamo⟩
  simp only [postedStoreReports, or_eq_true, and_eq_true] at hpost
  rcases hpost.2 with hreports | hreq
  · exact ⟨(hok.accessSent hreports.1).2.1, hamo⟩
  · have hflags := reqAt_flags (show s.reqAt i k by
      rw [reqAt, and_eq_true]
      exact hreq)
    exact ⟨hflags.2.2.2.2.2.1, hamo⟩

theorem xlateRespAt_cases (hfl : i.flushI = false) (h : s.xlateRespAt i k) :
    (k < p.depth ∧ (s.slots k).valid ∧ ((s.slots k).xlateSent ∨ s.xlateReqAt i k)) ∨
      ∃ a store, s.allocInto i k = some (a, store) := by
  simp only [xlateRespAt, xlateRespFire, xlateRespIsExpected, slotValidAt,
    and_eq_true, or_eq_true, decide_eq_true_eq, beq_iff_eq] at h
  obtain ⟨⟨-, hexp⟩, rfl⟩ := h
  rcases hexp with ⟨⟨hlt, hval⟩, hsent | hmatches⟩ | hmatches
  · exact .inl ⟨hlt, hval, .inl hsent⟩
  · exact .inl ⟨hlt, hval, .inr hmatches⟩
  · obtain ⟨a, store, halloc, -⟩ := matchesAllocation_spec hfl hmatches
    exact .inr ⟨a, store, halloc⟩

end LsqState

end OpenRV64
