/-
When the physical port carries a store: the entry that it is for, the retirement
head that authorizes it, and how often one allocation is sent.
-/
import OpenRV64.LsqControl

namespace OpenRV64

open Sync
open LsqInput (quiet)
open LsqSlot (xlateFault xlate)

namespace LsqState

variable {p : LsqParams}

/-! ## What the port shows -/

/-- The physical port asks for the entry of a slot. -/
def presents (s : LsqState p) (i : LsqInput p) (k : Nat) : Prop :=
  s.reqValidO i = true ∧ s.requestIndex i = k

/-- The physical port asks for a store. -/
def presentsStore (s : LsqState p) (i : LsqInput p) (k : Nat) : Prop :=
  s.presents i k ∧ s.reqWriteO i = true

/-- The request for the entry is accepted. -/
def sends (k : Nat) (s : LsqState p) (i : LsqInput p) : Prop := s.reqAt i k = true

/-- The slot takes a new entry. -/
def allocates (k : Nat) (s : LsqState p) (i : LsqInput p) : Prop := (s.allocInto i k).isSome = true

/-- A translation without a fault is written into the entry. -/
def translates (k : Nat) (s : LsqState p) (i : LsqInput p) : Prop :=
  s.xlateWrites i k = true ∧ i.xlateRespAccessFaultI = false ∧ i.xlateRespPageFaultI = false

instance (s : LsqState p) (i : LsqInput p) (k : Nat) : Decidable (s.presentsStore i k) :=
  inferInstanceAs (Decidable ((_ ∧ _) ∧ _))

/-- What the surrounding unit promises: an irrevocable transaction belongs to an
atomic entry, and an access that is refused at once is allocated as an immediate
completion. -/
structure Callers (s : LsqState p) (i : LsqInput p) : Prop where
  irrevocable : i.atomicIrrevocableI = true → (s.slots i.atomicTagI).atomic = true
  loadFault : i.loadAllocI.accessFault = true → i.loadAllocI.immediate = true
  storeFault : i.storeAllocI.accessFault = true → i.storeAllocI.immediate = true

instance (s : LsqState p) (i : LsqInput p) : Decidable (Callers s i) :=
  decidable_of_iff
    ((i.atomicIrrevocableI = true → (s.slots i.atomicTagI).atomic = true) ∧
      (i.loadAllocI.accessFault = true → i.loadAllocI.immediate = true) ∧
      (i.storeAllocI.accessFault = true → i.storeAllocI.immediate = true))
    ⟨fun h => ⟨h.1, h.2.1, h.2.2⟩, fun h => ⟨h.irrevocable, h.loadFault, h.storeFault⟩⟩

/-- No fault is known of an entry, and it is an ordinary memory access. -/
structure Sendable (slot : LsqSlot p) : Prop where
  valid : slot.valid = true
  notKilled : slot.killed = false
  notAtomic : slot.atomic = false
  notImmediate : slot.immediate = false
  notRefused : slot.inputAccessFault = false
  noAccessFault : slot.xlateAccessFault = false
  noPageFault : slot.xlatePageFault = false
  translated : slot.xlateDone = true
  notSent : slot.accessSent = false

/-- Retirement has reached the entry. -/
structure AtHead (slot : LsqSlot p) (i : LsqInput p) : Prop where
  valid : i.orderedHeadValidI = true
  id : i.orderedHeadIdI = slot.id
  retire : i.orderedHeadSlotI = slot.retire

/-- The physical port in one cycle of a run. -/
structure StoreIssue (past : Past (LsqState p) (LsqInput p)) (s : LsqState p)
    (i : LsqInput p) : Prop where
  sendable : ∀ k, s.presents i k → Sendable (s.slots k)
  translated : ∀ k, s.presents i k → Since (translates k) (allocates k) past
  store : ∀ k, s.presentsStore i k → (s.slots k).store = true ∧ AtHead (s.slots k) i
  once : ∀ k, s.presents i k → ¬ Since (sends k) (allocates k) past

/-! ## The request of one cycle -/

section Cycle

variable {s : LsqState p} {i : LsqInput p} {k : Nat}

theorem presents_candidate (h : s.presents i k) : k < p.depth ∧ s.requestCandidate i k := by
  obtain ⟨hval, hidx⟩ := h
  simp only [reqValidO, Bool.and_eq_true] at hval
  exact scan_getD hval.1.1 hidx

theorem xlateFault_false {slot : LsqSlot p} (hdone : slot.xlateDone) (h : slot.xlateFault = false) :
    slot.xlateAccessFault = false ∧ slot.xlatePageFault = false := by
  rw [xlateFault, hdone, Bool.true_and, Bool.or_eq_false_iff] at h
  exact h

theorem sendable_of_candidate (href : (s.slots k).inputAccessFault →
    (s.slots k).immediate) (h : s.requestCandidate i k) : Sendable (s.slots k) := by
  simp only [requestCandidate, Bool.and_eq_true, Bool.not_eq_true'] at h
  obtain ⟨⟨⟨⟨⟨⟨⟨hval, hkill⟩, hamo⟩, himm⟩, hflt⟩, hdone⟩, hsent⟩, -⟩ := h
  have hnone := xlateFault_false hdone hflt
  refine ⟨hval, hkill, hamo, himm, ?_, hnone.1, hnone.2, hdone, hsent⟩
  apply Bool.eq_false_of_not_eq_true
  intro hinput
  rw [href hinput] at himm
  cases himm

theorem atHead_of_candidate (hstr : (s.slots k).store)
    (h : s.requestCandidate i k) : AtHead (s.slots k) i := by
  simp only [requestCandidate, hstr, if_true, LsqSlot.orderMatch, Bool.and_eq_true, beq_iff_eq] at h
  exact ⟨h.2.1.1, h.2.1.2, h.2.2⟩

end Cycle

/-! ## An entry that was sent stays marked -/

/-- The entry is not to be asked for again. -/
def Spent (slot : LsqSlot p) : Prop :=
  slot.valid = true → slot.accessSent = true ∨ slot.killed = true

section Spent

variable {s : LsqState p} {i : LsqInput p} {k : Nat} {slot : LsqSlot p}

theorem spent_of_free (h : slot.valid = false) : Spent slot := by
  intro hval
  rw [h] at hval
  cases hval

theorem Spent.xlateReq (h : Spent slot) : Spent (s.updateXlateReq i k slot) := by
  rw [updateXlateReq]
  split
  · exact h
  · exact h

theorem Spent.req (h : Spent slot) : Spent (s.updateReq i k slot) := by
  rw [updateReq]
  split
  · exact fun _ => .inl rfl
  · exact h

theorem spent_of_req (h : s.reqAt i k) : Spent (s.updateReq i k slot) := by
  rw [updateReq]
  rw [reqAt] at h
  rw [if_pos h]
  exact fun _ => .inl rfl

section

variable (h : Spent slot)

include h

theorem Spent.xlateResp : Spent (s.updateXlateResp i k slot) := by
  rw [updateXlateResp]
  split
  · split
    · exact spent_of_free rfl
    · exact h
  · exact h

theorem Spent.killedResp : Spent (s.updateKilledResp i k slot) := by
  rw [updateKilledResp]
  split
  · exact spent_of_free rfl
  · exact h

theorem Spent.killedDone : Spent (s.updateKilledDone i k slot) := by
  rw [updateKilledDone]
  split
  · exact spent_of_free rfl
  · exact h

theorem Spent.result : Spent (s.updateResult i k slot) := by
  rw [updateResult]
  split
  · split
    · split
      · exact spent_of_free rfl
      · exact h
    · exact spent_of_free rfl
  · exact h

theorem Spent.done : Spent (s.updateDone i k slot) := by
  rw [updateDone]
  split
  · split
    · exact spent_of_free rfl
    · exact h
  · exact h

theorem Spent.atomicDone : Spent (updateAtomicDone i k slot) := by
  rw [updateAtomicDone]
  split
  · exact spent_of_free rfl
  · exact h

theorem Spent.squash : Spent (s.updateSquash i k slot) := by
  rw [updateSquash]
  split
  · split
    · exact fun _ => .inr rfl
    · exact spent_of_free rfl
  · exact h

end

/-- A flush leaves an entry either marked or free, whether or not its request is
accepted in the same cycle. -/
theorem spent_flush (hkept : (i.atomicIrrevocableI && i.atomicTagI == k) = false) :
    Spent (s.updateFlush i k (s.slots k)) := by
  rw [updateFlush]
  split
  · rename_i hsent
    rw [Bool.and_eq_true] at hsent
    exact fun _ => .inl hsent.2
  · rw [if_neg (Bool.eq_false_iff.mp hkept)]
    split
    · exact fun _ => .inr rfl
    · exact spent_of_free rfl

/-- The edge keeps an entry marked, and marks the one that is sent. -/
theorem spent_step (hkept : (i.atomicIrrevocableI && i.atomicTagI == k) = false)
    (halloc : s.allocInto i k = none)
    (h : s.reqAt i k ∨ Spent (s.slots k)) : Spent ((s.step i).slots k) := by
  cases hfl : i.flushI with
  | true =>
    rw [step_flush hfl]
    exact (spent_flush hkept).result.done.atomicDone
  | false =>
    rw [step_noFlush hfl, afterAlloc_none halloc]
    have hreq : Spent (s.updateReq i k (s.updateXlateReq i k (s.slots k))) := by
      rcases h with hsend | hspent
      · exact spent_of_req hsend
      · exact hspent.xlateReq.req
    exact hreq.xlateResp.killedResp.killedDone.result.done.atomicDone.squash

end Spent

/-! ## What a run knows of an entry -/

section Run

variable {past : Past (LsqState p) (LsqInput p)} {s : LsqState p} {i : LsqInput p} {k : Nat}

/-- What the flags of an entry say about its own history. -/
structure EntryHistory (past : Past (LsqState p) (LsqInput p)) (s : LsqState p)
    (k : Nat) : Prop where
  sent : Since (sends k) (allocates k) past → (s.slots k).atomic = false ∧ Spent (s.slots k)
  translated : (s.slots k).atomic = false → (s.slots k).immediate = false →
    (s.slots k).xlateDone = true → (s.slots k).xlateFault = false →
    Since (translates k) (allocates k) past
  refused : (s.slots k).inputAccessFault = true → (s.slots k).immediate = true

theorem EntryHistory.reset : EntryHistory (p := p) [] .reset k where
  sent h := absurd h since_nil
  translated _ _ hdone := by cases hdone
  refused h := by cases h

theorem notAllocates (halloc : s.allocInto i k = none) : ¬ allocates k s i := by
  rw [allocates, halloc]
  exact Bool.false_ne_true

/-- A slot that takes a new entry was free, so nothing was sent from it. -/
theorem not_sends_of_allocates (h : allocates k s i) : ¬ sends k s i := by
  obtain ⟨⟨a, store⟩, halloc⟩ := Option.isSome_iff_exists.mp h
  rw [sends, reqAt_of_invalid (allocInto_some halloc).2.2.2.1]
  exact Bool.false_ne_true

/-- The outcome of a translation that the edge writes. -/
theorem xlate_of_writes (h : s.xlateWrites i k) :
    ((s.step i).slots k).xlateAccessFault = i.xlateRespAccessFaultI ∧
      ((s.step i).slots k).xlatePageFault = i.xlateRespPageFaultI := by
  have hxl := step_xlate (s := s) (i := i) (k := k)
  rw [if_pos h] at hxl
  exact ⟨congrArg LsqXlate.accessFault hxl, congrArg LsqXlate.pageFault hxl⟩

theorem xlate_of_noWrites (h : s.xlateWrites i k = false) :
    ((s.step i).slots k).xlateDone = (s.afterAlloc i k).xlateDone ∧
      ((s.step i).slots k).xlateFault = (s.afterAlloc i k).xlateFault := by
  have hxl := step_xlate (s := s) (i := i) (k := k)
  rw [h, if_low] at hxl
  have hdone := congrArg LsqXlate.done hxl
  have hacs := congrArg LsqXlate.accessFault hxl
  have hpage := congrArg LsqXlate.pageFault hxl
  simp only [xlate] at hdone hacs hpage
  refine ⟨hdone, ?_⟩
  rw [xlateFault, xlateFault, hdone, hacs, hpage]

theorem step_atomic_flag : ((s.step i).slots k).atomic = (s.afterAlloc i k).atomic :=
  congrArg LsqOp.atomic step_op

theorem step_immediate : ((s.step i).slots k).immediate = (s.afterAlloc i k).immediate :=
  congrArg LsqOp.immediate step_op

theorem EntryHistory.sent_step (henv : Callers s i) (h : EntryHistory past s k)
    (hsent : Since (sends k) (allocates k) ((s, i) :: past)) :
    ((s.step i).slots k).atomic = false ∧ Spent ((s.step i).slots k) := by
  have halloc : s.allocInto i k = none := by
    rcases hsent with hnow | ⟨-, hkept⟩
    · by_contra hsome
      exact not_sends_of_allocates (Option.isSome_iff_ne_none.mpr hsome) hnow
    · by_contra hsome
      exact hkept (Option.isSome_iff_ne_none.mpr hsome)
  have hbef : (s.slots k).atomic = false ∧ (s.reqAt i k ∨ Spent (s.slots k)) := by
    rcases hsent with hnow | ⟨hsent, -⟩
    · exact ⟨(reqAt_flags hnow).2.2.1, .inl hnow⟩
    · exact ⟨(h.sent hsent).1, .inr (h.sent hsent).2⟩
  have hkept : (i.atomicIrrevocableI && i.atomicTagI == k) = false := by
    apply Bool.eq_false_of_not_eq_true
    intro hirrev
    rw [Bool.and_eq_true, beq_iff_eq] at hirrev
    have hamo := henv.irrevocable hirrev.1
    rw [hirrev.2, hbef.1] at hamo
    cases hamo
  rw [step_atomic_flag, afterAlloc_none halloc]
  exact ⟨hbef.1, spent_step hkept halloc hbef.2⟩

/-- An ordinary entry is translated by a response of its own, written since the
entry was allocated. -/
theorem EntryHistory.translated_step (h : EntryHistory past s k)
    (hamo : ((s.step i).slots k).atomic = false)
    (himm : ((s.step i).slots k).immediate = false)
    (hdone : ((s.step i).slots k).xlateDone)
    (hflt : ((s.step i).slots k).xlateFault = false) :
    Since (translates k) (allocates k) ((s, i) :: past) := by
  cases hwrs : s.xlateWrites i k with
  | true =>
    have hnone := xlateFault_false hdone hflt
    rw [(xlate_of_writes hwrs).1, (xlate_of_writes hwrs).2] at hnone
    exact .inl ⟨hwrs, hnone⟩
  | false =>
    rw [(xlate_of_noWrites hwrs).1] at hdone
    rw [(xlate_of_noWrites hwrs).2] at hflt
    rw [step_atomic_flag] at hamo
    rw [step_immediate] at himm
    cases halloc : s.allocInto i k with
    | none =>
      rw [afterAlloc_none halloc] at hamo himm hdone hflt
      exact .inr ⟨h.translated hamo himm hdone hflt, notAllocates halloc⟩
    | some new =>
      rw [afterAlloc_some halloc] at hamo himm hdone
      simp only [LsqSlot.allocated] at hamo himm hdone
      rw [hamo, himm] at hdone
      cases hdone

theorem EntryHistory.refused_step (henv : Callers s i) (h : EntryHistory past s k)
    (href : ((s.step i).slots k).inputAccessFault) : ((s.step i).slots k).immediate := by
  have hinput : ((s.step i).slots k).inputAccessFault =
      (s.afterAlloc i k).inputAccessFault := congrArg LsqOp.inputAccessFault step_op
  rw [hinput] at href
  rw [step_immediate]
  cases halloc : s.allocInto i k with
  | none =>
    rw [afterAlloc_none halloc] at href ⊢
    exact h.refused href
  | some new =>
    obtain ⟨a, store⟩ := new
    rw [afterAlloc_some halloc] at href ⊢
    obtain ⟨-, -, -, -, hport⟩ := allocInto_some halloc
    rcases hport with ⟨-, rfl, -⟩ | ⟨-, rfl, -⟩
    · exact henv.storeFault href
    · exact henv.loadFault href

theorem EntryHistory.step (henv : Callers s i) (h : EntryHistory past s k) :
    EntryHistory ((s, i) :: past) (s.step i) k where
  sent := h.sent_step henv
  translated := h.translated_step
  refused := h.refused_step henv

theorem entryHistory_of_run (hrun : Run (lsq p) (cycleEnv Callers) past s) :
    ∀ k, EntryHistory past s k := by
  apply hrun.invariant (P := fun past s => ∀ k, EntryHistory past s k)
  · intro s hinit k
    rw [hinit]
    exact EntryHistory.reset
  · intro past s i _ henv h k
    exact (h k).step henv

/-- The physical port carries a store only for a live entry of its own queue whose
translation has completed without a fault and which retirement has reached, and
carries no entry a second time; entries with a fault, immediate completions, killed
and atomic entries are never on the port. -/
theorem stores_issued_when_authorized (hrun : Run (lsq p) (cycleEnv Callers) past s)
    (i : LsqInput p) : StoreIssue past s i where
  sendable k hpresents :=
    sendable_of_candidate (entryHistory_of_run hrun k).refused (presents_candidate hpresents).2
  translated k hpresents := by
    have hhistory := entryHistory_of_run hrun k
    have hslot := sendable_of_candidate hhistory.refused (presents_candidate hpresents).2
    apply hhistory.translated hslot.notAtomic hslot.notImmediate hslot.translated
    rw [LsqSlot.xlateFault, hslot.noAccessFault, hslot.noPageFault, Bool.or_false, Bool.and_false]
  store k hpresents := by
    obtain ⟨⟨hvalid, rfl⟩, hwrite⟩ := hpresents
    exact ⟨hwrite, atHead_of_candidate hwrite (presents_candidate ⟨hvalid, rfl⟩).2⟩
  once k hpresents hsent := by
    have hhistory := entryHistory_of_run hrun k
    have hslot := sendable_of_candidate hhistory.refused (presents_candidate hpresents).2
    rcases (hhistory.sent hsent).2 hslot.valid with hmarked | hkilled
    · rw [hslot.notSent] at hmarked
      cases hmarked
    · rw [hslot.notKilled] at hkilled
      cases hkilled

/-- A store is allocated, its translation is answered, and retirement reaches it. -/
def storeToHead : List (LsqInput smallLsq) :=
  [(LsqInput.quiet _).withStore 1 0x1000 7, (LsqInput.quiet _).translating 4 0x2000]

theorem stores_issued_when_authorized_at_head :
    StoreIssue (exec (lsq smallLsq) [] .reset storeToHead).1
        (exec (lsq smallLsq) [] .reset storeToHead).2 ((LsqInput.quiet _).headAt 1) ∧
      (exec (lsq smallLsq) [] .reset storeToHead).2.presentsStore ((LsqInput.quiet _).headAt 1) 4 :=
  ⟨stores_issued_when_authorized (exec_run_decide storeToHead rfl (by decide)) _,
    by decide⟩

end Run

end LsqState

end OpenRV64
