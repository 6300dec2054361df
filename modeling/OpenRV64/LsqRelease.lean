/-
What becomes of a queue entry in one cycle: it is kept with the progress that it
made, or its slot is freed with nothing left under way.
-/
import OpenRV64.LsqForwarding
import OpenRV64.LsqPhase

namespace OpenRV64

open ModularAge LsqSlot
open Bool (and_eq_true not_eq_false not_eq_true' or_eq_false_iff or_eq_true)

namespace LsqState

variable {p : LsqParams}

section Recovery

variable (s : LsqState p) (i : LsqInput p)

/-- The recoveries of this cycle take the entry: a flush all but the accepted stores
and the irrevocable atomic, a squash the younger ones. -/
def cancels (k : Nat) (accepted : Bool) : Bool :=
  if i.flushI then
    !((s.slots k).store && accepted) && !(i.atomicIrrevocableI && i.atomicTagI == k)
  else s.squashVictim i k

/-- The access of the entry is answered, on one channel or the other. -/
def accessAnswered (k : Nat) : Bool :=
  (s.respFire i && i.respTagI == k) || (i.storeDoneValidI && i.storeDoneTagI == k)

/-- The access of the entry is still to be answered after this cycle.  A flush hands
the reads to the bus, which cancels them. -/
def accessOpen (k : Nat) : Bool :=
  (((s.slots k).accessSent && !(s.slots k).accessDone) || s.reqAt i k) &&
    !s.accessAnswered i k && (!i.flushI || (s.slots k).store)

/-- What arrives in this cycle answers accesses that are under way, or that are
accepted now. -/
structure Answered : Prop where
  atomic : AtomicPorts s i
  resp : s.respFire i = true →
    ((s.slots i.respTagI).accessSent = true ∧ (s.slots i.respTagI).accessDone = false) ∨
      s.reqAt i i.respTagI = true
  done : i.storeDoneValidI = true → (s.slots i.storeDoneTagI).store = true ∧
      (s.slots i.storeDoneTagI).cacheable = true ∧
        (((s.slots i.storeDoneTagI).accessSent = true ∧
          (s.slots i.storeDoneTagI).accessDone = false) ∨ s.reqAt i i.storeDoneTagI = true)
  distinct : s.respFire i = true → i.storeDoneValidI = true → i.respTagI ≠ i.storeDoneTagI

/-- What a flush does not provide for is not under way in its cycle: the acceptance of
a translation that stays open or of a store, the answer to a squashed store, and two
releases. -/
structure FlushSafe : Prop where
  xlate : s.xlateReqFire i = true → i.xlateRespValidI = true ∧ i.xlateRespTagI = s.xlateReqTagO i
  store : s.reqFire i = true → s.reqWriteO i = false
  answer : ∀ k, k < p.depth → s.accessAnswered i k = true →
    (s.slots k).store = true → (s.slots k).accessSent = true → (s.slots k).killed = false ∧
        (s.squashVictim i k = true → (s.slots k).cacheable = true)
  release : s.storeDoneFire i = true → s.postedStoreRespFire i = false

/-- What the slot update does not provide for in other cycles: an answer in the cycle
of its request, two releases, the squash of a released store, and the arrival of a
store that is older than an accepted load. -/
structure UpdateSafe : Prop where
  later : ∀ k, k < p.depth → s.accessAnswered i k = true → s.reqAt i k = false
  release : s.storeDoneFire i = true → s.postedStoreRespFire i = true →
    s.squashVictim i i.respTagI = true
  squash : ∀ k, k < p.depth → s.squashVictim i k = true → (s.slots k).accessDone = false
  older : s.storeAllocFire i = true → ∀ k, k < p.depth → (s.slots k).live = true →
    (s.slots k).store = false → ((s.slots k).accessSent || s.reqAt i k) = true →
      isYounger (s.slots k).id i.storeAllocI.id = false

/-- No two events of the cycle meet in a way that the slot update does not provide
for. -/
structure ReleaseSafe : Prop where
  flush : i.flushI = true → FlushSafe s i
  update : i.flushI = false → UpdateSafe s i

set_option synthInstance.maxSize 2048 in
instance : Decidable (FlushSafe s i) :=
  decidable_of_iff
    ((s.xlateReqFire i = true → i.xlateRespValidI = true ∧ i.xlateRespTagI = s.xlateReqTagO i) ∧
      (s.reqFire i = true → s.reqWriteO i = false) ∧
      (∀ k, k < p.depth → s.accessAnswered i k = true →
        (s.slots k).store = true → (s.slots k).accessSent = true → (s.slots k).killed = false ∧
            (s.squashVictim i k = true → (s.slots k).cacheable = true)) ∧
      (s.storeDoneFire i = true → s.postedStoreRespFire i = false))
    ⟨fun h => ⟨h.1, h.2.1, h.2.2.1, h.2.2.2⟩, fun h => ⟨h.xlate, h.store, h.answer, h.release⟩⟩

set_option synthInstance.maxSize 2048 in
instance : Decidable (UpdateSafe s i) :=
  decidable_of_iff
    ((∀ k, k < p.depth → s.accessAnswered i k = true → s.reqAt i k = false) ∧
      (s.storeDoneFire i = true → s.postedStoreRespFire i = true →
        s.squashVictim i i.respTagI = true) ∧ (∀ k, k < p.depth → s.squashVictim i k = true →
        (s.slots k).accessDone = false) ∧
      (s.storeAllocFire i = true → ∀ k, k < p.depth → (s.slots k).live = true →
        (s.slots k).store = false → ((s.slots k).accessSent || s.reqAt i k) = true →
          isYounger (s.slots k).id i.storeAllocI.id = false))
    ⟨fun h => ⟨h.1, h.2.1, h.2.2.1, h.2.2.2⟩, fun h => ⟨h.later, h.release, h.squash, h.older⟩⟩

instance : Decidable (ReleaseSafe s i) :=
  decidable_of_iff ((i.flushI = true → FlushSafe s i) ∧ (i.flushI = false → UpdateSafe s i))
    ⟨fun h => ⟨h.1, h.2⟩, fun h => ⟨h.flush, h.update⟩⟩

end Recovery

/-- The entry is kept, with the progress that it made. -/
structure Kept (s : LsqState p) (i : LsqInput p) (k : Nat) : Prop where
  valid : ((s.step i).slots k).valid = true
  accessSent : ((s.step i).slots k).accessSent = ((s.slots k).accessSent || s.reqAt i k)
  resultSent : ((s.step i).slots k).storeResultSent =
    ((s.slots k).storeResultSent || s.resultAt i k)
  killed : ((s.step i).slots k).killed = ((s.slots k).killed ||
    s.cancels i k ((s.slots k).accessSent || s.reqAt i k))
  access : (((s.step i).slots k).accessSent && !((s.step i).slots k).accessDone) = s.accessOpen i k
  quarantine : ((s.step i).slots k).killed = true → ((s.step i).slots k).xlateSent = true ∨
      (((s.step i).slots k).accessSent && !((s.step i).slots k).accessDone) = true

/-- The slot is freed, and the reason for it. -/
structure Freed (s : LsqState p) (i : LsqInput p) (k : Nat) : Prop where
  free : ((s.step i).slots k).Free
  access : s.accessOpen i k = false
  reason : atomicDoneAt i k = true ∨ (s.slots k).killed = true ∨
    s.cancels i k ((s.slots k).accessSent || s.reqAt i k) = true ∨
      ((s.slots k).storeResultSent || s.resultAt i k) = true

variable {s : LsqState p} {i : LsqInput p} {k : Nat}

theorem Kept.of_ctl {x a r d q : Bool} (hctl : ((s.step i).slots k).ctl = ⟨true, x, a, r, d, q⟩)
    (hsent : a = ((s.slots k).accessSent || s.reqAt i k))
    (hres : r = ((s.slots k).storeResultSent || s.resultAt i k))
    (hkill : q = ((s.slots k).killed || s.cancels i k ((s.slots k).accessSent || s.reqAt i k)))
    (hacs : (a && !d) = s.accessOpen i k)
    (hquarantine : q → x ∨ (a && !d)) : Kept s i k := by
  simp only [ctl, LsqCtl.mk.injEq] at hctl
  obtain ⟨hv, hx, ha, hr, hd, hq⟩ := hctl
  constructor
  · exact hv
  · rw [ha, hsent]
  · rw [hr, hres]
  · rw [hq, hkill]
  · rw [ha, hd, hacs]
  · rw [hq, hx, ha, hd]
    exact hquarantine

theorem ctl_of_valid (hval : (s.slots k).valid) : (s.slots k).ctl =
    ⟨true, (s.slots k).xlateSent, (s.slots k).accessSent, (s.slots k).storeResultSent,
      (s.slots k).accessDone, (s.slots k).killed⟩ := by
  rw [ctl, hval]

theorem free_of_ctl (hctl : ((s.step i).slots k).ctl = ⟨false, false, false, false, false, false⟩) :
    ((s.step i).slots k).Free := by
  simp only [ctl, LsqCtl.mk.injEq] at hctl
  exact ⟨hctl.1, hctl.2.1, hctl.2.2.1, hctl.2.2.2.2.1, hctl.2.2.2.2.2⟩

/-! ## Answers -/

theorem reqAt_of_sent (hsent : (s.slots k).accessSent) : s.reqAt i k = false := by
  by_contra hcon
  rw [(reqAt_flags (by simpa using hcon)).2.2.2.2.2.2] at hsent
  cases hsent

theorem reqAt_of_untranslated (hdone : (s.slots k).xlateDone = false) : s.reqAt i k = false := by
  by_contra hcon
  rw [(reqAt_flags (by simpa using hcon)).2.2.2.2.2.1] at hdone
  cases hdone

theorem reqAt_of_atomic (hamo : (s.slots k).atomic) : s.reqAt i k = false := by
  by_contra hcon
  rw [(reqAt_flags (by simpa using hcon)).2.2.1] at hamo
  cases hamo

/-- An answer is for an access that is under way, or that is accepted now. -/
theorem Answered.under_way (henv : Answered s i) (h : s.accessAnswered i k) :
    ((s.slots k).accessSent ∧ (s.slots k).accessDone = false) ∨ s.reqAt i k := by
  simp only [accessAnswered, or_eq_true, and_eq_true, beq_iff_eq] at h
  rcases h with ⟨hfire, rfl⟩ | ⟨hdone, rfl⟩
  · exact henv.resp hfire
  · exact (henv.done hdone).2.2

theorem respAt_of_resp (hval : (s.slots k).valid) (hlt : k < p.depth)
    (hsent : (s.slots k).accessSent) (hfire : s.respFire i)
    (htag : i.respTagI = k) : s.respAt i k := by
  subst htag
  simp [respAt, hfire, respIsAccess, slotValidAt, hlt, hval, hsent]

theorem storeDoneAt_of_done (henv : Answered s i) (hok : (s.slots k).Ok)
    (hval : (s.slots k).valid) (hlt : k < p.depth)
    (hsent : (s.slots k).accessSent) (hdone : i.storeDoneValidI)
    (htag : i.storeDoneTagI = k) : s.storeDoneAt i k := by
  subst htag
  obtain ⟨hstr, hcach, -⟩ := henv.done hdone
  simp [storeDoneAt, hdone, storeDoneIsExpected, slotValidAt, hlt, hval, hsent, hstr,
    hcach, (hok.accessSent hsent).2.2.2.1]

/-- A live posted store hears every answer, unless two arrive at once. -/
theorem doneAt_eq_answered (hsafe : ReleaseSafe s i)
    (hok : (s.slots k).Ok) (hval : (s.slots k).valid) (hlt : k < p.depth)
    (hkill : (s.slots k).killed = false) (hsent : (s.slots k).accessSent)
    (hstr : (s.slots k).store) (hcach : (s.slots k).cacheable)
    (hrecovery : i.flushI ∨ s.squashVictim i k = false) : s.doneAt i k = s.accessAnswered i k := by
  have hamo := (hok.accessSent hsent).2.2.2.1
  rw [Bool.eq_iff_iff]
  constructor
  · intro hdone
    rw [accessAnswered, or_eq_true]
    rcases (doneAt_spec hdone).2.2.2.2.2 with ⟨hfire, htag⟩ | ⟨-, hfire, htag⟩
    · simp only [storeDoneFire, and_eq_true] at hfire
      right
      rw [hfire.1.1, htag, beq_self_eq_true, Bool.and_self]
    · simp only [postedStoreRespFire, and_eq_true] at hfire
      left
      rw [hfire.1.1, htag, beq_self_eq_true, Bool.and_self]
  · intro hansd
    simp only [accessAnswered, or_eq_true, and_eq_true, beq_iff_eq] at hansd
    rcases hansd with ⟨hfire, htag⟩ | ⟨hdone, htag⟩
    · have hpost : s.postedStoreRespFire i := by
        simp [postedStoreRespFire, hfire, respIsPostedStore, respIsAccess, slotValidAt,
          respSlotKilled, htag, hlt, hval, hsent, hstr, hamo, hcach, hkill]
      have hoth : s.storeDoneFire i = false := by
        by_contra hcon
        rw [not_eq_false] at hcon
        cases hfl : i.flushI with
        | true =>
          rw [(hsafe.flush hfl).release hcon] at hpost
          cases hpost
        | false =>
          have hvic := (hsafe.update hfl).release hcon hpost
          rw [htag] at hvic
          rcases hrecovery with hrecovery | hrecovery
          · rw [hfl] at hrecovery
            cases hrecovery
          · rw [hvic] at hrecovery
            cases hrecovery
      simp [doneAt, postedStoreDoneFire, postedStoreDoneTag, hpost, hoth, htag]
    · have hfire : s.storeDoneFire i := by
        simp [storeDoneFire, hdone, storeDoneIsExpected, slotValidAt,
          storeDoneSlotKilled, htag, hlt, hval, hsent, hstr, hamo, hcach, hkill]
      simp [doneAt, postedStoreDoneFire, postedStoreDoneTag, hfire, htag]

/-- The response of any other live entry is its result. -/
theorem resultAt_of_answered (henv : Answered s i) (hok : (s.slots k).Ok)
    (hval : (s.slots k).valid) (hlt : k < p.depth)
    (hkill : (s.slots k).killed = false) (hsent : (s.slots k).accessSent)
    (hplain : ((s.slots k).store && (s.slots k).cacheable) = false)
    (hvic : s.squashVictim i k = false) (h : s.accessAnswered i k) : s.resultAt i k := by
  have hamo := (hok.accessSent hsent).2.2.2.1
  simp only [accessAnswered, or_eq_true, and_eq_true, beq_iff_eq] at h
  rcases h with ⟨hfire, htag⟩ | ⟨hdone, htag⟩
  · have hacs : s.respIsAccess i := by
      simp [respIsAccess, slotValidAt, htag, hlt, hval, hsent]
    have hslotKilled : s.respSlotKilled i = false := by
      simp [respSlotKilled, slotValidAt, htag, hlt, hval, hkill]
    have hpost : s.respIsPostedStore i = false := by
      simp only [respIsPostedStore, hacs, htag, hamo, Bool.true_and, Bool.not_false, Bool.and_true]
      exact hplain
    rw [respFire, respReadyO, hacs, hslotKilled, hpost, and_eq_true] at hfire
    have hvisible : s.accessRespVisible i := by
      rw [accessRespVisible, hacs, hfire.1, Bool.and_self]
    have hres : s.accessRespResult i := by
      rw [accessRespResult, accessRespSquashedNow, hvisible, hslotKilled, hpost, htag, hvic]
      rfl
    simp only [if_true, Bool.or_self, if_low] at hfire
    simp [resultAt, resultFire, resultValidO, hres, hfire.2, resultIndex, htag]
  · obtain ⟨hstr, hcach, -⟩ := henv.done hdone
    rw [htag] at hstr hcach
    rw [hstr, hcach] at hplain
    cases hplain

/-- An entry with an access under way has no other result than its response. -/
theorem answered_of_resultAt (hfwd : s.loadForward k = false)
    (hplain : ((s.slots k).store && (s.slots k).cacheable) = false)
    (hflt : (s.slots k).xlateFault = false)
    (himm : (s.slots k).immediate = false) (h : s.resultAt i k) : s.accessAnswered i k := by
  rcases resultAt_cases h with ⟨-, htag, hrsp, -⟩ | ⟨-, -, -, hcand⟩
  · simp only [respAt, and_eq_true] at hrsp
    rw [accessAnswered, hrsp.1.1, htag, beq_self_eq_true]
    rfl
  · simp only [localCandidate, hfwd, hflt, himm, Bool.false_or, hplain,
      Bool.false_and, Bool.and_false, Bool.false_eq_true] at hcand

/-! ## The entry of a slot in a flush -/

theorem cancels_flush (hfl : i.flushI) (accepted : Bool) :
    s.cancels i k accepted = (!((s.slots k).store && accepted) &&
      !(i.atomicIrrevocableI && i.atomicTagI == k)) := by
  rw [cancels, hfl, if_pos rfl]

theorem cancels_noFlush (hfl : i.flushI = false) (accepted : Bool) :
    s.cancels i k accepted = s.squashVictim i k := by
  rw [cancels, hfl, if_low]

theorem resultAt_of_killed (hkill : (s.slots k).killed) : s.resultAt i k = false := by
  by_contra hcon
  rw [(resultAt_flags (by simpa using hcon)).2.1] at hkill
  cases hkill

theorem resultAt_of_atomic (hok : (s.slots k).Ok) (hamo : (s.slots k).atomic) :
    s.resultAt i k = false := by
  by_contra hcon
  rw [(resultAt_done hok (by simpa using hcon)).2] at hamo
  cases hamo

theorem resultAt_of_untranslated (hok : (s.slots k).Ok)
    (hdone : (s.slots k).xlateDone = false) : s.resultAt i k = false := by
  by_contra hcon
  rw [(resultAt_done hok (by simpa using hcon)).1] at hdone
  cases hdone

theorem outcome_atomic (hok : (s.slots k).Ok) (hval : (s.slots k).valid) (hamo : (s.slots k).atomic)
    (hkeeps : s.cancels i k ((s.slots k).accessSent || s.reqAt i k) = false)
    (hctl : ((s.step i).slots k).ctl = ⟨!atomicDoneAt i k, false, false, false, false, false⟩) :
    Kept s i k ∨ Freed s i k := by
  have hnsent : (s.slots k).accessSent = false :=
    down_of_imp hamo fun hcon => (hok.accessSent hcon).2.2.2.1
  have hreq := reqAt_of_atomic (i := i) hamo
  have hopen : s.accessOpen i k = false := by
    rw [accessOpen, hnsent, hreq]
    rfl
  have hkill : (s.slots k).killed = false := by
    by_contra hcon
    rcases (hok.killed (by simpa using hcon)).2 with hsent | hsent
    · rw [(hok.xlateSent hsent).2.2.2.1] at hamo
      cases hamo
    · rw [hnsent] at hsent
      cases hsent
  cases hdone : atomicDoneAt i k with
  | true =>
    right
    rw [hdone] at hctl
    exact ⟨free_of_ctl hctl, hopen, .inl hdone⟩
  | false =>
    left
    rw [hdone] at hctl
    apply Kept.of_ctl hctl
    · rw [hnsent, hreq, Bool.or_self]
    · rw [(hok.noHalves hval hnsent).1, resultAt_of_atomic hok hamo, Bool.or_self]
    · rw [hkill, hkeeps, Bool.or_self]
    · rw [hopen, Bool.false_and]
    · intro hcon
      cases hcon

theorem outcome_flush_atomic (henv : Answered s i) (hok : (s.slots k).Ok) (hfl : i.flushI)
    (hirrev : (i.atomicIrrevocableI && i.atomicTagI == k)) : Kept s i k ∨ Freed s i k := by
  have hkeeps : s.cancels i k ((s.slots k).accessSent || s.reqAt i k) = false := by
    rw [cancels_flush hfl, hirrev, Bool.not_true, Bool.and_false]
  rw [and_eq_true, beq_iff_eq] at hirrev
  obtain ⟨hact, htag⟩ := hirrev
  obtain ⟨-, hval, hamo⟩ := henv.atomic.atomicIrrevocable hact
  rw [htag] at hval hamo
  exact outcome_atomic hok hval hamo hkeeps (step_flush_atomic henv.atomic hok hfl hact htag)

/-- An accepted entry other than a posted store completes by its response only. -/
theorem clear_of_accepted (hok : (s.slots k).Ok) (hsent : ((s.slots k).accessSent || s.reqAt i k))
    (hclr : (s.slots k).accessSent → s.loadForward k = false) :
    s.loadForward k = false ∧ (s.slots k).xlateFault = false ∧ (s.slots k).immediate = false := by
  cases hacs : (s.slots k).accessSent with
  | true =>
    obtain ⟨-, -, hflt, -, himm⟩ := hok.accessSent hacs
    exact ⟨hclr hacs, hflt, himm⟩
  | false =>
    rw [hacs, Bool.false_or] at hsent
    obtain ⟨-, -, -, himm, hflt, -⟩ := reqAt_flags hsent
    refine ⟨?_, hflt, himm⟩
    have hcand := (reqAt_spec hsent).2.2
    simp only [requestCandidate, and_eq_true] at hcand
    cases hstr : (s.slots k).store with
    | true => simp [loadForward, scanned, hstr]
    | false =>
      rw [hstr, if_low, and_eq_true, and_eq_true] at hcand
      simpa using hcand.2.1.2

section Outcome

variable (henv : Answered s i) (hsafe : ReleaseSafe s i) (hok : (s.slots k).Ok) (hlt : k < p.depth)
include henv hsafe hok hlt

theorem outcome_flush_store (hfl : i.flushI)
    (hstr : (s.slots k).store) (hsent : (s.slots k).accessSent)
    (hquarantine : (s.slots k).killed → (s.slots k).xlateSent ∨
      ((s.slots k).accessSent && !(s.slots k).accessDone)) : Kept s i k ∨ Freed s i k := by
  obtain ⟨hval, htrans, hflt, -, himm⟩ := hok.accessSent hsent
  have hctl := step_flush_store henv.atomic hok hfl hstr hsent
  have hreq := reqAt_of_sent (i := i) hsent
  have hkeeps : s.cancels i k ((s.slots k).accessSent || s.reqAt i k) = false := by
    rw [cancels_flush hfl, hstr, hsent]
    rfl
  have hopen : s.accessOpen i k = (!(s.slots k).accessDone && !s.accessAnswered i k) := by
    rw [accessOpen, hsent, hreq, hstr, Bool.or_true, Bool.and_true, Bool.or_false, Bool.true_and]
  have hnoXlate := hok.noXlate_of_done htrans
  have hans := fun h => (hsafe.flush hfl).answer k hlt h hstr hsent
  cases hkill : (s.slots k).killed with
  | true =>
    rw [hkill, if_pos rfl] at hctl
    have hnone : s.accessAnswered i k = false := down_of_imp hkill fun hcon => (hans hcon).1
    left
    rw [ctl_of_valid hval] at hctl
    apply Kept.of_ctl hctl
    · rw [hreq, Bool.or_false]
    · rw [resultAt_of_killed hkill, Bool.or_false]
    · rw [hkeeps, Bool.or_false]
    · rw [hopen, hnone, hsent, Bool.not_false, Bool.and_true, Bool.true_and]
    · exact hquarantine
  | false =>
    rw [hkill, if_low] at hctl
    cases hcach : (s.slots k).cacheable with
    | true =>
      rw [hcach, if_pos rfl, doneAt_eq_answered hsafe hok hval hlt hkill
        hsent hstr hcach (.inl hfl)] at hctl
      cases hboth : ((s.slots k).storeResultSent || s.resultAt i k) &&
          ((s.slots k).accessDone || s.accessAnswered i k) with
      | true =>
        right
        rw [hboth, if_pos rfl] at hctl
        rw [and_eq_true] at hboth
        refine ⟨free_of_ctl hctl, ?_, .inr (.inr (.inr hboth.1))⟩
        rw [hopen, ← Bool.not_or, hboth.2, Bool.not_true]
      | false =>
        left
        rw [hboth, if_low] at hctl
        apply Kept.of_ctl hctl
        · rw [hsent, Bool.true_or]
        · rfl
        · rw [hkill, hkeeps, Bool.or_self]
        · rw [hopen, Bool.not_or, Bool.true_and]
        · intro hcon
          cases hcon
    | false =>
      rw [hcach, if_low] at hctl
      have hplain : ((s.slots k).store && (s.slots k).cacheable) = false := by
        rw [hcach, Bool.and_false]
      have hdone : (s.slots k).accessDone = false :=
        down_of_imp hcach fun hcon => (hok.accessDone hcon).2.2
      have hhalf : (s.slots k).storeResultSent = false :=
        down_of_imp hcach fun hcon => (hok.resultSent hval hcon).2.2
      cases hres : s.resultAt i k with
      | true =>
        right
        rw [hres, if_pos rfl] at hctl
        have hfwd : s.loadForward k = false := by
          simp [loadForward, scanned, hstr]
        refine ⟨free_of_ctl hctl, ?_, .inr (.inr (.inr (by rw [hres, Bool.or_true])))⟩
        rw [hopen, answered_of_resultAt hfwd hplain hflt himm hres, Bool.not_true, Bool.and_false]
      | false =>
        left
        rw [hres, if_low, ctl_of_valid hval] at hctl
        have hnone : s.accessAnswered i k = false := by
          by_contra hcon
          have hansd : s.accessAnswered i k := by simpa using hcon
          have hvic : s.squashVictim i k = false :=
            down_of_imp hcach fun hcon => (hans hansd).2 hcon
          rw [resultAt_of_answered henv hok hval hlt hkill hsent hplain hvic
            hansd] at hres
          cases hres
        apply Kept.of_ctl hctl
        · rw [hreq, Bool.or_false]
        · rw [hres, Bool.or_false]
        · rw [hkeeps, Bool.or_false]
        · rw [hopen, hnone, hsent, Bool.not_false, Bool.and_true, Bool.true_and]
        · exact hquarantine

theorem outcome_flush (hfl : i.flushI) (hval : (s.slots k).valid)
    (hquarantine : (s.slots k).killed → (s.slots k).xlateSent ∨
      ((s.slots k).accessSent && !(s.slots k).accessDone)) : Kept s i k ∨ Freed s i k := by
  cases hkeep : (s.slots k).store && (s.slots k).accessSent with
  | true =>
    rw [and_eq_true] at hkeep
    exact outcome_flush_store henv hsafe hok hlt hfl hkeep.1 hkeep.2 hquarantine
  | false =>
  cases hamo : i.atomicIrrevocableI && i.atomicTagI == k with
  | true => exact outcome_flush_atomic henv hok hfl hamo
  | false =>
    have hstr : ((s.slots k).valid && (s.slots k).store && (s.slots k).accessSent) = false := by
      rw [Bool.and_assoc, hkeep, Bool.and_false]
    have hnotStore : ((s.slots k).store && ((s.slots k).accessSent || s.reqAt i k)) = false := by
      rw [Bool.and_or_distrib_left, hkeep, Bool.false_or]
      by_contra hcon
      rw [not_eq_false, and_eq_true, reqAt, and_eq_true, beq_iff_eq] at hcon
      have hwr := (hsafe.flush hfl).store hcon.2.1
      rw [reqWriteO, hcon.2.2, hcon.1] at hwr
      cases hwr
    have hcancels : s.cancels i k ((s.slots k).accessSent || s.reqAt i k) := by
      rw [cancels_flush hfl, hnotStore, hamo]
      rfl
    have hopen : s.accessOpen i k = false := by
      rw [accessOpen, hfl, Bool.not_true, Bool.false_or]
      cases hload : (s.slots k).store with
      | false => rw [Bool.and_false]
      | true =>
        rw [hload, Bool.true_and, or_eq_false_iff] at hnotStore
        rw [hnotStore.1, hnotStore.2]
        rfl
    cases hxl : (s.slots k).valid && (s.slots k).xlateSent && !s.xlateRespAt i k with
    | true =>
      left
      simp only [and_eq_true, not_eq_true'] at hxl
      obtain ⟨-, huntr, hnsent, -⟩ := hok.xlateSent hxl.1.2
      have hctl := step_flush_xlate henv.atomic hok hfl hxl.1.2 hxl.2
      rw [ctl_of_valid hval] at hctl
      apply Kept.of_ctl hctl
      · rw [reqAt_of_untranslated huntr, Bool.or_false]
      · rw [resultAt_of_untranslated hok huntr, Bool.or_false]
      · rw [hcancels, Bool.or_true]
      · rw [hopen, hnsent, Bool.false_and]
      · exact fun _ => .inl hxl.1.2
    | false =>
      right
      exact ⟨step_flush_drop hfl hstr hamo hxl
        (doneAt_of_not_store hkeep), hopen, .inr (.inr (.inl hcancels))⟩

/-! ## The entry of a slot otherwise -/

theorem outcome_victim (hfl : i.flushI = false) (hval : (s.slots k).valid)
    (hvic : s.squashVictim i k) : Kept s i k ∨ Freed s i k := by
  have hsq : i.squashYoungerI := by
    rw [squashVictim, and_eq_true] at hvic
    exact hvic.1
  have hreq : s.reqAt i k = false := down_of_imp hsq fun hcon => (reqAt_spec hcon).1
  have hcancels : s.cancels i k ((s.slots k).accessSent || s.reqAt i k) := by
    rw [cancels_noFlush hfl, hvic]
  have hnotDone := (hsafe.update hfl).squash k hlt hvic
  have hopen : s.accessOpen i k = ((s.slots k).accessSent && !s.accessAnswered i k) := by
    rw [accessOpen, hreq, hnotDone, hfl, Bool.not_false, Bool.true_or, Bool.and_true,
      Bool.or_false, Bool.and_true]
  cases hkeep : ((s.slots k).xlateSent || (s.slots k).accessSent) && !s.answeredNow i k with
  | true =>
    left
    rw [and_eq_true, or_eq_true, not_eq_true'] at hkeep
    obtain ⟨hsent, hansd⟩ := hkeep
    obtain ⟨hrsp, -, hdone, -⟩ := respAt_of_not_answered hansd
    have hnone : (s.slots k).accessSent → s.accessAnswered i k = false := by
      intro hsent
      by_contra hcon
      simp only [accessAnswered, not_eq_false, or_eq_true, and_eq_true, beq_iff_eq] at hcon
      rcases hcon with ⟨hfire, htag⟩ | ⟨hfire, htag⟩
      · rw [respAt_of_resp hval hlt hsent hfire htag] at hrsp
        cases hrsp
      · rw [storeDoneAt_of_done henv hok hval hlt hsent hfire htag] at hdone
        cases hdone
    have hctl := step_quarantine henv.atomic hok hfl hvic hsent hansd
    rw [ctl_of_valid hval] at hctl
    apply Kept.of_ctl hctl
    · rw [hreq, Bool.or_false]
    · have hres : s.resultAt i k = false := by
        by_contra hcon
        rw [(resultAt_flags (by simpa using hcon)).2.2] at hvic
        cases hvic
      rw [hres, Bool.or_false]
    · rw [hcancels, Bool.or_true]
    · rw [hopen, hnotDone]
      cases hacs : (s.slots k).accessSent with
      | false => rfl
      | true => rw [hnone hacs]
    · intro _
      rw [hnotDone, Bool.not_false, Bool.and_true]
      exact hsent
  | false =>
    right
    rw [Bool.and_eq_false_iff, Bool.not_eq_false'] at hkeep
    refine ⟨free_of_ctl (step_squash hfl hval hvic hkeep), ?_, .inr (.inr (.inl hcancels))⟩
    rw [hopen]
    cases hacs : (s.slots k).accessSent with
    | false => rfl
    | true =>
      rw [hacs, Bool.or_true] at hkeep
      have hnow := hkeep.resolve_left Bool.true_eq_false.mp
      have hxl := (xlateRespAt_of_done hok hfl hval (hok.accessSent hacs).2.1).2
      rw [xlateRespAt] at hxl
      rw [answeredNow, hxl, Bool.or_false, or_eq_true] at hnow
      have hansd : s.accessAnswered i k := by
        rw [accessAnswered, or_eq_true]
        apply hnow.imp_right
        intro hdone
        simp only [storeDoneFire, storeDoneKilledFire, and_eq_true, or_eq_true] at hdone ⊢
        exact ⟨hdone.1.elim (fun h => h.1.1) (fun h => h.1.1), hdone.2⟩
      rw [hansd]
      rfl

omit hsafe in
theorem outcome_killed (hfl : i.flushI = false) (hkill : (s.slots k).killed)
    (hvic : s.squashVictim i k = false)
    (hquarantine : (s.slots k).xlateSent ∨
      ((s.slots k).accessSent && !(s.slots k).accessDone)) : Kept s i k ∨ Freed s i k := by
  have hval := (hok.killed hkill).1
  have hreq : s.reqAt i k = false := down_of_imp hkill fun hcon => (reqAt_flags hcon).2.1
  have hopen : s.accessOpen i k = ((s.slots k).accessSent && !(s.slots k).accessDone &&
      !s.accessAnswered i k) := by
    rw [accessOpen, hreq, hfl, Bool.not_false, Bool.true_or, Bool.and_true, Bool.or_false]
  have hctl := step_killed henv.atomic hok hfl hkill hvic
  cases hany : s.xlateRespAt i k || s.respAt i k || s.storeDoneAt i k with
  | true =>
    right
    rw [hany, if_pos rfl] at hctl
    refine ⟨free_of_ctl hctl, ?_, .inr (.inl hkill)⟩
    rw [hopen]
    cases hacs : (s.slots k).accessSent with
    | false => rfl
    | true =>
      rw [(xlateRespAt_of_done hok hfl hval (hok.accessSent hacs).2.1).2,
        Bool.false_or, or_eq_true] at hany
      have hansd : s.accessAnswered i k := by
        rw [accessAnswered, or_eq_true]
        apply hany.imp
        · intro hrsp
          simp only [respAt, and_eq_true] at hrsp ⊢
          exact ⟨hrsp.1.1, hrsp.2⟩
        · intro hdone
          simp only [storeDoneAt, and_eq_true] at hdone ⊢
          exact ⟨hdone.1.1, hdone.2⟩
      rw [hansd, Bool.not_true, Bool.and_false]
  | false =>
    left
    rw [hany, if_low, ctl_of_valid hval] at hctl
    simp only [or_eq_false_iff] at hany
    apply Kept.of_ctl hctl
    · rw [hreq, Bool.or_false]
    · rw [resultAt_of_killed hkill, Bool.or_false]
    · rw [hkill, Bool.true_or]
    · rw [hopen]
      cases hacs : (s.slots k).accessSent with
      | false => rfl
      | true =>
        have hnone : s.accessAnswered i k = false := by
          by_contra hcon
          simp only [accessAnswered, not_eq_false, or_eq_true, and_eq_true, beq_iff_eq] at hcon
          rcases hcon with ⟨hfire, htag⟩ | ⟨hfire, htag⟩
          · rw [respAt_of_resp hval hlt hacs hfire htag] at hany
            cases hany.1.2
          · rw [storeDoneAt_of_done henv hok hval hlt hacs hfire htag] at hany
            cases hany.2
        rw [hnone, Bool.not_false, Bool.and_true]
    · exact fun _ => hquarantine

omit hsafe hlt in
theorem outcome_untranslated (hfl : i.flushI = false)
    (hval : (s.slots k).valid) (hkill : (s.slots k).killed = false)
    (hvic : s.squashVictim i k = false)
    (huntr : (s.slots k).xlateDone = false) : Kept s i k := by
  have hnsent := hok.notSent_of_untranslated huntr
  have hreq := reqAt_of_untranslated (i := i) huntr
  apply Kept.of_ctl (step_untranslated henv.atomic hok hfl hval hkill hvic huntr)
  · rw [hnsent, hreq, Bool.or_self]
  · rw [(hok.noHalves hval hnsent).1, resultAt_of_untranslated hok huntr, Bool.or_self]
  · rw [hkill, cancels_noFlush hfl, hvic, Bool.or_self]
  · rw [accessOpen, hnsent, hreq]
    rfl
  · intro hcon
    cases hcon

section

variable (hfl : i.flushI = false) (hval : (s.slots k).valid)
  (hkill : (s.slots k).killed = false) (hvic : s.squashVictim i k = false)

include hfl hval hkill hvic

theorem outcome_posted (hpost : s.posted i k) : Kept s i k ∨ Freed s i k := by
  have hctl := step_posted henv.atomic hok hfl hval hkill hvic hpost
  rw [posted, and_eq_true, and_eq_true] at hpost
  obtain ⟨⟨hstr, hcach⟩, hsent⟩ := hpost
  have hlater := (hsafe.update hfl).later k hlt
  -- an entry whose request is accepted now has not been answered before
  have hdone : s.doneAt i k = s.accessAnswered i k ∧
      (s.reqAt i k → (s.slots k).accessDone = false) := by
    cases hacs : (s.slots k).accessSent with
    | true =>
      constructor
      · exact doneAt_eq_answered hsafe hok hval hlt hkill hacs hstr
          hcach (.inr hvic)
      · intro hcon
        rw [reqAt_of_sent hacs] at hcon
        cases hcon
    | false =>
      rw [hacs, Bool.false_or] at hsent
      have hnone : s.accessAnswered i k = false := down_of_imp hsent fun hcon => hlater hcon
      refine ⟨?_, fun _ => (hok.noHalves hval hacs).2⟩
      rw [hnone]
      by_contra hcon
      rw [(doneAt_spec (by simpa using hcon)).2.1] at hacs
      cases hacs
  have hopen : s.accessOpen i k = (!(s.slots k).accessDone && !s.accessAnswered i k) := by
    rw [accessOpen, hfl, Bool.not_false, Bool.true_or, Bool.and_true]
    cases hreq : s.reqAt i k with
    | true => rw [hdone.2 hreq, Bool.or_true, Bool.not_false]
    | false =>
      rw [hreq, Bool.or_false] at hsent
      rw [hsent, Bool.or_false, Bool.true_and]
  rw [hdone.1] at hctl
  cases hboth : ((s.slots k).storeResultSent || s.resultAt i k) &&
      ((s.slots k).accessDone || s.accessAnswered i k) with
  | true =>
    right
    rw [hboth, if_pos rfl] at hctl
    rw [and_eq_true] at hboth
    refine ⟨free_of_ctl hctl, ?_, .inr (.inr (.inr hboth.1))⟩
    rw [hopen, ← Bool.not_or, hboth.2, Bool.not_true]
  | false =>
    left
    rw [hboth, if_low] at hctl
    apply Kept.of_ctl hctl
    · rw [hsent]
    · rfl
    · rw [hkill, cancels_noFlush hfl, hvic, Bool.or_self]
    · rw [hopen, Bool.not_or, Bool.true_and]
    · intro hcon
      cases hcon

theorem outcome_plain (htrans : (s.slots k).xlateDone)
    (hamo : (s.slots k).atomic = false) (hpost : s.posted i k = false)
    (hclr : (s.slots k).accessSent → s.loadForward k = false) : Kept s i k ∨ Freed s i k := by
  have hctl := step_plain henv.atomic hok hfl hval hkill hvic htrans hamo hpost
  have hplain : ((s.slots k).accessSent || s.reqAt i k) →
      ((s.slots k).store && (s.slots k).cacheable) = false := by
    intro hsent
    rw [posted, hsent, Bool.and_true] at hpost
    exact hpost
  have hdone : (s.slots k).accessDone = false := by
    by_contra hcon
    obtain ⟨hsent, hstr, hcach⟩ := hok.accessDone (by simpa using hcon)
    have hnot := hplain (by rw [hsent, Bool.true_or])
    rw [hstr, hcach] at hnot
    cases hnot
  have hhalf : (s.slots k).storeResultSent = false := by
    by_contra hcon
    obtain ⟨hsent, hstr, hcach⟩ := hok.resultSent hval (by simpa using hcon)
    have hnot := hplain (by rw [hsent, Bool.true_or])
    rw [hstr, hcach] at hnot
    cases hnot
  have hopen : s.accessOpen i k =
      (((s.slots k).accessSent || s.reqAt i k) && !s.accessAnswered i k) := by
    rw [accessOpen, hfl, hdone, Bool.not_false, Bool.true_or, Bool.and_true, Bool.and_true]
  cases hres : s.resultAt i k with
  | true =>
    right
    rw [hres, if_pos rfl] at hctl
    refine ⟨free_of_ctl hctl, ?_, .inr (.inr (.inr (by rw [hres, Bool.or_true])))⟩
    rw [hopen]
    cases hsent : (s.slots k).accessSent || s.reqAt i k with
    | false => rfl
    | true =>
      obtain ⟨hfwd, hflt, himm⟩ := clear_of_accepted hok hsent hclr
      rw [answered_of_resultAt hfwd (hplain hsent) hflt himm hres]
      rfl
  | false =>
    left
    rw [hres, if_low] at hctl
    apply Kept.of_ctl hctl
    · rfl
    · rw [hhalf, hres, Bool.or_self]
    · rw [hkill, cancels_noFlush hfl, hvic, Bool.or_self]
    · rw [hopen, Bool.not_false, Bool.and_true]
      cases hansd : s.accessAnswered i k with
      | false => rw [Bool.not_false, Bool.and_true]
      | true =>
        have hsent : (s.slots k).accessSent := by
          rcases henv.under_way hansd with ⟨hsent, -⟩ | hreq
          · exact hsent
          · rw [(hsafe.update hfl).later k hlt hansd] at hreq
            cases hreq
        rw [resultAt_of_answered henv hok hval hlt hkill hsent
          (hplain (by rw [hsent, Bool.true_or])) hvic hansd] at hres
        cases hres
    · intro hcon
      cases hcon

end

/-- A valid entry is kept with its progress, or its slot is freed. -/
theorem outcome (hval : (s.slots k).valid) (hclr : (s.slots k).accessSent → s.loadForward k = false)
    (hquarantine : (s.slots k).killed → (s.slots k).xlateSent ∨
      ((s.slots k).accessSent && !(s.slots k).accessDone)) : Kept s i k ∨ Freed s i k := by
  cases hfl : i.flushI with
  | true => exact outcome_flush henv hsafe hok hlt hfl hval hquarantine
  | false =>
  cases hvic : s.squashVictim i k with
  | true => exact outcome_victim henv hsafe hok hlt hfl hval hvic
  | false =>
  cases hkill : (s.slots k).killed with
  | true =>
    exact outcome_killed henv hok hlt hfl hkill hvic (hquarantine hkill)
  | false =>
  cases htrans : (s.slots k).xlateDone with
  | false =>
    exact .inl (outcome_untranslated henv hok hfl hval hkill hvic htrans)
  | true =>
  cases hamo : (s.slots k).atomic with
  | true =>
    have hkeeps : s.cancels i k ((s.slots k).accessSent || s.reqAt i k) = false := by
      rw [cancels_noFlush hfl, hvic]
    exact outcome_atomic hok hval hamo hkeeps (step_atomic hok hfl hval hvic hamo)
  | false =>
  cases hpost : s.posted i k with
  | true =>
    exact outcome_posted henv hsafe hok hlt hfl hval hkill hvic hpost
  | false =>
    exact outcome_plain henv hsafe hok hlt hfl hval hkill
      hvic htrans hamo hpost hclr

end Outcome

/-! ## Loads that memory has accepted -/

/-- The older stores of a load that memory has accepted are known, and none of them
holds a byte for it. -/
def SentClear (s : LsqState p) : Prop :=
  ∀ k, (s.slots k).live = true → (s.slots k).store = false →
    (s.slots k).accessSent = true → ∀ j, j < p.depth → s.olderStoreOf k j = true →
      s.unknownAddress j = false ∧ ∀ b, b < 8 → s.supplies k b j = false

theorem SentClear.not_forward (h : SentClear s) (hsent : (s.slots k).accessSent) :
    s.loadForward k = false := by
  by_contra hcon
  simp only [loadForward, scanned, not_eq_false, and_eq_true, not_eq_true'] at hcon
  obtain ⟨⟨⟨⟨hscanned, hsome⟩, -⟩, -⟩, -⟩ := hcon
  obtain ⟨⟨⟨hlive, hload⟩, -⟩, -⟩ := hscanned
  rw [someByteCovered, List.any_eq_true] at hsome
  obtain ⟨b, hb, hcover⟩ := hsome
  rw [List.mem_range] at hb
  rw [and_eq_true, loadCoverMask, loadScan,
    (scanStores_owners (s := s) k p.depth hb).valid, Option.isSome_iff_exists] at hcover
  obtain ⟨⟨j, hown⟩, -⟩ := hcover
  obtain ⟨hj, hsupplies⟩ := AgeScan.scan_some hown
  have holder : s.olderStoreOf k j := by
    simp only [supplies, and_eq_true] at hsupplies
    exact hsupplies.1.1.1.1
  rw [(h k hlive hload hsent j hj holder).2 b hb] at hsupplies
  cases hsupplies

/-- A translated entry keeps its operation and its translation. -/
theorem sameParts_of_done (hok : (s.slots k).Ok) (hval : (s.slots k).valid)
    (hdone : (s.slots k).xlateDone) : SameParts (s.slots k) ((s.step i).slots k) := by
  cases hfl : i.flushI with
  | true => exact sameParts_of_flush hfl
  | false =>
    exact sameParts_of_noXlate hfl hval (xlateRespAt_of_done hok hfl hval hdone).2

theorem unknownAddress_step {j : Nat} (hj : SameParts (s.slots j)
      ((s.step i).slots j)) : (s.step i).unknownAddress j = s.unknownAddress j := by
  rw [unknownAddress, unknownAddress, hj.atomic, hj.xlateDone, hj.xlateFault]

theorem supplies_step {j b : Nat} (hk : SameParts (s.slots k) ((s.step i).slots k))
    (hj : SameParts (s.slots j) ((s.step i).slots j))
    (holder : s.olderStoreOf k j) (hnone : s.supplies k b j = false) :
    (s.step i).supplies k b j = false := by
  have hpaddr := congrArg LsqXlate.paddr hk.xlate
  have hsize := congrArg LsqOp.size hk.op
  have hstorePaddr := congrArg LsqXlate.paddr hj.xlate
  have hwstrb := congrArg LsqOp.wstrb hj.op
  simp only [xlate, op] at hpaddr hsize hstorePaddr hwstrb
  rw [supplies, holder, Bool.true_and] at hnone
  rw [supplies, unknownAddress_step hj, loadMask, hpaddr, hsize, hstorePaddr,
    hwstrb, ← loadMask, Bool.and_assoc, Bool.and_assoc, Bool.and_assoc,
    ← Bool.and_assoc (wordOf _ == wordOf _), ← Bool.and_assoc (!s.unknownAddress j),
    ← Bool.and_assoc (!s.unknownAddress j), hnone, Bool.and_false]

/-- What holds of the queue between cycles. -/
structure QueueInv (s : LsqState p) : Prop where
  ok : ∀ k, (s.slots k).Ok
  bound : ∀ k, (s.slots k).valid = true → k < p.depth
  quarantine : ∀ k, (s.slots k).killed = true → (s.slots k).xlateSent = true ∨
    ((s.slots k).accessSent && !(s.slots k).accessDone) = true
  clear : SentClear s

/-- An entry after the cycle was there before it, or has been allocated in it. -/
theorem QueueInv.kept_or_alloc (h : QueueInv s) (henv : Answered s i)
    (hsafe : ReleaseSafe s i) (hval : ((s.step i).slots k).valid) :
    ((s.slots k).valid ∧ Kept s i k) ∨ ∃ a store, s.allocInto i k = some (a, store) := by
  rcases valid_of_step (fun hamo => (henv.atomic.atomicIrrevocable hamo).2.1)
    hval with hold | halloc
  · rcases outcome henv hsafe (h.ok k) (h.bound k hold) hold h.clear.not_forward
      (h.quarantine k) with hkept | hfreed
    · exact .inl ⟨hold, hkept⟩
    · rw [hfreed.free.valid] at hval
      cases hval
  · exact .inr halloc

/-- Nothing is under way for an entry that has just been allocated. -/
theorem QueueInv.allocated (h : QueueInv s) (henv : Answered s i) {a : LsqAlloc p}
    {store : Bool} (halloc : s.allocInto i k = some (a, store)) :
    ((s.step i).slots k).accessSent = false ∧ ((s.step i).slots k).storeResultSent = false ∧
        ((s.step i).slots k).killed = false := by
  have hctl := step_alloc henv.atomic (h.ok k) halloc
  simp only [ctl, LsqCtl.mk.injEq] at hctl
  exact ⟨hctl.2.2.1, hctl.2.2.2.1, hctl.2.2.2.2.2⟩

/-- What an accepted load has been checked against. -/
theorem QueueInv.checked (h : QueueInv s)
    (hlive : (s.slots k).live) (hload : (s.slots k).store = false)
    (hsent : ((s.slots k).accessSent || s.reqAt i k)) :
    (s.slots k).xlateDone ∧ ∀ j < p.depth, s.olderStoreOf k j →
      s.unknownAddress j = false ∧ ∀ b < 8, s.supplies k b j = false := by
  cases hacs : (s.slots k).accessSent with
  | true => exact ⟨((h.ok k).accessSent hacs).2.1, h.clear k hlive hload hacs⟩
  | false =>
    rw [hacs, Bool.false_or] at hsent
    obtain ⟨-, -, -, -, hflt, hdone, -⟩ := reqAt_flags hsent
    have hcand := (reqAt_spec hsent).2.2
    simp only [requestCandidate, hload, if_low, and_eq_true, not_eq_true'] at hcand
    have hscanned : s.scanned k := by
      rw [scanned, hlive, hload, hdone, hflt]
      rfl
    exact ⟨hdone, (clear_of_not_blocked hscanned hcand.2.1.1 hcand.2.1.2).1⟩

/-- A live entry after the cycle was live before it, with the same operation, or has
been allocated in it. -/
theorem QueueInv.live_before (h : QueueInv s) (henv : Answered s i)
    (hsafe : ReleaseSafe s i) (hlive : ((s.step i).slots k).live) :
    ((s.slots k).live ∧ ((s.step i).slots k).op = (s.slots k).op ∧ Kept s i k) ∨
      ∃ a store, s.allocInto i k = some (a, store) := by
  rw [live, and_eq_true, not_eq_true'] at hlive
  apply (h.kept_or_alloc henv hsafe hlive.1).imp_left
  intro hkept
  have hkill := hkept.2.killed
  rw [hlive.2, eq_comm, or_eq_false_iff] at hkill
  refine ⟨?_, ?_, hkept.2⟩
  · rw [live, hkept.1, hkill.1]
    rfl
  · rw [step_op, afterAlloc_none (allocInto_of_valid hkept.1)]

theorem valid_of_live (hlive : (s.slots k).live) : (s.slots k).valid := by
  rw [live, and_eq_true] at hlive
  exact hlive.1

theorem QueueInv.clear_step (h : QueueInv s) (henv : Answered s i)
    (hsafe : ReleaseSafe s i) : SentClear (s.step i) := by
  intro k hlive' hload' hsent j hj holder
  rcases h.live_before henv hsafe hlive' with ⟨hlive, hop, hkept⟩ | ⟨a, store, halloc⟩
  · have hbef := hkept.accessSent
    rw [hsent] at hbef
    have hload : (s.slots k).store = false := (congrArg LsqOp.store hop).symm.trans hload'
    have hid : ((s.step i).slots k).id = (s.slots k).id := congrArg LsqOp.id hop
    obtain ⟨hdone, hchecked⟩ := h.checked hlive hload hbef.symm
    have hsame := sameParts_of_done (i := i) (h.ok k) (valid_of_live hlive) hdone
    rw [olderStoreOf, and_eq_true, and_eq_true] at holder
    obtain ⟨⟨hlivej', hstorej'⟩, hage⟩ := holder
    rcases h.live_before henv hsafe hlivej' with ⟨hlivej, hopj, -⟩ | ⟨a, store, halloc⟩
    · have hidj : ((s.step i).slots j).id = (s.slots j).id := congrArg LsqOp.id hopj
      have hstorej : (s.slots j).store := (congrArg LsqOp.store hopj).symm.trans hstorej'
      have holder : s.olderStoreOf k j := by
        rw [olderStoreOf, hlivej, hstorej, ← hid, ← hidj, hage]
        rfl
      obtain ⟨hknown, hnone⟩ := hchecked j hj holder
      have hdonej : (s.slots j).xlateDone := by
        simp only [unknownAddress, or_eq_false_iff, Bool.not_eq_false'] at hknown
        exact hknown.1.2
      have hsamej := sameParts_of_done (i := i) (h.ok j) (valid_of_live hlivej) hdonej
      refine ⟨by rw [unknownAddress_step hsamej, hknown], fun b hb => ?_⟩
      exact supplies_step hsame hsamej holder (hnone b hb)
    -- an entry that arrives now is not older than an accepted load
    obtain ⟨hfl, -, -, -, hport⟩ := allocInto_some halloc
    have hopj : ((s.step i).slots j).op = (LsqSlot.allocated a store i.translationBypassI).op := by
      rw [step_op, afterAlloc_some halloc]
    have hstr : ((s.step i).slots j).store = store := congrArg LsqOp.store hopj
    have hidj : ((s.step i).slots j).id = a.id := congrArg LsqOp.id hopj
    rw [hstorej'] at hstr
    rcases hport with ⟨-, rfl, hfire, -⟩ | ⟨rfl, -⟩
    · have hyoung := (hsafe.update hfl).older hfire k
        (h.bound k (valid_of_live hlive)) hlive hload hbef.symm
      rw [hid, hidj, hyoung] at hage
      cases hage
    · cases hstr
  · rw [(h.allocated henv halloc).1] at hsent
    cases hsent

theorem QueueInv.step (h : QueueInv s) (henv : Answered s i) (hsafe : ReleaseSafe s i) :
    QueueInv (s.step i) := by
  constructor
  · intro k
    exact ok_step henv.atomic (h.ok k)
  · intro k hval
    rcases h.kept_or_alloc henv hsafe hval with ⟨hold, -⟩ | ⟨a, store, halloc⟩
    · exact h.bound k hold
    · exact (allocInto_some halloc).2.2.1
  · intro k hkill
    have hval := ((ok_step henv.atomic (h.ok k)).killed hkill).1
    rcases h.kept_or_alloc henv hsafe hval with ⟨-, hkept⟩ | ⟨a, store, halloc⟩
    · exact hkept.quarantine hkill
    · rw [(h.allocated henv halloc).2.2] at hkill
      cases hkill
  · exact h.clear_step henv hsafe

theorem QueueInv.reset : QueueInv (.reset : LsqState p) := by
  constructor
  · intro k
    exact .of_free ⟨rfl, rfl, rfl, rfl, rfl⟩ (by rintro (h | h) <;> cases h)
  · intro k hval
    cases hval
  · intro k hkill
    cases hkill
  · intro k hlive
    cases hlive

end LsqState

end OpenRV64
