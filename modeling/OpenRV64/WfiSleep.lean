/-
Clock gating during WFI: the load/store queue stands still while the core sleeps, and the
memory side, whose clock runs on, may answer what the queue has left open.
-/
import OpenRV64.LsqAgeWindow
import OpenRV64.LsqPhase

namespace OpenRV64

open LsqInput LsqState Sync
open Bool (false_ne_true and_eq_true eq_false_iff)

/-- A cycle's inputs of the queue, with the position of the oldest instruction in flight
and what happens to a WFI: it asks to execute, it commits, an interrupt wakes the core. -/
structure SleepInput (p : LsqParams) where
  lsq : LsqSeqInput p
  headSeq : ℕ
  wfiIssueI : Bool
  wfiCommitI : Bool
  wfiWakeI : Bool

/-- The queue behind its clock gate.  `wfiQ`: a WFI has executed and not committed. -/
structure SleepState (p : LsqParams) where
  lsq : LsqSeqState p
  wfiQ : Bool
  wfiSleepQ : Bool

def SleepInput.pins {p : LsqParams} (i : SleepInput p) : LsqInput p := i.lsq.pins

namespace SleepState

variable {p : LsqParams} (t : SleepState p) (i : SleepInput p)

def queue : LsqState p := t.lsq.queue

/-- A WFI executes only when no store is pending. -/
def wfiFire : Bool := i.wfiIssueI && !t.queue.storePendingO i.pins

/-- The core goes to sleep, unless an interrupt is already waiting. -/
def sleeps : Bool := !t.wfiSleepQ && i.wfiCommitI && !i.wfiWakeI

/-- One edge of the ungated clock.  The gate withholds it from the queue during sleep. -/
def step : SleepState p where
  lsq := if t.wfiSleepQ then t.lsq else (lsqSeq p).step t.lsq i.lsq
  wfiQ := if i.pins.flushI then false else t.wfiFire i || t.wfiQ
  wfiSleepQ := if t.wfiSleepQ then !i.wfiWakeI else i.wfiCommitI && !i.wfiWakeI

end SleepState

/-- The gated queue from reset. -/
def wfiGate (p : LsqParams) : Circuit (SleepState p) (SleepInput p) where
  Init t := t.lsq.queue = .reset ∧ t.wfiQ = false ∧ t.wfiSleepQ = false
  step := SleepState.step

namespace SleepState

variable {p : LsqParams} (t : SleepState p) (i : SleepInput p)

/-- What the core promises: a memory operation stays in flight until its result is
reported, a WFI executes as the oldest instruction in flight, younger ones wait until it
has committed, which flushes, and nothing enters the queue during sleep. -/
structure Promises : Prop where
  ports : AtomicPorts t.queue i.pins
  retired : ∀ k, k < p.depth → (t.queue.slots k).live = true →
    (t.queue.slots k).storeResultSent = false → i.headSeq ≤ t.lsq.seq k
  oldest : i.wfiIssueI = true → t.wfiSleepQ = false ∧ ∀ k, k < p.depth →
    (t.queue.slots k).valid = true → t.lsq.seq k < i.headSeq
  barrier : i.wfiIssueI = true ∨ t.wfiQ = true ∨ t.wfiSleepQ = true →
    i.pins.loadAllocI.valid = false ∧ i.pins.storeAllocI.valid = false
  commit : i.wfiCommitI = true → t.wfiQ = true ∧ i.pins.flushI = true

/-- No quarantined entry is left behind by the flush: its translation is answered in this
cycle, or it waits for a read, which the bus cancels. -/
def QuarantineDrained : Prop :=
  ∀ k, k < p.depth → (t.queue.slots k).killed = true →
    ((t.queue.slots k).store && (t.queue.slots k).accessSent) = false ∧
      ((t.queue.slots k).xlateSent = true → t.queue.xlateRespAt i.pins k = true)

/-- Sleep begins only with the quarantine drained. -/
def Drained : Prop := t.sleeps i = true → t.QuarantineDrained i

/-- An answer completes in this cycle that an entry of the queue waits for. -/
def owed : Bool :=
  t.queue.xlateRespFire i.pins || (t.queue.respFire i.pins && t.queue.respIsAccess i.pins) ||
    (i.pins.storeDoneValidI && t.queue.storeDoneIsExpected i.pins)

/-- Every slot of the queue can be used. -/
def Usable : Prop := ∀ k, k < p.depth → (t.queue.slots k).valid = false

/-- What holds in every run, drained or not. -/
structure Inv : Prop where
  ok : ∀ k, (t.queue.slots k).Ok
  bound : ∀ k, (t.queue.slots k).valid = true → k < p.depth
  quarantined : t.wfiQ = true → ∀ k, (t.queue.slots k).valid = true →
    (t.queue.slots k).killed = true

variable {t i}

theorem allocInto_none (hload : i.pins.loadAllocI.valid = false)
    (hstr : i.pins.storeAllocI.valid = false) (k : ℕ) : t.queue.allocInto i.pins k = none := by
  rw [allocInto, storeAllocFire, loadAllocFire, hload, hstr]
  simp

/-- When a WFI executes, every entry of the queue is quarantined. -/
theorem Inv.quarantined_of_fire (hinv : t.Inv) (hp : t.Promises i)
    (hfire : t.wfiFire i) (k : ℕ) (hval : (t.queue.slots k).valid) : (t.queue.slots k).killed := by
  rw [wfiFire, and_eq_true, Bool.not_eq_true'] at hfire
  by_contra hkill
  have hlive : (t.queue.slots k).live := by
    rw [LsqSlot.live, hval, eq_false_iff.mpr hkill]
    rfl
  have hk := hinv.bound k hval
  have hold := (hp.oldest hfire.1).2 k hk hval
  cases hsent : (t.queue.slots k).storeResultSent with
  | false =>
    have := hp.retired k hk hlive hsent
    omega
  | true =>
    have hstr := ((hinv.ok k).resultSent hval hsent).2.1
    have hpend : t.queue.storePendingO i.pins := by
      rw [storePendingO, Bool.or_eq_true, List.any_eq_true]
      exact .inl ⟨k, List.mem_range.mpr hk, by rw [hlive, hstr]; rfl⟩
    rw [hfire.2] at hpend
    exact false_ne_true hpend

/-- With every entry quarantined and no arrival, every entry left is quarantined. -/
theorem quarantined_step (hinv : t.Inv) (hport : AtomicPorts t.queue i.pins)
    (hfl : i.pins.flushI = false) (hnone : ∀ k, t.queue.allocInto i.pins k = none)
    (hall : ∀ k, (t.queue.slots k).valid → (t.queue.slots k).killed) (k : ℕ)
    (hval : ((t.queue.step i.pins).slots k).valid) : ((t.queue.step i.pins).slots k).killed := by
  have hok := hinv.ok k
  cases hold : (t.queue.slots k).valid with
  | false =>
    rw [step_invalid hport hok hfl (hnone k) hold] at hval
    rw [hold] at hval
    cases hval
  | true =>
    have hkill := hall k hold
    have hctl : ((t.queue.step i.pins).slots k).ctl.valid := hval
    show ((t.queue.step i.pins).slots k).ctl.killed
    cases hvic : t.queue.squashVictim i.pins k with
    | false =>
      rw [step_killed hport hok hfl hkill hvic] at hctl ⊢
      split_ifs at hctl ⊢
      exact hkill
    | true =>
      obtain ⟨-, hsent⟩ := hok.killed hkill
      cases hansd : t.queue.answeredNow i.pins k with
      | false =>
        rw [step_quarantine hport hok hfl hvic hsent hansd]
      | true =>
        rw [step_squash hfl hold hvic (.inr hansd)] at hctl
        cases hctl

/-- A flush frees every quarantined entry except those it has to keep a tag for. -/
theorem flush_valid (hinv : t.Inv) (hport : AtomicPorts t.queue i.pins) (hfl : i.pins.flushI)
    (hall : ∀ k, (t.queue.slots k).valid → (t.queue.slots k).killed) (k : ℕ) :
    ((t.queue.step i.pins).slots k).valid ↔ (t.queue.slots k).killed ∧
        (((t.queue.slots k).store && (t.queue.slots k).accessSent) ∨
          ((t.queue.slots k).xlateSent ∧ t.queue.xlateRespAt i.pins k = false)) := by
  have hok := hinv.ok k
  cases hval : (t.queue.slots k).valid with
  | false =>
    have hfree := hok.free hval
    constructor
    · intro hafter
      rcases valid_of_step (fun h => (hport.atomicIrrevocable h).2.1) hafter with
        h | ⟨a, store, h⟩
      · rw [hval] at h
        cases h
      · rw [allocInto_of_flush hfl] at h
        cases h
    · rw [hfree.killed]
      exact fun h => absurd_low h.1
  | true =>
    have hkill := hall k hval
    rw [hkill]
    simp only [true_and]
    cases hstr : ((t.queue.slots k).store && (t.queue.slots k).accessSent) with
    | true =>
      rw [and_eq_true] at hstr
      have hctl := step_flush_store hport hok hfl hstr.1 hstr.2
      rw [hkill, if_pos rfl] at hctl
      have hsame : ((t.queue.step i.pins).slots k).valid = (t.queue.slots k).valid :=
        congrArg LsqCtl.valid hctl
      rw [hsame, hval]
      simp
    | false =>
      simp only [Bool.false_eq_true, false_or]
      constructor
      · intro hafter
        by_contra hdone
        have hamo : (i.pins.atomicIrrevocableI && i.pins.atomicTagI == k) = false := by
          by_contra htag
          rw [Bool.not_eq_false, and_eq_true, beq_iff_eq] at htag
          have hslot := (hport.atomicIrrevocable htag.1).2.2
          rw [htag.2] at hslot
          rcases (hok.killed hkill).2 with h | h
          · rw [(hok.xlateSent h).2.2.2.1] at hslot
            exact false_ne_true hslot
          · rw [(hok.accessSent h).2.2.2.1] at hslot
            exact false_ne_true hslot
        have hfree := step_flush_drop (s := t.queue) (i := i.pins) (k := k) hfl
          (by rw [Bool.and_assoc, hstr, Bool.and_false]) hamo
          (by
            rw [hval, Bool.true_and, Bool.and_eq_false_iff, Bool.not_eq_false']
            by_cases hx : (t.queue.slots k).xlateSent
            · right
              by_contra hrsp
              exact hdone ⟨hx, Bool.not_eq_true _ ▸ hrsp⟩
            · exact .inl (eq_false_iff.mpr hx))
          (doneAt_of_not_store hstr)
        rw [hfree.valid] at hafter
        exact false_ne_true hafter
      · rintro ⟨hx, hrsp⟩
        have hctl := step_flush_xlate hport hok hfl hx hrsp
        have hsame : ((t.queue.step i.pins).slots k).valid = (t.queue.slots k).valid :=
          congrArg LsqCtl.valid hctl
        rw [hsame, hval]

theorem step_queue (hawake : t.wfiSleepQ = false) : (t.step i).queue = t.queue.step i.pins := by
  show (if t.wfiSleepQ then t.lsq else (lsqSeq p).step t.lsq i.lsq).queue = _
  rw [hawake]
  rfl

theorem step_queue_asleep (hasleep : t.wfiSleepQ) : (t.step i).queue = t.queue := by
  show (if t.wfiSleepQ then t.lsq else (lsqSeq p).step t.lsq i.lsq).queue = _
  rw [hasleep]
  rfl

theorem Inv.step_inv (h : t.Inv) (hp : t.Promises i) : (t.step i).Inv := by
  have hwfi : (t.step i).wfiQ =
      if i.pins.flushI then false else t.wfiFire i || t.wfiQ := rfl
  cases hs : t.wfiSleepQ with
  | true =>
    have hqueue := step_queue_asleep (i := i) hs
    refine ⟨by rw [hqueue]; exact h.ok, by rw [hqueue]; exact h.bound, ?_⟩
    intro hflight
    rw [hqueue]
    apply h.quarantined
    have hno : t.wfiFire i = false := by
      rw [wfiFire]
      cases hissue : i.wfiIssueI with
      | false => rfl
      | true => exact absurd_low ((hp.oldest hissue).1.symm.trans hs)
    rw [hwfi, hno, Bool.false_or] at hflight
    split_ifs at hflight
    exact hflight
  | false =>
    have hqueue := step_queue (i := i) hs
    refine ⟨?_, ?_, ?_⟩
    · rw [hqueue]
      exact fun k => ok_step hp.ports (h.ok k)
    · rw [hqueue]
      intro k hval
      rcases valid_of_step (fun ha => (hp.ports.atomicIrrevocable ha).2.1) hval with
        hold | ⟨a, store, halloc⟩
      · exact h.bound k hold
      · exact (allocInto_some halloc).2.2.1
    · intro hflight
      rw [hwfi] at hflight
      split_ifs at hflight with hfl
      rw [hqueue]
      rw [Bool.or_eq_true] at hflight
      have hbar : i.pins.loadAllocI.valid = false ∧ i.pins.storeAllocI.valid = false := by
        apply hp.barrier
        rcases hflight with hfire | hq
        · rw [wfiFire, and_eq_true] at hfire
          exact .inl hfire.1
        · exact .inr (.inl hq)
      apply quarantined_step h hp.ports (eq_false_iff.mpr hfl) (allocInto_none hbar.1 hbar.2)
      rcases hflight with hfire | hq
      · exact h.quarantined_of_fire hp hfire
      · exact h.quarantined hq

/-- Going to sleep leaves every slot usable exactly when the quarantine is drained. -/
theorem Inv.sleeps_usable (h : t.Inv) (hp : t.Promises i) (hsleeps : t.sleeps i) :
    (t.step i).Usable ↔ t.QuarantineDrained i := by
  rw [sleeps, and_eq_true, and_eq_true, Bool.not_eq_true'] at hsleeps
  obtain ⟨⟨hawake, hcom⟩, -⟩ := hsleeps
  obtain ⟨hflight, hfl⟩ := hp.commit hcom
  have hval := flush_valid h hp.ports hfl (h.quarantined hflight)
  rw [Usable, step_queue hawake]
  constructor
  · intro hfree k hk hkill
    have hnot : ¬ ((t.queue.step i.pins).slots k).valid := by
      rw [hfree k hk]
      exact false_ne_true
    rw [hval k, not_and, not_or, not_and] at hnot
    obtain ⟨hstr, hxl⟩ := hnot hkill
    exact ⟨eq_false_iff.mpr hstr, fun hx => by simpa using hxl hx⟩
  · intro hdrained k hk
    rw [eq_false_iff]
    intro hafter
    obtain ⟨hkill, hkept⟩ := (hval k).mp hafter
    obtain ⟨hstr, hxl⟩ := hdrained k hk hkill
    rcases hkept with hkept | ⟨hx, hrsp⟩
    · rw [hstr] at hkept
      exact false_ne_true hkept
    · rw [hxl hx] at hrsp
      exact false_ne_true hrsp.symm

/-- With no entry and no arrival nothing is owed. -/
theorem not_owed (hfree : t.Usable) (hload : i.pins.loadAllocI.valid = false)
    (hstr : i.pins.storeAllocI.valid = false) : t.owed i = false := by
  have hslot : ∀ tag, t.queue.slotValidAt tag = false := by
    intro tag
    rw [slotValidAt, Bool.and_eq_false_iff, decide_eq_false_iff_not, or_iff_not_imp_left, not_not]
    exact hfree tag
  have hreq : t.queue.xlateRespMatchesAllocation i.pins = false := by
    rw [xlateRespMatchesAllocation, xlateRequestFromAlloc,
      xlateAllocSelectStore, xlateAllocSelectLoad,
      storeAllocNeedsXlate, loadAllocNeedsXlate, storeAllocFire, loadAllocFire, hload, hstr]
    simp
  rw [owed, xlateRespFire, xlateRespIsExpected, respIsAccess,
    storeDoneIsExpected, hslot, hslot, hslot, hreq]
  simp

theorem inv_reset (h : (wfiGate p).Init t) : t.Inv := by
  obtain ⟨hqueue, hflight, -⟩ := h
  have hslots : t.queue = .reset := hqueue
  refine ⟨?_, ?_, ?_⟩
  · intro k
    rw [hslots]
    constructor <;> intro h <;> cases h
    all_goals simp_all [reset]
  · intro k hval
    rw [hslots] at hval
    cases hval
  · rw [hflight]
    exact fun h => absurd_low h

/-- Sleep loses nothing in a run that always goes to sleep drained: every slot is free and
no answer that the queue waits for completes; and going to sleep undrained is exactly what
leaves a slot behind. -/
theorem sleep_loses_nothing {past : Past (SleepState p) (SleepInput p)}
    (hrun : Run (wfiGate p) (cycleEnv fun t i => t.Promises i ∧ t.Drained i) past t) :
    (t.wfiSleepQ = true → t.Usable ∧ ∀ i, t.Promises i → t.owed i = false ∧ (t.step i).Usable) ∧
      ∀ i, t.Promises i → t.sleeps i = true → ((t.step i).Usable ↔ t.QuarantineDrained i) := by
  have hall : t.Inv ∧ (t.wfiSleepQ = true → t.Usable) := by
    apply Run.stateInvariant (P := fun t => t.Inv ∧ (t.wfiSleepQ = true → t.Usable)) _ _ hrun
    · intro s hreset
      refine ⟨inv_reset hreset, ?_⟩
      rw [hreset.2.2]
      exact fun h => absurd_low h
    · intro _ s i henv h
      refine ⟨h.1.step_inv henv.1, ?_⟩
      intro hasleep
      cases hs : s.wfiSleepQ with
      | true =>
        show (s.step i).Usable
        rw [Usable, step_queue_asleep hs]
        exact h.2 hs
      | false =>
        have hsleeps : s.sleeps i = true := by
          change (if s.wfiSleepQ then !i.wfiWakeI else i.wfiCommitI && !i.wfiWakeI) = true
            at hasleep
          rw [hs, if_low] at hasleep
          rw [sleeps, hs, Bool.and_assoc]
          exact hasleep
        exact (h.1.sleeps_usable henv.1 hsleeps).mpr (henv.2 hsleeps)
  refine ⟨fun hasleep => ⟨hall.2 hasleep, fun i hp => ?_⟩,
    fun i hp hsleeps => hall.1.sleeps_usable hp hsleeps⟩
  obtain ⟨hload, hstore⟩ := hp.barrier (.inr (.inr hasleep))
  refine ⟨not_owed (hall.2 hasleep) hload hstore, ?_⟩
  rw [Usable, step_queue_asleep hasleep]
  exact hall.2 hasleep

instance (t : SleepState p) (i : SleepInput p) : Decidable (QuarantineDrained t i) :=
  inferInstanceAs (Decidable (∀ k, k < p.depth → (t.queue.slots k).killed = true →
    ((t.queue.slots k).store && (t.queue.slots k).accessSent) = false ∧
      ((t.queue.slots k).xlateSent = true → t.queue.xlateRespAt i.pins k = true)))

instance (t : SleepState p) (i : SleepInput p) : Decidable (Drained t i) :=
  inferInstanceAs (Decidable (t.sleeps i = true → t.QuarantineDrained i))

instance (t : SleepState p) (i : SleepInput p) : Decidable (Promises t i) :=
  decidable_of_iff
    (AtomicPorts t.queue i.pins ∧
      (∀ k, k < p.depth → (t.queue.slots k).live = true →
        (t.queue.slots k).storeResultSent = false → i.headSeq ≤ t.lsq.seq k) ∧
      (i.wfiIssueI = true → t.wfiSleepQ = false ∧ ∀ k, k < p.depth →
        (t.queue.slots k).valid = true → t.lsq.seq k < i.headSeq) ∧
      (i.wfiIssueI = true ∨ t.wfiQ = true ∨ t.wfiSleepQ = true →
        i.pins.loadAllocI.valid = false ∧ i.pins.storeAllocI.valid = false) ∧
      (i.wfiCommitI = true → t.wfiQ = true ∧ i.pins.flushI = true))
    ⟨fun h => ⟨h.1, h.2.1, h.2.2.1, h.2.2.2.1, h.2.2.2.2⟩,
      fun h => ⟨h.ports, h.retired, h.oldest, h.barrier, h.commit⟩⟩

/-- A cycle with the given pins of the queue and nothing for a WFI to do. -/
def awake (pins : LsqInput smallLsq) (headSeq loadSeq : ℕ) : SleepInput smallLsq where
  lsq :=
    { pins := pins
      loadSeq := loadSeq
      storeSeq := 0
      squashSeq := 0 }
  headSeq := headSeq
  wfiIssueI := false
  wfiCommitI := false
  wfiWakeI := false

/-- A branch is followed on a path that it does not take: the load there is squashed after
its translation has been accepted.  The WFI on the right path executes and commits; the
translation is answered `early`, before the commit, or not. -/
def squashedThenSleep (early : Bool) : List (SleepInput smallLsq) :=
  [awake ((quiet _).withLoad 1 0x1000) 0 1, awake
      { quiet _ with
        squashYoungerI := true
        squashIdI := 0 } 0 0, awake (if early then (quiet _).translating 0 0x2000 else quiet _) 0 0,
    { awake (quiet _) 2 0 with wfiIssueI := true },
    { awake { quiet _ with flushI := true } 3 0 with wfiCommitI := true }]

def emptySleep : SleepState smallLsq := ⟨LsqSeqState.emptyLsq, false, false⟩

theorem sleep_loses_nothing_answered :
    ((exec (wfiGate smallLsq) [] emptySleep (squashedThenSleep true)).2.wfiSleepQ = true →
      (exec (wfiGate smallLsq) [] emptySleep (squashedThenSleep true)).2.Usable ∧
        ∀ i, (exec (wfiGate smallLsq) [] emptySleep (squashedThenSleep true)).2.Promises i →
          (exec (wfiGate smallLsq) [] emptySleep (squashedThenSleep true)).2.owed i = false ∧
            ((exec (wfiGate smallLsq) [] emptySleep (squashedThenSleep true)).2.step i).Usable) ∧
      ∀ i, (exec (wfiGate smallLsq) [] emptySleep (squashedThenSleep true)).2.Promises i →
        (exec (wfiGate smallLsq) [] emptySleep (squashedThenSleep true)).2.sleeps i = true →
          (((exec (wfiGate smallLsq) [] emptySleep (squashedThenSleep true)).2.step i).Usable ↔
            (exec (wfiGate smallLsq) [] emptySleep
              (squashedThenSleep true)).2.QuarantineDrained i) :=
  sleep_loses_nothing (exec_run_decide (squashedThenSleep true) ⟨rfl, rfl, rfl⟩ (by decide +kernel))

/-- The barrier that holds a WFI back looks at stores only: the answer to a squashed load's
translation completes during sleep, and the slot waits for it for ever. -/
theorem sleep_loses_nothing_fails :
    ¬ ∀ (p : LsqParams) past t, Run (wfiGate p) (cycleEnv Promises) past t → t.wfiSleepQ = true →
        t.Usable ∧ ∀ i, t.Promises i → t.owed i = false := by
  intro hsleep
  have hlost := hsleep smallLsq _ _
    (exec_run_decide (squashedThenSleep false) (s := emptySleep) ⟨rfl, rfl, rfl⟩
      (by decide +kernel)) (by decide +kernel)
  have hanswer := hlost.2 (awake ((quiet _).translating 0 0x2000) 3 0) (by decide +kernel)
  revert hanswer
  decide +kernel

end SleepState

end OpenRV64
