/-
Translation requests and their answers: which entry a response of the translation
channel is for, and when the queue writes it into another.
-/
import OpenRV64.LsqPhase
import Mathlib.Data.List.Nodup

namespace OpenRV64

open LsqState
open LsqInput (quiet)

/-- An accepted translation request: the slot that it names, and the cycle in which
the entry that it was made for entered that slot. -/
structure LsqRequest where
  tag : Nat
  since : Nat
deriving DecidableEq

/-- A cycle's inputs together with the entry that a response is for. -/
structure LsqXlateInput (p : LsqParams) where
  pins : LsqInput p
  answers : Nat

/-- The queue together with the cycle in which the entry of each slot was
allocated, and the requests that the channel has still to answer. -/
structure LsqXlateState (p : LsqParams) where
  queue : LsqState p
  now : Nat
  since : Nat → Nat
  pending : List LsqRequest

namespace LsqXlateState

variable {p : LsqParams}

section Channel

variable (t : LsqXlateState p) (i : LsqXlateInput p)

/-- The cycle in which the entry of a slot was allocated, after this one. -/
def sinceNext (k : Nat) : Nat :=
  if (t.queue.allocInto i.pins k).isSome then t.now else t.since k

/-- A request from the allocation port is for the entry that is being allocated. -/
def requestSince : Nat :=
  if t.queue.xlateRequestFromAlloc i.pins then t.now
  else t.since (t.queue.xlateReqTagO i.pins)

/-- The requests that can be answered in this cycle: the one that is accepted now
is one of them. -/
def openRequests : List LsqRequest :=
  if t.queue.xlateReqFire i.pins then
    t.pending ++ [⟨t.queue.xlateReqTagO i.pins, t.requestSince i⟩]
  else t.pending

def response : LsqRequest := ⟨i.pins.xlateRespTagI, i.answers⟩

def pendingNext : List LsqRequest :=
  if i.pins.xlateRespValidI then (t.openRequests i).erase (response i) else t.openRequests i

end Channel

end LsqXlateState

/-- The queue from reset, with the requests that it has made. -/
def lsqXlate (p : LsqParams) : Sync.Circuit (LsqXlateState p) (LsqXlateInput p) where
  Init t := t.queue = .reset ∧ t.pending = []
  step t i :=
    { queue := t.queue.step i.pins
      now := t.now + 1
      since := t.sinceNext i
      pending := t.pendingNext i }

namespace LsqXlateState

variable {p : LsqParams}

/-- The channel answers each accepted request once, with the request's tag, in the
cycle of its acceptance or later. -/
structure Channel (t : LsqXlateState p) (i : LsqXlateInput p) : Prop where
  ports : t.queue.AtomicPorts i.pins
  answer : i.pins.xlateRespValidI = true → response i ∈ t.openRequests i

/-- A response is written into an entry only if it answers the request of that
entry, and nothing but a response changes what is known of a translation. -/
structure NoStale (past : Sync.Past (LsqXlateState p) (LsqXlateInput p)) : Prop where
  answers : ∀ x ∈ past, ∀ k, x.1.queue.xlateWrites x.2.pins k = true →
    x.2.pins.xlateRespTagI = k ∧ x.2.answers = x.1.sinceNext x.2 k
  kept : ∀ x ∈ past, ∀ k, x.1.queue.xlateWrites x.2.pins k = false →
    ((x.1.queue.step x.2.pins).slots k).xlate = (x.1.queue.afterAlloc x.2.pins k).xlate

/-- A request that is accepted in the cycle of a flush is answered at once, and no
physical response is taken in the cycle of a squash for an entry that still waits for
its translation. -/
structure XlateSafe (t : LsqXlateState p) (i : LsqXlateInput p) : Prop where
  flush : i.pins.flushI = true → t.queue.xlateReqFire i.pins = true →
    i.pins.xlateRespValidI = true ∧ i.pins.xlateRespTagI = t.queue.xlateReqTagO i.pins
  squash : i.pins.squashYoungerI = true → t.queue.respFire i.pins = true →
    (t.queue.slots i.pins.respTagI).xlateSent = false

/-- The channel owes an answer for exactly the entries that wait for one. -/
structure XlateInv (t : LsqXlateState p) : Prop where
  ok : ∀ k, (t.queue.slots k).Ok
  bound : ∀ k, (t.queue.slots k).valid = true → k < p.depth
  pending : ∀ r, r ∈ t.pending ↔ (t.queue.slots r.tag).xlateSent = true ∧ r.since = t.since r.tag
  nodup : t.pending.Nodup

section Step

variable {t : LsqXlateState p} {i : LsqXlateInput p}

section

variable (h : XlateInv t)

include h

theorem mem_open (r : LsqRequest) : r ∈ t.openRequests i ↔
    ((t.queue.slots r.tag).xlateSent ∧ r.since = t.since r.tag) ∨
      (t.queue.xlateReqAt i.pins r.tag ∧ r.since = t.requestSince i) := by
  rw [openRequests, xlateReqAt]
  cases t.queue.xlateReqFire i.pins with
  | false => simp [h.pending]
  | true =>
    rw [if_pos rfl, List.mem_append, h.pending, List.mem_singleton, Bool.true_and, beq_iff_eq]
    apply or_congr_right
    constructor
    · intro hr
      rw [hr]
      exact ⟨rfl, rfl⟩
    · intro hr
      cases r
      obtain ⟨rfl, rfl⟩ := hr
      rfl

theorem open_unique {r r' : LsqRequest} (hr : r ∈ t.openRequests i)
    (hr' : r' ∈ t.openRequests i) (htag : r.tag = r'.tag) : r = r' := by
  have hsince : r.since = r'.since := by
    rw [mem_open h] at hr hr'
    rw [htag] at hr
    rcases hr with ⟨hsent, hr⟩ | ⟨hreq, hr⟩
    · rcases hr' with ⟨-, hr'⟩ | ⟨hreq', -⟩
      · rw [hr, hr']
      · rw [notSent_of_xlateReqAt (h.ok _) hreq'] at hsent
        cases hsent
    · rcases hr' with ⟨hsent', -⟩ | ⟨-, hr'⟩
      · rw [notSent_of_xlateReqAt (h.ok _) hreq] at hsent'
        cases hsent'
      · rw [hr, hr']
  cases r
  cases r'
  obtain rfl : _ = _ := htag
  obtain rfl : _ = _ := hsince
  rfl

theorem open_nodup : (t.openRequests i).Nodup := by
  rw [openRequests]
  split
  · rename_i hfire
    rw [List.nodup_append]
    refine ⟨h.nodup, List.nodup_singleton _, ?_⟩
    intro r hr r' hr' heq
    rw [List.mem_singleton] at hr'
    subst heq
    rw [h.pending, hr'] at hr
    have hreq : t.queue.xlateReqAt i.pins (t.queue.xlateReqTagO i.pins) := by
      rw [xlateReqAt, hfire, beq_self_eq_true, Bool.and_self]
    rw [notSent_of_xlateReqAt (h.ok _) hreq] at hr
    cases hr.1
  · exact h.nodup

/-- A response takes away the open request of its slot. -/
theorem mem_pendingNext (hchan : Channel t i) (r : LsqRequest) : r ∈ t.pendingNext i ↔
      r ∈ t.openRequests i ∧ ¬ (i.pins.xlateRespValidI ∧ i.pins.xlateRespTagI = r.tag) := by
  rw [pendingNext]
  cases hrsp : i.pins.xlateRespValidI with
  | false => simp
  | true =>
    rw [if_pos rfl, (open_nodup h).mem_erase_iff, and_comm]
    apply and_congr_right
    intro hr
    rw [not_iff_not, and_iff_right rfl]
    constructor
    · intro heq
      rw [heq]
      rfl
    · intro htag
      exact open_unique h hr (hchan.answer hrsp) htag.symm

/-- The queue takes every response that the channel gives. -/
theorem xlateRespAt_iff (hchan : Channel t i) (k : Nat) :
    t.queue.xlateRespAt i.pins k ↔ i.pins.xlateRespValidI ∧ i.pins.xlateRespTagI = k := by
  rw [xlateRespAt, xlateRespFire, Bool.and_eq_true, Bool.and_eq_true, beq_iff_eq]
  apply and_congr_left
  intro htag
  apply and_iff_left_of_imp
  intro hrsp
  have hopen := (mem_open h _).mp (hchan.answer hrsp)
  apply xlateRespIsExpected_of rfl
  refine hopen.imp (fun hsent => ?_) And.left
  have hval := ((h.ok _).xlateSent hsent.1).1
  exact ⟨h.bound _ hval, hval, hsent.1⟩

/-- A request and the entry of its slot were made for each other. -/
theorem sinceNext_of_open (hfl : i.pins.flushI = false)
    {r : LsqRequest} (hr : r ∈ t.openRequests i) : r.since = t.sinceNext i r.tag := by
  rw [mem_open h] at hr
  rw [sinceNext]
  rcases hr with ⟨hsent, hsince⟩ | ⟨hreq, hsince⟩
  · rw [allocInto_of_valid ((h.ok _).xlateSent hsent).1, hsince]
    rfl
  rw [hsince, requestSince]
  rw [xlateReqAt, Bool.and_eq_true, beq_iff_eq] at hreq
  obtain ⟨hfire, htag⟩ := hreq
  cases hsrc : t.queue.xlateRequestFromAlloc i.pins with
  | true =>
    obtain ⟨a, store, halloc, -⟩ := allocInto_of_fromAlloc hfl hsrc
    rw [htag] at halloc
    rw [halloc]
    rfl
  | false =>
    have hcand := (candidate_of_request hfire hsrc).2
    rw [htag] at hcand ⊢
    rw [allocInto_of_valid (xlateCandidate_flags hcand).1]
    rfl

theorem XlateInv.step (hchan : Channel t i)
    (hsafe : XlateSafe t i) : XlateInv ((lsqXlate p).step t i) := by
  constructor
  · intro k
    exact ok_step hchan.ports (h.ok k)
  · intro k hval
    rcases valid_of_step (fun hamo =>
        (hchan.ports.atomicIrrevocable hamo).2.1) hval with hold | ⟨a, store, halloc⟩
    · exact h.bound k hold
    · exact (allocInto_some halloc).2.2.1
  · intro r
    change r ∈ t.pendingNext i ↔
      ((t.queue.step i.pins).slots r.tag).xlateSent ∧ r.since = t.sinceNext i r.tag
    have hansd : i.pins.flushI → t.queue.xlateReqAt i.pins r.tag →
        t.queue.xlateRespAt i.pins r.tag := by
      intro hfl hreq
      rw [xlateReqAt, Bool.and_eq_true, beq_iff_eq] at hreq
      rw [xlateRespAt_iff h hchan, ← hreq.2]
      exact hsafe.flush hfl hreq.1
    rw [mem_pendingNext h hchan, ← xlateRespAt_iff h hchan,
      step_xlateSent hchan.ports (h.ok _) hansd hsafe.squash, Bool.and_eq_true,
      Bool.or_eq_true, Bool.not_eq_true', ← Bool.not_eq_true, and_right_comm]
    apply and_congr_left
    intro hnone
    rw [mem_open h, or_and_right]
    apply or_congr
    · apply and_congr_right
      intro hsent
      rw [sinceNext, allocInto_of_valid ((h.ok _).xlateSent hsent).1]
      rfl
    · apply and_congr_right
      intro hreq
      have hfl : i.pins.flushI = false := by
        by_contra hcon
        exact hnone (hansd (by simpa using hcon) hreq)
      have hopen : (⟨r.tag, t.requestSince i⟩ : LsqRequest) ∈ t.openRequests i :=
        (mem_open h _).mpr (.inr ⟨hreq, rfl⟩)
      rw [← sinceNext_of_open h hfl hopen]
  · change (t.pendingNext i).Nodup
    rw [pendingNext]
    split
    · exact (open_nodup h).erase _
    · exact open_nodup h

end

end Step

theorem XlateInv.reset {t : LsqXlateState p} (hinit : (lsqXlate p).Init t) : XlateInv t := by
  obtain ⟨hqueue, hpend⟩ := hinit
  constructor
  · intro k
    rw [hqueue]
    exact .of_free ⟨rfl, rfl, rfl, rfl, rfl⟩ (by rintro (h | h) <;> cases h)
  · intro k hval
    rw [hqueue] at hval
    cases hval
  · intro r
    simp [hqueue, hpend, LsqState.reset]
  · rw [hpend]
    exact List.nodup_nil

theorem XlateInv.answers {t : LsqXlateState p} {i : LsqXlateInput p} (h : XlateInv t)
    (hchan : Channel t i) {k : Nat} (hwrs : t.queue.xlateWrites i.pins k) :
    i.pins.xlateRespTagI = k ∧ i.answers = t.sinceNext i k := by
  simp only [xlateWrites, xlateRespFire, Bool.and_eq_true, Bool.not_eq_true', beq_iff_eq] at hwrs
  obtain ⟨⟨⟨hfl, hrsp, -⟩, rfl⟩, -⟩ := hwrs
  exact ⟨rfl, sinceNext_of_open h hfl (hchan.answer hrsp)⟩

/-- In every run in which no request is accepted in the cycle of a flush and left
unanswered there, and squashes do not meet a stray response, no entry takes the
translation of another. -/
theorem noStale_of_xlateSafe {past : Sync.Past (LsqXlateState p) (LsqXlateInput p)}
    {t : LsqXlateState p}
    (hrun : Sync.Run (lsqXlate p)
      (Sync.cycleEnv fun t i => Channel t i ∧ XlateSafe t i) past t) : NoStale past := by
  have hall : XlateInv t ∧ ∀ x ∈ past, ∀ k, x.1.queue.xlateWrites x.2.pins k = true →
      x.2.pins.xlateRespTagI = k ∧ x.2.answers = x.1.sinceNext x.2 k := by
    apply Sync.Run.invariant (P := fun past t => XlateInv t ∧ ∀ x ∈ past, _) ?_ ?_ hrun
    · intro t hinit
      exact ⟨.reset hinit, by simp⟩
    · intro past t i _ henv hold
      refine ⟨hold.1.step henv.1 henv.2, fun x hx k hwrites => ?_⟩
      rcases List.mem_cons.mp hx with rfl | hx
      · exact hold.1.answers henv.1 hwrites
      · exact hold.2 x hx k hwrites
  constructor
  · exact hall.2
  · intro x _ k hwrites
    rw [step_xlate, hwrites, if_low]

/-! ## A request in the cycle of a flush -/

instance (t : LsqXlateState p) (i : LsqXlateInput p) : Decidable (Channel t i) :=
  decidable_of_iff (t.queue.AtomicPorts i.pins ∧
      (i.pins.xlateRespValidI = true → response i ∈ t.openRequests i))
    ⟨fun h => ⟨h.1, h.2⟩, fun h => ⟨h.ports, h.answer⟩⟩

instance (t : LsqXlateState p) (i : LsqXlateInput p) : Decidable (XlateSafe t i) :=
  decidable_of_iff
    ((i.pins.flushI = true → t.queue.xlateReqFire i.pins = true → i.pins.xlateRespValidI = true ∧
          i.pins.xlateRespTagI = t.queue.xlateReqTagO i.pins) ∧
      (i.pins.squashYoungerI = true → t.queue.respFire i.pins = true →
        (t.queue.slots i.pins.respTagI).xlateSent = false))
    ⟨fun h => ⟨h.1, h.2⟩, fun h => ⟨h.flush, h.squash⟩⟩

def emptyLsqXlate : LsqXlateState smallLsq := ⟨.reset, 0, fun _ => 0, []⟩

/-- A load that waits for the channel is flushed; the next one takes its slot, and
its request meets the answer to the first. -/
def flushedThenLoad (accepted : Bool) : List (LsqXlateInput smallLsq) :=
  [{ pins := { (LsqInput.quiet _).withLoad 0 0x1000 with xlateReqReadyI := false }
     answers := 0 },
    { pins :=
        { LsqInput.quiet _ with
          flushI := true
          xlateReqReadyI := accepted }
      answers := 0 },
    { pins := (LsqInput.quiet _).withLoad 1 0x3000
      answers := 0 },
    { pins := (LsqInput.quiet _).translating 0 0x2000
      answers := if accepted then 0 else 2 }]

theorem noStale_of_xlateSafe_waiting :
    NoStale (Sync.exec (lsqXlate smallLsq) [] emptyLsqXlate (flushedThenLoad false)).1 :=
  noStale_of_xlateSafe (Sync.exec_run_decide _ ⟨rfl, rfl⟩ (by decide +kernel))

/-- The queue forgets a request that is accepted while it is flushed. -/
theorem noStale_fails :
    ¬ ∀ (p : LsqParams) past t,
      Sync.Run (lsqXlate p) (Sync.cycleEnv Channel) past t → NoStale past := by
  intro hstale
  have hanswers := (hstale smallLsq _ _ (Sync.exec_run_decide (flushedThenLoad true)
    (s := emptyLsqXlate) ⟨rfl, rfl⟩ (by decide +kernel))).answers
  have hlast := hanswers _ List.mem_cons_self 0
  revert hlast
  decide +kernel

end LsqXlateState

end OpenRV64
