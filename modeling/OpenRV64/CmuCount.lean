/-
What the counters of the counter block have counted after any number of cycles: a selected
event is added two cycles after its pulse, and the dead window that a selector write opens
covers the pulses still on their way.
-/
import OpenRV64.Cmu
import OpenRV64.SyncRun
import Mathlib.Algebra.BigOperators.Intervals

namespace Accumulator

variable {w : ℕ} {value data : ℕ → BitVec w} {written : ℕ → Bool} {amount : ℕ → ℕ}

/-- A register that holds what was written last, or zero, and what the cycles since have
added. -/
structure Accumulates (value data : ℕ → BitVec w) (written : ℕ → Bool) (amount : ℕ → ℕ) :
    Prop where
  sinceReset : ∀ n, (∀ t < n, ¬ written t) →
    value n = BitVec.ofNat w (∑ t ∈ Finset.range n, amount t)
  sinceWrite : ∀ m n, m < n → written m → (∀ t, m < t → t < n → ¬ written t) →
    value n = data m + BitVec.ofNat w (∑ t ∈ Finset.Ico (m + 1) n, amount t)

variable
  (hstep : ∀ n, value (n + 1) = if written n then data n else value n + BitVec.ofNat w (amount n))

include hstep

theorem gained {m n : ℕ} (hmn : m ≤ n) (hno : ∀ t, m ≤ t → t < n → ¬ written t) :
    value n = value m + BitVec.ofNat w (∑ t ∈ Finset.Ico m n, amount t) := by
  induction n, hmn using Nat.le_induction with
  | base =>
    rw [Finset.Ico_self, Finset.sum_empty]
    exact (BitVec.add_zero _).symm
  | succ n hmn ih =>
    rw [hstep, if_neg (hno n hmn n.lt_succ_self), Finset.sum_Ico_succ_top hmn, BitVec.ofNat_add,
      ih fun t hm hn => hno t hm (hn.trans n.lt_succ_self), BitVec.add_assoc]

theorem accumulates (hreset : value 0 = 0) : Accumulates value data written amount where
  sinceReset n hno := by
    rw [gained hstep n.zero_le fun t _ hn => hno t hn, hreset, Finset.range_eq_Ico]
    exact BitVec.zero_add _
  sinceWrite m n hmn hm hno := by
    rw [gained hstep (Nat.succ_le_of_lt hmn) fun t ht hn => hno t ht hn, hstep, if_pos hm]

end Accumulator

namespace OpenRV64

open Accumulator Sync
open BitVec (and_zero ofNat_toNat ofBool ofNat)
open CmuParams (hpmEventMask)

namespace CmuState

variable {p : CmuParams} (s : CmuState p) (i : CmuInput) (k : Fin p.hpmCounters)

/-- The number of events in a vector of pulses. -/
def eventsIn (events : BitVec cmuEventCount) : ℕ := (List.range cmuEventCount).countP events.getLsbD

theorem foldl_count (f : ℕ → Bool) (l : List ℕ) {n : BitVec 6} (hfit : n.toNat + l.length < 64) :
    (l.foldl (fun n e => n + (ofBool (f e)).setWidth 6) n).toNat = n.toNat + l.countP f := by
  induction l generalizing n with
  | nil => rfl
  | cons e l ih =>
    rw [List.length_cons] at hfit
    have hone : (n + (ofBool (f e)).setWidth 6).toNat = n.toNat + (f e).toNat := by
      have hbit := (f e).toNat_le
      simp only [BitVec.toNat_add, BitVec.toNat_setWidth, BitVec.toNat_ofBool]
      omega
    have hbit := (f e).toNat_le
    rw [List.foldl_cons, ih (by omega), hone, List.countP_cons, Nat.add_assoc]
    cases f e <;> simp [Nat.add_comm]

/-- The increment is wide enough for all events at once. -/
theorem countEvents_toNat (events : BitVec cmuEventCount) :
    (countEvents events).toNat = eventsIn events := by
  rw [countEvents, foldl_count events.getLsbD _ (by decide)]
  exact Nat.zero_add _

/-- The addresses of the other registers are no addresses of counters or selectors. -/
theorem not_system {i : CmuInput} (h : i.csrIsMhpmcounter ∨ i.csrIsMhpmevent) :
    (i.csrAddrI == csrScounteren) = false ∧ (i.csrAddrI == csrMcounteren) = false ∧
      (i.csrAddrI == csrMcountinhibit) = false ∧ (i.csrAddrI == csrMcycle) = false ∧
        (i.csrAddrI == csrMinstret) = false := by
  rw [CmuInput.csrIsMhpmcounter, CmuInput.csrIsMhpmevent] at h
  refine ⟨?_, ?_, ?_, ?_, ?_⟩
  all_goals
    rw [beq_eq_false_iff_ne]
    intro ha
    rw [ha] at h
    revert h
    decide

/-- No address is that of a counter and of a selector. -/
theorem counter_not_event {i : CmuInput} (h : i.csrIsMhpmcounter) : i.csrIsMhpmevent = false := by
  simp only [CmuInput.csrIsMhpmcounter, CmuInput.csrIsMhpmevent, Bool.and_eq_true,
    decide_eq_true_eq, Bool.and_eq_false_iff, decide_eq_false_iff_not] at h ⊢
  exact .inr fun hevent => absurd (BitVec.le_trans h.1 hevent) (by decide)

/-- What the accepted write does not reach is left to the counters. -/
theorem step_kept {α : Type*} (f : CmuState p → α) (h : ∀ next, f (written i next) = f next) :
    f (s.step i) = f (s.counted i) := by
  rw [step]
  split
  · exact h _
  · rfl

/-- What it does reach takes the value written. -/
theorem step_written {α : Type*} (f : CmuState p → α) {c : Bool} {v : α}
    (h : ∀ next, f (written i next) = if c then v else f next) :
    f (s.step i) = if s.csrWriteAccept i && c then v else f (s.counted i) := by
  rw [step]
  cases s.csrWriteAccept i with
  | false => rfl
  | true => exact h _

theorem written_flow (next : CmuState p) :
    (written i next).hpmSelectorDeadQ = next.hpmSelectorDeadQ ∧
      (written i next).eventCaptureQ = next.eventCaptureQ ∧
        (written i next).eventPulsesQ = next.eventPulsesQ := by
  rw [written]
  repeat' split
  all_goals exact ⟨rfl, rfl, rfl⟩

theorem step_dead : (s.step i).hpmSelectorDeadQ k =
    if s.selectorWrite i k then 3
    else if s.counterWrite i k then 0
    else if s.hpmSelectorDeadQ k != 0 then s.hpmSelectorDeadQ k - 1 else s.hpmSelectorDeadQ k :=
  congrFun (s.step_kept i hpmSelectorDeadQ fun next => (written_flow i next).1) k

theorem step_eventCaptureQ : (s.step i).eventCaptureQ = i.eventPulsesI :=
  s.step_kept i eventCaptureQ fun next => (written_flow i next).2.1

theorem step_eventPulsesQ : (s.step i).eventPulsesQ = s.eventCaptureQ :=
  s.step_kept i eventPulsesQ fun next => (written_flow i next).2.2

theorem written_hpm (next : CmuState p) : ((written i next).mhpmcounterQ k =
      if i.csrIsMhpmcounter && (i.csrHpmImplemented p && i.csrHpmIndex.toNat == k.val) then
        i.csrWdataI
      else next.mhpmcounterQ k) ∧ (written i next).mhpmeventQ k =
      if i.csrIsMhpmevent && (i.csrHpmImplemented p && i.csrHpmIndex.toNat == k.val) then
        i.csrWdataI &&& hpmEventMask
      else next.mhpmeventQ k := by
  cases hc : i.csrIsMhpmcounter with
  | true =>
    simp only [written, not_system (.inl hc), counter_not_event hc, hc, if_low, Bool.true_and,
      Bool.false_and]
    cases i.csrHpmImplemented p <;> simp
  | false =>
  cases he : i.csrIsMhpmevent with
  | true =>
    simp only [written, not_system (.inr he), hc, he, if_low, Bool.true_and, Bool.false_and]
    cases i.csrHpmImplemented p <;> simp
  | false =>
    simp only [written, hc, he, Bool.false_and, if_low]
    repeat' split
    all_goals exact ⟨rfl, rfl⟩

theorem written_minstretQ (next : CmuState p) : (written i next).minstretQ =
    if i.csrAddrI == csrMinstret then i.csrWdataI else next.minstretQ := by
  cases hm : i.csrAddrI == csrMinstret with
  | true =>
    rw [written, eq_of_beq hm]
    rfl
  | false =>
    simp only [written, hm, if_low]
    repeat' split
    all_goals rfl

/-- A write of the counter sets it; any other cycle leaves it to the count. -/
theorem step_mhpmcounterQ : (s.step i).mhpmcounterQ k =
    if s.counterWrite i k then i.csrWdataI else (s.counted i).mhpmcounterQ k := by
  rw [counterWrite, Bool.and_assoc, Bool.and_assoc]
  exact s.step_written i (fun t => t.mhpmcounterQ k) fun next => (written_hpm i k next).1

theorem step_mhpmeventQ : (s.step i).mhpmeventQ k =
    if s.selectorWrite i k then i.csrWdataI &&& hpmEventMask else s.mhpmeventQ k := by
  rw [selectorWrite, Bool.and_assoc, Bool.and_assoc]
  exact s.step_written i (fun t => t.mhpmeventQ k) fun next => (written_hpm i k next).2

/-- The write in progress names the instruction counter. -/
def minstretWrite : Bool := s.csrWriteAccept i && i.csrAddrI == csrMinstret

theorem step_minstretQ : (s.step i).minstretQ =
    if s.minstretWrite i then i.csrWdataI else (s.counted i).minstretQ :=
  s.step_written i minstretQ (written_minstretQ i)

/-- Whether counter `k` may count: neither it nor its selector is being written, the dead
window of its selector is over, and it is not inhibited. -/
def counting : Bool :=
  !(s.selectorWrite i k || s.counterWrite i k || s.hpmSelectorDeadQ k != 0) &&
    !s.mcountinhibitQ.getLsbD (k.val + 3)

theorem counted_mhpmcounterQ : (s.counted i).mhpmcounterQ k =
    if s.counting i k then s.mhpmcounterQ k + (s.hpmIncrement k).setWidth 64
    else s.mhpmcounterQ k := by
  rw [counting]
  simp only [counted]
  by_cases hoff : s.selectorWrite i k || s.counterWrite i k || s.hpmSelectorDeadQ k != 0
  · rw [if_pos hoff, hoff]
    rfl
  rw [if_neg hoff, Bool.eq_false_iff.2 hoff]
  cases s.mcountinhibitQ.getLsbD (k.val + 3) with
  | true => rfl
  | false =>
  by_cases hz : s.hpmIncrement k = 0
  · rw [hz]
    exact (BitVec.add_zero _).symm
  · rw [bne_iff_ne.2 hz]
    rfl

end CmuState

def cmuCircuit (p : CmuParams) : Circuit (CmuState p) CmuInput where
  Init s := s = CmuState.reset
  step := CmuState.step

namespace CmuCount

variable {p : CmuParams} {env env' : Past (CmuState p) CmuInput → CmuState p → CmuInput → Prop}
  (b : Behaviour (cmuCircuit p) env) (k : Fin p.hpmCounters)

def counterWritten (n : ℕ) : Bool := (b.state n).counterWrite (b.input n) k

def selectorWritten (n : ℕ) : Bool := (b.state n).selectorWrite (b.input n) k

def minstretWritten (n : ℕ) : Bool := (b.state n).minstretWrite (b.input n)

/-- The events that pulsed two cycles before; the cycle event pulses in every one. -/
def pulsedBefore : ℕ → BitVec cmuEventCount
  | 0 | 1 => 0
  | n + 2 => (b.input n).eventPulsesI ||| 1

/-- How many events a cycle adds to a counter. -/
def credited (n : ℕ) : ℕ :=
  if (b.state n).counting (b.input n) k then
    CmuState.eventsIn (pulsedBefore b n &&& ((b.state n).mhpmeventQ k).setWidth cmuEventCount)
  else 0

/-- How many instructions a cycle adds to the instruction counter. -/
def retired (n : ℕ) : ℕ :=
  if (b.state n).mcountinhibitQ.getLsbD 2 then 0 else (b.input n).retireCountI.toNat

theorem state_succ (n : ℕ) : b.state (n + 1) = (b.state n).step (b.input n) := b.next n

theorem selector_next (n : ℕ) : (b.state (n + 1)).mhpmeventQ k =
    if selectorWritten b k n then (b.input n).csrWdataI &&& hpmEventMask
    else (b.state n).mhpmeventQ k := by
  rw [state_succ, CmuState.step_mhpmeventQ]
  rfl

theorem dead_next (n : ℕ) : (b.state (n + 1)).hpmSelectorDeadQ k =
    if selectorWritten b k n then 3
    else if counterWritten b k n then 0
    else if (b.state n).hpmSelectorDeadQ k != 0 then (b.state n).hpmSelectorDeadQ k - 1
    else (b.state n).hpmSelectorDeadQ k := by
  rw [state_succ, CmuState.step_dead]
  rfl

theorem eventPulses_later (n : ℕ) : (b.state (n + 2)).eventPulsesQ = (b.input n).eventPulsesI := by
  rw [state_succ, CmuState.step_eventPulsesQ, state_succ, CmuState.step_eventCaptureQ]

theorem state_zero : b.state 0 = CmuState.reset := b.init

/-- Nothing is selected before an event can have come through. -/
theorem selector_early {n : ℕ} (hn : n < 2) (hcounting : (b.state n).counting (b.input n) k) :
    (b.state n).mhpmeventQ k = 0#64 := by
  have hz : (b.state 0).mhpmeventQ k = 0#64 := by
    rw [state_zero]
    rfl
  obtain rfl | rfl : n = 0 ∨ n = 1 := by omega
  · exact hz
  cases hw : selectorWritten b k 0 with
  | false => rw [selector_next, hw, if_low, hz]
  | true =>
    have hdead := dead_next b k 0
    rw [hw, if_pos rfl] at hdead
    simp [CmuState.counting, hdead] at hcounting

theorem counter_next (n : ℕ) : (b.state (n + 1)).mhpmcounterQ k =
    if counterWritten b k n then (b.input n).csrWdataI
    else (b.state n).mhpmcounterQ k + ofNat 64 (credited b k n) := by
  rw [state_succ, CmuState.step_mhpmcounterQ, CmuState.counted_mhpmcounterQ, credited]
  refine if_congr Iff.rfl rfl ?_
  cases hcounting : (b.state n).counting (b.input n) k with
  | false => exact (BitVec.add_zero _).symm
  | true =>
    rw [if_pos rfl, if_pos rfl, ← ofNat_toNat, CmuState.hpmIncrement,
      CmuState.countEvents_toNat, CmuState.activeEventPulses]
    rcases n with _ | _ | n
    · rw [selector_early b k (by decide) hcounting, BitVec.setWidth_zero, and_zero, and_zero]
    · rw [selector_early b k (by decide) hcounting, BitVec.setWidth_zero, and_zero, and_zero]
    · rw [eventPulses_later, pulsedBefore]

theorem minstret_next (n : ℕ) : (b.state (n + 1)).minstretQ =
    if minstretWritten b n then (b.input n).csrWdataI
    else (b.state n).minstretQ + ofNat 64 (retired b n) := by
  rw [state_succ, CmuState.step_minstretQ, retired]
  refine if_congr Iff.rfl rfl ?_
  simp only [CmuState.counted]
  cases (b.state n).mcountinhibitQ.getLsbD 2 with
  | true =>
    rw [Bool.not_true, Bool.and_false, if_low, if_pos rfl]
    exact (BitVec.add_zero _).symm
  | false =>
  by_cases hz : (b.input n).retireCountI = 0
  · rw [hz]
    exact (BitVec.add_zero _).symm
  · rw [bne_iff_ne.2 hz, if_low, ofNat_toNat]
    rfl

/-- A dead count comes from a selector write of at most three cycles ago. -/
theorem dead_opened {n : ℕ} (hdead : (b.state n).hpmSelectorDeadQ k ≠ 0) :
    ∃ m, m + 4 = n + ((b.state n).hpmSelectorDeadQ k).toNat ∧ selectorWritten b k m ∧
      ∀ t, m < t → t < n → ¬ counterWritten b k t := by
  induction n with
  | zero =>
    rw [state_zero] at hdead
    exact absurd rfl hdead
  | succ n ih =>
    rw [dead_next] at hdead ⊢
    cases hsel : selectorWritten b k n with
    | true => exact ⟨n, rfl, hsel, fun t ht hn => absurd hn (Nat.not_lt_of_le ht)⟩
    | false =>
    cases hctr : counterWritten b k n with
    | true => simp [hsel, hctr] at hdead
    | false =>
      have hold : (b.state n).hpmSelectorDeadQ k ≠ 0 := by
        intro hz
        simp [hsel, hctr, hz] at hdead
      obtain ⟨m, hm, hwritten, hno⟩ := ih hold
      have hless : ∀ d : BitVec 2, d ≠ 0 → (d - 1).toNat + 1 = d.toNat := by decide
      refine ⟨m, ?_, hwritten, fun t ht hn => ?_⟩
      · have := hless _ hold
        rw [if_low, if_low, if_pos (bne_iff_ne.2 hold)]
        omega
      · rcases (Nat.le_of_lt_succ hn).lt_or_eq with hlt | rfl
        · exact hno t ht hlt
        · exact Bool.eq_false_iff.1 hctr

/-- It stays up for three cycles unless the counter is written. -/
theorem dead_kept {m n : ℕ} (hmn : m < n) (hsel : selectorWritten b k m)
    (hno : ∀ t, m < t → t < n → ¬ counterWritten b k t) :
    m + 4 ≤ n + ((b.state n).hpmSelectorDeadQ k).toNat := by
  induction n, hmn using Nat.le_induction with
  | base =>
    rw [dead_next, if_pos hsel]
    exact le_refl _
  | succ n hmn ih =>
    have ih := ih fun t ht hn => hno t ht (hn.trans n.lt_succ_self)
    rw [dead_next, if_neg (hno n hmn n.lt_succ_self)]
    have hless : ∀ d : BitVec 2, d.toNat ≤ (if d != 0 then d - 1 else d).toNat + 1 := by decide
    have := hless ((b.state n).hpmSelectorDeadQ k)
    split
    · exact Nat.add_le_add_right (hmn.trans n.le_succ) 3
    · omega

/-- Two runs do the same for a counter: the same events and inhibit bits, and the same
writes of it and of its selector. -/
structure Alike (b : Behaviour (cmuCircuit p) env) (b' : Behaviour (cmuCircuit p) env')
    (k : Fin p.hpmCounters) : Prop where
  events : ∀ n, (b.input n).eventPulsesI = (b'.input n).eventPulsesI
  inhibit : ∀ n, (b.state n).mcountinhibitQ.getLsbD (k.val + 3) =
    (b'.state n).mcountinhibitQ.getLsbD (k.val + 3)
  counter : counterWritten b k = counterWritten b' k
  selector : selectorWritten b k = selectorWritten b' k
  data : ∀ n, counterWritten b k n ∨ selectorWritten b k n →
    (b.input n).csrWdataI = (b'.input n).csrWdataI

/-- What the counters of a run have counted. -/
structure CountsExact (b : Behaviour (cmuCircuit p) env) : Prop where
  counter : ∀ k, Accumulates (fun n => (b.state n).mhpmcounterQ k)
    (fun n => (b.input n).csrWdataI) (counterWritten b k) (credited b k)
  selector : ∀ k, Accumulates (fun n => (b.state n).mhpmeventQ k)
    (fun n => (b.input n).csrWdataI &&& CmuParams.hpmEventMask) (selectorWritten b k) fun _ => 0
  window : ∀ k n, (b.state n).hpmSelectorDeadQ k ≠ 0 ↔ ∃ m, m < n ∧ n ≤ m + 3 ∧
    selectorWritten b k m ∧ ∀ t, m < t → t < n → ¬ counterWritten b k t
  /-- No pulse of the cycle of a selector write, or of an earlier one, is counted after it. -/
  fresh : ∀ k m n, selectorWritten b k m → m ≤ n → credited b k n ≠ 0 → m < n - 2
  apart : ∀ k {env' : Past (CmuState p) CmuInput → CmuState p → CmuInput → Prop}
    (b' : Behaviour (cmuCircuit p) env'), Alike b b' k →
      ∀ n, (b.state n).mhpmcounterQ k = (b'.state n).mhpmcounterQ k
  minstret : Accumulates (fun n => (b.state n).minstretQ) (fun n => (b.input n).csrWdataI)
    (minstretWritten b) (retired b)
  instretRead : ∀ n, (b.state n).minstretReadValue (b.input n) =
    (b.state n).minstretQ + BitVec.ofNat 64 (retired b n)

/-- No counter is written in the cycle right after a write of its selector. -/
def Settled : Past (CmuState p) CmuInput → CmuState p → CmuInput → Prop :=
  fun past s i => ∀ e ∈ past.head?, ∀ k, e.1.selectorWrite e.2 k → ¬ s.counterWrite i k

theorem credited_counting {n : ℕ} (hne : credited b k n ≠ 0) :
    (b.state n).counting (b.input n) k := by
  rw [credited] at hne
  exact of_not_not fun h => hne (if_neg h)

theorem window (n : ℕ) : (b.state n).hpmSelectorDeadQ k ≠ 0 ↔ ∃ m < n, n ≤ m + 3 ∧
    selectorWritten b k m ∧ ∀ t, m < t → t < n → ¬ counterWritten b k t := by
  constructor
  · intro hdead
    obtain ⟨m, hm, hsel, hno⟩ := dead_opened b k hdead
    have hlt := ((b.state n).hpmSelectorDeadQ k).isLt
    have hpos : ((b.state n).hpmSelectorDeadQ k).toNat ≠ 0 := fun h =>
      hdead (BitVec.eq_of_toNat_eq h)
    exact ⟨m, by omega, by omega, hsel, hno⟩
  · rintro ⟨m, hmn, hlast, hsel, hno⟩ hz
    have hkept := dead_kept b k hmn hsel hno
    rw [hz] at hkept
    change m + 4 ≤ n at hkept
    omega

theorem fresh (b : Behaviour (cmuCircuit p) Settled) {k : Fin p.hpmCounters} {m n : ℕ}
    (hsel : selectorWritten b k m) (hmn : m ≤ n) (hne : credited b k n ≠ 0) : m < n - 2 := by
  have hcounting := credited_counting b k hne
  simp only [CmuState.counting, Bool.and_eq_true, Bool.not_eq_true', Bool.or_eq_false_iff,
    bne_eq_false_iff_eq] at hcounting
  obtain ⟨⟨⟨hnosel, -⟩, hdead⟩, -⟩ := hcounting
  have hmne : m ≠ n := by
    rintro rfl
    exact Bool.eq_false_iff.1 hnosel hsel
  by_contra hsoon
  -- The one cycle between the write and the count does not write the counter.
  refine (window b k n).2 ⟨m, by omega, by omega, hsel, fun t ht hn => ?_⟩ hdead
  obtain rfl : t = m + 1 := by omega
  exact b.promised (m + 1) _ rfl k hsel

theorem Alike.same {b : Behaviour (cmuCircuit p) env} {b' : Behaviour (cmuCircuit p) env'}
    {k : Fin p.hpmCounters} (h : Alike b b' k) (n : ℕ) :
    (b.state n).mhpmcounterQ k = (b'.state n).mhpmcounterQ k ∧
      (b.state n).mhpmeventQ k = (b'.state n).mhpmeventQ k ∧
        (b.state n).hpmSelectorDeadQ k = (b'.state n).hpmSelectorDeadQ k := by
  have hpulsed : ∀ n, pulsedBefore b n = pulsedBefore b' n := by
    rintro (_ | _ | n)
    · rfl
    · rfl
    · rw [pulsedBefore, pulsedBefore, h.events]
  induction n with
  | zero =>
    rw [state_zero, state_zero]
    exact ⟨rfl, rfl, rfl⟩
  | succ n ih =>
    obtain ⟨hcounter, hselector, hdead⟩ := ih
    have hcounting : (b.state n).counting (b.input n) k = (b'.state n).counting (b'.input n) k := by
      rw [CmuState.counting, CmuState.counting, hdead, h.inhibit]
      exact congrArg₂ (fun c s : Bool => !(s || c || _) && _) (congrFun h.counter n)
        (congrFun h.selector n)
    have hcredited : credited b k n = credited b' k n := by
      rw [credited, credited, hcounting, hpulsed, hselector]
    rw [counter_next, counter_next, selector_next, selector_next, dead_next, dead_next,
      ← h.counter, ← h.selector, hcounter, hselector, hdead, hcredited]
    refine ⟨ite_congr rfl (fun hw => h.data n (.inl hw)) fun _ => rfl,
      ite_congr rfl (fun hw => ?_) fun _ => rfl, rfl⟩
    rw [h.data n (.inr hw)]

theorem instretRead (n : ℕ) : (b.state n).minstretReadValue (b.input n) =
    (b.state n).minstretQ + ofNat 64 (retired b n) := by
  rw [CmuState.minstretReadValue, retired]
  cases (b.state n).mcountinhibitQ.getLsbD 2 with
  | true => rfl
  | false => rw [if_low, if_low, ofNat_toNat]

/-- The counters count exactly their selected events in every run in which no counter is
written in the cycle right after a write of its selector. -/
theorem counts_exact (b : Behaviour (cmuCircuit p) Settled) : CountsExact b where
  counter k := accumulates (counter_next b k) (by rw [state_zero]; rfl)
  selector k := accumulates
    (fun n => by rw [selector_next]; exact if_congr Iff.rfl rfl (BitVec.add_zero _).symm)
    (by rw [state_zero]; rfl)
  window k := window b k
  fresh _ _ _ hsel hmn hne := fresh b hsel hmn hne
  apart _ _ _ h n := (h.same n).1
  minstret := accumulates (minstret_next b) (by rw [state_zero]; rfl)
  instretRead := instretRead b

/-- Select event 1 while it pulses, then clear the counter. -/
def residueInputs : ℕ → CmuInput
  | 0 => ⟨csrMhpmevent3, true, 2, privM, 0, 2⟩
  | 1 => ⟨csrMhpmcounter3, true, 0, privM, 0, 0⟩
  | _ => ⟨0, false, 0, privM, 0, 0⟩

def residueRun : Behaviour (cmuCircuit ⟨1, Nat.le_add_left 1 28⟩) anyEnv :=
  .ofInputs residueInputs rfl fun _ => trivial

/-- The pulse of the cycle of the selector write is counted. -/
theorem residue_counted : selectorWritten residueRun ⟨0, Nat.one_pos⟩ 0 ∧
    (residueRun.state 3).mhpmcounterQ ⟨0, Nat.one_pos⟩ = 1 ∧ ¬ CountsExact residueRun := by
  have hsel : selectorWritten residueRun ⟨0, Nat.one_pos⟩ 0 = true := by decide
  refine ⟨hsel, by decide, fun h => ?_⟩
  exact absurd (h.fresh _ 0 2 hsel (Nat.zero_le 2) (by decide)) (by decide)

end CmuCount

end OpenRV64
