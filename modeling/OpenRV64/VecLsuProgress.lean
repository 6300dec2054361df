/-
Every command of the vector load/store unit ends: the work that is left before a slot is
next in turn goes down with each request, each slice read and each completion.
-/
import Mathlib.Algebra.BigOperators.Group.Finset.Piecewise
import Mathlib.Algebra.Order.BigOperators.Group.Finset
import OpenRV64.VecLsuExact

namespace OpenRV64

open VecLsuCycle VecLsuSlot VecLsuState
open Bool (of_not_eq_false and_eq_true not_eq_true' false_ne_true)
open Finset (mem_range range sum_lt_sum mem_filter sum_le_sum)

namespace VecLsuSlot

variable {p : VecLsuParams} (q : VecLsuSlot p)

/-- The beats that are still to be requested. -/
def unsent : Finset ℕ :=
  (Finset.range p.maxBeats).filter fun b => q.beatSent b = false ∧ q.beatDone b = false

/-- The slices that are still to be read from the register file. -/
def ungathered : ℕ := if q.gathering then p.groupSlices q.lmul - q.gatherIndex else 0

def unnotified : ℕ := if q.notified then 0 else 1

/-- What a slot has left to do by itself. -/
def work : ℕ := if q.valid then q.unsent.card + q.ungathered + q.unnotified else 0

end VecLsuSlot

namespace VecLsuState

variable {p : VecLsuParams} (s : VecLsuState p)

/-- The slots that get a command before slot `k` is next in turn. -/
def ahead (k : ℕ) : ℕ :=
  if s.allocateTailQ ≤ k then k - s.allocateTailQ else p.queueDepth - s.allocateTailQ + k

/-- What the slots have to do while slot `k` keeps its command. -/
def workBefore (k : ℕ) : ℕ :=
  ∑ j ∈ Finset.range p.queueDepth, (s.slot j).work + s.ahead k * (p.maxBeats + 8 * p.baseSlices + 2)

variable {s} {i : VecLsuInput p} {k : ℕ}

theorem work_promotes (hpromotes : s.promotes i k) :
    (s.slot k).work = 0 ∧ (s.slotNext i k).work ≤ p.maxBeats + 8 * p.baseSlices + 1 := by
  have hemp := (promotes_spec hpromotes).2.2.2.2
  refine ⟨by simp [work, hemp], ?_⟩
  have hunsent : (s.slotNext i k).unsent.card ≤ p.maxBeats :=
    (Finset.card_filter_le _ _).trans (Finset.card_range _).le
  have hgather : (s.slotNext i k).ungathered ≤ 8 * p.baseSlices := by
    rw [ungathered]
    split
    · rename_i hgath
      simp only [gathering, and_eq_true] at hgath
      obtain ⟨hval, -, -, hsup⟩ := working_iff.mp hgath.1.1
      have hlmul : (s.slotNext i k).lmul ≤ 3 := by
        have hpend : (s.slotNext i k).unsupported = s.pendingQ.unsupported ∧
            (s.slotNext i k).lmul = s.pendingQ.lmul := by
          simp [slotNext, hpromotes]
        rw [hpend.2]
        exact (VecLsuCommand.supported (hpend.1.symm.trans hsup)).2
      have hpow : 2 ^ (s.slotNext i k).lmul ≤ 2 ^ 3 := Nat.pow_le_pow_right (by decide) hlmul
      have hle := Nat.mul_le_mul_left p.baseSlices hpow
      rw [VecLsuParams.groupSlices]
      omega
    · omega
  have hnotify : (s.slotNext i k).unnotified ≤ 1 := by
    rw [unnotified]
    split <;> omega
  rw [work]
  split <;> omega

end VecLsuState

namespace VecLsuLedger

namespace Inv

variable {p : VecLsuParams} {t : VecLsuLedger p} {x : VecLsuCycle p} {k j b : ℕ} (h : t.Inv)
include h

omit h in
/-- Where nothing is taken back, no beat is. -/
theorem kept_beat (hretry : t.core.responseUse x.port → x.port.memRespRetryI = false) (k b : ℕ) :
    (t.core.takes x.port k b && x.port.memRespRetryI) = false := by
  by_contra hno
  rw [Bool.not_eq_false, and_eq_true] at hno
  rw [hretry (takes_iff.mp hno.1).1] at hno
  cases hno.2

omit h in
theorem unsent_stays (hk : t.Stays x k)
    (hretry : t.core.responseUse x.port → x.port.memRespRetryI = false) :
    (t.core.slotNext x.port k).unsent ⊆ (t.core.slot k).unsent := by
  intro b hb
  simp only [unsent, mem_filter] at hb ⊢
  obtain ⟨hlt, hsent, hleft⟩ := hb
  rw [beatSent_next hk.valid, kept_beat hretry, Bool.false_and, Bool.not_false,
    Bool.true_and, Bool.or_eq_false_iff] at hsent
  refine ⟨hlt, hsent.2, ?_⟩
  by_contra hdone
  rw [beatDone_mono hk.valid (of_not_eq_false hdone)] at hleft
  cases hleft

omit h in
theorem unsent_sends (hk : t.Stays x k)
    (hretry : t.core.responseUse x.port → x.port.memRespRetryI = false)
    (hsends : t.core.sends x.port k b) :
    (t.core.slotNext x.port k).unsent.card < (t.core.slot k).unsent.card := by
  apply Finset.card_lt_card
  refine ⟨unsent_stays hk hretry, fun hall => ?_⟩
  obtain ⟨-, hb, hreq⟩ := sends_spec hsends
  obtain ⟨-, hsent, hleft, -⟩ := requestable_spec hreq
  have hmem : b ∈ (t.core.slot k).unsent := by
    simp [unsent, hb, hsent, hleft]
  have hnot := hall hmem
  simp only [unsent, mem_filter] at hnot
  rw [beatSent_next hk.valid, kept_beat hretry, hsends] at hnot
  simp at hnot

theorem ungathered_stays (hk : t.Stays x k) :
    (t.core.slotNext x.port k).ungathered ≤ (t.core.slot k).ungathered ∧ (t.core.gathers x.port k →
        (t.core.slotNext x.port k).ungathered < (t.core.slot k).ungathered) := by
  have hprom := not_promotes (i := x.port) hk.valid
  have hlmul := (slotNext_kept (i := x.port) hk.valid).2.2.2.2.1
  have hop := (slotNext_kept (i := x.port) hk.valid).2.1
  -- a slot that reads on did so before
  have hwas : (t.core.slotNext x.port k).gathering → (t.core.slot k).gathering := by
    intro hgath
    simp only [gathering, and_eq_true, not_eq_true'] at hgath ⊢
    obtain ⟨⟨hwork, hstr⟩, hmore⟩ := hgath
    refine ⟨⟨(hk.working hwork).1, hop ▸ hstr⟩, ?_⟩
    by_contra hdone
    simp [slotNext, hprom, of_not_eq_false hdone] at hmore
  simp only [ungathered, hlmul]
  cases hgathers : t.core.gathers x.port k with
  | false =>
    have hidx : (t.core.slotNext x.port k).gatherIndex = (t.core.slot k).gatherIndex := by
      simp [slotNext, hgathers, hprom]
    rw [hidx]
    refine ⟨?_, fun hno => absurd_low hno⟩
    cases hgath : (t.core.slotNext x.port k).gathering with
    | false => simp
    | true => simp [hwas hgath]
  | true =>
    obtain ⟨-, hgath, hslot, -⟩ := gathers_spec hgathers
    have hparts := hgath
    simp only [gathering, and_eq_true, not_eq_true',
      VecLsuOp.beq_eq_decide, decide_eq_true_eq] at hparts
    have hlt := ((h.recorded k hk.lt hk.valid).gathered hparts.1.1 hparts.1.2).2 hparts.2
    rw [hgath, if_pos rfl]
    have hless : (if (t.core.slotNext x.port k).gathering then
        p.groupSlices (t.core.slot k).lmul - (t.core.slotNext x.port k).gatherIndex else 0) <
        p.groupSlices (t.core.slot k).lmul - (t.core.slot k).gatherIndex := by
      cases hmore : (t.core.slotNext x.port k).gathering with
      | false =>
        rw [if_low]
        omega
      | true =>
        have hnot : t.core.gatherLast = false := by
          by_contra hlast
          simp only [gathering, and_eq_true, not_eq_true'] at hmore
          simp [slotNext, hgathers, of_not_eq_false hlast] at hmore
        have hidx : (t.core.slotNext x.port k).gatherIndex = (t.core.slot k).gatherIndex + 1 := by
          simp [slotNext, hgathers, hnot]
        rw [if_pos rfl, hidx]
        omega
    exact ⟨hless.le, fun _ => hless⟩

omit h in
theorem unnotified_stays (hk : t.Stays x k) :
    (t.core.slotNext x.port k).unnotified ≤ (t.core.slot k).unnotified ∧ (t.core.notifies x.port k →
        (t.core.slotNext x.port k).unnotified < (t.core.slot k).unnotified) := by
  have hprom := not_promotes (i := x.port) hk.valid
  have hnxt : (t.core.slotNext x.port k).notified =
      (t.core.kills x.port k || t.core.notifies x.port k || (t.core.slot k).notified) := by
    cases hkill : t.core.kills x.port k <;> cases hnotifies : t.core.notifies x.port k <;>
      simp [slotNext, hk.commit, hprom, hkill, hnotifies]
  simp only [unnotified, hnxt]
  refine ⟨?_, fun hnotifies => ?_⟩
  · cases (t.core.slot k).notified <;> simp
    split <;> omega
  · have hcompleting := (notifies_spec hnotifies).2
    simp only [completing, and_eq_true, not_eq_true'] at hcompleting
    simp [hnotifies, hcompleting.1.2]

/-- Where nothing is taken back, a slot that holds its command on gets nothing new to do, and
less with what it does. -/
theorem work_stays (hk : t.Stays x k)
    (hretry : t.core.responseUse x.port → x.port.memRespRetryI = false) :
    (t.core.slotNext x.port k).work ≤ (t.core.slot k).work ∧
      ((∃ b, t.core.sends x.port k b) ∨ t.core.gathers x.port k ∨ t.core.notifies x.port k →
          (t.core.slotNext x.port k).work < (t.core.slot k).work) := by
  have hval : (t.core.slotNext x.port k).valid := by
    simp [slotNext, hk.commit, hk.drain, hk.valid]
  have hgather := h.ungathered_stays hk
  have hnotify := unnotified_stays hk
  have hcard := Finset.card_le_card (unsent_stays hk hretry)
  have hwork : (t.core.slotNext x.port k).work = (t.core.slotNext x.port k).unsent.card +
      (t.core.slotNext x.port k).ungathered + (t.core.slotNext x.port k).unnotified := by
    rw [work, hval, if_pos rfl]
  have hwork' : (t.core.slot k).work = (t.core.slot k).unsent.card +
      (t.core.slot k).ungathered + (t.core.slot k).unnotified := by
    rw [work, hk.valid, if_pos rfl]
  rw [hwork, hwork']
  refine ⟨by omega, ?_⟩
  rintro (⟨b, hsends⟩ | hgathers | hnotifies)
  · have := unsent_sends hk hretry hsends
    omega
  · have := hgather.2 hgathers
    omega
  · have := hnotify.2 hnotifies
    omega

/-- A slot that does not get a command has no more to do than before. -/
theorem work_le (hj : j < p.queueDepth) (hpromotes : t.core.promotes x.port j = false)
    (hretry : t.core.responseUse x.port → x.port.memRespRetryI = false) :
    (t.core.slotNext x.port j).work ≤ (t.core.slot j).work := by
  cases hval : (t.core.slotNext x.port j).valid with
  | false => simp [work, hval]
  | true =>
  rcases valid_next_cases hval with hno | ⟨hold, hcom, hdr⟩
  · rw [hpromotes] at hno
    cases hno
  · exact (h.work_stays ⟨hj, hold, hcom, hdr⟩ hretry).1

/-- A slot that does something has less to do afterwards. -/
theorem work_lt (hk : k < p.queueDepth)
    (hretry : t.core.responseUse x.port → x.port.memRespRetryI = false)
    (hdoes : (∃ b, t.core.sends x.port k b) ∨ t.core.gathers x.port k ∨ t.core.notifies x.port k) :
    (t.core.slotNext x.port k).work < (t.core.slot k).work := by
  have hold : (t.core.slot k).valid := by
    by_contra hemp
    obtain ⟨hsends, -, -, hgathers, -, -, -, hnotifies, -⟩ :=
      empty_quiet (i := x.port) (Bool.eq_false_of_not_eq_true hemp)
    simp [hsends, hgathers, hnotifies] at hdoes
  cases hval : (t.core.slotNext x.port k).valid with
  | false =>
    -- a slot that is given back had nothing left of its beats, and was notified of or killed
    have hpos : 0 < (t.core.slot k).work := by
      rcases hdoes with ⟨b, hsends⟩ | hgathers | hnotifies
      · obtain ⟨-, hb, hreq⟩ := sends_spec hsends
        obtain ⟨-, hsent, hleft, -⟩ := requestable_spec hreq
        have hmem : b ∈ (t.core.slot k).unsent := by
          simp [unsent, hb, hsent, hleft]
        have := Finset.card_pos.mpr ⟨b, hmem⟩
        rw [work, hold, if_pos rfl]
        omega
      · have hgath := (gathers_spec hgathers).2.1
        have hparts := hgath
        simp only [gathering, and_eq_true, not_eq_true',
          VecLsuOp.beq_eq_decide, decide_eq_true_eq] at hparts
        have := ((h.recorded k hk hold).gathered hparts.1.1 hparts.1.2).2 hparts.2
        rw [work, hold, if_pos rfl, ungathered, hgath, if_pos rfl]
        omega
      · have hcompleting := (notifies_spec hnotifies).2
        simp only [completing, and_eq_true, not_eq_true'] at hcompleting
        simp [work, hold, unnotified, hcompleting.1.2]
    rw [work, hval, if_low]
    exact hpos
  | true =>
  rcases valid_next_cases hval with hno | ⟨-, hcom, hdr⟩
  · rw [not_promotes hold] at hno
    cases hno
  · exact (h.work_stays ⟨hk, hold, hcom, hdr⟩ hretry).2 hdoes

/-- While slot `k` keeps its command there is less and less to do before it is next in turn. -/
theorem workBefore_step (hk : k < p.queueDepth) (hval : (t.core.slot k).valid)
    (hretry : t.core.responseUse x.port → x.port.memRespRetryI = false) :
    (t.core.step x.port).workBefore k ≤ t.core.workBefore k ∧
      ((t.core.memReqFire x.port ∨ t.core.rfReadFire x.port ∨ t.core.completeFire x.port) →
          (t.core.step x.port).workBefore k < t.core.workBefore k) := by
  cases hprom : t.core.pendingPromote x.port with
  | true =>
    have hpromotes : t.core.promotes x.port t.core.allocateTailQ := by
      simp [promotes, hprom]
    obtain ⟨hz, hmost⟩ := work_promotes hpromotes
    have hne : t.core.allocateTailQ ≠ k := by
      intro heq
      have hemp := (promotes_spec hpromotes).2.2.2.2
      rw [heq, hval] at hemp
      cases hemp
    have htail := h.held.tail
    have hahead : (t.core.step x.port).ahead k + 1 = t.core.ahead k := by
      have hnxt : (t.core.step x.port).allocateTailQ =
          if t.core.allocateTailQ = p.queueDepth - 1 then 0 else t.core.allocateTailQ + 1 := by
        show t.core.allocateTailNext x.port = _
        rw [allocateTailNext, hprom, if_pos rfl]
      rw [ahead, ahead, hnxt]
      split_ifs <;> omega
    have hsum : ∑ j ∈ range p.queueDepth, ((t.core.step x.port).slot j).work ≤
        ∑ j ∈ range p.queueDepth, ((t.core.slot j).work +
          if j = t.core.allocateTailQ then p.maxBeats + 8 * p.baseSlices + 1 else 0) := by
      apply sum_le_sum
      intro j hj
      by_cases heq : j = t.core.allocateTailQ
      · subst heq
        rw [if_pos rfl, hz, Nat.zero_add]
        exact hmost
      · rw [if_neg heq]
        apply h.work_le (mem_range.mp hj) _ hretry
        rw [promotes, hprom, Bool.true_and]
        exact beq_eq_false_iff_ne.mpr (Ne.symm heq)
    rw [Finset.sum_add_distrib, Finset.sum_ite_eq', if_pos (mem_range.mpr htail)] at hsum
    have hless : (t.core.step x.port).workBefore k < t.core.workBefore k := by
      rw [workBefore, workBefore, ← hahead, Nat.succ_mul ((t.core.step x.port).ahead k)]
      omega
    exact ⟨hless.le, fun _ => hless⟩
  | false =>
    have hahead : (t.core.step x.port).ahead k = t.core.ahead k := by
      have hnxt : (t.core.step x.port).allocateTailQ = t.core.allocateTailQ := by
        show t.core.allocateTailNext x.port = _
        rw [allocateTailNext, hprom, if_low]
      rw [ahead, ahead, hnxt]
    have hle : ∀ j ∈ range p.queueDepth,
        ((t.core.step x.port).slot j).work ≤ (t.core.slot j).work := by
      intro j hj
      apply h.work_le (mem_range.mp hj) _ hretry
      rw [promotes, hprom, Bool.false_and]
    refine ⟨?_, ?_⟩
    · rw [workBefore, workBefore, hahead]
      exact Nat.add_le_add_right (sum_le_sum hle) _
    · intro hdoes
      rw [workBefore, workBefore, hahead]
      apply Nat.add_lt_add_right
      rcases hdoes with hfire | hfire | hfire
      · obtain ⟨hlt, -, -, hsends⟩ := memReqFire_spec hfire
        exact sum_lt_sum hle ⟨_, mem_range.mpr hlt, h.work_lt hlt hretry (.inl ⟨_, hsends⟩)⟩
      · have hgathers : t.core.gathers x.port t.core.gatherSlot := by
          simp [gathers, hfire]
        have hlt := (gathers_spec hgathers).1
        exact sum_lt_sum hle ⟨_, mem_range.mpr hlt, h.work_lt hlt hretry (.inr (.inl hgathers))⟩
      have hnotifies : t.core.notifies x.port t.core.completeSlot := by
        simp [notifies, hfire]
      have hlt := (notifies_spec hnotifies).1
      exact sum_lt_sum hle ⟨_, mem_range.mpr hlt, h.work_lt hlt hretry (.inr (.inr hnotifies))⟩

end Inv

end VecLsuLedger

namespace VecLsuState

variable {p : VecLsuParams} {s : VecLsuState p} {i : VecLsuInput p} {k b : ℕ}

/-- A beat that may be requested is, or another one before it. -/
theorem memReqFire_of_requestable (hk : k < p.queueDepth) (hb : b < p.maxBeats)
    (hreq : (s.slot k).requestable i b) (hrdy : i.memReqReadyI) : s.memReqFire i := by
  have hfnd : (s.requestScan i).isSome := by
    rw [requestScan, List.find?_isSome]
    exact ⟨(k, b), List.mem_product.mpr ⟨List.mem_range.mpr hk, List.mem_range.mpr hb⟩, hreq⟩
  simp [memReqFire, memReqValidO, hfnd, hrdy]

theorem rfReadFire_of_gathering (hk : k < p.queueDepth)
    (hgath : (s.slot k).gathering) (hrdy : i.rfReadReadyI) : s.rfReadFire i := by
  have hfnd : s.gatherScan.isSome := by
    rw [gatherScan, List.find?_isSome]
    exact ⟨k, List.mem_range.mpr hk, hgath⟩
  simp [rfReadFire, rfReadValidO, hfnd, hrdy]

theorem completeFire_of_completing (hk : k < p.queueDepth)
    (hcompleting : (s.slot k).completing) (hrdy : i.completeReadyI) : s.completeFire i := by
  have hfnd : s.completeScan.isSome := by
    rw [completeScan, List.find?_isSome]
    exact ⟨k, List.mem_range.mpr hk, hcompleting⟩
  simp [completeFire, completeValidO, hfnd, hrdy]

end VecLsuState

/-- An endless run of the unit in its surroundings. -/
abbrev VecLsuRun (p : VecLsuParams) : Type :=
  Sync.Behaviour (vecLsu p) (Sync.cycleEnv fun t x => t.Served x)

namespace VecLsuRun

variable {p : VecLsuParams} (r : VecLsuRun p)

/-- The surroundings let the unit go on: memory accepts requests again and again, answers
each of them, and has done with retries at some time; the register file and the completion
port are free again and again; and a live store becomes the ordered head. -/
structure Fair : Prop where
  ready : ∀ n, ∃ m ≥ n, (r.input m).port.memReqReadyI = true
  answers : ∀ n, ∀ q ∈ (r.state n).inFlight, ∃ m ≥ n, (r.state m).answered (r.input m) = some q
  retries : ∃ n, ∀ m ≥ n, (r.input m).port.memRespValidI = true →
    (r.input m).port.memRespRetryI = false
  reads : ∀ n, ∃ m ≥ n, (r.input m).port.rfReadReadyI = true
  completes : ∀ n, ∃ m ≥ n, (r.input m).port.completeReadyI = true
  heads : ∀ n, ∀ c ∈ (r.state n).live, ((r.state n).record c).command.op = .store →
    ∃ m ≥ n, (r.state m).isHead (r.input m) c = true ∨ c ∉ (r.state m).live

/-- The command in slot `k` has ended: it is gone, or nothing of it is left to do and its
completion has been given. -/
def Ended (k n : ℕ) : Prop :=
  ((r.state n).core.slot k).valid = false ∨
    (((r.state n).core.slot k).allDone = true ∧ ((r.state n).core.slot k).notified = true)

/-- From cycle `m` on slot `k` keeps its command, no request is taken back, and nothing is
requested, read or completed. -/
structure Stuck (k m : ℕ) : Prop where
  lt : k < p.queueDepth
  opened : ∀ j ≥ m, ¬ r.Ended k j
  retry : ∀ j ≥ m, (r.input j).port.memRespValidI = true → (r.input j).port.memRespRetryI = false
  request : ∀ j ≥ m, (r.state j).core.memReqFire (r.input j).port = false
  read : ∀ j ≥ m, (r.state j).core.rfReadFire (r.input j).port = false
  complete : ∀ j ≥ m, (r.state j).core.completeFire (r.input j).port = false

variable {r} (hclear : ∀ n, (r.state n).Clear (r.input n))
include hclear

theorem inv (n : ℕ) : (r.state n).Inv := by
  induction n with
  | zero => exact VecLsuLedger.inv_reset r.init
  | succ n ih =>
    rw [r.next n]
    exact ih.step (r.promised n) (hclear n)

omit hclear in
theorem slot_next (j k : ℕ) :
    (r.state (j + 1)).core.slot k = (r.state j).core.slotNext (r.input j).port k := by
  rw [r.next j]
  rfl

omit hclear in
/-- What each cycle from `m` on keeps is kept. -/
theorem lasts {P : ℕ → Prop} {m j j' : ℕ} (hstep : ∀ n ≥ m, P n → P (n + 1)) (hj : m ≤ j)
    (hle : j ≤ j') (hP : P j) : P j' := by
  induction j', hle using Nat.le_induction with
  | base => exact hP
  | succ n hn ih => exact hstep n (hj.trans hn) ih

namespace Stuck

variable {k m b j : ℕ} (h : r.Stuck k m)
include h

omit hclear in
theorem valid (hj : m ≤ j) : ((r.state j).core.slot k).valid := by
  by_contra hno
  exact h.opened j hj (.inl (Bool.eq_false_of_not_eq_true hno))

omit hclear in
theorem stays (hj : m ≤ j) : (r.state j).Stays (r.input j) k := by
  have hval := h.valid hj
  have hnxt := h.valid (j := j + 1) (Nat.le_succ_of_le hj)
  rw [slot_next] at hnxt
  rcases valid_next_cases hnxt with hpromotes | ⟨-, hcom, hdr⟩
  · rw [not_promotes hval] at hpromotes
    cases hpromotes
  · exact ⟨h.lt, hval, hcom, hdr⟩

omit hclear in
theorem done_lasts {j' : ℕ} (hj : m ≤ j) (hle : j ≤ j')
    (hdone : ((r.state j).core.slot k).beatDone b) : ((r.state j').core.slot k).beatDone b := by
  refine lasts (P := fun n => ((r.state n).core.slot k).beatDone b) ?_ hj hle hdone
  intro n hn hold
  rw [slot_next]
  exact beatDone_mono (h.valid hn) hold

omit hclear in
theorem owner_lasts {j' : ℕ} (hj : m ≤ j) (hle : j ≤ j') :
    (r.state j').owner k = (r.state j).owner k := by
  refine lasts (P := fun n => (r.state n).owner k = (r.state j).owner k) ?_ hj hle rfl
  intro n hn hold
  rw [r.next n]
  exact (h.stays hn).owner.trans hold

/-- A request that is out is answered, and its beat is done. -/
theorem done_of_sent (hfair : r.Fair) (hj : m ≤ j) (hb : b < p.maxBeats)
    (hsent : ((r.state j).core.slot k).beatSent b) :
    ∃ n ≥ m, ((r.state n).core.slot k).beatDone b := by
  cases hleft : ((r.state j).core.slot k).beatDone b with
  | true => exact ⟨j, hj, hleft⟩
  | false =>
    obtain ⟨q, hq, htag⟩ := (inv hclear j).flights.outstanding k h.lt (h.valid hj) b hb hsent hleft
    obtain ⟨n, hn, hans⟩ := hfair.answers j q hq
    obtain ⟨k', b', hfor, htake⟩ := (inv hclear n).flights.takes_of_answered (r.promised n) hans
    obtain ⟨rfl, rfl⟩ := p.tag_inj hb hfor.beat_lt (htag.symm.trans hfor.tag)
    refine ⟨n + 1, by omega, ?_⟩
    have hretry := h.retry n (by omega) (takes_spec htake).1
    rw [slot_next]
    simp [slotNext, htake, hretry]

/-- A beat that is not done for ever is never out, and its slot is worked on. -/
theorem waits (hfair : r.Fair) (hb : b < p.maxBeats)
    (hnever : ∀ n ≥ m, ((r.state n).core.slot k).beatDone b = false) (hj : m ≤ j) :
    ((r.state j).core.slot k).working ∧ ((r.state j).core.slot k).beatSent b = false := by
  have hunsent : ((r.state j).core.slot k).beatSent b = false := by
    by_contra hsent
    obtain ⟨n, hn, hdone⟩ := h.done_of_sent hclear hfair hj hb (of_not_eq_false hsent)
    rw [hnever n hn] at hdone
    cases hdone
  exact ⟨(((inv hclear j).recorded k h.lt (h.valid hj)).kept b hb (hnever j hj)).resolve_left
    (by simp [hunsent]), hunsent⟩

omit hclear in
/-- A store that is not read to the end would be read on. -/
theorem gatherDone (hfair : r.Fair) (hop : ∀ n ≥ m, ((r.state n).core.slot k).op = .store)
    (hwork : ∀ n ≥ m, ((r.state n).core.slot k).working) (hj : m ≤ j) :
    ((r.state j).core.slot k).gatherDone := by
  by_contra hno
  obtain ⟨n, hn, hrdy⟩ := hfair.reads j
  have hnot : ((r.state n).core.slot k).gatherDone = false := by
    refine lasts (P := fun n => ((r.state n).core.slot k).gatherDone = false) ?_ hj hn
      (Bool.eq_false_of_not_eq_true hno)
    intro i hi hold
    have hgathers : (r.state i).core.gathers (r.input i).port k = false := by
      rw [gathers, h.read i hi, Bool.false_and]
    rw [slot_next]
    simp [slotNext, hgathers, not_promotes (h.valid hi), hold]
  have hgath : ((r.state n).core.slot k).gathering := by
    simp [gathering, hwork n (by omega), hop n (by omega), hnot]
  have hfire := rfReadFire_of_gathering h.lt hgath hrdy
  rw [h.read n (by omega)] at hfire
  cases hfire

/-- A store that is worked on has been the ordered head at some time. -/
theorem ordered (hfair : r.Fair) (hop : ∀ n ≥ m, ((r.state n).core.slot k).op = .store)
    (hwork : ∀ n ≥ m, ((r.state n).core.slot k).working) :
    ∃ j ≥ m, ∀ n ≥ j, ((r.state n).core.slot k).ordered := by
  have halive : ∀ n ≥ m, (r.state n).owner k ∈ (r.state n).live := fun n hn =>
    (inv hclear n).held.live_slot h.lt (h.valid hn) (working_iff.mp (hwork n hn)).2.1
  have hholds := fun n hn => (inv hclear n).held.holds k h.lt (h.valid (j := n) hn)
  have hm := le_refl m
  obtain ⟨j, hj, hhead⟩ := hfair.heads m _ (halive m hm) ((hholds m hm).op.symm.trans (hop m hm))
  rw [← h.owner_lasts hm hj] at hhead
  have hishead := hhead.resolve_right fun hdead => hdead (halive j hj)
  refine ⟨j + 1, by omega, fun n hn => ?_⟩
  have hstep : ∀ i ≥ m, ((r.state i).core.slot k).ordered →
      ((r.state (i + 1)).core.slot k).ordered := by
    intro i hi hold
    rw [slot_next]
    simp [slotNext, (h.stays hi).commit, not_promotes (h.valid hi), hold]
  refine lasts (P := fun n => ((r.state n).core.slot k).ordered) hstep (j := j + 1) (by omega) hn ?_
  simp only [VecLsuLedger.isHead, and_eq_true, beq_iff_eq] at hishead
  have hat : ((r.state j).core.slot k).atHead (r.input j).port := by
    simp [atHead, hishead.1.1, (hholds j hj).tag, hishead.2]
  rw [slot_next]
  simp [slotNext, (h.stays hj).commit, h.valid hj, hop j hj, hat]

theorem done (hfair : r.Fair) (hb : b < p.maxBeats) :
    ∃ n ≥ m, ((r.state n).core.slot k).beatDone b := by
  by_contra hno
  have hnever : ∀ n ≥ m, ((r.state n).core.slot k).beatDone b = false := by
    intro n hn
    by_contra hdone
    exact hno ⟨n, hn, of_not_eq_false hdone⟩
  have hwaits := fun n hn => h.waits hclear hfair hb hnever (j := n) hn
  -- a beat that may be requested for ever is requested when memory is ready
  have hfires : ∀ j ≥ m, ¬ ∀ n ≥ j, ((r.state n).core.slot k).requestable (r.input n).port b := by
    intro j hj hreq
    obtain ⟨n, hn, hrdy⟩ := hfair.ready j
    have hfire := memReqFire_of_requestable h.lt hb (hreq n hn) hrdy
    rw [h.request n (by omega)] at hfire
    cases hfire
  have hholds := (inv hclear m).held.holds k h.lt (h.valid le_rfl)
  have hsup := (working_iff.mp (hwaits m le_rfl).1).2.2.2
  have hop := (VecLsuCommand.supported (hholds.unsupported.symm.trans hsup)).1
  rw [← hholds.op] at hop
  have hkeeps : ∀ op, ((r.state m).core.slot k).op = op →
      ∀ n ≥ m, ((r.state n).core.slot k).op = op := by
    intro op hstart n hn
    refine lasts (P := fun n => ((r.state n).core.slot k).op = op) ?_ le_rfl hn hstart
    intro i hi hold
    rw [slot_next]
    exact (slotNext_kept (h.valid hi)).2.1.trans hold
  rcases hop with hload | hstr
  · refine hfires m le_rfl fun n hn => ?_
    simp [requestable, eligible, hwaits n hn, hnever n hn, hkeeps _ hload n hn]
  have hwork := fun n hn => (hwaits n hn).1
  obtain ⟨j, hj, hord⟩ := h.ordered hclear hfair (hkeeps _ hstr) hwork
  refine hfires j hj fun n hn => ?_
  have hmn : m ≤ n := hj.trans hn
  simp [requestable, eligible, hwaits n hmn, hnever n hmn,
    hkeeps _ hstr n hmn, h.gatherDone hfair (hkeeps _ hstr) hwork hmn, hord n hn]

theorem allDone (hfair : r.Fair) : ∃ n ≥ m, ((r.state n).core.slot k).allDone := by
  have hupto : ∀ count ≤ p.maxBeats, ∃ n ≥ m, ∀ b < count,
      ((r.state n).core.slot k).beatDone b := by
    intro count hcnt
    induction count with
    | zero => exact ⟨m, le_rfl, fun b hb => absurd hb (Nat.not_lt_zero b)⟩
    | succ count ih =>
      obtain ⟨n, hn, hbelow⟩ := ih (by omega)
      obtain ⟨n', hn', hdone⟩ := h.done hclear hfair (b := count) (by omega)
      refine ⟨max n n', by omega, fun b hb => ?_⟩
      rcases Nat.lt_succ_iff_lt_or_eq.mp hb with hlt | rfl
      · exact h.done_lasts hn (le_max_left n n') (hbelow b hlt)
      · exact h.done_lasts hn' (le_max_right n n') hdone
  obtain ⟨n, hn, hall⟩ := hupto p.maxBeats le_rfl
  exact ⟨n, hn, allDone_iff.mpr hall⟩

theorem not_stuck (hfair : r.Fair) : False := by
  obtain ⟨j, hj, hdone⟩ := h.allDone hclear hfair
  have hall : ∀ n ≥ j, ((r.state n).core.slot k).allDone := by
    intro n hn
    rw [allDone_iff] at hdone ⊢
    exact fun b hb => h.done_lasts hj hn (hdone b hb)
  obtain ⟨n, hn, hrdy⟩ := hfair.completes j
  have hmn : m ≤ n := hj.trans hn
  have hquiet : ((r.state n).core.slot k).notified = false := by
    by_contra hno
    exact h.opened n hmn (.inr ⟨hall n hn, of_not_eq_false hno⟩)
  have hkill : ((r.state n).core.slot k).killed = false := by
    by_contra hno
    have hdr := (h.stays hmn).drain
    simp [drains, h.valid hmn, of_not_eq_false hno, hall n hn] at hdr
  have hcompleting : ((r.state n).core.slot k).completing := by
    simp [completing, h.valid hmn, hkill, hquiet, hall n hn]
  have hfire := completeFire_of_completing h.lt hcompleting hrdy
  rw [h.complete n hmn] at hfire
  cases hfire

end Stuck

/-- Every command in a slot ends. -/
theorem ends (hfair : r.Fair) {k : ℕ} (hk : k < p.queueDepth) (n : ℕ) : ∃ m ≥ n, r.Ended k m := by
  obtain ⟨last, hlast⟩ := hfair.retries
  have hstep : ∀ m ≥ last, ¬ r.Ended k m →
      (r.state (m + 1)).core.workBefore k ≤ (r.state m).core.workBefore k ∧
        (((r.state m).core.memReqFire (r.input m).port ∨
          (r.state m).core.rfReadFire (r.input m).port ∨
          (r.state m).core.completeFire (r.input m).port) →
        (r.state (m + 1)).core.workBefore k < (r.state m).core.workBefore k) := by
    intro m hm hopen
    have hval : ((r.state m).core.slot k).valid := by
      by_contra hno
      exact hopen (.inl (Bool.eq_false_of_not_eq_true hno))
    rw [r.next m]
    exact (inv hclear m).workBefore_step hk hval fun huse => hlast m hm (responseUse_spec huse).1
  obtain ⟨m, hm, hended⟩ := Sync.eventually_of_variant (r.Ended k)
    (fun m => (r.state m).core.workBefore k) (n := max n last)
    (fun m hm hopen => (hstep m (by omega) hopen).1) (by
      intro m hm hsame
      have hquiet : ∀ j ≥ m, ¬ ((r.state j).core.memReqFire (r.input j).port ∨
          (r.state j).core.rfReadFire (r.input j).port ∨
          (r.state j).core.completeFire (r.input j).port) := by
        intro j hj hdoes
        have hlt := (hstep j (by omega) (hsame j hj).1).2 hdoes
        have hj' := (hsame j hj).2
        have hnxt := (hsame (j + 1) (by omega)).2
        omega
      refine Stuck.not_stuck (m := m) hclear (k := k) ⟨hk, fun j hj => (hsame j hj).1,
        fun j hj => hlast j (by omega), ?_, ?_, ?_⟩ hfair
      · exact fun j hj => by simpa using fun hf => hquiet j hj (.inl hf)
      · exact fun j hj => by simpa using fun hf => hquiet j hj (.inr (.inl hf))
      · exact fun j hj => by simpa using fun hf => hquiet j hj (.inr (.inr hf)))
  exact ⟨m, by omega, hended⟩

/-- A beat that is to be requested is, unless its command is killed or takes an error first. -/
theorem requested (hfair : r.Fair) {k b : ℕ} (hk : k < p.queueDepth) (hb : b < p.maxBeats)
    (n : ℕ) (hawaits : ((r.state n).core.slot k).Awaits b) :
    ∃ m ≥ n, (r.state m).core.sends (r.input m).port k b ∨
      (r.state m).core.kills (r.input m).port k ∨
      ((r.state m).core.settles (r.input m).port k && (r.input m).port.memRespErrorI) := by
  by_contra hno
  have hnone : ∀ m ≥ n, (r.state m).core.sends (r.input m).port k b = false ∧
      (r.state m).core.kills (r.input m).port k = false ∧
      ((r.state m).core.settles (r.input m).port k && (r.input m).port.memRespErrorI) = false := by
    intro m hm
    refine ⟨?_, ?_, ?_⟩ <;> by_contra h
    · exact hno ⟨m, hm, .inl (of_not_eq_false h)⟩
    · exact hno ⟨m, hm, .inr (.inl (of_not_eq_false h))⟩
    · exact hno ⟨m, hm, .inr (.inr (of_not_eq_false h))⟩
  obtain ⟨m, hm, hended⟩ := ends hclear hfair hk n
  have hstill : ((r.state m).core.slot k).Awaits b := by
    refine lasts (P := fun m => ((r.state m).core.slot k).Awaits b) ?_ le_rfl hm hawaits
    rintro i hi ⟨hwork, hop, hsent, hleft⟩
    obtain ⟨hsends, hkills, herr⟩ := hnone i hi
    obtain ⟨hval, hkill, hflt, hsup⟩ := working_iff.mp hwork
    obtain ⟨-, hopNext, -, -, -, hsupportedNext⟩ := slotNext_kept (i := (r.input i).port) hval
    have hvalidNext := valid_of_left (i := (r.input i).port) hval hb hleft
    have htake : (r.state i).core.takes (r.input i).port k b = false := by
      by_contra htake
      rw [(takes_spec (of_not_eq_false htake)).2.2.2.2.2.1] at hsent
      cases hsent
    rcases valid_next_cases hvalidNext with hpromotes | ⟨-, hcom, hdr⟩
    · rw [not_promotes hval] at hpromotes
      cases hpromotes
    rw [slot_next]
    refine ⟨working_iff.mpr ⟨hvalidNext, ?_, ?_, hsupportedNext.trans hsup⟩,
      hopNext.symm ▸ hop, ?_, ?_⟩
    · rw [killed_cases hval hcom hdr, hkills, hkill, Bool.or_false]
    · rw [fault_next hval, herr, hflt, Bool.or_false]
    · rw [beatSent_next hval, hsends, hsent, Bool.or_false, Bool.and_false]
    · simp [slotNext, hkills, htake, herr, not_promotes hval, hleft]
  rcases hended with hemp | ⟨hdone, -⟩
  · rw [(working_iff.mp hstill.1).1] at hemp
    cases hemp
  · exact absurd (hstill.2.2.2.symm.trans (allDone_iff.mp hdone b hb)) false_ne_true

end VecLsuRun

namespace VecLsuRun

/-- In every run whose cycles are clear the unit is exact in every cycle, and in
surroundings that let it go on each beat that awaits its request gets it and each command
ends. -/
theorem exact_of_clear (p : VecLsuParams) (r : VecLsuRun p)
    (hclear : ∀ n, (r.state n).Clear (r.input n)) :
    (∀ n, (r.state n).Exact (r.input n)) ∧
      (r.Fair → ∀ n k, k < p.queueDepth →
        (∀ b < p.maxBeats, ((r.state n).core.slot k).Awaits b →
          ∃ m ≥ n, (r.state m).core.sends (r.input m).port k b = true ∨
            (r.state m).core.kills (r.input m).port k = true ∨
            ((r.state m).core.settles (r.input m).port k &&
              (r.input m).port.memRespErrorI) = true) ∧ ∃ m ≥ n, r.Ended k m) :=
  ⟨fun n => (inv hclear n).exact (r.promised n) (hclear n),
    fun hfair n _ hk => ⟨fun _ hb => requested hclear hfair hk hb n, ends hclear hfair hk n⟩⟩

end VecLsuRun

theorem smallVecLsu_pos : 0 < 64 := by decide

theorem smallVecLsu_slices : 64 ∣ 64 := ⟨1, rfl⟩

theorem smallVecLsu_beats : 64 ∣ 64 * 8 := ⟨8, rfl⟩

theorem smallVecLsu_lmul : 2 ≤ 2 := Nat.le_refl 2

theorem smallVecLsu_tag : 1 * (64 * 8 / 64) ≤ 2 ^ 3 := by decide

/-- One slot of one beat for each register of 64 bits. -/
def smallVecLsu : VecLsuParams where
  vlen := 64
  addrWidth := 64
  regAddrWidth := 5
  tagWidth := 8
  memTagWidth := 3
  memDataWidth := 64
  queueDepth := 1
  readOnly := false
  numRegs := 32
  lmulWidth := 2
  vlen_pos := smallVecLsu_pos
  vlen_slices := smallVecLsu_slices
  data_pos := smallVecLsu_pos
  data_slices := smallVecLsu_slices
  data_beats := smallVecLsu_beats
  tag_wide := smallVecLsu_tag
  depth_pos := Nat.one_pos
  lmul_wide := smallVecLsu_lmul

def VecLsuCycle.idle : VecLsuCycle smallVecLsu where
  port :=
    { dispatchValidI := false
      dispatchI := ⟨0, .invalid, 0, 0, 0⟩
      gprReadReadyI := false
      gprReadDataI := 0
      rfReadReadyI := false
      rfReadDataI := 0
      operandsReadyI := false
      orderedValidI := false
      orderedTagI := 0
      completeReadyI := false
      retireValidI := false
      retireTagI := 0
      retireKillI := false
      rfWriteReadyI := false
      memReqReadyI := false
      memRespValidI := false
      memRespTagI := 0
      memRespRdataI := fun _ => 0
      memRespErrorI := false
      memRespRetryI := false }
  answers := 0

namespace VecLsuCycle

def dispatching (x : VecLsuCycle smallVecLsu) (c : VecLsuCommand smallVecLsu) :
    VecLsuCycle smallVecLsu :=
  { x with port := { x.port with dispatchValidI := true, dispatchI := c } }

def reading (x : VecLsuCycle smallVecLsu) (pointer : BitVec 64) : VecLsuCycle smallVecLsu :=
  { x with port :=
    { x.port with operandsReadyI := true, gprReadReadyI := true, gprReadDataI := pointer } }

def accepting (x : VecLsuCycle smallVecLsu) : VecLsuCycle smallVecLsu :=
  { x with port := { x.port with memReqReadyI := true } }

def retiring (x : VecLsuCycle smallVecLsu) (tag : BitVec 8) (kill : Bool) :
    VecLsuCycle smallVecLsu :=
  { x with port :=
    { x.port with
      retireValidI := true, retireTagI := tag, retireKillI := kill, rfWriteReadyI := true } }

def answering (x : VecLsuCycle smallVecLsu) (data : BitVec 64) : VecLsuCycle smallVecLsu :=
  { x with port := { x.port with memRespValidI := true, memRespRdataI := fun _ => data } }

def refusing (x : VecLsuCycle smallVecLsu) : VecLsuCycle smallVecLsu :=
  { x with port := { x.port with memRespValidI := true, memRespRetryI := true } }

def completing (x : VecLsuCycle smallVecLsu) : VecLsuCycle smallVecLsu :=
  { x with port := { x.port with completeReadyI := true } }

end VecLsuCycle

def VecLsuLedger.reset : VecLsuLedger smallVecLsu where
  core := .reset
  dispatched := 0
  pendingId := 0
  owner _ := 0
  record _ := VecLsuCommand.record ⟨0, .invalid, 0, 0, 0⟩
  live := []
  inFlight := []

theorem VecLsuLedger.reset_init : (vecLsu smallVecLsu).Init .reset :=
  ⟨rfl, rfl, rfl, rfl, fun _ => rfl⟩

theorem VecLsuLedger.served_idle (t : VecLsuLedger smallVecLsu) : t.Served .idle := by
  refine ⟨fun hfire => ?_, fun hval => absurd_low hval⟩
  cases hfire

example : Sync.execOk (vecLsu smallVecLsu) (fun t x => decide (t.Served x)) .reset [idle] := by
  decide +kernel

/-- The run of a list of cycles after which nothing happens. -/
def VecLsuRun.ofCycles (cycles : List (VecLsuCycle smallVecLsu))
    (hok : Sync.execOk (vecLsu smallVecLsu) (fun t x => decide (t.Served x)) .reset cycles =
      true) : VecLsuRun smallVecLsu :=
  .ofInputs (fun n => cycles.getD n .idle) VecLsuLedger.reset_init
    (Sync.Behaviour.statesFrom_ok VecLsuLedger.served_idle hok)

/-- Two loads of one register each; the first is killed as its request is accepted, and the
second has the slot when memory answers the first. -/
def killedLoads : List (VecLsuCycle smallVecLsu) :=
  [idle.dispatching ⟨0, .load, 1, 0, 0⟩, (idle.dispatching ⟨1, .load, 2, 1, 0⟩).reading 0x100,
    idle.accepting.retiring 0 true, idle, idle.reading 0x200, idle.accepting, idle.answering 0xaa]

theorem killedLoads_served : Sync.execOk (vecLsu smallVecLsu)
    (fun t x => decide (t.Served x)) .reset killedLoads := by
  decide +kernel

def killedRun : VecLsuRun smallVecLsu := .ofCycles killedLoads killedLoads_served

/-- The second load takes what memory answers to the first. -/
theorem exact_of_clear_killed : ¬ ∀ (p : VecLsuParams) (r : VecLsuRun p), ∀ n,
    (r.state n).Exact (r.input n) := by
  intro h
  have hrun := h smallVecLsu killedRun 6
  have hcommand : ((killedRun.state 6).answered (killedRun.input 6)).map
      VecMemRequest.command = some 0 := by decide +kernel
  have huse : (killedRun.state 6).core.responseUse (killedRun.input 6).port = true := by
    decide +kernel
  have howner : (killedRun.state 6).owner (responseSlot (killedRun.input 6).port) =
      1 := by decide +kernel
  obtain ⟨q, hq, hzero⟩ := Option.map_eq_some_iff.mp hcommand
  rw [(hrun.attributed q hq huse).1, hzero] at howner
  cases howner

namespace VecLsuRun

theorem clear_idle (t : VecLsuLedger smallVecLsu) : t.Clear .idle := by
  refine ⟨fun k _ b _ hsends => ?_, fun huse => ?_, fun hkill => ?_⟩
  · rw [sends_iff] at hsends
    exact absurd (Bool.and_eq_true_iff.mp hsends.1).2 false_ne_true
  · exact absurd (responseUse_spec huse).1 false_ne_true
  · exact absurd (Bool.and_eq_true_iff.mp (Bool.and_eq_true_iff.mp hkill).1).1 false_ne_true

/-- A load that memory refuses once and that is then answered and retired. -/
def plainLoad : List (VecLsuCycle smallVecLsu) :=
  [idle.dispatching ⟨0, .load, 1, 0, 0⟩, idle.reading 0x100, idle.accepting, idle.refusing,
    idle.accepting, idle.answering 0xaa, idle.completing, idle.retiring 0 false]

theorem plainLoad_ok : Sync.execOk (vecLsu smallVecLsu)
      (fun t x => decide (t.Served x)) .reset plainLoad ∧
    Sync.execOk (vecLsu smallVecLsu) (fun t x => decide (t.Clear x)) .reset plainLoad := by
  decide +kernel

theorem plainLoad_served : Sync.execOk (vecLsu smallVecLsu)
    (fun t x => decide (t.Served x)) .reset plainLoad := plainLoad_ok.1

theorem plainLoad_clear : Sync.execOk (vecLsu smallVecLsu)
    (fun t x => decide (t.Clear x)) .reset plainLoad := plainLoad_ok.2

/-- The load writes what memory answered to its second request. -/
theorem exact_of_clear_plain :
    ((VecLsuRun.ofCycles plainLoad plainLoad_served).state 7).Exact
        ((VecLsuRun.ofCycles plainLoad plainLoad_served).input 7) ∧
      (((VecLsuRun.ofCycles plainLoad plainLoad_served).state 8).record 0).written =
        [⟨0, 0, 0xaa⟩] :=
  ⟨(exact_of_clear smallVecLsu (VecLsuRun.ofCycles plainLoad plainLoad_served) fun n =>
      Sync.Behaviour.statesFrom_ok clear_idle plainLoad_clear n).1 7, by decide +kernel⟩

end VecLsuRun

end OpenRV64
