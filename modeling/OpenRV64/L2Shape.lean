/-
The miss registers of the native L2 through an edge: what becomes of a register in each
of its states, and the invariant that ties the registers to the transactions on the bus
and to the probe in progress.
-/
import OpenRV64.L2Actions

namespace OpenRV64

open RingSegment
open Bool (and_eq_true)

/-- A miss register by itself: it is empty, or it holds a beat that waits for what its
state says. -/
structure Mshr.Ok {p : L2Params} (m : Mshr p) : Prop where
  free : m.valid = false → m.state = .idle ∧ m.waiterCount = 0 ∧ m.replay = 0
  busy : m.valid = true → m.state ≠ .idle
  count : m.valid = true → m.replay < m.waiterCount ∧ m.waiterCount ≤ p.waitersPerMshr
  untouched : m.valid = true → m.state ≠ .replay → m.state ≠ .error → m.replay = 0
  bypass : m.valid = true → m.bypass = true → m.waiterCount = 1 ∧
    m.state ≠ .needWb ∧ m.state ≠ .wbInflight ∧ m.state ≠ .needFill ∧ m.state ≠ .fillInflight
  fill : m.valid = true → m.bypass = false → m.state ≠ .needBypass ∧ m.state ≠ .bypassInflight
  probe : m.valid = true → m.state = .needProbe ∨ m.state = .probeInflight →
    p.enableCoherence = true ∧ (m.bypass = true → m.postProbeState = .needBypass) ∧
      (m.bypass = false → m.postProbeState = .needWb ∨ m.postProbeState = .needFill ∨
        m.postProbeState = .replay)
  error : m.valid = true → (m.error = true ↔ m.state = .error)

namespace L2State

variable {p : L2Params} {s : L2State p} {i : L2Input p} {k : ℕ}

/-- The transactions on the bus, in order. -/
def trackAt (s : L2State p) (j : ℕ) : ℕ × BusAction :=
  s.track (slot p.busTrackEntries s.trackHeadQ j)

/-- The tracking queue lists the transactions of the miss registers, each of them once. -/
structure TrackOk (s : L2State p) : Prop where
  pointers : Pointers p.busTrackEntries s.trackHeadQ s.trackTailQ s.trackCountQ
  sound : ∀ j, j < s.trackCountQ → (s.mshr (s.trackAt j).1).valid = true ∧
    (s.mshr (s.trackAt j).1).state = (s.trackAt j).2.inflight
  once : ∀ j j', j < s.trackCountQ → j' < s.trackCountQ →
    (s.trackAt j).1 = (s.trackAt j').1 → j = j'
  complete : ∀ k a, (s.mshr k).valid = true → (s.mshr k).state = a.inflight →
    ∃ j, j < s.trackCountQ ∧ s.trackAt j = (k, a)

/-- The tracker works for the one register whose probe is in progress. -/
structure ProbeOk (s : L2State p) : Prop where
  settled : s.tracker.Settled
  active : p.enableCoherence = true → s.tracker.busyQ = true ∨ s.tracker.doneValidQ = true →
    (s.mshr s.activeProbeMshrQ).valid = true ∧ (s.mshr s.activeProbeMshrQ).state = .probeInflight
  only : ∀ k, (s.mshr k).valid = true → (s.mshr k).state = .probeInflight →
    k = s.activeProbeMshrQ ∧ (s.tracker.busyQ = true ∨ s.tracker.doneValidQ = true)

structure MshrsOk (s : L2State p) : Prop where
  mshr : ∀ k, (s.mshr k).Ok
  bound : ∀ k, (s.mshr k).valid = true → k < p.mshrEntries
  track : s.TrackOk
  probe : s.ProbeOk

/-! ## Which event can reach a register -/

theorem trackAt_zero (h : s.TrackOk) : s.trackAt 0 = s.track s.trackHeadQ := by
  rw [trackAt, slot_zero h.pointers.head_lt]

theorem busResponse_inflight (h : s.TrackOk) (hfire : s.busResponseFire i) :
    (s.mshr s.busResponseMshr).valid ∧
      (s.mshr s.busResponseMshr).state = s.busResponseAction.inflight := by
  rw [busResponseFire, busRespReadyO, and_eq_true, bne_iff_ne] at hfire
  have hsound := h.sound 0 (Nat.pos_of_ne_zero hfire.2)
  rw [trackAt_zero h] at hsound
  exact hsound

theorem probeCompletion_active (h : s.ProbeOk) (hdone : s.probeCompletion) :
    (s.mshr s.activeProbeMshrQ).valid ∧ (s.mshr s.activeProbeMshrQ).state = .probeInflight := by
  rw [probeCompletion, and_eq_true] at hdone
  exact h.active hdone.1 (.inr hdone.2)

theorem probeStartsAt_state (h : s.probeStartsAt k) :
    (s.mshr k).valid ∧ (s.mshr k).state = .needProbe := by
  rw [probeStartsAt, and_eq_true, beq_iff_eq] at h
  obtain ⟨hfire, rfl⟩ := h
  exact ⟨(probeStart_candidate hfire).2.1, (probeStart_candidate hfire).2.2.1⟩

theorem probeDoneAt_state (hok : s.ProbeOk) (h : s.probeDoneAt k) :
    (s.mshr k).valid ∧ (s.mshr k).state = .probeInflight := by
  rw [probeDoneAt, and_eq_true, beq_iff_eq] at h
  obtain ⟨hdone, rfl⟩ := h
  exact probeCompletion_active hok hdone

theorem requestsAt_state (h : s.requestsAt i k) :
    (s.mshr k).valid ∧ (s.mshr k).state = s.busCandidateAction.need := by
  rw [requestsAt, and_eq_true, beq_iff_eq] at h
  obtain ⟨hfire, rfl⟩ := h
  exact busWants_some (busRequest_wants hfire).2

theorem answeredAt_state (hok : s.TrackOk) (h : s.answeredAt i k) :
    (s.mshr k).valid ∧ (s.mshr k).state = s.busResponseAction.inflight := by
  rw [answeredAt, and_eq_true, beq_iff_eq] at h
  obtain ⟨hfire, rfl⟩ := h
  exact busResponse_inflight hok hfire

theorem replaysAt_state (h : s.replaysAt i k) :
    (s.mshr k).valid ∧ ((s.mshr k).state = .replay ∨ (s.mshr k).state = .error) := by
  rw [replaysAt, and_eq_true, beq_iff_eq] at h
  obtain ⟨hfire, rfl⟩ := h
  exact ⟨(replay_wants hfire).2.1, (replay_wants hfire).2.2.1⟩

theorem cacheWriteAt_replaysAt (h : (s.replayCacheWrite i && k == s.replayMshr)) :
    s.replaysAt i k := by
  rw [and_eq_true] at h
  rw [replaysAt, and_eq_true]
  exact ⟨(cacheWrite_replay h.1).1, h.2⟩

/-! ## The updates that do not reach a register leave it alone -/

section

variable {m : Mshr p}

theorem allocUpdate_off (h : ¬ s.allocates i k) : s.allocUpdate i k m = m := by
  rw [allocUpdate, if_neg h]

theorem mergeUpdate_off (h : ¬ s.merges i k) : s.mergeUpdate i k m = m := by
  rw [mergeUpdate, if_neg h]

theorem probeUpdate_off (hstart : ¬ s.probeStartsAt k)
    (hdone : ¬ s.probeDoneAt k) : s.probeUpdate k m = m := by
  rw [probeUpdate, if_neg hdone, if_neg hstart]

theorem busRequestUpdate_off (h : ¬ s.requestsAt i k) : s.busRequestUpdate i k m = m := by
  rw [busRequestUpdate, if_neg h]

theorem busResponseUpdate_off (h : ¬ s.answeredAt i k) : s.busResponseUpdate i k m = m := by
  rw [busResponseUpdate, if_neg h]

theorem replayUpdate_off (h : ¬ s.replaysAt i k) : s.replayUpdate i k m = m := by
  have hwr : ¬ (s.replayCacheWrite i && k == s.replayMshr) :=
    fun hw => h (cacheWriteAt_replaysAt hw)
  rw [replayUpdate, if_neg hwr, if_neg h]

end

/-! ## What the updates of a lookup leave of a register -/

section Fields

variable (s i k) (m : Mshr p)

@[simp] theorem mergeUpdate_valid : (s.mergeUpdate i k m).valid = m.valid := by
  rw [mergeUpdate]
  split <;> rfl

@[simp] theorem mergeUpdate_bypass : (s.mergeUpdate i k m).bypass = m.bypass := by
  rw [mergeUpdate]
  split <;> rfl

@[simp] theorem mergeUpdate_state : (s.mergeUpdate i k m).state = m.state := by
  rw [mergeUpdate]
  split <;> rfl

@[simp] theorem mergeUpdate_replay : (s.mergeUpdate i k m).replay = m.replay := by
  rw [mergeUpdate]
  split <;> rfl

@[simp] theorem mergeUpdate_error : (s.mergeUpdate i k m).error = m.error := by
  rw [mergeUpdate]
  split <;> rfl

@[simp] theorem mergeUpdate_postProbeState :
    (s.mergeUpdate i k m).postProbeState = m.postProbeState := by
  rw [mergeUpdate]
  split <;> rfl

theorem mergeUpdate_waiterCount : (s.mergeUpdate i k m).waiterCount =
    if s.merges i k then (s.mshr k).waiterCount + 1 else m.waiterCount := by
  rw [mergeUpdate]
  split <;> rfl

@[simp] theorem allocated_valid : (s.allocated i m).valid := by
  simp only [allocated, allocProbe, apply_ite Mshr.valid, allocHit, allocVictim, ite_self]

@[simp] theorem allocated_bypass : (s.allocated i m).bypass =
    (s.lookupAction i == .bypass || s.lookupAction i == .writeAround ||
      (s.lookupAction i == .cohProbe && s.lookupBaseAction i == .writeAround)) := by
  simp only [allocated, allocProbe, apply_ite Mshr.bypass, allocHit, allocVictim, ite_self]

@[simp] theorem allocated_waiterCount : (s.allocated i m).waiterCount = 1 := by
  simp only [allocated, allocProbe, apply_ite Mshr.waiterCount, allocHit, allocVictim, ite_self]

@[simp] theorem allocated_replay : (s.allocated i m).replay = 0 := by
  simp only [allocated, allocProbe, apply_ite Mshr.replay, allocHit, allocVictim, ite_self]

@[simp] theorem allocated_error : (s.allocated i m).error = false := by
  simp only [allocated, allocProbe, apply_ite Mshr.error, allocHit, allocVictim, ite_self]

@[simp] theorem allocated_state : (s.allocated i m).state =
    if s.lookupAction i == .cohProbe then .needProbe else s.allocState i := by
  simp only [allocated, allocProbe, apply_ite Mshr.state, ite_self]

@[simp] theorem allocated_postProbeState : (s.allocated i m).postProbeState =
    if s.lookupAction i == .cohProbe then s.allocState i else m.postProbeState := by
  simp only [allocated, allocProbe, apply_ite Mshr.postProbeState, allocHit, allocVictim, ite_self]

/-- The answer of the bus leaves the beats that wait in a register alone. -/
theorem answered_fields : (s.answered i m).valid = m.valid ∧
    (s.answered i m).bypass = m.bypass ∧ (s.answered i m).waiterCount = m.waiterCount ∧
    (s.answered i m).replay = m.replay ∧ (s.answered i m).lineAddr = m.lineAddr ∧
    (s.answered i m).state = (if i.busRespErrorI then .error
        else if s.busResponseAction == .wb then .needFill else .replay) ∧
    (s.answered i m).error = if i.busRespErrorI then true else m.error := by
  rw [answered]
  cases i.busRespErrorI <;> cases s.busResponseAction <;>
    exact ⟨rfl, rfl, rfl, rfl, rfl, rfl, rfl⟩

theorem replayed_fields : (s.replayed k m).valid = (!s.replayFinal && m.valid) ∧
    (s.replayed k m).state = (if s.replayFinal then .idle else m.state) ∧
    (s.replayed k m).waiterCount = (if s.replayFinal then 0 else m.waiterCount) ∧
    (s.replayed k m).replay = (if s.replayFinal then 0 else (s.mshr k).replay + 1) ∧
    (s.replayed k m).bypass = m.bypass ∧ (s.replayed k m).error = m.error ∧
    (s.replayed k m).postProbeState = m.postProbeState ∧
    (s.replayed k m).lineAddr = m.lineAddr := by
  rw [replayed]
  cases s.replayFinal <;> exact ⟨rfl, rfl, rfl, rfl, rfl, rfl, rfl, rfl⟩

end Fields

/-! ## One register through an edge, by its state -/

section Next

variable (hok : s.MshrsOk)

include hok

omit hok in
theorem not_request_of_state (h : ∀ a : BusAction, (s.mshr k).state ≠ a.need) :
    ¬ s.requestsAt i k := fun hreq => h _ (requestsAt_state hreq).2

theorem not_response_of_state (h : ∀ a : BusAction, (s.mshr k).state ≠ a.inflight) :
    ¬ s.answeredAt i k := fun hrsp => h _ (answeredAt_state hok.track hrsp).2

theorem mshrNext_free (hfree : (s.mshr k).valid = false) :
    s.mshrNext i k = s.allocUpdate i k (s.mshr k) := by
  have hno : ∀ {P : Prop}, (P → (s.mshr k).valid) → ¬ P := fun h hp => by
    rw [h hp] at hfree
    cases hfree
  rw [mshrNext, replayUpdate_off (hno fun h => (replaysAt_state h).1),
    busResponseUpdate_off (hno fun h => (answeredAt_state hok.track h).1),
    busRequestUpdate_off (hno fun h => (requestsAt_state h).1),
    probeUpdate_off (hno fun h => (probeStartsAt_state h).1)
      (hno fun h => (probeDoneAt_state hok.probe h).1),
    mergeUpdate_off (hno fun h => (merges_target h).valid)]

omit hok in
theorem mshrNext_valid (hval : (s.mshr k).valid) :
    s.mshrNext i k = (s.replayUpdate i k <| s.busResponseUpdate i k <|
      s.busRequestUpdate i k <| s.probeUpdate k <| s.mergeUpdate i k <| s.mshr k) := by
  rw [mshrNext, allocUpdate_off]
  intro halloc
  rw [(allocates_free halloc).2] at hval
  cases hval

theorem mshrNext_probe (hval : (s.mshr k).valid)
    (hst : (s.mshr k).state = .needProbe ∨ (s.mshr k).state = .probeInflight) :
    s.mshrNext i k = s.probeUpdate k (s.mergeUpdate i k (s.mshr k)) := by
  rw [mshrNext_valid hval, replayUpdate_off, busResponseUpdate_off, busRequestUpdate_off]
  · exact not_request_of_state fun a => by
      rcases hst with h | h <;> rw [h] <;> cases a <;> decide
  · exact not_response_of_state hok fun a => by
      rcases hst with h | h <;> rw [h] <;> cases a <;> decide
  · intro hrep
    rcases hst with h | h <;> rcases (replaysAt_state hrep).2 with h' | h' <;>
      rw [h] at h' <;> cases h'

theorem not_probe_of_state (hneed : (s.mshr k).state ≠ .needProbe)
    (hfly : (s.mshr k).state ≠ .probeInflight) {m : Mshr p} : s.probeUpdate k m = m :=
  probeUpdate_off (fun h => hneed (probeStartsAt_state h).2)
    fun h => hfly (probeDoneAt_state hok.probe h).2

theorem mshrNext_need {a : BusAction} (hval : (s.mshr k).valid) (hst : (s.mshr k).state = a.need) :
    s.mshrNext i k = s.busRequestUpdate i k (s.mergeUpdate i k (s.mshr k)) := by
  rw [mshrNext_valid hval, replayUpdate_off, busResponseUpdate_off, not_probe_of_state hok]
  · rw [hst]
    cases a <;> decide
  · rw [hst]
    cases a <;> decide
  · exact not_response_of_state hok fun b => by rw [hst]; cases a <;> cases b <;> decide
  · intro h
    rcases (replaysAt_state h).2 with h | h <;> rw [hst] at h <;> cases a <;> cases h

theorem mshrNext_inflight {a : BusAction} (hval : (s.mshr k).valid)
    (hst : (s.mshr k).state = a.inflight) :
    s.mshrNext i k = s.busResponseUpdate i k (s.mergeUpdate i k (s.mshr k)) := by
  rw [mshrNext_valid hval, replayUpdate_off, busRequestUpdate_off, not_probe_of_state hok]
  · rw [hst]
    cases a <;> decide
  · rw [hst]
    cases a <;> decide
  · exact not_request_of_state fun b => by rw [hst]; cases a <;> cases b <;> decide
  · intro h
    rcases (replaysAt_state h).2 with h | h <;> rw [hst] at h <;> cases a <;> cases h

theorem mshrNext_replay (hval : (s.mshr k).valid)
    (hst : (s.mshr k).state = .replay ∨ (s.mshr k).state = .error) :
    s.mshrNext i k = s.replayUpdate i k (s.mshr k) := by
  rw [mshrNext_valid hval, busResponseUpdate_off, busRequestUpdate_off,
    not_probe_of_state hok, mergeUpdate_off]
  · intro h
    have htgt := merges_target h
    exact hst.elim htgt.replay htgt.error
  · rcases hst with h | h <;> rw [h] <;> decide
  · rcases hst with h | h <;> rw [h] <;> decide
  · exact not_request_of_state fun a => by
      rcases hst with h | h <;> rw [h] <;> cases a <;> decide
  · exact not_response_of_state hok fun a => by
      rcases hst with h | h <;> rw [h] <;> cases a <;> decide

end Next

/-! ## The registers stay well formed -/

theorem probeNeeded_coherent (h : s.probeNeeded i) : p.enableCoherence := by
  simp only [probeNeeded, privateProbeNeeded, writeProbeNeeded, lookupPrivateFill,
    lookupCoherentWrite, Bool.or_eq_true, and_eq_true] at h
  rcases h with h | h
  · exact h.1.1.1.1.1.1.1
  · exact h.1.1.1.1.1.1

section

variable (h : s.lookupAllocates i) (m : Mshr p)

include h

theorem allocated_bypass_iff : (s.allocated i m).bypass ↔
      s.lookupBaseAction i = .bypass ∨ s.lookupBaseAction i = .writeAround := by
  rw [allocated_bypass]
  by_cases hprobe : s.lookupAction i = .cohProbe
  · obtain ⟨-, -, hbase⟩ := action_cohProbe hprobe
    rw [hprobe]
    rcases hbase with hb | hb | hb <;> rw [hb] <;> decide
  · rw [action_eq_base (dispatch_iff.mp (allocates_dispatch h)) hprobe]
    cases s.lookupAction i <;> simp

/-- The states in which a miss starts, once no probe holds it up. -/
theorem allocState_cases : ((s.allocated i m).bypass ∧ s.allocState i = .needBypass) ∨
      ((s.allocated i m).bypass = false ∧
        (s.allocState i = .needWb ∨ s.allocState i = .needFill ∨ s.allocState i = .replay)) := by
  obtain ⟨-, hbase, -⟩ := allocates_base h
  have hiff := allocated_bypass_iff h m
  rw [allocState]
  rcases hbase with hb | hb | hb | hb <;> rw [hb] at hiff ⊢
  · exact .inr ⟨by simpa using hiff, .inr (.inr rfl)⟩
  · refine .inr ⟨by simpa using hiff, ?_⟩
    cases s.victimDirty
    · exact .inr (.inl rfl)
    · exact .inl rfl
  · exact .inl ⟨by simpa using hiff, rfl⟩
  · exact .inl ⟨by simpa using hiff, rfl⟩

theorem allocated_ok : (s.allocated i m).Ok := by
  have hcases := allocState_cases h m
  have hwait := p.waiters_ok.1
  constructor
  · intro hv
    rw [allocated_valid] at hv
    cases hv
  · intro _
    rw [allocated_state]
    split_ifs
    · decide
    · rcases hcases with ⟨-, hs⟩ | ⟨-, hs | hs | hs⟩ <;> rw [hs] <;> decide
  · intro _
    rw [allocated_replay, allocated_waiterCount]
    omega
  · exact fun _ _ _ => allocated_replay s i m
  · intro _ hb
    refine ⟨allocated_waiterCount s i m, ?_⟩
    have hs := (hcases.resolve_right fun hc => by rw [hb] at hc; exact Bool.noConfusion hc.1).2
    rw [allocated_state, hs]
    split_ifs <;> decide
  · intro _ hb
    have hs := (hcases.resolve_left fun hc => by rw [hb] at hc; exact Bool.noConfusion hc.1).2
    rw [allocated_state]
    split_ifs
    · decide
    · rcases hs with hs | hs | hs <;> rw [hs] <;> decide
  · intro _ hprobing
    rw [allocated_state, allocated_postProbeState] at *
    split_ifs at hprobing ⊢ with hprobe
    · rw [beq_iff_eq] at hprobe
      refine ⟨probeNeeded_coherent (action_cohProbe hprobe).1, ?_, ?_⟩
      · intro hb
        exact (hcases.resolve_right fun hc => by
          rw [hb] at hc; exact Bool.noConfusion hc.1).2
      · intro hb
        exact (hcases.resolve_left fun hc => by
          rw [hb] at hc; exact Bool.noConfusion hc.1).2
    · rcases hcases with ⟨-, hs⟩ | ⟨-, hs | hs | hs⟩ <;> rw [hs] at hprobing <;>
        rcases hprobing with hp | hp <;> cases hp
  · intro _
    rw [allocated_error, allocated_state]
    constructor
    · exact fun h => absurd_low h
    · intro hs
      split_ifs at hs
      rcases hcases with ⟨-, hc⟩ | ⟨-, hc | hc | hc⟩ <;> rw [hc] at hs <;> cases hs

end

theorem mergeUpdate_ok (h : (s.mshr k).Ok) : (s.mergeUpdate i k (s.mshr k)).Ok := by
  by_cases hmerge : s.merges i k
  · have htgt := merges_target hmerge
    have hcnt := mergeUpdate_waiterCount s i k (s.mshr k)
    rw [if_pos hmerge] at hcnt
    have hroom := htgt.room
    have hold := h.count htgt.valid
    constructor <;> simp only [mergeUpdate_valid, mergeUpdate_bypass, mergeUpdate_state,
      mergeUpdate_replay, mergeUpdate_error, mergeUpdate_postProbeState, hcnt]
    · intro hfree
      rw [htgt.valid] at hfree
      cases hfree
    · exact h.busy
    · intro _
      omega
    · exact h.untouched
    · intro _ hbyp
      rw [htgt.bypass] at hbyp
      cases hbyp
    · exact h.fill
    · exact h.probe
    · exact h.error
  · rw [mergeUpdate_off hmerge]
    exact h

/-- A well-formed register stays so when it moves on to a state that waits for the bus,
or for the acknowledgements of its probe. -/
theorem ok_move {m : Mshr p} (h : m.Ok) {st : MshrState}
    (hval : m.valid) (hold : m.state ≠ .replay ∧ m.state ≠ .error)
    (hne : st ≠ .idle ∧ st ≠ .error)
    (hbyp : m.bypass → st ≠ .needWb ∧ st ≠ .wbInflight ∧ st ≠ .needFill ∧ st ≠ .fillInflight)
    (hfill : m.bypass = false → st ≠ .needBypass ∧ st ≠ .bypassInflight)
    (hprobe : st = .needProbe ∨ st = .probeInflight →
      m.state = .needProbe ∨ m.state = .probeInflight) : { m with state := st }.Ok where
  free hfree := by
    rw [show m.valid = false from hfree] at hval
    cases hval
  busy _ := hne.1
  count := h.count
  untouched _ _ _ := h.untouched hval hold.1 hold.2
  bypass _ hb := ⟨(h.bypass hval hb).1, hbyp hb⟩
  fill _ hb := hfill hb
  probe _ hp := h.probe hval (hprobe hp)
  error _ := ⟨fun herr => absurd ((h.error hval).mp herr) hold.2, fun hs => absurd hs hne.2⟩

theorem need_injective {a b : BusAction} (h : a.need = b.need) : a = b := by
  cases a <;> cases b <;> first | rfl | cases h

theorem inflight_injective {a b : BusAction} (h : a.inflight = b.inflight) : a = b := by
  cases a <;> cases b <;> first | rfl | cases h

/-- Every state of a valid register is one of these. -/
theorem state_cases (h : (s.mshr k).Ok) (hval : (s.mshr k).valid) :
    (∃ a : BusAction, (s.mshr k).state = a.need) ∨
      (∃ a : BusAction, (s.mshr k).state = a.inflight) ∨
      ((s.mshr k).state = .replay ∨ (s.mshr k).state = .error) ∨
      (s.mshr k).state = .needProbe ∨ (s.mshr k).state = .probeInflight := by
  have hbsy := h.busy hval
  cases hst : (s.mshr k).state with
  | idle => exact absurd hst hbsy
  | needWb => exact .inl ⟨.wb, rfl⟩
  | needFill => exact .inl ⟨.fill, rfl⟩
  | needBypass => exact .inl ⟨.bypass, rfl⟩
  | wbInflight => exact .inr (.inl ⟨.wb, rfl⟩)
  | fillInflight => exact .inr (.inl ⟨.fill, rfl⟩)
  | bypassInflight => exact .inr (.inl ⟨.bypass, rfl⟩)
  | replay => exact .inr (.inr (.inl (.inl rfl)))
  | error => exact .inr (.inr (.inl (.inr rfl)))
  | needProbe => exact .inr (.inr (.inr (.inl rfl)))
  | probeInflight => exact .inr (.inr (.inr (.inr rfl)))

/-- The request at a register is the one that its state waits to issue. -/
theorem requestsAt_action {a : BusAction} (h : s.requestsAt i k)
    (hst : (s.mshr k).state = a.need) : s.busCandidateAction = a :=
  need_injective ((requestsAt_state h).2.symm.trans hst)

theorem answeredAt_action {a : BusAction} (hok : s.TrackOk) (h : s.answeredAt i k)
    (hst : (s.mshr k).state = a.inflight) : s.busResponseAction = a :=
  inflight_injective ((answeredAt_state hok h).2.symm.trans hst)

section UpdateOk

variable {m : Mshr p} (h : m.Ok) (hval : m.valid)

include h hval

theorem busRequestUpdate_ok {a : BusAction} (hst : m.state = a.need)
    (haction : s.requestsAt i k → s.busCandidateAction = a) : (s.busRequestUpdate i k m).Ok := by
  by_cases hreq : s.requestsAt i k
  · have hset : s.busRequestUpdate i k m = { m with state := a.inflight } := by
      rw [← haction hreq]
      rw [busRequestUpdate, if_pos hreq]
    rw [hset]
    apply ok_move h hval
    · rw [hst]
      cases a <;> decide
    · cases a <;> decide
    · intro hb
      have hold := (h.bypass hval hb).2
      rw [hst] at hold
      cases a with
      | wb => exact absurd rfl hold.1
      | fill => exact absurd rfl hold.2.2.1
      | bypass => decide
    · intro hb
      have hold := h.fill hval hb
      rw [hst] at hold
      cases a with
      | wb => decide
      | fill => decide
      | bypass => exact absurd rfl hold.1
    · intro hp
      rcases hp with hp | hp <;> cases a <;> cases hp
  · rw [busRequestUpdate_off hreq]
    exact h

theorem probeUpdate_ok (hst : m.state = .needProbe ∨ m.state = .probeInflight)
    (hpost : m.postProbeState = (s.mshr k).postProbeState) : (s.probeUpdate k m).Ok := by
  obtain ⟨hcoh, hbyp, hfill⟩ := h.probe hval hst
  have hold : m.state ≠ .replay ∧ m.state ≠ .error := by
    rcases hst with hs | hs <;> rw [hs] <;> decide
  have hstarted : (if s.probeStartsAt k then
      { m with state := .probeInflight } else m).Ok := by
    split_ifs
    · apply ok_move h hval hold (by decide) (fun _ => by decide) (fun _ => by decide)
      exact fun _ => hst
    · exact h
  rw [probeUpdate]
  split_ifs with hdone hstart hstart
  all_goals first
    | exact h
    | (rw [if_pos hstart] at hstarted; exact hstarted)
    | (rw [← hpost]
       apply ok_move h hval hold
       · cases hb : m.bypass with
         | true => rw [hbyp hb]; decide
         | false => rcases hfill hb with hp | hp | hp <;> rw [hp] <;> decide
       · intro hb
         rw [hbyp hb]
         decide
       · intro hb
         rcases hfill hb with hp | hp | hp <;> rw [hp] <;> decide
       · exact fun _ => hst)

theorem busResponseUpdate_ok {a : BusAction} (hst : m.state = a.inflight)
    (haction : s.answeredAt i k → s.busResponseAction = a) : (s.busResponseUpdate i k m).Ok := by
  by_cases hrsp : s.answeredAt i k
  · have ha := haction hrsp
    have hbypass : m.bypass → a = .bypass := by
      intro hb
      have hold := (h.bypass hval hb).2
      rw [hst] at hold
      cases a with
      | wb => exact absurd rfl hold.2.1
      | fill => exact absurd rfl hold.2.2.2
      | bypass => rfl
    have hfields := answered_fields s i m
    rw [ha, hval] at hfields
    rw [busResponseUpdate, if_pos hrsp]
    obtain ⟨hv, hb, hcnt, hrep, -, hs, he⟩ := hfields
    have huntouched := h.untouched hval (by rw [hst]; cases a <;> decide)
      (by rw [hst]; cases a <;> decide)
    have hnoerror : m.error = false := by
      rw [Bool.eq_false_iff]
      intro herr
      have := (h.error hval).mp herr
      rw [hst] at this
      cases a <;> cases this
    constructor
    · intro hfree
      rw [hv] at hfree
      cases hfree
    · intro _
      rw [hs]
      cases i.busRespErrorI <;> cases a <;> decide
    · intro _
      rw [hcnt, hrep]
      exact h.count hval
    · intro _ _ _
      rw [hrep, huntouched]
    · intro _ hbyp
      rw [hb] at hbyp
      rw [hcnt, hs, hbypass hbyp]
      refine ⟨(h.bypass hval hbyp).1, ?_⟩
      cases i.busRespErrorI <;> decide
    · intro _ _
      rw [hs]
      cases i.busRespErrorI <;> cases a <;> decide
    · intro _ hp
      rw [hs] at hp
      exact absurd hp (by cases i.busRespErrorI <;> cases a <;> decide)
    · intro _
      rw [hs, he, hnoerror]
      cases i.busRespErrorI <;> cases a <;> decide
  · rw [busResponseUpdate_off hrsp]
    exact h

end UpdateOk

/-- A waiter leaves: the register is free after the last of them. -/
theorem replayUpdate_fields (h : s.replaysAt i k) :
    (s.replayUpdate i k (s.mshr k)).valid = !s.replayFinal ∧ (s.replayUpdate i k (s.mshr k)).state =
        (if s.replayFinal then .idle else (s.mshr k).state) ∧
      (s.replayUpdate i k (s.mshr k)).waiterCount =
        (if s.replayFinal then 0 else (s.mshr k).waiterCount) ∧
      (s.replayUpdate i k (s.mshr k)).replay =
        (if s.replayFinal then 0 else (s.mshr k).replay + 1) ∧
      (s.replayUpdate i k (s.mshr k)).bypass = (s.mshr k).bypass ∧
      (s.replayUpdate i k (s.mshr k)).error = (s.mshr k).error ∧
      (s.replayUpdate i k (s.mshr k)).postProbeState = (s.mshr k).postProbeState ∧
      (s.replayUpdate i k (s.mshr k)).lineAddr = (s.mshr k).lineAddr := by
  have hval : (!s.replayFinal && (s.mshr k).valid) = !s.replayFinal := by
    rw [(replaysAt_state h).1, Bool.and_true]
  rw [← hval, replayUpdate, if_pos h]
  cases s.replayCacheWrite i && k == s.replayMshr with
  | false => exact replayed_fields s k (s.mshr k)
  | true =>
    exact replayed_fields s k
      { s.mshr k with
        replayData := s.replayWriteData
        replayStrb := s.replayWriteStrb }

theorem replayUpdate_ok (h : (s.mshr k).Ok) : (s.replayUpdate i k (s.mshr k)).Ok := by
  by_cases hrep : s.replaysAt i k
  · obtain ⟨hval, hstate⟩ := replaysAt_state hrep
    obtain ⟨hv, hs, hcnt, hreplay, hb, he, -, -⟩ := replayUpdate_fields hrep
    cases hfinal : s.replayFinal with
    | true =>
      rw [hfinal] at hv hs hcnt hreplay
      have hno : ∀ {P : Prop}, (s.replayUpdate i k (s.mshr k)).valid → P := by
        intro P hval'
        rw [hv] at hval'
        cases hval'
      exact ⟨fun _ => ⟨hs, hcnt, hreplay⟩, hno, hno, hno, hno, hno, hno, hno⟩
    | false =>
      have hmore : (s.mshr k).replay + 1 < (s.mshr k).waiterCount := by
        have hk : k = s.replayMshr := by
          rw [replaysAt, and_eq_true, beq_iff_eq] at hrep
          exact hrep.2
        rw [replayFinal, decide_eq_false_iff_not, replayIndex, ← hk] at hfinal
        omega
      rw [hfinal] at hv hs hcnt hreplay
      constructor <;> rw [hv]
      · exact nofun
      · intro _
        rw [hs]
        exact h.busy hval
      · intro _
        rw [hcnt, hreplay]
        exact ⟨hmore, (h.count hval).2⟩
      · intro _ hne hne'
        rw [hs] at hne hne'
        exact absurd hstate (not_or.mpr ⟨hne, hne'⟩)
      · intro _ hbyp
        rw [hb] at hbyp
        rw [hcnt, hs]
        exact h.bypass hval hbyp
      · intro _ hbyp
        rw [hb] at hbyp
        rw [hs]
        exact h.fill hval hbyp
      · intro _ hp
        rw [hs] at hp
        rcases hstate with hst | hst <;> rw [hst] at hp <;> rcases hp with hp | hp <;> cases hp
      · intro _
        rw [he, hs]
        exact h.error hval
  · rw [replayUpdate_off hrep]
    exact h

theorem MshrsOk.mshr_step (hok : s.MshrsOk) (k : ℕ) : (s.mshrNext i k).Ok := by
  have h := hok.mshr k
  cases hval : (s.mshr k).valid with
  | false =>
    rw [mshrNext_free hok hval, allocUpdate]
    split_ifs with halloc
    · exact allocated_ok (allocates_iff.mp halloc).1 _
    · exact h
  | true =>
    have hmerged := mergeUpdate_ok (i := i) h
    have hv : (s.mergeUpdate i k (s.mshr k)).valid := by
      rw [mergeUpdate_valid, hval]
    rcases state_cases h hval with ⟨a, hs⟩ | ⟨a, hs⟩ | hs | hs
    · rw [mshrNext_need hok hval hs]
      exact busRequestUpdate_ok hmerged hv (by rw [mergeUpdate_state, hs])
        fun hreq => requestsAt_action hreq hs
    · rw [mshrNext_inflight hok hval hs]
      exact busResponseUpdate_ok hmerged hv (by rw [mergeUpdate_state, hs])
        fun hrsp => answeredAt_action hok.track hrsp hs
    · rw [mshrNext_replay hok hval hs]
      exact replayUpdate_ok h
    · rw [mshrNext_probe hok hval hs]
      exact probeUpdate_ok hmerged hv (by rw [mergeUpdate_state]; exact hs)
        (mergeUpdate_postProbeState s i k _)

/-! ## Which registers are in use, and which wait for the bus -/

/-- The last waiter of register `k` leaves. -/
def FreedAt (s : L2State p) (i : L2Input p) (k : ℕ) : Prop :=
  s.replaysAt i k = true ∧ s.replayFinal = true

section Use

variable (hok : s.MshrsOk)

include hok

theorem next_valid_of_valid (hval : (s.mshr k).valid) :
    (s.mshrNext i k).valid ↔ ¬ s.FreedAt i k := by
  have hv : (s.mergeUpdate i k (s.mshr k)).valid := by rw [mergeUpdate_valid, hval]
  have hno : (s.mshr k).state ≠ .replay → (s.mshr k).state ≠ .error → ¬ s.FreedAt i k :=
    fun h1 h2 hfreed => (replaysAt_state hfreed.1).2.elim h1 h2
  rcases state_cases (hok.mshr k) hval with ⟨a, hs⟩ | ⟨a, hs⟩ | hs | hs
  · rw [mshrNext_need hok hval hs, busRequestUpdate]
    refine iff_of_true (by split <;> exact hv) (hno ?_ ?_) <;> rw [hs] <;> cases a <;> decide
  · rw [mshrNext_inflight hok hval hs, busResponseUpdate]
    refine iff_of_true ?_ (hno ?_ ?_)
    · split_ifs
      · rw [(answered_fields s i _).1, hv]
      · exact hv
    all_goals
      rw [hs]
      cases a <;> decide
  · rw [mshrNext_replay hok hval hs]
    by_cases hrep : s.replaysAt i k
    · rw [(replayUpdate_fields hrep).1, Bool.not_eq_true']
      constructor
      · rintro hmore ⟨-, hfinal⟩
        rw [hmore] at hfinal
        cases hfinal
      · intro hnot
        rw [Bool.eq_false_iff]
        exact fun hfinal => hnot ⟨hrep, hfinal⟩
    · rw [replayUpdate_off hrep]
      exact iff_of_true hval fun h => hrep h.1
  · rw [mshrNext_probe hok hval hs, probeUpdate]
    refine iff_of_true (by split <;> split <;> exact hv) (hno ?_ ?_) <;>
      rcases hs with hs | hs <;> rw [hs] <;> decide

theorem next_valid : (s.mshrNext i k).valid ↔
    s.allocates i k ∨ ((s.mshr k).valid ∧ ¬ s.FreedAt i k) := by
  cases hval : (s.mshr k).valid with
  | false =>
    rw [mshrNext_free hok hval, allocUpdate]
    split_ifs with halloc
    · exact iff_of_true (allocated_valid s i _) (.inl halloc)
    · rw [hval]
      exact iff_of_false Bool.false_ne_true fun h => h.elim halloc fun h => h.1.elim
  | true =>
    rw [next_valid_of_valid hok hval]
    constructor
    · exact fun h => .inr ⟨rfl, h⟩
    · rintro (halloc | h)
      · rw [(allocates_free halloc).2] at hval
        cases hval
      · exact h.2

theorem request_next (h : s.requestsAt i k) :
    (s.mshrNext i k).valid ∧ (s.mshrNext i k).state = s.busCandidateAction.inflight := by
  obtain ⟨hval, hs⟩ := requestsAt_state h
  rw [mshrNext_need hok hval hs, busRequestUpdate, if_pos h]
  exact ⟨by rw [mergeUpdate_valid, hval], rfl⟩

theorem inflight_next {a : BusAction} (hval : (s.mshr k).valid)
    (hs : (s.mshr k).state = a.inflight) (h : ¬ s.answeredAt i k) :
    (s.mshrNext i k).valid ∧ (s.mshrNext i k).state = a.inflight := by
  rw [mshrNext_inflight hok hval hs, busResponseUpdate_off h, mergeUpdate_valid, mergeUpdate_state]
  exact ⟨hval, hs⟩

/-- A register that waits for an answer has just issued its request, or went on waiting. -/
theorem inflight_of_next {a : BusAction} (hval' : (s.mshrNext i k).valid)
    (hs' : (s.mshrNext i k).state = a.inflight) :
    (s.requestsAt i k ∧ s.busCandidateAction = a) ∨
      ((s.mshr k).valid ∧ (s.mshr k).state = a.inflight ∧ ¬ s.answeredAt i k) := by
  cases hval : (s.mshr k).valid with
  | false =>
    exfalso
    rw [mshrNext_free hok hval, allocUpdate] at hval' hs'
    split_ifs at hval' hs' with halloc
    · rw [allocated_state] at hs'
      have hcases := allocState_cases (allocates_iff.mp halloc).1 (s.mshr k)
      split_ifs at hs'
      · cases a <;> cases hs'
      · rcases hcases with ⟨-, hc⟩ | ⟨-, hc | hc | hc⟩ <;> rw [hc] at hs' <;>
          cases a <;> cases hs'
    · rw [hval] at hval'
      cases hval'
  | true =>
  rcases state_cases (hok.mshr k) hval with ⟨b, hs⟩ | ⟨b, hs⟩ | hs | hs
  · rw [mshrNext_need hok hval hs] at hs'
    by_cases hreq : s.requestsAt i k
    · rw [busRequestUpdate, if_pos hreq] at hs'
      exact .inl ⟨hreq, inflight_injective hs'⟩
    · exfalso
      rw [busRequestUpdate_off hreq, mergeUpdate_state, hs] at hs'
      cases a <;> cases b <;> cases hs'
  · rw [mshrNext_inflight hok hval hs] at hs'
    by_cases hrsp : s.answeredAt i k
    · exfalso
      rw [busResponseUpdate, if_pos hrsp, (answered_fields s i _).2.2.2.2.2.1] at hs'
      split_ifs at hs' <;> cases a <;> cases hs'
    · rw [busResponseUpdate_off hrsp, mergeUpdate_state] at hs'
      exact .inr ⟨rfl, hs', hrsp⟩
  · exfalso
    rw [mshrNext_replay hok hval hs] at hs' hval'
    by_cases hrep : s.replaysAt i k
    · obtain ⟨hv, hst, -⟩ := replayUpdate_fields hrep
      rw [hv, Bool.not_eq_true'] at hval'
      rw [hst, hval'] at hs'
      rcases hs with hs | hs <;> rw [hs] at hs' <;> cases a <;> cases hs'
    · rw [replayUpdate_off hrep] at hs'
      rcases hs with hs | hs <;> rw [hs] at hs' <;> cases a <;> cases hs'
  exfalso
  obtain ⟨-, hbyp, hfill⟩ := (hok.mshr k).probe hval hs
  rw [mshrNext_probe hok hval hs, probeUpdate] at hs'
  split_ifs at hs'
  · have hpost : (s.mshr k).postProbeState = a.inflight := hs'
    cases hb : (s.mshr k).bypass with
    | true => rw [hbyp hb] at hpost; cases a <;> cases hpost
    | false =>
      rcases hfill hb with h | h | h <;> rw [h] at hpost <;> cases a <;> cases hpost
  · have hpost : (s.mshr k).postProbeState = a.inflight := hs'
    cases hb : (s.mshr k).bypass with
    | true => rw [hbyp hb] at hpost; cases a <;> cases hpost
    | false =>
      rcases hfill hb with h | h | h <;> rw [h] at hpost <;> cases a <;> cases hpost
  · cases a <;> cases hs'
  · rw [mergeUpdate_state] at hs'
    rcases hs with hs | hs <;> rw [hs] at hs' <;> cases a <;> cases hs'

end Use

end L2State

end OpenRV64
