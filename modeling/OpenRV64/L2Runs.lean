/-
The native L2 over whole runs: the transactions on the bus and the probe in progress always
belong to miss registers that wait for them, and the ways show the set of the lookup stage.
-/
import OpenRV64.L2Shape

namespace OpenRV64

open ProbeTrackerState
open Bool (and_eq_true)

/-- The fields that are set when a register is taken. -/
structure Mshr.Keeps {p : L2Params} (m m' : Mshr p) : Prop where
  bypass : m'.bypass = m.bypass
  place : m'.set = m.set ∧ m'.way = m.way
  tag : m'.tag = m.tag ∧ m'.pteGeneration = m.pteGeneration
  victim : m'.victimAddr = m.victimAddr ∧ m'.victimData = m.victimData ∧
    m'.victimStrb = m.victimStrb
  post : m'.postProbeState = m.postProbeState

theorem Mshr.Keeps.trans {p : L2Params} {m m' m'' : Mshr p} (h : m.Keeps m') (h' : m'.Keeps m'') :
    m.Keeps m'' where
  bypass := h'.bypass.trans h.bypass
  place := ⟨h'.place.1.trans h.place.1, h'.place.2.trans h.place.2⟩
  tag := ⟨h'.tag.1.trans h.tag.1, h'.tag.2.trans h.tag.2⟩
  victim := ⟨h'.victim.1.trans h.victim.1, h'.victim.2.1.trans h.victim.2.1,
    h'.victim.2.2.trans h.victim.2.2⟩
  post := h'.post.trans h.post

/-- The line that a register holds for its waiters. -/
def Mshr.payload {p : L2Params} (m : Mshr p) : SramPayload := ⟨m.replayData, m.replayStrb⟩

namespace L2State

open RingSegment

variable {p : L2Params} {s : L2State p} {i : L2Input p} {k : ℕ}

/-! ## The transactions on the bus -/

theorem track_push (h : s.busRequestFire i) :
    s.trackCountQ < p.busTrackEntries ∨ s.busResponseFire i := by
  rw [busRequestFire, busReqValidO, busTrackSpace, and_eq_true, and_eq_true,
    Bool.or_eq_true, decide_eq_true_iff] at h
  exact h.1.2

theorem track_pop (h : s.busResponseFire i) : 0 < s.trackCountQ := by
  rw [busResponseFire, busRespReadyO, and_eq_true, bne_iff_ne] at h
  exact Nat.pos_of_ne_zero h.2

/-- The transactions after an edge: those before it, less the one answered, and the new one. -/
theorem trackAt_step (h : s.TrackOk) {j : ℕ} (hj : j < (s.step i).trackCountQ) :
    (s.step i).trackAt j =
      if Pointers.before (s.busResponseFire i) j < s.trackCountQ then
        s.trackAt (Pointers.before (s.busResponseFire i) j)
      else (s.busCandidateMshr, s.busCandidateAction) :=
  h.pointers.read_step track_push track_pop s.track _ hj

theorem answeredAt_trackAt (h : s.TrackOk) (hansd : s.answeredAt i k) :
    s.busResponseFire i ∧ (s.trackAt 0).1 = k := by
  rw [answeredAt, and_eq_true, beq_iff_eq] at hansd
  rw [trackAt_zero h]
  exact ⟨hansd.1, hansd.2.symm⟩

/-- A transaction that stays in the queue is not the one answered. -/
theorem not_answered_of_before (h : s.TrackOk) {j : ℕ}
    (hj : Pointers.before (s.busResponseFire i) j < s.trackCountQ) :
    ¬ s.answeredAt i (s.trackAt (Pointers.before (s.busResponseFire i) j)).1 := by
  intro hansd
  obtain ⟨hfire, hz⟩ := answeredAt_trackAt h hansd
  have heq := h.once _ _ (track_pop hfire) hj hz
  rw [hfire, Pointers.before, if_pos rfl] at heq
  omega

theorem before_inj {pop : Bool} {j j' : ℕ} (h : Pointers.before pop j = Pointers.before pop j') :
    j = j' := by
  cases pop
  · exact h
  · exact Nat.succ_injective h

theorem need_ne_inflight {a b : BusAction} : a.need ≠ b.inflight := by
  cases a <;> cases b <;> decide

theorem occupancy_cases {j : ℕ} (hj : j < (s.step i).trackCountQ) :
    Pointers.before (s.busResponseFire i) j < s.trackCountQ ∨
      (Pointers.before (s.busResponseFire i) j = s.trackCountQ ∧ s.busRequestFire i) := by
  have hpop : s.busResponseFire i → 0 < s.trackCountQ := track_pop
  change j < occupancy s.trackCountQ (s.busRequestFire i) (s.busResponseFire i) at hj
  cases hpush : s.busRequestFire i <;> cases hrsp : s.busResponseFire i <;>
    simp [occupancy, Pointers.before, hpush, hrsp] at hj hpop ⊢ <;> omega

theorem request_at (h : s.busRequestFire i) : s.requestsAt i s.busCandidateMshr := by
  rw [requestsAt, h, beq_self_eq_true]
  rfl

theorem TrackOk.step (hok : s.MshrsOk) : (s.step i).TrackOk := by
  have h := hok.track
  have hnew : s.busRequestFire i →
      (s.mshr s.busCandidateMshr).state = s.busCandidateAction.need := fun hreq =>
    (requestsAt_state (request_at hreq)).2
  -- a register that is requested now had no transaction before
  have hfresh : s.busRequestFire i → ∀ j, j < s.trackCountQ →
      (s.trackAt j).1 ≠ s.busCandidateMshr := by
    intro hreq j hj heq
    have hst := (h.sound j hj).2
    rw [heq, hnew hreq] at hst
    exact need_ne_inflight hst
  refine ⟨h.pointers.step track_push track_pop, ?_, ?_, ?_⟩
  · intro j hj
    rw [trackAt_step h hj]
    rcases occupancy_cases hj with hlt | ⟨heq, hreq⟩
    · rw [if_pos hlt]
      obtain ⟨hval, hst⟩ := h.sound _ hlt
      exact inflight_next hok hval hst (not_answered_of_before h hlt)
    · rw [if_neg (by omega)]
      exact request_next hok (request_at hreq)
  · intro j j' hj hj' heq
    rw [trackAt_step h hj, trackAt_step h hj'] at heq
    rcases occupancy_cases hj with hlt | ⟨hend, hreq⟩
    · rcases occupancy_cases hj' with hlt' | ⟨hend', hreq'⟩
      · rw [if_pos hlt, if_pos hlt'] at heq
        exact before_inj (h.once _ _ hlt hlt' heq)
      · rw [if_pos hlt, if_neg (by omega)] at heq
        exact absurd heq (hfresh hreq' _ hlt)
    · rcases occupancy_cases hj' with hlt' | ⟨hend', hreq'⟩
      · rw [if_pos hlt', if_neg (by omega)] at heq
        exact absurd heq.symm (hfresh hreq _ hlt')
      · exact before_inj (hend.trans hend'.symm)
  · intro k a hval hst
    rcases inflight_of_next hok hval hst with ⟨hreq, haction⟩ | ⟨hold, hinfl, hnot⟩
    · have hfire : s.busRequestFire i ∧ k = s.busCandidateMshr := by
        rw [requestsAt, and_eq_true, beq_iff_eq] at hreq
        exact hreq
      have hcnt : ∃ j, j < (s.step i).trackCountQ ∧
          Pointers.before (s.busResponseFire i) j = s.trackCountQ := by
        change ∃ j < occupancy s.trackCountQ (s.busRequestFire i) (s.busResponseFire i), _
        rw [hfire.1]
        cases hrsp : s.busResponseFire i
        · exact ⟨s.trackCountQ, by simp [occupancy], rfl⟩
        · have hpos := track_pop hrsp
          refine ⟨s.trackCountQ - 1, by simp [occupancy]; omega, ?_⟩
          rw [Pointers.before, if_pos rfl]
          omega
      obtain ⟨j, hj, hbef⟩ := hcnt
      refine ⟨j, hj, ?_⟩
      rw [trackAt_step h hj, if_neg (by omega), haction, ← hfire.2]
    obtain ⟨j, hj, htrack⟩ := h.complete k a hold hinfl
    have hstay : ∃ j', j' < (s.step i).trackCountQ ∧
        Pointers.before (s.busResponseFire i) j' = j := by
      change ∃ j' < occupancy s.trackCountQ (s.busRequestFire i) (s.busResponseFire i), _
      cases hrsp : s.busResponseFire i
      · refine ⟨j, ?_, rfl⟩
        cases s.busRequestFire i <;> simp [occupancy] <;> omega
      have hne : j ≠ 0 := by
        rintro rfl
        apply hnot
        rw [answeredAt, hrsp, busResponseMshr, ← trackAt_zero h, htrack, beq_self_eq_true]
        rfl
      refine ⟨j - 1, ?_, by rw [Pointers.before, if_pos rfl]; omega⟩
      cases s.busRequestFire i <;> simp [occupancy] <;> omega
    obtain ⟨j', hj', rfl⟩ := hstay
    exact ⟨j', hj', by rw [trackAt_step h hj', if_pos hj, htrack]⟩

/-! ## The probe in progress -/

theorem tracker_step (h : p.enableCoherence) :
    (s.step i).tracker = s.tracker.step (s.trackerInput i) := by
  show (if p.enableCoherence then s.tracker.step (s.trackerInput i) else s.tracker) = _
  rw [if_pos h]

theorem startFire_eq (h : p.enableCoherence) :
    s.tracker.startFire (s.trackerInput i) = s.probeStartFire := by
  rw [startFire, probeStartFire, h]
  rfl

theorem probeStartsAt_candidate (h : s.probeStartFire) : s.probeStartsAt s.probeCandidateMshr := by
  rw [probeStartsAt, h, beq_self_eq_true]
  rfl

/-- A register whose probe is in progress goes on with it until the probe completes. -/
theorem probeInflight_next (hok : s.MshrsOk) (hval : (s.mshr k).valid)
    (hst : (s.mshr k).state = .probeInflight) :
    (s.mshrNext i k).valid ∧ (s.mshrNext i k).state =
      if s.probeDoneAt k then (s.mshr k).postProbeState else .probeInflight := by
  have hstart : ¬ s.probeStartsAt k := fun h => by
    rw [(probeStartsAt_state h).2] at hst
    cases hst
  rw [mshrNext_probe hok hval (.inr hst), probeUpdate, if_neg hstart]
  split_ifs
  · exact ⟨by rw [mergeUpdate_valid, hval], rfl⟩
  · exact ⟨by rw [mergeUpdate_valid, hval], by rw [mergeUpdate_state, hst]⟩

/-- A register that waits to be probed starts its probe, or goes on waiting. -/
theorem needProbe_next (hok : s.MshrsOk) (hval : (s.mshr k).valid)
    (hst : (s.mshr k).state = .needProbe) :
    (s.mshrNext i k).valid ∧ (s.mshrNext i k).state =
      if s.probeStartsAt k then .probeInflight else .needProbe := by
  have hdone : ¬ s.probeDoneAt k := fun h => by
    rw [(probeDoneAt_state hok.probe h).2] at hst
    cases hst
  rw [mshrNext_probe hok hval (.inl hst), probeUpdate, if_neg hdone]
  split_ifs
  · exact ⟨by rw [mergeUpdate_valid, hval], rfl⟩
  · exact ⟨by rw [mergeUpdate_valid, hval], by rw [mergeUpdate_state, hst]⟩

theorem postProbeState_cases (h : (s.mshr k).Ok) (hval : (s.mshr k).valid)
    (hprobe : (s.mshr k).state = .needProbe ∨ (s.mshr k).state = .probeInflight) :
    (s.mshr k).postProbeState = .needBypass ∨ (s.mshr k).postProbeState = .needWb ∨
      (s.mshr k).postProbeState = .needFill ∨ (s.mshr k).postProbeState = .replay := by
  obtain ⟨-, hbyp, hfill⟩ := h.probe hval hprobe
  cases hb : (s.mshr k).bypass
  · exact .inr (hfill hb)
  · exact .inl (hbyp hb)

theorem probeInflight_of_next (hok : s.MshrsOk) (hval' : (s.mshrNext i k).valid)
    (hstate' : (s.mshrNext i k).state = .probeInflight) :
    s.probeStartsAt k ∨ ((s.mshr k).valid ∧
      (s.mshr k).state = .probeInflight ∧ ¬ s.probeDoneAt k) := by
  cases hval : (s.mshr k).valid with
  | false =>
    exfalso
    rw [mshrNext_free hok hval, allocUpdate] at hval' hstate'
    split_ifs at hval' hstate' with halloc
    · rw [allocated_state] at hstate'
      have hcases := allocState_cases (allocates_iff.mp halloc).1 (s.mshr k)
      split_ifs at hstate'
      rcases hcases with ⟨-, hc⟩ | ⟨-, hc | hc | hc⟩ <;> rw [hc] at hstate' <;> cases hstate'
    · rw [hval] at hval'
      cases hval'
  | true =>
  rcases state_cases (hok.mshr k) hval with ⟨a, hs⟩ | ⟨a, hs⟩ | hs | hs | hs
  · exfalso
    rw [mshrNext_need hok hval hs, busRequestUpdate] at hstate'
    split_ifs at hstate'
    · revert hstate'
      cases s.busCandidateAction <;> exact fun h => by cases h
    · rw [mergeUpdate_state, hs] at hstate'
      cases a <;> cases hstate'
  · exfalso
    rw [mshrNext_inflight hok hval hs, busResponseUpdate] at hstate'
    split_ifs at hstate'
    · rw [(answered_fields s i _).2.2.2.2.2.1] at hstate'
      split_ifs at hstate'
    · rw [mergeUpdate_state, hs] at hstate'
      cases a <;> cases hstate'
  · exfalso
    rw [mshrNext_replay hok hval hs] at hstate' hval'
    by_cases hrep : s.replaysAt i k
    · obtain ⟨hv, hst, -⟩ := replayUpdate_fields hrep
      rw [hst] at hstate'
      split_ifs at hstate'
      rcases hs with hs | hs <;> rw [hs] at hstate' <;> cases hstate'
    · rw [replayUpdate_off hrep] at hstate'
      rcases hs with hs | hs <;> rw [hs] at hstate' <;> cases hstate'
  · rw [(needProbe_next hok hval hs).2] at hstate'
    split_ifs at hstate' with hstart
    exact .inl hstart
  rw [(probeInflight_next hok hval hs).2] at hstate'
  split_ifs at hstate' with hdone
  · exfalso
    rcases postProbeState_cases (hok.mshr k) hval (.inr hs) with h | h | h | h <;>
      rw [h] at hstate' <;> cases hstate'
  · exact .inr ⟨rfl, hs, hdone⟩

/-- A probe that is in progress stays so, or has completed. -/
theorem tracker_busy_step {n : ℕ} {t : ProbeTrackerState n} {j : ProbeTrackerInput n}
    (h : t.Settled) (hbsy : t.busyQ) :
    t.doneValidQ = false ∧ t.startFire j = false ∧ ((t.step j).busyQ ∨ (t.step j).doneValidQ) := by
  have hdone : t.doneValidQ = false := by
    rw [Bool.eq_false_iff]
    intro hd
    rw [h.idle_of_done hd] at hbsy
    cases hbsy
  have hstart : t.startFire j = false := by
    simp [startFire, startReadyO, hbsy]
  refine ⟨hdone, hstart, ?_⟩
  simp only [ProbeTrackerState.step, hstart, hbsy, if_low, if_true]
  cases !(t.issuePendingD j).any && !(t.ackPendingD j).any
  · exact .inl rfl
  · exact .inr rfl

/-- A tracker that does not start and has nothing in progress stays idle. -/
theorem tracker_idle_step {n : ℕ} {t : ProbeTrackerState n} {j : ProbeTrackerInput n}
    (hstart : t.startFire j = false) (hbsy : t.busyQ = false) (hrdy : j.doneReadyI) :
    (t.step j).busyQ = false ∧ (t.step j).doneValidQ = false := by
  simp [ProbeTrackerState.step, hstart, hbsy, hrdy]

theorem ProbeOk.step (hok : s.MshrsOk) : (s.step i).ProbeOk := by
  have h := hok.probe
  have hact : (s.step i).activeProbeMshrQ =
      if s.probeStartFire then s.probeCandidateMshr else s.activeProbeMshrQ := rfl
  refine ⟨?_, ?_, ?_⟩
  · show (if p.enableCoherence then s.tracker.step (s.trackerInput i) else s.tracker).Settled
    split_ifs
    · exact h.settled.step _
    · exact h.settled
  · intro hcoherent hprogress
    rw [tracker_step hcoherent] at hprogress
    cases hstart : s.probeStartFire
    · rw [← startFire_eq (i := i) hcoherent] at hstart
      cases hbsy : s.tracker.busyQ
      · obtain ⟨hb, hd⟩ := tracker_idle_step hstart hbsy rfl
        rw [hb, hd] at hprogress
        exact absurd hprogress (by decide)
      obtain ⟨hval, hst⟩ := h.active hcoherent (.inl hbsy)
      obtain ⟨hdone, -, -⟩ := tracker_busy_step (j := s.trackerInput i) h.settled hbsy
      rw [startFire_eq hcoherent] at hstart
      obtain ⟨hval', hst'⟩ := probeInflight_next (i := i) hok hval hst
      have hnot : s.probeDoneAt s.activeProbeMshrQ = false := by
        rw [probeDoneAt, probeCompletion, hdone, Bool.and_false, Bool.false_and]
      rw [hnot] at hst'
      rw [hact, hstart]
      exact ⟨hval', hst'⟩
    rw [hact, hstart]
    have hcand := probeStartsAt_candidate hstart
    obtain ⟨hval, hst⟩ := probeStartsAt_state hcand
    obtain ⟨hval', hst'⟩ := needProbe_next (i := i) hok hval hst
    rw [hcand] at hst'
    exact ⟨hval', hst'⟩
  · intro k hval' hst'
    rcases probeInflight_of_next hok hval' hst' with hstart | ⟨hval, hst, hnot⟩
    · rw [probeStartsAt, and_eq_true, beq_iff_eq] at hstart
      obtain ⟨-, -, -, hcoherent, -⟩ := probeStart_candidate hstart.1
      refine ⟨by rw [hact, hstart.1, hstart.2]; rfl, .inl ?_⟩
      rw [tracker_step hcoherent]
      have hfire : s.tracker.startFire (s.trackerInput i) := (startFire_eq hcoherent).trans hstart.1
      simp [ProbeTrackerState.step, hfire]
    have hcoherent := ((hok.mshr k).probe hval (.inr hst)).1
    obtain ⟨rfl, hprogress⟩ := h.only k hval hst
    have hbsy : s.tracker.busyQ := by
      rcases hprogress with hbsy | hdone
      · exact hbsy
      · exfalso
        apply hnot
        rw [probeDoneAt, probeCompletion, hcoherent, hdone, beq_self_eq_true]
        rfl
    obtain ⟨-, hstart, hprogress'⟩ := tracker_busy_step (j := s.trackerInput i) h.settled hbsy
    rw [startFire_eq hcoherent] at hstart
    rw [tracker_step hcoherent, hact, hstart]
    exact ⟨rfl, hprogress'⟩

theorem MshrsOk.step (hok : s.MshrsOk) : (s.step i).MshrsOk where
  mshr := hok.mshr_step
  bound k hval := by
    rcases (next_valid hok).mp hval with halloc | ⟨hval, -⟩
    · exact (allocates_free halloc).1
    · exact hok.bound k hval
  track := TrackOk.step hok
  probe := ProbeOk.step hok

theorem MshrsOk.of_reset (h : s.Reset) : s.MshrsOk where
  mshr k := by
    obtain ⟨hval, -, hst, ⟨hwaiters, hrep⟩, -⟩ := h.mshr k
    have hno : ∀ {P : Prop}, (s.mshr k).valid → P := fun hv => by
      rw [hval] at hv
      cases hv
    exact ⟨fun _ => ⟨hst, hwaiters, hrep⟩, hno, hno, hno, hno, hno, hno, hno⟩
  bound k hval := by
    rw [(h.mshr k).valid] at hval
    cases hval
  track := by
    obtain ⟨hhead, htail, hcnt⟩ := h.track
    have hdep := p.track_ok
    refine ⟨?_, ?_, ?_, ?_⟩
    · rw [hhead, htail, hcnt]
      exact Pointers.empty (by omega)
    · intro j hj
      rw [hcnt] at hj
      exact absurd hj (Nat.not_lt_zero j)
    · intro j j' hj
      rw [hcnt] at hj
      exact absurd hj (Nat.not_lt_zero j)
    · intro k a hval
      rw [(h.mshr k).valid] at hval
      cases hval
  probe := by
    refine ⟨by rw [h.tracker]; exact settled_reset, ?_, ?_⟩
    · intro _ hprogress
      rw [h.tracker] at hprogress
      simp [reset] at hprogress
    · intro k hval
      rw [(h.mshr k).valid] at hval
      cases hval

/-! ## What a register keeps while it is in use -/

theorem mergeUpdate_keeps (m : Mshr p) : m.Keeps (s.mergeUpdate i k m) := by
  rw [mergeUpdate]
  split_ifs <;> exact ⟨rfl, ⟨rfl, rfl⟩, ⟨rfl, rfl⟩, ⟨rfl, rfl, rfl⟩, rfl⟩

theorem probeUpdate_keeps (m : Mshr p) : m.Keeps (s.probeUpdate k m) := by
  rw [probeUpdate]
  split_ifs <;> exact ⟨rfl, ⟨rfl, rfl⟩, ⟨rfl, rfl⟩, ⟨rfl, rfl, rfl⟩, rfl⟩

theorem busRequestUpdate_keeps (m : Mshr p) : m.Keeps (s.busRequestUpdate i k m) := by
  rw [busRequestUpdate]
  split_ifs <;> exact ⟨rfl, ⟨rfl, rfl⟩, ⟨rfl, rfl⟩, ⟨rfl, rfl, rfl⟩, rfl⟩

theorem busResponseUpdate_keeps (m : Mshr p) : m.Keeps (s.busResponseUpdate i k m) := by
  rw [busResponseUpdate]
  split_ifs
  · rw [answered]
    cases i.busRespErrorI <;> cases s.busResponseAction <;>
      exact ⟨rfl, ⟨rfl, rfl⟩, ⟨rfl, rfl⟩, ⟨rfl, rfl, rfl⟩, rfl⟩
  · exact ⟨rfl, ⟨rfl, rfl⟩, ⟨rfl, rfl⟩, ⟨rfl, rfl, rfl⟩, rfl⟩

theorem replayUpdate_keeps (m : Mshr p) : m.Keeps (s.replayUpdate i k m) := by
  rw [replayUpdate, replayed]
  split_ifs <;> exact ⟨rfl, ⟨rfl, rfl⟩, ⟨rfl, rfl⟩, ⟨rfl, rfl, rfl⟩, rfl⟩

theorem mshrNext_keeps (hval : (s.mshr k).valid) : (s.mshr k).Keeps (s.mshrNext i k) := by
  rw [mshrNext_valid hval]
  exact (mergeUpdate_keeps _).trans <| (probeUpdate_keeps _).trans <|
    (busRequestUpdate_keeps _).trans <| (busResponseUpdate_keeps _).trans <| replayUpdate_keeps _

theorem mergeUpdate_payload (m : Mshr p) : (s.mergeUpdate i k m).payload = m.payload := by
  rw [mergeUpdate]
  split_ifs <;> rfl

theorem probeUpdate_payload (m : Mshr p) : (s.probeUpdate k m).payload = m.payload := by
  rw [probeUpdate]
  split_ifs <;> rfl

theorem busRequestUpdate_payload (m : Mshr p) : (s.busRequestUpdate i k m).payload = m.payload := by
  rw [busRequestUpdate]
  split_ifs <;> rfl

theorem busResponseUpdate_payload (m : Mshr p) : (s.busResponseUpdate i k m).payload =
    if s.answeredAt i k && s.busResponseAction == .fill && !i.busRespErrorI then
      ⟨i.busRespRdataI, .none⟩
    else m.payload := by
  rw [busResponseUpdate]
  cases hansd : s.answeredAt i k
  · rfl
  · rw [if_pos rfl, answered]
    cases i.busRespErrorI <;> cases s.busResponseAction <;> rfl

theorem replayUpdate_payload (m : Mshr p) : (s.replayUpdate i k m).payload =
    if s.replayCacheWrite i && k == s.replayMshr then ⟨s.replayWriteData, s.replayWriteStrb⟩
    else m.payload := by
  rw [replayUpdate, replayed]
  cases s.replayCacheWrite i && k == s.replayMshr <;> cases s.replaysAt i k <;>
    cases s.replayFinal <;> rfl

theorem mshrNext_payload (hval : (s.mshr k).valid) : (s.mshrNext i k).payload =
    if s.replayCacheWrite i && k == s.replayMshr then ⟨s.replayWriteData, s.replayWriteStrb⟩
    else if s.answeredAt i k && s.busResponseAction == .fill && !i.busRespErrorI then
      ⟨i.busRespRdataI, .none⟩
    else (s.mshr k).payload := by
  rw [mshrNext_valid hval, replayUpdate_payload, busResponseUpdate_payload,
    busRequestUpdate_payload, probeUpdate_payload, mergeUpdate_payload]

/-! ## A register that has just been taken -/

section Allocated

variable (m : Mshr p)

/-- A resident line that waits for a probe goes into the register with its way. -/
theorem allocated_hit (hbase : s.lookupBaseAction i = .hit) :
    (s.allocated i m).set = s.lookupSet ∧ (s.allocated i m).way = s.lookupHitWay ∧
      (s.allocated i m).payload = s.hitPayload := by
  have hplaced : (s.lookupBaseAction i == .hit) := beq_iff_eq.mpr hbase
  refine ⟨?_, ?_, ?_⟩ <;>
    simp only [allocated, allocProbe, apply_ite Mshr.set, apply_ite Mshr.way,
      Mshr.payload, apply_ite Mshr.replayData, apply_ite Mshr.replayStrb, hplaced, if_true,
      allocHit, ite_self]

/-- A line that is going to be fetched, and the victim of its way. -/
theorem allocated_alloc (hbase : s.lookupBaseAction i = .alloc) :
    (s.allocated i m).set = s.lookupSet ∧ (s.allocated i m).way = s.victimWay ∧
      (s.allocated i m).pteGeneration = s.pteGenerationQ ∧
      (s.allocated i m).victimAddr = p.lineOf s.victimTag s.lookupSet ∧
      (s.allocated i m).victimData = s.victimPayload.data ∧
      (s.allocated i m).victimStrb = s.victimPayload.strb := by
  have hhit : (s.lookupBaseAction i == .hit) = false := by
    rw [hbase]
    rfl
  have hplaced : (s.lookupBaseAction i == .alloc) := beq_iff_eq.mpr hbase
  refine ⟨?_, ?_, ?_, ?_, ?_, ?_⟩ <;>
    simp only [allocated, allocProbe, apply_ite Mshr.set, apply_ite Mshr.way,
      apply_ite Mshr.pteGeneration, apply_ite Mshr.victimAddr, apply_ite Mshr.victimData,
      apply_ite Mshr.victimStrb, hhit, hplaced, if_true, if_low, allocVictim, ite_self]

end Allocated

/-! ## How the state of a register moves -/

/-- The moves of a register that stays in use, each with the event that makes it. -/
inductive Moves (s : L2State p) (i : L2Input p) (k : ℕ) : MshrState → MshrState → Prop
  | stay (a : MshrState) (hrequest : ¬ s.requestsAt i k = true)
      (hanswer : ¬ s.answeredAt i k = true) : Moves s i k a a
  | probe : Moves s i k .needProbe .probeInflight
  | probed : Moves s i k .probeInflight (s.mshr k).postProbeState
  | request (a : BusAction) (hrequest : s.requestsAt i k = true)
      (haction : s.busCandidateAction = a) : Moves s i k a.need a.inflight
  | answer (a : BusAction) (hanswer : s.answeredAt i k = true)
      (haction : s.busResponseAction = a) (hok : i.busRespErrorI = false) :
      Moves s i k a.inflight (if a == .wb then .needFill else .replay)
  | error (a : BusAction) (hanswer : s.answeredAt i k = true)
      (haction : s.busResponseAction = a) (herror : i.busRespErrorI = true) :
      Moves s i k a.inflight .error

theorem mshr_next : (s.step i).mshr k = s.mshrNext i k := rfl

theorem mshrNext_moves (hok : s.MshrsOk) (hval : (s.mshr k).valid)
    (hval' : (s.mshrNext i k).valid) : s.Moves i k (s.mshr k).state (s.mshrNext i k).state := by
  rcases state_cases (hok.mshr k) hval with ⟨a, hs⟩ | ⟨a, hs⟩ | hs | hs | hs
  · have hans : ¬ s.answeredAt i k := not_response_of_state hok fun b => by
      rw [hs]
      exact need_ne_inflight
    rw [mshrNext_need hok hval hs, busRequestUpdate]
    split_ifs with hreq
    · rw [hs]
      have haction := requestsAt_action hreq hs
      rw [haction]
      exact .request a hreq haction
    · rw [mergeUpdate_state]
      exact .stay _ hreq hans
  · have hreq : ¬ s.requestsAt i k := not_request_of_state fun b => by
      rw [hs]
      exact need_ne_inflight.symm
    rw [mshrNext_inflight hok hval hs, busResponseUpdate]
    split_ifs with hans
    · rw [(answered_fields s i _).2.2.2.2.2.1, hs]
      have haction := answeredAt_action hok.track hans hs
      rw [haction]
      cases herr : i.busRespErrorI
      · exact .answer a hans haction herr
      · exact .error a hans haction herr
    · rw [mergeUpdate_state]
      exact .stay _ hreq hans
  · have hreq : ¬ s.requestsAt i k := not_request_of_state fun b => by
      rcases hs with hs | hs <;> rw [hs] <;> cases b <;> decide
    have hans : ¬ s.answeredAt i k := not_response_of_state hok fun b => by
      rcases hs with hs | hs <;> rw [hs] <;> cases b <;> decide
    rw [mshrNext_replay hok hval hs] at hval' ⊢
    by_cases hrep : s.replaysAt i k
    · obtain ⟨hv, hst, -⟩ := replayUpdate_fields hrep
      rw [hv, Bool.not_eq_true'] at hval'
      rw [hst, hval', if_low]
      exact .stay _ hreq hans
    · rw [replayUpdate_off hrep]
      exact .stay _ hreq hans
  · have hreq : ¬ s.requestsAt i k := not_request_of_state fun b => by
      rw [hs]
      cases b <;> decide
    have hans : ¬ s.answeredAt i k := not_response_of_state hok fun b => by
      rw [hs]
      cases b <;> decide
    rw [(needProbe_next hok hval hs).2, hs]
    split_ifs
    · exact .probe
    · exact .stay _ hreq hans
  have hreq : ¬ s.requestsAt i k := not_request_of_state fun b => by
    rw [hs]
    cases b <;> decide
  have hans : ¬ s.answeredAt i k := not_response_of_state hok fun b => by
    rw [hs]
    cases b <;> decide
  rw [(probeInflight_next hok hval hs).2, hs]
  split_ifs
  · exact .probed
  · exact .stay _ hreq hans

/-! ## The words that the ways show -/

/-- While a beat is in the lookup stage, each way shows the memories at the set of the beat. -/
def Shown (s : L2State p) : Prop := s.lookupValidQ = true → ∀ way, (s.way way).Shows s.lookupSet

theorem Shown.step (s : L2State p) (i : L2Input p) : (s.step i).Shown := by
  intro hval way
  have hset : (s.step i).lookupSet =
      if s.lookupCapture i then p.setOf s.cmdHeadEffectiveAddr else s.lookupSet := by
    show p.setOf (if s.lookupCapture i then s.capturedBeat else s.lookup).addr = _
    split_ifs <;> rfl
  have hread : (s.lookupCapture i || (s.lookupValidQ && !s.lookupDispatch i)) := by
    have hnxt : (if s.lookupCapture i then true
        else if s.lookupDispatch i then false else s.lookupValidQ) = true := hval
    cases hcapture : s.lookupCapture i
    · rw [hcapture] at hnxt
      cases hdisp : s.lookupDispatch i <;> simp_all
    · rfl
  show (s.wayNext i way).Shows (s.step i).lookupSet
  rw [wayNext, hread, hset]
  exact SramWay.shows_step_of_read _ _ _ _ _ _ _

end L2State

end OpenRV64
