/-
Why every command is answered: a measure of the work that a visit has before it, which
no cycle raises and which no state of the home can keep for ever.
-/
import OpenRV64.HomePairing
import Mathlib.Algebra.Order.BigOperators.Group.Finset
import Mathlib.Data.Fintype.BigOperators

namespace OpenRV64

open Sync ProbeTrackerState SnoopFilterState
open HomeState (noConfusion)

/-! ## Probe lanes -/

namespace ProbeTrackerState

variable {n : ℕ} (s : ProbeTrackerState n) (i : ProbeTrackerInput n)

/-- The handshakes that the lane of a hart still waits for. -/
def laneWork (h : Fin n) : ℕ := 2 * (s.issuePendingQ h).toNat + (s.ackPendingQ h).toNat

/-- The handshakes before the transaction is reported as done. -/
def work : ℕ := if s.busyQ then 1 + ∑ h, s.laneWork h else 0

theorem laneWork_le (h : Fin n) : s.laneWork h ≤ 3 := by
  have hissue := Bool.toNat_le (s.issuePendingQ h)
  have hack := Bool.toNat_le (s.ackPendingQ h)
  rw [laneWork]
  omega

theorem work_le : s.work ≤ 3 * n + 1 := by
  rw [work]
  split
  · have hsum : ∑ h, s.laneWork h ≤ Finset.card (Finset.univ : Finset (Fin n)) • 3 :=
      Finset.sum_le_card_nsmul _ _ _ fun h _ => s.laneWork_le h
    rw [Finset.card_univ, Fintype.card_fin] at hsum
    change ∑ h, s.laneWork h ≤ n * 3 at hsum
    omega
  · exact Nat.zero_le _

variable {s i}

/-- The lane of a hart after an edge of a transaction in progress. -/
def laneAfter (s : ProbeTrackerState n) (i : ProbeTrackerInput n) (h : Fin n) : ℕ :=
  2 * (s.issuePendingD i h).toNat + (s.ackPendingD i h).toNat

theorem laneAfter_le (h : Fin n) : s.laneAfter i h ≤ s.laneWork h := by
  rw [laneAfter, laneWork, issuePendingD, ackPendingD]
  cases hfire : s.probeFire i h with
  | true =>
    have hissue : s.issuePendingQ h := (Bool.and_eq_true_iff.mp hfire).1
    cases s.ackMatches i h <;> simp [hissue]
    omega
  | false => cases s.ackMatches i h <;> simp

theorem laneAfter_lt {h : Fin n} (hmove : s.probeFire i h ∨
    s.ackMatches i h) : s.laneAfter i h < s.laneWork h := by
  rw [laneAfter, laneWork, issuePendingD, ackPendingD]
  cases hfire : s.probeFire i h with
  | true =>
    have hissue : s.issuePendingQ h := (Bool.and_eq_true_iff.mp hfire).1
    cases s.ackMatches i h <;> simp [hissue]
    omega
  | false =>
    have hmat : s.ackMatches i h := by simpa [hfire] using hmove
    have hack : s.ackPendingQ h := by
      simp only [ackMatches, hfire, Bool.or_false, Bool.and_eq_true] at hmat
      exact hmat.1.2
    simp [hmat, hack]

theorem work_step_of_busy (hbsy : s.busyQ) : (s.step i).work =
    if (s.step i).busyQ then 1 + ∑ h, s.laneAfter i h else 0 := by
  have hstart : s.startFire i = false := by simp [startFire, startReadyO, hbsy]
  rw [work]
  congr 2
  apply Finset.sum_congr rfl
  intro h _
  simp only [laneWork, laneAfter, step, hstart, hbsy, if_low, if_true]

theorem busyQ_step_of_busy (hbsy : s.busyQ) : (s.step i).busyQ =
    !(!(s.issuePendingD i).any && !(s.ackPendingD i).any) := by
  have hstart : s.startFire i = false := by simp [startFire, startReadyO, hbsy]
  simp only [step, hstart, hbsy, if_low, if_true]

/-- No edge but the start of a transaction raises the work. -/
theorem work_step_le (hstart : s.startFire i = false) : (s.step i).work ≤ s.work := by
  cases hbsy : s.busyQ with
  | true =>
    have hsum : ∑ h, s.laneAfter i h ≤ ∑ h, s.laneWork h :=
      Finset.sum_le_sum fun h _ => laneAfter_le h
    rw [work_step_of_busy hbsy, work, hbsy, if_pos rfl]
    split
    · omega
    · exact Nat.zero_le _
  | false =>
    rw [work, busyQ_step_of_idle hstart hbsy, if_low]
    exact Nat.zero_le _

/-- A transaction whose work stays the same exchanges nothing, and waits for some
hart. -/
theorem stands_of_work_eq (hbsy : s.busyQ) (hsame : (s.step i).work = s.work) :
    (s.step i).busyQ ∧ (∃ h, s.Outstanding h) ∧
      ∀ h, s.probeFire i h = false ∧ s.ackMatches i h = false := by
  have hwork : s.work = 1 + ∑ h, s.laneWork h := by rw [work, hbsy, if_pos rfl]
  have hnxt : (s.step i).busyQ := by
    by_contra hidle
    rw [work_step_of_busy hbsy, if_neg hidle, hwork] at hsame
    omega
  rw [work_step_of_busy hbsy, if_pos hnxt, hwork] at hsame
  have hstill : ∀ h, s.probeFire i h = false ∧ s.ackMatches i h = false := by
    intro h
    by_contra hmove
    have hless : ∑ h, s.laneAfter i h < ∑ h, s.laneWork h := by
      apply Finset.sum_lt_sum (fun h _ => laneAfter_le h)
      refine ⟨h, Finset.mem_univ h, laneAfter_lt ?_⟩
      rw [not_and_or, Bool.not_eq_false, Bool.not_eq_false] at hmove
      exact hmove
    omega
  refine ⟨hnxt, ?_, hstill⟩
  by_contra hnone
  rw [not_exists] at hnone
  rw [busyQ_step_of_busy hbsy, Bool.not_eq_true', Bool.and_eq_false_iff,
    Bool.not_eq_false', Bool.not_eq_false', HartVec.any, HartVec.any, decide_eq_true_eq,
    decide_eq_true_eq] at hnxt
  rcases hnxt with ⟨h, hissue⟩ | ⟨h, hack⟩
  · rw [issuePendingD, (hstill h).1, if_low] at hissue
    exact hnone h (.inl hissue)
  · rw [ackPendingD, (hstill h).1, (hstill h).2, if_low, if_low] at hack
    exact hnone h (.inr hack)

theorem lanes_of_still (hbsy : s.busyQ)
    (hstill : ∀ h, s.probeFire i h = false ∧ s.ackMatches i h = false) (h : Fin n) :
    (s.step i).issuePendingQ h = s.issuePendingQ h ∧
      (s.step i).ackPendingQ h = s.ackPendingQ h := by
  have hstart : s.startFire i = false := by simp [startFire, startReadyO, hbsy]
  simp only [step, hstart, hbsy, if_low, if_true, issuePendingD,
    ackPendingD, (hstill h).1, (hstill h).2]
  exact ⟨trivial, trivial⟩

end ProbeTrackerState

/-! ## The home and the units inside it -/

/-- The longest way from a state to the next command. -/
def HomeState.rank : HomeState → ℕ
  | .idle => 0
  | .resp => 1
  | .dirRecord => 2
  | .l2Resp => 3
  | .l2Wdata => 4
  | .l2Req => 5
  | .dirAllocate | .dirClear => 6
  | .evictProbeWait | .writeProbeWait => 7
  | .evictProbeStart | .writeProbeStart => 8
  | .dirWait => 9
  | .dirLookup => 10
  | .waitWdata => 11

theorem HomeState.rank_next {st st' : HomeState} (hidle : st ≠ .idle)
    (hnxt : st' ∈ st.next) : st' = st ∨ st'.rank < st.rank := by
  revert hidle hnxt
  cases st <;> cases st' <;> decide

namespace CoherentState

variable {p : CoherentParams}

def probing : HomeState → Bool
  | .evictProbeWait | .writeProbeWait => true
  | _ => false

/-- The directory answers when it is asked, and the tracker works for the home only. -/
structure HomeInner (s : CoherentState p) : Prop where
  initIdle : s.stateQ ≠ .idle → s.filter.initBusyQ = false
  answered : s.stateQ = .dirWait → s.filter.lookupResponseValidQ = true
  settled : s.tracker.Settled
  resting : probing s.stateQ = false → s.tracker.busyQ = false ∧ s.tracker.doneValidQ = false
  working : probing s.stateQ = true → s.tracker.busyQ = true ∨ s.tracker.doneValidQ = true

/-- What is left of a visit. -/
def visitWork (s : CoherentState p) : ℕ := s.stateQ.rank * (3 * p.numHarts + 2) + s.tracker.work

section Inner

variable {s : CoherentState p} {i : CoherentInput p}

theorem trackerStart_iff : (s.trackerInput i).startValidI ↔
    s.stateQ = .evictProbeStart ∨ s.stateQ = .writeProbeStart := by
  simp only [trackerInput, Bool.or_eq_true, beq_iff_eq]

theorem trackerDone_iff : (s.trackerInput i).doneReadyI = probing s.stateQ := by
  simp only [trackerInput]
  cases s.stateQ <;> rfl

theorem HomeInner.lookupReady (h : HomeInner s) (hst : s.stateQ = .dirLookup) :
    s.filter.lookupReadyO s.filterInput := by
  have hinit : s.filter.initBusyQ = false := h.initIdle (by simp [hst])
  simp [lookupReadyO, hinit, filterInput, hst]

theorem HomeInner.startReady (h : HomeInner s) (hst : s.stateQ = .evictProbeStart ∨
    s.stateQ = .writeProbeStart) : s.tracker.startReadyO := by
  have hrest := h.resting (by rcases hst with hs | hs <;> rw [hs] <;> rfl)
  simp [startReadyO, hrest]

/-- The tracker moves on its own while no start reaches it. -/
theorem tracker_step_of_noStart (hst : s.stateQ ≠ .evictProbeStart)
    (hst' : s.stateQ ≠ .writeProbeStart) : s.tracker.startFire (s.trackerInput i) = false := by
  apply Bool.eq_false_of_not_eq_true
  intro hfire
  rcases trackerStart_iff.mp (Bool.and_eq_true_iff.mp hfire).1 with hs | hs
  · exact hst hs
  · exact hst' hs

theorem stateQ_start (h : HomeInner s) (hst : s.stateQ = .evictProbeStart ∨
    s.stateQ = .writeProbeStart) : probing (s.step i).stateQ := by
  have hrdy := h.startReady hst
  rcases hst with hs | hs <;> simp [step, home, hs, hrdy, probing]

theorem stateQ_done (hst : probing s.stateQ) :
    probing (s.step i).stateQ = !s.tracker.doneValidQ := by
  cases hs : s.stateQ <;> rw [hs] at hst <;> cases hst <;>
    cases hdone : s.tracker.doneValidQ <;> simp [step, home, hs, hdone, probing]

theorem stateQ_rest (hst : probing s.stateQ = false)
    (hevict : s.stateQ ≠ .evictProbeStart) (hwr : s.stateQ ≠ .writeProbeStart) :
    probing (s.step i).stateQ = false := by
  have hnxt := stateQ_step_mem s i
  revert hnxt hst hevict hwr
  cases s.stateQ <;> cases (s.step i).stateQ <;> decide

theorem HomeInner.tracker_step (h : HomeInner s) : (probing (s.step i).stateQ = false →
      (s.step i).tracker.busyQ = false ∧ (s.step i).tracker.doneValidQ = false) ∧
    (probing (s.step i).stateQ → (s.step i).tracker.busyQ ∨ (s.step i).tracker.doneValidQ) := by
  have htracker : (s.step i).tracker = s.tracker.step (s.trackerInput i) := rfl
  by_cases hstart : s.stateQ = .evictProbeStart ∨ s.stateQ = .writeProbeStart
  · have hfire : s.tracker.startFire (s.trackerInput i) := by
      rw [startFire, h.startReady hstart, trackerStart_iff.mpr hstart]
      rfl
    rw [stateQ_start h hstart]
    refine ⟨fun hno => (by cases hno), fun _ => .inl ?_⟩
    simp only [htracker, ProbeTrackerState.step, hfire, if_true]
  rw [not_or] at hstart
  have hfire := tracker_step_of_noStart (i := i) hstart.1 hstart.2
  cases hprobing : probing s.stateQ with
  | false =>
    obtain ⟨hbsy, hdone⟩ := h.resting hprobing
    rw [stateQ_rest hprobing hstart.1 hstart.2]
    refine ⟨fun _ => ?_, fun hno => by cases hno⟩
    simp [htracker, ProbeTrackerState.step, hfire, hbsy, hdone]
  | true =>
    have hrdy : (s.trackerInput i).doneReadyI := trackerDone_iff.trans hprobing
    rw [stateQ_done hprobing]
    cases hdone : s.tracker.doneValidQ with
    | true =>
      have hbsy := h.settled.idle_of_done hdone
      refine ⟨fun _ => ?_, fun hno => by cases hno⟩
      simp [htracker, ProbeTrackerState.step, hfire, hbsy, hdone, hrdy]
    | false =>
      have hbsy : s.tracker.busyQ := (h.working hprobing).resolve_right (by simp [hdone])
      refine ⟨fun hno => (by cases hno), fun _ => ?_⟩
      simp only [htracker, ProbeTrackerState.step, hfire, hbsy, if_low, if_true]
      cases !(s.tracker.issuePendingD (s.trackerInput i)).any &&
        !(s.tracker.ackPendingD (s.trackerInput i)).any with
      | true => exact .inr rfl
      | false => exact .inl rfl

theorem HomeInner.step (h : HomeInner s) : HomeInner (s.step i) where
  initIdle hnxt := by
    apply initBusyQ_step
    by_cases hidle : s.stateQ = .idle
    · cases hfire : s.requestFire i with
      | true =>
        simp only [requestFire, reqReadyO, initBusyO, Bool.and_eq_true, Bool.not_eq_true'] at hfire
        exact hfire.2.1.2
      | false => simp [CoherentState.step, home, hidle, hfire] at hnxt
    · exact h.initIdle hidle
  answered hnxt := by
    change s.filter.lookupFire s.filterInput
    have hmem := stateQ_step_mem s i
    rw [hnxt] at hmem
    have hfrom : s.stateQ = .dirLookup ∨ s.stateQ = .dirWait := by
      revert hmem
      cases s.stateQ <;> decide
    rcases hfrom with hs | hs
    · rw [lookupFire, h.lookupReady hs]
      simp [filterInput, hs]
    exfalso
    have hval : s.filter.lookupResponseValidO := h.answered hs
    simp only [CoherentState.step, home, hs, hval, if_true, directoryResponse] at hnxt
    repeat' split at hnxt
    all_goals cases hnxt
  settled := h.settled.step _
  resting := h.tracker_step.1
  working := h.tracker_step.2

theorem homeInner_reset (powerUp : CoherentState p) : HomeInner powerUp.reset where
  initIdle hidle := absurd rfl hidle
  answered hwait := by cases hwait
  settled := settled_reset
  resting _ := ⟨rfl, rfl⟩
  working hno := by cases hno

/-! ## The measure -/

theorem visitWork_bound : s.visitWork < (s.stateQ.rank + 1) * (3 * p.numHarts + 2) := by
  have hwork := s.tracker.work_le
  rw [visitWork, Nat.add_mul, Nat.one_mul]
  omega

theorem visitWork_lt {s' : CoherentState p} (hrank : s'.stateQ.rank < s.stateQ.rank) :
    s'.visitWork < s.visitWork :=
  calc s'.visitWork < (s'.stateQ.rank + 1) * (3 * p.numHarts + 2) := visitWork_bound
    _ ≤ s.stateQ.rank * (3 * p.numHarts + 2) := Nat.mul_le_mul_right _ hrank
    _ ≤ s.visitWork := Nat.le_add_right _ _

/-- A state that starts a transaction of the tracker does not stay. -/
theorem startFire_of_stays (h : HomeInner s) (hsame : (s.step i).stateQ = s.stateQ) :
    s.tracker.startFire (s.trackerInput i) = false := by
  have hleaves : ¬ (s.stateQ = .evictProbeStart ∨ s.stateQ = .writeProbeStart) := by
    intro hstart
    have hnxt := stateQ_start (i := i) h hstart
    rw [hsame] at hnxt
    rcases hstart with hs | hs <;> rw [hs] at hnxt <;> cases hnxt
  rw [not_or] at hleaves
  exact tracker_step_of_noStart hleaves.1 hleaves.2

theorem visitWork_step_le (h : HomeInner s) (hidle : s.stateQ ≠ .idle) :
    (s.step i).visitWork ≤ s.visitWork := by
  rcases HomeState.rank_next hidle (stateQ_step_mem s i) with hsame | hrank
  · have hwork : (s.step i).tracker.work ≤ s.tracker.work :=
      work_step_le (startFire_of_stays h hsame)
    rw [visitWork, visitWork, hsame]
    exact Nat.add_le_add_left hwork _
  · exact (visitWork_lt hrank).le

theorem same_of_visitWork_eq (hidle : s.stateQ ≠ .idle)
    (hsame : (s.step i).visitWork = s.visitWork) :
    (s.step i).stateQ = s.stateQ ∧ (s.step i).tracker.work = s.tracker.work := by
  rcases HomeState.rank_next hidle (stateQ_step_mem s i) with hst | hrank
  · refine ⟨hst, ?_⟩
    rw [visitWork, visitWork, hst] at hsame
    exact Nat.add_left_cancel hsame
  · exact absurd hsame (visitWork_lt hrank).ne

/-! ## What ends each wait -/

/-- The handshake that the state of the home waits for takes place. -/
def Granted (s : CoherentState p) (i : CoherentInput p) : Prop :=
  match s.stateQ with
  | .waitWdata => i.wdataValidI = true
  | .l2Req => i.l2ReqReadyI = true
  | .l2Wdata => i.l2WdataReadyI = true
  | .l2Resp => i.l2RespValidI = true
  | .evictProbeWait | .writeProbeWait => s.tracker.doneValidQ = true
  | _ => True

theorem leaves_of_granted (h : HomeInner s) (hidle : s.stateQ ≠ .idle)
    (hrsp : s.stateQ ≠ .resp) (hgranted : s.Granted i) : (s.step i).stateQ ≠ s.stateQ := by
  have hmem : (s.step i).stateQ = (s.home i).stateQ := rfl
  rw [hmem]
  cases hs : s.stateQ <;> simp only [Granted, hs] at hgranted
  case idle => exact absurd hs hidle
  case resp => exact absurd hs hrsp
  case waitWdata =>
      simp only [home, hs, wdataFire, wdataReadyO, hgranted, beq_self_eq_true,
        Bool.and_self, if_true]
      split <;> exact noConfusion
  case dirLookup => simp [home, hs, h.lookupReady hs]
  case dirWait =>
      have hval : s.filter.lookupResponseValidO := h.answered hs
      simp only [home, hs, hval, if_true, directoryResponse]
      repeat' split
      all_goals exact noConfusion
  case evictProbeStart => simp [home, hs, h.startReady (.inl hs)]
  case writeProbeStart => simp [home, hs, h.startReady (.inr hs)]
  case evictProbeWait => simp [home, hs, hgranted]
  case writeProbeWait => simp [home, hs, hgranted]
  case dirAllocate => simp [home, hs]
  case dirClear => simp [home, hs]
  case l2Req =>
      simp only [home, hs, l2RequestFire, l2ReqValidO, hgranted, beq_self_eq_true,
        Bool.and_self, if_true]
      split <;> exact noConfusion
  case l2Wdata => simp [home, hs, l2WdataFire, l2WdataValidO, hgranted]
  case l2Resp =>
      simp only [home, hs, l2ResponseFire, l2RespReadyO, hgranted, beq_self_eq_true,
        Bool.and_self, if_true, l2Response]
      split <;> exact noConfusion
  case dirRecord => simp [home, hs]

theorem open_step (hidle : s.stateQ ≠ .idle) (hfire : s.responseFire i = false) :
    (s.step i).stateQ ≠ .idle := by
  intro hnxt
  have hmem := stateQ_step_mem s i
  rw [hnxt] at hmem
  have hrsp : s.stateQ = .resp := by
    revert hmem hidle
    cases s.stateQ <;> decide
  simp [step, home, hrsp, hfire] at hnxt

end Inner

/-! ## Progress -/

section Fairness

variable {env : Past (CoherentState p) (CoherentInput p) → CoherentState p → CoherentInput p → Prop}

/-- Nobody keeps the home waiting for ever: neither the requester of a beat or of a
response, nor L2, nor a hart that is probed. -/
structure Fair (b : Behaviour (coherentHome p) env) : Prop where
  data : ∀ n, ∃ m, n ≤ m ∧ ((b.state m).wdataReadyO = false ∨ (b.input m).wdataValidI = true)
  probe : ∀ h n, ∃ m, n ≤ m ∧
    ((b.state m).tracker.issuePendingQ h = false ∨ (b.input m).probeReadyI h = true)
  acknowledge : ∀ h n, ∃ m, n ≤ m ∧ ((b.state m).tracker.ackPendingQ h = false ∨
    ((b.input m).probeRespValidI h = true ∧ badProbeResponse (b.input m) h = false ∧
      (b.input m).probeRespIdI h = (b.state m).tracker.probeIdQ))
  l2Request : ∀ n, ∃ m, n ≤ m ∧ ((b.state m).l2ReqValidO = false ∨ (b.input m).l2ReqReadyI = true)
  l2Wdata : ∀ n, ∃ m, n ≤ m ∧ ((b.state m).l2WdataValidO = false ∨ (b.input m).l2WdataReadyI = true)
  l2Response : ∀ n, ∃ m, n ≤ m ∧
    ((b.state m).l2RespReadyO = false ∨ (b.input m).l2RespValidI = true)
  response : ∀ n, ∃ m, n ≤ m ∧ ((b.state m).respValidO = false ∨ (b.input m).respReadyI = true)

variable (b : Behaviour (coherentHome p) env)

theorem homeInner_at (n : ℕ) : HomeInner (b.state n) := by
  apply Run.stateInvariant (P := HomeInner) ?_ ?_ (b.run n)
  · rintro s ⟨powerUp, rfl⟩
    exact homeInner_reset powerUp
  · intro past s i _ h
    exact h.step

theorem tracker_next (n : ℕ) : (b.state (n + 1)).tracker =
    (b.state n).tracker.step ((b.state n).trackerInput (b.input n)) := by
  rw [b.next n]
  rfl

variable {b}

theorem probe_moves (hfair : Fair b) {m : ℕ} (hbsy : (b.state m).tracker.busyQ)
    (hsame : ∀ k, m ≤ k → (b.state (k + 1)).tracker.work = (b.state k).tracker.work) : False := by
  have hstands : ∀ k, m ≤ k → (b.state k).tracker.busyQ := by
    intro k hk
    induction k, hk using Nat.le_induction with
    | base => exact hbsy
    | succ k hk ih =>
      have hwork := hsame k hk
      rw [tracker_next b k] at hwork ⊢
      exact (stands_of_work_eq ih hwork).1
  have hstill : ∀ k, m ≤ k → ∀ h, (b.state k).tracker.probeFire
      ((b.state k).trackerInput (b.input k)) h = false ∧ (b.state k).tracker.ackMatches
        ((b.state k).trackerInput (b.input k)) h = false := by
    intro k hk
    have hwork := hsame k hk
    rw [tracker_next b k] at hwork
    exact (stands_of_work_eq (hstands k hk) hwork).2.2
  have hlanes : ∀ h k, m ≤ k →
      (b.state k).tracker.issuePendingQ h = (b.state m).tracker.issuePendingQ h ∧
        (b.state k).tracker.ackPendingQ h = (b.state m).tracker.ackPendingQ h := by
    intro h k hk
    induction k, hk using Nat.le_induction with
    | base => exact ⟨rfl, rfl⟩
    | succ k hk ih =>
      have hkept := lanes_of_still (hstands k hk) (hstill k hk) h
      rw [tracker_next b k]
      exact ⟨hkept.1.trans ih.1, hkept.2.trans ih.2⟩
  have hwork := hsame m (le_refl m)
  rw [tracker_next b m] at hwork
  obtain ⟨h, hout⟩ := (stands_of_work_eq hbsy hwork).2.1
  rcases hout with hissue | hack
  · obtain ⟨k, hk, hnone | hrdy⟩ := hfair.probe h m
    · rw [(hlanes h k hk).1, hissue] at hnone
      cases hnone
    · have hfire := (hstill k hk h).1
      rw [probeFire, (hlanes h k hk).1, hissue] at hfire
      exact Bool.false_ne_true (hfire.symm.trans hrdy)
  obtain ⟨k, hk, hnone | ⟨hval, hgood, hid⟩⟩ := hfair.acknowledge h m
  · rw [(hlanes h k hk).2, hack] at hnone
    cases hnone
  · have hmat := (hstill k hk h).2
    simp [ackMatches, trackerInput, hval, hgood, hid, (hlanes h k hk).2, hack] at hmat

/-- The state that the home waits in is left, or its response is taken. -/
theorem visit_moves (hfair : Fair b) {m : ℕ} (hidle : (b.state m).stateQ ≠ .idle)
    (hnone : ∀ k, m ≤ k → (b.state k).responseFire (b.input k) = false)
    (hsame : ∀ k, m ≤ k → (b.state k).stateQ = (b.state m).stateQ ∧
      (b.state (k + 1)).tracker.work = (b.state k).tracker.work) : False := by
  have hleft : ∀ k, m ≤ k → (b.state m).stateQ ≠ .resp →
      (b.state k).Granted (b.input k) → False := by
    intro k hk hrsp hgranted
    have hst := (hsame k hk).1
    apply leaves_of_granted (homeInner_at b k) (hst ▸ hidle) (hst ▸ hrsp) hgranted
    have hnxt := (hsame (k + 1) (hk.trans (Nat.le_succ k))).1
    rw [b.next k] at hnxt
    exact hnxt.trans hst.symm
  cases hs : (b.state m).stateQ with
  | idle => exact hidle hs
  | resp =>
    obtain ⟨k, hk, hshow | hrdy⟩ := hfair.response m
    · simp [respValidO, (hsame k hk).1, hs] at hshow
    · have hfire := hnone k hk
      simp [responseFire, respValidO, (hsame k hk).1, hs, hrdy] at hfire
  | waitWdata =>
    obtain ⟨k, hk, hshow | hval⟩ := hfair.data m
    · simp [wdataReadyO, (hsame k hk).1, hs] at hshow
    · apply hleft k hk (by simp [hs])
      rw [Granted, (hsame k hk).1, hs]
      exact hval
  | l2Req =>
    obtain ⟨k, hk, hshow | hrdy⟩ := hfair.l2Request m
    · simp [l2ReqValidO, (hsame k hk).1, hs] at hshow
    · apply hleft k hk (by simp [hs])
      rw [Granted, (hsame k hk).1, hs]
      exact hrdy
  | l2Wdata =>
    obtain ⟨k, hk, hshow | hrdy⟩ := hfair.l2Wdata m
    · simp [l2WdataValidO, (hsame k hk).1, hs] at hshow
    · apply hleft k hk (by simp [hs])
      rw [Granted, (hsame k hk).1, hs]
      exact hrdy
  | l2Resp =>
    obtain ⟨k, hk, hshow | hval⟩ := hfair.l2Response m
    · simp [l2RespReadyO, (hsame k hk).1, hs] at hshow
    · apply hleft k hk (by simp [hs])
      rw [Granted, (hsame k hk).1, hs]
      exact hval
  | evictProbeWait | writeProbeWait =>
    rcases (homeInner_at b m).working (by rw [hs]; rfl) with hbsy | hdone
    · exact probe_moves hfair hbsy fun k hk => (hsame k hk).2
    · apply hleft m (le_refl m) (by simp [hs])
      rw [Granted, hs]
      exact hdone
  | dirLookup | dirWait | evictProbeStart | writeProbeStart | dirAllocate | dirClear
  | dirRecord =>
    apply hleft m (le_refl m) (by simp [hs])
    rw [Granted, hs]
    trivial

/-- A visit in progress comes to its response. -/
theorem eventually_responseFire (hfair : Fair b) {n : ℕ} (hopen : (b.state n).stateQ ≠ .idle) :
    ∃ m, n ≤ m ∧ (b.state m).responseFire (b.input m) := by
  by_contra hnever
  have hnone : ∀ m, n ≤ m → (b.state m).responseFire (b.input m) = false := by
    intro m hm
    refine eq_false_of_ne_true fun hfire => ?_
    exact absurd ⟨m, hm, hfire⟩ hnever
  have hopen : ∀ m, n ≤ m → (b.state m).stateQ ≠ .idle := by
    intro m hm
    induction m, hm using Nat.le_induction with
    | base => exact hopen
    | succ m hm ih =>
      rw [b.next m]
      exact open_step ih (hnone m hm)
  obtain ⟨-, -, hfalse⟩ := eventually_of_variant (n := n) (fun _ => False)
    (fun m => (b.state m).visitWork)
    (fun m hm _ => by
      rw [b.next m]
      exact visitWork_step_le (homeInner_at b m) (hopen m hm))
    (fun m hm hsame => by
      have hkept : ∀ k, m ≤ k → (b.state (k + 1)).stateQ = (b.state k).stateQ ∧
          (b.state (k + 1)).tracker.work = (b.state k).tracker.work := by
        intro k hk
        have hwork := (hsame (k + 1) (hk.trans (Nat.le_succ k))).2.trans (hsame k hk).2.symm
        rw [b.next k] at hwork ⊢
        exact same_of_visitWork_eq (hopen k (hm.trans hk)) hwork
      apply visit_moves hfair (hopen m hm) fun k hk => hnone k (hm.trans hk)
      intro k hk
      refine ⟨?_, (hkept k hk).2⟩
      induction k, hk using Nat.le_induction with
      | base => rfl
      | succ k hk ih => exact (hkept k hk).1.trans ih)
  exact hfalse

/-- The response of the cycle `m` answers the command of the cycle `n`: it carries the
command's identity, and no other command or response comes between them. -/
structure Answers (b : Behaviour (coherentHome p) env) (n m : ℕ) : Prop where
  later : n < m
  fire : (b.state m).responseFire (b.input m) = true
  ids : (b.state m).responseOf.ids = (commandOf (b.input n)).ids
  first : ∀ k, n < k → k < m → (b.state k).responseFire (b.input k) = false ∧
    (b.state k).requestFire (b.input k) = false

theorem idle_of_requestFire {s : CoherentState p} {i : CoherentInput p}
    (h : s.requestFire i) : s.stateQ = .idle := by
  simp only [requestFire, reqReadyO, Bool.and_eq_true, beq_iff_eq] at h
  exact h.2.1.1

/-- Every accepted command is answered by one response. -/
theorem answers_unique (hfair : Fair b) {n : ℕ}
    (hfire : (b.state n).requestFire (b.input n)) : ∃! m, Answers b n m := by
  have hat := HomeOpen.at_of_requestFire (idle_of_requestFire hfire) hfire
  have hnxt : b.state (n + 1) = (b.state n).step (b.input n) := b.next n
  rw [← hnxt] at hat
  have hresponse := eventually_responseFire hfair hat.notIdle
  obtain ⟨m, hm, hrsp, hopen, hfst⟩ := exists_first hresponse
    (fun k => (b.state k).stateQ ≠ .idle ∧
      (b.state k).requestIds = (commandOf (b.input n)).ids) ⟨hat.notIdle, hat.ids⟩ (by
    rintro k - hnone ⟨hidle, hids⟩
    have hstep : b.state (k + 1) = (b.state k).step (b.input k) := b.next k
    rw [hstep]
    exact ⟨open_step hidle (Bool.eq_false_of_not_eq_true hnone),
      (sameCommand_step hidle).ids.trans hids⟩)
  refine ⟨m, ⟨hm, hrsp, hopen.2, fun k hk hlast => ?_⟩, fun m' hanswers => ?_⟩
  · obtain ⟨hnone, hidle, -⟩ := hfst k hk hlast
    refine ⟨Bool.eq_false_of_not_eq_true hnone, Bool.eq_false_of_not_eq_true fun hreq => ?_⟩
    exact hidle (idle_of_requestFire hreq)
  · exact first_unique hanswers.later hm hanswers.fire hrsp
      (fun k hk hlast => ne_true_of_eq_false (hanswers.first k hk hlast).1)
      fun k hk hlast => (hfst k hk hlast).1

/-- Every run is a sequence of complete visits and the beginning of one more: a command,
its own data beat, one L2 request or none, and its response.  Every command is answered
once where nobody keeps the home waiting for ever. -/
theorem commands_paired (b : Behaviour (coherentHome p) env) :
    (∀ n, Paired (b.past n) (b.state n)) ∧
      (Fair b → ∀ n, (b.state n).requestFire (b.input n) = true → ∃! m, Answers b n m) :=
  ⟨fun n => paired_of_run ((b.run n).mono fun _ _ _ _ => trivial),
    fun hfair _ hfire => answers_unique hfair hfire⟩

end Fairness

/-! ## A served store -/

section Example

/-- The home starts up, takes one store and then stays idle with prompt surroundings. -/
def servedStore (n : ℕ) : CoherentInput twoWayParams :=
  (demoInputs twoWayParams (command _ 0 icxOpWrite icxAttrCacheable 0x40 0)).getD n
    (promptInput _ 0 icxSourceDcache)

def storeBehaviour : Behaviour (coherentHome twoWayParams) anyEnv :=
  .ofInputs servedStore (powerUpZero_init _) fun _ => trivial

theorem servedStore_prompt {n : ℕ} (hn : 3 ≤ n) :
    servedStore n = promptInput _ 0 icxSourceDcache := by
  rw [servedStore, List.getD_eq_getElem?_getD, List.getElem?_eq_none hn]
  rfl

theorem storeBehaviour_idle {n : ℕ} (hn : 12 ≤ n) : (storeBehaviour.state n).stateQ = .idle := by
  induction n, hn using Nat.le_induction with
  | base => decide +kernel
  | succ n hn ih =>
    have hinput : storeBehaviour.input n = promptInput _ 0 icxSourceDcache :=
      servedStore_prompt (le_trans (by decide) hn)
    have hnone : (storeBehaviour.state n).requestFire (storeBehaviour.input n) = false := by
      rw [hinput]
      rfl
    rw [storeBehaviour.next n]
    simp only [coherentHome, step, home, ih, hnone, if_low]

theorem storeBehaviour_fair : Fair storeBehaviour := by
  have hinput : ∀ n, storeBehaviour.input (max n 12) = promptInput _ 0 icxSourceDcache :=
    fun n => servedStore_prompt (le_trans (by decide) (le_max_right n 12))
  refine ⟨fun n => ?_, fun h n => ?_, fun h n => ?_, fun n => ?_, fun n => ?_, fun n => ?_,
    fun n => ?_⟩
  all_goals refine ⟨max n 12, le_max_left n 12, ?_⟩
  · rw [hinput]
    exact .inr rfl
  · rw [hinput]
    exact .inr rfl
  · have hinner := homeInner_at storeBehaviour (max n 12)
    have hidle := storeBehaviour_idle (le_max_right n 12)
    have hquiet := hinner.settled.quiet (hinner.resting (by rw [hidle]; rfl)).1 h
    rw [Outstanding, not_or, Bool.not_eq_true, Bool.not_eq_true] at hquiet
    exact .inl hquiet.2
  all_goals
    rw [hinput]
    exact .inr rfl

theorem commands_paired_store :
    (∀ n, Paired (storeBehaviour.past n) (storeBehaviour.state n)) ∧
      ∃! m, Answers storeBehaviour 2 m :=
  ⟨(commands_paired storeBehaviour).1,
    (commands_paired storeBehaviour).2 storeBehaviour_fair 2 (by decide +kernel)⟩

end Example

end CoherentState

end OpenRV64
