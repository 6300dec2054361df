/-
One bounded invalidation transaction: a probe lane for each target hart, and
completion only once every target has accepted its probe and acknowledged it.
-/
import OpenRV64.SnoopFilter

namespace OpenRV64

structure ProbeTrackerState (numHarts : Nat) where
  busyQ : Bool
  doneValidQ : Bool
  doneProbeIdQ : BitVec 4
  protocolErrorQ : Bool
  issuePendingQ : HartVec numHarts
  ackPendingQ : HartVec numHarts
  probeIdQ : BitVec 4
  commandQ : BitVec 2
  cacheMaskQ : BitVec 2
  lineAddrQ : BitVec 64

structure ProbeTrackerInput (numHarts : Nat) where
  startValidI : Bool
  startTargetHartsI : HartVec numHarts
  startProbeIdI : BitVec 4
  startCommandI : BitVec 2
  startCacheMaskI : BitVec 2
  startLineAddrI : BitVec 64
  probeReadyI : HartVec numHarts
  probeAckValidI : HartVec numHarts
  probeAckIdI : Fin numHarts → BitVec 4
  doneReadyI : Bool
  protocolErrorClearI : Bool

namespace ProbeTrackerState

variable {n : Nat}

def startReadyO (s : ProbeTrackerState n) : Bool := !s.busyQ && !s.doneValidQ

def startFire (s : ProbeTrackerState n) (i : ProbeTrackerInput n) : Bool :=
  i.startValidI && s.startReadyO

def probeValidO (s : ProbeTrackerState n) : HartVec n := s.issuePendingQ

/-- Hart `h` takes its probe in this cycle. -/
def probeFire (s : ProbeTrackerState n) (i : ProbeTrackerInput n) (h : Fin n) : Bool :=
  s.issuePendingQ h && i.probeReadyI h

/-- Hart `h` acknowledges the probe it holds, or takes in this very cycle. -/
def ackMatches (s : ProbeTrackerState n) (i : ProbeTrackerInput n) (h : Fin n) : Bool :=
  i.probeAckValidI h && (s.ackPendingQ h || s.probeFire i h) && i.probeAckIdI h == s.probeIdQ

def issuePendingD (s : ProbeTrackerState n) (i : ProbeTrackerInput n) : HartVec n :=
  fun h => if s.probeFire i h then false else s.issuePendingQ h

/-- The acknowledgement is the later assignment, so it wins over the issue. -/
def ackPendingD (s : ProbeTrackerState n) (i : ProbeTrackerInput n) : HartVec n :=
  fun h =>
    if s.ackMatches i h then false
    else if s.probeFire i h then true
    else s.ackPendingQ h

def badAck (s : ProbeTrackerState n) (i : ProbeTrackerInput n) : HartVec n :=
  fun h => i.probeAckValidI h && !s.ackMatches i h

/-- One clock edge of `openrv64_icx_probe_tracker`. -/
def step (s : ProbeTrackerState n) (i : ProbeTrackerInput n) : ProbeTrackerState n :=
  let errorHeld := if i.protocolErrorClearI then false else s.protocolErrorQ
  let doneHeld := if s.doneValidQ && i.doneReadyI then false else s.doneValidQ
  if s.startFire i then
    { s with
      busyQ := true
      doneValidQ := doneHeld
      protocolErrorQ := (i.startLineAddrI &&& 0x3f != 0) || errorHeld
      issuePendingQ := i.startTargetHartsI
      ackPendingQ := fun _ => false
      probeIdQ := i.startProbeIdI
      commandQ := i.startCommandI
      cacheMaskQ := i.startCacheMaskI
      lineAddrQ := i.startLineAddrI }
  else if s.busyQ then
    let finished := !(s.issuePendingD i).any && !(s.ackPendingD i).any
    { s with
      busyQ := !finished
      doneValidQ := if finished then true else doneHeld
      doneProbeIdQ := if finished then s.probeIdQ else s.doneProbeIdQ
      protocolErrorQ := (s.badAck i).any || errorHeld
      issuePendingQ := s.issuePendingD i
      ackPendingQ := s.ackPendingD i }
  else
    { s with
      doneValidQ := doneHeld
      protocolErrorQ := HartVec.any i.probeAckValidI || errorHeld }

def reset (n : Nat) : ProbeTrackerState n where
  busyQ := false
  doneValidQ := false
  doneProbeIdQ := 0
  protocolErrorQ := false
  issuePendingQ := fun _ => false
  ackPendingQ := fun _ => false
  probeIdQ := 0
  commandQ := 0
  cacheMaskQ := 0
  lineAddrQ := 0

/-- Hart `h` has not yet acknowledged the probe in progress. -/
def Outstanding (s : ProbeTrackerState n) (h : Fin n) : Prop :=
  s.issuePendingQ h = true ∨ s.ackPendingQ h = true

/-- The lanes of an idle tracker are settled, and completion is reported only
by an idle tracker. -/
structure Settled (s : ProbeTrackerState n) : Prop where
  quiet : s.busyQ = false → ∀ h, ¬ s.Outstanding h
  idle_of_done : s.doneValidQ = true → s.busyQ = false

theorem any_eq_false {v : HartVec n} : v.any = false ↔ ∀ h, v h = false := by
  simp [HartVec.any]

section

variable {s : ProbeTrackerState n} {i : ProbeTrackerInput n}

theorem startFire_eq_true : s.startFire i ↔
      i.startValidI ∧ s.busyQ = false ∧ s.doneValidQ = false := by
  simp [startFire, startReadyO]

theorem settled_reset : (reset n).Settled where
  quiet := by simp [Outstanding, reset]
  idle_of_done := by simp [reset]

/-- A started transaction waits for every target. -/
theorem outstanding_step_of_start (hstart : s.startFire i) (h : Fin n) :
    (s.step i).Outstanding h ↔ i.startTargetHartsI h := by
  simp [Outstanding, step, hstart]

/-- A lane in flight stays in flight until its own acknowledgement. -/
theorem outstanding_step_of_busy {h : Fin n} (hbsy : s.busyQ) (hout : s.Outstanding h)
    (hack : s.ackMatches i h = false) : (s.step i).Outstanding h := by
  have hstart : s.startFire i = false := by simp [startFire, startReadyO, hbsy]
  simp only [Outstanding, step, hstart, hbsy, issuePendingD, ackPendingD, hack,
    Bool.false_eq_true, if_false, if_true]
  by_cases hfire : s.probeFire i h
  · simp [hfire]
  · simpa [hfire, Outstanding] using hout

theorem Settled.step (hs : s.Settled) (i : ProbeTrackerInput n) : (s.step i).Settled := by
  by_cases hstart : s.startFire i
  · obtain ⟨-, -, hdone⟩ := startFire_eq_true.mp hstart
    constructor <;> simp [ProbeTrackerState.step, hstart, hdone]
  by_cases hbsy : s.busyQ
  · have hdone : s.doneValidQ = false := by
      by_contra h
      have := hs.idle_of_done (by simpa using h)
      simp [hbsy] at this
    constructor
    · intro hidle h
      simp only [ProbeTrackerState.step, hstart, hbsy, Bool.false_eq_true,
        if_false, if_true, Bool.not_eq_false', Bool.and_eq_true,
        Bool.not_eq_true', any_eq_false] at hidle
      simp [ProbeTrackerState.step, hstart, hbsy, Outstanding, hidle.1 h, hidle.2 h]
    · simp only [ProbeTrackerState.step, hstart, hbsy, hdone,
        Bool.false_eq_true, if_false, if_true, Bool.false_and, Bool.if_true_left]
      simp
  simp only [Bool.not_eq_true] at hbsy
  constructor
  · intro _ h
    have := hs.quiet hbsy h
    simpa [ProbeTrackerState.step, hstart, hbsy, Outstanding] using this
  · simp [ProbeTrackerState.step, hstart, hbsy]

theorem busyQ_step_of_idle (hstart : s.startFire i = false) (hbsy : s.busyQ = false) :
    (s.step i).busyQ = false := by
  simp [step, hstart, hbsy]

end

@[simp] theorem lineAddrQ_step (s : ProbeTrackerState n)
    (i : ProbeTrackerInput n) : (s.step i).lineAddrQ =
      if s.startFire i then i.startLineAddrI else s.lineAddrQ := by
  simp only [step]
  split <;> [rfl; split <;> rfl]

@[simp] theorem cacheMaskQ_step (s : ProbeTrackerState n)
    (i : ProbeTrackerInput n) : (s.step i).cacheMaskQ =
      if s.startFire i then i.startCacheMaskI else s.cacheMaskQ := by
  simp only [step]
  split <;> [rfl; split <;> rfl]

end ProbeTrackerState

end OpenRV64
