/-
The probe tracker next to the transaction that its ports show: which harts have taken
their probe, and which of them have answered it.
-/
import OpenRV64.ProbeTracker
import OpenRV64.SyncRun

namespace OpenRV64

open ProbeTrackerState Sync
open Bool (not_eq_true false_eq_true toNat_true not_eq_true')

namespace ProbeTrackerState

variable {n : Nat} (s : ProbeTrackerState n)

def probeIdO (_ : Fin n) : BitVec 4 := s.probeIdQ
def probeCommandO (_ : Fin n) : BitVec 2 := s.commandQ
def probeCacheMaskO (_ : Fin n) : BitVec 2 := s.cacheMaskQ
def probeLineAddrO (_ : Fin n) : BitVec 64 := s.lineAddrQ
def doneValidO : Bool := s.doneValidQ
def doneProbeIdO : BitVec 4 := s.doneProbeIdQ
def protocolErrorO : Bool := s.protocolErrorQ

end ProbeTrackerState

/-- A transaction as the ports show it: what was started, the probes that each hart has
taken, and the harts that have answered theirs. -/
structure ProbeTx (n : Nat) where
  targets : HartVec n
  id : BitVec 4
  command : BitVec 2
  cacheMask : BitVec 2
  lineAddr : BitVec 64
  seen : Fin n → Nat
  answered : HartVec n

/-- The tracker and the transaction between its start and its done handshake. -/
structure ProbeTracked (n : Nat) extends ProbeTrackerState n where
  tx : Option (ProbeTx n)

namespace ProbeTracked

variable {n : Nat} (t : ProbeTracked n) (i : ProbeTrackerInput n)

/-- The probes that hart `h` has taken when this cycle is over. -/
def seenNow (x : ProbeTx n) (h : Fin n) : Nat :=
  x.seen h + (t.probeValidO h && i.probeReadyI h).toNat

/-- Hart `h` answers the probe of `x` that it has taken, for the first time. -/
def answers (x : ProbeTx n) (h : Fin n) : Bool :=
  i.probeAckValidI h && i.probeAckIdI h == x.id && x.targets h &&
    decide (0 < t.seenNow i x h) && !x.answered h

def advance (x : ProbeTx n) : ProbeTx n :=
  { x with
    seen := t.seenNow i x
    answered := fun h => x.answered h || t.answers i x h }

def started : ProbeTx n where
  targets := i.startTargetHartsI
  id := i.startProbeIdI
  command := i.startCommandI
  cacheMask := i.startCacheMaskI
  lineAddr := i.startLineAddrI
  seen := fun _ => 0
  answered := fun _ => false

def txStep : Option (ProbeTx n) :=
  if t.startFire i then some (started i)
  else if t.doneValidO && i.doneReadyI then none
  else t.tx.map (t.advance i)

end ProbeTracked

/-- The tracker from reset, with its transaction. -/
def probeTracked (n : Nat) : Circuit (ProbeTracked n) (ProbeTrackerInput n) where
  Init t := t.toProbeTrackerState = .reset n ∧ t.tx = none
  step t i := { t.toProbeTrackerState.step i with tx := t.txStep i }

/-- Without the acknowledgement of hart `h`. -/
def ProbeTrackerInput.withoutAck {n : Nat} (i : ProbeTrackerInput n) (h : Fin n) :
    ProbeTrackerInput n :=
  { i with probeAckValidI := fun k => if k = h then false else i.probeAckValidI k }

namespace ProbeTracked

variable {n : Nat} (t : ProbeTracked n) (i : ProbeTrackerInput n)

/-- Hart `h` acknowledges something other than the probe that it holds. -/
def Stray (h : Fin n) : Prop :=
  i.probeAckValidI h = true ∧ ∀ x, t.tx = some x → t.answers i x h = false

/-- One cycle of a transaction as it should be: every target takes one probe, and no
other hart any; completion is reported when each target has answered, and what else is
acknowledged changes nothing and is reported. -/
structure Complete : Prop where
  idle : t.tx = none → (∀ h, t.probeValidO h = false) ∧ t.doneValidO = false
  carries : ∀ x, t.tx = some x → ∀ h, t.probeValidO h = true →
    x.targets h = true ∧ x.seen h = 0 ∧ t.probeIdO h = x.id ∧
      t.probeCommandO h = x.command ∧ t.probeCacheMaskO h = x.cacheMask ∧
        t.probeLineAddrO h = x.lineAddr
  once : ∀ x, t.tx = some x → ∀ h, x.seen h ≤ (x.targets h).toNat
  done : ∀ x, t.tx = some x → t.doneValidO = true →
    t.doneProbeIdO = x.id ∧ ∀ h, x.targets h = true → x.seen h = 1 ∧ x.answered h = true
  completes : ∀ x, t.tx = some x → t.doneValidO = false →
    ((t.step i).doneValidO = true ↔ ∀ h, x.targets h = true → (t.advance i x).answered h = true)
  held : t.doneValidO = true → i.doneReadyI = false → (t.step i).doneValidO = true
  discards : ∀ h, t.Stray i h →
    { t.step i with protocolErrorQ := false } =
      { t.step (i.withoutAck h) with protocolErrorQ := false }
  reports : ∀ h, t.Stray i h → (t.step i).protocolErrorO = true

/-- No acknowledgement comes in the cycle of a start, unless the error flag is raised or
kept up for another reason. -/
def AckSafe : Prop :=
  t.startFire i = true → (∀ h, i.probeAckValidI h = false) ∨
    i.startLineAddrI &&& 0x3f ≠ 0 ∨ (t.protocolErrorQ = true ∧ i.protocolErrorClearI = false)

/-! ## What the tracker holds of the transaction -/

/-- What the tracker keeps of hart `h` is what the ports have shown. -/
structure Lane (x : ProbeTx n) (h : Fin n) : Prop where
  seen : x.seen h ≤ (x.targets h).toNat
  answered : x.answered h = true → x.seen h = 1
  issue : t.issuePendingQ h = (x.targets h && x.seen h == 0)
  ack : t.ackPendingQ h = (x.targets h && x.seen h == 1 && !x.answered h)

/-- The registers of the tracker belong to transaction `x`. -/
structure Holds (x : ProbeTx n) : Prop where
  id : t.probeIdQ = x.id
  command : t.commandQ = x.command
  cacheMask : t.cacheMaskQ = x.cacheMask
  lineAddr : t.lineAddrQ = x.lineAddr
  lane : ∀ h, t.Lane x h
  pending : t.busyQ = true → t.doneValidQ = false
  done : t.busyQ = false → t.doneValidQ = true ∧ t.doneProbeIdQ = x.id ∧
    ∀ h, t.issuePendingQ h = false ∧ t.ackPendingQ h = false

structure Inv : Prop where
  idle : t.tx = none → t.busyQ = false ∧ t.doneValidQ = false ∧ ∀ h, t.issuePendingQ h = false
  tracks : ∀ x, t.tx = some x → t.Holds x

variable {t : ProbeTracked n} {i : ProbeTrackerInput n} {x : ProbeTx n} {h : Fin n}

/-- A lane with nothing pending is that of a target that has answered, or of no target. -/
theorem Lane.settled (hl : t.Lane x h) (hissue : t.issuePendingQ h = false)
    (hack : t.ackPendingQ h = false) (htgt : x.targets h) : x.seen h = 1 ∧ x.answered h := by
  have hseen := hl.seen
  rw [hl.issue, htgt, Bool.true_and, beq_eq_false_iff_ne] at hissue
  rw [htgt, toNat_true] at hseen
  have hone : x.seen h = 1 := by omega
  rw [hl.ack, htgt, hone] at hack
  exact ⟨hone, by simpa using hack⟩

/-- The tracker takes an acknowledgement just when it is an answer. -/
theorem Lane.ackMatches (hl : t.Lane x h) (hid : t.probeIdQ = x.id) :
    t.ackMatches i h = t.answers i x h := by
  have hseen := hl.seen
  have hansd := hl.answered
  simp only [ProbeTrackerState.ackMatches, probeFire, answers, seenNow,
    probeValidO, hl.issue, hl.ack, hid]
  cases htgt : x.targets h
  · simp
  rw [htgt, toNat_true] at hseen
  rcases Nat.le_one_iff_eq_zero_or_eq_one.mp hseen with hz | hone
  · have hnot : x.answered h = false := by
      by_contra hcon
      rw [hansd (by simpa using hcon)] at hz
      cases hz
    cases hr : i.probeReadyI h <;> simp [hz, hnot]
  · cases ha : x.answered h <;> simp [hone, Bool.and_comm]

theorem Lane.advance (hl : t.Lane x h) (hid : t.probeIdQ = x.id) {t' : ProbeTracked n}
    (hissue : t'.issuePendingQ h = t.issuePendingD i h)
    (hack : t'.ackPendingQ h = t.ackPendingD i h) : t'.Lane (t.advance i x) h := by
  have hseen := hl.seen
  have hansd := hl.answered
  have hmatches := hl.ackMatches (i := i) hid
  rw [issuePendingD, probeFire, hl.issue] at hissue
  rw [ackPendingD, hmatches, probeFire, hl.issue, hl.ack] at hack
  cases htgt : x.targets h
  · rw [htgt] at hissue hack hseen
    have hz : x.seen h = 0 := by simpa using hseen
    have hnot : x.answered h = false := by
      by_contra hcon
      rw [hansd (by simpa using hcon)] at hz
      cases hz
    have hfire : t.probeValidO h = false := by
      rw [probeValidO, hl.issue, htgt, Bool.false_and]
    constructor <;>
      simp_all [ProbeTracked.advance, seenNow, answers]
  rw [htgt, toNat_true] at hseen
  have hval : t.probeValidO h = (x.seen h == 0) := by
    rw [probeValidO, hl.issue, htgt, Bool.true_and]
  rcases Nat.le_one_iff_eq_zero_or_eq_one.mp hseen with hz | hone
  · have hnot : x.answered h = false := by
      by_contra hcon
      rw [hansd (by simpa using hcon)] at hz
      cases hz
    cases hr : i.probeReadyI h <;> by_cases hsame : i.probeAckIdI h = x.id <;>
      constructor <;>
        simp_all [ProbeTracked.advance, seenNow, answers]
  · cases ha : x.answered h <;> by_cases hsame : i.probeAckIdI h = x.id <;>
      constructor <;>
        simp_all [ProbeTracked.advance, seenNow, answers]

theorem Inv.reset (hinit : (probeTracked n).Init t) : t.Inv := by
  obtain ⟨hst, htx⟩ := hinit
  constructor
  · intro _
    rw [hst]
    exact ⟨rfl, rfl, fun _ => rfl⟩
  · intro x hx
    rw [htx] at hx
    cases hx

/-- A transaction starts only when there is none. -/
theorem Inv.tx_of_start (hinv : t.Inv) (hstart : t.startFire i) : t.tx = none := by
  obtain ⟨-, hbsy, hdone⟩ := startFire_eq_true.mp hstart
  cases htx : t.tx with
  | none => rfl
  | some x =>
    have := ((hinv.tracks x htx).done hbsy).1
    rw [hdone] at this
    cases this

theorem started_holds (hstart : t.startFire i) : ((probeTracked n).step t i).Holds (started i) := by
  obtain ⟨-, -, hdone⟩ := startFire_eq_true.mp hstart
  constructor
  · simp [probeTracked, ProbeTrackerState.step, hstart, started]
  · simp [probeTracked, ProbeTrackerState.step, hstart, started]
  · simp [probeTracked, ProbeTrackerState.step, hstart, started]
  · simp [probeTracked, ProbeTrackerState.step, hstart, started]
  · intro h
    constructor <;> simp [probeTracked, ProbeTrackerState.step, hstart, started]
  · intro _
    simp [probeTracked, ProbeTrackerState.step, hstart, hdone]
  · intro hbsy
    simp [probeTracked, ProbeTrackerState.step, hstart] at hbsy

/-- A busy tracker stays with its transaction, and reports it when no lane is left. -/
theorem Holds.busy (hx : t.Holds x) (hbsy : t.busyQ) :
    ((probeTracked n).step t i).Holds (t.advance i x) := by
  have hstart : t.startFire i = false := by
    simp [startFire, startReadyO, hbsy]
  have hdone := hx.pending hbsy
  constructor
  · simpa [probeTracked, ProbeTrackerState.step, hstart, hbsy, advance] using hx.id
  · simpa [probeTracked, ProbeTrackerState.step, hstart, hbsy, advance] using hx.command
  · simpa [probeTracked, ProbeTrackerState.step, hstart, hbsy, advance] using hx.cacheMask
  · simpa [probeTracked, ProbeTrackerState.step, hstart, hbsy, advance] using hx.lineAddr
  · intro h
    apply (hx.lane h).advance hx.id
    · simp [probeTracked, ProbeTrackerState.step, hstart, hbsy]
    · simp [probeTracked, ProbeTrackerState.step, hstart, hbsy]
  · intro hnxt
    simp only [probeTracked, ProbeTrackerState.step, hstart, hbsy, false_eq_true,
      if_false, if_true, not_eq_true'] at hnxt ⊢
    rw [hnxt, hdone]
    rfl
  · intro hnxt
    simp only [probeTracked, ProbeTrackerState.step, hstart, hbsy, false_eq_true,
      if_false, if_true, Bool.not_eq_false'] at hnxt ⊢
    rw [if_pos hnxt, if_pos hnxt]
    rw [Bool.and_eq_true, not_eq_true', not_eq_true', any_eq_false, any_eq_false] at hnxt
    exact ⟨rfl, hx.id, fun h => ⟨hnxt.1 h, hnxt.2 h⟩⟩

theorem Holds.waits (hx : t.Holds x) (hbsy : t.busyQ = false) (hrdy : i.doneReadyI = false) :
    ((probeTracked n).step t i).Holds (t.advance i x) := by
  obtain ⟨hdone, hid, hquiet⟩ := hx.done hbsy
  have hstart : t.startFire i = false := by
    simp [startFire, startReadyO, hdone]
  constructor
  · simpa [probeTracked, ProbeTrackerState.step, hstart, hbsy, advance] using hx.id
  · simpa [probeTracked, ProbeTrackerState.step, hstart, hbsy, advance] using hx.command
  · simpa [probeTracked, ProbeTrackerState.step, hstart, hbsy, advance] using hx.cacheMask
  · simpa [probeTracked, ProbeTrackerState.step, hstart, hbsy, advance] using hx.lineAddr
  · intro h
    have hfire : t.probeFire i h = false := by
      simp [probeFire, (hquiet h).1]
    have hmat : t.ackMatches i h = false := by
      simp [ProbeTrackerState.ackMatches, hfire, (hquiet h).2]
    apply (hx.lane h).advance hx.id
    · simp [probeTracked, ProbeTrackerState.step, hstart, hbsy, issuePendingD, hfire]
    · simp [probeTracked, ProbeTrackerState.step, hstart, hbsy, ackPendingD, hfire, hmat]
  · intro hnxt
    simp [probeTracked, ProbeTrackerState.step, hstart, hbsy] at hnxt
  · intro _
    simpa [probeTracked, ProbeTrackerState.step, hstart, hbsy, hrdy, advance, hdone]
      using And.intro hid hquiet

theorem Inv.step (hinv : t.Inv) : ((probeTracked n).step t i).Inv := by
  by_cases hstart : t.startFire i
  · have htx : ((probeTracked n).step t i).tx = some (started i) := by
      simp [probeTracked, txStep, hstart]
    constructor
    · intro hnone
      rw [htx] at hnone
      cases hnone
    · intro x hx
      rw [htx, Option.some.injEq] at hx
      exact hx ▸ started_holds hstart
  rw [not_eq_true] at hstart
  cases htx : t.tx with
  | none =>
    obtain ⟨hbsy, hdone, hquiet⟩ := hinv.idle htx
    have hnone : ((probeTracked n).step t i).tx = none := by
      simp [probeTracked, txStep, hstart, htx, doneValidO]
    constructor
    · intro _
      simpa [probeTracked, ProbeTrackerState.step, hstart, hbsy, hdone] using hquiet
    · intro x hx
      rw [hnone] at hx
      cases hx
  | some x =>
    have hx := hinv.tracks x htx
    by_cases hbsy : t.busyQ
    · have hstay : ((probeTracked n).step t i).tx = some (t.advance i x) := by
        simp [probeTracked, txStep, hstart, htx, doneValidO, hx.pending hbsy]
      constructor
      · intro hnone
        rw [hstay] at hnone
        cases hnone
      · intro y hy
        rw [hstay, Option.some.injEq] at hy
        exact hy ▸ hx.busy hbsy
    rw [not_eq_true] at hbsy
    obtain ⟨hdone, -, hquiet⟩ := hx.done hbsy
    cases hrdy : i.doneReadyI with
    | true =>
      have hnone : ((probeTracked n).step t i).tx = none := by
        simp [probeTracked, txStep, hstart, doneValidO, hdone, hrdy]
      constructor
      · intro _
        simpa [probeTracked, ProbeTrackerState.step, hstart, hbsy, hrdy, hdone]
          using fun h => (hquiet h).1
      · intro y hy
        rw [hnone] at hy
        cases hy
    | false =>
      have hstay : ((probeTracked n).step t i).tx = some (t.advance i x) := by
        simp [probeTracked, txStep, hstart, htx, hrdy]
      constructor
      · intro hnone
        rw [hstay] at hnone
        cases hnone
      · intro y hy
        rw [hstay, Option.some.injEq] at hy
        exact hy ▸ hx.waits hbsy hrdy

theorem inv_of_run {past : Past (ProbeTracked n) (ProbeTrackerInput n)}
    (hrun : Run (probeTracked n) anyEnv past t) : t.Inv :=
  Run.stateInvariant (P := Inv) (fun _ => Inv.reset) (fun _ _ _ _ h => h.step) hrun

/-! ## A cycle of a transaction -/

theorem Holds.busy_of_not_done (hx : t.Holds x) (hdone : t.doneValidO = false) : t.busyQ := by
  by_contra hbsy
  have := (hx.done (by simpa using hbsy)).1
  rw [doneValidO, this] at hdone
  cases hdone

theorem Holds.idle_of_done (hx : t.Holds x) (hdone : t.doneValidO) : t.busyQ = false := by
  by_contra hbsy
  have := hx.pending (by simpa using hbsy)
  rw [doneValidO, this] at hdone
  cases hdone

/-- Completion is reported when every target has answered, and not before. -/
theorem Holds.completes (hx : t.Holds x) (hdone : t.doneValidO = false) :
    (t.step i).doneValidO ↔ ∀ h, x.targets h → (t.advance i x).answered h := by
  have hbsy := hx.busy_of_not_done hdone
  have hnxt := hx.busy hbsy (i := i)
  constructor
  · intro hval h htgt
    obtain ⟨-, -, hquiet⟩ := hnxt.done (hnxt.idle_of_done hval)
    exact ((hnxt.lane h).settled (hquiet h).1 (hquiet h).2 htgt).2
  · intro hall
    have hstart : t.startFire i = false := by
      simp [startFire, startReadyO, hbsy]
    have hissue : ∀ h, t.issuePendingD i h = false := by
      intro h
      have hlane := (hnxt.lane h).issue
      simp only [probeTracked, ProbeTrackerState.step, hstart, hbsy, false_eq_true,
        if_false, if_true] at hlane
      rw [hlane]
      by_cases htgt : x.targets h
      · rw [(hnxt.lane h).answered (hall h htgt)]
        exact Bool.and_false _
      · rw [not_eq_true] at htgt
        exact Bool.and_eq_false_iff.mpr (.inl htgt)
    have hack : ∀ h, t.ackPendingD i h = false := by
      intro h
      have hlane := (hnxt.lane h).ack
      simp only [probeTracked, ProbeTrackerState.step, hstart, hbsy, false_eq_true,
        if_false, if_true] at hlane
      rw [hlane]
      by_cases htgt : x.targets h
      · rw [hall h htgt, Bool.not_true, Bool.and_false]
      · rw [not_eq_true] at htgt
        have hoff : (t.advance i x).targets h = false := htgt
        rw [hoff, Bool.false_and, Bool.false_and]
    have hfinished : (!(t.issuePendingD i).any && !(t.ackPendingD i).any) := by
      rw [any_eq_false.mpr hissue, any_eq_false.mpr hack]
      rfl
    simp [doneValidO, ProbeTrackerState.step, hstart, hbsy, hfinished]

/-- What the tracker does not take leaves no trace but the error flag. -/
theorem discards_of_not_matches (hmat : t.busyQ → t.ackMatches i h = false) :
    { t.step i with protocolErrorQ := false } =
      { t.step (i.withoutAck h) with protocolErrorQ := false } := by
  have hfire : ∀ k, t.probeFire (i.withoutAck h) k = t.probeFire i k := fun _ => rfl
  have hstart : t.startFire (i.withoutAck h) = t.startFire i := rfl
  have hissue : t.issuePendingD (i.withoutAck h) = t.issuePendingD i := rfl
  cases hs : t.startFire i with
  | true =>
    simp only [ProbeTrackerState.step, hstart, hs, if_true]
    rfl
  | false =>
  cases hbsy : t.busyQ with
  | false =>
    simp only [ProbeTrackerState.step, hstart, hs, hbsy, if_low]
    rfl
  | true =>
    have hack : t.ackPendingD (i.withoutAck h) = t.ackPendingD i := by
      funext k
      have hsame : t.ackMatches (i.withoutAck h) k = t.ackMatches i k := by
        by_cases hk : k = h
        · rw [hk, hmat hbsy]
          simp [ProbeTrackerState.ackMatches, ProbeTrackerInput.withoutAck]
        · have hval : (i.withoutAck h).probeAckValidI k = i.probeAckValidI k := if_neg hk
          rw [ProbeTrackerState.ackMatches, ProbeTrackerState.ackMatches, hval, hfire]
          rfl
      simp [ackPendingD, hsame, hfire]
    simp only [ProbeTrackerState.step, hstart, hs, hbsy, hissue, hack, if_low, if_true]
    rfl

theorem Inv.not_matches (hinv : t.Inv) (hstray : t.Stray i h) (hbsy : t.busyQ) :
    t.ackMatches i h = false := by
  cases htx : t.tx with
  | none =>
    rw [(hinv.idle htx).1] at hbsy
    cases hbsy
  | some x =>
    have hx := hinv.tracks x htx
    rw [(hx.lane h).ackMatches hx.id]
    exact hstray.2 x htx

/-- Outside the cycle of a start a stray acknowledgement raises the error flag. -/
theorem Inv.reports (hinv : t.Inv) (hstray : t.Stray i h) (hstart : t.startFire i = false) :
    (t.step i).protocolErrorO := by
  cases hbsy : t.busyQ with
  | true =>
    have hbad : t.badAck i h := by
      rw [badAck, hstray.1, hinv.not_matches hstray hbsy]
      rfl
    have hany : (t.badAck i).any := by
      by_contra hcon
      rw [not_eq_true, any_eq_false] at hcon
      rw [hcon h] at hbad
      cases hbad
    simp [protocolErrorO, ProbeTrackerState.step, hstart, hbsy, hany]
  | false =>
    have hany : HartVec.any i.probeAckValidI := by
      by_contra hcon
      rw [not_eq_true, any_eq_false] at hcon
      have := hstray.1
      rw [hcon h] at this
      cases this
    simp [protocolErrorO, ProbeTrackerState.step, hstart, hbsy, hany]

/-- In the cycle of a start the error flag does not depend on the acknowledgements. -/
theorem protocolErrorO_of_start (hstart : t.startFire i) :
    (t.step i).protocolErrorO ↔ i.startLineAddrI &&& 0x3f ≠ 0 ∨
        (t.protocolErrorQ ∧ i.protocolErrorClearI = false) := by
  cases hclr : i.protocolErrorClearI <;>
    simp [protocolErrorO, ProbeTrackerState.step, hstart, hclr]

theorem Inv.stray_of_start (hinv : t.Inv) (hstart : t.startFire i)
    (hack : i.probeAckValidI h) : t.Stray i h := by
  refine ⟨hack, fun x hx => ?_⟩
  rw [hinv.tx_of_start hstart] at hx
  cases hx

/-- In every cycle of every run the transaction goes on as it should just when no
acknowledgement is lost in the cycle of a start. -/
theorem complete_iff {past : Past (ProbeTracked n) (ProbeTrackerInput n)}
    (hrun : Run (probeTracked n) anyEnv past t) : t.Complete i ↔ t.AckSafe i := by
  have hinv := inv_of_run hrun
  constructor
  · intro hcomplete hstart
    by_cases hnone : ∀ h, i.probeAckValidI h = false
    · exact Or.inl hnone
    · obtain ⟨h, hack⟩ := not_forall.mp hnone
      have hstray := hinv.stray_of_start hstart (by simpa using hack)
      exact Or.inr ((protocolErrorO_of_start hstart).mp (hcomplete.reports h hstray))
  · intro hsafe
    constructor
    · intro htx
      obtain ⟨-, hdone, hquiet⟩ := hinv.idle htx
      exact ⟨hquiet, hdone⟩
    · intro x hx h hvalid
      have hholds := hinv.tracks x hx
      rw [probeValidO, (hholds.lane h).issue, Bool.and_eq_true,
        beq_iff_eq] at hvalid
      exact ⟨hvalid.1, hvalid.2, hholds.id, hholds.command, hholds.cacheMask, hholds.lineAddr⟩
    · exact fun x hx h => ((hinv.tracks x hx).lane h).seen
    · intro x hx hdone
      have hholds := hinv.tracks x hx
      obtain ⟨-, hid, hquiet⟩ := hholds.done (hholds.idle_of_done hdone)
      exact ⟨hid, fun h => (hholds.lane h).settled (hquiet h).1 (hquiet h).2⟩
    · exact fun x hx hdone => (hinv.tracks x hx).completes hdone
    · intro hdone hready
      rw [doneValidO] at hdone
      have hstart : t.startFire i = false := by
        simp [startFire, startReadyO, hdone]
      cases hbusy : t.busyQ <;>
        simp [doneValidO, ProbeTrackerState.step, hstart, hbusy, hdone, hready]
    · exact fun h hstray => discards_of_not_matches (hinv.not_matches hstray)
    · intro h hstray
      cases hstart : t.startFire i with
      | false => exact hinv.reports hstray hstart
      | true =>
        rcases hsafe hstart with hnone | herror
        · have hack := hstray.1
          rw [hnone h] at hack
          cases hack
        · exact (protocolErrorO_of_start hstart).mpr herror

/-! ## An acknowledgement in the cycle of a start -/

/-- Hart 1 acknowledges probe 7 while a transaction with hart 0 starts. -/
def strayAtStart : ProbeTrackerInput 2 where
  startValidI := true
  startTargetHartsI := fun h => h.val == 0
  startProbeIdI := 3
  startCommandI := 0
  startCacheMaskI := 0
  startLineAddrI := 0
  probeReadyI := fun _ => false
  probeAckValidI := fun h => h.val == 1
  probeAckIdI := fun _ => 7
  doneReadyI := false
  protocolErrorClearI := false

/-- It is neither taken nor reported. -/
theorem complete_fails :
    ¬ ∀ (n : Nat) past (t : ProbeTracked n) i,
      Run (probeTracked n) anyEnv past t → t.Complete i := by
  intro hcomplete
  have hrun : Run (probeTracked 2) anyEnv [] ⟨.reset 2, none⟩ := .reset ⟨rfl, rfl⟩
  have hstray : Stray ⟨.reset 2, none⟩ strayAtStart (Fin.last 1) := by
    refine ⟨rfl, fun x hx => ?_⟩
    cases hx
  have herror := (hcomplete 2 [] _ strayAtStart hrun).reports (Fin.last 1) hstray
  revert herror
  decide

/-- Without that acknowledgement the start is as it should be. -/
theorem complete_iff_start : Complete ⟨reset 2, none⟩ (strayAtStart.withoutAck (Fin.last 1)) := by
  have hrun : Run (probeTracked 2) anyEnv [] ⟨.reset 2, none⟩ := .reset ⟨rfl, rfl⟩
  refine (complete_iff hrun).mpr fun _ => Or.inl ?_
  decide

end ProbeTracked

end OpenRV64
