/-
Which interrupt is taken.  The causes are tried in one fixed order while the destination of
each is programmable, so the choice is the architectural one as long as no S-mode interrupt
stands before a pending M-mode one.
-/
import OpenRV64.FirstChoice
import OpenRV64.TrapRegs

namespace OpenRV64

open FirstChoice
open BitVec (ofNat)

/-- The interrupts that can be pending, in the fixed order of one destination. -/
def irqCauses : List ℕ := [mipMeip, mipMsip, mipMtip, mipSeip, mipSsip, mipStip]

namespace TrapRegs

variable (r : TrapRegs) (i : CsrInput)

/-- The mode that handles an interrupt. -/
def irqDestination (cause : ℕ) : BitVec 2 :=
  if r.midelegQ.getLsbD cause then privS else privM

/-- A pending enabled interrupt that the current mode lets through. -/
def Takeable (cause : ℕ) : Prop :=
  (r.mieQ.getLsbD cause = true ∧ (r.mipValue i).getLsbD cause = true) ∧
    if r.irqDestination cause = privM then
      r.privModeQ < privM ∨ (r.privModeQ = privM ∧ r.mstatusQ.getLsbD mstatusMie = true)
    else
      r.privModeQ = privU ∨ (r.privModeQ = privS ∧ r.mstatusQ.getLsbD mstatusSie = true)

instance (cause : ℕ) : Decidable (r.Takeable i cause) := inferInstanceAs (Decidable (_ ∧ ite _ _ _))

/-- The interrupt that goes first: the highest destination, and there the fixed order. -/
abbrev TakenFirst (cause : ℕ) : Prop :=
  IsHighest irqCauses (fun c => (r.irqDestination c).toNat) (r.Takeable i) cause

/-- A trap for `cause` enters the handler of the interrupt's destination. -/
def EntersDestination (cause : ℕ) : Prop :=
  ∀ (p : CsrParams) (s : CsrState p) (trap : CsrInput),
    s.regs.midelegQ = r.midelegQ → s.regs.privModeQ = r.privModeQ →
    trap.trapEnterI = true → trap.trapInterruptI = true → trap.trapCauseI = BitVec.ofNat 5 cause →
      (s.step trap).regs =
          (if r.irqDestination cause = privS then s.regs.enterS trap else s.regs.enterM trap) ∧
        (s.step trap).regs.privModeQ = r.irqDestination cause

/-- The interrupt request of the privileged architecture. -/
structure SelectsInterrupt : Prop where
  pending : r.irqPendingO i = true ↔ ∃ cause ∈ irqCauses, r.Takeable i cause
  cause : r.irqPendingO i = true → ∃ cause, r.irqCauseO i = BitVec.ofNat 5 cause ∧
    r.TakenFirst i cause ∧ r.EntersDestination cause

variable {r} {i}

theorem irqDestination_eq_privM (cause : ℕ) :
    r.irqDestination cause = privM ↔ r.midelegQ.getLsbD cause = false := by
  rw [irqDestination]
  cases r.midelegQ.getLsbD cause <;> decide

theorem takeable_iff (hmode : r.privModeQ ≠ 0b10) (cause : ℕ) :
    ((r.enabledPending i).getLsbD cause && r.irqEligible cause) ↔ r.Takeable i cause := by
  rw [Bool.and_eq_true, enabledPending, BitVec.getLsbD_and, Bool.and_eq_true, Takeable, irqEligible]
  apply and_congr_right'
  have hmodes := mode_of_ne_reserved hmode
  cases hdel : r.midelegQ.getLsbD cause with
  | true =>
    rw [if_pos rfl, if_neg (by rw [irqDestination_eq_privM, hdel]; decide)]
    rcases hmodes with h | h | h <;> rw [h] <;> simp [privM, privU, privS]
  | false =>
    rw [if_low, if_pos ((irqDestination_eq_privM cause).mpr hdel)]
    rcases hmodes with h | h | h <;> rw [h] <;> simp [privM, privU, privS]

/-- What is chosen is the first cause that passes the test. -/
theorem irqChoice_eq : r.irqChoice i =
    irqCauses.find? fun cause => (r.enabledPending i).getLsbD cause && r.irqEligible cause := rfl

theorem irqPendingO_iff (hmode : r.privModeQ ≠ 0b10) :
    r.irqPendingO i ↔ ∃ cause ∈ irqCauses, r.Takeable i cause := by
  rw [irqPendingO, irqChoice_eq, List.find?_isSome]
  simp only [takeable_iff hmode]

theorem irqCauseO_of_choice {cause : ℕ} (h : r.irqChoice i = some cause) :
    r.irqCauseO i = ofNat 5 cause := by
  rw [irqCauseO, h, Option.getD_some]

/-- The causes are told apart by their five-bit numbers. -/
theorem cause_injective : ∀ a ∈ irqCauses, ∀ b ∈ irqCauses, ofNat 5 a = ofNat 5 b → a = b := by
  decide

theorem cause_toNat {cause : ℕ} (h : cause ∈ irqCauses) : (ofNat 5 cause).toNat = cause := by
  revert cause
  decide

/-- An interrupt that the mode lets through is not above its destination. -/
theorem privModeQ_ne_of_takeable {cause : ℕ} (h : r.Takeable i cause)
    (hdel : r.midelegQ.getLsbD cause) : r.privModeQ ≠ privM := by
  have hdest : r.irqDestination cause ≠ privM := by
    rw [ne_eq, irqDestination_eq_privM, hdel]
    decide
  have hmode := h.2
  rw [if_neg hdest] at hmode
  rcases hmode with h | ⟨h, -⟩ <;> rw [h] <;> decide

theorem entersDestination {cause : ℕ} (hmem : cause ∈ irqCauses) (h : r.Takeable i cause) :
    r.EntersDestination cause := by
  intro p s trap hdeleg hpriv henter hinterrupt hcause
  have hdelegated : s.regs.trapDelegated trap = r.midelegQ.getLsbD cause := by
    rw [trapDelegated, if_pos hinterrupt, hcause, cause_toNat hmem, hdeleg, hpriv]
    cases hdel : r.midelegQ.getLsbD cause with
    | true =>
      have hbelow := privModeQ_ne_of_takeable h hdel
      rw [Bool.and_true, bne_iff_ne]
      exact hbelow
    | false => simp
  have hregs : (s.step trap).regs = s.regsStep trap := rfl
  rw [hregs, CsrState.regsStep, if_pos henter, hdelegated]
  cases hdel : r.midelegQ.getLsbD cause with
  | true =>
    have hdest : r.irqDestination cause = privS := by rw [irqDestination, if_pos hdel]
    rw [if_pos rfl, if_pos hdest, hdest]
    exact ⟨rfl, rfl⟩
  | false =>
    have hdest := (irqDestination_eq_privM cause).mpr hdel
    rw [if_low, hdest, if_neg (by decide)]
    exact ⟨rfl, rfl⟩

/-- The choice is the architectural one exactly when no takeable S-mode interrupt stands
before every takeable M-mode one. -/
theorem selectsInterrupt_iff (hmode : r.privModeQ ≠ 0b10) :
    r.SelectsInterrupt i ↔
      Ordered irqCauses (fun c => (r.irqDestination c).toNat) (r.Takeable i) := by
  have htest := takeable_iff (i := i) hmode
  constructor
  · intro h
    cases hchoice : r.irqChoice i with
    | none =>
      intro a ha _ _ haready
      have hpending := (irqPendingO_iff hmode).mpr ⟨a, ha, haready⟩
      rw [irqPendingO, hchoice] at hpending
      exact absurd hpending (by decide)
    | some chosen =>
      obtain ⟨cause, hcause, hfirst, -⟩ := h.cause (by rw [irqPendingO, hchoice]; rfl)
      rw [irqCauseO_of_choice hchoice] at hcause
      obtain ⟨hmem, -, -⟩ := first_of_find? hchoice
      obtain rfl := cause_injective chosen hmem cause hfirst.mem hcause
      exact (find?_isHighest_iff htest hchoice).mp hfirst
  · intro h
    refine ⟨irqPendingO_iff hmode, fun hpending => ?_⟩
    obtain ⟨chosen, hchoice⟩ := Option.isSome_iff_exists.mp hpending
    have hfirst := (find?_isHighest_iff htest hchoice).mpr h
    exact ⟨chosen, irqCauseO_of_choice hchoice, hfirst, entersDestination hfirst.mem hfirst.isReady⟩

/-- M-mode delegates the external interrupt of S-mode alone, enables it with the timer
interrupt of S-mode, and drops to U-mode. -/
def delegatedExternal : TrapRegs :=
  { mstatusQ := 0
    medelegQ := 0
    midelegQ := bitAt mipSeip
    mieQ := bitAt mipSeip ||| bitAt mipStip
    mtvecQ := 0
    mscratchQ := 0
    mepcQ := 0
    mcauseQ := 0
    mtvalQ := 0
    mipSwQ := bitAt mipStip
    stvecQ := 0
    sscratchQ := 0
    sepcQ := 0
    scauseQ := 0
    stvalQ := 0
    privModeQ := privU }

/-- A cycle with no access and one raised interrupt line. -/
def externalRaised (raised : Bool) : CsrInput where
  csrAddrI := 0
  csrWriteI := false
  csrOpI := 0
  csrWdataI := 0
  extensionCsrSelectedI := false
  extensionCsrValidI := false
  extensionCsrWritableI := false
  extensionCsrRdataI := 0
  extensionCsrWriteReadyI := false
  extensionMisaBitsI := 0
  extensionMstatusBitsI := 0
  extensionSstatusBitsI := 0
  trapEnterI := false
  trapInterruptI := false
  trapCauseI := 0
  trapPcI := 0
  trapTvalI := 0
  mretI := false
  sretI := false
  retireCountI := 0
  perfEventsI := 0
  irqSoftwareI := false
  irqTimerI := false
  irqExternalI := false
  irqSSoftwareI := false
  irqSTimerI := false
  irqSExternalI := raised

/-- With nothing but the timer pending, the request is the architectural one. -/
theorem selectsInterrupt_timer : delegatedExternal.SelectsInterrupt (externalRaised false) := by
  refine (selectsInterrupt_iff (by decide)).mpr ?_
  unfold Ordered Before
  decide

/-- With both pending, the delegated external interrupt goes before the timer interrupt
that M-mode kept for itself. -/
theorem not_selectsInterrupt_mixed :
    ¬ delegatedExternal.SelectsInterrupt (externalRaised true) := by
  intro h
  obtain ⟨cause, hcause, hfirst, -⟩ := h.cause (by decide)
  have hexternal : cause = mipSeip :=
    cause_injective cause hfirst.mem mipSeip (by decide) (hcause.symm.trans (by decide))
  have htimer : delegatedExternal.Takeable (externalRaised true) mipStip := by decide
  rcases hfirst.outranks mipStip (by decide) htimer (by rw [hexternal]; decide) with hlt | ⟨heq, -⟩
  · rw [hexternal] at hlt
    exact absurd hlt (by decide)
  · rw [hexternal] at heq
    exact absurd heq (by decide)

end TrapRegs

end OpenRV64
