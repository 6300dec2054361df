/-
What the pipelined rotator hands out: one rotation for each that it took and did not discard, in
order and with its tag, and the one that the sequencer gives for the same operands.
-/
import OpenRV64.ZbbExact
import OpenRV64.ZbbRotate

namespace OpenRV64

open BitScan RotateRequest Sync
open Bool (and_eq_true or_eq_true not_eq_true')
open ZbbOp (evalSized eval)

/-! ## The shifters -/

theorem getLsbD_reverse32 (value : BitVec 32) {j : ℕ} (hj : j < 32) :
    (reverse32 value).getLsbD j = value.getLsbD (31 - j) :=
  getLsbD_ofBits _ hj

theorem shifterLane_eq (left : Bool) (src : BitVec 32) (amount : BitVec 5) :
    shifterLane left src amount =
      if left then src <<< amount.toNat else src >>> amount.toNat := by
  cases left
  · rfl
  apply BitVec.eq_of_getLsbD_eq
  intro j hj
  change (reverse32 (reverse32 src >>> amount.toNat)).getLsbD j = _
  rw [getLsbD_reverse32 _ hj, BitVec.getLsbD_ushiftRight, if_pos rfl, BitVec.getLsbD_shiftLeft]
  by_cases hin : amount.toNat + (31 - j) < 32
  · have hge : ¬ j < amount.toNat := by omega
    have hidx : 31 - (amount.toNat + (31 - j)) = j - amount.toNat := by omega
    rw [getLsbD_reverse32 _ hin, hidx]
    simp [hj, hge]
  · have hlt : j < amount.toNat := by omega
    rw [BitVec.getLsbD_of_ge _ _ (by omega)]
    simp [hlt]

section Terms

variable {τ : Type} {r : RotateRequest τ}

theorem toNat_shiftI (r : RotateRequest τ) : r.shiftI.toNat = r.amountI.toNat % 32 := by
  rw [shiftI, BitVec.extractLsb'_toNat]
  rfl

theorem toNat_inverseShiftI (r : RotateRequest τ) :
    r.inverseShiftI.toNat = (32 - r.amountI.toNat % 32) % 32 := by
  rw [inverseShiftI, BitVec.toNat_neg, toNat_shiftI]

/-! ## Words -/

theorem answer_word (hval : r.inputValidOp) (hwrd : r.wordOpI) : r.answer =
      ⟨(shifterLane r.rotateLeftI (r.srcI.extractLsb' 0 32) r.shiftI |||
        shifterLane (!r.rotateLeftI) (r.srcI.extractLsb' 0 32) r.inverseShiftI).signExtend 64,
        r.tagI⟩ := by
  have hlow := BitVec.setWidth_eq_extractLsb' (x := r.srcI) (w := 32) (by omega)
  have hmod : (r.amountI.setWidth 32).toNat % 32 = r.amountI.toNat % 32 := by
    rw [BitVec.toNat_setWidth]
    omega
  have hlt : r.amountI.toNat % 32 < 32 := Nat.mod_lt _ (by decide)
  rw [shifterLane_eq, shifterLane_eq, toNat_shiftI, toNat_inverseShiftI, ← hlow]
  simp only [inputValidOp, or_eq_true, beq_iff_eq] at hval
  have hres (op : ZbbOp) (hop : r.opSelI = some op) (hleg : op.valid true)
      (hne : op ≠ .zextH) : r.answer = ⟨(op.evalSized (r.srcI.setWidth 32)
        (r.amountI.setWidth 32)).signExtend 64, r.tagI⟩ := by
    have hleg' : op.valid r.sequenced.wordOpI := by
      rw [← hleg]
      exact congrArg op.valid hwrd
    rw [RotateRequest.answer, ZbbRequest.answer_word (r := r.sequenced) hop hleg' hwrd hne]
    rfl
  rcases hval with hop | hop
  · have hleft : r.rotateLeftI := by simp [rotateLeftI, hop]
    rw [hres _ hop rfl (by simp)]
    simp only [evalSized, hmod, hleft, ← shifts_eq_rotateLeft _ hlt]
    rfl
  · have hleft : r.rotateLeftI = false := by simp [rotateLeftI, hop]
    rw [hres _ hop rfl (by simp)]
    simp only [evalSized, hmod, hleft, ← shifts_eq_rotateRight _ hlt]
    rfl

/-! ## Doublewords -/

/-- Where the lower half of the result comes from. -/
def lowerStart (r : RotateRequest τ) : ℕ := if r.amountI.getLsbD 5 then 32 else 0

theorem inputHi_eq (r : RotateRequest τ) :
    r.inputHi = r.srcI.extractLsb' (32 - lowerStart r) 32 := by
  unfold inputHi lowerStart
  split <;> rfl

theorem inputLo_eq (r : RotateRequest τ) : r.inputLo = r.srcI.extractLsb' (lowerStart r) 32 := by
  unfold inputLo lowerStart
  split <;> rfl

theorem amount_split (r : RotateRequest τ) :
    r.amountI.toNat % 64 = lowerStart r + r.amountI.toNat % 32 := by
  unfold lowerStart
  have hbit : r.amountI.getLsbD 5 = decide (r.amountI.toNat / 32 % 2 = 1) := by
    rw [← BitVec.testBit_toNat, Nat.testBit_eq_decide_div_mod_eq]
  rw [hbit]
  by_cases hodd : r.amountI.toNat / 32 % 2 = 1
  · simp only [hodd, decide_true, if_true]
    omega
  · simp only [hodd, decide_false, if_low]
    omega

/-- The second use of a shifter, whose term is suppressed where it would not be shifted out. -/
def wrapped (r : RotateRequest τ) (half : BitVec 32) : BitVec 32 :=
  if r.inverseShiftI == 0 then 0 else shifterLane (!r.rotateLeftI) half r.inverseShiftI

theorem wrapped_eq (r : RotateRequest τ) (half : BitVec 32) : wrapped r half =
    if r.amountI.toNat % 32 = 0 then 0#32
    else if r.rotateLeftI then half >>> (32 - r.amountI.toNat % 32)
    else half <<< (32 - r.amountI.toNat % 32) := by
  have hlt : r.amountI.toNat % 32 < 32 := Nat.mod_lt _ (by decide)
  have hinverse := toNat_inverseShiftI r
  unfold wrapped
  by_cases hz : r.amountI.toNat % 32 = 0
  · have hnone : r.inverseShiftI = 0 := by
      apply BitVec.eq_of_toNat_eq
      rw [hinverse, hz]
      rfl
    rw [if_pos (beq_iff_eq.mpr hnone), if_pos hz]
    rfl
  rw [Nat.mod_eq_of_lt (by omega)] at hinverse
  have hsome : ¬ (r.inverseShiftI == 0) := by
    intro hnone
    rw [beq_iff_eq.mp hnone] at hinverse
    simp at hinverse
    omega
  rw [if_neg hsome, if_neg hz, shifterLane_eq, hinverse]
  cases r.rotateLeftI <;> rfl

theorem answer_wide (hval : r.inputValidOp) (hwrd : r.wordOpI = false) : r.answer =
      ⟨(shifterLane r.rotateLeftI r.inputHi r.shiftI ++
          shifterLane r.rotateLeftI r.inputLo r.shiftI) |||
        (wrapped r r.inputLo ++ wrapped r r.inputHi), r.tagI⟩ := by
  have hlt : r.amountI.toNat % 32 < 32 := Nat.mod_lt _ (by decide)
  have hstart : lowerStart r = 0 ∨ lowerStart r = 32 := by
    unfold lowerStart
    split <;> simp
  have hres (op : ZbbOp) (hop : r.opSelI = some op) (hleg : op.valid false) :
      r.answer = ⟨op.eval r.srcI r.amountI, r.tagI⟩ := by
    have hleg' : op.valid r.sequenced.wordOpI := by
      rw [← hleg]
      exact congrArg op.valid hwrd
    rw [RotateRequest.answer, ZbbRequest.answer_long (r := r.sequenced) hop hleg' hwrd]
    rfl
  rw [shifterLane_eq, shifterLane_eq, toNat_shiftI, wrapped_eq, wrapped_eq, inputHi_eq, inputLo_eq]
  simp only [inputValidOp, or_eq_true, beq_iff_eq] at hval
  rcases hval with hop | hop
  · have hleft : r.rotateLeftI := by simp [rotateLeftI, hop]
    rw [hres _ hop rfl]
    simp only [eval, evalSized, amount_split, hleft, if_true, ← rotateLeft_halves _ hstart hlt]
  · have hleft : r.rotateLeftI = false := by simp [rotateLeftI, hop]
    rw [hres _ hop rfl]
    simp only [eval, evalSized, amount_split, hleft, if_low, ← rotateRight_halves _ hstart hlt]

end Terms

/-! ## The places of the rotator -/

namespace RotateState

variable {τ : Type} {r : RotateRequest τ} {s : RotateState τ} {i : RotateInput τ}
  {q q1 q0 qw : List (RotateRequest τ)}

/-- A place holds one rotation, as `holds` says, or none. -/
inductive Place (holds : RotateRequest τ → Prop) : Bool → List (RotateRequest τ) → Prop
  | empty : Place holds false []
  | full {r : RotateRequest τ} : holds r → Place holds true [r]

/-- The last stage has the answer. -/
def Last (s : RotateState τ) (r : RotateRequest τ) : Prop :=
  ⟨s.stage1ResultQ, s.stage1TagQ⟩ = r.answer

/-- The first stage has the terms of the answer. -/
def Terms (s : RotateState τ) (r : RotateRequest τ) : Prop :=
  ⟨if s.stage0WordQ then s.stage0WordResult.signExtend 64 else s.stage0Term0Q ||| s.stage0Term1Q,
    s.stage0TagQ⟩ = r.answer

/-- The holding registers have the first terms and the operands of the second. -/
structure Wide (s : RotateState τ) (r : RotateRequest τ) : Prop where
  valid : r.inputValidOp = true
  long : r.wordOpI = false
  left : s.wideLeftQ = r.rotateLeftI
  hi : s.wideHiQ = r.inputHi
  lo : s.wideLoQ = r.inputLo
  inverse : s.wideInverseShiftQ = r.inverseShiftI
  directHi : s.wideDirectHiQ = shifterLane r.rotateLeftI r.inputHi r.shiftI
  directLo : s.wideDirectLoQ = shifterLane r.rotateLeftI r.inputLo r.shiftI
  tag : s.wideTagQ = r.tagI

/-- The rotations in the rotator, the oldest in the last stage and the youngest in the holding
registers. -/
def Holds (s : RotateState τ) (q : List (RotateRequest τ)) : Prop :=
  ∃ q1 q0 qw, q = q1 ++ q0 ++ qw ∧ Place (Last s) s.stage1ValidQ q1 ∧
    Place (Terms s) s.stage0ValidQ q0 ∧ Place (Wide s) s.wideActiveQ qw

/-- The cycles until the oldest one is shown. -/
def untilShown (s : RotateState τ) : ℕ :=
  if s.stage1ValidQ then 0 else if s.stage0ValidQ then 1 else if s.wideActiveQ then 2 else 0

theorem Wide.terms (h : s.Wide r) (hact : s.wideActiveQ) :
    (⟨(s.wideDirectHiQ ++ s.wideDirectLoQ) ||| (s.wideWrapHi i ++ s.wideWrapLo i),
      s.wideTagQ⟩ : RotateAnswer τ) = r.answer := by
  rw [answer_wide h.valid h.long, h.directHi, h.directLo, h.tag]
  simp only [wideWrapHi, wideWrapLo, shifter0Result, shifter1Result, shiftersDoWideWrap, hact,
    if_true, h.left, h.hi, h.lo, h.inverse]
  rfl

theorem start_word (hstart : s.start i) (hwrd : i.wordOpI) :
    (⟨(s.shifter0Result i ||| s.shifter1Result i).signExtend 64, i.tagI⟩ : RotateAnswer τ) =
      i.toRotateRequest.answer := by
  simp only [start, readyO, and_eq_true, not_eq_true'] at hstart
  obtain ⟨-, ⟨hidle, hval⟩, -⟩ := hstart
  rw [answer_word hval hwrd]
  simp only [shifter0Result, shifter1Result, shiftersDoWideWrap, hidle, hwrd, if_true, if_low]

theorem start_wide {t : RotateState τ} (hstart : s.start i) (hwrd : i.wordOpI = false)
    (hleft : t.wideLeftQ = i.rotateLeftI) (hhi : t.wideHiQ = i.inputHi)
    (hlo : t.wideLoQ = i.inputLo) (hinverse : t.wideInverseShiftQ = i.inverseShiftI)
    (hdirectHi : t.wideDirectHiQ = s.shifter0Result i)
    (hdirectLo : t.wideDirectLoQ = s.shifter1Result i) (htag : t.wideTagQ = i.tagI) :
    t.Wide i.toRotateRequest := by
  simp only [start, readyO, and_eq_true, not_eq_true'] at hstart
  obtain ⟨-, ⟨hidle, hval⟩, -⟩ := hstart
  refine ⟨hval, hwrd, hleft, hhi, hlo, hinverse, ?_, ?_, htag⟩
  · rw [hdirectHi]
    simp only [shifter0Result, shiftersDoWideWrap, hidle, hwrd, if_low]
  · rw [hdirectLo]
    simp only [shifter1Result, shiftersDoWideWrap, hidle, hwrd, if_low]

theorem low_word (x : BitVec 32) : (0#32 ++ x).extractLsb' 0 32 = x := by
  apply BitVec.eq_of_getLsbD_eq
  intro j hj
  rw [BitVec.getLsbD_extractLsb', BitVec.getLsbD_append]
  simp [hj]

/-! ### What a cycle does to each place -/

section

variable (hflush : i.flushI = false)

include hflush

theorem step_stage1 : (s.step i).stage1ValidQ = (s.advance1 i).stage1ValidQ ∧
      (s.step i).stage1ResultQ = (s.advance1 i).stage1ResultQ ∧
      (s.step i).stage1TagQ = (s.advance1 i).stage1TagQ := by
  unfold step
  rw [if_neg (by simp [hflush])]
  simp only
  split_ifs <;> exact ⟨rfl, rfl, rfl⟩

theorem step_last (hrdy : s.stage1Ready i) (h0 : Place (Terms s) s.stage0ValidQ q0) :
    Place (Last (s.step i)) (s.step i).stage1ValidQ q0 := by
  obtain ⟨hval, hres, htag⟩ := step_stage1 (s := s) hflush
  rw [hval]
  unfold Last
  rw [hres, htag]
  unfold advance1
  rw [if_pos hrdy]
  cases hfull : s.stage0ValidQ
  · rw [hfull] at h0
    cases h0
    exact .empty
  · rw [hfull] at h0
    cases h0 with
    | full hterms => exact .full hterms

/-- A last stage that is not ready keeps what it has. -/
theorem step_last_stalled (hrdy : s.stage1Ready i = false) (h1 : Place (Last s) s.stage1ValidQ q1) :
    Place (Last (s.step i)) (s.step i).stage1ValidQ q1 := by
  obtain ⟨hval, hres, htag⟩ := step_stage1 (s := s) hflush
  have hsame : s.advance1 i = s := by simp [advance1, hrdy]
  rw [hsame] at hval hres htag
  rw [hval]
  unfold Last
  rw [hres, htag]
  exact h1

/-- A first stage that moves on takes the second terms of a double rotation, or a word. -/
theorem step_front (hrdy : s.stage0Ready i) (hw : Place (Wide s) s.wideActiveQ qw) : ∃ q0' qw',
      qw ++ (if s.start i then some i.toRotateRequest else none).toList = q0' ++ qw' ∧
      Place (Terms (s.step i)) (s.step i).stage0ValidQ q0' ∧
      Place (Wide (s.step i)) (s.step i).wideActiveQ qw' := by
  have hgo : ¬ i.flushI := by simp [hflush]
  cases hact : s.wideActiveQ
  · rw [hact] at hw
    cases hw
    have hidle : ¬ (s.wideActiveQ && s.stage0Ready i) := by simp [hact]
    have hstay : (s.advance1 i).wideActiveQ = false := by
      unfold advance1
      split_ifs <;> exact hact
    cases hstart : s.start i
    · refine ⟨[], [], rfl, ?_, ?_⟩
      · have hval : (s.step i).stage0ValidQ = false := by
          simp [step, hflush, hrdy, hact, hstart]
        rw [hval]
        exact .empty
      · have hval : (s.step i).wideActiveQ = false := by
          simp [step, hflush, hrdy, hact, hstart, hstay]
        rw [hval]
        exact .empty
    cases hwrd : i.wordOpI
    · refine ⟨[], [i.toRotateRequest], rfl, ?_, ?_⟩
      · have hval : (s.step i).stage0ValidQ = false := by
          simp [step, hflush, hrdy, hact, hstart, hwrd]
        rw [hval]
        exact .empty
      · have hval : (s.step i).wideActiveQ := by
          simp [step, hflush, hrdy, hact, hstart, hwrd]
        rw [hval]
        refine .full (start_wide hstart hwrd ?_ ?_ ?_ ?_ ?_ ?_ ?_) <;>
          simp [step, hflush, hrdy, hact, hstart, hwrd]
    refine ⟨[i.toRotateRequest], [], rfl, ?_, ?_⟩
    · have hval : (s.step i).stage0ValidQ := by
        simp [step, hflush, hrdy, hact, hstart, hwrd]
      rw [hval]
      refine .full ?_
      have hterms := start_word hstart hwrd
      simpa [Terms, stage0WordResult, step, hflush, hrdy, hact, hstart, hwrd, low_word]
        using hterms
    · have hval : (s.step i).wideActiveQ = false := by
        simp [step, hflush, hrdy, hact, hstart, hwrd, hstay]
      rw [hval]
      exact .empty
  rw [hact] at hw
  cases hw with
  | @full r hwide =>
    have hstart : s.start i = false := by simp [start, readyO, hact]
    refine ⟨[r], [], by simp [hstart], ?_, ?_⟩
    · have hval : (s.step i).stage0ValidQ := by
        simp [step, hflush, hrdy, hact]
      rw [hval]
      refine .full ?_
      have hterms := hwide.terms (i := i) hact
      simpa [Terms, step, hflush, hrdy, hact] using hterms
    · have hval : (s.step i).wideActiveQ = false := by
        simp [step, hflush, hrdy, hact]
      rw [hval]
      exact .empty

/-- A first stage that does not move on keeps what it has; a double rotation may start. -/
theorem step_front_stalled (hrdy : s.stage0Ready i = false)
    (h0 : Place (Terms s) s.stage0ValidQ q0) (hw : Place (Wide s) s.wideActiveQ qw) :
    Place (Terms (s.step i)) (s.step i).stage0ValidQ q0 ∧
      Place (Wide (s.step i)) (s.step i).wideActiveQ
        (qw ++ (if s.start i then some i.toRotateRequest else none).toList) := by
  have hlast : s.stage1Ready i = false := by
    unfold stage0Ready at hrdy
    simp at hrdy
    exact hrdy.2
  have hsame : s.advance1 i = s := by simp [advance1, hlast]
  cases hstart : s.start i
  · have hstep : s.step i = s := by simp [step, hflush, hrdy, hstart, hsame]
    rw [hstep]
    simpa using ⟨h0, hw⟩
  have hwrd : i.wordOpI = false := by
    simp only [start, readyO, hrdy, and_eq_true] at hstart
    simpa using hstart.2.2
  have hact : s.wideActiveQ = false := by
    simp only [start, readyO, and_eq_true, not_eq_true'] at hstart
    exact hstart.2.1.1
  rw [hact] at hw
  cases hw
  constructor
  · have hval : (s.step i).stage0ValidQ = s.stage0ValidQ := by
      simp [step, hflush, hrdy, hstart, hwrd, hsame]
    have hterms : Terms (s.step i) = Terms s := by
      funext r
      simp [Terms, stage0WordResult, step, hflush, hrdy, hstart, hwrd, hsame]
    rw [hval, hterms]
    exact h0
  · have hval : (s.step i).wideActiveQ := by
      simp [step, hflush, hrdy, hstart, hwrd, hsame]
    rw [hval]
    refine .full (start_wide hstart hwrd ?_ ?_ ?_ ?_ ?_ ?_ ?_) <;>
      simp [step, hflush, hrdy, hstart, hwrd, hsame]

end

/-- What is in the rotator after a cycle: the last stage hands out, and what starts comes last. -/
theorem Holds.step (h : s.Holds q) (hflush : i.flushI = false) :
    (s.step i).Holds ((if s.stage1ValidQ && i.resultReadyI then q.tail else q) ++
      (if s.start i then some i.toRotateRequest else none).toList) := by
  obtain ⟨q1, q0, qw, rfl, h1, h0, hw⟩ := h
  cases hlast : s.stage1Ready i
  · -- the last stage keeps its result
    have hbsy : s.stage1ValidQ ∧ i.resultReadyI = false := by
      simpa [stage1Ready] using hlast
    have hstay := step_last_stalled hflush hlast h1
    simp only [hbsy.1, hbsy.2, Bool.and_false, if_low]
    cases hfst : s.stage0Ready i
    · obtain ⟨hterms, hwide⟩ := step_front_stalled hflush hfst h0 hw
      exact ⟨q1, q0, _, by simp only [List.append_assoc], hstay, hterms, hwide⟩
    have hnone : s.stage0ValidQ = false := by
      simpa [stage0Ready, hlast] using hfst
    rw [hnone] at h0
    cases h0
    obtain ⟨q0', qw', hqueue, hterms, hwide⟩ := step_front hflush hfst hw
    exact ⟨q1, q0', qw', by rw [List.append_nil, List.append_assoc, hqueue, List.append_assoc],
      hstay, hterms, hwide⟩
  -- it takes what the first stage has
  have hfst : s.stage0Ready i := by simp [stage0Ready, hlast]
  have hmoved := step_last hflush hlast h0
  obtain ⟨q0', qw', hqueue, hterms, hwide⟩ := step_front hflush hfst hw
  refine ⟨q0, q0', qw', ?_, hmoved, hterms, hwide⟩
  have hrest : (if s.stage1ValidQ && i.resultReadyI then (q1 ++ q0 ++ qw).tail
      else q1 ++ q0 ++ qw) = q0 ++ qw := by
    cases hfull : s.stage1ValidQ
    · rw [hfull] at h1
      cases h1
      rfl
    · rw [hfull] at h1
      have hrdy : i.resultReadyI := by simpa [stage1Ready, hfull] using hlast
      cases h1 with
      | full => simp [hrdy]
  rw [hrest, List.append_assoc, hqueue, List.append_assoc]

/-- The oldest rotation comes nearer while nothing is shown. -/
theorem untilShown_step (h : s.Holds q) (hq : q ≠ []) (hflush : i.flushI = false)
    (hnone : s.stage1ValidQ = false) : (s.step i).untilShown < s.untilShown := by
  obtain ⟨q1, q0, qw, rfl, h1, h0, hw⟩ := h
  have hlast : s.stage1Ready i := by simp [stage1Ready, hnone]
  have hfst : s.stage0Ready i := by simp [stage0Ready, hlast]
  obtain ⟨hval, -⟩ := step_stage1 (s := s) hflush
  cases hfull : s.stage0ValidQ
  · cases hact : s.wideActiveQ
    · rw [hnone] at h1
      rw [hfull] at h0
      rw [hact] at hw
      cases h1
      cases h0
      cases hw
      exact absurd rfl hq
    have hval' : (s.step i).stage1ValidQ = false := by
      rw [hval]
      simp [advance1, hlast, hfull]
    have hterms : (s.step i).stage0ValidQ := by
      simp [step, hflush, hact, hfst]
    simp [untilShown, hval', hterms, hnone, hfull, hact]
  · have hval' : (s.step i).stage1ValidQ := by
      rw [hval]
      simp [advance1, hlast, hfull]
    simp [untilShown, hval', hnone, hfull]

theorem untilShown_pos (h : s.Holds q) (hq : q ≠ []) (hnone : s.stage1ValidQ = false) :
    0 < s.untilShown := by
  obtain ⟨q1, q0, qw, rfl, h1, h0, hw⟩ := h
  unfold untilShown
  rw [hnone, if_low]
  rw [hnone] at h1
  cases h1
  cases hfull : s.stage0ValidQ
  · cases hact : s.wideActiveQ
    · rw [hfull] at h0
      rw [hact] at hw
      cases h0
      cases hw
      exact absurd rfl hq
    · simp
  · simp

theorem Place.length {holds : RotateRequest τ → Prop} {valid : Bool}
    (h : Place holds valid q) : q.length = valid.toNat := by
  cases h <;> rfl

end RotateState

/-! ## The books -/

section Books

open RotateState

variable {τ : Type}

/-- The rotator holds what is in its places. -/
def rotateHolding (zero : τ) :
    (zbbRotate zero).Holding RotateRequest.answer RotateState.inside 2 where
  Holds s q n := s.Holds q ∧ n = s.untilShown
  reset s hinit := by
    rw [hinit]
    exact ⟨⟨[], [], [], rfl, .empty, .empty, .empty⟩, rfl⟩
  count s q n h := by
    obtain ⟨⟨q1, q0, qw, rfl, h1, h0, hw⟩, -⟩ := h
    rw [List.length_append, List.length_append, h1.length, h0.length, hw.length]
    rfl
  within s q n h := by
    rw [h.2]
    unfold untilShown
    split_ifs <;> omega
  pos s q n h hq hnone := by
    rw [h.2]
    refine untilShown_pos h.1 hq ?_
    cases hvalid : s.stage1ValidQ
    · rfl
    · simp [zbbRotate, hvalid] at hnone
  shown s q n a h hsome := by
    obtain ⟨⟨q1, q0, qw, rfl, h1, h0, hw⟩, -⟩ := h
    cases hvalid : s.stage1ValidQ
    · simp [zbbRotate, hvalid] at hsome
    · rw [hvalid] at h1
      cases h1 with
      | @full r hlast =>
        refine ⟨r, q0 ++ qw, by simp, ?_⟩
        rw [← hlast]
        simpa [zbbRotate, hvalid] using hsome.symm
  flushed s i hflush := by
    have hf : i.flushI = true := hflush
    have hstep : (zbbRotate zero).step s i =
        { s with
          stage0ValidQ := false
          stage1ValidQ := false
          wideActiveQ := false } := by
      simp [zbbRotate, step, hf]
    rw [hstep]
    exact ⟨⟨[], [], [], rfl, .empty, .empty, .empty⟩, rfl⟩
  step s q n i h hflush := by
    have hhands : ((zbbRotate zero).hands s i).isSome = (s.stage1ValidQ && i.resultReadyI) := by
      change (if i.resultReadyI then if s.stage1ValidQ then some _ else none
        else none : Option (RotateAnswer τ)).isSome = _
      cases i.resultReadyI <;> cases s.stage1ValidQ <;> rfl
    rw [hhands, h.2]
    refine ⟨_, ⟨h.1.step hflush, rfl⟩, fun hq hnone => untilShown_step h.1 hq hflush ?_⟩
    cases hvalid : s.stage1ValidQ
    · rfl
    · simp [zbbRotate, hvalid] at hnone

theorem rotate_kept_valid {zero : τ}
    {past : Past (Served (RotateState τ) (RotateRequest τ) (RotateAnswer τ)) (RotateInput τ)}
    {t : Served (RotateState τ) (RotateRequest τ) (RotateAnswer τ)}
    (hrun : Run (zbbRotate zero).served anyEnv past t) : ∀ r ∈ t.kept, r.inputValidOp := by
  refine hrun.stateInvariant (P := fun t => ∀ r ∈ t.kept, r.inputValidOp) ?_ ?_
  · rintro t ⟨-, hkept, -⟩ r hr
    rw [hkept] at hr
    simp at hr
  · intro past t i _ h r hr
    simp only [Server.served, Served.step, zbbRotate] at hr
    cases hflush : i.flushI
    · rw [hflush, if_low, List.mem_append] at hr
      rcases hr with hr | hr
      · exact h r hr
      cases hstart : t.unit.start i
      · simp [hstart] at hr
      · have hreq : r = i.toRotateRequest := by simpa [hstart] using hr
        rw [hreq]
        simp only [start, readyO, and_eq_true] at hstart
        exact hstart.2.1.2
    · rw [hflush, if_pos rfl] at hr
      exact h r (List.mem_of_mem_take hr)

end Books

/-- The rotator and the sequencer agree: what both have answered of one rotation is the same. -/
def SameRotations {τ : Type} (t : Served (RotateState τ) (RotateRequest τ) (RotateAnswer τ))
    (t' : Served ZbbState ZbbRequest ZbbAnswer) : Prop :=
  ∀ (m n : ℕ) (r : RotateRequest τ) (a : RotateAnswer τ) (b : ZbbAnswer),
    t.kept[m]? = some r → t.returned[m]? = some a →
    t'.kept[n]? = some r.sequenced → t'.returned[n]? = some b → b = ⟨false, a.result⟩

/-- Each rotation that is taken and not discarded is answered once, in order and with its tag, as
the instruction set says and as the sequencer answers it, under every schedule. -/
theorem rotate_answers {τ : Type} (zero : τ)
    {past : Past (Served (RotateState τ) (RotateRequest τ) (RotateAnswer τ)) (RotateInput τ)}
    {t : Served (RotateState τ) (RotateRequest τ) (RotateAnswer τ)}
    (hrun : Run (zbbRotate zero).served anyEnv past t) :
    t.InOrder (zbbRotate zero) RotateRequest.answer RotateState.inside ∧ t.Soon (zbbRotate zero) 2 ∧
      ∀ past' t', Run zbbUnit.served anyEnv past' t' → SameRotations t t' := by
  have hbooks : (rotateHolding zero).Books t := Server.Holding.books_run hrun
  refine ⟨hbooks.inOrder, hbooks.soon, fun past' t' hrun' m n r a b hr ha hr' hb => ?_⟩
  have hbooks' : zbbHolding.Books t' := Server.Holding.books_run hrun'
  have hrotated := hbooks.inOrder.answer_at hr ha
  have hsequenced := hbooks'.inOrder.answer_at hr' hb
  have hvalid := rotate_kept_valid hrun r (List.mem_of_getElem? hr)
  have hlegal : r.sequenced.answer.illegal = false := by
    simp only [inputValidOp, Bool.or_eq_true, beq_iff_eq] at hvalid
    rcases hvalid with hop | hop
    · exact ZbbRequest.answer_legal (r := r.sequenced) hop rfl
    · exact ZbbRequest.answer_legal (r := r.sequenced) hop rfl
  rw [hsequenced, hrotated]
  exact congrArg (fun illegal => (⟨illegal, r.sequenced.answer.result⟩ : ZbbAnswer)) hlegal

/-- A double rotation with a word rotation right after it. -/
def wideThenWord : List (RotateInput Bool) :=
  let input (word tag ready : Bool) : RotateInput Bool :=
    { opSelI := some (if word then .ror else .rol)
      wordOpI := word
      srcI := 0x8000000180000001
      amountI := 33
      tagI := tag
      flushI := false
      validI := true
      resultReadyI := ready }
  [input false true false, input true false false, input true false false, input true false true,
    input true true true]

theorem rotate_answers_example :
    let t := (exec (zbbRotate false).served [] ⟨.reset false, [], []⟩ wideThenWord).2
    t.InOrder (zbbRotate false) RotateRequest.answer RotateState.inside ∧
      t.Soon (zbbRotate false) 2 ∧
      ∀ past' t', Run zbbUnit.served anyEnv past' t' → SameRotations t t' :=
  rotate_answers false (Sync.exec_run wideThenWord (.reset ⟨rfl, rfl, rfl⟩))

end OpenRV64
