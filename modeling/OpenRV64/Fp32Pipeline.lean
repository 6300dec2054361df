/-
The pipeline of the FP32 lane delivers each token once, at the end of its latency, with the
result of its operation: a multiply-accumulate adds the accumulator to the rounded product.
-/
import OpenRV64.Fp32Product
import Mathlib.Tactic.Cases

namespace OpenRV64

open Binary32 LaneParams
open Bool (and_eq_true not_eq_true')

/-- What an accepted cycle asks for. -/
structure LaneToken (p : LaneParams) where
  tag : BitVec p.tagWidth
  multiply : Bool
  mac : Bool
  src1 : BitVec 32
  src2 : BitVec 32
  src3 : BitVec 32

namespace LaneToken

variable {p : LaneParams} (t : LaneToken p)

def latency : ℕ :=
  if t.mac then p.macLatency else if t.multiply then p.mulLatency else p.addLatency

/-- The result of the operation as it stands in stage `n`. -/
def partialResult (n : ℕ) : BitVec 32 :=
  if t.mac then
    if n ≤ p.mulLatency then multiplyFp32 t.src1 t.src2
    else addFp32 t.src3 (multiplyFp32 t.src1 t.src2)
  else if t.multiply then multiplyFp32 t.src1 t.src2
  else addFp32 t.src1 t.src2

/-- The registers of stage `n` hold the token. -/
structure Holds (n : ℕ) (stage : LaneStage p) : Prop where
  multiply : stage.multiplyModeQ = t.multiply
  mac : stage.macModeQ = t.mac
  tag : stage.tagQ = t.tag
  result : stage.resultQ = t.partialResult n
  acc : stage.accQ = t.src3

end LaneToken

namespace LaneState

variable {p : LaneParams}

def inputToken (i : LaneInput p) : LaneToken p :=
  ⟨i.tagI, i.multiplyI, i.macI, i.src1I, i.src2I, i.src3I⟩

/-- The token accepted so long ago that the pipeline has moved on `n` times since, if the cycle
took one and no flush came after it. -/
def tokenAt : Sync.Past (LaneState p) (LaneInput p) → ℕ → Option (LaneToken p)
  | [], _ => none
  | (s, i) :: past, n =>
    if i.flushI then none
    else if s.pipelineAdvance i then
      match n with
      | 0 => if s.accepts i then some (inputToken i) else none
      | n + 1 => tokenAt past n
    else tokenAt past n

/-- The tokens that are not yet at their result are in the stages, and the cycles of the result
port are reserved for them. -/
structure Tracked (past : Sync.Past (LaneState p) (LaneInput p)) (s : LaneState p) : Prop where
  valid : ∀ n, (s.stageQ n).validQ = true ↔ ∃ t, tokenAt past n = some t ∧ n ≤ t.latency
  holds : ∀ n t, tokenAt past n = some t → n ≤ t.latency → t.Holds n (s.stageQ n)
  reserved : ∀ k, s.outputReservationQ k = true ↔ ∃ n t, tokenAt past n = some t ∧ t.latency = n + k
  apart : ∀ n n' t t', tokenAt past n = some t → tokenAt past n' = some t' →
    n ≤ t.latency → n' ≤ t'.latency → t.latency + n' = t'.latency + n → n = n'

theorem latency_le (t : LaneToken p) : t.latency ≤ p.macLatency := by
  have hlt := p.add_lt_mul
  rw [LaneToken.latency, macLatency]
  split_ifs <;> omega

section Step

variable {past : Sync.Past (LaneState p) (LaneInput p)} {s : LaneState p} {i : LaneInput p}

/-- A token in a stage is at the end of its way where its latency ends. -/
theorem finished_eq {t : LaneToken p} {n : ℕ} (h : t.Holds n (s.stageQ n)) :
    s.finished n = decide (n = t.latency) := by
  rw [finished, h.multiply, h.mac, LaneToken.latency]
  have hbeq : ∀ m : ℕ, (n == m) = decide (n = m) := fun _ => rfl
  cases t.mac <;> cases t.multiply <;> simp [hbeq]

/-- The adder is taken by the multiply-accumulate that leaves the multiplier. -/
theorem Tracked.macAddDue_iff (h : Tracked past s) :
    s.macAddDue ↔ ∃ t, tokenAt past p.mulLatency = some t ∧ t.mac := by
  rw [macAddDue, and_eq_true, h.valid]
  constructor
  · rintro ⟨⟨t, ht, hle⟩, hmac⟩
    exact ⟨t, ht, by rw [← (h.holds _ t ht hle).mac, hmac]⟩
  · rintro ⟨t, ht, hmac⟩
    have hle : p.mulLatency ≤ t.latency := by
      rw [LaneToken.latency, if_pos hmac, macLatency]
      omega
    exact ⟨⟨t, ht, hle⟩, by rw [(h.holds _ t ht hle).mac, hmac]⟩

/-- An accepted token finds its cycle of the result port free. -/
theorem Tracked.accept_free (h : Tracked past s) (haccs : s.accepts i) {n : ℕ}
    {t : LaneToken p} (ht : tokenAt past n = some t) :
    t.latency ≠ n + ((inputToken i).latency + 1) := by
  intro heq
  have hresv := (h.reserved _).mpr ⟨n, t, ht, heq⟩
  have hle := latency_le t
  rw [accepts, readyO] at haccs
  simp only [and_eq_true, not_eq_true'] at haccs
  have hfree := haccs.2.1.2
  rw [inputCompletionReserved] at hfree
  rw [LaneToken.latency] at hresv heq
  change (s.outputReservationQ ((if i.macI then p.macLatency
    else if i.multiplyI then p.mulLatency else p.addLatency) + 1)) at hresv
  cases hmac : i.macI
  · cases hmultiply : i.multiplyI
    · simp_all
    · simp_all
  · have hbig : t.latency = n + (p.macLatency + 1) := by
      rw [LaneToken.latency, heq, inputToken, LaneToken.latency, if_pos hmac]
    omega

theorem firstStage_holds (haccs : s.accepts i) : (inputToken i).Holds 0 (s.firstStage i) := by
  have hrdy := haccs
  rw [accepts, readyO] at hrdy
  simp only [and_eq_true, not_eq_true'] at hrdy
  have hadder := hrdy.2.2
  refine ⟨by simp [firstStage, haccs, inputToken], by simp [firstStage, haccs, inputToken],
    rfl, ?_, by simp [firstStage, haccs, inputToken]⟩
  rw [LaneToken.partialResult]
  simp only [firstStage, inputToken, haccs, Bool.true_and, sharedAddResult, Nat.zero_le, if_true]
  by_cases hmac : i.macI
  · simp [hmac]
  · by_cases hmultiply : i.multiplyI
    · simp [hmac, hmultiply]
    · have hdue : s.macAddDue = false := by simpa [hmac, hmultiply] using hadder
      simp [hmac, hmultiply, hdue]

theorem laterStage_holds (h : Tracked past s) {n : ℕ} {t : LaneToken p}
    (ht : tokenAt past n = some t) (hlt : n < t.latency) : t.Holds (n + 1) (s.laterStage i n) := by
  have hold := h.holds n t ht hlt.le
  refine ⟨hold.multiply, hold.mac, hold.tag, ?_, hold.acc⟩
  simp only [laterStage, macAddStage, Nat.add_right_cancel_iff]
  cases hmac : t.mac
  · have hdue : ¬ (n = p.mulLatency ∧ s.macAddDue) := by
      rintro ⟨rfl, hdue⟩
      obtain ⟨t', ht', hmac'⟩ := h.macAddDue_iff.mp hdue
      rw [ht] at ht'
      cases ht'
      rw [hmac] at hmac'
      cases hmac'
    rw [if_neg hdue, hold.result, LaneToken.partialResult, LaneToken.partialResult, hmac]
    rfl
  by_cases hn : n = p.mulLatency
  · subst hn
    have hdue := h.macAddDue_iff.mpr ⟨t, ht, hmac⟩
    rw [if_pos ⟨rfl, hdue⟩, sharedAddResult, if_pos hdue, hold.acc, hold.result,
      LaneToken.partialResult, LaneToken.partialResult, hmac]
    simp
  · rw [if_neg (fun hand => hn hand.1), hold.result, LaneToken.partialResult,
      LaneToken.partialResult, hmac]
    have hiff : n ≤ p.mulLatency ↔ n + 1 ≤ p.mulLatency := by omega
    simp only [if_true, hiff]

theorem Tracked.flush (s : LaneState p) (i : LaneInput p) (hfl : i.flushI) :
    Tracked ((s, i) :: past) (s.step i) := by
  have hnone : ∀ n, tokenAt ((s, i) :: past) n = none := fun n => by
    cases n <;> simp [tokenAt, hfl]
  refine ⟨?_, ?_, ?_, ?_⟩
  · intro n
    simp [hnone, step, hfl]
  · intro n t ht
    simp [hnone] at ht
  · intro k
    simp [hnone, step, hfl]
  · intro n n' t t' ht
    simp [hnone] at ht

attribute [local simp] tokenAt

theorem Tracked.stall (h : Tracked past s) (hfl : i.flushI = false)
    (hstall : s.pipelineAdvance i = false) : Tracked ((s, i) :: past) (s.step i) := by
  have hsame : tokenAt ((s, i) :: past) = tokenAt past := by
    funext n
    cases n <;> simp [hfl, hstall]
  have hstep : s.step i = s := by simp [step, hfl, hstall]
  rw [hstep]
  exact ⟨by rw [hsame]; exact h.valid, by rw [hsame]; exact h.holds,
    by rw [hsame]; exact h.reserved, by rw [hsame]; exact h.apart⟩

theorem tokenAt_zero (hfl : i.flushI = false) (hadv : s.pipelineAdvance i) :
    tokenAt ((s, i) :: past) 0 = if s.accepts i then some (inputToken i) else none := by
  simp [hfl, hadv]

theorem tokenAt_succ (hfl : i.flushI = false) (hadv : s.pipelineAdvance i)
    (n : ℕ) : tokenAt ((s, i) :: past) (n + 1) = tokenAt past n := by
  simp [hfl, hadv]

theorem Tracked.advance (h : Tracked past s) (hfl : i.flushI = false)
    (hadv : s.pipelineAdvance i) : Tracked ((s, i) :: past) (s.step i) := by
  have hstep : s.step i = ⟨s.advancedStage i, s.advancedReservation i⟩ := by
    simp [step, hfl, hadv]
  have hz : tokenAt ((s, i) :: past) 0 = if s.accepts i then some (inputToken i) else none :=
    tokenAt_zero hfl hadv
  have hsucc : ∀ n, tokenAt ((s, i) :: past) (n + 1) = tokenAt past n := tokenAt_succ hfl hadv
  have hacc : ∀ {t}, tokenAt ((s, i) :: past) 0 = some t → s.accepts i ∧ t = inputToken i := by
    intro t ht
    rw [hz] at ht
    cases haccs : s.accepts i
    · rw [haccs] at ht
      cases ht
    · rw [haccs] at ht
      exact ⟨rfl, (Option.some.inj ht).symm⟩
  rw [hstep]
  refine ⟨?_, ?_, ?_, ?_⟩
  · intro n
    cases n with
    | zero =>
      rw [hz]
      cases haccs : s.accepts i <;> simp [advancedStage, firstStage, haccs]
    | succ n =>
      rw [hsucc]
      simp only [advancedStage, laterStage, and_eq_true, not_eq_true', h.valid]
      constructor
      · rintro ⟨⟨t, ht, hle⟩, hrunning⟩
        rw [finished_eq (h.holds n t ht hle), decide_eq_false_iff_not] at hrunning
        exact ⟨t, ht, by omega⟩
      · rintro ⟨t, ht, hle⟩
        refine ⟨⟨t, ht, by omega⟩, ?_⟩
        rw [finished_eq (h.holds n t ht (by omega)), decide_eq_false_iff_not]
        omega
  · intro n t ht hle
    cases n with
    | zero =>
      obtain ⟨haccs, rfl⟩ := hacc ht
      exact firstStage_holds haccs
    | succ n =>
      rw [hsucc] at ht
      exact laterStage_holds h ht hle
  · intro k
    simp only [advancedReservation]
    constructor
    · intro hresv
      split_ifs at hresv with hnew
      · rw [and_eq_true, beq_iff_eq] at hnew
        refine ⟨0, inputToken i, by rw [hz, if_pos hnew.1], ?_⟩
        rw [zero_add]
        exact hnew.2.symm
      · rw [and_eq_true, h.reserved] at hresv
        obtain ⟨-, n, t, ht, heq⟩ := hresv
        exact ⟨n + 1, t, by rw [hsucc, ht], by omega⟩
    · rintro ⟨n, t, ht, heq⟩
      cases n with
      | zero =>
        obtain ⟨haccs, rfl⟩ := hacc ht
        rw [zero_add] at heq
        have hk : (k == inputResultStage p i) := beq_iff_eq.mpr heq.symm
        rw [haccs, hk]
        rfl
      | succ n =>
        rw [hsucc] at ht
        have hle := latency_le t
        have hresv := (h.reserved (k + 1)).mpr ⟨n, t, ht, by omega⟩
        have hlt : k + 1 < p.pipelineDepth := by
          rw [pipelineDepth]
          omega
        rw [hresv, decide_eq_true hlt]
        split_ifs <;> rfl
  · intro n n' t t' ht ht' hle hle' heq
    cases n with
    | zero =>
      cases n' with
      | zero => rfl
      | succ n' =>
        obtain ⟨haccs, rfl⟩ := hacc ht
        rw [hsucc] at ht'
        exact absurd (by omega) (h.accept_free haccs ht')
    | succ n =>
    cases n' with
    | zero =>
      obtain ⟨haccs, rfl⟩ := hacc ht'
      rw [hsucc] at ht
      exact absurd (by omega) (h.accept_free haccs ht)
    | succ n' =>
      rw [hsucc] at ht ht'
      rw [h.apart n n' t t' ht ht' (by omega) (by omega) (by omega)]

end Step

theorem tracked_of_run {past : Sync.Past (LaneState p) (LaneInput p)} {s : LaneState p}
    (hrun : Sync.Run (fp32Lane p) Sync.anyEnv past s) : Tracked past s := by
  refine hrun.invariant ?_ ?_
  · rintro s rfl
    refine ⟨?_, ?_, ?_, ?_⟩ <;> simp [tokenAt]
  · intro past s i _ _ h
    cases hfl : i.flushI
    · cases hadv : s.pipelineAdvance i
      · exact h.stall hfl hadv
      · exact h.advance hfl hadv
    · exact Tracked.flush s i hfl

section Delivery

variable {past : Sync.Past (LaneState p) (LaneInput p)} {s : LaneState p}

/-- A token stands at its result where a stage is valid and at the end of its way. -/
theorem Tracked.arrived (h : Tracked past s) {n : ℕ} (hval : (s.stageQ n).validQ)
    (hfinished : s.finished n) : ∃ t, tokenAt past n = some t ∧ t.latency = n := by
  obtain ⟨t, ht, hle⟩ := (h.valid n).mp hval
  rw [finished_eq (h.holds n t ht hle), decide_eq_true_iff] at hfinished
  exact ⟨t, ht, hfinished.symm⟩

theorem Tracked.at_latency (h : Tracked past s) {t : LaneToken p}
    (ht : tokenAt past t.latency = some t) :
    (s.stageQ t.latency).validQ ∧ t.Holds t.latency (s.stageQ t.latency) :=
  ⟨(h.valid _).mpr ⟨t, ht, le_rfl⟩, h.holds _ t ht le_rfl⟩

theorem Tracked.one_result (h : Tracked past s) {t : LaneToken p} {n : ℕ}
    (ht : tokenAt past t.latency = some t) (hval : (s.stageQ n).validQ)
    (hfinished : s.finished n) : n = t.latency := by
  obtain ⟨t', ht', rfl⟩ := h.arrived hval hfinished
  exact h.apart _ _ t' t ht' ht le_rfl le_rfl (Nat.add_comm _ _)

theorem addResultValid_iff : s.addResultValid ↔
    (s.stageQ p.addLatency).validQ ∧ s.finished p.addLatency := by
  have hlt := p.add_lt_mul
  have hmul : (p.addLatency == p.mulLatency) = false := beq_eq_false_iff_ne.mpr hlt.ne
  have hmac : (p.addLatency == p.macLatency) = false :=
    beq_eq_false_iff_ne.mpr (by rw [macLatency]; omega)
  simp [addResultValid, finished, hmul, hmac, and_assoc]

theorem mulResultValid_iff : s.mulResultValid ↔
    (s.stageQ p.mulLatency).validQ ∧ s.finished p.mulLatency := by
  have hlt := p.add_lt_mul
  have hpos := p.add_pos
  have hadd : (p.mulLatency == p.addLatency) = false := beq_eq_false_iff_ne.mpr hlt.ne'
  have hmac : (p.mulLatency == p.macLatency) = false :=
    beq_eq_false_iff_ne.mpr (by rw [macLatency]; omega)
  simp [mulResultValid, finished, hadd, hmac, and_assoc]

theorem macResultValid_iff : s.macResultValid ↔
    (s.stageQ p.macLatency).validQ ∧ s.finished p.macLatency := by
  have hlt := p.add_lt_mul
  have hpos := p.add_pos
  have hadd : (p.macLatency == p.addLatency) = false :=
    beq_eq_false_iff_ne.mpr (by rw [macLatency]; omega)
  have hmul : (p.macLatency == p.mulLatency) = false :=
    beq_eq_false_iff_ne.mpr (by rw [macLatency]; omega)
  simp [macResultValid, finished, hadd, hmul]

/-- The result port shows the token whose latency is over. -/
theorem Tracked.presents (h : Tracked past s) {t : LaneToken p}
    (ht : tokenAt past t.latency = some t) :
    s.resultValidO ∧ s.resultTagO = t.tag ∧ s.resultO = t.partialResult t.latency := by
  obtain ⟨hval, hholds⟩ := h.at_latency ht
  have hfinished : s.finished t.latency := by
    rw [finished_eq hholds, decide_eq_true rfl]
  have hstage : s.resultValidO ∧ s.resultStage = s.stageQ t.latency := by
    rw [resultValidO, resultStage]
    by_cases hadd : s.addResultValid
    · have heq := h.one_result ht (addResultValid_iff.mp hadd).1 (addResultValid_iff.mp hadd).2
      rw [if_pos hadd, heq, hadd]
      exact ⟨rfl, rfl⟩
    by_cases hmul : s.mulResultValid
    · have heq := h.one_result ht (mulResultValid_iff.mp hmul).1 (mulResultValid_iff.mp hmul).2
      rw [if_neg hadd, if_pos hmul, heq, hmul, Bool.or_true]
      exact ⟨rfl, rfl⟩
    have hlatency : t.latency = p.macLatency := by
      rw [addResultValid_iff] at hadd
      rw [mulResultValid_iff] at hmul
      rw [LaneToken.latency] at hval hfinished ⊢
      split_ifs at hval hfinished ⊢
      · rfl
      · exact absurd ⟨hval, hfinished⟩ hmul
      · exact absurd ⟨hval, hfinished⟩ hadd
    rw [hlatency] at hval hfinished ⊢
    rw [if_neg hadd, if_neg hmul, macResultValid_iff.mpr ⟨hval, hfinished⟩, Bool.or_true]
    exact ⟨rfl, rfl⟩
  rw [resultTagO, resultO, hstage.2]
  exact ⟨hstage.1, hholds.tag, hholds.result⟩

theorem Tracked.delivered (h : Tracked past s) (hval : s.resultValidO) :
    ∃ t, tokenAt past t.latency = some t := by
  rw [resultValidO, Bool.or_eq_true, Bool.or_eq_true, addResultValid_iff, mulResultValid_iff,
    macResultValid_iff] at hval
  have hany : ∀ {n}, (s.stageQ n).validQ ∧ s.finished n → ∃ t, tokenAt past t.latency = some t := by
    rintro n ⟨hn, hfinished⟩
    obtain ⟨t, ht, rfl⟩ := h.arrived hn hfinished
    exact ⟨t, ht⟩
  rcases hval with (hadd | hmul) | hmac
  · exact hany hadd
  · exact hany hmul
  · exact hany hmac

end Delivery

end LaneState

/-- What the result of a token is: the rounded sum or product of its operands, or the rounded
sum of its accumulator and the rounded product. -/
def LaneToken.IsResult {p : LaneParams} (t : LaneToken p) (w : BitVec 32) : Prop :=
  if t.mac then
    ∃ product, IsProduct (datum t.src1) (datum t.src2) product ∧
      IsSum (datum t.src3) (datum product) w
  else if t.multiply then IsProduct (datum t.src1) (datum t.src2) w
  else IsSum (datum t.src1) (datum t.src2) w

theorem LaneToken.isResult {p : LaneParams} (t : LaneToken p) :
    t.IsResult (t.partialResult t.latency) := by
  have hpos := p.add_pos
  rw [LaneToken.IsResult, LaneToken.partialResult]
  split_ifs with hmac hlow hmultiply
  · rw [LaneToken.latency, if_pos hmac, macLatency] at hlow
    omega
  · exact ⟨_, multiplyFp32_isProduct _ _, addFp32_isSum _ _⟩
  · exact multiplyFp32_isProduct _ _
  · exact addFp32_isSum _ _

/-- The operations of the FP32 lane are correctly rounded, and so is each result of the lane. -/
theorem fp32_correctly_rounded (p : LaneParams) :
    (∀ a b, IsSum (datum a) (datum b) (addFp32 a b)) ∧
      (∀ a b, IsProduct (datum a) (datum b) (multiplyFp32 a b)) ∧
        ∀ (past : Sync.Past (LaneState p) (LaneInput p)) (s : LaneState p),
          Sync.Run (fp32Lane p) Sync.anyEnv past s →
            (s.resultValidO = true → ∃ t, LaneState.tokenAt past t.latency = some t) ∧
              ∀ t, LaneState.tokenAt past t.latency = some t →
                s.resultValidO = true ∧ s.resultTagO = t.tag ∧ t.IsResult s.resultO := by
  refine ⟨addFp32_isSum, multiplyFp32_isProduct, ?_⟩
  intro past s hrun
  have h := LaneState.tracked_of_run hrun
  refine ⟨h.delivered, ?_⟩
  intro t ht
  obtain ⟨hvalid, htag, hresult⟩ := h.presents ht
  exact ⟨hvalid, htag, by rw [hresult]; exact t.isResult⟩

theorem shortLane_add : 1 ≤ 1 := by decide

theorem shortLane_mul : 1 < 2 := by decide

def shortLane : LaneParams where
  tagWidth := 2
  addLatency := 1
  mulLatency := 2
  add_pos := shortLane_add
  add_lt_mul := shortLane_mul

/-- A cycle that asks for `1.5 * 1.5 + 0.25`, or for nothing. -/
def macCycle (valid : Bool) : LaneInput shortLane where
  flushI := false
  validI := valid
  tagI := 1
  multiplyI := false
  macI := valid
  src1I := 0x3fc00000
  src2I := 0x3fc00000
  src3I := 0x3e800000
  resultReadyI := true

def afterMac : Sync.Past (LaneState shortLane) (LaneInput shortLane) × LaneState shortLane :=
  Sync.exec (fp32Lane shortLane) [] ⟨fun _ => ⟨false, false, false, 0, 0, 0⟩, fun _ => false⟩
    [macCycle true, macCycle false, macCycle false, macCycle false]

theorem fp32_correctly_rounded_mac : afterMac.2.resultValidO = true ∧
    (LaneState.inputToken (macCycle true)).IsResult 0x40200000 := by
  have hrun : Sync.Run (fp32Lane shortLane) Sync.anyEnv afterMac.1 afterMac.2 :=
    Sync.exec_run _ (.reset rfl)
  have htoken : LaneState.tokenAt afterMac.1 (LaneState.inputToken (macCycle true)).latency =
      some (LaneState.inputToken (macCycle true)) := rfl
  obtain ⟨hvalid, -, hresult⟩ := ((fp32_correctly_rounded shortLane).2.2 _ _ hrun).2 _ htoken
  have hsum : afterMac.2.resultO = 0x40200000 := by decide +kernel
  rw [hsum] at hresult
  exact ⟨hvalid, hresult⟩

end OpenRV64
