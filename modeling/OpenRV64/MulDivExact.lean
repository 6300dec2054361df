/-
What `openrv64_exec_rv64m` hands out over a run: one result for each operation that it took and did
not discard, in order, and the one that the instruction set says.  So the two units hand out the
same for the same operations.
-/
import OpenRV64.MulDivArith

namespace OpenRV64

open BitSerial MulDivRequest Sync MulDivState

namespace MulDivState

variable {m : Multiplier} {divChunk : ℕ}

/-- The divider after `k` bits of the dividend. -/
structure Divides (r : MulDivRequest) (k : ℕ) (s : MulDivState m) : Prop where
  valid : r.startDivValid = true
  nonzero : r.startDivisorZero = false
  divisor : s.divDivisorQ = divStartDivisor r.startSignedDivOp r.wordOpI r.src2I
  holds : Division.Holds s.divDivisorQ s.divQ
    (divStartDividend r.startSignedDivOp r.wordOpI r.src1I) k
  negQuot : s.divNegQuotQ = r.negQuot
  negRem : s.divNegRemQ = r.negRem
  left : s.divFinalizeQ = false → k < r.bits ∧ s.divBitsLeftQ = r.bits - k
  last : s.divFinalizeQ = true → k = r.bits

/-- What the unit is at: the operation, if there is one, and a bound on the cycles until its
result is shown. -/
inductive Serves (c : m.Correct) (s : MulDivState m) : Option MulDivRequest → ℕ → Prop
  | idle : s.activeQ = false → s.resultValidQ = false → Serves c s none 0
  | multiplies {r : MulDivRequest} {n : ℕ} : s.activeQ = true → s.workKindQ = .mul →
      s.resultValidQ = false → s.opQ = r.opSelI → s.wordQ = r.wordOpI →
      r.startMulValid = true → c.Works r n s.mulQ → Serves c s (some r) n
  | divides {r : MulDivRequest} {k : ℕ} : s.activeQ = true → s.workKindQ = .div →
      s.resultValidQ = false → s.opQ = r.opSelI → s.wordQ = r.wordOpI →
      s.Divides r k → Serves c s (some r) (r.bits - k + 1)
  | shows {r : MulDivRequest} : s.activeQ = false → s.resultValidQ = true →
      ⟨s.illegalQ, s.resultQ⟩ = r.answer → Serves c s (some r) 0

variable {c : m.Correct} {s : MulDivState m} {i : MulDivInput} {r : MulDivRequest} {k n : ℕ}

theorem serves_reset : Serves c (reset : MulDivState m) none 0 := .idle rfl rfl

theorem serves_startWork (r : MulDivRequest) (hval : s.resultValidQ = false) :
    ∃ n ≤ 65, Serves c (s.startWork r) (some r) n := by
  unfold startWork
  by_cases hmul : r.startMulValid
  · rw [if_pos hmul]
    exact ⟨64, by omega, .multiplies rfl rfl hval rfl rfl hmul (c.load r hmul)⟩
  rw [if_neg hmul]
  by_cases hdiv : (r.startDivValid && !r.startDivisorZero && !r.startDivOverflow)
  · rw [if_pos hdiv]
    simp only [Bool.and_eq_true, Bool.not_eq_true'] at hdiv
    have hbits := r.bits_eq
    refine ⟨r.bits - 0 + 1, by omega, .divides rfl rfl hval rfl rfl ?_⟩
    exact
      { valid := hdiv.1.1
        nonzero := hdiv.1.2
        divisor := rfl
        holds := Division.holds_start
        negQuot := rfl
        negRem := rfl
        left := fun _ => ⟨by omega, rfl⟩
        last := nofun }
  rw [if_neg hdiv]
  refine ⟨0, by omega, .shows rfl rfl ?_⟩
  have hmul' : r.startMulValid = false := Bool.eq_false_iff.mpr hmul
  by_cases hvalidDiv : r.startDivValid
  · obtain ⟨op, hop, hkind⟩ := r.startDivValid_cases hvalidDiv
    by_cases hz : r.startDivisorZero
    · simp only [if_pos hz, hvalidDiv, Bool.not_true]
      exact (answer_zero hop hkind hz).symm
    · have hover : r.startDivOverflow := by simpa [hvalidDiv, hz] using hdiv
      simp only [if_neg hz, if_pos hover, hvalidDiv, Bool.not_true]
      exact (answer_overflow hop hover).symm
  · have hvalidDiv' : r.startDivValid = false := Bool.eq_false_iff.mpr hvalidDiv
    obtain ⟨hans, hzeroResult, hover⟩ := answer_refused hmul' hvalidDiv'
    simp only [hans, hzeroResult, hover, hvalidDiv', if_low, Bool.not_false, ite_self]

theorem serves_mulCycle (hact : s.activeQ) (hkind : s.workKindQ = .mul)
    (hshow : s.resultValidQ = false) (hop : s.opQ = r.opSelI) (hwrd : s.wordQ = r.wordOpI)
    (hval : r.startMulValid) (hworks : c.Works r n s.mulQ) :
    ∃ n' ≤ n - 1, Serves c s.mulCycle (some r) n' := by
  unfold mulCycle
  cases hlast : m.lastStep s.mulQ
  · rw [if_low]
    exact ⟨n - 1, le_rfl, .multiplies hact hkind hshow hop hwrd hval
      (c.step r n s.mulQ hworks hlast)⟩
  · rw [if_pos rfl]
    refine ⟨0, Nat.zero_le _, .shows rfl rfl ?_⟩
    simp only [hop, hwrd]
    exact c.result r n s.mulQ hval hworks hlast

theorem serves_divCycle (hchunk : 0 < divChunk) (hact : s.activeQ)
    (hkind : s.workKindQ = .div) (hshow : s.resultValidQ = false) (hop : s.opQ = r.opSelI)
    (hwrd : s.wordQ = r.wordOpI) (hdiv : s.Divides r k) :
    ∃ n' ≤ r.bits - k, Serves c (s.divCycle divChunk) (some r) n' := by
  have hdivisor : s.divDivisorQ.toNat = r.divisor := by
    rw [hdiv.divisor, divStartDivisor_toNat]
  have hpos : 0 < s.divDivisorQ.toNat := by
    rw [hdivisor]
    exact divisor_pos hdiv.nonzero
  have hbits := r.bits_eq
  unfold divCycle
  cases hfin : s.divFinalizeQ
  · rw [if_low]
    obtain ⟨hk, hleft⟩ := hdiv.left hfin
    rw [divStageStep_eq, hleft]
    refine ⟨r.bits - (k + min (r.bits - k) divChunk) + 1, by omega,
      .divides hact hkind hshow hop hwrd ?_⟩
    exact
      { valid := hdiv.valid
        nonzero := hdiv.nonzero
        divisor := hdiv.divisor
        holds := hdiv.holds.iterate hpos (by omega)
        negQuot := hdiv.negQuot
        negRem := hdiv.negRem
        left := fun hnot => by
          have hmore : r.bits - k - divChunk ≠ 0 := by simpa [hfin] using hnot
          exact ⟨by omega, by simp only; omega⟩
        last := fun hdone => by
          have hnone : r.bits - k - divChunk = 0 := by simpa [hfin] using hdone
          omega }
  rw [if_pos rfl]
  refine ⟨0, Nat.zero_le _, .shows rfl rfl ?_⟩
  have hall := hdiv.last hfin
  have hprefix := divStartDividend_toNat r
  have hrem := hdiv.holds.remainder
  have hquot := hdiv.holds.quotient
  rw [hall, hprefix, hdivisor] at hrem hquot
  simp only [hop, hwrd, hdiv.negQuot, hdiv.negRem]
  refine finishDivResult_eq hdiv.valid hdiv.nonzero hquot ?_
  rw [BitVec.toNat_setWidth, hrem, ← hdivisor]
  exact Nat.mod_eq_of_lt ((Nat.mod_lt _ hpos).trans s.divDivisorQ.isLt)

/-! ## A cycle -/

theorem taken_of_not_valid (hshow : s.resultValidQ = false) : s.taken i = s := by
  simp [taken, hshow]

/-- While the unit works it does not look at its inputs. -/
theorem serves_active (hchunk : 0 < divChunk) (h : Serves c s (some r) n)
    (hactive : s.activeQ) (hfl : i.flushI = false) :
    ∃ n' < n, Serves c (s.step divChunk i) (some r) n' := by
  have hnot : ¬ i.flushI := by simp [hfl]
  cases h with
  | multiplies hact hkind hshow hop hwrd hval hworks =>
    have hpos := c.pos r n s.mulQ hworks
    obtain ⟨n', hn', hserv⟩ := serves_mulCycle hact hkind hshow hop hwrd hval hworks
    refine ⟨n', by omega, ?_⟩
    simpa [step, hfl, hact, hkind, taken_of_not_valid hshow] using hserv
  | divides hact hkind hshow hop hwrd hdiv =>
    obtain ⟨n', hn', hserv⟩ := serves_divCycle hchunk hact hkind hshow hop hwrd hdiv
    refine ⟨n', by omega, ?_⟩
    simpa [step, hfl, hact, hkind, taken_of_not_valid hshow] using hserv
  | shows hact => simp [hact] at hactive

/-- A unit that does not work and keeps no result takes what is offered. -/
theorem serves_free (divChunk : ℕ) (hact : s.activeQ = false) (hfl : i.flushI = false)
    (hfree : (s.taken i).resultValidQ = false) :
    ∃ n, n ≤ 65 ∧
      Serves c (s.step divChunk i) (if s.start i then some i.toMulDivRequest else none) n := by
  have htaken : (s.taken i).activeQ = false := by
    unfold taken
    split <;> exact hact
  have hstep : s.step divChunk i =
      if s.start i then (s.taken i).startWork i.toMulDivRequest else s.taken i := by
    simp [step, hfl, hact]
  rw [hstep]
  cases s.start i
  · exact ⟨0, by omega, .idle htaken hfree⟩
  · exact serves_startWork i.toMulDivRequest hfree

/-- What the unit is at after a cycle: a result that is taken goes, and what is offered to a free
unit comes. -/
theorem serves_step {owed : Option MulDivRequest} (hchunk : 0 < divChunk)
    (hserv : Serves c s owed n) (hn : n ≤ 65) (hfl : i.flushI = false) :
    ∃ owed' n', (if s.resultValidQ && i.resultReadyI then none else owed).toList ++
        (if s.start i then some i.toMulDivRequest else none).toList = Option.toList owed' ∧
      n' ≤ 65 ∧ Serves c (s.step divChunk i) owed' n' ∧
      (owed ≠ none → s.resultValidQ = false → n' < n) := by
  have hbsy (hact : s.activeQ) (hshow : s.resultValidQ = false) {r : MulDivRequest}
      (howed : owed = some r) : ∃ owed' n',
        (if s.resultValidQ && i.resultReadyI then none else owed).toList ++
          (if s.start i then some i.toMulDivRequest else none).toList = Option.toList owed' ∧
        n' ≤ 65 ∧ Serves c (s.step divChunk i) owed' n' ∧
        (owed ≠ none → s.resultValidQ = false → n' < n) := by
    subst howed
    have hstart : s.start i = false := by simp [start, readyO, hact]
    obtain ⟨n', hlt, hnxt⟩ := serves_active hchunk hserv hact hfl
    exact ⟨some r, n', by simp [hshow, hstart], by omega, hnxt, fun _ _ => hlt⟩
  cases hserv with
  | idle hact hshow =>
    obtain ⟨n', hn', hnxt⟩ := serves_free (c := c) divChunk hact hfl
      (by rw [taken_of_not_valid hshow, hshow])
    exact ⟨_, n', by simp, hn', hnxt, fun h => absurd rfl h⟩
  | multiplies hact hkind hshow => exact hbsy hact hshow rfl
  | divides hact hkind hshow => exact hbsy hact hshow rfl
  | @shows r hact hshow hans =>
  cases hrdy : i.resultReadyI
  · have hstart : s.start i = false := by simp [start, readyO, hshow, hrdy]
    have hstep : s.step divChunk i = s := by
      simp [step, hfl, hact, hstart, taken, hrdy]
    rw [hstep]
    refine ⟨some r, 0, by simp [hstart], hn, .shows hact hshow hans, fun _ hnot => ?_⟩
    simp [hshow] at hnot
  · obtain ⟨n', hn', hnxt⟩ := serves_free (c := c) divChunk hact hfl (by simp [taken, hrdy, hshow])
    refine ⟨_, n', by simp [hshow], hn', hnxt, fun _ hnot => ?_⟩
    simp [hshow] at hnot

end MulDivState

/-! ## The books -/

section Books

open MulDivState

variable {m : Multiplier}

/-- The unit holds the operation that it is at. -/
def mulDivHolding (c : m.Correct) (divBitsPerCycle : ℤ) :
    (mulDivUnit m divBitsPerCycle).Holding answer inside 65 where
  Holds s q n := ∃ owed, q = Option.toList owed ∧ n ≤ 65 ∧ Serves c s owed n
  reset s hinit := ⟨none, rfl, by omega, by rw [hinit]; exact serves_reset⟩
  count s q n h := by
    obtain ⟨owed, rfl, -, hserves⟩ := h
    cases hserves <;> simp_all [inside, busyO]
  within s q n h := by
    obtain ⟨owed, -, hn, -⟩ := h
    exact hn
  pos s q n h hq hshows := by
    obtain ⟨owed, rfl, -, hserves⟩ := h
    cases hserves with
    | idle => exact absurd rfl hq
    | multiplies _ _ _ _ _ _ hworks => exact c.pos _ n s.mulQ hworks
    | divides => omega
    | shows _ hvalid => simp [mulDivUnit, resultValidO, hvalid] at hshows
  shown s q n a h hshows := by
    obtain ⟨owed, rfl, -, hserves⟩ := h
    have hvalid : s.resultValidQ = true := by
      by_contra hnot
      simp [mulDivUnit, resultValidO, hnot] at hshows
    cases hserves with
    | idle _ hnot => simp [hvalid] at hnot
    | multiplies _ _ hnot => simp [hvalid] at hnot
    | divides _ _ hnot => simp [hvalid] at hnot
    | @shows r _ _ hanswer =>
      refine ⟨r, [], rfl, ?_⟩
      rw [← hanswer]
      simpa [mulDivUnit, resultValidO, illegalO, resultO, hvalid] using hshows.symm
  flushed s i hflush := by
    refine ⟨none, rfl, by omega, ?_⟩
    have hreset : (mulDivUnit m divBitsPerCycle).step s i = .reset := by
      have hf : i.flushI = true := hflush
      simp [mulDivUnit, step, hf]
    rw [hreset]
    exact serves_reset
  step s q n i h hflush := by
    obtain ⟨owed, rfl, hn, hserves⟩ := h
    obtain ⟨owed', n', howed, hn', hnext, hless⟩ :=
      serves_step (chunkWidth_pos divBitsPerCycle) hserves hn hflush
    refine ⟨n', ⟨owed', ?_, hn', hnext⟩, fun hq hshows => hless ?_ ?_⟩
    · rw [← howed]
      have hhands : ((mulDivUnit m divBitsPerCycle).hands s i).isSome =
          (s.resultValidQ && i.resultReadyI) := by
        change (if i.resultReadyI then if s.resultValidQ then some _ else none
          else none : Option MulDivAnswer).isSome = _
        cases i.resultReadyI <;> cases s.resultValidQ <;> rfl
      rw [hhands]
      cases s.resultValidQ && i.resultReadyI
      · rfl
      · cases owed <;> rfl
    · rintro rfl
      exact hq rfl
    · cases hvalid : s.resultValidQ
      · rfl
      · simp [mulDivUnit, resultValidO, hvalid] at hshows

end Books

/-! ## The two units -/

/-- Each operation that is taken and not discarded is answered once, in order and as the
instruction set says, with every setting of the two widths and under every schedule. -/
theorem rv64m_answers (mulBitsPerCycle divBitsPerCycle : ℤ)
    {past : Past (MulDivServed (iterativeMultiplier mulBitsPerCycle)) MulDivInput}
    {t : MulDivServed (iterativeMultiplier mulBitsPerCycle)}
    (hrun : Run (iterativeUnit mulBitsPerCycle divBitsPerCycle).served anyEnv past t) :
    t.InOrder (iterativeUnit mulBitsPerCycle divBitsPerCycle) answer
        inside ∧ t.Soon (iterativeUnit mulBitsPerCycle divBitsPerCycle) 65 := by
  have hbooks : (mulDivHolding (iterativeMultiplier_correct mulBitsPerCycle)
      divBitsPerCycle).Books t := Server.Holding.books_run hrun
  exact ⟨hbooks.inOrder, hbooks.soon⟩

/-- `-7 / 2` as words, with `MULH` of two negative numbers after it. -/
def quotientThenProduct : List MulDivInput :=
  let request (op : MulOp) (word : Bool) (src1 src2 : BitVec 64) : MulDivInput :=
    { opSelI := some op
      wordOpI := word
      src1I := src1
      src2I := src2
      flushI := false
      validI := true
      resultReadyI := true }
  request .div true (-7) 2 :: List.replicate 50 (request .mulh false (-1) (-1))

theorem rv64m_answers_example :
    let t := (Sync.exec (iterativeUnit 4 2).served [] ⟨.reset, [], []⟩ quotientThenProduct).2
    t.InOrder (iterativeUnit 4 2) answer inside ∧ t.Soon (iterativeUnit 4 2) 65 :=
  rv64m_answers 4 2 (Sync.exec_run quotientThenProduct (.reset ⟨rfl, rfl, rfl⟩))

section Pair

variable {mulBits divBits divBits' : ℤ}
  {past : Past (MulDivServed (iterativeMultiplier mulBits) × MulDivServed productMultiplier)
    MulDivInput}
  {t : MulDivServed (iterativeMultiplier mulBits) × MulDivServed productMultiplier}

section

variable (hrun : Run (unitPair mulBits divBits divBits') (cycleEnv offeredToBoth) past t)

include hrun

theorem kept_of_offeredToBoth : t.1.kept = t.2.kept := by
  refine hrun.stateInvariant (P := fun t => t.1.kept = t.2.kept) ?_ ?_
  · rintro ⟨t, t'⟩ ⟨⟨-, hkept, -⟩, -, hkept', -⟩
    exact hkept.trans hkept'.symm
  · rintro past ⟨t, t'⟩ i ⟨hfl, hrdy⟩ hkept
    have hstart : t.unit.start i = t'.unit.start i := by
      simp only [start]
      cases hval : i.validI
      · rfl
      · rw [(hrdy hval).1, (hrdy hval).2]
    have hsame : t.kept = t'.kept := hkept
    simp [unitPair, iterativeUnit, productUnit, mulDivUnit, Server.served, Served.step,
      hfl, hstart, hsame]

theorem agreesWith_of_unitPair : t.1.AgreesWith inside inside t.2 := by
  have hbooks : (mulDivHolding (iterativeMultiplier_correct mulBits) divBits).Books t.1 ∧
      (mulDivHolding productMultiplier_correct divBits').Books t.2 := by
    refine hrun.stateInvariant (P := fun t =>
      (mulDivHolding (iterativeMultiplier_correct mulBits) divBits).Books t.1 ∧
        (mulDivHolding productMultiplier_correct divBits').Books t.2) ?_ ?_
    · rintro ⟨t, t'⟩ ⟨hinit, hinit'⟩
      exact ⟨Server.Holding.books_init hinit, Server.Holding.books_init hinit'⟩
    · rintro past ⟨t, t'⟩ i - ⟨h, h'⟩
      exact ⟨h.step, h'.step⟩
  exact hbooks.1.inOrder.agreesWith hbooks.2.inOrder

end

end Pair

/-- The two units hand out the same for the same operations, whatever the schedule of each; and on
one schedule without a flush, which offers an operation when both are ready, the operations are the
same. -/
theorem units_agree (mulBits divBits divBits' : ℤ) :
    (∀ past t past' t', Run (iterativeUnit mulBits divBits).served anyEnv past t →
      Run (productUnit divBits').served anyEnv past' t' →
      t.AgreesWith inside inside t') ∧
    ∀ past t, Run (unitPair mulBits divBits divBits') (cycleEnv offeredToBoth) past t →
      t.1.kept = t.2.kept ∧ t.1.AgreesWith inside inside t.2 := by
  constructor
  · intro past t past' t' hrun hrun'
    have hbooks : (mulDivHolding (iterativeMultiplier_correct mulBits) divBits).Books t :=
      Server.Holding.books_run hrun
    have hbooks' : (mulDivHolding productMultiplier_correct divBits').Books t' :=
      Server.Holding.books_run hrun'
    exact hbooks.inOrder.agreesWith hbooks'.inOrder
  · intro past t hrun
    exact ⟨kept_of_offeredToBoth hrun, agreesWith_of_unitPair hrun⟩

/-- A multiplication and the cycles that the slower unit needs for it. -/
def productAlone : List MulDivInput :=
  let input (valid : Bool) : MulDivInput :=
    { opSelI := some .mulhsu
      wordOpI := false
      src1I := -6
      src2I := 7
      flushI := false
      validI := valid
      resultReadyI := true }
  input true :: List.replicate 17 (input false)

theorem units_agree_example :
    let t := (Sync.exec (unitPair 4 2 3) [] (⟨.reset, [], []⟩, ⟨.reset, [], []⟩) productAlone).2
    ((Sync.exec (iterativeUnit 4 2).served [] ⟨.reset, [], []⟩ quotientThenProduct).2.AgreesWith
        inside inside
        (Sync.exec (productUnit 3).served [] ⟨.reset, [], []⟩ quotientThenProduct).2) ∧
      t.1.kept = t.2.kept ∧ t.1.AgreesWith inside inside t.2 :=
  ⟨(units_agree 4 2 3).1 _ _ _ _ (Sync.exec_run quotientThenProduct (.reset ⟨rfl, rfl, rfl⟩))
      (Sync.exec_run quotientThenProduct (.reset ⟨rfl, rfl, rfl⟩)), (units_agree 4 2 3).2 _ _
      (exec_run_decide productAlone ⟨⟨rfl, rfl, rfl⟩, rfl, rfl, rfl⟩ (by decide))⟩

/-- A multiplication, four cycles, and a flush. -/
def flushedProduct : List MulDivInput :=
  let input (valid flush : Bool) : MulDivInput :=
    { opSelI := some .mul
      wordOpI := false
      src1I := 6
      src2I := 7
      flushI := flush
      validI := valid
      resultReadyI := true }
  input true false :: (List.replicate 4 (input false false) ++ [input false true])

/-- The flush comes after the product of the one unit and before that of the other, and neither
has anything left to do. -/
theorem units_differ_on_flush :
    let t := (Sync.exec (iterativeUnit 4 2).served [] ⟨.reset, [], []⟩ flushedProduct).2
    let t' := (Sync.exec (productUnit 2).served [] ⟨.reset, [], []⟩ flushedProduct).2
    t.unit.inside = 0 ∧ t'.unit.inside = 0 ∧ t.returned = [] ∧ t'.returned = [⟨false, 42⟩] := by
  decide

end OpenRV64
