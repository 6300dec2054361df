/-
What the Zbb sequencer hands out over a run: one result for each operation that it took and did not
discard, in order, and the one that the instruction set says.
-/
import OpenRV64.ZbbProgram

namespace OpenRV64

open BitScan ZbbRequest

namespace ZbbState

variable {r : ZbbRequest} {op : ZbbOp} {s : ZbbState} {i : ZbbInput} {n : ℕ}

/-! ## A new operation -/

theorem count_word (x : BitVec 64) :
    (0#32 ++ x.extractLsb' 0 32).cpop.toNat = (x.setWidth 32).cpop.toNat := by
  rw [BitVec.toNat_cpop_append, BitVec.cpop_zero,
    BitVec.setWidth_eq_extractLsb' (x := x) (w := 32) (by omega)]
  simp

/-- What a legal operation with micro-operations starts with. -/
theorem program_start (hdirect : op.direct = false) {t : ZbbState} (hstep : t.stepQ = 0)
    (hcnt : t.countQ = 0)
    (hamount : t.amountQ =
      if r.wordOpI then 0#1 ++ r.src2I.extractLsb' 0 5 else r.src2I.extractLsb' 0 6)
    (haux : t.auxQ = if op == .andn || op == .orn then ~~~r.src2I else r.src2I)
    (hwork : t.workQ = loaded r op) : ∃ n, Program r t op n := by
  have hnumber : t.amountQ.toNat = amount r := by
    rw [hamount]
    unfold amount width
    cases r.wordOpI
    · simp
    · rw [if_pos rfl, if_pos rfl, BitVec.toNat_append, BitVec.extractLsb'_toNat]
      simp
  have hscan (hop : op = .clz ∨ op = .ctz) : t.Scan r op 0 :=
    { step := hstep
      last := by omega
      bits := fun j => by rw [hwork, hcnt, Nat.zero_add]
      found := by
        rw [hcnt]
        exact found_start (firstOne_loaded hop) }
  cases op with
  | andn => exact ⟨1, .logic (by simp) hwork haux⟩
  | orn => exact ⟨1, .logic (by simp) hwork haux⟩
  | xnor => exact ⟨1, .logic (by simp) hwork haux⟩
  | min => exact ⟨1, .minmax (by simp) hwork haux⟩
  | minu => exact ⟨1, .minmax (by simp) hwork haux⟩
  | max => exact ⟨1, .minmax (by simp) hwork haux⟩
  | maxu => exact ⟨1, .minmax (by simp) hwork haux⟩
  | rol => exact ⟨3, .shiftAway (by simp) hstep hwork hnumber⟩
  | ror => exact ⟨3, .shiftAway (by simp) hstep hwork hnumber⟩
  | clz => exact ⟨6, .scan (by simp) (hscan (by simp))⟩
  | ctz => exact ⟨6, .scan (by simp) (hscan (by simp))⟩
  | cpop =>
    refine ⟨parts r - 0, .pop ⟨hstep, ?_, ?_, ?_⟩⟩
    · unfold parts
      split <;> omega
    · rw [hcnt, hwork, Nat.zero_add]
      unfold ones
      cases hwrd : r.wordOpI
      · simp [loaded, hwrd]
      · simpa [loaded, hwrd] using count_word r.src1I
    · rw [hwork]
      unfold parts
      cases hwrd : r.wordOpI
      · simpa using (loaded r .cpop).isLt
      have hload : loaded r .cpop = 0#32 ++ r.src1I.extractLsb' 0 32 := by
        simp [loaded, hwrd]
      have hlt := (r.src1I.extractLsb' 0 32).isLt
      rw [hload, BitVec.toNat_append]
      simpa using hlt
  | sextB => cases hdirect
  | sextH => cases hdirect
  | zextH => cases hdirect
  | orcB => cases hdirect
  | rev8 => cases hdirect

/-- The registers of a legal operation with micro-operations. -/
def loads (s : ZbbState) (r : ZbbRequest) (op : ZbbOp) : ZbbState :=
  { s with
    activeQ := true
    resultValidQ := false
    illegalQ := false
    opQ := some op
    wordQ := r.wordOpI
    stepQ := 0
    amountQ := if r.wordOpI then 0#1 ++ r.src2I.extractLsb' 0 5 else r.src2I.extractLsb' 0 6
    countQ := 0
    auxQ := if op == .andn || op == .orn then ~~~r.src2I else r.src2I
    workQ := loaded r op }

theorem answer_direct (hop : r.opSelI = some op) (hval : op.valid r.wordOpI)
    (hdirect : op.direct) : r.answer = ⟨false, directResult op r.src1I⟩ := by
  have heval := directResult_eq hdirect r.src1I r.src2I
  have hwrd : (r.wordOpI && op != .zextH) = false := by
    cases op <;> simp_all [ZbbOp.valid, ZbbOp.direct]
  simp [answer, hop, hval, hwrd, heval]

/-- What the unit is at: the operation, if there is one, and a bound on the cycles until its
result is shown. -/
inductive Serves (s : ZbbState) : Option ZbbRequest → ℕ → Prop
  | idle : s.activeQ = false → s.resultValidQ = false → Serves s none 0
  | works {r : ZbbRequest} {op : ZbbOp} {n : ℕ} : s.On r op → Program r s op n → Serves s (some r) n
  | shows {r : ZbbRequest} : s.Shows r → Serves s (some r) 0

theorem serves_startWork (s : ZbbState) (r : ZbbRequest) :
    ∃ n ≤ 6, Serves (s.startWork r) (some r) n := by
  cases hop : r.opSelI with
  | none =>
    refine ⟨0, by omega, .shows ⟨?_, ?_, ?_⟩⟩
    · simp [startWork, hop, refuse]
    · simp [startWork, hop, refuse]
    · rw [answer_of_invalid (by simp [hop])]
      simp [startWork, hop, refuse]
  | some op =>
  cases hval : op.valid r.wordOpI
  · refine ⟨0, by omega, .shows ⟨?_, ?_, ?_⟩⟩
    · simp [startWork, hop, hval, refuse]
    · simp [startWork, hop, hval, refuse]
    · rw [answer_of_invalid (by simp [hop, hval])]
      simp [startWork, hop, hval, refuse]
  cases hdirect : op.direct
  · have hstart : s.startWork r = s.loads r op := by
      simp [startWork, hop, hval, hdirect, loads, loaded]
    rw [hstart]
    obtain ⟨n, hprogram⟩ := program_start (r := r) hdirect (t := s.loads r op)
      rfl rfl rfl rfl rfl
    exact ⟨n, hprogram.le, .works ⟨hop, hval, rfl, rfl, rfl, rfl, rfl⟩ hprogram⟩
  refine ⟨0, by omega, .shows ⟨?_, ?_, ?_⟩⟩
  · simp [startWork, hop, hval, hdirect, finish]
  · simp [startWork, hop, hval, hdirect, finish]
  · rw [answer_direct hop hval hdirect]
    simp [startWork, hop, hval, hdirect, finish]

/-! ## A cycle -/

theorem taken_of_not_valid (hshow : s.resultValidQ = false) : s.taken i = s := by
  simp [taken, hshow]

/-- A unit that does not work and keeps no result takes what is offered. -/
theorem serves_free (hact : s.activeQ = false) (hfl : i.flushI = false)
    (hfree : (s.taken i).resultValidQ = false) :
    ∃ n ≤ 6, Serves (s.step i) (if s.start i then some i.toZbbRequest else none) n := by
  have htaken : (s.taken i).activeQ = false := by
    unfold taken
    split <;> exact hact
  have hstep : s.step i =
      if s.start i then (s.taken i).startWork i.toZbbRequest else s.taken i := by
    simp [step, hfl, hact]
  rw [hstep]
  cases s.start i
  · exact ⟨0, by omega, .idle htaken hfree⟩
  · exact serves_startWork (s.taken i) i.toZbbRequest

/-- What the unit is at after a cycle: a result that is taken goes, and what is offered to a free
unit comes. -/
theorem serves_step {owed : Option ZbbRequest} (hserv : Serves s owed n)
    (hn : n ≤ 6) (hfl : i.flushI = false) :
    ∃ owed' n', (if s.resultValidQ && i.resultReadyI then none else owed).toList ++
        (if s.start i then some i.toZbbRequest else none).toList = Option.toList owed' ∧
      n' ≤ 6 ∧ Serves (s.step i) owed' n' ∧ (owed ≠ none → s.resultValidQ = false → n' < n) := by
  cases hserv with
  | idle hact hshow =>
    obtain ⟨n', hn', hnxt⟩ := serves_free hact hfl (by rw [taken_of_not_valid hshow, hshow])
    exact ⟨_, n', by simp, hn', hnxt, fun h => absurd rfl h⟩
  | @works r op n hon hprogram =>
    have hpos := hprogram.pos
    have hstart : s.start i = false := by simp [start, readyO, hon.active]
    have hstep : s.step i = s.work (s.alu i.pcI) := by
      simp [step, hfl, hon.active, taken_of_not_valid hon.shown]
    rw [hstep]
    rcases hprogram.work i.pcI hon with hshows | ⟨hon', hprogram'⟩
    · exact ⟨some r, 0, by simp [hon.shown, hstart], by omega, .shows hshows, fun _ _ => hpos⟩
    · exact ⟨some r, n - 1, by simp [hon.shown, hstart], by omega, .works hon' hprogram',
        fun _ _ => by omega⟩
  | @shows r hshows =>
  cases hrdy : i.resultReadyI
  · have hstart : s.start i = false := by simp [start, readyO, hshows.shown, hrdy]
    have hstep : s.step i = s := by
      simp [step, hfl, hshows.active, hstart, taken, hrdy]
    rw [hstep]
    refine ⟨some r, 0, by simp [hstart], hn, .shows hshows, fun _ hnot => ?_⟩
    simp [hshows.shown] at hnot
  · obtain ⟨n', hn', hnxt⟩ := serves_free hshows.active hfl (by simp [taken, hrdy, hshows.shown])
    refine ⟨_, n', by simp [hshows.shown], hn', hnxt, fun _ hnot => ?_⟩
    simp [hshows.shown] at hnot

end ZbbState

/-! ## The books -/

open ZbbState

/-- The unit holds the operation that it is at. -/
def zbbHolding : zbbUnit.Holding answer inside 6 where
  Holds s q n := ∃ owed, q = Option.toList owed ∧ n ≤ 6 ∧ Serves s owed n
  reset s hinit := ⟨none, rfl, by omega, by rw [hinit]; exact .idle rfl rfl⟩
  count s q n h := by
    obtain ⟨owed, rfl, -, hserves⟩ := h
    cases hserves with
    | idle hact hshown => simp [inside, busyO, hact, hshown]
    | works hon => simp [inside, busyO, hon.active]
    | shows hshows => simp [inside, busyO, hshows.shown]
  within s q n h := by
    obtain ⟨owed, -, hn, -⟩ := h
    exact hn
  pos s q n h hq hnone := by
    obtain ⟨owed, rfl, -, hserves⟩ := h
    cases hserves with
    | idle => exact absurd rfl hq
    | works hon hprogram => exact hprogram.pos
    | shows hshows => simp [zbbUnit, resultValidO, hshows.shown] at hnone
  shown s q n a h hsome := by
    obtain ⟨owed, rfl, -, hserves⟩ := h
    cases hserves with
    | idle _ hnot => simp [zbbUnit, resultValidO, hnot] at hsome
    | works hon => simp [zbbUnit, resultValidO, hon.shown] at hsome
    | @shows r hshows =>
      refine ⟨r, [], rfl, ?_⟩
      rw [← hshows.answer]
      simpa [zbbUnit, resultValidO, illegalO, resultO, hshows.shown] using hsome.symm
  flushed s i hflush := by
    have hreset : zbbUnit.step s i = .reset := by
      have hf : i.flushI = true := hflush
      simp [zbbUnit, step, hf]
    rw [hreset]
    exact ⟨none, rfl, by omega, .idle rfl rfl⟩
  step s q n i h hflush := by
    obtain ⟨owed, rfl, hn, hserves⟩ := h
    obtain ⟨owed', n', howed, hn', hnext, hless⟩ := serves_step hserves hn hflush
    refine ⟨n', ⟨owed', ?_, hn', hnext⟩, fun hq hnone => hless ?_ ?_⟩
    · rw [← howed]
      have hhands : (zbbUnit.hands s i).isSome = (s.resultValidQ && i.resultReadyI) := by
        change (if i.resultReadyI then if s.resultValidQ then some _ else none
          else none : Option ZbbAnswer).isSome = _
        cases i.resultReadyI <;> cases s.resultValidQ <;> rfl
      rw [hhands]
      cases s.resultValidQ && i.resultReadyI
      · rfl
      · cases owed <;> rfl
    · rintro rfl
      exact hq rfl
    · cases hvalid : s.resultValidQ
      · rfl
      · simp [zbbUnit, resultValidO, hvalid] at hnone

/-- Each operation that is taken and not discarded is answered once, in order, as the instruction
set says or as an illegal one, under every schedule. -/
theorem zbb_answers {past : Sync.Past (Sync.Served ZbbState ZbbRequest ZbbAnswer) ZbbInput}
    {t : Sync.Served ZbbState ZbbRequest ZbbAnswer}
    (hrun : Sync.Run zbbUnit.served Sync.anyEnv past t) :
    t.InOrder zbbUnit answer inside ∧ t.Soon zbbUnit 6 := by
  have hbooks : zbbHolding.Books t := Sync.Server.Holding.books_run hrun
  exact ⟨hbooks.inOrder, hbooks.soon⟩

/-- `CLZW` of zero, with the operation offered again after it. -/
def scanOfZero : List ZbbInput :=
  List.replicate 9
    { opSelI := some .clz
      wordOpI := true
      src1I := 0xffffffff00000000
      src2I := 0
      flushI := false
      validI := true
      resultReadyI := true
      pcI := 0 }

theorem zbb_answers_example :
    let t := (Sync.exec zbbUnit.served [] ⟨.reset, [], []⟩ scanOfZero).2
    t.InOrder zbbUnit answer inside ∧ t.Soon zbbUnit 6 :=
  zbb_answers (Sync.exec_run scanOfZero (.reset ⟨rfl, rfl, rfl⟩))

end OpenRV64
