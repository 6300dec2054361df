/-
The one-wide core executes its program in order: from WB back to fetch the addresses of the
stages follow one another, up to an instruction behind which everything is thrown away.
-/
import OpenRV64.ScalarIssueExact
import OpenRV64.ScalarProgram

namespace OpenRV64

open Sync ScalarState MemWbPacket FetchStream

/-! ## A chain of stages -/

namespace Stage

variable {α β : Type} {reg reg' entered left : Option α} {addr next : α → β} {a : β}

/-- What follows a stage, if `a` is what it goes on from. -/
def follow (reg : Option α) (next : α → β) (a : β) : β := (reg.map next).getD a

/-- A stage holds what comes at `a`, if it holds something. -/
def Linked (reg : Option α) (addr : α → β) (a : β) : Prop := ∀ x, reg = some x → addr x = a

theorem linked_of_none (h : reg = none) : Linked reg addr a := fun _ hx => by
  cases h.symm.trans hx

/-- A stage whose input follows it goes on where the one in front of it has gone. -/
theorem Moves.linked (h : Moves reg reg' entered left) (next : α → β) (hreg : Linked reg addr a)
    (hentered : Linked entered addr (follow reg next a)) :
    Linked reg' addr (follow left next a) ∧
      follow reg' next (follow left next a) = follow entered next (follow reg next a) := by
  cases h with
  | turns hnxt hleft =>
    rw [hnxt, hleft]
    exact ⟨hentered, rfl⟩
  | stays hentered' hleft hnxt =>
    rw [hnxt, hleft, hentered']
    exact ⟨hreg, rfl⟩

end Stage

open Stage

/-! ## The predictor does not stall what it redirects -/

namespace ScalarState

variable {p : ScalarParams} {s : ScalarState p} {i : ScalarInput}

theorem branchAllocate_parts (h : s.branchAllocate i) : s.branchPresent i ∧ s.ifIdOutClear i := by
  rw [branchAllocate, Bool.and_eq_true] at h
  exact h

theorem Predicted.not_stalled {b : BpSignals} (h : s.Predicted i b)
    (hredir : s.predictRedirect i) (hfast : i.predictionFastI) : i.bpFetchStallI = false := by
  rw [predictRedirect, Bool.and_eq_true] at hredir
  obtain ⟨hpresent, hclr⟩ := branchAllocate_parts hredir.1
  have htaken := hredir.2
  rw [ifIdOutClear, Bool.and_eq_true, Bool.not_eq_true', h.decodeStall,
    BpSignals.decodeStallO] at hclr
  rw [h.taken, hpresent, BpSignals.predictionTakenO, BpSignals.rasPredictionValid,
    BpSignals.policyTaken] at htaken
  have hpolicy : b.bpType.policyStallsAll = false := by
    revert htaken
    cases b.bpType <;> simp [BpType.policyStallsAll, BpType.useTablePredictor,
      BpType.useAdvanced, BpType.useTournament]
  rw [h.fetchStall, BpSignals.fetchStallO, BpSignals.effectiveLookupRequiresStall, hpolicy,
    h.direct hfast, Bool.false_and, Bool.or_false, Bool.and_false, Bool.false_or]
  exact hclr.2

theorem fetchInput_of_front {t : FetchStream} (hfront : t.front = s.front) :
    t.fetchInput (s.frontInput i) = s.fetchInput i := by
  rw [FetchStream.fetchInput, hfront, FetchFront.fetchInput, front_fetchPort, front_fetchPcValid]
  rfl

/-- Decode takes what the unit hands out again on a predicted redirect. -/
theorem Predicted.replayTaken {b : BpSignals} (h : s.Predicted i b) {t : FetchStream}
    (hfront : t.front = s.front) : t.ReplayTaken (s.frontInput i) := by
  intro _ hrep
  rw [fetchInput_of_front hfront, FetchState.redirectReplayValid, Bool.and_eq_true,
    Bool.and_eq_true] at hrep
  have hredir : s.predictRedirect i && i.predictionFastI := hrep.1.2
  rw [Bool.and_eq_true] at hredir
  have hclr := (branchAllocate_parts (Bool.and_eq_true_iff.mp hredir.1).1).2
  change (s.ifIdInClear i && !i.bpFetchStallI) = true
  rw [h.not_stalled hredir.1 hredir.2, ifIdInClear, Stage.inClear, hclr, Bool.or_true]
  rfl

/-! ## What the stages hold of the program -/

/-- Everything behind the instruction in WB is thrown away. -/
def Cut (s : ScalarState p) : Prop :=
  ∃ w, s.memWbQ = some w ∧ (w.exception = true ∨ w.isMret = true ∨ w.isSret = true)

/-- What is in EX is thrown away. -/
def Wrong (s : ScalarState p) : Prop := s.Cut ∨ ∃ m, s.exMemQ = some m ∧ m.Doomed

/-- What comes from fetch is thrown away. -/
def Astray (s : ScalarState p) : Prop := s.Wrong ∨ s.Armed

section After

variable (s) (nextPc : BitVec 64)

/-- Where fetch was sent behind an instruction in EX. -/
def predictedNext (d : DispatchPacket) : BitVec 64 :=
  if (d.op p).control && d.predictedTaken then s.predictedTargetQ else d.pc + 4

def afterWb : BitVec 64 := follow s.memWbQ MemWbPacket.nextPc nextPc

def afterMem : BitVec 64 := follow s.exMemQ ExMemPacket.nextPc (s.afterWb nextPc)

def afterDispatch : BitVec 64 := follow s.dispatchQ s.predictedNext (s.afterMem nextPc)

def afterIfId : BitVec 64 := follow s.ifIdQ (fun f => f.pc + 4) (s.afterDispatch nextPc)

/-- The address of the next instruction after a cycle. -/
def nextPcAfter (i : ScalarInput) : BitVec 64 :=
  if s.irqTake i then s.trapVector i else follow s.retiring (s.successor i) nextPc

/-- Each stage holds what follows the stage in front of it, and `next` is what decode is owed
next. -/
structure Chain (next : BitVec 64) : Prop where
  wb : Linked s.memWbQ MemWbPacket.pc nextPc
  mem : ¬ s.Cut → Linked s.exMemQ ExMemPacket.pc (s.afterWb nextPc)
  dispatch : ¬ s.Wrong → Linked s.dispatchQ DispatchPacket.pc (s.afterMem nextPc)
  ifId : ¬ s.Astray → Linked s.ifIdQ FetchPacket.pc (s.afterDispatch nextPc)
  fetch : ¬ s.Astray → s.resetPendingQ = false → s.haltPendingQ = false → next = s.afterIfId nextPc

end After

variable {nextPc next : BitVec 64}

/-! ### The back of the pipeline -/

theorem memWbQ_of_retiring {w : MemWbPacket} (h : s.retiring = some w) : s.memWbQ = some w := by
  rw [retiring] at h
  split_ifs at h
  exact h

theorem noIrq_of_flow (h : s.flushExMem i = false) : s.irqTake i = false := by
  simp only [flushExMem, Bool.or_eq_false_iff] at h
  exact h.1.1.2

theorem exFires_of_none (h : s.dispatchQ = none) : s.exFires i = none := by
  cases hd : s.exFires i with
  | none => rfl
  | some d => cases h.symm.trans (goes_of_fires hd).dispatched

/-- An instruction that cuts the program off waits in WB, flushes what follows it, or halts the
core. -/
theorem Cut.stays (h : s.Cut) (hfl : s.flushExMem i = false)
    (hgo : (s.step i).haltedQ = false) : s.csrBusy ∧ (s.step i).memWbQ = s.memWbQ := by
  obtain ⟨w, hw, hends⟩ := h
  have hbsy : s.csrBusy := by
    by_contra hidle
    have hidle' : s.csrBusy = false := by simpa using hidle
    simp only [flushExMem, hardFlushTrap, Bool.or_eq_false_iff] at hfl
    rcases hends with hexc | hmret | hsret
    · have hhalt : w.halt := by
        by_contra hhalt
        have htrap : s.retires fun w => w.exception && !w.halt :=
          retires_iff.mpr ⟨hidle', w, hw, by simp [hexc, hhalt]⟩
        rw [hfl.1.1.1] at htrap
        cases htrap
      have hhalted : (s.step i).haltedQ = (s.haltedQ || w.halt) := by
        change (s.haltedQ || (s.memWbQ.map halt).getD false) = _
        rw [hw]
        rfl
      rw [hhalted, hhalt, Bool.or_true] at hgo
      cases hgo
    · rw [retires_iff.mpr ⟨hidle', w, hw, hmret⟩] at hfl
      cases hfl.1.2
    · rw [retires_iff.mpr ⟨hidle', w, hw, hsret⟩] at hfl
      cases hfl.2
  refine ⟨hbsy, Stage.next_of_held rfl ?_⟩
  simp [Stage.inClear, hw, hbsy]

theorem Cut.step (h : s.Cut) (hfl : s.flushExMem i = false)
    (hgo : (s.step i).haltedQ = false) : (s.step i).Cut := by
  have hsame := (h.stays hfl hgo).2
  obtain ⟨w, hw, hends⟩ := h
  exact ⟨w, hsame.trans hw, hends⟩

theorem cut_of_trapping (h : s.WbTrapping) : s.Cut := by
  obtain ⟨w, hw, hexc, -⟩ := h
  exact ⟨w, hw, .inl hexc⟩

theorem wrong_of_trapping (h : s.Trapping) : s.Wrong := by
  rcases h with hmem | hwb
  · exact .inr hmem
  · exact .inl (cut_of_trapping hwb)

theorem Wrong.step (h : s.Wrong) (hfl : s.flushExMem i = false)
    (hgo : (s.step i).haltedQ = false) : (s.step i).Wrong := by
  rcases h with hcut | hmem
  · exact .inl (hcut.step hfl hgo)
  · exact wrong_of_trapping (Trapping.step (.inl hmem) hfl)

theorem nextPcAfter_of_flow (hcut : ¬ s.Cut) (hfl : s.flushExMem i = false) :
    s.nextPcAfter nextPc i = follow s.retiring MemWbPacket.nextPc nextPc := by
  rw [nextPcAfter, noIrq_of_flow hfl, if_low]
  cases hret : s.retiring with
  | none => rfl
  | some w =>
    have hw := memWbQ_of_retiring hret
    change s.successor i w = w.nextPc
    rw [successor, if_neg fun h => hcut ⟨w, hw, .inl h⟩,
      if_neg fun h => hcut ⟨w, hw, .inr (.inl h)⟩, if_neg fun h => hcut ⟨w, hw, .inr (.inr h)⟩]

section Back

variable (h : s.Chain nextPc next) (hfl : s.flushExMem i = false) (hgo : (s.step i).haltedQ = false)
include h hfl hgo

omit hgo in
theorem Chain.wb_flow (hcut : ¬ s.Cut) :
    Linked (s.step i).memWbQ MemWbPacket.pc (s.nextPcAfter nextPc i) ∧
      (s.step i).afterWb (s.nextPcAfter nextPc i) =
        follow (s.memLeaves i) ExMemPacket.nextPc (s.afterWb nextPc) := by
  have hentered : Linked ((s.memLeaves i).map (s.memWbIn i)) MemWbPacket.pc (s.afterWb nextPc) := by
    intro w hw
    obtain ⟨m, hm, rfl⟩ := Option.map_eq_some_iff.mp hw
    rw [memLeaves] at hm
    split_ifs at hm
    exact h.mem hcut m (mem_eq_some.mp (Option.filter_eq_some_iff.mp hm).1).2
  obtain ⟨hlinked, hafter⟩ := wbMoves.linked MemWbPacket.nextPc h.wb hentered
  rw [nextPcAfter_of_flow hcut hfl]
  refine ⟨hlinked, hafter.trans ?_⟩
  cases s.memLeaves i <;> rfl

/-- Whatever is in WB is the next instruction of the program. -/
theorem Chain.wb_step : Linked (s.step i).memWbQ MemWbPacket.pc (s.nextPcAfter nextPc i) := by
  by_cases hcut : s.Cut
  · obtain ⟨hbsy, hsame⟩ := hcut.stays hfl hgo
    rw [hsame, nextPcAfter, noIrq_of_flow hfl, if_low, retiring_of_busy hbsy]
    exact h.wb
  · exact (h.wb_flow hfl hcut).1

theorem Chain.mem_flow (hcut : ¬ (s.step i).Cut) :
    Linked (s.step i).exMemQ ExMemPacket.pc ((s.step i).afterWb (s.nextPcAfter nextPc i)) ∧
      (s.step i).afterMem (s.nextPcAfter nextPc i) =
        follow ((s.exFires i).map (s.exMemIn i)) ExMemPacket.nextPc (s.afterMem nextPc) := by
  have hcut' : ¬ s.Cut := fun hnow => hcut (hnow.step hfl hgo)
  have hentered : Linked ((s.exFires i).map (s.exMemIn i)) ExMemPacket.pc (s.afterMem nextPc) := by
    intro m hm
    obtain ⟨d, hd, rfl⟩ := Option.map_eq_some_iff.mp hm
    refine h.dispatch (fun hwrong => ?_) d (goes_of_fires hd).dispatched
    rcases hwrong with hnow | hdoomed
    · exact hcut' hnow
    · exact hcut (cut_of_trapping (Trapping.enters (.inl hdoomed) hd))
  rw [(h.wb_flow hfl hcut').2, afterMem, (h.wb_flow hfl hcut').2]
  exact (memMoves hfl).linked _ (h.mem hcut') hentered

end Back

/-! ### The front of the pipeline -/

/-- What leaves EX without a redirect goes where fetch was sent, unless it traps. -/
theorem exNextPc_of_agree {d : DispatchPacket} (hd : s.exFires i = some d)
    (hredir : s.hardFlushRedirect i = false) (hfine : ¬ (s.exMemIn i d).Doomed) :
    s.exNextPc i d = s.predictedNext d := by
  have hstays : (s.redirects i d || s.targetMispredicts i d) = false := by
    rw [hardFlushRedirect, firesIs, hd] at hredir
    exact hredir
  have hfine' : instrMisaligned (p := p) i d = false ∧ s.exIllegal i d = false := by
    simpa [ExMemPacket.Doomed, exMemIn] using hfine
  cases hctl : (d.op p).control with
  | false => simp [exNextPc, exTaken, predictedNext, hctl]
  | true =>
    have hagr : d.predictedTaken = s.exTaken i d ∧
        (d.predictedTaken → s.exTaken i d → s.exNextPc i d = s.predictedTargetQ) := by
      simpa [redirects, targetMispredicts, hctl, hfine'.1, hfine'.2] using hstays
    rw [predictedNext, hctl, Bool.true_and]
    cases htaken : s.exTaken i d with
    | true =>
      rw [hagr.1, htaken, if_pos rfl]
      exact hagr.2 (hagr.1.trans htaken) htaken
    | false => rw [hagr.1, htaken, if_low, exNextPc, htaken, if_low]

theorem clear_of_dispatches {f : FetchPacket} (hf : s.dispatches i = some f) :
    s.ifIdOutClear i := by
  obtain ⟨-, -, -, hcan, hcsr, hfen, hstall⟩ := dispatches_eq_some hf
  simp [ifIdOutClear, decodeClear, hcan, hcsr, hfen, hstall]

section Front

variable (hpipe : s.Pipe) (hhard : s.hardFlush i = false)
include hpipe hhard

theorem dispatch_moves (hacc : ∀ d, s.exFires i = some d → s.execAccept i) :
    Moves s.dispatchQ (s.step i).dispatchQ ((s.dispatches i).map (dispatchIn i)) (s.exFires i) := by
  cases hfl : s.flushIdEx i with
  | false => exact dispatchMoves hfl hacc
  | true =>
    have hemp : s.dispatchQ = none := by
      by_contra hd
      rw [hpipe.noFlush hhard (.inl hd)] at hfl
      cases hfl
    refine .stays ?_ ?_ ?_
    · simp [dispatches, hfl]
    · simp [exFires, ScalarState.ex, Stage.out, hfl]
    · rw [hemp]
      change s.dispatchNext i = none
      rw [dispatchNext, hfl, if_pos rfl]

theorem dispatches_of_clear (hclr : s.ifIdOutClear i) : s.dispatches i = s.ifIdQ := by
  rw [ifIdOutClear, Bool.and_eq_true, Bool.not_eq_true'] at hclr
  cases hq : s.ifIdQ with
  | none => exact dispatches_of_none hq
  | some f =>
    have hne : s.ifIdQ ≠ none := by simp [hq]
    rw [dispatches, hclr.1, hclr.2, hpipe.noFlush hhard (.inr hne), ifId, Stage.out, hhard]
    exact hq

/-- What enters dispatch is sent on as it was predicted. -/
theorem predictedNext_entered {f : FetchPacket} (hf : s.dispatches i = some f) :
    (s.step i).predictedNext (dispatchIn i f) =
      if s.predictRedirect i then i.predictionTargetI else f.pc + 4 := by
  have hq := (dispatches_eq_some hf).1
  have hsleep : s.wfiSleepQ = false := by
    by_contra hsleep
    rw [(hpipe.empty (.inl (by simpa using hsleep))).ifId] at hq
    cases hq
  have halloc : s.branchAllocate i = (p.decode.decodeTop f.instr).control := by
    simp [branchAllocate, ifIdIs, ifId, Stage.out, hhard, hq, hsleep, clear_of_dispatches hf]
  have htgt : (s.step i).predictedTargetQ =
      if s.branchAllocate i then i.predictionTargetI else s.predictedTargetQ := rfl
  rw [predictedNext, htgt, halloc, predictRedirect, halloc]
  change (if (p.decode.decodeTop f.instr).control && i.predictionTakenI then _ else _) = _
  cases (p.decode.decodeTop f.instr).control <;> cases i.predictionTakenI <;> rfl

theorem predictedNext_held (hnone : s.dispatches i = none) :
    (s.step i).predictedNext = s.predictedNext := by
  have halloc : s.branchAllocate i = false := by
    by_contra h
    have hsome : s.branchAllocate i := by simpa using h
    obtain ⟨hpresent, hclr⟩ := branchAllocate_parts hsome
    rw [branchPresent, ifIdIs_of_none
      ((dispatches_of_clear hpipe hhard hclr).symm.trans hnone)] at hpresent
    cases hpresent
  have htgt : (s.step i).predictedTargetQ =
      if s.branchAllocate i then i.predictionTargetI else s.predictedTargetQ := rfl
  rw [halloc, if_low] at htgt
  funext d
  rw [predictedNext, htgt, predictedNext]

theorem Astray.step (h : s.Astray) (hgo : (s.step i).haltedQ = false) : (s.step i).Astray := by
  rcases h with hwrong | harmed
  · exact .inl (hwrong.step (flushExMem_of_hardFlush hhard).1 hgo)
  · rcases Lost.step (.inr harmed) hpipe hhard with htrap | harmed'
    · exact .inl (wrong_of_trapping htrap)
    · exact .inr harmed'

theorem Chain.dispatch_flow (h : s.Chain nextPc next) (hgo : (s.step i).haltedQ = false)
    (hacc : ∀ d, s.exFires i = some d → s.execAccept i) (hwrong : ¬ (s.step i).Wrong) :
    Linked (s.step i).dispatchQ DispatchPacket.pc ((s.step i).afterMem (s.nextPcAfter nextPc i)) ∧
      (s.step i).afterDispatch (s.nextPcAfter nextPc i) = follow (s.dispatches i)
          (fun f => if s.predictRedirect i then i.predictionTargetI else f.pc + 4)
          (s.afterDispatch nextPc) := by
  obtain ⟨hfl, hredir⟩ := flushExMem_of_hardFlush hhard
  have hmem := (h.mem_flow hfl hgo fun hcut => hwrong (.inl hcut)).2
  have hafterMem : (s.step i).afterMem (s.nextPcAfter nextPc i) =
      follow (s.exFires i) s.predictedNext (s.afterMem nextPc) := by
    rw [hmem]
    cases hd : s.exFires i with
    | none => rfl
    | some d =>
      exact exNextPc_of_agree hd hredir fun hdoomed =>
        hwrong (.inr ⟨_, mem_of_fires hd, hdoomed⟩)
  have hmoves := dispatch_moves hpipe hhard hacc
  have hentered : Linked ((s.dispatches i).map (dispatchIn i)) DispatchPacket.pc
      (s.afterDispatch nextPc) := by
    intro d hd
    obtain ⟨f, hf, rfl⟩ := Option.map_eq_some_iff.mp hd
    refine h.ifId (fun hastray => ?_) f (dispatches_eq_some hf).1
    rcases hastray with hnow | harmed
    · exact hwrong (hnow.step hfl hgo)
    · have harmed' := harmed
      obtain ⟨d, hq, -⟩ := harmed'
      cases hmoves with
      | turns _ hleft =>
        exact hwrong (wrong_of_trapping (harmed.fires (hleft.trans hq) hredir))
      | stays hnone _ _ =>
        rw [hf] at hnone
        cases hnone
  obtain ⟨hlinked, hafter⟩ := hmoves.linked s.predictedNext
    (h.dispatch fun hnow => hwrong (hnow.step hfl hgo)) hentered
  rw [← hafterMem] at hlinked hafter
  refine ⟨hlinked, ?_⟩
  rw [ScalarState.afterDispatch]
  cases hf : s.dispatches i with
  | none =>
    rw [predictedNext_held hpipe hhard hf, hafter, hf]
    rfl
  | some f =>
    cases hmoves with
    | turns hnxt _ =>
      rw [hnxt, hf]
      exact predictedNext_entered hpipe hhard hf
    | stays hnone _ _ =>
      rw [hf] at hnone
      cases hnone

/-- What IF/ID takes from fetch. -/
theorem ifId_moves : Moves s.ifIdQ (s.step i).ifIdQ
    (if s.ifIdInClear i then s.fetchOut i else none) (s.dispatches i) := by
  cases hclr : s.ifIdInClear i with
  | true =>
    refine .turns (Stage.next_of_clear hhard hclr) ?_
    rw [ifIdInClear, Stage.inClear, hhard, Bool.false_or, Bool.or_eq_true] at hclr
    rcases hclr with hnone | hout
    · rw [Option.isNone_iff_eq_none] at hnone
      rw [dispatches_of_none hnone, hnone]
    · exact dispatches_of_clear hpipe hhard hout
  | false =>
    obtain ⟨-, -, hout⟩ := Stage.inClear_eq_false.mp hclr
    refine .stays rfl ?_ (Stage.next_of_held hhard hclr)
    cases hf : s.dispatches i with
    | none => rfl
    | some f =>
      rw [clear_of_dispatches hf] at hout
      cases hout

end Front

/-! ### Fetch -/

/-- Where the program goes on behind decode is the address of a word. -/
theorem Path.aligned_afterIfId (h : s.Path) (hpc : misaligned nextPc = false)
    (hastray : ¬ s.Astray) : misaligned (s.afterIfId nextPc) = false := by
  have hplus : ∀ pc : BitVec 64, misaligned (pc + 4) = misaligned pc := fun pc =>
    misaligned_add (by decide)
  have hstays : ∀ {P : Prop} {x : BitVec 64}, (misaligned x → P) → ¬ P → misaligned x = false :=
    fun himp hnot => Bool.eq_false_iff.mpr fun hx => hnot (himp hx)
  have htrapping : ¬ s.Trapping := fun ht => hastray (.inl (wrong_of_trapping ht))
  have hlost : ¬ s.Lost := by
    rintro (ht | harmed)
    · exact htrapping ht
    · exact hastray (.inr harmed)
  rw [afterIfId]
  cases hf : s.ifIdQ with
  | some f =>
    refine (hplus f.pc).trans (hstays (h.ifIdPc f hf) hlost)
  | none =>
  change misaligned (s.afterDispatch nextPc) = false
  rw [ScalarState.afterDispatch]
  cases hd : s.dispatchQ with
  | some d =>
    change misaligned (s.predictedNext d) = false
    rw [predictedNext]
    split_ifs with hctl
    · rw [Bool.and_eq_true] at hctl
      exact hstays (fun hx => ⟨d, hd, hctl.1, hctl.2, hx⟩) fun harmed =>
        hlost (.inr harmed)
    · exact (hplus d.pc).trans (hstays (h.dispatchPc d hd) htrapping)
  | none =>
  change misaligned (s.afterMem nextPc) = false
  rw [ScalarState.afterMem]
  cases hm : s.exMemQ with
  | some m =>
    refine h.memNextPc m hm (Bool.eq_false_iff.mpr fun hx => ?_)
    exact htrapping (.inl ⟨m, hm, .inl hx⟩)
  | none =>
  change misaligned (s.afterWb nextPc) = false
  rw [ScalarState.afterWb]
  cases hw : s.memWbQ with
  | some w =>
    exact h.wbNextPc w hw (Bool.eq_false_iff.mpr fun hx =>
      hastray (.inl (.inl ⟨w, hw, .inl hx⟩)))
  | none => exact hpc

end ScalarState

namespace FetchStream

variable {p : ScalarParams} {s : ScalarState p} {i : ScalarInput} {t : FetchStream}

theorem getLsbD_and_not_three {x : BitVec 64} {k : ℕ} (hk : 2 ≤ k) :
    (x &&& ~~~3).getLsbD k = x.getLsbD k := by
  have hpow : 3 < 2 ^ k := Nat.lt_of_lt_of_le (by decide : 3 < 2 ^ 2)
    (Nat.pow_le_pow_right (by decide) hk)
  have hthree : (3 : BitVec 64).getLsbD k = false := Nat.testBit_lt_two_pow hpow
  rw [BitVec.getLsbD_and, BitVec.getLsbD_not, hthree]
  by_cases hlt : k < 64
  · simp [hlt]
  · simp [BitVec.getLsbD_of_ge x k (Nat.le_of_not_lt hlt)]

theorem and_not_three {x : BitVec 64} (h : misaligned x = false) : x &&& ~~~3 = x := by
  rw [misaligned, bne_eq_false_iff_eq] at h
  refine BitVec.eq_of_getLsbD_eq fun k _ => ?_
  by_cases hk : k < 2
  · have hbit := congrArg (BitVec.getLsbD · k) h
    have hlow : x.getLsbD k = false := by simpa [hk] using hbit
    rw [BitVec.getLsbD_and, hlow, Bool.false_and]
  · exact getLsbD_and_not_three (Nat.le_of_not_lt hk)

/-- What decode is given in a cycle comes from the stream. -/
theorem Inv.packet_isAt (h : t.Inv) {i : FetchFrontInput} (hval : t.decodeValid i) :
    IsAt t.given (t.expected i) (t.packet i) := by
  cases hfl : t.flushes i with
  | true =>
    rw [decodeValid_of_flush hfl] at hval
    cases hval
  | false =>
    cases hredir : t.redirects i with
    | true =>
      rw [decodeValid_of_redirect hredir hfl] at hval
      exact h.redirect_packet hredir hfl hval
    | false => exact h.stream_packet hredir hfl hval

section Core

variable (hfront : t.front = s.front)
include hfront

theorem packet_of_fetchOut {f : FetchPacket} (hf : s.fetchOut i = some f) :
    t.decodeValid (s.frontInput i) ∧ f = t.packet (s.frontInput i) := by
  have hinput := fetchInput_of_front (i := i) hfront
  rw [fetchOut] at hf
  split_ifs at hf with hgo
  obtain rfl := Option.some_inj.mp hf
  rw [Bool.and_eq_true] at hgo
  rw [packet, hinput, FetchStream.fetch, hfront]
  refine ⟨?_, rfl⟩
  rw [FetchStream.fetchInput] at hinput
  change t.front.fetch.decodeValidO _ = true
  rw [hinput, hfront]
  exact hgo.1

theorem accepted_eq : (if s.ifIdInClear i then s.fetchOut i else none) =
    if t.front.decodeFire (s.frontInput i) then some (t.packet (s.frontInput i)) else none := by
  have hfire : t.front.decodeFire (s.frontInput i) =
      (s.fetch.decodeValidO (s.fetchInput i) && (s.ifIdInClear i && !i.bpFetchStallI)) := by
    have hinput := fetchInput_of_front (i := i) hfront
    rw [FetchStream.fetchInput] at hinput
    rw [FetchFront.decodeFire, FetchFront.decodeValid, hinput, hfront]
    rfl
  have hpacket : t.packet (s.frontInput i) = s.fetch.decodeO (s.fetchInput i) := by
    rw [packet, fetchInput_of_front hfront, FetchStream.fetch, hfront]
    rfl
  rw [hfire, hpacket, fetchOut]
  cases s.ifIdInClear i <;> cases s.fetch.decodeValidO (s.fetchInput i) <;>
    cases i.bpFetchStallI <;> rfl

/-- A packet that IF/ID takes has the address that comes next, if that is one of a word. -/
theorem Inv.accepted_linked (h : t.Inv)
    (halign : misaligned (t.expected (s.frontInput i)) = false) :
    Linked (if s.ifIdInClear i then s.fetchOut i else none) FetchPacket.pc
      (t.expected (s.frontInput i)) := by
  intro f hf
  split_ifs at hf
  obtain ⟨hval, rfl⟩ := packet_of_fetchOut hfront hf
  rcases (h.packet_isAt hval).address with hpc | hpc
  · exact hpc
  · exact hpc.trans (and_not_three halign)

theorem Inv.next_step (h : t.Inv) (halign : misaligned (t.expected (s.frontInput i)) = false) :
    (t.step (s.frontInput i)).next = follow (if s.ifIdInClear i then s.fetchOut i else none)
      (fun f => f.pc + 4) (t.expected (s.frontInput i)) := by
  have hlinked := h.accepted_linked hfront halign
  rw [accepted_eq hfront] at hlinked ⊢
  change (if t.front.decodeFire (s.frontInput i) then _ else _) = _
  split_ifs at hlinked ⊢ with hfire
  · exact congrArg (· + 4) (hlinked _ rfl).symm
  · rfl

end Core

end FetchStream

namespace ScalarState

variable {p : ScalarParams} {s : ScalarState p} {i : ScalarInput} {nextPc : BitVec 64}
  {t : FetchStream}

/-! ### A cycle without a flush -/

section Flows

variable (h : s.Chain nextPc t.next) (hpipe : s.Pipe) (hpath : s.Path)
  (hpc : misaligned nextPc = false) (hstream : t.Inv) (hfront : t.front = s.front)
  (hacc : ∀ d, s.exFires i = some d → s.execAccept i) (hhard : s.hardFlush i = false)
  (hgo : (s.step i).haltedQ = false)
include h hpipe hpath hpc hstream hfront hacc hhard hgo

/-- Behind decode the program goes on where fetch goes on. -/
theorem Chain.ifId_flow (hastray : ¬ (s.step i).Astray) (hpend : s.haltPendingQ = false)
    (hebreak : s.decodeEbreakAccept i = false) :
    Linked (s.step i).ifIdQ FetchPacket.pc ((s.step i).afterDispatch (s.nextPcAfter nextPc i)) ∧
      (t.step (s.frontInput i)).next = (s.step i).afterIfId (s.nextPcAfter nextPc i) := by
  have hsound : ¬ s.Astray := fun hnow => hastray (hnow.step hpipe hhard hgo)
  have hreset : s.resetPendingQ = false := by
    simp only [hardFlush, Bool.or_eq_false_iff] at hhard
    exact hhard.1.1.1
  have hnxt := h.fetch hsound hreset hpend
  obtain ⟨-, hdisp⟩ := h.dispatch_flow hpipe hhard hgo hacc fun hw => hastray (.inl hw)
  have hmoves := ifId_moves hpipe hhard
  have hcmd : (s.frontInput i).command = s.frontCommand i := rfl
  rw [ScalarState.afterIfId, hdisp]
  cases hpredict : s.predictRedirect i with
  | false =>
    have hexp : t.expected (s.frontInput i) = s.afterIfId nextPc := by
      rw [expected, hcmd, frontCommand, hhard, hebreak, hpredict, ← hnxt]
      rfl
    have halign := hpath.aligned_afterIfId hpc hsound
    rw [← hexp] at halign
    have hentered := hstream.accepted_linked hfront halign
    rw [hstream.next_step hfront halign]
    rw [hexp] at hentered ⊢
    obtain ⟨hlinked, hafter⟩ := hmoves.linked _ (h.ifId hsound) hentered
    exact ⟨hlinked, hafter.symm⟩
  | true =>
    have hexp : t.expected (s.frontInput i) = i.predictionTargetI := by
      rw [expected, hcmd, frontCommand, hhard, hebreak, hpredict]
      rfl
    have halign : misaligned (t.expected (s.frontInput i)) = false := by
      rw [hexp]
      refine Bool.eq_false_iff.mpr fun hmis => hastray (.inr ?_)
      exact armed_of_predict hpipe hhard hpredict hmis
    have hentered := hstream.accepted_linked hfront halign
    rw [hstream.next_step hfront halign]
    rw [hexp] at hentered ⊢
    cases hf : s.dispatches i with
    | none =>
      rw [predictRedirect, Bool.and_eq_true] at hpredict
      obtain ⟨hpresent, hclr⟩ := branchAllocate_parts hpredict.1
      rw [branchPresent, ifIdIs_of_none
        ((dispatches_of_clear hpipe hhard hclr).symm.trans hf)] at hpresent
      cases hpresent
    | some f =>
      rw [hf] at hmoves
      cases hmoves with
      | turns hturn _ =>
        rw [hturn]
        exact ⟨hentered, rfl⟩
      | stays _ hleft _ => cases hleft

theorem Chain.step_flow (hdrained : (s.step i).haltPendingQ = true → (s.step i).Drained) :
    (s.step i).Chain (s.nextPcAfter nextPc i) (t.step (s.frontInput i)).next := by
  obtain ⟨hfl, -⟩ := flushExMem_of_hardFlush hhard
  have hflow (hastray : ¬ (s.step i).Astray) (hhalt : (s.step i).haltPendingQ = false) :
      Linked (s.step i).ifIdQ FetchPacket.pc ((s.step i).afterDispatch (s.nextPcAfter nextPc i)) ∧
      (t.step (s.frontInput i)).next = (s.step i).afterIfId (s.nextPcAfter nextPc i) := by
    have hwb : (s.memWbQ.map halt).getD false = false := (Bool.or_eq_false_iff.mp hgo).2
    change (!(s.memWbQ.map halt).getD false && !s.hardFlush i &&
      (s.decodeEbreakAccept i || s.haltPendingQ)) = false at hhalt
    rw [hwb, hhard] at hhalt
    obtain ⟨hebreak, hpend⟩ := Bool.or_eq_false_iff.mp hhalt
    exact h.ifId_flow hpipe hpath hpc hstream hfront hacc hhard hgo hastray hpend hebreak
  refine ⟨h.wb_step hfl hgo, fun hcut => (h.mem_flow hfl hgo hcut).1,
    fun hwrong => (h.dispatch_flow hpipe hhard hgo hacc hwrong).1, fun hastray => ?_,
    fun hastray _ hhalt => (hflow hastray hhalt).2⟩
  cases hhalt : (s.step i).haltPendingQ with
  | true =>
    exact linked_of_none (hdrained hhalt).ifId
  | false => exact (hflow hastray hhalt).1

end Flows

/-! ### A cycle with a flush -/

/-- A flush sends fetch to its vector. -/
theorem next_of_hardFlush (hhard : s.hardFlush i) :
    (t.step (s.frontInput i)).next = s.vectorTarget i := by
  have hcmd : (s.frontInput i).command = s.frontCommand i := rfl
  have hcases : (∃ both, s.frontCommand i = .restart (s.vectorTarget i) both) ∨
      s.frontCommand i = .redirect (s.vectorTarget i) := by
    rw [frontCommand, if_pos hhard]
    split_ifs
    · exact .inl ⟨_, rfl⟩
    · exact .inr rfl
  have hexp : t.expected (s.frontInput i) = s.vectorTarget i := by
    rw [expected, hcmd]
    rcases hcases with ⟨both, h⟩ | h <;> rw [h] <;> rfl
  have hval : t.decodeValid (s.frontInput i) = false := by
    cases hfl : t.flushes (s.frontInput i) with
    | true => exact decodeValid_of_flush hfl
    | false =>
      have hinvalidates : (s.frontCommand i).invalidates = false := (Bool.or_eq_false_iff.mp hfl).2
      rcases hcases with ⟨both, h⟩ | h
      · rw [h] at hinvalidates
        cases hinvalidates
      · have hredirects : t.redirects (s.frontInput i) := by
          change (s.frontCommand i).redirects = true
          rw [h]
          rfl
        have hreplays : (t.fetchInput (s.frontInput i)).redirectReplayI = false := by
          change (s.frontCommand i).replays = false
          rw [h]
          rfl
        rw [decodeValid_of_redirect hredirects hfl, FetchState.redirectReplayValid, hreplays,
          Bool.and_false, Bool.false_and]
  change (if t.decodeValid (s.frontInput i) && _ then _ else t.expected (s.frontInput i)) = _
  rw [hval, Bool.false_and, if_low, hexp]

theorem vectorTarget_of_flushExMem (hreset : s.resetPendingQ = false) (hfl : s.flushExMem i) :
    s.vectorTarget i = s.nextPcAfter nextPc i := by
  rw [vectorTarget, hreset, if_low, nextPcAfter]
  cases hirq : s.irqTake i with
  | true => rw [Bool.or_true, if_pos rfl, if_pos rfl]
  | false =>
    have hleaves : ∃ w, s.retiring = some w := by
      cases hret : s.retiring with
      | some w => exact ⟨w, rfl⟩
      | none =>
        simp [flushExMem, hardFlushTrap, hirq, retires_of_idle hret] at hfl
    obtain ⟨w, hw⟩ := hleaves
    have hretires (f : MemWbPacket → Bool) : s.retires f = f w := by
      rw [retires, hw]
      rfl
    rw [hw, Bool.or_false, if_low]
    change _ = s.successor i w
    simp only [flushExMem, hardFlushTrap, hirq, hretires, MemWbPacket.isMret,
      MemWbPacket.isSret] at hfl ⊢
    rw [successor, MemWbPacket.isMret, MemWbPacket.isSret]
    cases hexc : w.exception with
    | true =>
      have hhalt : w.halt = false := by simpa [hexc] using hfl
      simp [hhalt]
    | false =>
      cases hmret : w.mret with
      | true => simp
      | false =>
        have hsret : w.sret := by simpa [hexc, hmret] using hfl
        simp [hsret]

section Flushes

variable (hpipe : s.Pipe) (hfenced : s.Fenced) (hhalting : s.Halting)
  (hstart : s.resetPendingQ = true → nextPc = p.resetVector ∧ s.wfiSleepQ = false)

include hhalting hstart in
theorem flushExMem_of_reset (hreset : s.resetPendingQ) : s.flushExMem i = false := by
  simp [flushExMem, hardFlushTrap, irqTake, wfiIrqTake, retires_of_none (hhalting.reset hreset).2.2,
    (hstart hreset).2]

include hpipe in
theorem emptied_of_flushExMem (hfl : s.flushExMem i) :
    (s.step i).exMemQ = none ∧ (s.step i).memWbQ = none := by
  have hmem : s.mem i = none := by rw [ScalarState.mem, Stage.out, hfl, if_pos rfl]
  have hidle : s.csrBusy = false := by
    refine Bool.eq_false_iff.mpr fun hbsy => ?_
    rw [hpipe.noFlush_of_busy hbsy] at hfl
    cases hfl
  refine ⟨Stage.next_of_flush hfl, ?_⟩
  refine (Stage.next_of_clear rfl (memWbInClear_iff.mpr (.inr hidle))).trans ?_
  simp [memOut, hmem]

include hhalting in
/-- A flush of fetch empties decode and dispatch. -/
theorem front_of_hardFlush (hacc : ∀ d, s.exFires i = some d → s.execAccept i)
    (hhard : s.hardFlush i) : (s.step i).ifIdQ = none ∧ (s.step i).dispatchQ = none := by
  refine ⟨Stage.next_of_flush hhard, ?_⟩
  have hnone : s.dispatches i = none := by rw [dispatches, ifId_of_hardFlush hhard, ite_self]
  change s.dispatchNext i = none
  rw [dispatchNext, hnone]
  split_ifs with hfl hclr hout
  · rfl
  · rfl
  · rfl
  · simp only [flushIdEx, Bool.or_eq_true, not_or] at hfl
    simp only [hardFlush, Bool.or_eq_true, hfl, Bool.false_eq_true, or_false] at hhard
    rcases hhard with hreset | hredir
    · exact (hhalting.reset hreset).1
    · obtain ⟨d, hd, -⟩ := firesIs_iff.mp hredir
      exact absurd (hacc d hd) hout

include hpipe hfenced hhalting hstart in
/-- A flush that spares MEM goes on behind the last instruction that is left. -/
theorem vectorTarget_of_spared (hhard : s.hardFlush i) (hfl : s.flushExMem i = false) :
    s.vectorTarget i =
      follow ((s.exFires i).map (s.exMemIn i)) ExMemPacket.nextPc (s.afterMem nextPc) := by
  simp only [flushExMem, Bool.or_eq_false_iff] at hfl
  obtain ⟨⟨⟨htrap, hirq⟩, hmret⟩, hsret⟩ := hfl
  rw [vectorTarget, htrap, hirq, hmret, hsret, Bool.or_false, if_low, if_low, if_low]
  cases hreset : s.resetPendingQ with
  | true =>
    obtain ⟨hdisp, hmem, hwb⟩ := hhalting.reset hreset
    rw [if_pos rfl, exFires_of_none hdisp, ScalarState.afterMem, hmem, ScalarState.afterWb, hwb]
    exact (hstart hreset).1.symm
  | false =>
    rw [if_low]
    cases hrst : s.hardFlushRestart with
    | true =>
      obtain ⟨hmem, hfires, -⟩ := alone_of_restart (i := i) hpipe hfenced hrst
      have hwb : s.memWbQ ≠ none := by
        intro hnone
        simp [hardFlushRestart, retires_of_none hnone] at hrst
      obtain ⟨w, hw⟩ := Option.ne_none_iff_exists'.mp hwb
      rw [if_pos rfl, hfires, wbPacket, ScalarState.afterMem, hmem, ScalarState.afterWb, hw]
      rfl
    | false =>
      have hredir : s.hardFlushRedirect i := by
        simpa [hardFlush, hreset, hrst, flushExMem, htrap, hirq, hmret, hsret] using hhard
      obtain ⟨d, hd, -⟩ := firesIs_iff.mp hredir
      rw [if_low, hd]
      rfl

include hpipe hfenced hhalting hstart in
theorem Chain.step_flush (h : s.Chain nextPc t.next)
    (hacc : ∀ d, s.exFires i = some d → s.execAccept i) (hhard : s.hardFlush i)
    (hgo : (s.step i).haltedQ = false) :
    (s.step i).Chain (s.nextPcAfter nextPc i) (t.step (s.frontInput i)).next := by
  obtain ⟨hifId, hdisp⟩ := front_of_hardFlush hhalting hacc hhard
  have hafter : (s.step i).afterIfId (s.nextPcAfter nextPc i) =
      (s.step i).afterMem (s.nextPcAfter nextPc i) := by
    rw [ScalarState.afterIfId, hifId, ScalarState.afterDispatch, hdisp]
    rfl
  rw [next_of_hardFlush hhard]
  cases hfl : s.flushExMem i with
  | true =>
    obtain ⟨hmem, hwb⟩ := emptied_of_flushExMem hpipe hfl
    have hreset : s.resetPendingQ = false := by
      refine Bool.eq_false_iff.mpr fun hr => ?_
      rw [flushExMem_of_reset hhalting hstart hr] at hfl
      cases hfl
    refine ⟨linked_of_none hwb, fun _ => linked_of_none hmem, fun _ => linked_of_none hdisp,
      fun _ => linked_of_none hifId, fun _ _ _ => ?_⟩
    rw [hafter, ScalarState.afterMem, hmem, ScalarState.afterWb, hwb]
    exact vectorTarget_of_flushExMem hreset hfl
  | false =>
    refine ⟨h.wb_step hfl hgo, fun hcut => (h.mem_flow hfl hgo hcut).1,
      fun _ => linked_of_none hdisp, fun _ => linked_of_none hifId, fun hastray _ _ => ?_⟩
    have hcut : ¬ (s.step i).Cut := fun hcut => hastray (.inl (.inl hcut))
    rw [hafter, (h.mem_flow hfl hgo hcut).2]
    exact vectorTarget_of_spared hpipe hfenced hhalting hstart hhard hfl

end Flushes

end ScalarState

/-! ## The words of the program -/

/-- An instruction is a word that memory has given for its address. -/
def Genuine (fetched : List (BitVec 61 × FetchAnswer)) (pc : BitVec 64) (instr : BitVec 32)
    (failed : Bool) : Prop :=
  ∃ a : FetchAnswer, (lineOf pc, a) ∈ fetched ∧ instr = a.word (pc.getLsbD 2) ∧ failed = a.failed

theorem Genuine.mono {fetched fetched' : List (BitVec 61 × FetchAnswer)} {pc : BitVec 64}
    {instr : BitVec 32} {failed : Bool} (h : Genuine fetched pc instr failed)
    (hsub : ∀ x ∈ fetched, x ∈ fetched') : Genuine fetched' pc instr failed := by
  obtain ⟨a, ha, hrest⟩ := h
  exact ⟨a, hsub _ ha, hrest⟩

theorem FetchStream.IsAt.genuine {given : List (BitVec 61 × FetchAnswer)} {pc : BitVec 64}
    {f : FetchPacket} (h : IsAt given pc f) :
    Genuine given f.pc f.instr (f.fault || f.pageFault) := by
  obtain ⟨a, ha, hwrd, hflt, hpage⟩ := h.word
  have hplc : lineOf f.pc = lineOf pc ∧ f.pc.getLsbD 2 = pc.getLsbD 2 := by
    rcases h.address with hpc | hpc
    · rw [hpc]
      exact ⟨rfl, rfl⟩
    · refine ⟨BitVec.eq_of_getLsbD_eq fun k hk => ?_, ?_⟩
      · rw [lineOf, lineOf, BitVec.getLsbD_extractLsb', BitVec.getLsbD_extractLsb', hpc,
          getLsbD_and_not_three (by omega)]
      · rw [hpc, getLsbD_and_not_three le_rfl]
  rw [Genuine, hplc.1, hplc.2, hflt, hpage]
  exact ⟨a, ha, hwrd, rfl⟩

namespace ScalarState

variable {p : ScalarParams} {s : ScalarState p} {i : ScalarInput} {t : FetchStream}
  {fetched : List (BitVec 61 × FetchAnswer)}

/-- Every stage holds such an instruction, and one that could not be fetched traps. -/
structure Words (s : ScalarState p) (fetched : List (BitVec 61 × FetchAnswer)) : Prop where
  ifId : ∀ f, s.ifIdQ = some f → Genuine fetched f.pc f.instr (f.fault || f.pageFault)
  dispatch : ∀ d, s.dispatchQ = some d → Genuine fetched d.pc d.instr (d.fault || d.pageFault)
  mem : ∀ m, s.exMemQ = some m → Genuine fetched m.pc m.instr (m.accessFault || m.pageFault)
  wb : ∀ w, s.memWbQ = some w → ∃ failed, Genuine fetched w.pc w.instr failed ∧
    (w.exception = false → failed = false)

theorem memWbIn_exception_of_fault {m : ExMemPacket}
    (h : (s.memWbIn i m).exception = false) : (m.accessFault || m.pageFault) = false := by
  change (s.exceptCause i m).isSome = false at h
  cases hmisaligned : m.instrMisaligned with
  | true => simp [exceptCause, hmisaligned] at h
  | false =>
  cases hacs : m.accessFault with
  | true => simp [exceptCause, hmisaligned, hacs] at h
  | false =>
  cases hpage : m.pageFault with
  | true => simp [exceptCause, hmisaligned, hacs, hpage] at h
  | false => rfl

/-- The stages take their instructions from each other, and the first of them from fetch. -/
theorem Words.step (h : s.Words fetched) (hstream : t.Inv) (hfront : t.front = s.front)
    (hgiven : ∀ x ∈ t.given, x ∈ fetched) : (s.step i).Words fetched where
  ifId f hf := by
    rcases (ifId_cases hf).2 with hout | hold
    · obtain ⟨hval, rfl⟩ := packet_of_fetchOut hfront hout
      exact (hstream.packet_isAt hval).genuine.mono hgiven
    · exact h.ifId f hold
  dispatch d hd := by
    obtain ⟨-, ⟨f, hf, rfl⟩ | ⟨-, hold, -⟩⟩ := dispatch_cases hd
    · exact h.ifId f (dispatches_eq_some hf).1
    · exact h.dispatch d hold
  mem m hm := by
    rcases mem_cases hm with ⟨d, hd, rfl⟩ | ⟨-, hold, -⟩
    · exact h.dispatch d (goes_of_fires hd).dispatched
    · exact h.mem m (mem_eq_some.mp hold).2
  wb w hw := by
    rcases wb_cases hw with ⟨m, -, hmem, -, rfl⟩ | ⟨-, -, hold⟩
    · exact ⟨_, h.mem m (mem_eq_some.mp hmem).2, memWbIn_exception_of_fault⟩
    · exact h.wb w hold

theorem Words.mono {fetched' : List (BitVec 61 × FetchAnswer)} (h : s.Words fetched)
    (hsub : ∀ x ∈ fetched, x ∈ fetched') : s.Words fetched' where
  ifId f hf := (h.ifId f hf).mono hsub
  dispatch d hd := (h.dispatch d hd).mono hsub
  mem m hm := (h.mem m hm).mono hsub
  wb w hw := by
    obtain ⟨failed, hgenuine, hfine⟩ := h.wb w hw
    exact ⟨failed, hgenuine.mono hsub, hfine⟩

/-- A core that starts anew is empty. -/
theorem emptied_of_startsAnew (hpipe : s.Pipe) (hfenced : s.Fenced) (hhalting : s.Halting)
    (hacc : ∀ d, s.exFires i = some d → s.execAccept i) (hanew : s.startsAnew i) :
    (s.step i).Words [] := by
  have hhard : s.hardFlush i := by
    rw [startsAnew] at hanew
    rw [hardFlush, hanew, Bool.true_or]
  obtain ⟨hifId, hdisp⟩ := front_of_hardFlush hhalting hacc hhard
  have hback : (s.step i).exMemQ = none ∧ (s.step i).memWbQ = none := by
    cases hfl : s.flushExMem i with
    | true => exact emptied_of_flushExMem hpipe hfl
    | false =>
      have hemp : s.exMemQ = none ∧ s.exFires i = none ∧ s.memWbInClear := by
        simp only [startsAnew, hfl, Bool.or_false, Bool.or_eq_true] at hanew
        rcases hanew with hreset | hrst
        · obtain ⟨hnone, hmem, hwb⟩ := hhalting.reset hreset
          exact ⟨hmem, exFires_of_none hnone, memWbInClear_iff.mpr (.inl hwb)⟩
        · obtain ⟨hmem, hfires, -⟩ := alone_of_restart (i := i) hpipe hfenced hrst
          refine ⟨hmem, hfires, memWbInClear_iff.mpr (.inr ?_)⟩
          refine Bool.eq_false_iff.mpr fun hbsy => ?_
          simp [hardFlushRestart, retires_of_busy hbsy] at hrst
      have hmem : s.mem i = none := by rw [ScalarState.mem, hemp.1, Stage.out, ite_self]
      refine ⟨mem_empty hemp.2.1 (fun m hm => by cases hmem.symm.trans hm), ?_⟩
      refine (Stage.next_of_clear rfl hemp.2.2).trans ?_
      simp [memOut, hmem]
  refine ⟨fun f hf => ?_, fun d hd => ?_, fun m hm => ?_, fun w hw => ?_⟩
  · cases hifId.symm.trans hf
  · cases hdisp.symm.trans hd
  · cases hback.1.symm.trans hm
  · cases hback.2.symm.trans hw

end ScalarState

/-! ## Every run -/

namespace ScalarProgram

variable {p : IssueParams} {t : ScalarProgram p} {i : IssueInput}

structure Ordered (t : ScalarProgram p) : Prop where
  pipe : t.core.Pipe
  fenced : t.core.Fenced
  halting : t.core.Halting
  mul : t.machine.MulOk
  path : t.core.Path
  front : t.stream.front = t.core.front
  stream : t.stream.Inv
  start : t.core.resetPendingQ = true → t.nextPc = p.core.resetVector ∧ t.core.wfiSleepQ = false
  pending : t.core.haltPendingQ = true → t.core.Drained
  aligned : misaligned t.nextPc = false
  chain : t.core.haltedQ = false → t.core.Chain t.nextPc t.stream.next
  given : ∀ x ∈ t.stream.given, x ∈ t.fetched
  words : t.core.Words t.fetched

theorem ordered_reset (powerUp : PtwState) (gpr : BitVec 5 → BitVec 64) :
    Ordered (⟨(IssueTracked.reset powerUp gpr).machine, .reset, p.core.resetVector, []⟩ :
      ScalarProgram p) where
  pipe := pipe_reset powerUp
  fenced := fenced_reset powerUp
  halting := halting_reset powerUp
  mul := ⟨rfl, fun _ => rfl, fun h => by cases h⟩
  path := path_reset powerUp
  front := rfl
  stream := inv_reset
  start := fun _ => ⟨rfl, rfl⟩
  pending := fun h => by cases h
  aligned := p.core.reset_aligned
  chain := fun _ => ⟨linked_of_none rfl, fun _ => linked_of_none rfl,
    fun _ => linked_of_none rfl, fun _ => linked_of_none rfl, nofun⟩
  given := fun _ h => by cases h
  words := ⟨nofun, nofun, nofun, nofun⟩

section Step

variable (h : t.Ordered)
include h

theorem Ordered.accepts : ∀ d, t.core.exFires (t.input i) = some d →
    t.core.execAccept (t.input i) := fun _ hd => h.mul.accepts hd

theorem Ordered.step_pending (hpend : (t.core.step (t.input i)).haltPendingQ) :
    (t.core.step (t.input i)).Drained := by
  change (!(t.core.memWbQ.map MemWbPacket.halt).getD false && !t.core.hardFlush (t.input i) &&
    (t.core.decodeEbreakAccept (t.input i) || t.core.haltPendingQ)) = true at hpend
  rw [Bool.and_eq_true, Bool.and_eq_true, Bool.not_eq_true', Bool.not_eq_true',
    Bool.or_eq_true] at hpend
  obtain ⟨⟨hhalt, hhard⟩, hebreak | hold⟩ := hpend
  · rw [decodeEbreakAccept, Bool.and_eq_true, ifIdIs] at hebreak
    obtain ⟨his, hclr⟩ := hebreak
    cases hf : t.core.ifId (t.input i) with
    | none => rw [hf] at his; cases his
    | some f =>
      rw [hf] at his
      have hq := (Stage.out_eq_some.mp hf).2
      exact drained_of_dispatches ((dispatches_of_clear h.pipe hhard hclr).trans hq)
        (beq_iff_eq.mp his) hhalt
  · exact (h.pending hold).step hhard hhalt

theorem Ordered.step_aligned : misaligned (t.core.nextPcAfter t.nextPc (t.input i)) = false := by
  rw [nextPcAfter]
  split_ifs
  · exact TrapRegs.misaligned_trapVector
  · cases hret : t.core.retiring with
    | none => exact h.aligned
    | some w =>
      have hw := memWbQ_of_retiring hret
      change misaligned (t.core.successor (t.input i) w) = false
      rw [successor]
      split_ifs with hexc
      · exact TrapRegs.misaligned_trapVector
      · exact h.path.returns.mepc
      · exact h.path.returns.sepc
      · exact h.path.wbNextPc w hw (by simpa using hexc)

theorem Ordered.step_chain (hgo : (t.core.step (t.input i)).haltedQ = false) :
    (t.core.step (t.input i)).Chain (t.core.nextPcAfter t.nextPc (t.input i))
      (t.stream.step (t.frontInput i)).next := by
  have hchain := h.chain (Bool.or_eq_false_iff.mp hgo).1
  cases hhard : t.core.hardFlush (t.input i) with
  | true =>
    exact hchain.step_flush h.pipe h.fenced h.halting h.start h.accepts hhard hgo
  | false =>
    exact hchain.step_flow h.pipe h.path h.aligned h.stream h.front h.accepts hhard hgo
      h.step_pending

theorem Ordered.step_given : ∀ x ∈ (t.stream.step (t.frontInput i)).given, x ∈ t.fetchedNext i := by
  intro x hx
  change x ∈ t.stream.givenNext (t.frontInput i) at hx
  rw [fetchedNext]
  split_ifs with hanew
  · have hflushes : t.stream.flushes (t.frontInput i) := by
      have hinput := fetchInput_of_front (i := t.input i) h.front
      change (t.stream.fetchInput (t.core.frontInput (t.input i))).flushI = true
      rw [hinput]
      change t.core.invalidateFetch (t.input i) = true
      rw [startsAnew, Bool.or_eq_true, Bool.or_eq_true] at hanew
      rcases hanew with (hr | hr) | hr <;> simp [invalidateFetch, hr]
    rw [givenNext, if_pos hflushes] at hx
    cases hx
  · exact List.mem_append_left _ hx

theorem Ordered.step_words : (t.core.step (t.input i)).Words (t.fetchedNext i) := by
  rw [fetchedNext]
  split_ifs with hanew
  · exact emptied_of_startsAnew h.pipe h.fenced h.halting h.accepts hanew
  · exact (h.words.step h.stream h.front h.given).mono fun x hx => List.mem_append_right _ hx

theorem Ordered.step {b : BpSignals} (hpredicted : t.core.Predicted (t.input i) b) :
    (t.step i).Ordered where
  pipe := h.pipe.step
  fenced := h.fenced.step h.pipe
  halting := h.halting.step h.pipe
  mul := h.mul.step h.pipe h.fenced
  path := h.path.step h.pipe
  front := by
    change t.stream.front.step (t.frontInput i) = (t.core.step (t.input i)).front
    rw [h.front]
    exact front_step.symm
  stream := h.stream.step (hpredicted.replayTaken h.front)
  start := fun hreset => by cases hreset
  pending := h.step_pending
  aligned := h.step_aligned
  chain := h.step_chain
  given := h.step_given
  words := h.step_words

theorem Ordered.executes : t.Executes := by
  intro w hret
  have hw := memWbQ_of_retiring hret
  have hgo : t.core.haltedQ = false := by
    refine Bool.eq_false_iff.mpr fun hhalted => ?_
    rw [(h.halting.halted hhalted).wb] at hw
    cases hw
  obtain ⟨failed, ⟨a, ha, hwrd, hfailed⟩, hfine⟩ := h.words.wb w hw
  refine ⟨(h.chain hgo).wb w hw, a, ha, hwrd, fun hexc => ?_⟩
  rw [← hfailed, hfine hexc]

end Step

/-- Every instruction that leaves WB is the next one of the program, whatever was predicted and
whenever the core was interrupted, and its word was fetched after the core last started anew. -/
theorem executes_program (b : Behaviour (scalarProgram p) predictedEnv) (n : ℕ) :
    (b.state n).Executes := by
  refine Ordered.executes ((b.run n).stateInvariant ?_ fun _ s i henv hordered => ?_)
  · rintro s ⟨powerUp, gpr, rfl⟩
    exact ordered_reset powerUp gpr
  · obtain ⟨signals, hpredicted⟩ := henv
    exact hordered.step hpredicted

/-- Memory holds jumps over the instruction behind them, and they are never predicted. -/
def jalProgram : Behaviour (scalarProgram IssueTracked.plainIssue) predictedEnv :=
  .ofInputs (fun _ => IssueTracked.jalCycle) ⟨AdapterTracked.idlePowerUp, fun _ => 0, rfl⟩ fun _ =>
    ⟨⟨.btfnt, false, false, false, false, false, false, false⟩, (Bool.and_false _).symm,
      by simp [BpSignals.fetchStallO, BpSignals.effectiveLookupRequiresStall, BpType.policyStallsAll,
        core, input, IssueState.input, IssueState.execInput, IssueTracked.jalCycle], rfl, nofun⟩

theorem executes_program_jal : ∃ w, (jalProgram.state 12).core.retiring = some w ∧ w.pc = 8 ∧
    (jalProgram.state 12).Next w := by
  have hret : (jalProgram.state 12).core.retiring.map MemWbPacket.pc = some 8 := by decide +kernel
  obtain ⟨w, hw, hpc⟩ := Option.map_eq_some_iff.mp hret
  exact ⟨w, hw, hpc, executes_program jalProgram 12 w hw⟩

end ScalarProgram

end OpenRV64
