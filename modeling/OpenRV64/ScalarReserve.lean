/-
The register map of the one-wide core counts what is in flight.  The multiplier works only
for the instruction that waits in EX, so an instruction that leaves EX leaves dispatch.
-/
import OpenRV64.ScalarMoves
import OpenRV64.ScalarOperands

namespace OpenRV64

open RegMapState ScalarState IssueState MemWbPacket
open Option (map_some mem_unique isSome)

namespace IssueState

variable {p : IssueParams} {s : IssueState p} {i : IssueInput}

/-! ### The multiplier -/

/-- The multiplier is busy with the instruction in dispatch, and with one step of it. -/
structure MulOk (s : IssueState p) : Prop where
  issued : s.mul.issuedQ = (s.mul.activeQ || s.mul.resultValidQ)
  once : s.mul.activeQ = true → s.mul.resultValidQ = false
  busy : s.mul.issuedQ = true → s.core.serializingQ = false ∧
    ∃ d, s.core.dispatchQ = some d ∧ d.mSelected p.core = true

theorem mulSelected_of {d : DispatchPacket} (hd : s.core.ex i.pins = some d) :
    s.mulSelected i = d.mSelected p.core := by
  rw [mulSelected, hd]
  rfl

theorem mulSelected_of_none (h : s.core.ex i.pins = none) : s.mulSelected i = false := by
  rw [mulSelected, h]
  rfl

theorem ex_of_fires {d : DispatchPacket} (hd : s.core.exFires (s.input i) = some d) :
    s.core.ex i.pins = some d :=
  (Option.filter_eq_some_iff.mp hd).1

/-- An instruction of the multiplier leaves EX with its result. -/
theorem mulResultReady_of_fires {d : DispatchPacket}
    (hd : s.core.exFires (s.input i) = some d) (hmul : d.mSelected p.core) :
    s.mulResultReady i := by
  have hgoes := goes_of_fires hd
  have hrdy := (exFires_eq_some.mp hd).2.2
  have hdone : (s.mul.issuedQ && s.mul.resultValidQ) := by
    simp only [exReady, Bool.and_eq_true, Bool.or_eq_true, hmul, Bool.not_true,
      Bool.false_eq_true, false_or] at hrdy
    exact hrdy.2
  have hclr : s.core.exMemInClear i.pins := hgoes.clear
  obtain ⟨hiss, hval⟩ := Bool.and_eq_true_iff.mp hdone
  simp only [mulResultReady, mulSelected_of (ex_of_fires hd), hmul, hiss, hval, hclr,
    hgoes.notBusy, hgoes.notSerializing]
  rfl

theorem mulResultReady_imp (h : s.mulResultReady i) : s.mul.issuedQ ∧ s.mul.resultValidQ := by
  simp only [mulResultReady, Bool.and_eq_true] at h
  exact ⟨h.1.1.1.1.2, h.1.1.1.2⟩

theorem mulStart_imp (h : s.mulStart i) : s.mul.issuedQ = false := by
  simp only [mulStart, Bool.and_eq_true, Bool.not_eq_true'] at h
  exact h.1.1.1.1.2

theorem mulNext_of_selected (hfl : s.core.flushExMem i.pins = false) (hsel : s.mulSelected i) :
    s.mulNext i = ⟨(s.mul.activeQ && !i.mulDoneI) || (s.mulStart i && !i.mulAtOnceI),
        (s.mul.resultValidQ && !s.mulResultReady i) || (s.mul.activeQ && i.mulDoneI) ||
          (s.mulStart i && i.mulAtOnceI),
        !s.mulResultReady i && (s.mul.issuedQ || s.mulStart i)⟩ := by
  rw [mulNext, hfl, if_low, hsel]
  cases s.mulResultReady i <;> rfl

section

variable {issued active valid ready start done atOnce : Bool} (h : issued = (active || valid))

include h

/-- An operation that has been issued is under way or has its result. -/
theorem mul_issued (hrdy : ready → issued ∧ valid)
    (hstart : start → issued = false) (honce : active → valid = false) :
    (!ready && (issued || start)) = ((active && !done || start && !atOnce) ||
        (valid && !ready || active && done || start && atOnce)) := by
  revert issued active valid ready start done atOnce
  decide

theorem mul_once (honce : active → valid = false) (hstart : start → issued = false)
    (hact : (active && !done || start && !atOnce)) :
    (valid && !ready || active && done || start && atOnce) = false := by
  revert issued active valid ready start done atOnce
  decide

end

section Multiplier

variable (h : s.MulOk)
include h

theorem MulOk.idle (hfree : s.mul.issuedQ = false) :
    s.mul.activeQ = false ∧ s.mul.resultValidQ = false := by
  rw [← Bool.or_eq_false_iff, ← h.issued]
  exact hfree

/-- Whatever leaves EX, the multiplier is free for it or gives its result. -/
theorem MulOk.ready {d : DispatchPacket} (hd : s.core.exFires (s.input i) = some d) :
    s.mulReady i := by
  cases hmul : d.mSelected p.core with
  | true =>
    have hres := mulResultReady_of_fires hd hmul
    have hval := (mulResultReady_imp hres).2
    have hact : s.mul.activeQ = false := by
      refine eq_false_of_ne_true fun ha => ?_
      rw [h.once ha] at hval
      cases hval
    simp [mulReady, hact, hres]
  | false =>
    have hfree : s.mul.issuedQ = false := by
      refine eq_false_of_ne_true fun hiss => ?_
      obtain ⟨-, d', hd', hmul'⟩ := h.busy hiss
      obtain rfl := mem_unique (goes_of_fires hd).dispatched hd'
      rw [hmul] at hmul'
      cases hmul'
    simp [mulReady, h.idle hfree]

theorem MulOk.accepts {d : DispatchPacket} (hd : s.core.exFires (s.input i) = some d) :
    s.core.execAccept (s.input i) :=
  execAccept_of_ready hd (h.ready hd)

/-- Nothing but a flush of MEM takes an instruction away from the multiplier. -/
theorem MulOk.selected (hpipe : s.core.Pipe) (hfenced : s.core.Fenced)
    (hfl : s.core.flushExMem i.pins = false) (hiss : s.mul.issuedQ) :
    s.core.flushIdEx i.pins = false ∧ s.mulSelected i := by
  obtain ⟨hserial, d, hd, hmul⟩ := h.busy hiss
  have hnone : s.core.dispatchQ ≠ none := by
    rw [hd]
    exact Option.some_ne_none d
  have hrst : s.core.hardFlushRestart = false := by
    refine eq_false_of_ne_true fun hr => ?_
    rcases (alone_of_restart (i := i.pins) hpipe hfenced hr).2.2 with hon | hemp
    · rw [hserial] at hon
      cases hon
    · exact absurd hemp hnone
  have hredir : s.core.redirectDispatchFlushQ = false := by
    refine eq_false_of_ne_true fun hr => ?_
    exact absurd (hpipe.redirected hr).1 hnone
  have hidle : s.core.flushIdEx i.pins = false := by
    simp [flushIdEx, hfl, hrst, hredir]
  exact ⟨hidle, (mulSelected_of (Stage.out_eq_some.mpr ⟨hidle, hd⟩)).trans hmul⟩

/-- Without an instruction of its own the multiplier does nothing. -/
theorem MulOk.step_idle (hfree : s.mul.issuedQ = false) (hno : s.mulSelected i = false) :
    s.mulNext i = ⟨false, false, false⟩ := by
  obtain ⟨hact, hval⟩ := h.idle hfree
  simp [mulNext, mulStart, hact, hval, hno]

theorem MulOk.step (hpipe : s.core.Pipe) (hfenced : s.core.Fenced) : (s.step i).MulOk := by
  have hreset : s.mulNext i = ⟨false, false, false⟩ → (s.step i).MulOk := by
    intro hnxt
    have hmul : (s.step i).mul = ⟨false, false, false⟩ := hnxt
    refine ⟨by rw [hmul]; rfl, fun hact => ?_, fun hiss => ?_⟩
    · rw [hmul]
    · rw [hmul] at hiss
      cases hiss
  cases hfl : s.core.flushExMem i.pins with
  | true => exact hreset (by rw [mulNext, hfl, if_pos rfl])
  | false =>
  cases hsel : s.mulSelected i with
  | false =>
    refine hreset (h.step_idle ?_ hsel)
    refine eq_false_of_ne_true fun hiss => ?_
    rw [(h.selected hpipe hfenced hfl hiss).2] at hsel
    cases hsel
  | true =>
  obtain ⟨d, hex⟩ : ∃ d, s.core.ex i.pins = some d := by
    cases hex : s.core.ex i.pins with
    | none => rw [mulSelected_of_none hex] at hsel; cases hsel
    | some d => exact ⟨d, rfl⟩
  have hmul : d.mSelected p.core := (mulSelected_of hex).symm.trans hsel
  obtain ⟨hidle, hd⟩ := Stage.out_eq_some.mp hex
  have hnxt : (s.step i).mul = s.mulNext i := rfl
  have hbsy : (s.mulNext i).issuedQ → (s.step i).core.serializingQ = false ∧
      ∃ d, (s.step i).core.dispatchQ = some d ∧ d.mSelected p.core := by
    intro hiss
    have hkeeps : s.mulResultReady i = false ∧ (s.mul.issuedQ || s.mulStart i) := by
      cases hres : s.mulResultReady i <;>
        simp_all [mulNext]
    have hserial : s.core.serializingQ = false := by
      rcases Bool.or_eq_true_iff.mp hkeeps.2 with hold | hstart
      · exact (h.busy hold).1
      · simp only [mulStart, Bool.and_eq_true, Bool.not_eq_true'] at hstart
        exact hstart.2
    have hfires : s.core.exFires (s.input i) = none := by
      cases hf : s.core.exFires (s.input i) with
      | none => rfl
      | some d' =>
        obtain rfl := mem_unique hex (ex_of_fires hf)
        have hres := mulResultReady_of_fires hf hmul
        rw [hkeeps.1] at hres
        cases hres
    have hrdy : s.core.exReady (s.input i) d = false := by
      have hex' : s.core.ex (s.input i) = some d := hex
      rw [exFires, hex', Option.filter_some] at hfires
      simpa using hfires
    have hacc : s.core.execAccept (s.input i) = false := by
      rw [execAccept, hd, map_some, Option.getD_some, hrdy, Bool.false_and]
    refine ⟨?_, d, (dispatch_stays (i := s.input i) hd hidle hacc).1, hmul⟩
    change s.core.serializingNext (s.input i) = false
    have hfl' : s.core.flushExMem (s.input i) = false := hfl
    simp [serializingNext, hfl', firesIs, hfires, hserial]
  refine ⟨?_, fun hact => ?_, hbsy⟩
  · rw [hnxt, mulNext_of_selected hfl hsel]
    exact mul_issued h.issued mulResultReady_imp mulStart_imp h.once
  · rw [hnxt, mulNext_of_selected hfl hsel] at hact ⊢
    exact mul_once h.issued h.once mulStart_imp hact

end Multiplier

/-! ### What the register map sees -/

section Map

variable {r : BitVec 5}

/-- The writers of `r` among the instructions in a stage. -/
def stageWriters {α : Type} (p : IssueParams) (instr : α → BitVec 32) (r : BitVec 5)
    (q : Option α) : ℕ :=
  writers (q.map fun x => p.use (instr x)) r

theorem stageWriters_le {α : Type} (instr : α → BitVec 32) (q : Option α) :
    stageWriters p instr r q ≤ 1 :=
  writers_le _ _

theorem stageWriters_map {α β : Type} {instr : α → BitVec 32} {instr' : β → BitVec 32}
    {f : α → β} (h : ∀ x, instr' (f x) = instr x) (q : Option α) :
    stageWriters p instr' r (q.map f) = stageWriters p instr r q := by
  cases q with
  | none => rfl
  | some x => rw [stageWriters, map_some, map_some, h]; rfl

theorem writers_retire :
    writers (s.mapInput i).retireI r = stageWriters p instr r s.core.retiring :=
  writers_map_congr fun _ => IssueParams.retireUse_writes

/-- What the map reserves is what enters dispatch. -/
theorem allocated_eq : allocated (s.mapInput i) =
    (s.core.dispatches (s.input i)).map fun f => p.decodeUse f.instr := by
  cases hf : s.core.dispatches (s.input i) with
  | none =>
    have hfire : (s.mapInput i).allocFireI = false := congrArg isSome hf
    rw [allocated, hfire, if_low]
    rfl
  | some f =>
    have hfire : (s.mapInput i).allocFireI := congrArg isSome hf
    obtain ⟨hq, hhard, hfl, -, -, -, hstall⟩ := dispatches_eq_some hf
    have hifId : s.core.ifId (s.execInput i) = some f := Stage.out_eq_some.mpr ⟨hhard, hq⟩
    have hfl' : s.core.flushIdEx i.pins = false := hfl
    have hstall' : i.pins.bpDecodeStallI = false := hstall
    have halloc : (s.mapInput i).allocI = s.allocI i := rfl
    rw [allocated, hfire, if_pos rfl, halloc, allocI, hfl', hstall', hifId]
    rfl

theorem allocI_of_dispatches {f : FetchPacket} (hf : s.core.dispatches (s.input i) = some f) :
    (s.mapPort i).allocI = some (p.decodeUse f.instr) := by
  have hfire : (s.mapInput i).allocFireI := congrArg isSome hf
  have halloc := allocated_eq (s := s) (i := i)
  rw [allocated, hfire, if_pos rfl, hf] at halloc
  exact halloc

theorem writers_allocated : writers (allocated (s.mapInput i)) r =
      stageWriters p FetchPacket.instr r (s.core.dispatches (s.input i)) := by
  rw [allocated_eq]
  exact writers_map_congr fun _ => IssueParams.decodeUse_writes

theorem retiring_le : stageWriters p instr r s.core.retiring ≤
    stageWriters p instr r s.core.memWbQ := by
  rw [ScalarState.retiring]
  split_ifs
  · exact Nat.zero_le _
  · exact le_rfl

end Map

end IssueState

namespace IssueTracked

variable {p : IssueParams} {t : IssueTracked p} {i : IssueInput} {r : BitVec 5}

/-- A control in MEM that has sent fetch elsewhere writes no register. -/
def Linked (t : IssueTracked p) : Prop :=
  t.machine.core.redirectDispatchFlushQ = true → ∀ m, t.machine.core.exMemQ = some m →
    ∀ r, (p.use m.instr).writes r = false

/-- The map counts the writers of every register. -/
def Counted (t : IssueTracked p) : Prop :=
  ∀ r, r ≠ 0 → t.machine.regMap.writeCountQ r = t.outstanding r

theorem outstanding_eq : t.outstanding r =
    stageWriters p DispatchPacket.instr r t.machine.core.dispatchQ +
      stageWriters p ExMemPacket.instr r t.machine.core.exMemQ +
      stageWriters p instr r t.machine.core.memWbQ := rfl

/-- In a cycle without a flush the writers in flight change by the one that enters and the
one that retires. -/
theorem outstanding_step (hmul : t.machine.MulOk) (hfl : t.machine.core.flushIdEx i.pins = false) :
    (t.step i).outstanding r + stageWriters p instr r
        t.machine.core.retiring = t.outstanding r + stageWriters p FetchPacket.instr r
        (t.machine.core.dispatches (t.input i)) := by
  have hfl' : t.machine.core.flushIdEx (t.input i) = false := hfl
  have hdisp := (dispatchMoves hfl' fun d => hmul.accepts).balance
    (c := stageWriters p DispatchPacket.instr r) rfl
  have hmem := (memMoves (flushExMem_of_flushIdEx hfl')).balance
    (c := stageWriters p ExMemPacket.instr r) rfl
  have hwb := (wbMoves (s := t.machine.core) (i := t.input i)).balance
    (c := stageWriters p instr r) rfl
  have hentered : stageWriters p DispatchPacket.instr r
      ((t.machine.core.dispatches (t.input i)).map (dispatchIn (t.input i))) =
        stageWriters p FetchPacket.instr r (t.machine.core.dispatches (t.input i)) :=
    stageWriters_map (fun _ => rfl) _
  have hfired : stageWriters p ExMemPacket.instr r
      ((t.machine.core.exFires (t.input i)).map (t.machine.core.exMemIn (t.input i))) =
        stageWriters p DispatchPacket.instr r (t.machine.core.exFires (t.input i)) :=
    stageWriters_map (fun _ => rfl) _
  have hleft : stageWriters p instr r
      ((t.machine.core.memLeaves (t.input i)).map (t.machine.core.memWbIn (t.input i))) =
        stageWriters p ExMemPacket.instr r (t.machine.core.memLeaves (t.input i)) :=
    stageWriters_map (fun _ => rfl) _
  have hcore : (t.step i).machine.core = t.machine.core.step (t.input i) := rfl
  rw [outstanding_eq, outstanding_eq, hcore]
  omega

theorem outstanding_flush (hpipe : t.machine.core.Pipe) (hfenced : t.machine.core.Fenced)
    (hlinked : t.Linked) (hfl : t.machine.core.flushIdEx i.pins) :
    (t.step i).outstanding r = 0 := by
  obtain ⟨hdisp, hmem, hwb⟩ := flush_leaves (i := t.input i) hpipe hfenced hfl
  have hcore : (t.step i).machine.core = t.machine.core.step (t.input i) := rfl
  have hmem' : stageWriters p ExMemPacket.instr r (t.machine.core.step (t.input i)).exMemQ = 0 := by
    cases hm : (t.machine.core.step (t.input i)).exMemQ with
    | none => rfl
    | some m =>
      obtain ⟨hredir, hq⟩ := hmem m hm
      rw [stageWriters, map_some, writers_some, hlinked hredir m hq]
      rfl
  have hwb' : stageWriters p instr r (t.machine.core.step (t.input i)).memWbQ = 0 := by
    cases hw : (t.machine.core.step (t.input i)).memWbQ with
    | none => rfl
    | some w =>
      obtain ⟨m, hredir, hq, rfl⟩ := hwb w hw
      have hinstr : (t.machine.core.memWbIn (t.input i) m).instr = m.instr := rfl
      rw [stageWriters, map_some, writers_some, hinstr, hlinked hredir m hq]
      rfl
  rw [outstanding_eq, hcore, hdisp, hmem', hwb']
  rfl

theorem outstanding_le : t.outstanding r ≤ 3 := by
  rw [outstanding_eq]
  have hdisp := stageWriters_le (p := p) (r := r) DispatchPacket.instr t.machine.core.dispatchQ
  have hmem := stageWriters_le (p := p) (r := r) ExMemPacket.instr t.machine.core.exMemQ
  have hwb := stageWriters_le (p := p) (r := r) instr t.machine.core.memWbQ
  omega

/-- The map goes on counting the writers in flight. -/
theorem Counted.step (h : t.Counted) (hpipe : t.machine.core.Pipe)
    (hfenced : t.machine.core.Fenced) (hmul : t.machine.MulOk) (hlinked : t.Linked) :
    (t.step i).Counted := by
  intro r hr
  have hmap : (t.step i).machine.regMap = t.machine.regMap.step (t.machine.mapInput i) := rfl
  rw [hmap]
  cases hfl : t.machine.core.flushIdEx i.pins with
  | true =>
    rw [outstanding_flush hpipe hfenced hlinked hfl]
    exact writeCountQ_clear hfl
  | false =>
    have hrollback : (t.machine.mapInput i).rollbackI = none := by
      change (if t.machine.core.flushIdEx i.pins then _ else none) = none
      rw [hfl]
      rfl
    have hretire := writers_retire (s := t.machine) (i := i) (r := r)
    have hle := retiring_le (s := t.machine) (r := r)
    have hcnt := h r hr
    have hbound := outstanding_le (t := t) (r := r)
    have hsum := outstanding_step (r := r) hmul hfl
    have htotal := outstanding_eq (t := t) (r := r)
    have hmax : regCountMax = 15 := rfl
    rw [writeCountQ_step hr hfl hrollback (by omega) (by omega), hretire, writers_allocated, hcnt]
    change _ + stageWriters p FetchPacket.instr r (t.machine.core.dispatches (t.input i)) = _
    omega

theorem Linked.step (hclr : t.redirectsLink i = false) : (t.step i).Linked := by
  intro hredir m hm r
  obtain ⟨d, hd, hgo⟩ := firesIs_iff (i := t.input i).mp hredir
  have hwrs : (p.use d.instr).writes (p.use d.instr).rd = false := by
    refine eq_false_of_ne_true fun hw => ?_
    have hlink : t.redirectsLink i := firesIs_iff.mpr ⟨d, hd, Bool.and_eq_true_iff.mpr ⟨hw, hgo⟩⟩
    rw [hclr] at hlink
    cases hlink
  have hinstr : m.instr = d.instr := by
    cases memNext t.machine.core (t.input i) with
    | enters d' hd' hnxt =>
      obtain rfl := mem_unique hd hd'
      obtain rfl := mem_unique hnxt hm
      rfl
    | empties hnone _ => rw [hd] at hnone; cases hnone
    | stays _ hnone _ _ _ => rw [hd] at hnone; cases hnone
  rw [hinstr]
  cases hrd : ((p.use d.instr).rd == r) with
  | false => rw [RegUse.writes, hrd, Bool.and_false, Bool.false_and]
  | true => rw [← eq_of_beq hrd, hwrs]

end IssueTracked

end OpenRV64
