/-
What moves between the stages of the one-wide core in a cycle without a flush, what a flush
of dispatch leaves behind, and why the multiplier never splits an instruction in two.
-/
import OpenRV64.ScalarQueue

namespace OpenRV64

open MemWbPacket Stage
open ScalarState (mem ex)

/-! ## A stage in one cycle -/

/-- A stage either lets go what it holds and takes what comes, or it does neither. -/
inductive Stage.Moves {α : Type} (reg reg' entered left : Option α) : Prop
  | turns : reg' = entered → left = reg → Moves reg reg' entered left
  | stays : entered = none → left = none → reg' = reg → Moves reg reg' entered left

/-- Nothing is lost or doubled on the way through a stage. -/
theorem Stage.Moves.balance {α : Type} {reg reg' entered left : Option α} {c : Option α → ℕ}
    (h : Moves reg reg' entered left) (hnone : c none = 0) :
    c reg' + c left = c reg + c entered := by
  cases h with
  | turns hreg hleft => rw [hreg, hleft, Nat.add_comm]
  | stays hentered hleft hreg => rw [hentered, hleft, hreg, hnone]

namespace ScalarState

variable {p : ScalarParams} {s : ScalarState p} {i : ScalarInput}

/-- What leaves MEM for WB. -/
def memLeaves (s : ScalarState p) (i : ScalarInput) : Option ExMemPacket :=
  if s.memWbInClear then (s.mem i).filter (s.memoryComplete i) else none

theorem mem_of_noFlush (hfl : s.flushExMem i = false) : s.mem i = s.exMemQ := by
  rw [mem, hfl]
  rfl

theorem memLeaves_of_clear (hfl : s.flushExMem i = false) (hclr : s.exMemInClear i) :
    s.memLeaves i = s.exMemQ := by
  cases hm : s.exMemQ with
  | none => rw [memLeaves, mem_of_noFlush hfl, hm, Option.filter_none, ite_self]
  | some m =>
    have hmem : s.mem i = some m := mem_eq_some.mpr ⟨hfl, hm⟩
    have hout : s.exMemOutClear i := by
      simpa [exMemInClear, inClear, hfl, hm] using hclr
    rw [exMemOutClear, memIs_of hmem, Bool.and_eq_true] at hout
    rw [memLeaves, if_pos hout.1, hmem, Option.filter_some, if_pos hout.2]

theorem memLeaves_of_held {m : ExMemPacket} (hm : s.mem i = some m)
    (hout : s.exMemOutClear i = false) : s.memLeaves i = none := by
  rw [exMemOutClear, memIs_of hm] at hout
  cases hclr : s.memWbInClear with
  | false => rw [memLeaves, hclr, if_low]
  | true =>
    rw [hclr, Bool.true_and] at hout
    rw [memLeaves, hclr, if_pos rfl, hm, Option.filter_some, hout, if_low]

theorem memMoves (hfl : s.flushExMem i = false) :
    Moves s.exMemQ (s.step i).exMemQ ((s.exFires i).map (s.exMemIn i)) (s.memLeaves i) := by
  cases hclr : s.exMemInClear i with
  | true =>
    exact .turns (next_of_clear hfl hclr) (memLeaves_of_clear hfl hclr)
  | false =>
    obtain ⟨-, hsome, hout⟩ := inClear_eq_false.mp hclr
    obtain ⟨m, hm⟩ := Option.isSome_iff_exists.mp hsome
    have hfires : s.exFires i = none := by
      cases hd : s.exFires i with
      | none => rfl
      | some d =>
        rw [(goes_of_fires hd).clear] at hclr
        cases hclr
    refine .stays (by rw [hfires]; rfl) ?_ (next_of_held hfl hclr)
    exact memLeaves_of_held (mem_eq_some.mpr ⟨hfl, hm⟩) hout

theorem wbMoves :
    Moves s.memWbQ (s.step i).memWbQ ((s.memLeaves i).map (s.memWbIn i)) s.retiring := by
  cases hclr : s.memWbInClear with
  | true =>
    refine .turns ?_ ?_
    · rw [memLeaves, hclr, if_pos rfl]
      exact next_of_clear rfl hclr
    · rcases memWbInClear_iff.mp hclr with hnone | hidle
      · rw [retiring_of_none hnone, hnone]
      · rw [retiring, hidle, if_low]
  | false =>
    obtain ⟨-, -, hbsy⟩ := inClear_eq_false.mp hclr
    refine .stays ?_ (retiring_of_busy (by simpa using hbsy)) (next_of_held rfl hclr)
    rw [memLeaves, hclr, if_low]
    rfl

/-- The dispatch register gives away what EX lets go, if dispatch sees it go. -/
theorem dispatchMoves (hfl : s.flushIdEx i = false)
    (hacc : ∀ d, s.exFires i = some d → s.execAccept i) :
    Moves s.dispatchQ (s.step i).dispatchQ ((s.dispatches i).map (dispatchIn i)) (s.exFires i) := by
  have hex : s.ex i = s.dispatchQ := by
    rw [ex, hfl]
    rfl
  have hturn : s.exFires i = s.dispatchQ → (s.execAccept i ∨ s.dispatchQ = none) →
      Moves s.dispatchQ (s.step i).dispatchQ ((s.dispatches i).map (dispatchIn i))
        (s.exFires i) := by
    refine fun hfires hgone => .turns ?_ hfires
    change s.dispatchNext i = _
    rw [dispatchNext, hfl, if_low]
    cases hclr : s.decodeClear i with
    | true => rw [if_pos rfl]
    | false =>
      have hnone : s.dispatches i = none := by simp [dispatches, hclr]
      rw [if_low, hnone]
      rcases hgone with hacc | hemp
      · rw [if_pos hacc]
        rfl
      · rw [hemp, ite_self]
        rfl
  cases hq : s.dispatchQ with
  | none =>
    rw [← hq]
    refine hturn ?_ (.inr hq)
    rw [exFires, hex, hq]
    rfl
  | some d =>
  cases hfires : s.exFires i with
  | some d' =>
    have hsame := (exFires_eq_some.mp hfires).1
    rw [← hq, ← hfires]
    exact hturn (hfires.trans hsame.symm) (.inl (hacc d' hfires))
  | none =>
    have hrdy : s.exReady i d = false := by
      rw [exFires, hex, hq, Option.filter_some] at hfires
      simpa using hfires
    have hacc : s.execAccept i = false := by
      rw [execAccept, hq, Option.map_some, Option.getD_some, hrdy, Bool.false_and]
    obtain ⟨hnxt, hnone⟩ := dispatch_stays hq hfl hacc
    exact .stays (by rw [hnone]; rfl) rfl hnxt

/-! ## A flush of dispatch -/

section Flush

variable (hpipe : s.Pipe) (hfenced : s.Fenced)
include hpipe hfenced

/-- What restarts fetch when it retires is alone in the back of the pipeline. -/
theorem alone_of_restart (hrst : s.hardFlushRestart) :
    s.exMemQ = none ∧ s.exFires i = none ∧ (s.serializingQ ∨ s.dispatchQ = none) := by
  have hcases : s.retires isFenceI ∨ (s.retires isTranslationFence ∨ s.retires isWfi) := by
    simpa [hardFlushRestart, or_assoc] using hrst
  rcases hcases with hfen | hsolo
  · obtain ⟨-, w, hw, hf⟩ := retires_iff.mp hfen
    have hfen' : w.isFence := (Bool.and_eq_true_iff.mp hf).1
    cases hq : s.dispatchQ with
    | some d =>
      have hwaits : s.retires isFence = false := hfenced.waits hpipe hq
      have hgoes : s.retires isFence := retires_iff.mpr ⟨(retires_iff.mp hfen).1, w, hw, hfen'⟩
      rw [hgoes] at hwaits
      cases hwaits
    | none =>
      have hfires : s.exFires i = none := by
        cases hd : s.exFires i with
        | none => rfl
        | some d =>
          rw [(exFires_eq_some.mp hd).1] at hq
          cases hq
      refine ⟨?_, hfires, .inr rfl⟩
      obtain ⟨harch, hopcode⟩ := Bool.and_eq_true_iff.mp hfen'
      have hopcode' : rvOpcode w.instr = opcodeMiscMem := beq_iff_eq.mp hopcode
      cases hop : (p.decode.decodeTop w.instr).fence with
      | true => exact (hfenced.wb w hw hop).1
      | false =>
        have hill : (p.decode.decodeTop w.instr).illegal := by
          rw [decodeTop_of_miscMem hopcode', hop]
          rfl
        rw [arch, (hpipe.wbIllegal w hw hill).1] at harch
        cases harch
  obtain ⟨w, hw, hkind⟩ := solo_of_restart hsolo
  obtain ⟨hmem, hheld⟩ := hpipe.wbSolo w hw hkind
  refine ⟨hmem, hpipe.exFires_of_solo (.inr ⟨w, hw, hkind⟩), ?_⟩
  rcases Bool.or_eq_true_iff.mp hkind with hserial | hcsr
  · exact .inl (hheld.serial hserial)
  · exact .inr (hheld.csr hcsr).2

/-- After a flush of dispatch nothing is left but the control that redirected fetch. -/
theorem flush_leaves (hfl : s.flushIdEx i) : (s.step i).dispatchQ = none ∧
      (∀ m, (s.step i).exMemQ = some m → s.redirectDispatchFlushQ ∧ s.exMemQ = some m) ∧
      ∀ w, (s.step i).memWbQ = some w → ∃ m, s.redirectDispatchFlushQ ∧
        s.exMemQ = some m ∧ w = s.memWbIn i m := by
  have hdisp : (s.step i).dispatchQ = none := if_pos hfl
  have hfires : s.exFires i = none := by
    rw [exFires, ex, hfl]
    rfl
  -- WB lets go whatever it holds, so what it holds next comes from MEM.
  have hwb : s.csrBusy = false ∨ s.memWbQ = none → ∀ w, (s.step i).memWbQ = some w →
      ∃ m, s.mem i = some m ∧ w = s.memWbIn i m := by
    intro hidle w hw
    have hclr : s.memWbInClear := memWbInClear_iff.mpr hidle.symm
    have hout : s.memOut i = some w := (next_of_clear rfl hclr).symm.trans hw
    obtain ⟨m, hm, -, rfl⟩ := memOut_eq_some.mp hout
    exact ⟨m, hm, rfl⟩
  have hmem : ∀ m, (s.step i).exMemQ = some m → s.mem i = some m := by
    intro m hm
    rcases mem_cases hm with ⟨d, hd, -⟩ | ⟨-, hmem, -⟩
    · rw [hfires] at hd; cases hd
    · exact hmem
  have hnothing : s.mem i = none → (s.csrBusy = false ∨ s.memWbQ = none) →
      (∀ m, (s.step i).exMemQ = some m → s.redirectDispatchFlushQ ∧ s.exMemQ = some m) ∧
        ∀ w, (s.step i).memWbQ = some w → ∃ m, s.redirectDispatchFlushQ ∧
          s.exMemQ = some m ∧ w = s.memWbIn i m := by
    intro hnone hidle
    refine ⟨fun m hm => ?_, fun w hw => ?_⟩
    · have hsome := hmem m hm
      rw [hnone] at hsome
      cases hsome
    · obtain ⟨m, hm, -⟩ := hwb hidle w hw
      rw [hnone] at hm
      cases hm
  refine ⟨hdisp, ?_⟩
  cases hexMem : s.flushExMem i with
  | true =>
    have hidle : s.csrBusy = false := by
      refine eq_false_of_ne_true fun hbsy => ?_
      rw [hpipe.noFlush_of_busy hbsy] at hexMem
      cases hexMem
    exact hnothing (by rw [mem, hexMem]; rfl) (.inl hidle)
  | false =>
  cases hrst : s.hardFlushRestart with
  | true =>
    have hemp := (alone_of_restart (i := i) hpipe hfenced hrst).1
    have hidle : s.csrBusy = false := by
      refine eq_false_of_ne_true fun hbsy => ?_
      simp [hardFlushRestart, retires_of_busy hbsy] at hrst
    exact hnothing (by rw [mem_of_noFlush hexMem, hemp]) (.inl hidle)
  | false =>
    have hredir : s.redirectDispatchFlushQ := by
      simpa [flushIdEx, hexMem, hrst] using hfl
    obtain ⟨-, -, m, op, hm, hbr⟩ := hpipe.redirected hredir
    have hidle : s.csrBusy = false := by
      refine eq_false_of_ne_true fun hbsy => ?_
      exfalso
      have hfree := solo_of_control hbr
      rcases hpipe.busy hbsy with ⟨m', hm', hcsr⟩ | ⟨w, hw, hcsr⟩
      · obtain rfl := Option.mem_unique hm hm'
        rw [solo, hcsr, Bool.or_true] at hfree
        cases hfree
      · have hsolo : solo p w.instr := Bool.or_eq_true_iff.mpr (.inr hcsr)
        rw [(hpipe.wbSolo w hw hsolo).1] at hm
        cases hm
    refine ⟨fun m' hm' => ⟨hredir, (mem_eq_some.mp (hmem m' hm')).2⟩, fun w hw => ?_⟩
    obtain ⟨m', hm', rfl⟩ := hwb (.inl hidle) w hw
    exact ⟨m', hredir, (mem_eq_some.mp hm').2, rfl⟩

end Flush

end ScalarState

end OpenRV64
