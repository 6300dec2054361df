/-
What dispatch of the one-wide core relies on: an instruction that leaves EX leaves the
dispatch register, a fence is alone behind it, and nothing follows an EBREAK.
-/
import OpenRV64.ScalarIssue

namespace OpenRV64

open DecodeParams DispatchPacket MemWbPacket ScalarState
open Stage (next_of_clear out)

section Kinds

variable {p : ScalarParams} {d : DispatchPacket} {instr : BitVec 32}

/-- An instruction that waits until MEM and WB are empty is one of the system unit. -/
theorem system_of_drains (h : d.requiresDrain p) : (d.op p).control = false ∧ (d.op p).lsu = none ∧
      ((d.op p).system || (d.op p).fence || (d.op p).illegal || d.instr == instrEbreak ||
        d.instr == instrEcall) := by
  rw [requiresDrain, serializing_eq, csrSelected_eq, Bool.or_eq_true, Bool.or_eq_true] at h
  have hsolo : p.decode.serial d.instr ∨ p.decode.csrOp d.instr →
      (d.op p).control = false ∧ (d.op p).lsu = none ∧
        ((d.op p).system || (d.op p).fence || (d.op p).illegal || d.instr == instrEbreak ||
          d.instr == instrEcall) := by
    intro hsolo
    refine ⟨?_, lsu_of_solo hsolo, ?_⟩
    · cases hbr : (p.decode.decodeTop d.instr).br with
      | none => simp [ScalarOp.control, DispatchPacket.op, hbr]
      | some op =>
        have hfree := solo_of_control hbr
        rw [solo, Bool.or_eq_false_iff] at hfree
        rcases hsolo with hsolo | hsolo
        · rw [hfree.1] at hsolo
          cases hsolo
        · rw [hfree.2] at hsolo
          cases hsolo
    · simp only [serial, csrOp, Bool.or_eq_true, Bool.and_eq_true] at hsolo
      simp only [DispatchPacket.op, Bool.or_eq_true]
      tauto
  obtain ⟨hserial | hcsr⟩ | hfen := h
  · exact hsolo (.inl hserial)
  · exact hsolo (.inr hcsr)
  have hfen' : (d.op p).fence := (Bool.and_eq_true_iff.mp hfen).1
  refine ⟨?_, ?_, by simp [hfen']⟩
  · cases hbr : (d.op p).br with
    | none => simp [ScalarOp.control, hbr]
    | some op =>
      rw [DispatchPacket.op, (decodeTop_br hbr).2.2.1] at hfen'
      cases hfen'
  · cases hlsu : (d.op p).lsu with
    | none => rfl
    | some op =>
      rw [DispatchPacket.op, (decodeTop_lsu hlsu).2.2.2.1] at hfen'
      cases hfen'

/-- A fence is legal, and it is no other kind of instruction. -/
theorem decodeTop_fence (h : (p.decode.decodeTop instr).fence) :
    (p.decode.decodeTop instr).br = none ∧ solo p instr = false ∧
      (p.decode.decodeTop instr).illegal = false := by
  have hcls : earlyClass instr = .fence := by
    simp only [decodeTop, Bool.and_eq_true, EarlyClass.beq_eq_decide, decide_eq_true_eq] at h
    exact h.1
  have hsystem : (p.decode.decodeTop instr).system = false := by
    simp [decodeTop, hcls]
  have hill : (p.decode.decodeTop instr).illegal = false := by
    change (_ && !(p.decode.decodeTop instr).fence) = false
    rw [h, Bool.not_true, Bool.and_false]
  have hne : ∀ x : BitVec 32, earlyClass x = .system → (instr == x) = false := by
    refine fun x hx => beq_eq_false_iff_ne.mpr ?_
    rintro rfl
    rw [hx] at hcls
    cases hcls
  have hebreak := hne instrEbreak (by decide)
  have hecall := hne instrEcall (by decide)
  refine ⟨by simp [decodeTop, hcls], ?_, hill⟩
  simp only [solo, serial, csrOp, hsystem, hill, hebreak, hecall, Bool.false_and, Bool.or_false]

/-- A word of the fence opcode is a fence or illegal. -/
theorem decodeTop_of_miscMem (h : rvOpcode instr = opcodeMiscMem) :
    (p.decode.decodeTop instr).illegal = !(p.decode.decodeTop instr).fence := by
  have hcls : earlyClass instr = .fence := by
    simp [earlyClass, h, opcodeJal, opcodeJalr, opcodeAmo]
  simp [decodeTop, hcls]

/-- An EBREAK is an instruction that runs alone, and no other. -/
theorem serial_ebreak : p.decode.serial instrEbreak := by
  simp [serial]

theorem br_ebreak : (p.decode.decodeTop instrEbreak).br = none := rfl

end Kinds

namespace ScalarState

variable {p : ScalarParams} {s : ScalarState p} {i : ScalarInput}

/-! ### What leaves EX leaves dispatch -/

/-- An instruction that needs an empty pipeline goes when its unit is ready. -/
theorem execAccept_of_drains {d : DispatchPacket} (hd : s.exFires i = some d)
    (hneeds : d.requiresDrain p) : s.execAccept i := by
  have hgoes := goes_of_fires hd
  obtain ⟨hctl, hlsu, hunit⟩ := system_of_drains hneeds
  obtain ⟨hmem, hwb⟩ := hgoes.drained hneeds
  have hctl' : (p.decode.decodeTop d.instr).control = false := hctl
  have hlsu' : (p.decode.decodeTop d.instr).lsu = none := hlsu
  have hunit' : ((p.decode.decodeTop d.instr).system || (p.decode.decodeTop d.instr).fence ||
      (p.decode.decodeTop d.instr).illegal || d.instr == instrEbreak ||
        d.instr == instrEcall) := hunit
  refine execAccept_of_fires hd ?_
  simp only [unitReady, hctl', hlsu', hunit', Option.isSome_none, Bool.false_eq_true,
    if_false, if_true]
  simp [serialIssueReady, pipelineEmpty, hmem, hwb, hgoes.clear, hgoes.notSerializing,
    hgoes.notBusy, hgoes.unit]

/-- Every instruction that leaves EX leaves the dispatch register, if the multiplier is free
for it. -/
theorem execAccept_of_ready {d : DispatchPacket} (hd : s.exFires i = some d)
    (hrdy : i.aluMReadyI) : s.execAccept i := by
  cases hneeds : d.requiresDrain p with
  | true => exact execAccept_of_drains hd hneeds
  | false =>
    have hgoes := goes_of_fires hd
    have hunit := exUnitReady_of_goes hgoes
    refine execAccept_of_fires hd ?_
    cases hctl : (p.decode.decodeTop d.instr).control with
    | true =>
      simp only [unitReady, hctl, if_true]
      exact hunit
    | false =>
    cases hlsu : (p.decode.decodeTop d.instr).lsu with
    | some op =>
      simp only [unitReady, hctl, hlsu, Option.isSome_some, if_low, if_true]
      exact hunit
    | none =>
      have hnone : ((p.decode.decodeTop d.instr).system ||
          (p.decode.decodeTop d.instr).fence || (p.decode.decodeTop d.instr).illegal ||
          d.instr == instrEbreak || d.instr == instrEcall) = false := by
        rw [requiresDrain, serializing_eq,
          csrSelected_eq, fenceSelected, DispatchPacket.op] at hneeds
        simp only [serial, csrOp, bne] at hneeds
        revert hneeds
        generalize (rvFunct3 d.instr == 0b000) = plain
        cases (p.decode.decodeTop d.instr).system <;>
          cases (p.decode.decodeTop d.instr).fence <;>
          cases (p.decode.decodeTop d.instr).illegal <;> cases plain <;> simp
      simp only [unitReady, hctl, hlsu, hnone, Option.isSome_none, Bool.false_eq_true, if_false]
      simp [hgoes.clear, hrdy, hgoes.notSerializing, hgoes.notBusy]

/-- While nothing enters, dispatch holds what it held. -/
theorem dispatch_of_idle (hnone : s.dispatches i = none) (hq : s.dispatchQ = none) :
    (s.step i).dispatchQ = none := by
  change s.dispatchNext i = none
  rw [dispatchNext, hnone, hq]
  split_ifs <;> rfl

/-- Where an instruction is held in EX it stays in dispatch. -/
theorem dispatch_stays {d : DispatchPacket} (hq : s.dispatchQ = some d)
    (hfl : s.flushIdEx i = false) (hacc : s.execAccept i = false) :
    (s.step i).dispatchQ = some d ∧ s.dispatches i = none := by
  have hcan : s.canDispatch i = false := by simp [canDispatch, hq, hacc]
  have hclr : s.decodeClear i = false := by simp [decodeClear, hfl, hcan]
  refine ⟨?_, by simp [dispatches, hclr]⟩
  change s.dispatchNext i = some d
  rw [dispatchNext, hfl, hclr, hacc]
  exact hq

theorem Pipe.notBusy_of_wb (h : s.Pipe) {w : MemWbPacket} (hw : s.memWbQ = some w)
    (hcsr : p.decode.csrOp w.instr = false) (hmem : s.exMemQ = none) : s.csrBusy = false := by
  refine eq_false_of_ne_true fun hbsy => ?_
  exfalso
  rcases h.busy hbsy with ⟨m, hm, -⟩ | ⟨w', hw', hcsr'⟩
  · rw [hmem] at hm
    cases hm
  · obtain rfl := Option.mem_unique hw hw'
    rw [hcsr] at hcsr'
    cases hcsr'

/-! ### Fences -/

/-- What dispatch knows of a fence. -/
structure Fenced (s : ScalarState p) : Prop where
  dispatched : ∀ d, s.dispatchQ = some d → (d.op p).fence = true → s.fenceActiveQ = true
  mem : ∀ m, s.exMemQ = some m → (m.op p).fence = true →
    s.memWbQ = none ∧ s.fenceActiveQ = true ∧ s.dispatchQ = none
  wb : ∀ w, s.memWbQ = some w → (p.decode.decodeTop w.instr).fence = true →
    s.exMemQ = none ∧ s.fenceActiveQ = true ∧ s.dispatchQ = none

theorem fenced_reset (powerUp : PtwState) : Fenced (reset powerUp : ScalarState p) where
  dispatched := fun _ h => by cases h
  mem := fun _ h => by cases h
  wb := fun _ h => by cases h

theorem dispatches_of_fence (h : s.fenceActiveQ) : s.dispatches i = none := by
  cases hf : s.dispatches i with
  | none => rfl
  | some f =>
    have hclr := (dispatches_eq_some hf).2.2.2.2.2.1
    rw [h] at hclr
    cases hclr

theorem fenceActive_of_idle (hact : s.fenceActiveQ) (hfl : s.flushIdEx i = false)
    (hret : s.retires isFence = false) : (s.step i).fenceActiveQ := by
  change s.fenceActiveNext i
  simp [fenceActiveNext, hfl, hact, hret]

section Fence

variable (hpipe : s.Pipe) (h : s.Fenced)
include hpipe h

/-- While an instruction waits in EX no fence retires. -/
theorem Fenced.waits {d : DispatchPacket} (hd : s.dispatchQ = some d) :
    s.retires isFence = false := by
  refine eq_false_of_ne_true fun hr => ?_
  exfalso
  obtain ⟨-, w, hw, hfen⟩ := retires_iff.mp hr
  obtain ⟨harch, hopcode⟩ := Bool.and_eq_true_iff.mp hfen
  have hopcode' : rvOpcode w.instr = opcodeMiscMem := beq_iff_eq.mp hopcode
  cases hop : (p.decode.decodeTop w.instr).fence with
  | true =>
    have hnone := (h.wb w hw hop).2.2
    rw [hd] at hnone
    cases hnone
  | false =>
    have hill : (p.decode.decodeTop w.instr).illegal := by
      rw [decodeTop_of_miscMem hopcode', hop]
      rfl
    rw [arch, (hpipe.wbIllegal w hw hill).1] at harch
    cases harch

omit h in
theorem noRedirect_of_fence {m : ExMemPacket} (hm : s.exMemQ = some m)
    (hfen : (m.op p).fence) : s.redirectDispatchFlushQ = false := by
  refine eq_false_of_ne_true fun hr => ?_
  obtain ⟨-, -, m', op, hm', hbr⟩ := hpipe.redirected hr
  obtain rfl : m = m' := Option.mem_unique hm hm'
  rw [ExMemPacket.op, (decodeTop_fence hfen).1] at hbr
  cases hbr

theorem Fenced.step_dispatched : ∀ d, (s.step i).dispatchQ = some d →
    (d.op p).fence → (s.step i).fenceActiveQ := by
  intro d hd hfen
  obtain ⟨hfl, ⟨f, hf, rfl⟩ | ⟨-, hq, -⟩⟩ := dispatch_cases hd
  · change s.fenceActiveNext i
    have hfen' : (p.decode.decodeTop f.instr).fence := hfen
    simp [fenceActiveNext, hfl, hf, hfen']
  · exact fenceActive_of_idle (h.dispatched d hq hfen) hfl (h.waits hpipe hq)

/-- With nothing to retire the fence stays what it is. -/
theorem Fenced.held {m : ExMemPacket} (hm : s.mem i = some m) (hfen : (m.op p).fence) :
    (s.step i).fenceActiveQ ∧ (s.step i).dispatchQ = none ∧ s.exFires i = none := by
  obtain ⟨hfl, hq⟩ := mem_eq_some.mp hm
  obtain ⟨hwb, hact, hnone⟩ := h.mem m hq hfen
  have hret := retiring_of_none hwb
  have hidle := flushIdEx_of_idle hfl hret (noRedirect_of_fence hpipe hq hfen)
  refine ⟨fenceActive_of_idle hact hidle (retires_of_idle hret),
    dispatch_of_idle (dispatches_of_fence hact) hnone, ?_⟩
  cases hd : s.exFires i with
  | none => rfl
  | some d =>
    rw [(goes_of_fires hd).dispatched] at hnone
    cases hnone

theorem Fenced.step_mem : ∀ m, (s.step i).exMemQ = some m → (m.op p).fence →
    (s.step i).memWbQ = none ∧ (s.step i).fenceActiveQ ∧ (s.step i).dispatchQ = none := by
  intro m hm hfen
  rcases mem_cases hm with ⟨d, hd, rfl⟩ | ⟨-, hmem, hout⟩
  · have hfen' : (d.op p).fence := hfen
    have hgoes := goes_of_fires hd
    have hneeds : d.requiresDrain p := by
      have hill : (d.op p).illegal = false := (decodeTop_fence hfen').2.2
      simp [requiresDrain, fenceSelected, hfen', hill]
    obtain ⟨hmem, hwb⟩ := hgoes.drained hneeds
    have hact := h.dispatched d hgoes.dispatched hfen'
    refine ⟨?_, fenceActive_of_idle hact hgoes.noFlush (retires_of_none hwb),
      dispatch_of_accept (execAccept_of_drains hd hneeds) (dispatches_of_fence hact)⟩
    refine (next_of_clear rfl (memWbInClear_iff.mpr (.inl hwb))).trans ?_
    simp [memOut, hmem]
  have hwb := (h.mem _ (mem_eq_some.mp hmem).2 hfen).1
  have hclr : s.memWbInClear := memWbInClear_iff.mpr (.inl hwb)
  rw [exMemOutClear, hclr, Bool.true_and, memIs_of hmem] at hout
  obtain ⟨hact, hnone, -⟩ := h.held hpipe hmem hfen
  refine ⟨(next_of_clear rfl hclr).trans ?_, hact, hnone⟩
  simp [memOut, hmem, hout]

theorem Fenced.step_wb : ∀ w, (s.step i).memWbQ = some w → (p.decode.decodeTop w.instr).fence →
    (s.step i).exMemQ = none ∧ (s.step i).fenceActiveQ ∧ (s.step i).dispatchQ = none := by
  intro w hw hfen
  rcases wb_cases hw with ⟨m, hclr, hmem, hdone, rfl⟩ | ⟨hbsy, -, hq⟩
  · obtain ⟨hact, hnone, hfires⟩ := h.held hpipe hmem hfen
    refine ⟨?_, hact, hnone⟩
    refine mem_empty hfires fun m' hmem' => ?_
    obtain rfl := Option.mem_unique hmem hmem'
    rw [exMemOutClear, hclr, memIs_of hmem, hdone, Bool.and_self]
  · have hsolo := (decodeTop_fence hfen).2.1
    rw [solo, Bool.or_eq_false_iff] at hsolo
    rw [hpipe.notBusy_of_wb hq hsolo.2 (h.wb _ hq hfen).1] at hbsy
    cases hbsy

theorem Fenced.step : (s.step i).Fenced where
  dispatched := h.step_dispatched hpipe
  mem := h.step_mem hpipe
  wb := h.step_wb hpipe

end Fence

/-! ### Nothing follows an EBREAK -/

/-- The front end is empty and fetch waits until the core halts or traps. -/
structure Drained (s : ScalarState p) : Prop where
  fetch : s.fetch.Quiet
  ifId : s.ifIdQ = none
  pending : s.haltPendingQ = true

structure Halting (s : ScalarState p) : Prop where
  reset : s.resetPendingQ = true → s.dispatchQ = none ∧ s.exMemQ = none ∧ s.memWbQ = none
  dispatched : ∀ d, s.dispatchQ = some d → d.instr = instrEbreak → s.Drained
  mem : ∀ m, s.exMemQ = some m → m.instr = instrEbreak → s.Drained ∧ s.dispatchQ = none
  wb : ∀ w, s.memWbQ = some w → w.instr = instrEbreak → s.Drained ∧ s.dispatchQ = none
  traps : ∀ w, s.memWbQ = some w → w.halt = true → w.instr = instrEbreak ∧ w.exception = true
  halted : s.haltedQ = true → s.Quiet

theorem halting_reset (powerUp : PtwState) : Halting (reset powerUp : ScalarState p) where
  reset := fun _ => ⟨rfl, rfl, rfl⟩
  dispatched := fun _ h => by cases h
  mem := fun _ h => by cases h
  wb := fun _ h => by cases h
  traps := fun _ h => by cases h
  halted := fun h => by cases h

theorem solo_ebreak : solo p instrEbreak := Bool.or_eq_true_iff.mpr (.inl serial_ebreak)

theorem ifIdIs_of_none {f : FetchPacket → Bool} (h : s.ifIdQ = none) : s.ifIdIs i f = false := by
  rw [ifIdIs, ifId, h, out, ite_self]
  rfl

theorem dispatches_of_none (h : s.ifIdQ = none) : s.dispatches i = none := by
  rw [dispatches, ifId, h, out, ite_self, ite_self]

/-- An empty front end stays empty while fetch takes no address and nothing redirects it. -/
theorem front_empty (hfetch : s.fetch.Quiet) (hifId : s.ifIdQ = none)
    (hpc : s.fetchPcValid i = false) (hredir : s.hardFlushRedirect i = false) :
    (s.step i).fetch.Quiet ∧ (s.step i).ifIdQ = none := by
  have hredir' : s.redirectFetch i = false := by
    simp [redirectFetch, hredir, predictRedirect, branchAllocate, ifIdIs_of_none hifId]
  refine ⟨hfetch.step hpc hredir', ?_⟩
  cases hf : (s.step i).ifIdQ with
  | none => rfl
  | some f =>
    exfalso
    rcases (ifId_cases hf).2 with hout | hold
    · have hval : s.fetch.decodeValidO (s.fetchInput i) = false := hfetch.decodeValidO hpc hredir'
      simp [fetchOut, hval] at hout
    · rw [hifId] at hold
      cases hold

theorem noRedirect_of_hardFlush (h : s.hardFlush i = false) : s.hardFlushRedirect i = false := by
  simp only [hardFlush, Bool.or_eq_false_iff] at h
  exact h.2

theorem Drained.step (h : s.Drained) (hhard : s.hardFlush i = false)
    (hhalt : (s.memWbQ.map halt).getD false = false) : (s.step i).Drained := by
  have hpc : s.fetchPcValid i = false := by simp [fetchPcValid, h.pending]
  obtain ⟨hfetch, hifId⟩ := front_empty h.fetch h.ifId hpc (noRedirect_of_hardFlush hhard)
  refine ⟨hfetch, hifId, ?_⟩
  change (!(s.memWbQ.map halt).getD false && !s.hardFlush i &&
    (s.decodeEbreakAccept i || s.haltPendingQ))
  rw [hhalt, hhard, h.pending, Bool.or_true]
  rfl

/-- An EBREAK that leaves decode empties the front end behind it. -/
theorem drained_of_dispatches {f : FetchPacket} (hf : s.dispatches i = some f)
    (hebreak : f.instr = instrEbreak)
    (hhalt : (s.memWbQ.map halt).getD false = false) : (s.step i).Drained := by
  obtain ⟨hq, hhard, hfl, hcan, hcsr, hfen, hstall⟩ := dispatches_eq_some hf
  have hifId : s.ifId i = some f := Stage.out_eq_some.mpr ⟨hhard, hq⟩
  have hclr : s.ifIdOutClear i := by
    simp [ifIdOutClear, decodeClear, hcan, hcsr, hfen, hstall]
  have hacc : s.decodeEbreakAccept i := by
    simp [decodeEbreakAccept, ifIdIs, hifId, hebreak, hclr]
  have hinval : s.invalidateFetch i := by simp [invalidateFetch, drainFetch, hacc]
  have hinput : (s.fetchInput i).flushI := hinval
  have hout : s.fetchOut i = none := by simp [fetchOut, FetchState.decodeValidO, hinput]
  refine ⟨?_, ?_, ?_⟩
  · change (s.fetch.step (s.fetchInput i)).Quiet
    rw [FetchState.step, if_pos hinput]
    exact FetchState.quiet_flushed
  · refine (next_of_clear hhard ?_).trans hout
    rw [Stage.inClear, hclr, Bool.or_true]
  · change (!(s.memWbQ.map halt).getD false && !s.hardFlush i &&
      (s.decodeEbreakAccept i || s.haltPendingQ))
    rw [hhalt, hhard, hacc]
    rfl

section Halt

variable (h : s.Halting)
include h

/-- Nothing but the EBREAK itself halts the core. -/
theorem Halting.noHalt (hnot : ∀ w, s.memWbQ = some w → w.instr ≠ instrEbreak) :
    (s.memWbQ.map halt).getD false = false := by
  cases hw : s.memWbQ with
  | none => rfl
  | some w =>
    cases hhalt : w.halt with
    | false => exact hhalt
    | true => exact absurd (h.traps w hw hhalt).1 (hnot w hw)

theorem Halting.noHalt_of_dispatched {d : DispatchPacket} (hd : s.dispatchQ = some d) :
    (s.memWbQ.map halt).getD false = false := by
  refine h.noHalt fun w hw hebreak => ?_
  rw [(h.wb w hw hebreak).2] at hd
  cases hd

/-- A control does not redirect fetch while an EBREAK waits in EX. -/
theorem Halting.noFlush_of_dispatched {d : DispatchPacket} (hd : s.dispatchQ = some d)
    (hebreak : d.instr = instrEbreak) (hfl : s.flushIdEx i = false) : s.hardFlush i = false := by
  have hreset : s.resetPendingQ = false := by
    refine eq_false_of_ne_true fun hr => ?_
    rw [(h.reset hr).1] at hd
    cases hd
  have hredir : s.hardFlushRedirect i = false := by
    refine eq_false_of_ne_true fun hr => ?_
    obtain ⟨d', hd', hgo⟩ := firesIs_iff.mp hr
    obtain rfl := Option.some_inj.mp (hd.symm.trans (goes_of_fires hd').dispatched)
    have hctl : (d.op p).control = false := by
      rw [ScalarOp.control, DispatchPacket.op, hebreak, br_ebreak]
      rfl
    simp [redirects, targetMispredicts, hctl] at hgo
  simp only [flushIdEx, Bool.or_eq_false_iff] at hfl
  simp [hardFlush, hreset, hfl.1.1, hfl.1.2, hredir]

theorem Halting.noFlush_of_mem (hpipe : s.Pipe) {m : ExMemPacket} (hm : s.exMemQ = some m)
    (hebreak : m.instr = instrEbreak) : s.hardFlush i = false ∧ s.memWbQ = none := by
  have hsolo : solo p m.instr := by rw [hebreak]; exact solo_ebreak
  have hwb := (hpipe.memSolo m hm hsolo).1
  have hreset : s.resetPendingQ = false := by
    refine eq_false_of_ne_true fun hr => ?_
    rw [(h.reset hr).2.1] at hm
    cases hm
  have hfl : s.flushExMem i = false :=
    hpipe.noFlush_of_wb (by rw [hm]; exact Option.some_ne_none m) hwb
  have hfires : s.exFires i = none := hpipe.exFires_of_solo (.inl ⟨m, hm, hsolo⟩)
  refine ⟨?_, hwb⟩
  simp [hardFlush, hreset, hfl, hardFlushRestart, retires_of_none hwb, hardFlushRedirect,
    firesIs, hfires]

theorem Halting.step_dispatched : ∀ d, (s.step i).dispatchQ = some d →
    d.instr = instrEbreak → (s.step i).Drained := by
  intro d hd hebreak
  obtain ⟨hfl, ⟨f, hf, rfl⟩ | ⟨-, hq, -⟩⟩ := dispatch_cases hd
  · refine drained_of_dispatches hf hebreak (h.noHalt fun w hw hw' => ?_)
    have hq := (dispatches_eq_some hf).1
    rw [(h.wb w hw hw').1.ifId] at hq
    cases hq
  · exact (h.dispatched d hq hebreak).step (h.noFlush_of_dispatched hq hebreak hfl)
      (h.noHalt_of_dispatched hq)

theorem Halting.step_mem (hpipe : s.Pipe) :
    ∀ m, (s.step i).exMemQ = some m → m.instr = instrEbreak →
      (s.step i).Drained ∧ (s.step i).dispatchQ = none := by
  intro m hm hebreak
  rcases mem_cases hm with ⟨d, hd, rfl⟩ | ⟨-, hmem, -⟩
  · have hebreak' : d.instr = instrEbreak := hebreak
    have hgoes := goes_of_fires hd
    have hdrained := h.dispatched d hgoes.dispatched hebreak'
    have hneeds : d.requiresDrain p := by
      rw [requiresDrain, serializing_eq, hebreak', serial_ebreak]
      rfl
    exact ⟨hdrained.step (h.noFlush_of_dispatched hgoes.dispatched hebreak' hgoes.noFlush)
      (h.noHalt_of_dispatched hgoes.dispatched),
      dispatch_of_accept (execAccept_of_drains hd hneeds) (dispatches_of_none hdrained.ifId)⟩
  have hq := (mem_eq_some.mp hmem).2
  obtain ⟨hdrained, hnone⟩ := h.mem _ hq hebreak
  obtain ⟨hhard, hwb⟩ := @Halting.noFlush_of_mem _ _ i h hpipe _ hq hebreak
  exact ⟨hdrained.step hhard (by rw [hwb]; rfl),
    dispatch_of_idle (dispatches_of_none hdrained.ifId) hnone⟩

theorem Halting.step_wb (hpipe : s.Pipe) : ∀ w, (s.step i).memWbQ = some w → w.instr = instrEbreak →
    (s.step i).Drained ∧ (s.step i).dispatchQ = none := by
  intro w hw hebreak
  rcases wb_cases hw with ⟨m, -, hmem, -, rfl⟩ | ⟨hbsy, -, hq⟩
  · have hebreak' : m.instr = instrEbreak := hebreak
    have hq := (mem_eq_some.mp hmem).2
    obtain ⟨hdrained, hnone⟩ := h.mem _ hq hebreak'
    obtain ⟨hhard, hwb⟩ := @Halting.noFlush_of_mem _ _ i h hpipe _ hq hebreak'
    exact ⟨hdrained.step hhard (by rw [hwb]; rfl),
      dispatch_of_idle (dispatches_of_none hdrained.ifId) hnone⟩
  have hsolo : solo p w.instr := by rw [hebreak]; exact solo_ebreak
  have hcsr : p.decode.csrOp w.instr = false := by
    rw [csrOp, hebreak]
    exact Bool.and_false _
  rw [hpipe.notBusy_of_wb hq hcsr (hpipe.wbSolo _ hq hsolo).1] at hbsy
  cases hbsy

theorem Halting.step_traps : ∀ w, (s.step i).memWbQ = some w → w.halt →
    w.instr = instrEbreak ∧ w.exception := by
  intro w hw hhalt
  rcases wb_cases hw with ⟨m, -, -, -, rfl⟩ | ⟨-, -, hq⟩
  · have hhalt' : s.exceptHalt i m := hhalt
    simp only [exceptHalt, ExMemPacket.ebreak, Bool.and_eq_true, beq_iff_eq] at hhalt'
    refine ⟨hhalt'.1.2, ?_⟩
    change (s.exceptCause i m).isSome
    rw [hhalt'.1.1]
    rfl
  · exact h.traps _ hq hhalt

theorem Halting.step_halted (hpipe : s.Pipe) (hhalted : (s.step i).haltedQ) : (s.step i).Quiet := by
  have hnow : s.haltedQ ∨ (s.memWbQ.map halt).getD false := Bool.or_eq_true_iff.mp hhalted
  obtain hnow | hhalts := hnow
  · exact (h.halted hnow).step (by simp [fetchPcValid, hnow])
  obtain ⟨w, hw, hhalt⟩ : ∃ w, s.memWbQ = some w ∧ w.halt := by
    cases hw : s.memWbQ with
    | none => rw [hw] at hhalts; cases hhalts
    | some w => rw [hw] at hhalts; exact ⟨w, rfl, hhalts⟩
  have hebreak := (h.traps w hw hhalt).1
  have hsolo : solo p w.instr := by rw [hebreak]; exact solo_ebreak
  obtain ⟨hdrained, hnone⟩ := h.wb w hw hebreak
  have hmem := (hpipe.wbSolo w hw hsolo).1
  have hcsr : p.decode.csrOp w.instr = false := by
    rw [csrOp, hebreak]
    exact Bool.and_false _
  have hbsy := hpipe.notBusy_of_wb hw hcsr hmem
  have hfires : s.exFires i = none := hpipe.exFires_of_solo (.inr ⟨w, hw, hsolo⟩)
  have hpc : s.fetchPcValid i = false := by simp [fetchPcValid, hdrained.pending]
  have hredir : s.hardFlushRedirect i = false := by simp [hardFlushRedirect, firesIs, hfires]
  obtain ⟨hfetch, hifId⟩ := front_empty hdrained.fetch hdrained.ifId hpc hredir
  have hidle : s.mem i = none := by rw [ScalarState.mem, hmem, out, ite_self]
  refine ⟨hfetch, hifId, dispatch_of_idle (dispatches_of_none hdrained.ifId) hnone, ?_, ?_⟩
  · exact mem_empty hfires fun m hm => by cases hidle.symm.trans hm
  · refine (next_of_clear rfl (memWbInClear_iff.mpr (.inr hbsy))).trans ?_
    simp [memOut, hidle]

theorem Halting.step (hpipe : s.Pipe) : (s.step i).Halting where
  reset := fun hreset => by cases hreset
  dispatched := h.step_dispatched
  mem := h.step_mem hpipe
  wb := h.step_wb hpipe
  traps := h.step_traps
  halted := h.step_halted hpipe

end Halt

end ScalarState

end OpenRV64
