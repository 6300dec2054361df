/-
Addresses in the one-wide core: a stage holds a misaligned address only behind an
instruction that is about to trap, and an instruction that could not be fetched does nothing.
-/
import OpenRV64.ScalarPipe

namespace OpenRV64

open MemWbPacket
open Bool (and_eq_true or_eq_true or_eq_false_iff and_eq_true_iff not_eq_true')

/-! ### Alignment -/

theorem misaligned_eq_false {x : BitVec 64} : misaligned x = false ↔ x.toNat % 4 = 0 := by
  rw [misaligned, bne_eq_false_iff_eq, ← BitVec.toNat_inj]
  simp

theorem misaligned_add {x y : BitVec 64} (hy : misaligned y = false) :
    misaligned (x + y) = misaligned x := by
  have hsum : misaligned (x + y) = false ↔ misaligned x = false := by
    rw [misaligned_eq_false] at hy
    rw [misaligned_eq_false, misaligned_eq_false, BitVec.toNat_add]
    omega
  cases hx : misaligned x with
  | false => exact hsum.mpr hx
  | true =>
  cases hxy : misaligned (x + y) with
  | true => rfl
  | false =>
    rw [hsum.mp hxy] at hx
    cases hx

theorem misaligned_aligned (x : BitVec 64) : misaligned (aligned x) = false := by
  rw [misaligned, aligned, bne_eq_false_iff_eq]
  exact BitVec.extractLsb'_append_eq_right

theorem misaligned_pcAfter (pc : BitVec 64) :
    misaligned (ScalarState.pcAfter pc) = misaligned pc := by
  rw [ScalarState.pcAfter]
  exact misaligned_add (by split_ifs <;> decide)

theorem misaligned_readPc (s : FetchState) : misaligned s.readPc = false := by
  rw [FetchState.readPc, misaligned_add (by split_ifs <;> decide), misaligned_eq_false,
    BitVec.toNat_append, Nat.or_comm]
  simp [Nat.shiftLeft_eq]
  omega

namespace TrapRegs

variable {r : TrapRegs} {i : CsrInput}

theorem misaligned_trapVector : misaligned (r.trapVectorO i) = false := by
  rw [trapVectorO, misaligned_add, misaligned_aligned]
  split_ifs
  · rw [misaligned, bne_eq_false_iff_eq]
    exact BitVec.extractLsb'_append_eq_right
  · rfl

/-- The addresses to which a trap returns are aligned. -/
structure ReturnsAligned (r : TrapRegs) : Prop where
  mepc : misaligned r.mepcQ = false
  sepc : misaligned r.sepcQ = false

theorem write_mepcQ (addr : BitVec 12) (value mask : BitVec 64) :
    (r.write addr value mask).mepcQ = r.mepcQ ∨
      (r.write addr value mask).mepcQ = aligned value := by
  by_cases h : (addr == csrMepc)
  · obtain rfl : addr = csrMepc := beq_iff_eq.mp h
    exact .inr rfl
  · exact .inl (by simp only [write, h, apply_ite TrapRegs.mepcQ, ite_self, if_false,
      Bool.false_eq_true])

theorem write_sepcQ (addr : BitVec 12) (value mask : BitVec 64) :
    (r.write addr value mask).sepcQ = r.sepcQ ∨
      (r.write addr value mask).sepcQ = aligned value := by
  by_cases h : (addr == csrSepc)
  · obtain rfl : addr = csrSepc := beq_iff_eq.mp h
    exact .inr rfl
  · exact .inl (by simp only [write, h, apply_ite TrapRegs.sepcQ, ite_self, if_false,
      Bool.false_eq_true])

theorem ReturnsAligned.write (h : r.ReturnsAligned) (addr : BitVec 12) (value mask : BitVec 64) :
    (r.write addr value mask).ReturnsAligned := by
  constructor
  · rcases @write_mepcQ r addr value mask with heq | heq <;> rw [heq]
    · exact h.mepc
    · exact misaligned_aligned value
  · rcases @write_sepcQ r addr value mask with heq | heq <;> rw [heq]
    · exact h.sepc
    · exact misaligned_aligned value

end TrapRegs

theorem CsrState.returnsAligned_step {p : CsrParams} {s : CsrState p} {i : CsrInput}
    (h : s.regs.ReturnsAligned) : (s.step i).regs.ReturnsAligned := by
  change (s.regsStep i).ReturnsAligned
  unfold CsrState.regsStep
  split_ifs
  · exact ⟨h.mepc, misaligned_aligned _⟩
  · exact ⟨misaligned_aligned _, h.sepc⟩
  · exact ⟨h.mepc, h.sepc⟩
  · exact ⟨h.mepc, h.sepc⟩
  · exact h.write _ _ _
  · exact h

namespace ScalarState

variable {p : ScalarParams} {s : ScalarState p} {i : ScalarInput}

/-! ### What is about to trap -/

/-- WB holds an instruction that traps. -/
def WbTrapping (s : ScalarState p) : Prop :=
  ∃ w, s.memWbQ = some w ∧ w.exception = true ∧ w.halt = false

def Trapping (s : ScalarState p) : Prop := (∃ m, s.exMemQ = some m ∧ m.Doomed) ∨ s.WbTrapping

/-- EX holds a control that was predicted to go to a misaligned address. -/
def Armed (s : ScalarState p) : Prop :=
  ∃ d, s.dispatchQ = some d ∧ (d.op p).control = true ∧ d.predictedTaken = true ∧
    misaligned s.predictedTargetQ = true

/-- What fetch delivers next will be thrown away. -/
def Lost (s : ScalarState p) : Prop := s.Trapping ∨ s.Armed

/-- What the stages hold of addresses and of failed fetches. -/
structure Path (s : ScalarState p) : Prop where
  lines : s.fetch.Harmless
  ifIdNop : ∀ f, s.ifIdQ = some f → f.fault = true ∨ f.pageFault = true → f.instr = instrNop
  dispatchNop : ∀ d, s.dispatchQ = some d → d.fault = true ∨ d.pageFault = true → d.instr = instrNop
  memNop : ∀ m, s.exMemQ = some m → m.accessFault = true ∨ m.pageFault = true → m.instr = instrNop
  returns : s.csr.regs.ReturnsAligned
  memNextPc : ∀ m, s.exMemQ = some m → m.instrMisaligned = false → misaligned m.nextPc = false
  wbNextPc : ∀ w, s.memWbQ = some w → w.exception = false → misaligned w.nextPc = false
  memControl : ∀ m, s.exMemQ = some m → m.instrMisaligned = true →
    misaligned m.pc = true ∨ (m.op p).control = true
  fetchPc : misaligned s.pcQ = true → s.Lost
  ifIdPc : ∀ f, s.ifIdQ = some f → misaligned f.pc = true → s.Lost
  dispatchPc : ∀ d, s.dispatchQ = some d → misaligned d.pc = true → s.Trapping
  memPc : ∀ m, s.exMemQ = some m → misaligned m.pc = true → s.WbTrapping

theorem path_reset (powerUp : PtwState) : Path (reset powerUp : ScalarState p) where
  lines := FetchState.harmless_flushed
  ifIdNop := fun _ h => by cases h
  dispatchNop := fun _ h => by cases h
  memNop := fun _ h => by cases h
  returns := ⟨rfl, rfl⟩
  memNextPc := fun _ h => by cases h
  wbNextPc := fun _ h => by cases h
  memControl := fun _ h => by cases h
  fetchPc := fun h => by cases h
  ifIdPc := fun _ h => by cases h
  dispatchPc := fun _ h => by cases h
  memPc := fun _ h => by cases h

/-! ### The step -/

/-- Without a flush WB traps only as long as a CSR write holds it. -/
theorem WbTrapping.step (h : s.WbTrapping) (hfl : s.flushExMem i = false) :
    s.csrBusy ∧ (s.step i).WbTrapping := by
  obtain ⟨w, hw, hexc, hhalt⟩ := h
  have hbsy : s.csrBusy := by
    by_contra hidle
    have htrap : s.hardFlushTrap :=
      retires_iff.mpr ⟨by simpa using hidle, w, hw, by simp [hexc, hhalt]⟩
    simp [flushExMem, htrap] at hfl
  refine ⟨hbsy, w, ?_, hexc, hhalt⟩
  have hclr : s.memWbInClear = false := by simp [memWbInClear, Stage.inClear, hw, hbsy]
  exact (Stage.next_of_held rfl hclr).trans hw

theorem Trapping.step (h : s.Trapping) (hfl : s.flushExMem i = false) : (s.step i).Trapping := by
  rcases h with ⟨m, hm, hdoomed⟩ | hwb
  · rcases mem_goes (mem_eq_some.mpr ⟨hfl, hm⟩) with ⟨-, -, hnxt⟩ | ⟨-, -, hnxt⟩
    · exact .inl ⟨m, hnxt, hdoomed⟩
    · exact .inr ⟨_, hnxt, trapped_of_doomed hdoomed⟩
  · exact .inr (hwb.step hfl).2

/-- In front of what enters MEM such an instruction is in WB. -/
theorem Trapping.enters (h : s.Trapping) {d : DispatchPacket} (hd : s.exFires i = some d) :
    (s.step i).WbTrapping := by
  have hgoes := goes_of_fires hd
  have hfl := flushExMem_of_flushIdEx hgoes.noFlush
  rcases h with ⟨m, hm, hdoomed⟩ | hwb
  · rcases mem_goes (mem_eq_some.mpr ⟨hfl, hm⟩) with ⟨hnone, -, -⟩ | ⟨-, -, hnxt⟩
    · rw [hd] at hnone
      cases hnone
    · exact ⟨_, hnxt, trapped_of_doomed hdoomed⟩
  · have hbsy := (hwb.step hfl).1
    rw [hgoes.notBusy] at hbsy
    cases hbsy

theorem mem_of_fires {d : DispatchPacket} (hd : s.exFires i = some d) :
    (s.step i).exMemQ = some (s.exMemIn i d) := by
  have hgoes := goes_of_fires hd
  refine (Stage.next_of_clear (flushExMem_of_flushIdEx hgoes.noFlush) hgoes.clear).trans ?_
  rw [hd]
  rfl

/-- A control that was sent to a misaligned address traps, or fetch is sent elsewhere. -/
theorem Armed.fires (h : s.Armed) {d : DispatchPacket} (hd : s.exFires i = some d)
    (hgo : s.hardFlushRedirect i = false) : (s.step i).Trapping := by
  obtain ⟨d', hd', hctl, htaken, hmis⟩ := h
  obtain rfl : d = d' := Option.mem_unique (goes_of_fires hd).dispatched hd'
  refine .inl ⟨s.exMemIn i d, mem_of_fires hd, ?_⟩
  have hstays : (s.redirects i d || s.targetMispredicts i d) = false := by
    rw [hardFlushRedirect, firesIs, hd] at hgo
    exact hgo
  by_contra hfine
  have hfine' : instrMisaligned (p := p) i d = false ∧ s.exIllegal i d = false := by
    simpa [ExMemPacket.Doomed, exMemIn] using hfine
  have hboth : s.exTaken i d ∧ s.exNextPc i d = s.predictedTargetQ := by
    have hagr : s.exTaken i d ∧ (s.exTaken i d → s.exNextPc i d = s.predictedTargetQ) := by
      simpa [redirects, targetMispredicts, hctl, hfine'.1, hfine'.2, htaken] using hstays
    exact ⟨hagr.1, hagr.2 hagr.1⟩
  have htgt : (brResult (p := p) i d).2 = s.predictedTargetQ := by
    rw [← hboth.2, exNextPc, if_pos hboth.1]
  have halign : targetMisaligned (p := p) i d = false := by
    have hor := hfine'.1
    rw [instrMisaligned, or_eq_false_iff] at hor
    exact hor.2
  have hbranch : (brResult (p := p) i d).1 := by
    have htaken' := hboth.1
    simp only [exTaken, and_eq_true] at htaken'
    exact htaken'.1.1.2
  rw [targetMisaligned, hctl, hbranch, htgt, hmis] at halign
  cases halign

/-- A front end that holds something is flushed only together with fetch. -/
theorem Pipe.noFlush (h : s.Pipe) (hhard : s.hardFlush i = false)
    (hfront : s.dispatchQ ≠ none ∨ s.ifIdQ ≠ none) : s.flushIdEx i = false := by
  simp only [hardFlush, or_eq_false_iff] at hhard
  rw [flushIdEx, hhard.1.1.2, hhard.1.2, Bool.false_or, Bool.false_or]
  refine eq_false_of_ne_true fun hr => ?_
  obtain ⟨hdisp, hifId, -⟩ := h.redirected hr
  simp [hdisp, hifId] at hfront

theorem Armed.waits (h : s.Armed) (hpipe : s.Pipe) (hd : s.exFires i = none)
    (hhard : s.hardFlush i = false) : (s.step i).Armed := by
  obtain ⟨d, hq, hctl, htaken, hmis⟩ := h
  have hfl : s.flushIdEx i = false :=
    hpipe.noFlush hhard (.inl (by rw [hq]; exact Option.some_ne_none d))
  have hacc : s.execAccept i = false := by
    refine eq_false_of_ne_true fun hacc => ?_
    rw [execAccept, hq] at hacc
    have hfires : s.exFires i = some d := exFires_eq_some.mpr ⟨hq, hfl, (and_eq_true_iff.mp hacc).1⟩
    rw [hd] at hfires
    cases hfires
  have hclr : s.decodeClear i = false := by
    simp [decodeClear, hfl, canDispatch, hq, hacc]
  refine ⟨d, ?_, hctl, htaken, ?_⟩
  · change s.dispatchNext i = some d
    simp [dispatchNext, hfl, hclr, hacc, hq]
  · have hnone : s.branchAllocate i = false := by
      simp [branchAllocate, ifIdOutClear, hclr]
    change misaligned (if s.branchAllocate i then _ else _)
    rw [hnone]
    exact hmis

theorem flushExMem_of_hardFlush (h : s.hardFlush i = false) :
    s.flushExMem i = false ∧ s.hardFlushRedirect i = false := by
  simp only [hardFlush, or_eq_false_iff] at h
  exact ⟨h.1.1.2, h.2⟩

theorem Lost.step (h : s.Lost) (hpipe : s.Pipe) (hhard : s.hardFlush i = false) :
    (s.step i).Lost := by
  obtain ⟨hfl, hredir⟩ := flushExMem_of_hardFlush hhard
  rcases h with htrap | harmed
  · exact .inl (htrap.step hfl)
  · cases hd : s.exFires i with
    | none => exact .inr (harmed.waits hpipe hd hhard)
    | some d => exact .inl (harmed.fires hd hredir)

/-- A control leaves decode for the address that it is predicted to go to. -/
theorem armed_of_predict (hpipe : s.Pipe) (hhard : s.hardFlush i = false)
    (hpredict : s.predictRedirect i) (hmis : misaligned i.predictionTargetI) :
    (s.step i).Armed := by
  obtain ⟨halloc, htaken⟩ := and_eq_true_iff.mp hpredict
  have hbranch := halloc
  simp only [branchAllocate, and_eq_true, ifIdIs] at hbranch
  obtain ⟨⟨hctl, -⟩, hclr⟩ := hbranch
  cases hf : s.ifId i with
  | none => rw [hf] at hctl; cases hctl
  | some f =>
    rw [hf] at hctl
    have hq := (Stage.out_eq_some.mp hf).2
    obtain ⟨hdecode, hstall⟩ := and_eq_true_iff.mp hclr
    have hfl : s.flushIdEx i = false :=
      hpipe.noFlush hhard (.inr (by rw [hq]; exact Option.some_ne_none f))
    have hdispatches : s.dispatches i = some f := by
      simp [dispatches, hdecode, hfl, hstall, hf]
    refine ⟨dispatchIn i f, ?_, hctl, htaken, ?_⟩
    · change s.dispatchNext i = _
      rw [dispatchNext, hfl, hdecode, hdispatches]
      rfl
    · change misaligned (if s.branchAllocate i then _ else _)
      rw [halloc]
      exact hmis

theorem nextPc_aligned {d : DispatchPacket} (h : instrMisaligned (p := p) i d = false) :
    misaligned (s.exNextPc i d) = false := by
  rw [instrMisaligned, or_eq_false_iff] at h
  rw [exNextPc]
  split_ifs with htaken
  · simp only [exTaken, and_eq_true] at htaken
    simpa [targetMisaligned, htaken.1.1.1, htaken.1.1.2] using h.2
  · rw [misaligned_add rfl]
    exact h.1

section Step

variable (h : s.Path) (hpipe : s.Pipe)
include h

/-- Every flush sends fetch to an aligned address. -/
theorem Path.vectorTarget (hhard : s.hardFlush i) : misaligned (s.vectorTarget i) = false := by
  rw [ScalarState.vectorTarget]
  split_ifs with hreset htrap hmret hsret hrst
  · exact p.reset_aligned
  · exact TrapRegs.misaligned_trapVector
  · exact h.returns.mepc
  · exact h.returns.sepc
  · have hsome : ∃ w, s.memWbQ = some w ∧ w.exception = false := by
      simp only [hardFlushRestart, or_eq_true] at hrst
      rcases hrst with (hr | hr) | hr
      · obtain ⟨-, w, hw, hf⟩ := retires_iff.mp hr
        simp only [isFenceI, isFence, arch, and_eq_true, not_eq_true'] at hf
        exact ⟨w, hw, hf.1.1⟩
      · obtain ⟨-, w, hw, hf⟩ := retires_iff.mp hr
        simp only [isTranslationFence, MemWbPacket.isSfenceVma,
          isSatpWrite, arch, and_eq_true, or_eq_true, not_eq_true'] at hf
        exact ⟨w, hw, hf.elim (fun hf => hf.1) fun hf => hf.1.1.2⟩
      · obtain ⟨-, w, hw, hf⟩ := retires_iff.mp hr
        simp only [isWfi, arch, and_eq_true, not_eq_true'] at hf
        exact ⟨w, hw, hf.1⟩
    obtain ⟨w, hw, hexc⟩ := hsome
    rw [wbPacket, hw]
    exact h.wbNextPc w hw hexc
  · have hredir : s.hardFlushRedirect i := by
      rw [or_eq_true, not_or] at htrap
      simpa [hardFlush, flushExMem, hreset, htrap.1, htrap.2, hmret, hsret, hrst] using hhard
    obtain ⟨d, hd, hgo⟩ := firesIs_iff.mp hredir
    rw [hd]
    refine nextPc_aligned ?_
    simp only [redirects, targetMispredicts, exTaken, or_eq_true, and_eq_true, not_eq_true'] at hgo
    rcases hgo with hgo | hgo
    · exact hgo.1.1.2
    · exact hgo.1.2.1.2

include hpipe

theorem Path.step_fetchPc (hmis : misaligned (s.step i).pcQ) : (s.step i).Lost := by
  change misaligned (s.pcNext i) at hmis
  cases hhard : s.hardFlush i with
  | true =>
    rw [pcNext, if_pos hhard, h.vectorTarget hhard] at hmis
    cases hmis
  | false =>
  cases hpredict : s.predictRedirect i with
  | true =>
    have htgt : misaligned i.predictionTargetI := by
      rw [pcNext, hhard, hpredict, if_low, if_pos rfl] at hmis
      split_ifs at hmis
      · rwa [misaligned_pcAfter] at hmis
      · exact hmis
    exact .inr (armed_of_predict hpipe hhard hpredict htgt)
  | false =>
    have hold : misaligned s.pcQ := by
      rw [pcNext, hhard, hpredict, if_low, if_low] at hmis
      split_ifs at hmis
      · rwa [misaligned_pcAfter] at hmis
      · exact hmis
    exact (h.fetchPc hold).step hpipe hhard

theorem Path.step_ifIdPc {f : FetchPacket} (hf : (s.step i).ifIdQ = some f)
    (hmis : misaligned f.pc) : (s.step i).Lost := by
  obtain ⟨hhard, hout | hold⟩ := ifId_cases hf
  · rw [fetchOut] at hout
    split_ifs at hout with hval
    obtain rfl := Option.some_inj.mp hout
    rcases FetchState.decodeO_pc s.fetch (s.fetchInput i) with hpc | ⟨hpc, hrep⟩
    · rw [hpc, misaligned_readPc] at hmis
      cases hmis
    rw [hpc, FetchState.replayPc] at hmis
    split_ifs at hmis with hredir
    · simp only [FetchState.redirectReplayValid, and_eq_true] at hredir
      have hfetch : s.redirectFetch i := hredir.1.1
      rw [redirectFetch, (flushExMem_of_hardFlush hhard).2, Bool.false_or] at hfetch
      exact .inr (armed_of_predict hpipe hhard hfetch hmis)
    · exact (h.fetchPc hmis).step hpipe hhard
  · exact (h.ifIdPc f hold hmis).step hpipe hhard

omit hpipe in
theorem Path.step_dispatchPc {d : DispatchPacket} (hd : (s.step i).dispatchQ = some d)
    (hmis : misaligned d.pc) : (s.step i).Trapping := by
  obtain ⟨hfl, ⟨f, hf, rfl⟩ | ⟨-, hq, -⟩⟩ := dispatch_cases hd
  · obtain ⟨hq, hhard, -, hcan, -⟩ := dispatches_eq_some hf
    obtain ⟨hfl', hredir⟩ := flushExMem_of_hardFlush hhard
    rcases h.ifIdPc f hq hmis with htrap | harmed
    · exact htrap.step hfl'
    obtain ⟨d', hq', -⟩ := id harmed
    have hacc : s.execAccept i := by
      simp only [canDispatch, hq', and_eq_true, or_eq_true, Option.isNone_some,
        Bool.false_eq_true, false_or] at hcan
      exact hcan.1.1
    rw [execAccept, hq'] at hacc
    exact harmed.fires (exFires_eq_some.mpr ⟨hq', hfl, (and_eq_true_iff.mp hacc).1⟩) hredir
  · exact (h.dispatchPc d hq hmis).step (flushExMem_of_flushIdEx hfl)

omit hpipe in
theorem Path.step_memPc {m : ExMemPacket} (hm : (s.step i).exMemQ = some m)
    (hmis : misaligned m.pc) : (s.step i).WbTrapping := by
  rcases mem_cases hm with ⟨d, hd, rfl⟩ | ⟨-, hmem, -⟩
  · exact (h.dispatchPc d (goes_of_fires hd).dispatched hmis).enters hd
  · obtain ⟨hfl, hq⟩ := mem_eq_some.mp hmem
    exact ((h.memPc _ hq hmis).step hfl).2

omit hpipe in
theorem Path.step_nop :
    (∀ f, (s.step i).ifIdQ = some f → f.fault ∨ f.pageFault → f.instr = instrNop) ∧
    (∀ d, (s.step i).dispatchQ = some d → d.fault ∨ d.pageFault → d.instr = instrNop) ∧
    ∀ m, (s.step i).exMemQ = some m → m.accessFault ∨ m.pageFault → m.instr = instrNop := by
  refine ⟨fun f hf hflt => ?_, fun d hd hflt => ?_, fun m hm hflt => ?_⟩
  · rcases (ifId_cases hf).2 with hout | hold
    · rw [fetchOut] at hout
      split_ifs at hout with hval
      obtain rfl := Option.some_inj.mp hout
      exact h.lines.decodeO hflt
    · exact h.ifIdNop f hold hflt
  · obtain ⟨-, ⟨f, hf, rfl⟩ | ⟨-, hq, -⟩⟩ := dispatch_cases hd
    · exact h.ifIdNop f (dispatches_eq_some hf).1 hflt
    · exact h.dispatchNop d hq hflt
  · rcases mem_cases hm with ⟨d, hd, rfl⟩ | ⟨-, hmem, -⟩
    · exact h.dispatchNop d (goes_of_fires hd).dispatched hflt
    · exact h.memNop _ (mem_eq_some.mp hmem).2 hflt

omit hpipe in
theorem Path.step_next :
    (∀ m, (s.step i).exMemQ = some m → m.instrMisaligned = false → misaligned m.nextPc = false) ∧
    (∀ w, (s.step i).memWbQ = some w → w.exception = false → misaligned w.nextPc = false) ∧
    ∀ m, (s.step i).exMemQ = some m → m.instrMisaligned → misaligned m.pc ∨ (m.op p).control := by
  refine ⟨fun m hm hfine => ?_, fun w hw hfine => ?_, fun m hm hmis => ?_⟩
  · rcases mem_cases hm with ⟨d, -, rfl⟩ | ⟨-, hmem, -⟩
    · exact nextPc_aligned hfine
    · exact h.memNextPc _ (mem_eq_some.mp hmem).2 hfine
  · rcases wb_cases hw with ⟨m, -, hmem, -, rfl⟩ | ⟨-, -, hq⟩
    · refine h.memNextPc m (mem_eq_some.mp hmem).2 ?_
      by_contra hmis
      have htrapped := (@trapped_of_doomed _ s i m (.inl (by simpa using hmis))).1
      rw [hfine] at htrapped
      cases htrapped
    · exact h.wbNextPc _ hq hfine
  · rcases mem_cases hm with ⟨d, -, rfl⟩ | ⟨-, hmem, -⟩
    · have hor : (misaligned d.pc || targetMisaligned (p := p) i d) := hmis
      rcases Bool.or_eq_true_iff.mp hor with hpc | htgt
      · exact .inl hpc
      · simp only [targetMisaligned, and_eq_true] at htgt
        exact .inr htgt.1.1
    · exact h.memControl _ (mem_eq_some.mp hmem).2 hmis

theorem Path.step : (s.step i).Path where
  lines := h.lines.step
  ifIdNop := h.step_nop.1
  dispatchNop := h.step_nop.2.1
  memNop := h.step_nop.2.2
  returns := CsrState.returnsAligned_step h.returns
  memNextPc := h.step_next.1
  wbNextPc := h.step_next.2.1
  memControl := h.step_next.2.2
  fetchPc := h.step_fetchPc hpipe
  ifIdPc _ hf hmis := h.step_ifIdPc hpipe hf hmis
  dispatchPc _ hd hmis := h.step_dispatchPc hd hmis
  memPc _ hm hmis := h.step_memPc hm hmis

/-- An instruction that MEM works on was fetched, and from an aligned address. -/
theorem Path.mem_sound {m : ExMemPacket} (hm : s.mem i = some m) {op : LsuOp}
    (hop : (m.op p).lsu = some op) :
    m.instrMisaligned = false ∧ m.accessFault = false ∧ m.pageFault = false := by
  obtain ⟨hfl, hq⟩ := mem_eq_some.mp hm
  have hfetched : ¬(m.accessFault ∨ m.pageFault) := by
    intro hflt
    have hnop : (m.op p).lsu = none := by
      rw [ExMemPacket.op, h.memNop m hq hflt]
      exact decodeTop_nop_lsu
    rw [hop] at hnop
    cases hnop
  rw [not_or, Bool.not_eq_true, Bool.not_eq_true] at hfetched
  refine ⟨?_, hfetched⟩
  by_contra hmis
  rcases h.memControl m hq (by simpa using hmis) with hpc | hctl
  · have hwb := h.memPc m hq hpc
    have hbsy := (hwb.step hfl).1
    obtain ⟨w, hw, -, -⟩ := hwb
    rcases hpipe.busy hbsy with ⟨m', hm', hcsr⟩ | ⟨w', hw', hcsr⟩
    · have hnone := (hpipe.memSolo m' hm' (Bool.or_eq_true_iff.mpr (.inr hcsr))).1
      rw [hw] at hnone
      cases hnone
    · have hnone := (hpipe.wbSolo w' hw' (Bool.or_eq_true_iff.mpr (.inr hcsr))).1
      rw [hq] at hnone
      cases hnone
  · have hbr := (decodeTop_lsu hop).2.1
    have hctl' : (m.op p).br.isSome := hctl
    rw [ExMemPacket.op, hbr] at hctl'
    cases hctl'

end Step

end ScalarState

end OpenRV64
