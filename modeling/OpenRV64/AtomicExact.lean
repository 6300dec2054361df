/-
The coherent AMO: in every run in which no write is refused and faulted at once, what it writes
is computed from a read that no write has come after.
-/
import OpenRV64.AtomicUnit

namespace OpenRV64

open AmoState AtomicState AmoPhase
open AtomicHistory (amoWdata amoReturn)

namespace AtomicState

variable {p : AtomicParams} {s : AtomicState} {i : AtomicInput}

/-! ### Lanes -/

theorem extract_zeroExtend (x : BitVec 32) : (x.zeroExtend 64).extractLsb' 0 32 = x := by
  ext k hk
  have hlt : k < 64 := by omega
  simp [hlt, BitVec.getLsbD_eq_getElem hk]

/-- A word access sees the word that its address selects. -/
theorem readValue_lane (hwrd : s.wordAccessQ) :
    (s.readValue i.toAmoInput).extractLsb' 0 32 = wordLane s.addrQ i.memRdataI := by
  rw [readValue, hwrd, if_pos rfl, extract_zeroExtend, readShift, hwrd, wordLane, Bool.true_and]
  cases s.addrQ.getLsbD 2
  · rw [if_low, if_low, BitVec.ushiftRight_zero]
  · rw [if_pos rfl, if_pos rfl]
    ext k hk
    simp

theorem memWdataO_word (hwrd : s.wordAccessQ) :
    s.memWdataO = if s.addrQ.getLsbD 2 then s.writeDataQ.extractLsb' 0 32 ++ 0#32
      else 0#32 ++ s.writeDataQ.extractLsb' 0 32 := by
  rw [memWdataO, hwrd, if_pos rfl, readShift, hwrd, Bool.true_and]
  cases s.addrQ.getLsbD 2
  · rw [if_low, if_low, BitVec.shiftLeft_zero]
    ext k hk
    simp
    grind
  · rw [if_pos rfl, if_pos rfl]
    ext k hk
    simp
    grind

/-! ### The unit of the one-wide core -/

/-! ### A new operation -/

theorem start_captured : (s.start i).opQ = some i.opSelI ∧ (s.start i).sizeQ = i.sizeSelI ∧
    (s.start i).addrQ = i.addrI ∧ (s.start i).operandQ = i.storeDataI := by
  rw [start]
  split_ifs <;> exact ⟨rfl, rfl, rfl, rfl⟩

theorem start_faultless (h : (s.start i).stateQ ≠ .done) :
    (s.start i).accessFaultQ = false ∧ (s.start i).pageFaultQ = false := by
  rw [start] at h ⊢
  split_ifs at h ⊢ <;> simp_all

theorem start_write (h : (s.start i).stateQ = .write) : i.opSelI = .sc := by
  rw [start] at h
  split_ifs at h
  all_goals simp_all

/-- An operation that is done without an answer is an SC, or something is wrong with it. -/
theorem start_done (h : (s.start i).stateQ = .done) : i.opSelI = .sc ∨
    (s.start i).illegalQ ∨ (s.start i).misalignedQ ∨ (s.start i).accessFaultQ := by
  rw [start] at h ⊢
  split_ifs at h ⊢ <;> simp_all

end AtomicState

namespace AtomicTracked

variable {p : AtomicParams} {t : AtomicTracked p} {i : AtomicInput}

/-! ### The invariant -/

/-- What the unit has captured of its instruction. -/
structure Captured (t : AtomicTracked p) : Prop where
  op : t.unit.opQ = some t.hist.op
  size : t.unit.sizeQ = t.hist.size
  addr : t.unit.addrQ = t.hist.addr
  operand : t.unit.operandQ = t.hist.operand

/-- Nothing has gone wrong so far. -/
structure Faultless (t : AtomicTracked p) : Prop where
  access : t.unit.accessFaultQ = false
  page : t.unit.pageFaultQ = false
  writeAccess : t.hist.writeAccessFault = false
  writePage : t.hist.writePageFault = false

/-- The unit holds what the AMO writes and returns when it has read `rdata`. -/
structure Computed (t : AtomicTracked p) (rdata : BitVec 64) : Prop where
  last : t.hist.lastRead = some rdata
  fresh : t.hist.freshRead = some rdata
  wdata : t.unit.memWdataO = t.hist.amoWdata rdata
  result : t.unit.resultQ = t.hist.amoReturn rdata

structure Inv (t : AtomicTracked p) : Prop where
  captured : t.unit.stateQ ≠ .idle → t.Captured
  read : t.unit.stateQ = .read → t.Faultless
  write : t.unit.stateQ = .write → t.Faultless
  computed : t.unit.stateQ = .write → t.hist.op.isAmo = true → ∃ rdata, t.Computed rdata
  ends : t.unit.stateQ = .done → t.hist.op.isAmo = true →
    (t.hist.writeAccessFault || t.hist.writePageFault) = true →
    t.unit.accessFaultQ = t.hist.writeAccessFault ∧ t.unit.pageFaultQ = t.hist.writePageFault
  returns : t.unit.stateQ = .done → t.hist.op.isAmo = true → t.unit.illegalQ = false →
    t.unit.misalignedQ = false → t.unit.accessFaultQ = false → t.unit.pageFaultQ = false →
    ∃ rdata, t.hist.lastRead = some rdata ∧ t.unit.resultQ = t.hist.amoReturn rdata

theorem inv_of_idle (h : t.unit.stateQ = .idle) : t.Inv where
  captured := fun hne => absurd h hne
  read := fun hs => by rw [h] at hs; cases hs
  write := fun hs => by rw [h] at hs; cases hs
  computed := fun hs => by rw [h] at hs; cases hs
  ends := fun hs => by rw [h] at hs; cases hs
  returns := fun hs => by rw [h] at hs; cases hs

theorem inv_of_done (hs : t.unit.stateQ = .done) (hcaptured : t.Captured)
    (hends : t.hist.op.isAmo → (t.hist.writeAccessFault || t.hist.writePageFault) →
      t.unit.accessFaultQ = t.hist.writeAccessFault ∧ t.unit.pageFaultQ = t.hist.writePageFault)
    (hreturns : t.hist.op.isAmo → t.unit.accessFaultQ = false → t.unit.pageFaultQ = false →
      ∃ rdata, t.hist.lastRead = some rdata ∧ t.unit.resultQ = t.hist.amoReturn rdata) : t.Inv where
  captured := fun _ => hcaptured
  read := fun hr => by rw [hs] at hr; cases hr
  write := fun hw => by rw [hs] at hw; cases hw
  computed := fun hw => by rw [hs] at hw; cases hw
  ends := fun _ => hends
  returns := fun _ hamo _ _ => hreturns hamo

theorem computed_of_read (hcaptured : t.Captured) (hlast : t.hist.lastRead = some i.memRdataI)
    (hfresh : t.hist.freshRead = some i.memRdataI)
    (hwr : t.unit.writeDataQ = t.unit.amoValue i.toAmoInput t.hist.op)
    (hres : t.unit.resultQ = t.unit.readResult i.toAmoInput) : t.Computed i.memRdataI := by
  obtain ⟨-, hsize, haddr, hoperand⟩ := hcaptured
  cases hwrd : t.unit.wordAccessQ with
  | true =>
    have hsize' : (t.hist.size == lsuSizeWord) := by
      rw [← hsize]
      exact hwrd
    have hlane := readValue_lane (i := i) hwrd
    refine ⟨hlast, hfresh, ?_, ?_⟩
    · simp only [memWdataO_word hwrd, amoWdata, hsize', if_true,
        hwr, amoValue, hwrd, extract_zeroExtend, hlane, haddr, hoperand]
    · simp only [amoReturn, hsize', if_true, hres, readResult, hwrd, hlane, haddr]
  | false =>
    have hsize' : (t.hist.size == lsuSizeWord) = false := by
      rw [← hsize]
      exact hwrd
    have hvalue : t.unit.readValue i.toAmoInput = i.memRdataI := by
      rw [readValue, hwrd, if_low]
    refine ⟨hlast, hfresh, ?_, ?_⟩
    · simp only [memWdataO, amoWdata, hsize', hwr, amoValue, hwrd, hvalue, hoperand, if_low]
    · simp only [amoReturn, hsize', hres, readResult, hwrd, hvalue, if_low]

/-! ### One cycle -/

section Step

/-- A new instruction reads, or writes an SC, or is done at once. -/
theorem inv_start (h : t.starts i) : (t.step i).Inv := by
  simp only [starts, Bool.and_eq_true, Bool.not_eq_true'] at h
  obtain ⟨⟨hfl, hidle⟩, hval⟩ := h
  have hst : t.unit.stateQ = .idle := by simpa using hidle
  have hstarts : t.starts i := by simp [starts, hfl, hst, hval]
  have hunit : (t.step i).unit = t.unit.start i := by
    simp [step, AtomicState.step, hfl, hst, hval]
  have hhist : (t.step i).hist =
      ⟨i.opSelI, i.sizeSelI, i.addrI, i.storeDataI, none, none, false, false⟩ := by
    simp [step, hstarts]
  have hamo : i.opSelI = .sc → i.opSelI.isAmo = false := fun hsc => by rw [hsc]; rfl
  obtain ⟨hop, hsize, haddr, hoperand⟩ := start_captured (s := t.unit) (i := i)
  have hfaultless : (t.step i).unit.stateQ ≠ .done → (t.step i).Faultless := by
    intro hne
    rw [hunit] at hne
    obtain ⟨hacs, hpage⟩ := start_faultless hne
    exact ⟨by rw [hunit, hacs], by rw [hunit, hpage], by rw [hhist], by rw [hhist]⟩
  refine ⟨fun _ => ⟨?_, ?_, ?_, ?_⟩, fun hs => ?_, fun hs => ?_, fun hs hop' => ?_,
    fun _ _ hflt => ?_, fun hs hop' hillegal hmisaligned hacs _ => ?_⟩
  · rw [hunit, hhist, hop]
  · rw [hunit, hhist, hsize]
  · rw [hunit, hhist, haddr]
  · rw [hunit, hhist, hoperand]
  · exact hfaultless (by rw [hs]; exact noConfusion)
  · exact hfaultless (by rw [hs]; exact noConfusion)
  · rw [hhist] at hop'
    rw [hunit] at hs
    rw [hamo (start_write hs)] at hop'
    cases hop'
  · rw [hhist] at hflt
    cases hflt
  · rw [hhist] at hop'
    rw [hunit] at hs hillegal hmisaligned hacs
    rcases start_done hs with hsc | hwrong | hwrong | hwrong
    · rw [hamo hsc] at hop'
      cases hop'
    · rw [hwrong] at hillegal
      cases hillegal
    · rw [hwrong] at hmisaligned
      cases hmisaligned
    · rw [hwrong] at hacs
      cases hacs

/-- An answer to the read either ends the operation or starts the write. -/
theorem inv_read (h : t.Inv) (hread : t.readAnswered i) : (t.step i).Inv := by
  have hgo := hread
  simp only [readAnswered, Bool.and_eq_true, Bool.not_eq_true', beq_eq_decide,
    decide_eq_true_eq] at hgo
  obtain ⟨⟨hfl, hst⟩, hrdy⟩ := hgo
  have hne : t.unit.stateQ ≠ .idle := by rw [hst]; exact noConfusion
  obtain ⟨hop, hsize, haddr, hoperand⟩ := h.captured hne
  obtain ⟨hacs, hpage, hwriteAccess, hwritePage⟩ := h.read hst
  have hstarts : t.starts i = false := by simp [starts, hst]
  have hwrs : t.writeAnswered i = false := by simp [writeAnswered, hst]
  have hunit : (t.step i).unit = AtomicState.readDone
      { t.unit with reservationValidQ := t.unit.reservationValidQ && !i.clearReservationI } i := by
    simp [step, AtomicState.step, hfl, hst, hrdy]
  have hhist : (t.step i).hist = if !i.memErrorI && !i.memPageFaultI then
      { t.hist with lastRead := some i.memRdataI, freshRead := some i.memRdataI }
      else t.hist := by
    simp [step, hstarts, hread, hwrs]
  cases herr : i.memErrorI with
  | true =>
    rw [herr, Bool.not_true, Bool.false_and, if_low] at hhist
    rw [AtomicState.readDone, herr, if_pos rfl] at hunit
    refine inv_of_done (by rw [hunit]) ⟨by rw [hunit, hhist, hop], by rw [hunit, hhist, hsize],
      by rw [hunit, hhist, haddr], by rw [hunit, hhist, hoperand]⟩ (fun _ hwrong => ?_)
      fun _ hnone => ?_
    · rw [hhist, hwriteAccess, hwritePage] at hwrong
      cases hwrong
    · rw [hunit] at hnone
      cases hnone
  | false =>
  cases hflt : i.memPageFaultI with
  | true =>
    rw [hflt, Bool.not_true, Bool.and_false, if_low] at hhist
    rw [AtomicState.readDone, herr, if_low, hflt, if_pos rfl] at hunit
    refine inv_of_done (by rw [hunit]) ⟨by rw [hunit, hhist, hop], by rw [hunit, hhist, hsize],
      by rw [hunit, hhist, haddr], by rw [hunit, hhist, hoperand]⟩ (fun _ hwrong => ?_)
      fun _ _ hnone => ?_
    · rw [hhist, hwriteAccess, hwritePage] at hwrong
      cases hwrong
    · rw [hunit] at hnone
      cases hnone
  | false =>
    rw [herr, hflt, Bool.not_false, Bool.and_self, if_pos rfl] at hhist
    rw [AtomicState.readDone, herr, hflt, if_low, if_low] at hunit
    cases hlr : (t.unit.opQ == some .lr) with
    | true =>
      rw [hlr, if_pos rfl] at hunit
      have hkind : t.hist.op.isAmo = false := by
        have hsame := hop.symm.trans (eq_of_beq hlr)
        rw [Option.some_inj.mp hsame]
        rfl
      refine inv_of_done (by rw [hunit]) ⟨by rw [hunit, hhist, hop],
        by rw [hunit, hhist, hsize], by rw [hunit, hhist, haddr],
        by rw [hunit, hhist, hoperand]⟩ (fun hamo => ?_) fun hamo => ?_ <;>
      · rw [hhist, hkind] at hamo
        cases hamo
    | false =>
      rw [hlr, if_low] at hunit
      have hcaptured : (t.step i).Captured := ⟨by rw [hunit, hhist, hop],
        by rw [hunit, hhist, hsize], by rw [hunit, hhist, haddr],
        by rw [hunit, hhist, hoperand]⟩
      have hfaultless : (t.step i).Faultless := ⟨by rw [hunit, hacs], by rw [hunit, hpage],
        by rw [hhist, hwriteAccess], by rw [hhist, hwritePage]⟩
      have hst' : (t.step i).unit.stateQ = .write := by rw [hunit]
      refine ⟨fun _ => hcaptured, fun _ => hfaultless, fun _ => hfaultless, fun _ _ => ?_,
        fun hdone => ?_, fun hdone => ?_⟩
      · refine ⟨i.memRdataI, computed_of_read hcaptured (by rw [hhist]) (by rw [hhist]) ?_ ?_⟩
        · rw [hunit, hhist, hop]
          rfl
        · rw [hunit]
          rfl
      · rw [hst'] at hdone
        cases hdone
      · rw [hst'] at hdone
        cases hdone

/-- An answer to the write ends the operation, or the home has refused it and it reads again. -/
theorem inv_write (h : t.Inv) (hwr : t.writeAnswered i)
    (hclr : t.faultsRefused i = false) : (t.step i).Inv := by
  have hgo := hwr
  simp only [writeAnswered, Bool.and_eq_true, Bool.not_eq_true', beq_eq_decide,
    decide_eq_true_eq] at hgo
  obtain ⟨⟨hfl, hst⟩, hrdy⟩ := hgo
  have hne : t.unit.stateQ ≠ .idle := by rw [hst]; exact noConfusion
  obtain ⟨hop, hsize, haddr, hoperand⟩ := h.captured hne
  obtain ⟨hacs, hpage, hwriteAccess, hwritePage⟩ := h.write hst
  have hstarts : t.starts i = false := by simp [starts, hst]
  have hreads : t.readAnswered i = false := by simp [readAnswered, hst]
  have hunit : (t.step i).unit = AtomicState.writeDone p
      { t.unit with reservationValidQ := t.unit.reservationValidQ && !i.clearReservationI } i := by
    simp [step, AtomicState.step, hfl, hst, hrdy]
  have hhist : (t.step i).hist =
      { t.hist with
        freshRead := none
        writeAccessFault := i.memErrorI
        writePageFault := !i.memErrorI && i.memPageFaultI } := by
    simp [step, hstarts, hreads, hwr, hwriteAccess, hwritePage]
  have href : refused p
      { t.unit with reservationValidQ := t.unit.reservationValidQ && !i.clearReservationI } i =
        t.unit.refused p i := rfl
  rw [AtomicState.writeDone, href] at hunit
  cases hgone : t.unit.refused p i with
  | true =>
    have hok : i.memErrorI = false ∧ i.memPageFaultI = false := by
      rw [faultsRefused, hwr, hgone, Bool.true_and, Bool.and_true] at hclr
      exact Bool.or_eq_false_iff.mp hclr
    rw [hok.1, hok.2] at hhist hunit
    rw [hgone] at hunit
    have hcaptured : (t.step i).Captured := ⟨by rw [hunit, hhist]; exact hop,
      by rw [hunit, hhist]; exact hsize, by rw [hunit, hhist]; exact haddr,
      by rw [hunit, hhist]; exact hoperand⟩
    have hst' : (t.step i).unit.stateQ = .read := by rw [hunit]; rfl
    have hfaultless : (t.step i).Faultless := ⟨by rw [hunit]; exact hacs,
      by rw [hunit]; exact hpage, by rw [hhist], by rw [hhist]; rfl⟩
    refine ⟨fun _ => hcaptured, fun _ => hfaultless, fun _ => hfaultless, fun hw => ?_,
      fun hdone => ?_, fun hdone => ?_⟩
    · rw [hst'] at hw
      cases hw
    · rw [hst'] at hdone
      cases hdone
    · rw [hst'] at hdone
      cases hdone
  | false =>
    rw [hgone, Bool.not_false, if_pos rfl] at hunit
    have hacs' : (t.step i).unit.accessFaultQ = i.memErrorI := by
      rw [hunit]
      split_ifs with herr hflt hsc
      · exact herr.symm
      all_goals
        have hnot : i.memErrorI = false := by simpa using herr
        exact hacs.trans hnot.symm
    have hpage' : (t.step i).unit.pageFaultQ = (!i.memErrorI && i.memPageFaultI) := by
      rw [hunit]
      split_ifs with herr hflt hsc
      · rw [herr]
        exact hpage
      · rw [Bool.not_eq_true] at herr
        rw [herr, hflt]
        rfl
      all_goals
        rw [Bool.not_eq_true] at hflt
        rw [hflt, Bool.and_false]
        exact hpage
    refine inv_of_done (by rw [hunit]) ⟨?_, ?_, ?_, ?_⟩ (fun _ _ => ?_)
      fun hamo hnoAccess hnoPage => ?_
    · rw [hunit, hhist]
      split_ifs <;> exact hop
    · rw [hunit, hhist]
      split_ifs <;> exact hsize
    · rw [hunit, hhist]
      split_ifs <;> exact haddr
    · rw [hunit, hhist]
      split_ifs <;> exact hoperand
    · rw [hacs', hpage', hhist]
      exact ⟨rfl, rfl⟩
    · rw [hhist] at hamo
      obtain ⟨rdata, hcomputed⟩ := h.computed hst hamo
      refine ⟨rdata, by rw [hhist]; exact hcomputed.last, ?_⟩
      have hres : (t.step i).unit.resultQ = t.unit.resultQ := by
        rw [hacs'] at hnoAccess
        rw [hpage', hnoAccess, Bool.not_false, Bool.true_and] at hnoPage
        have hnotSc : (t.unit.opQ == some .sc) = false := by
          rw [hop]
          refine beq_eq_false_iff_ne.mpr fun hsc => ?_
          rw [Option.some_inj.mp hsc] at hamo
          cases hamo
        rw [hunit, hnoAccess, hnoPage, hnotSc]
        rfl
      rw [hres, hhist]
      exact hcomputed.result

theorem Inv.congr (h : t.Inv) (b : Bool) :
    Inv (p := p) ⟨{ t.unit with reservationValidQ := b }, t.hist⟩ where
  captured := fun hne => ⟨(h.captured hne).op, (h.captured hne).size, (h.captured hne).addr,
    (h.captured hne).operand⟩
  read := fun hs => ⟨(h.read hs).access, (h.read hs).page, (h.read hs).writeAccess,
    (h.read hs).writePage⟩
  write := fun hs => ⟨(h.write hs).access, (h.write hs).page, (h.write hs).writeAccess,
    (h.write hs).writePage⟩
  computed := fun hs hamo =>
    let ⟨rdata, hc⟩ := h.computed hs hamo
    ⟨rdata, hc.last, hc.fresh, hc.wdata, hc.result⟩
  ends := h.ends
  returns := h.returns

theorem inv_wait (h : t.Inv) (hstart : t.starts i = false) (hread : t.readAnswered i = false)
    (hwr : t.writeAnswered i = false) : (t.step i).Inv := by
  have hhist : (t.step i).hist = t.hist := by simp [step, hstart, hread, hwr]
  have hheld : ∀ b, (t.step i).unit = { t.unit with reservationValidQ := b } → (t.step i).Inv := by
    intro b hunit
    have hsame : t.step i = ⟨{ t.unit with reservationValidQ := b }, t.hist⟩ := by
      rw [← hunit, ← hhist]
    rw [hsame]
    exact h.congr b
  cases hfl : i.flushI with
  | true => exact inv_of_idle (by simp [step, AtomicState.step, hfl])
  | false =>
  cases hst : t.unit.stateQ with
  | idle =>
    have hval : i.validI = false := by simpa [starts, hfl, hst] using hstart
    exact inv_of_idle (by simp [step, AtomicState.step, hfl, hst, hval])
  | read =>
    have hrdy : i.memReadyI = false := by simpa [readAnswered, hfl, hst] using hread
    exact hheld _ (by simp [step, AtomicState.step, hfl, hst, hrdy]; rfl)
  | write =>
    have hrdy : i.memReadyI = false := by simpa [writeAnswered, hfl, hst] using hwr
    exact hheld _ (by simp [step, AtomicState.step, hfl, hst, hrdy]; rfl)
  | done =>
    cases hgone : i.consumeI || !i.validI with
    | true => exact inv_of_idle (by simp [step, AtomicState.step, hfl, hst, hgone])
    | false => exact hheld _ (by simp [step, AtomicState.step, hfl, hst, hgone]; rfl)

theorem Inv.step (h : t.Inv) (hclr : t.faultsRefused i = false) : (t.step i).Inv := by
  cases hstart : t.starts i with
  | true => exact inv_start hstart
  | false =>
  cases hread : t.readAnswered i with
  | true => exact inv_read h hread
  | false =>
  cases hwr : t.writeAnswered i with
  | true => exact inv_write h hwr hclr
  | false => exact inv_wait h hstart hread hwr

end Step

/-! ### Every run -/

theorem Inv.amoRight (h : t.Inv) : t.AmoRight where
  fresh := by
    intro i hwr hamo
    simp only [AtomicState.memWriteO, AmoState.memWriteO, Bool.and_eq_true,
      beq_eq_decide, decide_eq_true_eq] at hwr
    obtain ⟨rdata, hcomputed⟩ := h.computed hwr.2 hamo
    have hcaptured := h.captured (by rw [hwr.2]; exact noConfusion)
    refine ⟨rdata, hcomputed.fresh, hcaptured.addr, hcomputed.wdata, ?_⟩
    rw [memWstrbO, hwr.2, wordAccessQ, hcaptured.size, hcaptured.addr]
    rfl
  ends := by
    intro hne hamo hwrong
    cases hst : t.unit.stateQ with
    | idle => exact absurd hst hne
    | read =>
      rw [(h.read hst).writeAccess, (h.read hst).writePage] at hwrong
      cases hwrong
    | write =>
      rw [(h.write hst).writeAccess, (h.write hst).writePage] at hwrong
      cases hwrong
    | done =>
      refine ⟨fun i => ⟨?_, fun hval => ?_⟩, h.ends hst hamo hwrong⟩
      · simp [AtomicState.memValidO, AmoState.memValidO, hst]
      · simp [AtomicState.completeO, AmoState.completeO, hst, hval]
  returns := by
    intro i hcomp hamo
    simp only [AtomicState.completeO, AmoState.completeO, Bool.and_eq_true,
      beq_eq_decide, decide_eq_true_eq] at hcomp
    exact h.returns hcomp.2 hamo

/-- While no write is answered with a fault and a refusal at once, every AMO is right. -/
theorem amo_right {past : Sync.Past (AtomicTracked p) AtomicInput}
    (hrun : Sync.Run (atomicUnit p)
      (Sync.cycleEnv fun t i => t.faultsRefused i = false) past t) : t.AmoRight := by
  refine Inv.amoRight (hrun.stateInvariant ?_ ?_)
  · intro t hinit
    have hreset : t.unit = .reset := hinit
    exact inv_of_idle (by rw [hreset]; rfl)
  · exact fun _ _ _ henv h => Inv.step h henv

/-! ### A fault that the home has refused -/

section RefusedFault

/-- A doubleword AMOADD of 5 at 0x1000, or the memory's answer to it. -/
def amoaddCycle (ready error : Bool) (rdata : BitVec 64) : AtomicInput where
  flushI := false
  validI := true
  consumeI := false
  clearReservationI := false
  opSelI := .amoadd
  sizeSelI := lsuSizeDword
  addrI := 0x1000
  storeDataI := 5
  memReadyI := ready
  memErrorI := error
  memPageFaultI := false
  memRdataI := rdata
  memAccessAllowedI := true

def amoaddStart : AtomicTracked coherentAtomic :=
  ⟨.reset, ⟨.amoadd, 0, 0, 0, none, none, false, false⟩⟩

/-- The read gives 7, the home refuses the write once, and then the read gives 9. -/
def refusedOnce : List AtomicInput :=
  [amoaddCycle false false 0, amoaddCycle true false 7, amoaddCycle true false 1,
    amoaddCycle true false 9]

def afterRefusal : AtomicTracked coherentAtomic :=
  (Sync.exec (atomicUnit coherentAtomic) [] amoaddStart refusedOnce).2

/-- The second write is computed from the second read. -/
theorem amo_right_refused :
    afterRefusal.AmoRight ∧ afterRefusal.hist.freshRead = some 9 ∧
      afterRefusal.unit.memWdataO = 14 :=
  ⟨amo_right (Sync.exec_run_decide refusedOnce rfl (by decide)), by decide, by decide⟩

/-- The write is answered with an access fault, and bit zero of the read data is set. -/
def refusedFault : List AtomicInput :=
  [amoaddCycle false false 0, amoaddCycle true false 7, amoaddCycle true true 1]

/-- The unit presents its stale write again. -/
theorem amo_right_fails :
    ¬ ∀ (past : Sync.Past (AtomicTracked coherentAtomic) AtomicInput)
      (t : AtomicTracked coherentAtomic),
      Sync.Run (atomicUnit coherentAtomic) Sync.anyEnv past t → t.AmoRight := by
  intro hall
  have hright := hall _ _ (Sync.exec_run refusedFault (.reset (s := amoaddStart) rfl))
  obtain ⟨rdata, hfresh, -⟩ := hright.fresh (amoaddCycle false false 0) (by decide) (by decide)
  have hnone : (Sync.exec (atomicUnit coherentAtomic) [] amoaddStart
      refusedFault).2.hist.freshRead = none := by decide
  rw [hnone] at hfresh
  cases hfresh

end RefusedFault

end AtomicTracked

end OpenRV64
