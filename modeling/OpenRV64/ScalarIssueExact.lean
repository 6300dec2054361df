/-
Issue in the one-wide core is right in every run in which no reservation is forwarded and no
control that writes a register redirects fetch: the ledger, the operands, and what happens
otherwise.
-/
import OpenRV64.BusAttribution
import OpenRV64.CsrPrivilege
import OpenRV64.ScalarReserve

namespace OpenRV64

open IssueHistory IssueState IssueTracked ScalarState
open Bool (and_eq_true not_eq_true')
open Option (filter_eq_some_iff map_eq_some_iff getD_some mem_unique filter_some map_some getD_none)
open List (count_cons count_pos_iff count_eq_zero mem_cons_self replicate mem_map)
open MemWbPacket (instr halt)

namespace IssueTracked

variable {p : IssueParams} {t : IssueTracked p} {i : IssueInput} {r : BitVec 5}

/-! ### What MEM offers to EX -/

/-- An instruction in MEM whose value EX takes over as soon as it is there. -/
structure Offers (p : IssueParams) (m : ExMemPacket) : Prop where
  forwarding : p.enableForwarding = true
  notAtomic : m.isAtomic = false
  noWrite : m.memWrite p.core = false
  loads : (p.enableLoadForwarding || !m.memRead p.core) = true

/-- Whatever MEM still has to give to an instruction in dispatch, it offers. -/
def Fed (t : IssueTracked p) : Prop :=
  ∀ d m r, t.machine.core.dispatchQ = some d → t.machine.core.exMemQ = some m →
    (p.use d.instr).reads r = true → (p.use m.instr).writes r = true → Offers p m

theorem forwardEx_eq_some (h : t.machine.forwardEx i = some r) :
    ∃ d, t.machine.core.exFires (t.input i) = some d ∧ (p.use d.instr).rd = r ∧
      p.enableForwarding ∧ (p.use d.instr).regWrite ∧ (d.op p.core).memWrite = false ∧
      (p.enableLoadForwarding || !(d.op p.core).memRead) := by
  obtain ⟨d, hd, hrd⟩ := map_eq_some_iff.mp h
  obtain ⟨hfires, hval⟩ := filter_eq_some_iff.mp hd
  simp only [and_eq_true, not_eq_true'] at hval
  exact ⟨d, hfires, hrd, hval.1.1.1.1, hval.1.1.1.2, hval.1.1.2, hval.1.2⟩

theorem offers_of_bypass {m : ExMemPacket} (h : t.machine.memBypassValid i m) :
    Offers p m ∧ (p.use m.instr).regWrite := by
  simp only [memBypassValid, memForwardValid, and_eq_true, not_eq_true'] at h
  exact ⟨⟨h.1.1.1.1.1.1, h.1.1.1.1.1.2, h.1.1.1.2, h.2⟩, h.1.1.1.1.2⟩

theorem forwardMem_eq_some (h : t.machine.forwardMem i = some r) :
    ∃ m, t.machine.core.exMemQ = some m ∧ (p.use m.instr).rd = r ∧
      (p.use m.instr).regWrite ∧ Offers p m := by
  obtain ⟨m, hm, hrd⟩ := map_eq_some_iff.mp h
  obtain ⟨hmem, hval⟩ := filter_eq_some_iff.mp hm
  obtain ⟨hoffers, hwr⟩ := offers_of_bypass hval
  exact ⟨m, (mem_eq_some.mp hmem).2, hrd, hwr, hoffers⟩

/-- What the register map has seen of each source of an instruction that enters dispatch. -/
theorem source_of_dispatches (hcounted : t.Counted) {f : FetchPacket}
    (hf : t.machine.core.dispatches (t.input i) = some f)
    (hreads : (p.use f.instr).reads r) :
    t.outstanding r = stageWriters p instr r t.machine.core.retiring ∨
      p.enableForwarding ∧ t.outstanding r = stageWriters p instr r t.machine.core.retiring + 1 ∧
        (t.machine.forwardEx i = some r ∨ t.machine.forwardMem i = some r) := by
  have hr : r ≠ 0 := by
    simp only [RegUse.reads, and_eq_true, bne_iff_ne] at hreads
    exact hreads.1
  obtain ⟨-, -, hfl, hcan, -, -, -⟩ := dispatches_eq_some hf
  have halloc : t.machine.regMap.canAllocateO p.enableForwarding (t.machine.mapPort i) :=
    (Bool.and_eq_true_iff.mp hcan).2
  have hrollback : (t.machine.mapPort i).rollbackI = none := by
    have hfl' : t.machine.core.flushIdEx i.pins = false := hfl
    change (if t.machine.core.flushIdEx i.pins then _ else none) = none
    rw [hfl']
    rfl
  have hretire : RegMapState.writers (t.machine.mapPort i).retireI r =
      stageWriters p instr r t.machine.core.retiring :=
    writers_retire (i := i)
  have hle := retiring_le (s := t.machine) (r := r)
  have htotal := outstanding_eq (t := t) (r := r)
  have hcnt := hcounted r hr
  have hafter := RegMapState.writeAfterReleases_eq (i := t.machine.mapPort i) hr hrollback
    (by omega : _ ≤ t.machine.regMap.writeCountQ r)
  have hsrc := RegMapState.source_of_canAllocate halloc (allocI_of_dispatches hf) hreads
  rcases hsrc with hnone | ⟨hen, hone, hfwd⟩
  · left
    omega
  · refine .inr ⟨hen, by omega, hfwd.imp id fun hmem => ?_⟩
    change (if p.enableForwarding then t.machine.forwardMem i else none) = some r at hmem
    rwa [hen, if_pos rfl] at hmem

theorem writes_of {u : RegUse} (hwr : u.regWrite) (hrd : u.rd = r) (hr : r ≠ 0) : u.writes r := by
  rw [RegUse.writes, hwr, hrd, beq_self_eq_true, bne_iff_ne.mpr hr]
  rfl

theorem ne_zero_of_writes {u : RegUse} (h : u.writes r) : u.regWrite ∧ u.rd = r ∧ r ≠ 0 := by
  simp only [RegUse.writes, and_eq_true, beq_iff_eq, bne_iff_ne] at h
  exact ⟨h.1.1, h.1.2, h.2⟩

theorem stageWriters_of {α : Type} {instr : α → BitVec 32} {q : Option α} {x : α}
    (hq : q = some x) (hw : (p.use (instr x)).writes r) : stageWriters p instr r q = 1 := by
  rw [stageWriters, hq, map_some, RegMapState.writers_some, hw]
  rfl

/-- The one writer that is left when an instruction enters dispatch is offered to it. -/
theorem offers_of_dispatches (hcounted : t.Counted) (hclr : t.forwardsReservation i = false)
    {f : FetchPacket} (hf : t.machine.core.dispatches (t.input i) = some f)
    (hreads : (p.use f.instr).reads r) {m : ExMemPacket}
    (hm : (t.step i).machine.core.exMemQ = some m) (hw : (p.use m.instr).writes r) :
    Offers p m := by
  obtain ⟨hregWrite, hrd, hr⟩ := ne_zero_of_writes hw
  have hsrc := source_of_dispatches hcounted hf hreads
  have htotal := outstanding_eq (t := t) (r := r)
  have hle := retiring_le (s := t.machine) (r := r)
  rcases mem_cases (i := t.input i) hm with ⟨d, hd, rfl⟩ | ⟨hnone, hmem, -⟩
  · have hdisp : stageWriters p DispatchPacket.instr r t.machine.core.dispatchQ = 1 :=
      stageWriters_of (goes_of_fires hd).dispatched hw
    rcases hsrc with hnone | ⟨hen, hone, hfwd | hfwd⟩
    · omega
    · obtain ⟨d', hd', -, -, -, hnoWrite, hloads⟩ := forwardEx_eq_some hfwd
      obtain rfl := mem_unique hd hd'
      refine ⟨hen, ?_, hnoWrite, hloads⟩
      -- The only atomic that gets this far is LR.
      refine eq_false_of_ne_true fun hamo => ?_
      have hlr := IssueParams.lr_of_atomic hregWrite (beq_iff_eq.mp hamo) hnoWrite
      have hread : (d.op p.core).memRead := by
        rw [ScalarOp.memRead, DispatchPacket.op]
        exact congrArg (fun o : Option LsuOp => (o.map LsuOp.reads).getD false) hlr
      have hload : p.enableLoadForwarding := by
        rw [hread] at hloads
        simpa using hloads
      have hreadsRd : (p.use f.instr).reads (p.use d.instr).rd := by
        have hrd' : (p.use d.instr).rd = r := hrd
        rw [hrd', hreads]
      have hreservation : t.forwardsReservation i := by
        have hlr' : ((d.op p.core).lsu == some .lr) := beq_iff_eq.mpr hlr
        have hregWrite' : (p.use d.instr).regWrite := hregWrite
        rw [forwardsReservation, hen, hload]
        refine firesIs_iff.mpr ⟨d, hd, ?_⟩
        rw [hlr', hregWrite', hf, map_some, getD_some, hreadsRd]
        rfl
      rw [hclr] at hreservation
      cases hreservation
    · obtain ⟨m', hm', hrd', hwrite', -⟩ := forwardMem_eq_some hfwd
      have hmem : stageWriters p ExMemPacket.instr r t.machine.core.exMemQ = 1 :=
        stageWriters_of hm' (writes_of hwrite' hrd' hr)
      omega
  have hq := (mem_eq_some.mp hmem).2
  have hcnt : stageWriters p ExMemPacket.instr r t.machine.core.exMemQ = 1 := stageWriters_of hq hw
  rcases hsrc with hz | ⟨-, -, hfwd | hfwd⟩
  · omega
  · obtain ⟨d, hd, -⟩ := forwardEx_eq_some hfwd
    rw [hnone] at hd
    cases hd
  · obtain ⟨m'', hm'', -, -, hoffers⟩ := forwardMem_eq_some hfwd
    obtain rfl := mem_unique hq hm''
    exact hoffers

theorem Fed.step (h : t.Fed) (hcounted : t.Counted) (hmul : t.machine.MulOk)
    (hclr : t.forwardsReservation i = false) : (t.step i).Fed := by
  intro d m r hd hm hreads hw
  obtain ⟨-, ⟨f, hf, rfl⟩ | ⟨-, hq, hwaits⟩⟩ := dispatch_cases hd
  · exact offers_of_dispatches hcounted hclr hf hreads hm hw
  rcases mem_cases (i := t.input i) hm with ⟨d', hd', -⟩ | ⟨-, hmem, -⟩
  · have hacc := hmul.accepts hd'
    rw [hwaits] at hacc
    cases hacc
  · exact h d _ r hq (mem_eq_some.mp hmem).2 hreads hw

/-! ### The ledger -/

structure Ledger (t : IssueTracked p) : Prop where
  taken : t.machine.core.dispatchQ.isSome = true → t.hist.exNo + 1 = t.hist.taken
  queue : ∀ n, t.hist.issued.count n + t.hist.dropped.count n +
    (if t.machine.core.dispatchQ.isSome = true ∧ t.hist.exNo = n then 1 else 0) =
      if n < t.hist.taken then 1 else 0
  inOrder : t.hist.issued.Pairwise (· > ·)
  head : t.machine.core.exMemQ.isSome = true → t.hist.issued.head? = some t.hist.memNo
  places : ∀ n, t.hist.squashed.count n + t.hist.ended.countP (fun e => e.no == n) +
    (if t.machine.core.exMemQ.isSome = true ∧ t.hist.memNo = n then 1 else 0) =
      t.hist.issued.count n

section Ledger

variable (h : t.Ledger)
include h

theorem Ledger.issued_lt {n : ℕ} (hn : n ∈ t.hist.issued) : n < t.hist.taken := by
  have hcnt := h.queue n
  have hpos := count_pos_iff.mpr hn
  by_contra hge
  rw [if_neg hge] at hcnt
  omega

/-- The instruction in dispatch is younger than every issued one. -/
theorem Ledger.issued_lt_ex {n : ℕ} (hn : n ∈ t.hist.issued)
    (hq : t.machine.core.dispatchQ.isSome) : n < t.hist.exNo := by
  have hlt := h.issued_lt hn
  have htaken := h.taken hq
  have hne : n ≠ t.hist.exNo := by
    rintro rfl
    have hcnt := h.queue t.hist.exNo
    have hpos := count_pos_iff.mpr hn
    rw [if_pos ⟨hq, rfl⟩, if_pos hlt] at hcnt
    omega
  omega

theorem Ledger.mem_issued {n : ℕ} (hn : n ∈ t.hist.numbers) : n ∈ t.hist.issued := by
  obtain ⟨e, he, rfl⟩ := mem_map.mp hn
  have hpos : 0 < t.hist.ended.countP fun x => x.no == e.no :=
    List.countP_pos_iff.mpr ⟨e, he, beq_self_eq_true _⟩
  have hplaces := h.places e.no
  exact count_pos_iff.mp (by omega)

/-- The instruction in MEM is younger than every one that has left it. -/
theorem Ledger.numbers_lt {n : ℕ} (hn : n ∈ t.hist.numbers)
    (hq : t.machine.core.exMemQ.isSome) : n < t.hist.memNo := by
  have hiss := h.mem_issued hn
  obtain ⟨rest, hrest⟩ := List.head?_eq_some_iff.mp (h.head hq)
  have horder := h.inOrder
  rw [hrest, List.pairwise_cons] at horder
  rw [hrest, List.mem_cons] at hiss
  obtain rfl | hlater := hiss
  · exfalso
    obtain ⟨e, he, hno⟩ := mem_map.mp hn
    have hpos : 0 < t.hist.ended.countP fun x => x.no == t.hist.memNo :=
      List.countP_pos_iff.mpr ⟨e, he, beq_iff_eq.mpr hno⟩
    have hplaces := h.places t.hist.memNo
    have hnot : t.hist.memNo ∉ rest := fun hmem => (horder.1 _ hmem).false
    rw [if_pos ⟨hq, rfl⟩, hrest, List.count_cons_self, count_eq_zero.mpr hnot] at hplaces
    omega
  · exact horder.1 n hlater

end Ledger

/-- What the observer notes in a cycle in which dispatch is flushed. -/
theorem hist_flush (hfl : t.machine.core.flushIdEx i.pins) :
    t.machine.core.dispatches (t.input i) = none ∧ t.machine.core.exFires (t.input i) = none := by
  have hfl' : t.machine.core.flushIdEx (t.input i) := hfl
  refine ⟨?_, ?_⟩
  · rw [dispatches, hfl', Bool.not_true, Bool.and_false, Bool.false_and, if_low]
  · rw [exFires, ex, hfl']
    rfl

theorem leaving_eq : t.leaving i = (t.machine.core.memLeaves (t.input i)).map fun m =>
    ⟨t.hist.memNo, written (p := p) (t.machine.core.memWbIn (t.input i) m)⟩ := by
  rw [leaving, memLeaves, memOut]
  split_ifs
  · rw [Option.map_map]
    rfl
  · rfl

theorem leaving_of_flush (hfl : t.machine.core.flushExMem i.pins) : t.leaving i = none := by
  have hfl' : t.machine.core.flushExMem (t.input i) := hfl
  have hmem : t.machine.core.mem (t.input i) = none := by
    rw [mem, hfl']
    rfl
  rw [leaving_eq, memLeaves, hmem, Option.filter_none, ite_self]
  rfl

section LedgerStep

variable (h : t.Ledger) (hmul : t.machine.MulOk)
include h hmul

omit h in
theorem dispatch_moves (hfl : t.machine.core.flushIdEx i.pins = false) :
    Stage.Moves t.machine.core.dispatchQ (t.step i).machine.core.dispatchQ
      ((t.machine.core.dispatches (t.input i)).map (dispatchIn (t.input i)))
      (t.machine.core.exFires (t.input i)) :=
  dispatchMoves hfl fun _ => hmul.accepts

theorem Ledger.step_taken (hq : (t.step i).machine.core.dispatchQ.isSome) :
    (t.step i).hist.exNo + 1 = (t.step i).hist.taken := by
  obtain ⟨d, hd⟩ := Option.isSome_iff_exists.mp hq
  obtain ⟨hfl, -⟩ := dispatch_cases hd
  simp only [step]
  cases hf : t.machine.core.dispatches (t.input i) with
  | some f => rfl
  | none =>
    cases dispatch_moves hmul hfl with
    | turns hreg _ => rw [hf] at hreg; cases hreg.symm.trans hd
    | stays _ _ hreg => exact h.taken (by rw [← hreg]; exact hq)

theorem Ledger.step_queue (n : ℕ) :
    (t.step i).hist.issued.count n + (t.step i).hist.dropped.count n +
      (if (t.step i).machine.core.dispatchQ.isSome ∧ (t.step i).hist.exNo = n then 1
        else 0) = if n < (t.step i).hist.taken then 1 else 0 := by
  have hqueue := h.queue n
  have htaken := h.taken
  cases hfl : t.machine.core.flushIdEx i.pins with
  | true =>
    obtain ⟨hnone, hfires⟩ := hist_flush hfl
    have hdisp : (t.step i).machine.core.dispatchQ = none := if_pos hfl
    have hfl' : t.machine.core.flushIdEx (t.input i) := hfl
    rw [hdisp]
    simp only [step, hnone, hfires, hfl']
    cases hq : t.machine.core.dispatchQ <;> rw [hq] at hqueue <;>
      simp [count_cons] at hqueue ⊢ <;> omega
  | false =>
    have hfl' : t.machine.core.flushIdEx (t.input i) = false := hfl
    cases dispatch_moves hmul hfl with
    | turns hreg hleft =>
      rw [hreg]
      simp only [step, hfl', hleft]
      cases hq : t.machine.core.dispatchQ <;> rw [hq] at hqueue htaken <;>
        cases hf : t.machine.core.dispatches (t.input i) <;>
        simp [count_cons] at hqueue htaken ⊢ <;> split_ifs at hqueue ⊢ <;> omega
    | stays hentered hleft hreg =>
      have hf : t.machine.core.dispatches (t.input i) = none := Option.map_eq_none_iff.mp hentered
      rw [hreg]
      simpa [step, hfl', hleft, hf] using hqueue

omit hmul in
theorem Ledger.step_inOrder : (t.step i).hist.issued.Pairwise (· > ·) := by
  simp only [step]
  cases hd : t.machine.core.exFires (t.input i) with
  | none => exact h.inOrder
  | some d =>
    have hq : t.machine.core.dispatchQ.isSome := by
      rw [(goes_of_fires hd).dispatched]
      rfl
    exact List.pairwise_cons.mpr ⟨fun n hn => h.issued_lt_ex hn hq, h.inOrder⟩

omit hmul in
theorem Ledger.step_head (hq : (t.step i).machine.core.exMemQ.isSome) :
    (t.step i).hist.issued.head? = some (t.step i).hist.memNo := by
  simp only [step]
  cases memNext t.machine.core (t.input i) with
  | enters d hd _ => rw [hd]; rfl
  | empties _ hnxt =>
    have hnone : (t.step i).machine.core.exMemQ = none := hnxt
    rw [hnone] at hq
    cases hq
  | stays m hnone hm _ _ =>
    rw [hnone]
    refine h.head ?_
    rw [(mem_eq_some.mp hm).2]
    rfl

omit hmul in
theorem Ledger.step_places (n : ℕ) :
    (t.step i).hist.squashed.count n + (t.step i).hist.ended.countP (fun e => e.no == n) +
      (if (t.step i).machine.core.exMemQ.isSome ∧ (t.step i).hist.memNo = n then 1
        else 0) = (t.step i).hist.issued.count n := by
  have hplaces := h.places n
  cases hfl : t.machine.core.flushExMem i.pins with
  | true =>
    have hfl' : t.machine.core.flushExMem (t.input i) := hfl
    have hfires : t.machine.core.exFires (t.input i) = none := by
      refine (hist_flush ?_).2
      rw [flushIdEx, hfl, Bool.true_or, Bool.true_or]
    have hmem : (t.step i).machine.core.exMemQ = none := Stage.next_of_flush hfl'
    rw [hmem]
    simp only [step, hfl', hfires, leaving_of_flush hfl]
    cases hq : t.machine.core.exMemQ <;> rw [hq] at hplaces <;>
      simp [count_cons] at hplaces ⊢ <;> omega
  | false =>
    have hfl' : t.machine.core.flushExMem (t.input i) = false := hfl
    have hmoves : Stage.Moves t.machine.core.exMemQ (t.step i).machine.core.exMemQ
        ((t.machine.core.exFires (t.input i)).map (t.machine.core.exMemIn (t.input i)))
        (t.machine.core.memLeaves (t.input i)) := memMoves hfl'
    have hleav := leaving_eq (t := t) (i := i)
    cases hmoves with
    | turns hreg hleft =>
      rw [hleft] at hleav
      rw [hreg]
      simp only [step, hfl', hleav]
      cases hq : t.machine.core.exMemQ <;> rw [hq] at hplaces <;>
        cases hd : t.machine.core.exFires (t.input i) <;>
        simp [count_cons, List.countP_cons] at hplaces ⊢ <;> omega
    | stays hentered hleft hreg =>
      have hd : t.machine.core.exFires (t.input i) = none := Option.map_eq_none_iff.mp hentered
      rw [hleft] at hleav
      rw [hreg]
      simpa [step, hfl', hleav, hd] using hplaces

theorem Ledger.step : (t.step i).Ledger where
  taken := h.step_taken hmul
  queue := h.step_queue hmul
  inOrder := h.step_inOrder
  head := h.step_head
  places := h.step_places

end LedgerStep

/-! ### What the registers hold -/

/-- A register port reads what the latest instruction that has left MEM wrote. -/
def Valued (t : IssueTracked p) : Prop :=
  ∀ r, r ≠ 0 → ∀ n, (∀ m ∈ t.hist.numbers, m < n) →
    LatestWriter.Reads t.hist.flight r n (t.machine.gprRead r)

theorem written_eq_some {w : MemWbPacket} {v : BitVec 64} : written (p := p) w = some (r, v) ↔
      ((p.use w.instr).writes r ∧ w.exception = false) ∧ w.data = v := by
  rw [written]
  constructor
  · intro h
    simp only [and_eq_true, not_eq_true', bne_iff_ne, ne_eq] at h
    split_ifs at h with hgo
    obtain ⟨rfl, rfl⟩ := Prod.mk.inj (Option.some_inj.mp h)
    exact ⟨⟨writes_of hgo.1.1 rfl hgo.1.2, hgo.2⟩, rfl⟩
  · rintro ⟨⟨hwrs, hexc⟩, rfl⟩
    obtain ⟨hw, rfl, hr⟩ := ne_zero_of_writes hwrs
    rw [hw, bne_iff_ne.mpr hr, hexc]
    rfl

section Registers

theorem gprRead_eq (hr : r ≠ 0) :
    t.machine.gprRead r = (t.machine.wbWrite r).getD (t.machine.gpr r) := by
  rw [gprRead, beq_eq_false_iff_ne.mpr hr, if_low]

/-- What WB has written stays in the register file. -/
theorem gprRead_step (hr : r ≠ 0) : (t.step i).machine.gprRead r =
    ((t.step i).machine.wbWrite r).getD (t.machine.gprRead r) := by
  rw [gprRead_eq hr, gprRead_eq hr]
  rfl

theorem wbWrite_of_none (h : t.machine.core.memWbQ = none) : t.machine.wbWrite r = none := by
  rw [wbWrite, h]
  rfl

theorem wbWrite_of_some {w : MemWbPacket} (hw : t.machine.core.memWbQ = some w)
    (hhalted : t.machine.core.haltedQ = false) :
    t.machine.wbWrite r =
      if (p.use w.instr).writes r && !w.exception then some w.data else none := by
  rw [wbWrite, hw, filter_some, IssueParams.memWbUse_eq, hhalted, Bool.not_false, Bool.and_true]
  split_ifs <;> rfl

/-- An instruction that waits in WB writes the same again. -/
theorem gprRead_of_held (hr : r ≠ 0)
    (hheld : (t.step i).machine.core.memWbQ = t.machine.core.memWbQ) :
    (t.step i).machine.gprRead r = t.machine.gprRead r := by
  rw [gprRead_step hr]
  cases hwr : (t.step i).machine.wbWrite r with
  | none => rfl
  | some v =>
    obtain ⟨w, hw, rfl⟩ := map_eq_some_iff.mp hwr
    obtain ⟨hq, hgo⟩ := filter_eq_some_iff.mp hw
    have hhalted : t.machine.core.haltedQ = false := by
      have hnxt : (t.step i).machine.core.haltedQ = (t.machine.core.haltedQ ||
        (t.machine.core.memWbQ.map halt).getD false) := rfl
      refine eq_false_of_ne_true fun hh => ?_
      rw [hnxt, hh, Bool.true_or] at hgo
      simp at hgo
    rw [getD_some, gprRead_eq hr, wbWrite, ← hheld, hq, filter_some, hhalted]
    simp only [and_eq_true] at hgo
    rw [hgo.1.1, hgo.1.2]
    rfl

end Registers

theorem flight_of_none (hleav : t.leaving i = none) : (t.step i).hist.flight = t.hist.flight := by
  refine flight_congr ?_ rfl
  change (t.leaving i).toList ++ t.hist.ended = _
  rw [hleav]
  rfl

theorem ended_of_some {e : IssueEnd} (hleav : t.leaving i = some e) :
    (t.step i).hist.ended = e :: t.hist.ended := by
  change (t.leaving i).toList ++ t.hist.ended = _
  rw [hleav]
  rfl

theorem Valued.step (h : t.Valued) (hledger : t.Ledger)
    (hhalting : (t.step i).machine.core.Halting) : (t.step i).Valued := by
  intro r hr n hn
  have hmoves : Stage.Moves t.machine.core.memWbQ (t.step i).machine.core.memWbQ
      ((t.machine.core.memLeaves (t.input i)).map (t.machine.core.memWbIn (t.input i)))
      t.machine.core.retiring := wbMoves
  have hleav := leaving_eq (t := t) (i := i)
  cases hm : t.machine.core.memLeaves (t.input i) with
  | none =>
    rw [hm] at hleav hmoves
    have hflight := flight_of_none hleav
    have hended : (t.step i).hist.ended = t.hist.ended := by
      change (t.leaving i).toList ++ t.hist.ended = _
      rw [hleav]
      rfl
    have hvalue : (t.step i).machine.gprRead r = t.machine.gprRead r := by
      cases hmoves with
      | turns hreg _ => rw [gprRead_step hr, wbWrite_of_none hreg]; rfl
      | stays _ _ hreg => exact gprRead_of_held hr hreg
    rw [hflight, hvalue]
    refine h r hr n fun m hm' => hn m ?_
    rwa [numbers, hended]
  | some m =>
    rw [hm] at hleav hmoves
    have hended := ended_of_some hleav
    have hmemQ : t.machine.core.exMemQ.isSome := by
      rw [memLeaves] at hm
      split_ifs at hm
      have hmem := (filter_eq_some_iff.mp hm).1
      rw [(mem_eq_some.mp hmem).2]
      rfl
    have hno : t.hist.memNo < n ∧ ∀ k ∈ t.hist.numbers, k < n := by
      rw [numbers, hended] at hn
      exact ⟨hn _ mem_cons_self, fun k hk => hn k (List.mem_cons_of_mem _ hk)⟩
    have hreg : (t.step i).machine.core.memWbQ = some (t.machine.core.memWbIn (t.input i) m) := by
      cases hmoves with
      | turns hreg _ => exact hreg
      | stays hentered _ _ => cases hentered
    have hhalted : (t.step i).machine.core.haltedQ = false := by
      refine eq_false_of_ne_true fun hh => ?_
      rw [(hhalting.halted hh).wb] at hreg
      cases hreg
    rw [gprRead_step hr, wbWrite_of_some hreg hhalted]
    have holder : ∀ k ∈ t.hist.numbers, k < t.hist.memNo := fun k hk =>
      hledger.numbers_lt hk hmemQ
    cases hwrs : (p.use (t.machine.core.memWbIn (t.input i) m).instr).writes r &&
        !(t.machine.core.memWbIn (t.input i) m).exception with
    | true =>
      rw [if_pos rfl, getD_some]
      refine reads_of_write hended ?_ holder hno.1
      rw [and_eq_true, not_eq_true'] at hwrs
      exact written_eq_some.mpr ⟨hwrs, rfl⟩
    | false =>
      rw [if_low, getD_none]
      refine reads_of_other hended rfl holder (fun v hv => ?_) (h r hr n hno.2)
      obtain ⟨⟨hw, hexc⟩, -⟩ := written_eq_some.mp hv
      rw [hw, hexc] at hwrs
      cases hwrs

/-! ### The operands -/

theorem exMemInClear_of_consumes {d : DispatchPacket} (h : t.Consumes i d) :
    t.machine.core.dispatchQ = some d ∧ t.machine.core.flushIdEx i.pins = false ∧
      t.machine.core.exMemInClear i.pins := by
  rcases h with hfires | ⟨hex, hstart⟩
  · have hgoes := goes_of_fires hfires
    exact ⟨hgoes.dispatched, hgoes.noFlush, hgoes.clear⟩
  · obtain ⟨hfl, hq⟩ := Stage.out_eq_some.mp hex
    simp only [mulStart, and_eq_true] at hstart
    exact ⟨hq, hfl, hstart.1.1.2⟩

/-- What MEM holds when EX gives its operands away leaves MEM with it. -/
theorem leaving_of_consumes {d : DispatchPacket} (h : t.Consumes i d) :
    t.leaving i = t.machine.core.exMemQ.map fun m =>
      ⟨t.hist.memNo, written (p := p) (t.machine.core.memWbIn (t.input i) m)⟩ := by
  obtain ⟨-, hfl, hclr⟩ := exMemInClear_of_consumes h
  have hfl' : t.machine.core.flushExMem (t.input i) = false := flushExMem_of_flushIdEx hfl
  rw [leaving_eq, memLeaves_of_clear hfl' hclr]

theorem older_of_consumes (h : t.Ledger) {d : DispatchPacket} (hd : t.Consumes i d) {n : ℕ}
    (hn : n < t.hist.exNo) : (t.step i).Past n := by
  obtain ⟨hq, hfl, -⟩ := exMemInClear_of_consumes hd
  have hleav := leaving_of_consumes hd
  have hsome : t.machine.core.dispatchQ.isSome := by
    rw [hq]
    rfl
  have hcnt := h.queue n
  have htaken := h.taken hsome
  rw [if_neg fun hsame => hn.ne hsame.2.symm, if_pos (by omega)] at hcnt
  have hended : (t.step i).hist.ended = (t.leaving i).toList ++ t.hist.ended := rfl
  by_cases hdropped : n ∈ t.hist.dropped
  · refine .inl ?_
    simp only [step]
    split_ifs
    · exact List.mem_cons_of_mem _ hdropped
    · exact hdropped
  rw [count_eq_zero.mpr hdropped] at hcnt
  have hplaces := h.places n
  by_cases hsquashed : n ∈ t.hist.squashed
  · refine .inr (.inl ?_)
    simp only [step]
    split_ifs
    · exact List.mem_cons_of_mem _ hsquashed
    · exact hsquashed
  rw [count_eq_zero.mpr hsquashed, Nat.zero_add] at hplaces
  refine .inr (.inr ?_)
  rw [hended]
  by_cases hold : 0 < t.hist.ended.countP fun e => e.no == n
  · obtain ⟨e, he, hno⟩ := List.countP_pos_iff.mp hold
    exact ⟨e, List.mem_append_right _ he, beq_iff_eq.mp hno⟩
  split_ifs at hplaces with hmem
  · obtain ⟨m, hm⟩ := Option.isSome_iff_exists.mp hmem.1
    rw [hm] at hleav
    exact ⟨_, by rw [hleav]; exact List.mem_append_left _ mem_cons_self, hmem.2⟩
  · omega

/-- MEM bypasses exactly what it then hands to WB. -/
theorem bypass_of_offers {m : ExMemPacket} (hfl : t.machine.core.flushExMem i.pins = false)
    (hm : t.machine.core.exMemQ = some m) (hoffers : Offers p m)
    (hdone : t.machine.core.memoryComplete (t.input i) m)
    (hw : (p.use m.instr).writes r)
    (hexc : (t.machine.core.memWbIn (t.input i) m).exception = false) :
    t.machine.bypass i r = some (t.machine.core.memWbIn (t.input i) m).data := by
  obtain ⟨hwr, hrd, hr⟩ := ne_zero_of_writes hw
  have hmem : t.machine.core.mem i.pins = some m := mem_eq_some.mpr ⟨hfl, hm⟩
  have hdone' : t.machine.core.memoryComplete i.pins m := hdone
  have hnone : (t.machine.core.exceptCause i.pins m).isNone := by
    have hsome : (t.machine.core.exceptCause i.pins m).isSome = false := hexc
    rw [Option.isSome_eq_false_iff] at hsome
    exact hsome
  have hval : t.machine.memBypassValid i m := by
    rw [memBypassValid, memForwardValid, hoffers.forwarding,
      hoffers.notAtomic, hoffers.noWrite, hwr, hdone', hnone, hoffers.loads]
    rfl
  have hdata : (t.machine.core.memWbIn (t.input i) m).data = t.machine.memForwardData i m := by
    have hamo := hoffers.notAtomic
    simp only [memWbIn, hamo, if_low]
    rfl
  have hself : (r == r) := beq_self_eq_true r
  rw [bypass, hmem, filter_some, hval, hrd, hself, bne_iff_ne.mpr hr, if_pos (by rfl), hdata]
  rfl

theorem bypass_eq_some {v : BitVec 64} (h : t.machine.bypass i r = some v) :
    ∃ m, t.machine.core.exMemQ = some m ∧ (p.use m.instr).writes r ∧
      (t.machine.core.memWbIn (t.input i) m).exception = false := by
  obtain ⟨m, hm, -⟩ := map_eq_some_iff.mp h
  obtain ⟨hmem, hgo⟩ := filter_eq_some_iff.mp hm
  simp only [memBypassValid, memForwardValid, and_eq_true, beq_iff_eq, bne_iff_ne] at hgo
  obtain ⟨⟨⟨⟨⟨⟨⟨⟨-, -⟩, hwr⟩, -⟩, -⟩, hnone⟩, -⟩, hr⟩, hrd⟩ := hgo
  refine ⟨m, (mem_eq_some.mp hmem).2, writes_of hwr hrd.symm hr, ?_⟩
  change (t.machine.core.exceptCause i.pins m).isSome = false
  rw [Option.isNone_iff_eq_none.mp hnone]
  rfl

/-- An operand is what the latest older instruction writes that survives. -/
theorem operand_reads (hledger : t.Ledger) (hvalued : t.Valued) (hfed : t.Fed)
    {d : DispatchPacket} (hd : t.Consumes i d) (hreads : (p.use d.instr).reads r) :
    LatestWriter.Reads (t.step i).hist.flight r t.hist.exNo (t.machine.operand i r) := by
  obtain ⟨hq, hfl, hclr⟩ := exMemInClear_of_consumes hd
  have hfl' : t.machine.core.flushExMem i.pins = false := flushExMem_of_flushIdEx hfl
  have hsome : t.machine.core.dispatchQ.isSome := by
    rw [hq]
    rfl
  have hr : r ≠ 0 := by
    simp only [RegUse.reads, and_eq_true, bne_iff_ne] at hreads
    exact hreads.1
  have hnumbers : ∀ k ∈ t.hist.numbers, k < t.hist.exNo := fun k hk =>
    hledger.issued_lt_ex (hledger.mem_issued hk) hsome
  have hold := hvalued r hr t.hist.exNo hnumbers
  have hleav := leaving_of_consumes hd
  cases hm : t.machine.core.exMemQ with
  | none =>
    rw [hm] at hleav
    have hbyp : t.machine.bypass i r = none := by
      cases hb : t.machine.bypass i r with
      | none => rfl
      | some v =>
        obtain ⟨m, hm', -⟩ := bypass_eq_some hb
        rw [hm] at hm'
        cases hm'
    rw [flight_of_none hleav, operand, hbyp]
    exact hold
  | some m =>
    rw [hm] at hleav
    have hended := ended_of_some hleav
    have hmemQ : t.machine.core.exMemQ.isSome := by
      rw [hm]
      rfl
    have hmemNo : t.hist.memNo < t.hist.exNo := by
      refine hledger.issued_lt_ex ?_ hsome
      obtain ⟨rest, hrest⟩ := List.head?_eq_some_iff.mp (hledger.head hmemQ)
      rw [hrest]
      exact mem_cons_self
    have holder : ∀ k ∈ t.hist.numbers, k < t.hist.memNo := fun k hk =>
      hledger.numbers_lt hk hmemQ
    cases hwrs : (p.use m.instr).writes r && !(t.machine.core.memWbIn (t.input i) m).exception with
    | true =>
      rw [and_eq_true, not_eq_true'] at hwrs
      obtain ⟨hw, hexc⟩ := hwrs
      have hdone : t.machine.core.memoryComplete (t.input i) m := by
        have hleaves := memLeaves_of_clear (s := t.machine.core) (i := t.input i) hfl' hclr
        rw [hm, memLeaves] at hleaves
        split_ifs at hleaves
        exact (filter_eq_some_iff.mp hleaves).2
      have hbyp := bypass_of_offers hfl' hm (hfed d m r hq hm hreads hw) hdone hw hexc
      rw [operand, hbyp, getD_some]
      exact reads_of_write hended (written_eq_some.mpr ⟨⟨hw, hexc⟩, rfl⟩) holder hmemNo
    | false =>
      have hbyp : t.machine.bypass i r = none := by
        cases hb : t.machine.bypass i r with
        | none => rfl
        | some v =>
          obtain ⟨m', hm', hw, hexc⟩ := bypass_eq_some hb
          obtain rfl := mem_unique hm hm'
          rw [hw, hexc] at hwrs
          cases hwrs
      rw [operand, hbyp, getD_none]
      refine reads_of_other hended rfl holder (fun v hv => ?_) hold
      obtain ⟨⟨hw, hexc⟩, -⟩ := written_eq_some.mp hv
      have hw' : (p.use m.instr).writes r := hw
      rw [hw', hexc] at hwrs
      cases hwrs

/-! ### Every run -/

structure Inv (t : IssueTracked p) : Prop where
  pipe : t.machine.core.Pipe
  fenced : t.machine.core.Fenced
  halting : t.machine.core.Halting
  mul : t.machine.MulOk
  linked : t.Linked
  counted : t.Counted
  fed : t.Fed
  ledger : t.Ledger
  valued : t.Valued

theorem inv_reset (powerUp : PtwState) (gpr : BitVec 5 → BitVec 64) :
    Inv (reset powerUp gpr : IssueTracked p) where
  pipe := pipe_reset powerUp
  fenced := fenced_reset powerUp
  halting := halting_reset powerUp
  mul := ⟨rfl, fun _ => rfl, fun h => by cases h⟩
  linked := fun h => by cases h
  counted := fun _ _ => rfl
  fed := fun _ _ _ h => by cases h
  ledger :=
    { taken := fun h => by cases h
      queue := fun _ => rfl
      inOrder := List.Pairwise.nil
      head := fun h => by cases h
      places := fun _ => rfl }
  valued := fun r hr n _ => by
    rw [gprRead_eq hr, wbWrite_of_none rfl]
    exact .inr ⟨fun _ hk => Bool.noConfusion hk, rfl⟩

theorem Inv.step (h : t.Inv) (hforwards : t.forwardsReservation i = false)
    (hredirects : t.redirectsLink i = false) : (t.step i).Inv where
  pipe := h.pipe.step
  fenced := h.fenced.step h.pipe
  halting := h.halting.step h.pipe
  mul := h.mul.step h.pipe h.fenced
  linked := Linked.step hredirects
  counted := h.counted.step h.pipe h.fenced h.mul h.linked
  fed := h.fed.step h.counted h.mul hforwards
  ledger := h.ledger.step h.mul
  valued := h.valued.step h.ledger (h.halting.step h.pipe)

theorem Inv.issuesRight (h : t.Inv) : t.IssuesRight where
  queue := h.ledger.queue
  inOrder := h.ledger.inOrder
  places := h.ledger.places
  counts := h.counted
  older := fun _ _ hd _ hn => older_of_consumes h.ledger hd hn
  operands := fun _ _ hd _ hreads => operand_reads h.ledger h.valued h.fed hd hreads

/-- While no reservation is forwarded and no linking control redirects fetch, every instruction
that the core issues has the operands of program order. -/
theorem issues_right {past : Sync.Past (IssueTracked p) IssueInput}
    (hrun : Sync.Run (scalarIssue p)
      (Sync.cycleEnv fun t i => t.forwardsReservation i = false ∧ t.redirectsLink i = false)
      past t) : t.IssuesRight := by
  refine Inv.issuesRight (hrun.stateInvariant ?_ ?_)
  · rintro t ⟨powerUp, gpr, rfl⟩
    exact inv_reset powerUp gpr
  · exact fun _ _ _ henv h => Inv.step h henv.1 henv.2

/-! ### A jump that links -/

section LinkedJump

def plainEnables : DecodeEnables := ⟨false, false, true, false⟩

/-- No multiplier, and no forwarding. -/
def plainIssue : IssueParams where
  core :=
    { resetVector := 0
      reset_aligned := rfl
      enableRv64m := false
      decode := plainEnables.params
      csr := CsrTracked.smallCsr
      bus := AdapterTracked.plainBus }
  enables := plainEnables
  decode_eq := rfl
  enableForwarding := false
  enableLoadForwarding := false

/-- Memory answers at once, with `jal x1, +8` and an instruction behind it. -/
def jalCycle : IssueInput where
  pins :=
    { reqReadyI := true
      reqRdataI := 0x00000013008000ef
      reqErrorI := false
      pmpAllowI := true
      icx := AdapterTracked.quietIcx
      irqSoftwareI := false
      irqTimerI := false
      irqExternalI := false
      irqSSoftwareI := false
      irqSTimerI := false
      irqSExternalI := false
      perfEventsI := 0
      rs1DataI := 0
      rs2DataI := 0
      aluResultI := 0
      aluIllegalI := false
      aluMReadyI := true
      aluMDoneI := false
      hpmDelayDoneI := true
      regMapCanAllocateI := true
      predictionTakenI := false
      predictionFastI := false
      predictionTargetI := 0
      bpFetchStallI := false
      bpDecodeStallI := false }
  mulDoneI := false
  mulAtOnceI := false

def jalStart : IssueTracked plainIssue := .reset AdapterTracked.idlePowerUp fun _ => 0

/-- The state after `n` cycles; with the eighth the jump leaves EX. -/
def jalState (n : ℕ) : IssueTracked plainIssue :=
  (Sync.exec (scalarIssue plainIssue) [] jalStart (List.replicate n jalCycle)).2

/-- Before the jump resolves the map is right. -/
theorem issues_right_jump : (jalState 7).IssuesRight :=
  issues_right (Sync.exec_run_decide (List.replicate 7 jalCycle) ⟨_, _, rfl⟩ (by decide +kernel))

/-- The flush behind the jump takes its own reservation away. -/
theorem issues_right_fails :
    ¬ ∀ (p : IssueParams) (past : Sync.Past (IssueTracked p) IssueInput) (t : IssueTracked p),
      Sync.Run (scalarIssue p) Sync.anyEnv past t → t.IssuesRight := by
  intro hall
  have hright := hall plainIssue _ (jalState 9)
    (Sync.exec_run (List.replicate 9 jalCycle) (.reset ⟨_, _, rfl⟩))
  have hcount := hright.counts 1 (by decide)
  have hwrong : (jalState 9).machine.regMap.writeCountQ 1 ≠ (jalState 9).outstanding 1 := by
    decide +kernel
  exact hwrong hcount

end LinkedJump

end IssueTracked

end OpenRV64
