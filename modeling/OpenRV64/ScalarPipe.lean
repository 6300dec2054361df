/-
How the stages of the one-wide core share the machine: instructions that must be alone are,
a sleeping or fenced core is empty, and a flush finds nothing in MEM that has begun.
-/
import OpenRV64.ScalarLedger

namespace OpenRV64

open CsrState DecodeParams DispatchPacket MemWbPacket Stage
open Bool (and_eq_true and_eq_true_iff or_eq_true_iff or_eq_true)
open Option (mem_unique isSome_iff_exists)

namespace Stage

variable {α : Type} {reg input : Option α} {flush outClear : Bool} {x : α}

theorem out_eq_some : out reg flush = some x ↔ flush = false ∧ reg = some x := by
  cases flush <;> simp [out]

theorem next_of_clear (hfl : flush = false) (h : inClear reg flush outClear) :
    next reg flush outClear input = input := by
  rw [next, hfl, if_low, if_pos (hfl ▸ h)]

theorem next_of_held (hfl : flush = false) (h : inClear reg flush outClear = false) :
    next reg flush outClear input = reg := by
  rw [next, hfl, if_low, if_neg (by rw [← hfl, h]; decide)]

theorem next_of_flush (hfl : flush) : next reg flush outClear input = none := by
  rw [next, if_pos hfl]

theorem inClear_eq_false : inClear reg flush outClear = false ↔
    flush = false ∧ reg.isSome ∧ outClear = false := by
  cases flush <;> cases reg <;> cases outClear <;> simp [inClear]

end Stage

namespace ScalarState

variable {p : ScalarParams} {s : ScalarState p} {i : ScalarInput}

/-! ### Who goes where -/

theorem retires_iff {f : MemWbPacket → Bool} : s.retires f ↔
    s.csrBusy = false ∧ ∃ w, s.memWbQ = some w ∧ f w := by
  cases hbsy : s.csrBusy <;> cases hw : s.memWbQ <;> simp [retires, retiring, hbsy, hw]

theorem retires_of_none {f : MemWbPacket → Bool} (h : s.memWbQ = none) : s.retires f = false := by
  refine eq_false_of_ne_true fun hf => ?_
  obtain ⟨-, w, hw, -⟩ := retires_iff.mp hf
  rw [h] at hw
  cases hw

theorem retires_of_busy {f : MemWbPacket → Bool} (h : s.csrBusy) : s.retires f = false := by
  refine eq_false_of_ne_true fun hf => ?_
  have hidle := (retires_iff.mp hf).1
  rw [h] at hidle
  cases hidle

theorem mem_eq_some {m : ExMemPacket} :
    s.mem i = some m ↔ s.flushExMem i = false ∧ s.exMemQ = some m :=
  out_eq_some

theorem memIs_of {f : ExMemPacket → Bool} {m : ExMemPacket} (h : s.mem i = some m) :
    s.memIs i f = f m := by
  rw [memIs, h]
  rfl

theorem memIs_iff {f : ExMemPacket → Bool} : s.memIs i f ↔ ∃ m, s.mem i = some m ∧ f m := by
  cases hm : s.mem i <;> simp [memIs, hm]

theorem memPacket_of {m : ExMemPacket} (h : s.mem i = some m) : s.memPacket i = m := by
  rw [memPacket, h]
  rfl

theorem exFires_eq_some {d : DispatchPacket} : s.exFires i = some d ↔
    s.dispatchQ = some d ∧ s.flushIdEx i = false ∧ s.exReady i d := by
  rw [exFires, Option.filter_eq_some_iff, ex, out_eq_some]
  tauto

theorem firesIs_iff {f : DispatchPacket → Bool} :
    s.firesIs i f ↔ ∃ d, s.exFires i = some d ∧ f d := by
  cases hd : s.exFires i <;> simp [firesIs, hd]

theorem flushExMem_of_flushIdEx (h : s.flushIdEx i = false) : s.flushExMem i = false := by
  rw [flushIdEx, Bool.or_eq_false_iff, Bool.or_eq_false_iff] at h
  exact h.1.1

theorem hardFlush_of_restart (h : s.hardFlushRestart) : s.hardFlush i := by
  simp [hardFlush, h]

/-- What an instruction needs in order to leave EX. -/
structure Goes (s : ScalarState p) (i : ScalarInput) (d : DispatchPacket) : Prop where
  dispatched : s.dispatchQ = some d
  noFlush : s.flushIdEx i = false
  clear : s.exMemInClear i = true
  notSerializing : s.serializingQ = false
  notBusy : s.csrBusy = false
  drained : d.requiresDrain p = true → s.mem i = none ∧ s.memWbQ = none
  unit : s.hpmDelayReady i = true

theorem goes_of_fires {d : DispatchPacket} (h : s.exFires i = some d) : Goes s i d := by
  obtain ⟨hd, hfl, hrdy⟩ := exFires_eq_some.mp h
  simp only [exReady, exUnitReady, serialIssueReady, pipelineEmpty, and_eq_true,
    Bool.not_eq_true', or_eq_true, Option.isNone_iff_eq_none] at hrdy
  obtain ⟨⟨⟨⟨⟨hclr, hserial⟩, hbsy⟩, hhpm⟩, hdr⟩, -⟩ := hrdy
  refine ⟨hd, hfl, hclr, hserial, hbsy, fun hneeds => ?_, hhpm⟩
  rcases hdr with hfree | hemp
  · rw [hneeds] at hfree
    cases hfree
  · exact hemp.1

/-- The three things that can become of MEM. -/
inductive MemNext (s : ScalarState p) (i : ScalarInput) : Prop
  | enters (d : DispatchPacket) : s.exFires i = some d →
      (s.step i).exMemQ = some (s.exMemIn i d) → MemNext s i
  | empties : s.exFires i = none → (s.step i).exMemQ = none → MemNext s i
  | stays (m : ExMemPacket) : s.exFires i = none → s.mem i = some m →
      s.exMemOutClear i = false → (s.step i).exMemQ = some m → MemNext s i

theorem memNext (s : ScalarState p) (i : ScalarInput) : MemNext s i := by
  cases hd : s.exFires i with
  | some d =>
    have hgoes := goes_of_fires hd
    refine .enters d hd ?_
    change Stage.next _ _ _ ((s.exFires i).map (s.exMemIn i)) = _
    rw [next_of_clear (flushExMem_of_flushIdEx hgoes.noFlush) hgoes.clear, hd]
    rfl
  | none =>
    have hinput : ((s.exFires i).map (s.exMemIn i)) = none := by rw [hd]; rfl
    cases hfl : s.flushExMem i with
    | true => exact .empties hd (next_of_flush hfl)
    | false =>
    cases hclr : s.exMemInClear i with
    | true =>
      refine .empties hd ?_
      change Stage.next _ _ _ ((s.exFires i).map (s.exMemIn i)) = _
      rw [next_of_clear hfl hclr, hinput]
    | false =>
      obtain ⟨-, hsome, hout⟩ := inClear_eq_false.mp hclr
      obtain ⟨m, hm⟩ := isSome_iff_exists.mp hsome
      refine .stays m hd (mem_eq_some.mpr ⟨hfl, hm⟩) hout ?_
      exact (next_of_held hfl hclr).trans hm

/-- What can become of WB. -/
inductive WbNext (s : ScalarState p) (i : ScalarInput) : Prop
  | enters (m : ExMemPacket) : s.memWbInClear = true → s.mem i = some m →
      s.memoryComplete i m = true → (s.step i).memWbQ = some (s.memWbIn i m) → WbNext s i
  | empties : s.memWbInClear = true → s.memOut i = none → (s.step i).memWbQ = none → WbNext s i
  | stays (w : MemWbPacket) : s.csrBusy = true → s.memWbInClear = false → s.memWbQ = some w →
      (s.step i).memWbQ = some w → WbNext s i

theorem memOut_eq_some {w : MemWbPacket} : s.memOut i = some w ↔
    ∃ m, s.mem i = some m ∧ s.memoryComplete i m ∧ w = s.memWbIn i m := by
  simp only [memOut, Option.map_eq_some_iff, Option.filter_eq_some_iff]
  constructor
  · rintro ⟨m, ⟨hm, hdone⟩, rfl⟩
    exact ⟨m, hm, hdone, rfl⟩
  · rintro ⟨m, hm, hdone, rfl⟩
    exact ⟨m, ⟨hm, hdone⟩, rfl⟩

theorem wbNext (s : ScalarState p) (i : ScalarInput) : WbNext s i := by
  cases hclr : s.memWbInClear with
  | true =>
    have hstep : (s.step i).memWbQ = s.memOut i := next_of_clear rfl hclr
    cases hout : s.memOut i with
    | none => exact .empties hclr hout (hstep.trans hout)
    | some w =>
      obtain ⟨m, hm, hdone, rfl⟩ := memOut_eq_some.mp hout
      exact .enters m hclr hm hdone (hstep.trans hout)
  | false =>
    obtain ⟨-, hsome, hbsy⟩ := inClear_eq_false.mp hclr
    obtain ⟨w, hw⟩ := isSome_iff_exists.mp hsome
    exact .stays w (by simpa using hbsy) hclr hw ((next_of_held rfl hclr).trans hw)

/-- MEM, when it holds something after the edge. -/
theorem mem_cases {m : ExMemPacket} (hm : (s.step i).exMemQ = some m) :
    (∃ d, s.exFires i = some d ∧ m = s.exMemIn i d) ∨
      (s.exFires i = none ∧ s.mem i = some m ∧ s.exMemOutClear i = false) := by
  cases memNext s i with
  | enters d hd hnxt => exact .inl ⟨d, hd, mem_unique hm hnxt⟩
  | empties _ hnxt => cases hnxt.symm.trans hm
  | stays m' hfires hmem hout hnxt =>
    obtain rfl := mem_unique hnxt hm
    exact .inr ⟨hfires, hmem, hout⟩

theorem mem_empty (hfires : s.exFires i = none)
    (hout : ∀ m, s.mem i = some m → s.exMemOutClear i) : (s.step i).exMemQ = none := by
  cases hm : (s.step i).exMemQ with
  | none => rfl
  | some m =>
  rcases mem_cases hm with ⟨d, hd, -⟩ | ⟨-, hmem, hheld⟩
  · rw [hfires] at hd
    cases hd
  · rw [hout m hmem] at hheld
    cases hheld

/-- WB, when it holds something after the edge. -/
theorem wb_cases {w : MemWbPacket} (hw : (s.step i).memWbQ = some w) :
    (∃ m, s.memWbInClear ∧ s.mem i = some m ∧ s.memoryComplete i m ∧ w = s.memWbIn i m) ∨
      (s.csrBusy ∧ s.memWbInClear = false ∧ s.memWbQ = some w) := by
  cases wbNext s i with
  | enters m hclr hmem hdone hnxt =>
    exact .inl ⟨m, hclr, hmem, hdone, mem_unique hw hnxt⟩
  | empties _ _ hnxt => cases hnxt.symm.trans hw
  | stays w' hbsy hheld hq hnxt =>
    obtain rfl := mem_unique hnxt hw
    exact .inr ⟨hbsy, hheld, hq⟩

theorem memWbInClear_iff : s.memWbInClear ↔ s.memWbQ = none ∨ s.csrBusy = false := by
  cases hw : s.memWbQ <;> cases hb : s.csrBusy <;> simp [memWbInClear, inClear, hw, hb]

/-- The dispatch register, when it holds something after the edge. -/
theorem dispatch_cases {d : DispatchPacket} (h : (s.step i).dispatchQ = some d) :
    s.flushIdEx i = false ∧ ((∃ f, s.dispatches i = some f ∧ d = dispatchIn i f) ∨
        (s.dispatches i = none ∧ s.dispatchQ = some d ∧ s.execAccept i = false)) := by
  change s.dispatchNext i = some d at h
  rw [dispatchNext] at h
  split_ifs at h with hfl hclr hacc
  · obtain ⟨f, hf, rfl⟩ := Option.map_eq_some_iff.mp h
    exact ⟨by simpa using hfl, .inl ⟨f, hf, rfl⟩⟩
  · refine ⟨by simpa using hfl, .inr ⟨?_, h, by simpa using hacc⟩⟩
    simp [dispatches, hclr]

theorem dispatches_eq_some {f : FetchPacket} (h : s.dispatches i = some f) :
    s.ifIdQ = some f ∧ s.hardFlush i = false ∧ s.flushIdEx i = false ∧ s.canDispatch i ∧
      s.csrActiveQ = false ∧ s.fenceActiveQ = false ∧ i.bpDecodeStallI = false := by
  rw [dispatches] at h
  split_ifs at h with hgo
  simp only [decodeClear, and_eq_true, or_eq_true, Bool.not_eq_true'] at hgo
  obtain ⟨⟨hclr, hfl⟩, hstall⟩ := hgo
  obtain ⟨hhard, hf⟩ := out_eq_some.mp h
  rcases hclr with hclr | ⟨⟨hcan, hcsr⟩, hfen⟩
  · rw [hfl] at hclr
    cases hclr
  · exact ⟨hf, hhard, hfl, hcan, hcsr, hfen, hstall⟩

theorem ifId_cases {f : FetchPacket} (h : (s.step i).ifIdQ = some f) :
    s.hardFlush i = false ∧ (s.fetchOut i = some f ∨ s.ifIdQ = some f) := by
  change Stage.next _ _ _ _ = _ at h
  rw [Stage.next] at h
  split_ifs at h with hfl hclr
  · exact ⟨by simpa using hfl, .inl h⟩
  · exact ⟨by simpa using hfl, .inr h⟩

/-! ### Instructions that run alone -/

end ScalarState

/-- An instruction that serializes the pipeline: `ex_serializing`. -/
def DecodeParams.serial (p : DecodeParams) (instr : BitVec 32) : Bool :=
  ((p.decodeTop instr).system && rvFunct3 instr == 0b000) || (p.decodeTop instr).illegal ||
    instr == instrEbreak || instr == instrEcall

/-- A CSR access. -/
def DecodeParams.csrOp (p : DecodeParams) (instr : BitVec 32) : Bool :=
  (p.decodeTop instr).system && rvFunct3 instr != 0b000

section Kinds

variable {p : ScalarParams} {d : DispatchPacket} {instr : BitVec 32}

theorem DispatchPacket.csrSelected_eq : d.csrSelected p = p.decode.csrOp d.instr := by
  cases hs : (p.decode.decodeTop d.instr).system with
  | false => simp [csrSelected, op, csrOp, hs]
  | true => simp [csrSelected, op, csrOp, hs, (decodeTop_system hs).2.2.2.2]

theorem DispatchPacket.serializing_eq : d.serializing p = p.decode.serial d.instr := by
  rw [serializing, csrSelected_eq, serial, csrOp, op, ebreak, ecall, bne]
  generalize (rvFunct3 d.instr == 0b000) = plain
  cases (p.decode.decodeTop d.instr).system <;> cases plain <;> rfl

/-- Every instruction of the system opcode is one or the other. -/
theorem solo_of_system (h : rvOpcode instr = opcodeSystem) :
    p.decode.serial instr ∨ p.decode.csrOp instr := by
  have hill := (@decodeTop_of_system p.decode instr h).2.2
  rw [serial, csrOp, bne, hill]
  generalize (rvFunct3 instr == 0b000) = plain
  cases (p.decode.decodeTop instr).system <;> cases plain <;> simp

theorem rvOpcode_of_sfenceVma (h : isSfenceVma instr) : rvOpcode instr = opcodeSystem := by
  have hlow := congrArg (BitVec.extractLsb' 0 7) (beq_iff_eq.mp h)
  rw [BitVec.extractLsb'_and] at hlow
  exact (BitVec.and_allOnes (x := rvOpcode instr)).symm.trans hlow

/-- Neither has an operation of the load/store unit. -/
theorem lsu_of_solo (h : p.decode.serial instr ∨ p.decode.csrOp instr) :
    (p.decode.decodeTop instr).lsu = none := by
  cases hl : (p.decode.decodeTop instr).lsu with
  | none => rfl
  | some op =>
    exfalso
    obtain ⟨hcls, -, hsys, -, hill⟩ := decodeTop_lsu hl
    have hne : ∀ x : BitVec 32, earlyClass x = .system → instr ≠ x := by
      rintro x hx rfl
      rw [hx] at hcls
      cases hcls
    have hebreak := hne instrEbreak (by decide)
    have hecall := hne instrEcall (by decide)
    simp [serial, csrOp, hsys, hill] at h
    exact h.elim hebreak hecall

end Kinds

/-- The instruction will trap whatever its unit does. -/
def ExMemPacket.Doomed (m : ExMemPacket) : Prop := m.instrMisaligned = true ∨ m.illegal = true

namespace ScalarState

variable {p : ScalarParams} {s : ScalarState p} {i : ScalarInput}

/-- The instruction must be alone in the back of the pipeline. -/
def solo (p : ScalarParams) (instr : BitVec 32) : Bool :=
  p.decode.serial instr || p.decode.csrOp instr

/-- What keeps other instructions away from such an instruction. -/
structure Held (s : ScalarState p) (instr : BitVec 32) : Prop where
  serial : p.decode.serial instr = true → s.serializingQ = true
  csr : p.decode.csrOp instr = true → s.csrActiveQ = true ∧ s.dispatchQ = none

/-- Nothing is in the core. -/
structure Quiet (s : ScalarState p) : Prop where
  fetch : s.fetch.Quiet
  ifId : s.ifIdQ = none
  dispatch : s.dispatchQ = none
  mem : s.exMemQ = none
  wb : s.memWbQ = none

/-- A shootdown of the page-table walker is under way. -/
def shootdown (s : ScalarState p) : Bool :=
  s.bus.bus.ptw.shootdownPending || s.bus.bus.ptw.shootdownInflight

/-- How the stages share the machine. -/
structure Pipe (s : ScalarState p) : Prop where
  csrDispatched : ∀ d, s.dispatchQ = some d → p.decode.csrOp d.instr = true → s.csrActiveQ = true
  memSolo : ∀ m, s.exMemQ = some m → solo p m.instr = true → s.memWbQ = none ∧ s.Held m.instr
  wbSolo : ∀ w, s.memWbQ = some w → solo p w.instr = true → s.exMemQ = none ∧ s.Held w.instr
  memIllegal : ∀ m, s.exMemQ = some m → (m.op p).illegal = true → m.illegal = true
  wbIllegal : ∀ w, s.memWbQ = some w → (p.decode.decodeTop w.instr).illegal = true →
    w.exception = true ∧ w.halt = false
  memReturn : ∀ m, s.exMemQ = some m → (m.mret = true → m.instr = instrMret) ∧
    (m.sret = true → m.instr = instrSret)
  wbReturn : ∀ w, s.memWbQ = some w → (w.mret = true → w.instr = instrMret) ∧
    (w.sret = true → w.instr = instrSret)
  /-- Behind a control that went another way than fetch the front end is empty. -/
  redirected : s.redirectDispatchFlushQ = true → s.dispatchQ = none ∧ s.ifIdQ = none ∧
    ∃ m op, s.exMemQ = some m ∧ (m.op p).br = some op
  empty : s.wfiSleepQ = true ∨ s.shootdown = true → s.Quiet
  busy : s.csrBusy = true → (∃ m, s.exMemQ = some m ∧ p.decode.csrOp m.instr = true) ∨
    ∃ w, s.memWbQ = some w ∧ p.decode.csrOp w.instr = true

theorem pipe_reset (powerUp : PtwState) : Pipe (reset powerUp : ScalarState p) where
  csrDispatched := fun _ h => by cases h
  memSolo := fun _ h => by cases h
  wbSolo := fun _ h => by cases h
  memIllegal := fun _ h => by cases h
  wbIllegal := fun _ h => by cases h
  memReturn := fun _ h => by cases h
  wbReturn := fun _ h => by cases h
  redirected := fun h => by cases h
  empty := fun h => by rcases h with h | h <;> cases h
  busy := fun h => by cases h

/-! ### Consequences for a cycle -/

section Cycle

variable (h : s.Pipe)
include h

theorem Pipe.noSleep_of_mem (hm : s.exMemQ ≠ none) : s.wfiSleepQ = false ∧ s.shootdown = false := by
  constructor
  · refine eq_false_of_ne_true fun hs => ?_
    exact absurd (h.empty (.inl hs)).mem hm
  · refine eq_false_of_ne_true fun hs => ?_
    exact absurd (h.empty (.inr hs)).mem hm

/-- No flush reaches MEM while WB is empty and something is in MEM. -/
theorem Pipe.noFlush_of_wb (hm : s.exMemQ ≠ none) (hw : s.memWbQ = none) :
    s.flushExMem i = false := by
  have hsleep := (h.noSleep_of_mem hm).1
  simp [flushExMem, hardFlushTrap, irqTake, wfiIrqTake, hsleep, retires_of_none hw]

/-- A CSR write that is still under way keeps every flush away. -/
theorem Pipe.noFlush_of_busy (hbsy : s.csrBusy) : s.flushExMem i = false := by
  have hsleep : s.wfiSleepQ = false := by
    refine eq_false_of_ne_true fun hs => ?_
    have hq := h.empty (.inl hs)
    rcases h.busy hbsy with ⟨m, hm, -⟩ | ⟨w, hw, -⟩
    · rw [hq.mem] at hm
      cases hm
    · rw [hq.wb] at hw
      cases hw
  simp [flushExMem, hardFlushTrap, irqTake, wfiIrqTake, hsleep, retires_of_busy hbsy]

/-- Behind an instruction that runs alone nothing leaves EX. -/
theorem Pipe.exFires_of_solo (hsolo : (∃ m, s.exMemQ = some m ∧ solo p m.instr) ∨
    ∃ w, s.memWbQ = some w ∧ solo p w.instr) : s.exFires i = none := by
  have hheld : ∀ instr, solo p instr → s.Held instr → s.exFires i = none := by
    intro instr hkind hheld
    cases hd : s.exFires i with
    | none => rfl
    | some d =>
      have hgoes := goes_of_fires hd
      rcases or_eq_true_iff.mp hkind with hserial | hcsr
      · have hon := hheld.serial hserial
        rw [hgoes.notSerializing] at hon
        cases hon
      · have hnone := (hheld.csr hcsr).2
        rw [hgoes.dispatched] at hnone
        cases hnone
  rcases hsolo with ⟨m, hm, hkind⟩ | ⟨w, hw, hkind⟩
  · exact hheld _ hkind (h.memSolo m hm hkind).2
  · exact hheld _ hkind (h.wbSolo w hw hkind).2

end Cycle

/-- What restarts the core after a WFI, a fence of the translation or a write of SATP is
alone in the pipeline. -/
theorem solo_of_restart (hr : s.retires isTranslationFence ∨
    s.retires isWfi) : ∃ w, s.memWbQ = some w ∧ solo p w.instr := by
  have hsystem : ∀ w : MemWbPacket, w.isTranslationFence ∨ w.isWfi →
      rvOpcode w.instr = opcodeSystem := by
    intro w hw
    rcases hw with hw | hw
    · rcases or_eq_true_iff.mp hw with hw | hw
      · exact rvOpcode_of_sfenceVma (and_eq_true_iff.mp hw).2
      · simp only [isSatpWrite, isCsr, and_eq_true, beq_iff_eq] at hw
        exact hw.1.1.1.1
    · simp only [isWfi, and_eq_true, beq_iff_eq] at hw
      rw [hw.2]
      decide
  have hsome : ∃ w, s.memWbQ = some w ∧ (w.isTranslationFence ∨ w.isWfi) := by
    rcases hr with hr | hr
    · obtain ⟨-, w, hw, hf⟩ := retires_iff.mp hr
      exact ⟨w, hw, .inl hf⟩
    · obtain ⟨-, w, hw, hf⟩ := retires_iff.mp hr
      exact ⟨w, hw, .inr hf⟩
  obtain ⟨w, hw, hf⟩ := hsome
  refine ⟨w, hw, ?_⟩
  rcases @solo_of_system p _ (hsystem w hf) with hk | hk
  · exact or_eq_true_iff.mpr (.inl hk)
  · exact or_eq_true_iff.mpr (.inr hk)

/-! ### The step -/

theorem retires_of_idle {f : MemWbPacket → Bool} (h : s.retiring = none) : s.retires f = false := by
  rw [retires, h]
  rfl

theorem retiring_of_none (h : s.memWbQ = none) : s.retiring = none := by
  rw [retiring, h, ite_self]

theorem retiring_of_busy (h : s.csrBusy) : s.retiring = none := by
  rw [retiring, if_pos h]

/-- With nothing to retire only a redirect can flush EX. -/
theorem flushIdEx_of_idle (hfl : s.flushExMem i = false) (hret : s.retiring = none)
    (hredir : s.redirectDispatchFlushQ = false) : s.flushIdEx i = false := by
  simp [flushIdEx, hfl, hardFlushRestart, retires_of_idle hret, hredir]

theorem mem_goes {m : ExMemPacket} (hm : s.mem i = some m) :
    (s.exFires i = none ∧ s.exMemOutClear i = false ∧ (s.step i).exMemQ = some m) ∨
      (s.memWbInClear ∧ s.memoryComplete i m ∧ (s.step i).memWbQ = some (s.memWbIn i m)) := by
  obtain ⟨hfl, hq⟩ := mem_eq_some.mp hm
  cases hout : s.exMemOutClear i with
  | false =>
    have hclr : s.exMemInClear i = false := inClear_eq_false.mpr ⟨hfl, by rw [hq]; rfl, hout⟩
    refine .inl ⟨?_, rfl, (next_of_held hfl hclr).trans hq⟩
    cases hd : s.exFires i with
    | none => rfl
    | some d =>
      have hopen := (goes_of_fires hd).clear
      rw [hclr] at hopen
      cases hopen
  | true =>
    rw [exMemOutClear, memIs_of hm, and_eq_true] at hout
    refine .inr ⟨hout.1, hout.2, (next_of_clear rfl hout.1).trans ?_⟩
    exact memOut_eq_some.mpr ⟨m, hm, hout.2, rfl⟩

theorem execAccept_of_fires {d : DispatchPacket} (hd : s.exFires i = some d)
    (hunit : s.unitReady i d.instr) : s.execAccept i := by
  obtain ⟨hq, -, hrdy⟩ := exFires_eq_some.mp hd
  rw [execAccept, hq]
  exact and_eq_true_iff.mpr ⟨hrdy, hunit⟩

theorem exUnitReady_of_goes {d : DispatchPacket} (h : Goes s i d) : s.exUnitReady i := by
  simp [exUnitReady, h.clear, h.notSerializing, h.notBusy]

/-- A control that leaves EX leaves the dispatch register. -/
theorem execAccept_of_control {d : DispatchPacket} (hd : s.exFires i = some d)
    (hctl : (d.op p).control) : s.execAccept i := by
  have hctl' : (p.decode.decodeTop d.instr).control := hctl
  refine execAccept_of_fires hd ?_
  simp only [unitReady, hctl', if_true]
  exact exUnitReady_of_goes (goes_of_fires hd)

/-- So does a CSR access. -/
theorem execAccept_of_csr {d : DispatchPacket} (hd : s.exFires i = some d)
    (hcsr : p.decode.csrOp d.instr) : s.execAccept i := by
  have hgoes := goes_of_fires hd
  have hsystem := (and_eq_true_iff.mp hcsr).1
  obtain ⟨-, hlsu, hbr, -, -⟩ := decodeTop_system hsystem
  have hneeds : d.requiresDrain p := by
    simp [requiresDrain, csrSelected_eq, hcsr]
  obtain ⟨hmem, hwb⟩ := hgoes.drained hneeds
  refine execAccept_of_fires hd ?_
  simp [unitReady, ScalarOp.control, hbr, hlsu, hsystem, serialIssueReady, pipelineEmpty, hmem,
    hwb, hgoes.clear, hgoes.notSerializing, hgoes.notBusy, hgoes.unit]

theorem dispatch_of_accept (hacc : s.execAccept i) (hnone : s.dispatches i = none) :
    (s.step i).dispatchQ = none := by
  change s.dispatchNext i = none
  simp [dispatchNext, hacc, hnone]

/-- Nothing follows a CSR access into the dispatch register. -/
theorem dispatches_of_csr (h : s.csrActiveQ) : s.dispatches i = none := by
  cases hf : s.dispatches i with
  | none => rfl
  | some f =>
    have hclr := (dispatches_eq_some hf).2.2.2.2.1
    rw [h] at hclr
    cases hclr

theorem csrActive_of_idle (hact : s.csrActiveQ) (hfl : s.flushIdEx i = false)
    (hret : s.retires isCsr = false) : (s.step i).csrActiveQ := by
  change s.csrActiveNext i
  simp [csrActiveNext, hfl, hact, hret]

/-- An instruction that must be alone keeps the others away from when it leaves EX. -/
theorem Pipe.held_enters (h : s.Pipe) {d : DispatchPacket} (hd : s.exFires i = some d)
    (hsolo : solo p d.instr) : (s.step i).memWbQ = none ∧ (s.step i).Held d.instr := by
  have hgoes := goes_of_fires hd
  have hfl := flushExMem_of_flushIdEx hgoes.noFlush
  have hneeds : d.requiresDrain p := by
    rw [requiresDrain, serializing_eq, csrSelected_eq]
    rw [solo] at hsolo
    simp [hsolo]
  obtain ⟨hmem, hwb⟩ := hgoes.drained hneeds
  have hret := retiring_of_none hwb
  constructor
  · have hclr : s.memWbInClear := memWbInClear_iff.mpr (.inl hwb)
    refine (next_of_clear rfl hclr).trans ?_
    simp [memOut, hmem]
  · refine ⟨fun hserial => ?_, fun hcsr => ?_⟩
    · change s.serializingNext i
      have hfires : s.firesIs i (serializing p) :=
        firesIs_iff.mpr ⟨d, hd, by rw [serializing_eq]; exact hserial⟩
      simp [serializingNext, hfl, hfires]
    · have hact := h.csrDispatched d hgoes.dispatched hcsr
      exact ⟨csrActive_of_idle hact hgoes.noFlush (retires_of_idle hret),
        dispatch_of_accept (execAccept_of_csr hd hcsr) (dispatches_of_csr hact)⟩

/-- It keeps them away until it retires. -/
theorem Held.stays {instr : BitVec 32} (h : s.Held instr) (hfl : s.flushExMem i = false)
    (hret : s.retiring = none) (hredir : s.redirectDispatchFlushQ = false) :
    (s.step i).Held instr := by
  have hfl' := flushIdEx_of_idle hfl hret hredir
  refine ⟨fun hserial => ?_, fun hcsr => ?_⟩
  · change s.serializingNext i
    simp [serializingNext, hfl, h.serial hserial, hret]
  · obtain ⟨hact, hnone⟩ := h.csr hcsr
    have hdispatches := @dispatches_of_csr _ s i hact
    refine ⟨csrActive_of_idle hact hfl' (retires_of_idle hret), ?_⟩
    change s.dispatchNext i = none
    rw [dispatchNext, hdispatches, hnone]
    split_ifs <;> rfl

theorem solo_of_control {instr : BitVec 32} {op : BrOp}
    (h : (p.decode.decodeTop instr).br = some op) : solo p instr = false := by
  obtain ⟨-, hsys, -, hill⟩ := decodeTop_br h
  have hcls : ∀ x : BitVec 32, earlyClass x = .system → (instr == x) = false := by
    refine fun x hx => beq_eq_false_iff_ne.mpr ?_
    rintro rfl
    simp [decodeTop, hx] at h
  have hebreak := hcls instrEbreak (by decide)
  have hecall := hcls instrEcall (by decide)
  simp only [solo, serial, csrOp, hsys, hill, hebreak, hecall, Bool.false_and, Bool.or_false]

section Step

variable (h : s.Pipe)
include h

theorem Pipe.noRedirect_of_solo {m : ExMemPacket} (hm : s.exMemQ = some m)
    (hsolo : solo p m.instr) : s.redirectDispatchFlushQ = false := by
  refine eq_false_of_ne_true fun hr => ?_
  obtain ⟨-, -, m', op, hm', hbr⟩ := h.redirected hr
  obtain rfl : m = m' := mem_unique hm hm'
  have hfree := solo_of_control hbr
  rw [hsolo] at hfree
  cases hfree

theorem Pipe.noRedirect_of_empty (hm : s.exMemQ = none) : s.redirectDispatchFlushQ = false := by
  refine eq_false_of_ne_true fun hr => ?_
  obtain ⟨-, -, m', op, hm', -⟩ := h.redirected hr
  rw [hm] at hm'
  cases hm'

theorem Pipe.step_memSolo : ∀ m, (s.step i).exMemQ = some m → solo p m.instr →
    (s.step i).memWbQ = none ∧ (s.step i).Held m.instr := by
  intro m hm hsolo
  rcases mem_cases hm with ⟨d, hd, rfl⟩ | ⟨-, hmem, hout⟩
  · exact h.held_enters hd hsolo
  obtain ⟨hfl, hq⟩ := mem_eq_some.mp hmem
  obtain ⟨hwb, hheld⟩ := h.memSolo _ hq hsolo
  refine ⟨?_, hheld.stays hfl (retiring_of_none hwb) (h.noRedirect_of_solo hq hsolo)⟩
  have hclr : s.memWbInClear := memWbInClear_iff.mpr (.inl hwb)
  rw [exMemOutClear, hclr, Bool.true_and, memIs_of hmem] at hout
  refine (next_of_clear rfl hclr).trans ?_
  simp [memOut, hmem, hout]

theorem Pipe.step_wbSolo : ∀ w, (s.step i).memWbQ = some w → solo p w.instr →
    (s.step i).exMemQ = none ∧ (s.step i).Held w.instr := by
  intro w hw hsolo
  rcases wb_cases hw with ⟨m, hclr, hmem, hdone, rfl⟩ | ⟨hbsy, -, hq⟩
  · have hsolo' : solo p m.instr := hsolo
    obtain ⟨hfl, hq⟩ := mem_eq_some.mp hmem
    obtain ⟨hwb, hheld⟩ := h.memSolo m hq hsolo'
    have hfires : s.exFires i = none := h.exFires_of_solo (.inl ⟨m, hq, hsolo'⟩)
    refine ⟨?_, hheld.stays hfl (retiring_of_none hwb) (h.noRedirect_of_solo hq hsolo')⟩
    refine mem_empty hfires fun m' hmem' => ?_
    obtain rfl := mem_unique hmem hmem'
    rw [exMemOutClear, hclr, memIs_of hmem, hdone, Bool.and_self]
  obtain ⟨hemp, hheld⟩ := h.wbSolo _ hq hsolo
  have hfires : s.exFires i = none := h.exFires_of_solo (.inr ⟨_, hq, hsolo⟩)
  refine ⟨?_, hheld.stays (h.noFlush_of_busy hbsy) (retiring_of_busy hbsy)
    (h.noRedirect_of_empty hemp)⟩
  cases memNext s i with
  | enters d hd _ => rw [hfires] at hd; cases hd
  | empties _ hemp' => exact hemp'
  | stays m' _ hmem' _ _ =>
    have hsome := (mem_eq_some.mp hmem').2
    rw [hemp] at hsome
    cases hsome

omit h in
/-- Such an instruction is trapped as illegal or for what goes before that, and does not
halt the core. -/
theorem trapped_of_doomed {m : ExMemPacket} (hdoomed : m.Doomed) :
    (s.memWbIn i m).exception ∧ (s.memWbIn i m).halt = false := by
  have hcause : ∃ cause tval, s.exceptCause i m = some (cause, tval) ∧ cause ≠ 3#5 := by
    rw [exceptCause]
    cases hmis : m.instrMisaligned with
    | true => exact ⟨0, m.instrBadaddr, by simp, by decide⟩
    | false =>
      have hill : m.illegal := by simpa [ExMemPacket.Doomed, hmis] using hdoomed
      cases m.accessFault
      · cases m.pageFault
        · exact ⟨2, m.instr.zeroExtend 64, by simp [hill], by decide⟩
        · exact ⟨12, m.pc, by simp, by decide⟩
      · exact ⟨1, m.pc, by simp, by decide⟩
  obtain ⟨cause, tval, hcause, hne⟩ := hcause
  refine ⟨by simp [memWbIn, hcause], ?_⟩
  have hoth : (some (cause, tval) == some ((3, 0) : BitVec 5 × BitVec 64)) = false :=
    beq_eq_false_iff_ne.mpr fun heq => hne (Prod.mk.inj (Option.some_inj.mp heq)).1
  rw [memWbIn, exceptHalt, hcause, hoth, Bool.false_and, Bool.false_and]

theorem Pipe.step_illegal : (∀ m, (s.step i).exMemQ = some m → (m.op p).illegal → m.illegal) ∧
      ∀ w, (s.step i).memWbQ = some w → (p.decode.decodeTop w.instr).illegal →
        w.exception ∧ w.halt = false := by
  constructor
  · intro m hm hill
    rcases mem_cases hm with ⟨d, -, rfl⟩ | ⟨-, hmem, -⟩
    · have hill' : (d.op p).illegal := hill
      simp [exMemIn, exIllegal, hill']
    · exact h.memIllegal _ (mem_eq_some.mp hmem).2 hill
  · intro w hw hill
    rcases wb_cases hw with ⟨m, -, hmem, -, rfl⟩ | ⟨-, -, hq⟩
    · exact trapped_of_doomed (.inr (h.memIllegal m (mem_eq_some.mp hmem).2 hill))
    · exact h.wbIllegal _ hq hill

theorem Pipe.step_return : (∀ m, (s.step i).exMemQ = some m → (m.mret → m.instr = instrMret) ∧
      (m.sret → m.instr = instrSret)) ∧
    ∀ w, (s.step i).memWbQ = some w → (w.mret → w.instr = instrMret) ∧
      (w.sret → w.instr = instrSret) := by
  constructor
  · intro m hm
    rcases mem_cases hm with ⟨d, -, rfl⟩ | ⟨-, hmem, -⟩
    · constructor <;>
        · intro hret
          exact beq_iff_eq.mp (and_eq_true_iff.mp hret).2
    · exact h.memReturn _ (mem_eq_some.mp hmem).2
  · intro w hw
    rcases wb_cases hw with ⟨m, -, hmem, -, rfl⟩ | ⟨-, -, hq⟩
    · exact h.memReturn m (mem_eq_some.mp hmem).2
    · exact h.wbReturn _ hq

/-- While a CSR access waits in EX no other one retires. -/
theorem Pipe.csr_waits {d : DispatchPacket} (hd : s.dispatchQ = some d)
    (hfl : s.flushIdEx i = false) : s.retires isCsr = false := by
  refine eq_false_of_ne_true fun hr => ?_
  exfalso
  obtain ⟨hbsy, w, hw, hcsr⟩ := retires_iff.mp hr
  obtain ⟨hopcode, hfunct⟩ := and_eq_true_iff.mp hcsr
  have hsystem : rvOpcode w.instr = opcodeSystem := beq_iff_eq.mp hopcode
  cases hop : p.decode.csrOp w.instr with
  | true =>
    have hsolo : solo p w.instr := or_eq_true_iff.mpr (.inr hop)
    have hnone := ((h.wbSolo w hw hsolo).2.csr hop).2
    rw [hd] at hnone
    cases hnone
  | false =>
    have hill : (p.decode.decodeTop w.instr).illegal := by
      rw [(@decodeTop_of_system p.decode _ hsystem).2.2]
      rw [csrOp, hfunct, Bool.and_true] at hop
      rw [hop]
      rfl
    obtain ⟨hexc, hhalt⟩ := h.wbIllegal w hw hill
    have htrap : s.hardFlushTrap := retires_iff.mpr ⟨hbsy, w, hw, by simp [hexc, hhalt]⟩
    simp [flushIdEx, flushExMem, htrap] at hfl

theorem Pipe.step_csrDispatched : ∀ d, (s.step i).dispatchQ = some d →
    p.decode.csrOp d.instr → (s.step i).csrActiveQ := by
  intro d hd hcsr
  change s.csrActiveNext i
  obtain ⟨hfl, ⟨f, hf, rfl⟩ | ⟨hnone, hq, -⟩⟩ := dispatch_cases hd
  · have hsystem : (p.decode.decodeTop f.instr).system ∧
        (rvFunct3 f.instr != 0b000) := and_eq_true_iff.mp hcsr
    simp only [csrActiveNext, hfl, hf, Option.map_some, Option.getD_some, hsystem.1, hsystem.2,
      Bool.and_self, if_true, if_low]
  · simp [csrActiveNext, hfl, hnone, h.csrDispatched d hq hcsr, h.csr_waits hq hfl]

omit h in
theorem step_redirected (hr : (s.step i).redirectDispatchFlushQ) :
    (s.step i).dispatchQ = none ∧ (s.step i).ifIdQ = none ∧
      ∃ m op, (s.step i).exMemQ = some m ∧ (m.op p).br = some op := by
  have hredir : s.hardFlushRedirect i := hr
  have hhard : s.hardFlush i := by simp [hardFlush, hredir]
  obtain ⟨d, hd, hgo⟩ := firesIs_iff.mp hredir
  have hctl : (d.op p).control := by
    simp only [redirects, targetMispredicts, or_eq_true, and_eq_true] at hgo
    rcases hgo with hgo | hgo
    · exact hgo.1.1.1
    · exact hgo.1.1.1
  have hnone : s.dispatches i = none := by
    simp [dispatches, ifId, out, hhard]
  refine ⟨dispatch_of_accept (execAccept_of_control hd hctl) hnone, next_of_flush hhard, ?_⟩
  obtain ⟨op, hop⟩ := isSome_iff_exists.mp hctl
  have hgoes := goes_of_fires hd
  refine ⟨s.exMemIn i d, op, ?_, hop⟩
  refine (next_of_clear (flushExMem_of_flushIdEx hgoes.noFlush) hgoes.clear).trans ?_
  rw [hd]
  rfl

omit h in
/-- An empty core stays empty while fetch takes no address. -/
theorem Quiet.step (hq : s.Quiet) (hpc : s.fetchPcValid i = false) : (s.step i).Quiet := by
  have hfires : s.exFires i = none := by
    cases hd : s.exFires i with
    | none => rfl
    | some d =>
      have hsome := (exFires_eq_some.mp hd).1
      rw [hq.dispatch] at hsome
      cases hsome
  have hmem : s.mem i = none := by
    cases hm : s.mem i with
    | none => rfl
    | some m =>
      have hsome := (mem_eq_some.mp hm).2
      rw [hq.mem] at hsome
      cases hsome
  have hifId : s.ifId i = none := by
    rw [ScalarState.ifId, hq.ifId, out, ite_self]
  have hredir : s.redirectFetch i = false := by
    simp [redirectFetch, hardFlushRedirect, firesIs, hfires, predictRedirect, branchAllocate,
      ifIdIs, hifId]
  have hdispatches : s.dispatches i = none := by rw [dispatches, hifId, ite_self]
  have hclr : s.memWbInClear := memWbInClear_iff.mpr (.inl hq.wb)
  refine ⟨hq.fetch.step hpc hredir, ?_, ?_, ?_, ?_⟩
  · cases hf : (s.step i).ifIdQ with
    | none => rfl
    | some f =>
      exfalso
      rcases (ifId_cases hf).2 with hout | hold
      · have hval : s.fetch.decodeValidO (s.fetchInput i) = false :=
          hq.fetch.decodeValidO hpc hredir
        simp [fetchOut, hval] at hout
      · rw [hq.ifId] at hold
        cases hold
  · change s.dispatchNext i = none
    rw [dispatchNext, hdispatches, hq.dispatch]
    split_ifs <;> rfl
  · exact mem_empty hfires fun m hm => by cases hmem.symm.trans hm
  · refine (next_of_clear rfl hclr).trans ?_
    simp [memOut, hmem]

/-- After a WFI, a fence of the translation or a write of SATP the core is empty. -/
theorem Pipe.quiet_of_restart (hr : s.retires isTranslationFence ∨
    s.retires isWfi) : (s.step i).Quiet := by
  obtain ⟨w, hw, hsolo⟩ := solo_of_restart hr
  have hmem : s.mem i = none := by
    cases hm : s.mem i with
    | none => rfl
    | some m =>
      have hsome := (mem_eq_some.mp hm).2
      rw [(h.wbSolo w hw hsolo).1] at hsome
      cases hsome
  have hbsy : s.csrBusy = false := by
    rcases hr with hr | hr
    · exact (retires_iff.mp hr).1
    · exact (retires_iff.mp hr).1
  have hrst : s.hardFlushRestart := by
    rcases hr with hr | hr <;> simp [hardFlushRestart, hr]
  have hhard := @hardFlush_of_restart _ s i hrst
  have hfl : s.flushIdEx i := by simp [flushIdEx, hrst]
  have hclr : s.memWbInClear := memWbInClear_iff.mpr (.inr hbsy)
  have hfires := @Pipe.exFires_of_solo _ s i h (.inr ⟨w, hw, hsolo⟩)
  refine ⟨?_, next_of_flush hhard, ?_, ?_, ?_⟩
  · have hinvalid : (s.fetchInput i).flushI := by
      change s.invalidateFetch i
      simp [invalidateFetch, hrst]
    change (s.fetch.step (s.fetchInput i)).Quiet
    rw [FetchState.step, if_pos hinvalid]
    exact FetchState.quiet_flushed
  · change s.dispatchNext i = none
    rw [dispatchNext, if_pos hfl]
  · exact mem_empty hfires fun m hm => by cases hmem.symm.trans hm
  · refine (next_of_clear rfl hclr).trans ?_
    simp [memOut, hmem]

omit h in
/-- A shootdown begins with the fence that asks for it. -/
theorem shootdown_step (hs : (s.step i).shootdown) : s.shootdown ∨
    s.retires isTranslationFence := by
  by_cases hfen : s.retires isTranslationFence
  · exact .inr hfen
  refine .inl ?_
  have hnone : s.retires MemWbPacket.isSfenceVma = false ∧ s.retires isSatpWrite = false := by
    cases hret : s.retiring with
    | none => exact ⟨retires_of_idle hret, retires_of_idle hret⟩
    | some w => simpa [retires, hret, isTranslationFence] using hfen
  by_contra hidle
  have hidle' : s.bus.bus.ptw.shootdownPending = false ∧
      s.bus.bus.ptw.shootdownInflight = false := by simpa [shootdown] using hidle
  have hs' : (s.bus.bus.ptw.shootdownPendingNext
        (s.bus.bus.ptwInput p.bus (s.bus.busInput (s.busEdge i))) ||
      s.bus.bus.ptw.shootdownInflightNext
        (s.bus.bus.ptwInput p.bus (s.bus.busInput (s.busEdge i)))) := hs
  simp [PtwState.shootdownPendingNext, PtwState.shootdownInflightNext, hidle'.1, hidle'.2,
    PtwState.shootdownReqFire, PtwState.shootdownIcxReqValid, GenBusState.ptwInput,
    CoreBusState.busInput, busEdge, busInput, busPort, hnone.1, hnone.2] at hs'

theorem Pipe.step_empty (hnxt : (s.step i).wfiSleepQ ∨ (s.step i).shootdown) :
    (s.step i).Quiet := by
  have hnow : s.wfiSleepQ ∨ s.shootdown ∨ (s.retires isTranslationFence ∨ s.retires isWfi) := by
    rcases hnxt with hsleep | hs
    · cases hnow : s.wfiSleepQ with
      | true => exact .inl rfl
      | false =>
        have hsleep' : (if s.wfiSleepQ then !s.csrWfiWake i
            else s.retires isWfi && !s.csrWfiWake i) = true := hsleep
        rw [hnow, if_low, and_eq_true] at hsleep'
        exact .inr (.inr (.inr hsleep'.1))
    · rcases shootdown_step hs with hs | hfen
      · exact .inr (.inl hs)
      · exact .inr (.inr (.inl hfen))
  rcases hnow with hsleep | hs | hrst
  · exact (h.empty (.inl hsleep)).step (by simp [fetchPcValid, hsleep])
  · refine (h.empty (.inr hs)).step ?_
    have hbarrier : s.translationBarrierBusy := by
      rw [shootdown] at hs
      rw [translationBarrierBusy, Bool.or_assoc, hs, Bool.or_true]
    simp [fetchPcValid, hbarrier]
  · exact h.quiet_of_restart hrst

omit h in
/-- Only a write makes the CSR block busy. -/
theorem csrBusy_step (hb : (s.step i).csrBusy) : s.csrBusy ∨ s.firesIs i (s.csrUnitWrite i) := by
  by_contra hneither
  rw [not_or] at hneither
  have hidle : (s.csr.pmp.busyQ = false ∧ s.csr.satp.satpBusyQ = false) ∧
      s.csr.hpm.hpmWriteBusyQ = false := by
    simpa [csrBusy, PmpState.csrBusyO] using hneither.1
  have hwr : s.csr.csrWriteAccept (s.csrInput i) = false := by
    have hport : (s.csrInput i).csrWriteI = false := Bool.eq_false_iff.mpr hneither.2
    simp [csrWriteAccept, hport]
  have hpmp : (s.csr.pmp.step (s.csr.pmpPort (s.csrInput i))).busyQ = false := by
    have hport : (s.csr.pmpPort (s.csrInput i)).csrWriteI = false := by
      simp [pmpPort, pmpInput, pmpCsrWrite, hwr]
    simp [PmpState.step, hidle.1.1, PmpState.pmpaddrStart, hport]
  have hsatp : (s.csr.satpStep (s.csrInput i)).satpBusyQ = false := by
    simp [satpStep, hidle.1.2, satpStart, satpWriteRequest, hwr]
  have hhpm : (s.csr.hpmStep (s.csrInput i)).hpmWriteBusyQ = false := by
    simp [hpmStep, hidle.2, hpmWriteStart, hpmWriteRequest, hwr]
  have hnxt : ((s.csr.pmp.step (s.csr.pmpPort (s.csrInput i))).busyQ ||
      (s.csr.satpStep (s.csrInput i)).satpBusyQ ||
      (s.csr.hpmStep (s.csrInput i)).hpmWriteBusyQ) := hb
  rw [hpmp, hsatp, hhpm] at hnxt
  cases hnxt

theorem Pipe.step_busy (hb : (s.step i).csrBusy) :
    (∃ m, (s.step i).exMemQ = some m ∧ p.decode.csrOp m.instr) ∨
      ∃ w, (s.step i).memWbQ = some w ∧ p.decode.csrOp w.instr := by
  rcases csrBusy_step hb with hbsy | hwr
  · rcases h.busy hbsy with ⟨m, hm, hcsr⟩ | ⟨w, hw, hcsr⟩
    · have hmem : s.mem i = some m := mem_eq_some.mpr ⟨h.noFlush_of_busy hbsy, hm⟩
      rcases mem_goes hmem with ⟨-, -, hnxt⟩ | ⟨-, -, hnxt⟩
      · exact .inl ⟨m, hnxt, hcsr⟩
      · exact .inr ⟨_, hnxt, hcsr⟩
    cases wbNext s i with
    | enters m hclr _ _ _ =>
      rcases memWbInClear_iff.mp hclr with hnone | hidle
      · rw [hw] at hnone; cases hnone
      · rw [hbsy] at hidle; cases hidle
    | empties hclr _ _ =>
      rcases memWbInClear_iff.mp hclr with hnone | hidle
      · rw [hw] at hnone; cases hnone
      · rw [hbsy] at hidle; cases hidle
    | stays w' _ _ hq hnxt =>
      obtain rfl := mem_unique hw hq
      exact .inr ⟨w, hnxt, hcsr⟩
  obtain ⟨d, hd, hunit⟩ := firesIs_iff.mp hwr
  have hcsr : p.decode.csrOp d.instr := by
    rw [← csrSelected_eq]
    simp only [csrUnitWrite, and_eq_true] at hunit
    exact hunit.1.1.1.1
  have hgoes := goes_of_fires hd
  refine .inl ⟨s.exMemIn i d, ?_, hcsr⟩
  refine (next_of_clear (flushExMem_of_flushIdEx hgoes.noFlush) hgoes.clear).trans ?_
  rw [hd]
  rfl

/-- The stages go on sharing the machine. -/
theorem Pipe.step : (s.step i).Pipe where
  csrDispatched := h.step_csrDispatched
  memSolo := h.step_memSolo
  wbSolo := h.step_wbSolo
  memIllegal := h.step_illegal.1
  wbIllegal := h.step_illegal.2
  memReturn := h.step_return.1
  wbReturn := h.step_return.2
  redirected := step_redirected
  empty := h.step_empty
  busy := h.step_busy

end Step

end ScalarState

end OpenRV64
