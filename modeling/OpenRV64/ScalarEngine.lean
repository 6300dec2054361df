/-
The data access of the one-wide core: while the atomic unit or the engine of the bus is at
work its instruction waits in MEM, nothing is in WB, and no flush can come.
-/
import OpenRV64.ScalarPath

namespace OpenRV64

open AmoState ExMemPacket GenBusState
open LsuRequest (captured)

/-! ### Which operations reach memory -/

theorem plain_of_ite {c : Prop} [Decidable c] {b : Bool} {a op : LsuOp} {rest : Option LsuOp}
    (ha : a.plain = b) (hrest : rest = some op → op.plain = b)
    (h : (if c then some a else rest) = some op) : op.plain = b := by
  by_cases hc : c
  · rw [if_pos hc] at h
    rw [← Option.some_inj.mp h]
    exact ha
  · rw [if_neg hc] at h
    exact hrest h

theorem decodeLsu_plain {enableRv64a : Bool} {instr : BitVec 32} {op : LsuOp}
    (h : decodeLsu enableRv64a instr = some op) : op.plain = !(rvOpcode instr == opcodeAmo) := by
  rw [decodeLsu] at h
  by_cases hload : (rvOpcode instr == opcodeLoad)
  · rw [if_pos hload] at h
    rw [beq_iff_eq.mp hload]
    repeat refine plain_of_ite rfl (fun h => ?_) h
    cases h
  rw [if_neg hload] at h
  by_cases hstr : (rvOpcode instr == opcodeStore)
  · rw [if_pos hstr] at h
    rw [beq_iff_eq.mp hstr]
    repeat refine plain_of_ite rfl (fun h => ?_) h
    cases h
  rw [if_neg hstr] at h
  by_cases hamo : (rvOpcode instr == opcodeAmo)
  · rw [if_pos hamo] at h
    rw [hamo]
    by_cases hleg : (enableRv64a && (rvFunct3 instr == 0b010 || rvFunct3 instr == 0b011))
    · rw [if_pos hleg] at h
      by_cases hlr : (amoFunct5 instr == 0b00010)
      · rw [if_pos hlr] at h
        refine plain_of_ite rfl (fun h => ?_) h
        cases h
      · rw [if_neg hlr] at h
        repeat refine plain_of_ite rfl (fun h => ?_) h
        cases h
    · rw [if_neg hleg] at h
      cases h
  · rw [if_neg hamo] at h
    cases h

namespace ExMemPacket

variable {p : ScalarParams} {m : ExMemPacket}

theorem lsu_of_memory (h : m.memory p) : (m.op p).lsu = some (m.lsuOp p) ∧ m.illegal = false ∧
      ((m.lsuOp p).reads || (m.lsuOp p).writes) := by
  cases hop : (m.op p).lsu with
  | none => simp [memory, memRead, memWrite, ScalarOp.memRead, ScalarOp.memWrite, hop] at h
  | some op =>
    have hlsu : m.lsuOp p = op := by rw [lsuOp, hop]; rfl
    rw [hlsu]
    simpa [memory, memRead, memWrite, ScalarOp.memRead, ScalarOp.memWrite, hop, and_comm] using h

section

variable {op : LsuOp} (h : (m.op p).lsu = some op)

include h

theorem decodeLsu_of : decodeLsu p.decode.enableRv64a m.instr = some op := by
  have hmem := (decodeTop_lsu h).1
  simpa [ExMemPacket.op, DecodeParams.decodeTop, hmem] using h

/-- An atomic is what the atomic unit knows, everything else what the plain unit knows. -/
theorem plain_eq : op.plain = !m.isAtomic := decodeLsu_plain (decodeLsu_of h)

theorem not_solo : p.decode.csrOp m.instr = false ∧ ScalarState.solo p m.instr = false := by
  have hsolo : ScalarState.solo p m.instr = false := by
    refine eq_false_of_ne_true fun hsolo => ?_
    have hnone : (m.op p).lsu = none := lsu_of_solo (Bool.or_eq_true_iff.mp hsolo)
    rw [h] at hnone
    cases hnone
  exact ⟨(Bool.or_eq_false_iff.mp hsolo).2, hsolo⟩

end

end ExMemPacket

namespace AmoState

/-- The unit works on an operation at an address. -/
structure Serves (a : AmoState) (op : LsuOp) (addr : BitVec 64) : Prop where
  held : a.opQ = some op
  place : a.addrQ = addr
  read : a.stateQ = .read → op ≠ .sc
  write : a.stateQ = .write → op ≠ .lr
  clean : a.stateQ ≠ .done → a.misalignedQ = false ∧ a.accessFaultQ = false ∧ a.pageFaultQ = false

variable {a : AmoState} {i : AmoInput} {op : LsuOp} {addr : BitVec 64}

theorem Serves.of_done (hheld : a.opQ = some op) (hplc : a.addrQ = addr)
    (hdone : a.stateQ = .done) : a.Serves op addr := by
  refine ⟨hheld, hplc, fun h => ?_, fun h => ?_, fun h => absurd hdone h⟩ <;>
    · rw [hdone] at h
      cases h

theorem serves_start : (a.start i).Serves i.opSelI i.addrI := by
  cases hmis : accessMisaligned i.sizeSelI (i.addrI.extractLsb' 0 3) with
  | true => exact .of_done rfl rfl (by simp [start, hmis])
  | false =>
  by_cases hsc : i.opSelI = .sc
  · cases hres : a.reserved i with
    | false => exact .of_done rfl rfl (by simp [start, hmis, hsc, hres])
    | true =>
      refine ⟨rfl, rfl, fun h => ?_, fun _ => by rw [hsc]; decide, fun _ => ⟨hmis, rfl, rfl⟩⟩
      simp [start, hmis, hsc, hres] at h
  · refine ⟨rfl, rfl, fun _ => hsc, fun h => ?_, fun _ => ⟨hmis, rfl, rfl⟩⟩
    simp [start, hmis, hsc] at h

theorem Serves.readDone (h : a.Serves op addr) (hst : a.stateQ = .read) :
    (a.readDone i op).Serves op addr := by
  have hclean := h.clean (by rw [hst]; decide)
  unfold AmoState.readDone
  split_ifs with herr hflt hlr
  · exact .of_done h.held h.place rfl
  · exact .of_done h.held h.place rfl
  · exact .of_done h.held h.place rfl
  · have hop : op ≠ .lr := fun hop => hlr (by rw [hop]; rfl)
    exact ⟨h.held, h.place, fun h' => (by cases h'), fun _ => hop, fun _ => hclean⟩

theorem Serves.writeDone (h : a.Serves op addr) : (a.writeDone i op).Serves op addr :=
  .of_done h.held h.place rfl

/-- The unit with the reservation that a store of its own hart leaves. -/
def released (a : AmoState) (i : AmoInput) : AmoState :=
  { a with reservationValidQ := a.reservationValidQ && !i.clearReservationI }

theorem Serves.released (h : a.Serves op addr) : (a.released i).Serves op addr :=
  ⟨h.held, h.place, h.read, h.write, h.clean⟩

section

variable (hfl : i.flushI = false)

include hfl

theorem step_start (hst : a.stateQ = .idle) (hval : i.validI) : a.step i = a.start i := by
  simp [step, hfl, hst, hval]

theorem step_unasked (hst : a.stateQ = .idle)
    (hval : i.validI = false) : a.step i = a.released i := by
  simp [step, hfl, hst, hval, released]

theorem step_waits (hst : a.stateQ = .read ∨ a.stateQ = .write)
    (hrdy : i.memReadyI = false) : a.step i = a.released i := by
  rcases hst with hst | hst <;> simp [step, hfl, hst, hrdy, released]

theorem step_read (hst : a.stateQ = .read)
    (hrdy : i.memReadyI) (hheld : a.opQ = some op) : a.step i = (a.released i).readDone i op := by
  simp [step, hfl, hst, hrdy, hheld, released]

theorem step_write (hst : a.stateQ = .write) (hrdy : i.memReadyI) (hheld : a.opQ = some op) :
    a.step i = (a.released i).writeDone i op := by
  simp [step, hfl, hst, hrdy, hheld, released]

theorem step_done (hst : a.stateQ = .done) (hconsume : i.consumeI) : (a.step i).stateQ = .idle := by
  simp [step, hfl, hst, hconsume]

end

end AmoState

namespace ScalarState

variable {p : ScalarParams} {s : ScalarState p} {i : ScalarInput}

/-- The instruction in MEM has a request for the bus. -/
def wants (s : ScalarState p) (m : ExMemPacket) : Bool :=
  if m.isAtomic then m.memory p && (s.amo.stateQ == .read || s.amo.stateQ == .write)
  else m.lsuMemValid p

/-- The request is a write. -/
def wantsWrite (s : ScalarState p) (m : ExMemPacket) : Bool :=
  if m.isAtomic then s.amo.stateQ == .write else (m.lsuOp p).isStore

/-- Whom the units work for. -/
structure Engine (s : ScalarState p) : Prop where
  noPipe : s.bus.pipeActiveQ = false
  walk : WalkOwned p.bus s.bus.bus
  amo : s.amo.stateQ ≠ .idle → ∃ m, s.exMemQ = some m ∧ m.atomicMemAccess p = true ∧
    s.memWbQ = none ∧ s.amo.Serves (m.lsuOp p) m.badaddr
  busy : s.bus.bus.lsuBusy = true → ∃ m, s.exMemQ = some m ∧ s.memWbQ = none ∧
    s.wants m = true ∧ s.bus.bus.requestQ.write = s.wantsWrite m ∧
    ScalarHistory.Asks p m s.bus.bus.requestQ

theorem engine_reset (powerUp : PtwState) : Engine (reset powerUp : ScalarState p) where
  noPipe := rfl
  walk := walkOwned_reset powerUp
  amo h := absurd rfl h
  busy h := by cases h

theorem wants_memory {m : ExMemPacket} (h : s.wants m) : m.memory p := by
  rw [wants] at h
  split_ifs at h
  · exact (Bool.and_eq_true_iff.mp h).1
  · simp only [lsuMemValid, lsuMemAccess, Bool.and_eq_true] at h
    exact h.1.1.1

theorem execMemValid_of {m : ExMemPacket} (hm : s.mem i = some m) :
    s.execMemValid i = s.wants m := by
  rw [execMemValid, memIsAtomic, memIs_of hm, wants, memIs_of hm]
  split_ifs with hamo
  · rw [memValidO]
    simp [amoPort, memIs_of hm, atomicMemAccess, hamo]
  · rfl

theorem execMemValid_iff : s.execMemValid i ↔ ∃ m, s.mem i = some m ∧ s.wants m := by
  cases hm : s.mem i with
  | some m => simp [execMemValid_of hm]
  | none =>
    have hnone : s.execMemValid i = false := by
      simp [execMemValid, memIsAtomic, memIs, hm]
    simp [hnone]

/-- An instruction with a request is not done before the bus answers. -/
theorem complete_of_wants {m : ExMemPacket} (hwants : s.wants m) :
    s.memoryComplete i m = (!m.isAtomic && s.execMemReady i) := by
  rw [wants] at hwants
  rw [memoryComplete]
  cases hamo : m.isAtomic with
  | true =>
    rw [hamo, if_pos rfl, Bool.and_eq_true, Bool.or_eq_true] at hwants
    rw [if_pos rfl, completeO]
    rcases hwants.2 with hst | hst
    · have hph : s.amo.stateQ = .read := by simpa using hst
      simp [hph]
    · have hph : s.amo.stateQ = .write := by simpa using hst
      simp [hph]
  | false =>
    rw [hamo, if_low] at hwants
    have hparts := hwants
    simp only [lsuMemValid, Bool.and_eq_true, Bool.not_eq_true'] at hparts
    simp [hwants, hparts.1.1, hparts.1.2, hparts.2]

section Cycle

variable (h : s.Engine) (hpipe : s.Pipe)
include h

/-- The engine answers only a data access that is under way. -/
theorem Engine.ready_eq :
    s.bus.lsuReadyO p.bus (s.busInput i) = s.bus.genLsuReady p.bus (s.busInput i) := by
  rw [CoreBusState.lsuReadyO, h.noPipe, Bool.not_false, Bool.and_true]

theorem Engine.busy_of_ready (hrdy : s.bus.lsuReadyO p.bus (s.busInput i)) : s.bus.bus.lsuBusy := by
  rw [h.ready_eq] at hrdy
  exact lsuReadyO_busy hrdy

theorem Engine.taken_iff : s.bus.genLsuTaken (s.busInput i) ↔
    s.bus.bus.lsuFree (s.bus.busInput (s.busInput i)) ∧ s.execMemValid i ∧
      s.translationBarrierBusy = false := by
  have hval : (s.bus.busInput (s.busInput i)).lsuValidI =
      (s.execMemValid i && !s.translationBarrierBusy) := by
    change (s.bus.pipeActiveQ || _) = _
    rw [h.noPipe, Bool.false_or]
    rfl
  rw [CoreBusState.genLsuTaken, lsuTaken, hval]
  simp

include hpipe

/-- While the engine is busy no flush comes, and its answer reaches MEM. -/
theorem Engine.mem_of_busy (hbsy : s.bus.bus.lsuBusy) :
    ∃ m, s.mem i = some m ∧ s.memWbQ = none ∧ s.wants m ∧
      s.bus.bus.requestQ.write = s.wantsWrite m ∧ ScalarHistory.Asks p m s.bus.bus.requestQ ∧
      s.execMemReady i = s.bus.lsuReadyO p.bus (s.busInput i) := by
  obtain ⟨m, hm, hwb, hwants, hwr, hasks⟩ := h.busy hbsy
  have hsome : s.exMemQ ≠ none := by rw [hm]; exact Option.some_ne_none m
  refine ⟨m, mem_eq_some.mpr ⟨hpipe.noFlush_of_wb hsome hwb, hm⟩, hwb, hwants, hwr, hasks, ?_⟩
  have hshoot := (hpipe.noSleep_of_mem hsome).2
  rw [shootdown, Bool.or_eq_false_iff] at hshoot
  have hbarrier : s.translationBarrierBusy = false := by
    simp [translationBarrierBusy, retires_of_none hwb, hshoot.1, hshoot.2]
  rw [execMemReady, hbarrier, Bool.not_false, Bool.and_true]
  rfl

omit h hpipe in
/-- Behind an instruction that waits in MEM, WB becomes empty. -/
theorem Pipe.wb_clears (hpipe : s.Pipe) {m : ExMemPacket} (hm : s.mem i = some m)
    (hcsr : p.decode.csrOp m.instr = false) (hwait : s.memoryComplete i m = false) :
    (s.step i).exMemQ = some m ∧ (s.step i).memWbQ = none := by
  have hq := (mem_eq_some.mp hm).2
  constructor
  · rcases mem_goes hm with ⟨-, -, hnxt⟩ | ⟨-, hdone, -⟩
    · exact hnxt
    · rw [hwait] at hdone
      cases hdone
  · have hclr : s.memWbInClear := by
      refine memWbInClear_iff.mpr (.inr ?_)
      by_contra hbsy
      rcases hpipe.busy (by simpa using hbsy) with ⟨m', hm', hcsr'⟩ | ⟨w, hw, hcsr'⟩
      · obtain rfl := Option.mem_unique hq hm'
        rw [hcsr] at hcsr'
        cases hcsr'
      · have hnone := (hpipe.wbSolo w hw (Bool.or_eq_true_iff.mpr (.inr hcsr'))).1
        rw [hq] at hnone
        cases hnone
    refine (Stage.next_of_clear rfl hclr).trans ?_
    simp [memOut, hm, hwait]

omit h hpipe in
theorem amoInput_of {m : ExMemPacket} (hm : s.mem i = some m) :
    (s.amoInput i).flushI = false ∧ (s.amoInput i).validI = m.atomicMemAccess p ∧
      (s.amoInput i).opSelI = m.lsuOp p ∧ (s.amoInput i).addrI = m.badaddr := by
  refine ⟨(mem_eq_some.mp hm).1, memIs_of hm, ?_, ?_⟩
  · change (s.memPacket i).lsuOp p = _
    rw [memPacket_of hm]
  · change (s.memPacket i).badaddr = _
    rw [memPacket_of hm]

omit h hpipe in
theorem amo_idle_of_flush (hfl : s.flushExMem i) : (s.step i).amo.stateQ = .idle := by
  change (s.amo.step (s.amoInput i)).stateQ = .idle
  have hport : (s.amoInput i).flushI := hfl
  simp [AmoState.step, hport]

/-- The instruction in MEM while the atomic unit is at work. -/
theorem Engine.mem_of_amo (hst : s.amo.stateQ ≠ .idle) :
    ∃ m, s.mem i = some m ∧ m.atomicMemAccess p ∧ s.memWbQ = none ∧
      s.amo.Serves (m.lsuOp p) m.badaddr := by
  obtain ⟨m, hm, hamo, hwb, hserv⟩ := h.amo hst
  have hsome : s.exMemQ ≠ none := by rw [hm]; exact Option.some_ne_none m
  exact ⟨m, mem_eq_some.mpr ⟨hpipe.noFlush_of_wb hsome hwb, hm⟩, hamo, hwb, hserv⟩

/-- What the atomic unit has done leaves MEM at once. -/
theorem Engine.complete_of_done (hst : s.amo.stateQ = .done) : s.exMemOutClear i := by
  obtain ⟨m, hm, hamo, hwb, -⟩ := h.mem_of_amo hpipe (i := i) (by rw [hst]; decide)
  have hval : (s.amoPort i).validI := (memIs_of hm).trans hamo
  rw [exMemOutClear, memIs_of hm, memoryComplete, if_pos (Bool.and_eq_true_iff.mp hamo).2,
    completeO, memWbInClear_iff.mpr (.inl hwb), hst, hval]
  rfl

theorem Engine.consume_of_done (hst : s.amo.stateQ = .done) : (s.amoInput i).consumeI := by
  obtain ⟨m, hm, hamo, -, -⟩ := h.mem_of_amo hpipe (i := i) (by rw [hst]; decide)
  change (s.exMemOutClear i && s.memIsAtomic i)
  rw [h.complete_of_done hpipe hst, memIsAtomic, memIs_of hm, (Bool.and_eq_true_iff.mp hamo).2]
  rfl

omit h hpipe in
theorem csrOp_of_memory {m : ExMemPacket} (h : m.memory p) : p.decode.csrOp m.instr = false :=
  (not_solo (lsu_of_memory h).1).1

/-- A unit that is at work after the edge works for an instruction that stays in MEM. -/
theorem Engine.amo_waits (hnxt : (s.step i).amo.stateQ ≠ .idle) :
    ∃ m, s.mem i = some m ∧ m.atomicMemAccess p ∧ s.memoryComplete i m = false ∧
      (s.step i).amo.Serves (m.lsuOp p) m.badaddr := by
  have hfl : s.flushExMem i = false := by
    refine eq_false_of_ne_true fun hfl => ?_
    exact absurd (amo_idle_of_flush hfl) hnxt
  have hport : (s.amoInput i).flushI = false := hfl
  have hopen : ∀ m : ExMemPacket, m.atomicMemAccess p → s.amo.stateQ ≠ .done →
      s.memoryComplete i m = false := by
    intro m hatomic hst
    rw [memoryComplete, if_pos (Bool.and_eq_true_iff.mp hatomic).2, completeO]
    simp [hst]
  have hamo : (s.step i).amo = s.amo.step (s.amoInput i) := rfl
  rw [hamo] at hnxt ⊢
  cases hst : s.amo.stateQ with
  | idle =>
    cases hval : (s.amoInput i).validI with
    | false =>
      rw [step_unasked hport hst hval] at hnxt
      exact absurd hst hnxt
    | true =>
      obtain ⟨m, hm, hatomic⟩ := memIs_iff.mp (show s.memIs i _ from hval)
      obtain ⟨-, -, hop, haddr⟩ := amoInput_of hm
      refine ⟨m, hm, hatomic, hopen m hatomic (by rw [hst]; decide), ?_⟩
      rw [step_start hport hst hval, ← hop, ← haddr]
      exact serves_start
  | read =>
    obtain ⟨m, hm, hatomic, -, hserv⟩ := h.mem_of_amo hpipe (i := i) (by rw [hst]; decide)
    refine ⟨m, hm, hatomic, hopen m hatomic (by rw [hst]; decide), ?_⟩
    cases hrdy : (s.amoInput i).memReadyI with
    | false =>
      rw [AmoState.step_waits hport (.inl hst) hrdy]
      exact hserv.released
    | true =>
      rw [step_read hport hst hrdy hserv.held]
      exact hserv.released.readDone hst
  | write =>
    obtain ⟨m, hm, hatomic, -, hserv⟩ := h.mem_of_amo hpipe (i := i) (by rw [hst]; decide)
    refine ⟨m, hm, hatomic, hopen m hatomic (by rw [hst]; decide), ?_⟩
    cases hrdy : (s.amoInput i).memReadyI with
    | false =>
      rw [AmoState.step_waits hport (.inr hst) hrdy]
      exact hserv.released
    | true =>
      rw [step_write hport hst hrdy hserv.held]
      exact hserv.released.writeDone
  | done =>
    exact absurd (step_done hport hst (h.consume_of_done hpipe hst)) hnxt

theorem Engine.step_amo (hnxt : (s.step i).amo.stateQ ≠ .idle) :
    ∃ m, (s.step i).exMemQ = some m ∧ m.atomicMemAccess p ∧ (s.step i).memWbQ = none ∧
      (s.step i).amo.Serves (m.lsuOp p) m.badaddr := by
  obtain ⟨m, hm, hamo, hwait, hserv⟩ := h.amo_waits hpipe hnxt
  have hcsr := csrOp_of_memory (Bool.and_eq_true_iff.mp hamo).1
  obtain ⟨hmem, hwb⟩ := hpipe.wb_clears hm hcsr hwait
  exact ⟨m, hmem, hamo, hwb, hserv⟩

omit h hpipe in
/-- What the engine captures is what the instruction asks for. -/
theorem asks_captured {m : ExMemPacket} (hm : s.mem i = some m)
    (hamo : m.isAtomic → s.amo.addrQ = m.badaddr) :
    (s.execMemRequest i).captured.write = (if m.isAtomic then s.amo.memWriteO (s.amoPort i)
      else (m.lsuOp p).isStore) ∧ ScalarHistory.Asks p m (s.execMemRequest i).captured := by
  have hpacket := memPacket_of hm
  have hatomic : s.memIsAtomic i = m.isAtomic := memIs_of hm
  refine ⟨?_, ?_, fun hplain => ⟨?_, fun hwr => ?_⟩⟩
  · rw [captured, execMemRequest, hpacket, hatomic]
  · rw [captured, execMemRequest, hpacket, hatomic]
    cases hcase : m.isAtomic with
    | true => exact hamo hcase
    | false => rfl
  · rw [captured, execMemRequest, hpacket, hatomic, hplain]
    rfl
  · rw [captured] at hwr ⊢
    rw [if_pos hwr, if_pos hwr, execMemRequest, hpacket, hatomic, hplain]
    exact ⟨rfl, rfl⟩

omit hpipe in
theorem Engine.step_noPipe : (s.step i).bus.pipeActiveQ = false := by
  change s.bus.pipeActiveNext p.bus (s.busEdge i) = false
  have hdone : s.bus.pipeDone p.bus (s.busEdge i) = false := by
    rw [CoreBusState.pipeDone, h.noPipe, Bool.false_and]
  have hacc : s.bus.pipeAccept (s.busEdge i) = false := rfl
  rw [CoreBusState.pipeActiveNext, hdone, hacc, h.noPipe]
  split_ifs <;> rfl

omit h in
/-- A request that waits keeps its instruction, its unit and its direction. -/
theorem Pipe.step_waits {m : ExMemPacket} (hm : s.mem i = some m) (hwants : s.wants m)
    (hrdy : s.execMemReady i = false) : (s.step i).exMemQ = some m ∧
      (s.step i).memWbQ = none ∧ (s.step i).wants m ∧ (s.step i).wantsWrite m = s.wantsWrite m := by
  have hmemory := wants_memory hwants
  have hwait : s.memoryComplete i m = false := by
    rw [complete_of_wants hwants, hrdy, Bool.and_false]
  obtain ⟨hmem, hwb⟩ := hpipe.wb_clears hm (csrOp_of_memory hmemory) hwait
  have hkept : m.isAtomic → (s.step i).amo.stateQ = s.amo.stateQ := by
    intro hamo
    have hph : s.amo.stateQ = .read ∨ s.amo.stateQ = .write := by
      simpa [wants, hamo, hmemory] using hwants
    change (s.amo.step (s.amoInput i)).stateQ = _
    rw [AmoState.step_waits (mem_eq_some.mp hm).1 hph hrdy]
    rfl
  refine ⟨hmem, hwb, ?_, ?_⟩
  · rw [wants] at hwants ⊢
    cases hamo : m.isAtomic with
    | true =>
      rw [hamo] at hwants
      rw [hkept hamo]
      exact hwants
    | false => simpa [hamo] using hwants
  · rw [wantsWrite, wantsWrite]
    cases hamo : m.isAtomic with
    | true => rw [hkept hamo]
    | false => rfl

theorem Engine.step_busy (hnxt : (s.step i).bus.bus.lsuBusy) :
    ∃ m, (s.step i).exMemQ = some m ∧ (s.step i).memWbQ = none ∧ (s.step i).wants m ∧
      (s.step i).bus.bus.requestQ.write = (s.step i).wantsWrite m ∧
      ScalarHistory.Asks p m (s.step i).bus.bus.requestQ := by
  have hbus : (s.step i).bus.bus = s.bus.bus.step p.bus (s.bus.busInput (s.busEdge i)) := rfl
  rw [hbus] at hnxt ⊢
  cases hbsy : s.bus.bus.lsuBusy with
  | true =>
    obtain ⟨m, hm, -, hwants, hwr, hasks, hrdy⟩ := h.mem_of_busy hpipe (i := i) hbsy
    rw [h.ready_eq] at hrdy
    cases hdone : s.bus.bus.lsuReadyO p.bus (s.bus.busInput (s.busEdge i)) with
    | true =>
      rw [lsuBusy, h.walk.step_of_ready hdone] at hnxt
      cases hnxt
    | false =>
      obtain ⟨hmem, hwb, hwants', hwr'⟩ := hpipe.step_waits hm hwants (hrdy.trans hdone)
      have hkept := (step_of_busy hbsy hdone).2
      exact ⟨m, hmem, hwb, hwants', by rw [hkept, hwr, hwr'], by rw [hkept]; exact hasks⟩
  | false =>
  cases htaken : s.bus.bus.lsuTaken (s.bus.busInput (s.busEdge i)) with
  | false =>
    rw [step_of_not_taken hbsy htaken] at hnxt
    cases hnxt
  | true =>
    obtain ⟨-, hval, -⟩ := h.taken_iff.mp htaken
    obtain ⟨m, hm, hwants⟩ := execMemValid_iff.mp hval
    have hrdy : s.execMemReady i = false := by
      refine eq_false_of_ne_true fun hrdy => ?_
      have hbsy' := @Engine.busy_of_ready _ s i h (Bool.and_eq_true_iff.mp hrdy).1
      rw [hbsy] at hbsy'
      cases hbsy'
    obtain ⟨hmem, hwb, hwants', hwr'⟩ := hpipe.step_waits hm hwants hrdy
    have hamo : m.isAtomic → s.amo.addrQ = m.badaddr := by
      intro hatomic
      have hph : s.amo.stateQ ≠ .idle := by
        intro hidle
        simp [wants, hatomic, hidle] at hwants
      obtain ⟨m', hm', -, -, hserv⟩ := h.mem_of_amo hpipe (i := i) hph
      obtain rfl := Option.mem_unique hm hm'
      exact hserv.place
    obtain ⟨hwr, hasks⟩ := asks_captured hm hamo
    have hreq : (s.bus.bus.step p.bus (s.bus.busInput (s.busEdge i))).requestQ =
        (s.execMemRequest i).captured := by
      rw [(step_of_taken htaken).2.2]
      change (if s.bus.pipeActiveQ then s.bus.pipeQ else s.execMemRequest i).captured = _
      rw [h.noPipe]
      rfl
    refine ⟨m, hmem, hwb, hwants', ?_, by rw [hreq]; exact hasks⟩
    rw [hreq, hwr, hwr', wantsWrite]
    cases hatomic : m.isAtomic with
    | false => rfl
    | true =>
      have hport : (s.amoPort i).validI := by
        rw [show (s.amoPort i).validI = m.atomicMemAccess p from memIs_of hm,
          atomicMemAccess, wants_memory hwants, hatomic]
        rfl
      rw [if_pos rfl, if_pos rfl, memWriteO, hport, Bool.true_and]

theorem Engine.step : (s.step i).Engine where
  noPipe := h.step_noPipe
  walk := h.walk.step
  amo := h.step_amo hpipe
  busy := h.step_busy hpipe

end Cycle

end ScalarState

end OpenRV64
