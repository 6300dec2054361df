/-
The one-wide core performs every access once, for an instruction that retires or takes the
fault of the access, and saves the address of the next instruction when it is interrupted.
-/
import OpenRV64.ScalarEngine

namespace OpenRV64

open AmoState ExMemPacket MemWbPacket ScalarHistory ScalarState
open Bool (and_eq_true_iff and_eq_true)
open Option (mem_unique some_ne_none ne_none_iff_exists' isSome_iff_exists filter)

/-! ### What memory does for one instruction -/

/-- The accesses of one instruction, the most recent first: the direction of each and whether
it failed. -/
abbrev AccessTrace := List (Bool × Bool)

namespace AccessTrace

def Once (tr : AccessTrace) : Prop := ∀ write, tr.countP (fun x => x.1 == write) ≤ 1

/-- What an atomic does that does not fail, with its result. -/
def ofAtomic (op : LsuOp) (result : BitVec 64) : AccessTrace :=
  if op = .sc then if result = 0 then [(true, false)] else []
  else if op = .lr then [(false, false)]
  else [(true, false), (false, false)]

theorem once_nil : Once [] := fun _ => Nat.zero_le 1

theorem once_one (x : Bool × Bool) : Once [x] := fun _ => List.countP_le_length

theorem once_two (first second : Bool) : Once [(true, second), (false, first)] := by
  rintro (_ | _) <;> simp

theorem once_ofAtomic (op : LsuOp) (result : BitVec 64) : Once (ofAtomic op result) := by
  unfold ofAtomic
  split_ifs
  · exact once_one _
  · exact once_nil
  · exact once_one _
  · exact once_two _ _

end AccessTrace

namespace AmoState

open AccessTrace

variable {a : AmoState} {i : AmoInput} {op : LsuOp} {addr : BitVec 64} {before after : AccessTrace}

/-- What memory did for the operation that the unit has finished. -/
def Finished (a : AmoState) (op : LsuOp) (tr : AccessTrace) : Prop :=
  (a.misalignedQ = true ∧ tr = []) ∨
    (a.misalignedQ = false ∧ (a.accessFaultQ = true ∨ a.pageFaultQ = true) ∧ Once tr) ∨
    a.misalignedQ = false ∧ a.accessFaultQ = false ∧ a.pageFaultQ = false ∧
      tr = ofAtomic op a.resultQ

/-- What memory did so far. -/
def Did (a : AmoState) (op : LsuOp) (tr : AccessTrace) : Prop :=
  match a.stateQ with
  | .idle => tr = []
  | .read => tr = []
  | .write => tr = if op = .sc then [] else [(false, false)]
  | .done => a.Finished op tr

theorem Did.once {tr : AccessTrace} (h : a.Did op tr) : tr.Once := by
  rw [Did] at h
  cases hst : a.stateQ with
  | idle =>
    rw [hst] at h
    obtain rfl : tr = [] := h
    exact once_nil
  | read =>
    rw [hst] at h
    obtain rfl : tr = [] := h
    exact once_nil
  | write =>
    rw [hst] at h
    obtain rfl : tr = if op = .sc then [] else [(false, false)] := h
    split_ifs
    · exact once_nil
    · exact once_one _
  | done =>
    rw [hst] at h
    rcases h with ⟨-, rfl⟩ | ⟨-, -, honce⟩ | ⟨-, -, -, rfl⟩
    · exact once_nil
    · exact honce
    · exact once_ofAtomic _ _

/-- An answer of the bus: memory performed the access and reports whether it failed, or did
nothing and there is a fault. -/
inductive Answers (i : AmoInput) (write : Bool) (before : AccessTrace) : AccessTrace → Prop
  | performed : i.memPageFaultI = false → Answers i write before ((write, i.memErrorI) :: before)
  | refused : i.memErrorI = true ∨ i.memPageFaultI = true → Answers i write before before

theorem did_start : (a.start i).Did i.opSelI [] := by
  cases hmis : accessMisaligned i.sizeSelI (i.addrI.extractLsb' 0 3) with
  | true => simp [Did, start, hmis, Finished]
  | false =>
    by_cases hsc : i.opSelI = .sc
    · cases hres : a.reserved i <;> simp [Did, start, hmis, hsc, hres, Finished, ofAtomic]
    · simp [Did, start, hmis, hsc]

theorem Serves.did_readDone (h : a.Serves op addr) (hst : a.stateQ = .read)
    (hans : Answers i false [] after) : (a.readDone i op).Did op after := by
  obtain ⟨hmis, hacs, hpage⟩ := h.clean (by rw [hst]; decide)
  have hsc := h.read hst
  rw [AmoState.readDone]
  cases hans with
  | performed hflt =>
    cases herr : i.memErrorI with
    | true => exact .inr (.inl ⟨hmis, .inl rfl, once_one _⟩)
    | false =>
      by_cases hlr : op = .lr
      · simp [hflt, hlr, Did, Finished, hmis, hacs, hpage, ofAtomic]
      · simp [hflt, hlr, Did, hsc]
  | refused hflt =>
  cases herr : i.memErrorI with
  | true => exact .inr (.inl ⟨hmis, .inl rfl, once_nil⟩)
  | false =>
    rw [herr] at hflt
    have hpf : i.memPageFaultI := hflt.resolve_left Bool.false_ne_true
    rw [if_low, if_pos hpf]
    exact .inr (.inl ⟨hmis, .inr rfl, once_nil⟩)

theorem Serves.did_writeDone (h : a.Serves op addr) (hst : a.stateQ = .write)
    (hans : Answers i true (if op = .sc then [] else [(false, false)]) after) :
    (a.writeDone i op).Did op after := by
  obtain ⟨hmis, hacs, hpage⟩ := h.clean (by rw [hst]; decide)
  have hlr := h.write hst
  cases hans with
  | performed hflt =>
    cases herr : i.memErrorI with
    | true =>
      refine .inr (.inl ⟨hmis, .inl (by simp [AmoState.writeDone, herr]), ?_⟩)
      split_ifs
      · exact once_one _
      · exact once_two _ _
    | false =>
      refine .inr (.inr ⟨hmis, by simp [AmoState.writeDone, hacs, herr],
        by simp [AmoState.writeDone, hpage, hflt], ?_⟩)
      by_cases hsc : op = .sc
      · simp [ofAtomic, AmoState.writeDone, hsc, herr, hflt]
      · simp [ofAtomic, hsc, hlr]
  | refused hflt =>
    have hfaulted : (a.writeDone i op).accessFaultQ ∨ (a.writeDone i op).pageFaultQ := by
      cases herr : i.memErrorI with
      | true => exact .inl (by simp [AmoState.writeDone, herr])
      | false =>
        rw [herr] at hflt
        have hpf : i.memPageFaultI := hflt.resolve_left Bool.false_ne_true
        exact .inr (by simp [AmoState.writeDone, herr, hpf])
    refine .inr (.inl ⟨hmis, hfaulted, ?_⟩)
    split_ifs
    · exact once_nil
    · exact once_one _

end AmoState

namespace ExMemPacket

variable {p : ScalarParams} {m : ExMemPacket}

theorem accesses_of_memory (hmemory : m.memory p) (result : BitVec 64) (write : Bool) :
    m.accesses p result write =
      if (if write then (m.lsuOp p).writes && !((m.lsuOp p) == .sc && result != 0)
        else (m.lsuOp p).reads) then 1 else 0 := by
  cases write <;> simp [accesses, hmemory]

theorem count_ofAtomic (hmemory : m.memory p) (hatomic : (m.lsuOp p).plain = false)
    (result : BitVec 64) (write : Bool) :
    (AccessTrace.ofAtomic (m.lsuOp p) result).countP (fun x => x.1 == write) =
      m.accesses p result write := by
  rw [accesses_of_memory hmemory]
  generalize m.lsuOp p = op at hatomic ⊢
  by_cases hsc : op = .sc
  · subst hsc
    by_cases hres : result = 0#64 <;> cases write <;>
      simp [AccessTrace.ofAtomic, hres, LsuOp.writes, LsuOp.reads, LsuOp.isLoad, LsuOp.isAmo]
  by_cases hlr : op = .lr
  · subst hlr
    cases write <;> simp [AccessTrace.ofAtomic, LsuOp.writes, LsuOp.reads, LsuOp.isStore,
      LsuOp.isAmo]
  · have hamo : op.reads ∧ op.writes := by
      cases op <;> first | exact ⟨rfl, rfl⟩ | exact absurd rfl hsc | exact absurd rfl hlr |
        cases hatomic
    cases write <;> simp [AccessTrace.ofAtomic, hsc, hlr, hamo.1, hamo.2]

theorem count_plain (hmemory : m.memory p) (hplain : (m.lsuOp p).plain)
    (result : BitVec 64) (write : Bool) :
    ([((m.lsuOp p).isStore, false)] : AccessTrace).countP (fun x => x.1 == write) =
      m.accesses p result write := by
  rw [accesses_of_memory hmemory]
  generalize m.lsuOp p = op at hplain ⊢
  have hkind : op ≠ .sc ∧ op.reads = !op.isStore ∧ op.writes = op.isStore := by
    cases op <;> first | cases hplain; done | exact ⟨by decide, rfl, rfl⟩
  rw [hkind.2.1, hkind.2.2]
  cases op.isStore <;> cases write <;> simp [hkind.1]

end ExMemPacket

/-! ### The exception of a memory instruction -/

namespace ScalarState

variable {p : ScalarParams} {s : ScalarState p} {i : ScalarInput} {m : ExMemPacket}

/-- A memory instruction that was fetched is trapped for what its unit reports: a misaligned
address, an access fault or a page fault, of a load or of a store. -/
theorem exceptCause_memory (hmemory : m.memory p)
    (hsound : m.instrMisaligned = false ∧ m.accessFault = false ∧ m.pageFault = false)
    {load mis access page : Bool}
    (hmis : s.loadMisaligned m = (load && mis) ∧ s.storeMisaligned m = (!load && mis))
    (hacs : s.loadAccessFault i m = (load && access) ∧ s.storeAccessFault i m = (!load && access))
    (hpage : s.loadPageFault i m = (load && page) ∧ s.storePageFault i m = (!load && page)) :
    s.exceptCause i m =
      if mis then some (if load then 4 else 6, m.badaddr)
      else if access then some (if load then 5 else 7, m.badaddr)
      else if page then some (if load then 13 else 15, m.badaddr)
      else none := by
  obtain ⟨hlsu, hill, -⟩ := lsu_of_memory hmemory
  have hserial : p.decode.serial m.instr = false := (Bool.or_eq_false_iff.mp (not_solo hlsu).2).1
  simp only [DecodeParams.serial, Bool.or_eq_false_iff] at hserial
  have hebreak : m.ebreak = false := hserial.1.2
  have hecall : m.ecall = false := hserial.2
  rw [exceptCause, hsound.1, hsound.2.1, hsound.2.2, hill, hebreak, hecall, hmis.1, hmis.2,
    hacs.1, hacs.2, hpage.1, hpage.2]
  cases load <;> cases mis <;> cases access <;> cases page <;> rfl

/-- The flags of the atomic unit decide for an atomic. -/
theorem exceptCause_atomic (hatomic : m.atomicMemAccess p)
    (hsound : m.instrMisaligned = false ∧ m.accessFault = false ∧ m.pageFault = false) :
    s.exceptCause i m =
      if s.amo.misalignedQ then some (if isLr (p := p) m then 4 else 6, m.badaddr)
      else if s.amo.accessFaultQ then some (if isLr (p := p) m then 5 else 7, m.badaddr)
      else if s.amo.pageFaultQ then some (if isLr (p := p) m then 13 else 15, m.badaddr)
      else none := by
  obtain ⟨hmemory, hamo⟩ := and_eq_true_iff.mp hatomic
  refine exceptCause_memory hmemory hsound ?_ ?_ ?_
  · simp [loadMisaligned, storeMisaligned, hamo, hatomic]
  · simp [loadAccessFault, storeAccessFault, hamo]
  · simp [loadPageFault, storePageFault, hamo]

/-- The answer of the bus decides for a plain access. -/
theorem exceptCause_plain (hmemory : m.memory p) (hplain : m.isAtomic = false)
    (hsound : m.instrMisaligned = false ∧ m.accessFault = false ∧ m.pageFault = false) :
    s.exceptCause i m =
      if m.lsuMisaligned p then some (if (m.lsuOp p).isLoad then 4 else 6, m.badaddr)
      else if s.lsuBusError i then some (if (m.lsuOp p).isLoad then 5 else 7, m.badaddr)
      else if s.lsuPageFault i then some (if (m.lsuOp p).isLoad then 13 else 15, m.badaddr)
      else none := by
  obtain ⟨hlsu, -, -⟩ := lsu_of_memory hmemory
  have hop : (m.lsuOp p).plain := by rw [plain_eq hlsu, hplain]; rfl
  have hread : m.memRead p = (m.lsuOp p).isLoad := by
    rw [memRead, ScalarOp.memRead, hlsu]
    cases hcase : m.lsuOp p <;> rw [hcase] at hop <;> first | rfl | cases hop
  have hwr : m.memWrite p = !(m.lsuOp p).isLoad := by
    rw [memWrite, ScalarOp.memWrite, hlsu]
    cases hcase : m.lsuOp p <;> rw [hcase] at hop <;> first | rfl | cases hop
  refine exceptCause_memory hmemory hsound ?_ ?_ ?_
  · simp [loadMisaligned, storeMisaligned, hplain, hread, hwr, atomicMemAccess]
  · simp [loadAccessFault, storeAccessFault, hplain, hread, hwr]
  · simp [loadPageFault, storePageFault, hplain, hread, hwr]

theorem memWbIn_exception : (s.memWbIn i m).exception = (s.exceptCause i m).isSome := rfl

theorem memoryFault_of {load : Bool} (hcause : s.exceptCause i m =
      some (if load then 5 else 7, m.badaddr) ∨
    s.exceptCause i m = some (if load then 13 else 15, m.badaddr)) :
    (s.memWbIn i m).MemoryFault m := by
  rcases hcause with hcause | hcause <;> cases load <;>
    exact ⟨by simp [memWbIn, hcause], by simp [memWbIn, hcause]⟩

end ScalarState

/-! ### The ledger -/

namespace ScalarHistory

variable {h h' : ScalarHistory} {n : ℕ}

/-- What memory did for instruction `n`. -/
def trace (h : ScalarHistory) (n : ℕ) : AccessTrace :=
  (h.performed.filter fun a => a.no == n).map fun a => (a.request.write, a.error)

theorem count_eq (write : Bool) : h.count n write = (h.trace n).countP fun x => x.1 == write := by
  rw [count, trace, List.countP_map, List.countP_filter]
  congr 1
  funext a
  exact Bool.and_comm _ _

theorem trace_eq_nil : h.trace n = [] ↔ ∀ a ∈ h.performed, a.no ≠ n := by
  simp [trace, List.filter_eq_nil_iff]

theorem mem_trace {a : ScalarAccess} (ha : a ∈ h.performed) :
    (a.request.write, a.error) ∈ h.trace a.no :=
  List.mem_map.mpr ⟨a, List.mem_filter.mpr ⟨ha, by simp⟩, rfl⟩

/-- An instruction that has left MEM did what it had to. -/
structure Settled (p : ScalarParams) (h : ScalarHistory) (n : ℕ) (w : MemWbPacket) : Prop where
  instr : w.instr = (h.op n).instr
  once : (h.trace n).Once
  memory : h.trace n ≠ [] → (h.op n).memory p = true
  done : w.exception = false →
    (∀ write, h.count n write = (h.op n).accesses p w.data write) ∧ ∀ x ∈ h.trace n, x.2 = false
  faulted : w.exception = true → h.trace n ≠ [] → w.MemoryFault (h.op n)

section

variable {p : ScalarParams} {w : MemWbPacket}

theorem settled_idle (hinstr : w.instr = (h.op n).instr) (htrc : h.trace n = [])
    (hnone : w.exception = false → ∀ write, (h.op n).accesses p w.data write = 0) :
    h.Settled p n w where
  instr := hinstr
  once := by rw [htrc]; exact AccessTrace.once_nil
  memory hne := absurd htrc hne
  done hfine := ⟨fun write => by rw [count_eq, htrc, hnone hfine write]; rfl,
    by rw [htrc]; simp⟩
  faulted _ hne := absurd htrc hne

/-- An instruction that takes the fault of its access. -/
theorem settled_faulted (hinstr : w.instr = (h.op n).instr)
    (honce : (h.trace n).Once) (hmemory : (h.op n).memory p)
    (hexc : w.exception) (hflt : w.MemoryFault (h.op n)) : h.Settled p n w where
  instr := hinstr
  once := honce
  memory _ := hmemory
  done hfine := by rw [hexc] at hfine; cases hfine
  faulted _ _ := hflt

/-- It stays so as long as nothing is noted of it. -/
theorem Settled.congr (hs : h.Settled p n w)
    (hop : h'.op n = h.op n) (htrc : h'.trace n = h.trace n) : h'.Settled p n w where
  instr := by rw [hop]; exact hs.instr
  once := by rw [htrc]; exact hs.once
  memory := by rw [htrc, hop]; exact hs.memory
  done hw := by
    simp only [count_eq, htrc, hop] at hs ⊢
    simpa only [count_eq] using hs.done hw
  faulted := by rw [htrc, hop]; exact hs.faulted

end

end ScalarHistory

namespace ScalarTracked

variable {p : ScalarParams} {t : ScalarTracked p} {i : ScalarInput}

/-- The instruction in MEM, and what memory did for it. -/
structure Working (t : ScalarTracked p) (m : ExMemPacket) : Prop where
  op : t.hist.op t.hist.memNo = m
  issued : t.hist.memNo < t.hist.issued
  idle : m.atomicMemAccess p = false → t.hist.trace t.hist.memNo = []
  atomic : m.atomicMemAccess p = true → t.core.amo.Did (m.lsuOp p) (t.hist.trace t.hist.memNo)

/-- Instruction `n` came before everything that is in the pipeline. -/
structure Past (t : ScalarTracked p) (n : ℕ) : Prop where
  issued : n < t.hist.issued
  mem : t.core.exMemQ ≠ none → n < t.hist.memNo
  wb : t.core.memWbQ ≠ none → n < t.hist.wbNo

structure Ledger (t : ScalarTracked p) : Prop where
  pipe : t.core.Pipe
  path : t.core.Path
  engine : t.core.Engine
  start : t.core.resetPendingQ = true → t.core.memWbQ = none ∧ t.core.wfiSleepQ = false
  mem : ∀ m, t.core.exMemQ = some m → t.Working m
  wb : ∀ w, t.core.memWbQ = some w → t.hist.Settled p t.hist.wbNo w ∧
    t.hist.wbNo < t.hist.issued ∧ (t.core.exMemQ ≠ none → t.hist.wbNo < t.hist.memNo)
  past : ∀ n, 0 < t.hist.endings n → t.Past n
  ends : ∀ n, t.hist.endings n ≤ 1
  retired : ∀ e ∈ t.hist.retired, e.packet.exception = false ∧ t.hist.Settled p e.no e.packet
  trapped : ∀ e ∈ t.hist.trapped, e.packet.exception = true ∧ t.hist.Settled p e.no e.packet
  flushed : ∀ n ∈ t.hist.flushed, t.hist.trace n = []
  fresh : ∀ a ∈ t.hist.performed, a.no < t.hist.issued
  owned : ∀ a ∈ t.hist.performed, (∃ e ∈ t.hist.retired, e.no = a.no) ∨
    (∃ e ∈ t.hist.trapped, e.no = a.no) ∨ t.Present a.no
  asked : ∀ a ∈ t.hist.performed, Asks p (t.hist.op a.no) a.request
  busy : t.core.bus.bus.lsuBusy = true → t.hist.busyNo = t.hist.memNo
  answered : ∀ c ∈ t.hist.answered, c.2 = some c.1
  asleep : t.core.wfiSleepQ = true → t.core.pcQ = t.hist.nextPc
  interrupts : ∀ c ∈ t.hist.interrupts, c.1 = c.2

theorem ledger_reset (powerUp : PtwState) : Ledger (reset powerUp : ScalarTracked p) where
  pipe := pipe_reset powerUp
  path := path_reset powerUp
  engine := engine_reset powerUp
  start := fun _ => ⟨rfl, rfl⟩
  mem := fun _ h => by cases h
  wb := fun _ h => by cases h
  past := fun _ h => by cases h
  ends := fun _ => Nat.zero_le 1
  retired := fun _ h => by cases h
  trapped := fun _ h => by cases h
  flushed := fun _ h => by cases h
  fresh := fun _ h => by cases h
  owned := fun _ h => by cases h
  asked := fun _ h => by cases h
  busy := fun h => by cases h
  answered := fun _ h => by cases h
  asleep := fun h => by cases h
  interrupts := fun _ h => by cases h

/-! ### What a cycle notes -/

theorem issued_le : t.hist.issued ≤ (t.step i).hist.issued := by
  change _ ≤ if (t.core.exFires i).isSome then t.hist.issued + 1 else t.hist.issued
  split_ifs <;> omega

theorem step_op {n : ℕ} (hn : n < t.hist.issued) : (t.step i).hist.op n = t.hist.op n := by
  cases hd : t.core.exFires i with
  | none => simp [step, hd]
  | some d => simp [step, hd, Function.update_of_ne (Nat.ne_of_lt hn)]

theorem step_of_fires {d : DispatchPacket} (hd : t.core.exFires i = some d) :
    (t.step i).hist.memNo = t.hist.issued ∧ (t.step i).hist.issued = t.hist.issued + 1 ∧
      (t.step i).hist.op t.hist.issued = t.core.exMemIn i d := by
  simp [step, hd]

theorem step_of_not_fires (hd : t.core.exFires i = none) :
    (t.step i).hist.memNo = t.hist.memNo ∧ (t.step i).hist.issued = t.hist.issued := by
  simp [step, hd]

theorem step_trace (n : ℕ) : (t.step i).hist.trace n =
    if t.performs i && t.hist.busyNo == n then
      ((t.access i).request.write, (t.access i).error) :: t.hist.trace n
    else t.hist.trace n := by
  change ((if t.performs i then t.access i :: t.hist.performed
    else t.hist.performed).filter _).map _ = _
  cases t.performs i with
  | false => rfl
  | true =>
    rw [if_pos rfl, List.filter_cons, show (t.access i).no = t.hist.busyNo from rfl]
    cases hno : t.hist.busyNo == n <;> rfl

section Cycle

variable (h : t.Ledger)
include h

theorem Ledger.completes_eq : t.completes i = t.core.bus.genLsuReady p.bus (t.core.busInput i) :=
  h.engine.ready_eq

/-- Memory performs an access for the instruction in MEM, which takes the answer. -/
theorem Ledger.mem_of_completes (hdone : t.completes i) :
    ∃ m, t.core.mem i = some m ∧ t.core.memWbQ = none ∧ t.core.wants m ∧
      t.hist.busyNo = t.hist.memNo ∧ t.core.bus.bus.requestQ.write = t.core.wantsWrite m ∧
      Asks p m t.core.bus.bus.requestQ ∧ t.core.execMemReady i := by
  have hbsy := h.engine.busy_of_ready hdone
  obtain ⟨m, hm, hwb, hwants, hwr, hasks, hrdy⟩ := h.engine.mem_of_busy h.pipe (i := i) hbsy
  exact ⟨m, hm, hwb, hwants, h.busy hbsy, hwr, hasks, hrdy.trans hdone⟩

theorem Ledger.completes_of_performs (hperforms : t.performs i) : t.completes i := by
  rw [h.completes_eq]
  exact CoreBusState.ready_of_performs hperforms

/-- What the atomic unit and the plain unit learn from a completion. -/
theorem Ledger.answers (hdone : t.completes i) :
    Answers (t.core.amoInput i) t.core.bus.bus.requestQ.write
      (t.hist.trace t.hist.memNo) ((t.step i).hist.trace t.hist.memNo) := by
  obtain ⟨m, -, -, -, hno, -⟩ := h.mem_of_completes hdone
  have hans : (t.core.execMemAnswer i).accessFault =
        (t.core.bus.genLsuAnswer p.bus (t.core.busInput i)).accessFault ∧
      (t.core.execMemAnswer i).pageFault =
        (t.core.bus.genLsuAnswer p.bus (t.core.busInput i)).pageFault := by
    change ((t.core.bus.genLsuAnswer p.bus (t.core.busInput i)).accessFault &&
        !t.core.bus.pipeActiveQ) = _ ∧
      ((t.core.bus.genLsuAnswer p.bus (t.core.busInput i)).pageFault && !t.core.bus.pipeActiveQ) = _
    rw [h.engine.noPipe]
    simp
  rw [step_trace, hno, beq_self_eq_true, Bool.and_true]
  cases hperforms : t.performs i with
  | true =>
    obtain ⟨hacs, hpage⟩ := CoreBusState.answer_of_performs (p := p.bus) hperforms
    rw [if_pos rfl]
    have herr : (t.access i).error = (t.core.amoInput i).memErrorI := hacs.symm.trans hans.1.symm
    rw [herr]
    exact .performed (hans.2.trans hpage)
  | false =>
    rw [if_low]
    refine .refused ?_
    by_contra hclean
    rw [not_or, Bool.not_eq_true, Bool.not_eq_true] at hclean
    have hdone' := hdone
    rw [h.completes_eq] at hdone'
    have hyes := CoreBusState.performs_of_answer hdone' (hans.1.symm.trans hclean.1)
      (hans.2.symm.trans hclean.2)
    rw [show t.core.bus.performs (t.core.busInput i) = t.performs i from rfl, hperforms] at hyes
    cases hyes

theorem Ledger.trace_waits (hdone : t.completes i = false) (n : ℕ) :
    (t.step i).hist.trace n = t.hist.trace n := by
  have hperforms : t.performs i = false := by
    refine eq_false_of_ne_true fun hperforms => ?_
    rw [h.completes_of_performs hperforms] at hdone
    cases hdone
  rw [step_trace, hperforms, Bool.false_and, if_low]

theorem Ledger.trace_other {n : ℕ} (hn : t.core.exMemQ ≠ none → n ≠ t.hist.memNo) :
    (t.step i).hist.trace n = t.hist.trace n := by
  cases hdone : t.completes i with
  | false => exact h.trace_waits hdone n
  | true =>
    obtain ⟨m, hm, -, -, hno, -⟩ := h.mem_of_completes hdone
    have hne := hn (by rw [(mem_eq_some.mp hm).2]; exact some_ne_none m)
    rw [step_trace, hno, beq_eq_false_iff_ne.mpr hne.symm, Bool.and_false, if_low]

section

variable {m : ExMemPacket} (hm : t.core.mem i = some m)
include hm

/-- An instruction without a request keeps its trace. -/
theorem Ledger.trace_of_not_wants (hwants : t.core.wants m = false) (n : ℕ) :
    (t.step i).hist.trace n = t.hist.trace n := by
  refine h.trace_waits ?_ n
  refine eq_false_of_ne_true fun hdone => ?_
  obtain ⟨m', hm', -, hwants', -⟩ := h.mem_of_completes hdone
  obtain rfl := mem_unique hm hm'
  rw [hwants] at hwants'
  cases hwants'

/-- An instruction that needs no memory leaves MEM without an access. -/
theorem Ledger.settled_other (hmemory : m.memory p = false) :
    (t.step i).hist.Settled p t.hist.memNo (t.core.memWbIn i m) := by
  have hwork := h.mem m (mem_eq_some.mp hm).2
  have hop : (t.step i).hist.op t.hist.memNo = m := (step_op hwork.issued).trans hwork.op
  have hwants : t.core.wants m = false := by
    refine eq_false_of_ne_true fun hwants => ?_
    rw [wants_memory hwants] at hmemory
    cases hmemory
  have htrc : (t.step i).hist.trace t.hist.memNo = [] :=
    (h.trace_of_not_wants hm hwants _).trans
      (hwork.idle (by rw [atomicMemAccess, hmemory, Bool.false_and]))
  refine settled_idle (by rw [hop]; rfl) htrc fun _ write => ?_
  rw [hop]
  cases write <;> simp [accesses, hmemory]

/-- An atomic leaves MEM when its unit has finished. -/
theorem Ledger.settled_atomic (hatomic : m.atomicMemAccess p) (hdone : t.core.memoryComplete i m) :
    (t.step i).hist.Settled p t.hist.memNo (t.core.memWbIn i m) := by
  obtain ⟨hmemory, hamo⟩ := and_eq_true_iff.mp hatomic
  have hwork := h.mem m (mem_eq_some.mp hm).2
  have hop : (t.step i).hist.op t.hist.memNo = m := (step_op hwork.issued).trans hwork.op
  have hlsu := (lsu_of_memory hmemory).1
  have hst : t.core.amo.stateQ = .done := by
    rw [memoryComplete, if_pos hamo, completeO] at hdone
    simpa using (and_eq_true_iff.mp hdone).2
  have hwants : t.core.wants m = false := by simp [wants, hamo, hst]
  have htrc := h.trace_of_not_wants hm hwants t.hist.memNo
  have hdid := hwork.atomic hatomic
  rw [Did, hst] at hdid
  have hcause := @exceptCause_atomic p t.core i m hatomic (h.path.mem_sound h.pipe hm hlsu)
  have hinstr : (t.core.memWbIn i m).instr = ((t.step i).hist.op t.hist.memNo).instr := by
    rw [hop]
    rfl
  rcases hdid with ⟨hmis, hnil⟩ | ⟨hmis, hflt, honce⟩ | ⟨hmis, hacs, hpage, hall⟩
  · rw [hmis, if_pos rfl] at hcause
    refine settled_idle hinstr (htrc.trans hnil) fun hfine => ?_
    rw [memWbIn_exception, hcause] at hfine
    cases hfine
  · rw [hmis, if_low] at hcause
    have hmem : (t.core.memWbIn i m).exception ∧ (t.core.memWbIn i m).MemoryFault m := by
      cases hacs : t.core.amo.accessFaultQ with
      | true =>
        rw [hacs, if_pos rfl] at hcause
        exact ⟨by rw [memWbIn_exception, hcause]; rfl, memoryFault_of (.inl hcause)⟩
      | false =>
        have hpage : t.core.amo.pageFaultQ := by simpa [hacs] using hflt
        rw [hacs, hpage, if_low, if_pos rfl] at hcause
        exact ⟨by rw [memWbIn_exception, hcause]; rfl, memoryFault_of (.inr hcause)⟩
    exact settled_faulted hinstr (by rw [htrc]; exact honce)
      (by rw [hop]; exact hmemory) hmem.1 (by rw [hop]; exact hmem.2)
  rw [hmis, hacs, hpage, if_low, if_low, if_low] at hcause
  have hdata : (t.core.memWbIn i m).data = t.core.amo.resultQ := by
    simp [memWbIn, hamo]
  have hnot : (m.lsuOp p).plain = false := by rw [plain_eq hlsu, hamo]; rfl
  refine ⟨hinstr, by rw [htrc, hall]; exact AccessTrace.once_ofAtomic _ _,
    fun _ => by rw [hop]; exact hmemory, fun _ => ⟨fun write => ?_, ?_⟩, fun hexc => ?_⟩
  · rw [count_eq, htrc, hall, hop, hdata]
    exact count_ofAtomic hmemory hnot _ write
  · rw [htrc, hall, AccessTrace.ofAtomic]
    split_ifs <;> simp
  · rw [memWbIn_exception, hcause] at hexc
    cases hexc

theorem Ledger.settled_plain (hmemory : m.memory p) (hplain : m.isAtomic = false)
    (hdone : t.core.memoryComplete i m) :
    (t.step i).hist.Settled p t.hist.memNo (t.core.memWbIn i m) := by
  have hwork := h.mem m (mem_eq_some.mp hm).2
  have hop : (t.step i).hist.op t.hist.memNo = m := (step_op hwork.issued).trans hwork.op
  have hinstr : (t.core.memWbIn i m).instr = ((t.step i).hist.op t.hist.memNo).instr := by
    rw [hop]
    rfl
  have hlsu := (lsu_of_memory hmemory).1
  have hkind : (m.lsuOp p).plain := by rw [plain_eq hlsu, hplain]; rfl
  have hidle : t.hist.trace t.hist.memNo = [] :=
    hwork.idle (by rw [atomicMemAccess, hplain, Bool.and_false])
  have hcause := @exceptCause_plain p t.core i m hmemory hplain (h.path.mem_sound h.pipe hm hlsu)
  cases hmis : m.lsuMisaligned p with
  | true =>
    have hwants : t.core.wants m = false := by
      simp [wants, hplain, lsuMemValid, hmis]
    rw [hmis, if_pos rfl] at hcause
    refine settled_idle hinstr ((h.trace_of_not_wants hm hwants _).trans hidle) fun hfine => ?_
    rw [memWbIn_exception, hcause] at hfine
    cases hfine
  | false =>
    have hwants : t.core.wants m := by
      simp [wants, hplain, lsuMemValid, lsuMemAccess, hmemory, hkind, hmis]
    have hrdy : t.core.execMemReady i := by
      rw [complete_of_wants hwants, hplain] at hdone
      simpa using hdone
    have hcompletes : t.completes i := (and_eq_true_iff.mp hrdy).1
    obtain ⟨m', hm', -, -, -, hwr, -⟩ := h.mem_of_completes hcompletes
    obtain rfl := mem_unique hm hm'
    have hval : t.core.execMemValid i := (execMemValid_of hm).trans hwants
    have herr : t.core.lsuBusError i = (t.core.execMemAnswer i).accessFault := by
      rw [lsuBusError, hval, hrdy, Bool.true_and, Bool.true_and]
    have hpage : t.core.lsuPageFault i = (t.core.execMemAnswer i).pageFault := by
      rw [lsuPageFault, hval, hrdy, Bool.true_and, Bool.true_and]
    have hwr' : t.core.bus.bus.requestQ.write = (m.lsuOp p).isStore := by
      rw [hwr, wantsWrite, hplain, if_low]
    have hans := h.answers hcompletes
    rw [hidle] at hans
    rw [hmis, if_low, herr, hpage] at hcause
    generalize htrc : (t.step i).hist.trace t.hist.memNo = after at hans
    have hacs : (t.core.amoInput i).memErrorI = (t.core.execMemAnswer i).accessFault := rfl
    have hflt : (t.core.amoInput i).memPageFaultI = (t.core.execMemAnswer i).pageFault := rfl
    have honce : ((t.step i).hist.trace t.hist.memNo).Once := by
      rw [htrc]
      cases hans with
      | performed _ => exact AccessTrace.once_one _
      | refused _ => exact AccessTrace.once_nil
    cases hfail : (t.core.execMemAnswer i).accessFault with
    | true =>
      rw [hfail, if_pos rfl] at hcause
      exact settled_faulted hinstr honce (by rw [hop]; exact hmemory)
        (by rw [memWbIn_exception, hcause]; rfl)
        (by rw [hop]; exact memoryFault_of (.inl hcause))
    | false =>
    cases hpf : (t.core.execMemAnswer i).pageFault with
    | true =>
      rw [hfail, hpf, if_low, if_pos rfl] at hcause
      exact settled_faulted hinstr honce (by rw [hop]; exact hmemory)
        (by rw [memWbIn_exception, hcause]; rfl)
        (by rw [hop]; exact memoryFault_of (.inr hcause))
    | false =>
      rw [hfail, hpf, if_low, if_low] at hcause
      have hafter : after = [((m.lsuOp p).isStore, false)] := by
        cases hans with
        | performed _ => rw [hwr', hacs, hfail]
        | refused hbad =>
          rw [hacs, hflt, hfail, hpf] at hbad
          exact absurd hbad (by decide)
      refine ⟨hinstr, honce, fun _ => by rw [hop]; exact hmemory,
        fun _ => ⟨fun write => ?_, by rw [htrc, hafter]; simp⟩, fun hexc => ?_⟩
      · rw [count_eq, htrc, hafter, hop]
        exact count_plain hmemory hkind _ write
      · rw [memWbIn_exception, hcause] at hexc
        cases hexc

theorem Ledger.settled_step (hdone : t.core.memoryComplete i m) :
    (t.step i).hist.Settled p t.hist.memNo (t.core.memWbIn i m) := by
  cases hmemory : m.memory p with
  | false => exact h.settled_other hm hmemory
  | true =>
  cases hamo : m.isAtomic with
  | false => exact h.settled_plain hm hmemory hamo hdone
  | true =>
    refine h.settled_atomic hm ?_ hdone
    rw [atomicMemAccess, hmemory, hamo]
    rfl

theorem Ledger.trace_plain_waits (hplain : m.atomicMemAccess p = false)
    (hout : t.core.exMemOutClear i = false) (n : ℕ) : (t.step i).hist.trace n = t.hist.trace n := by
  refine h.trace_waits ?_ n
  refine eq_false_of_ne_true fun hdone => ?_
  obtain ⟨m', hm', hwb, hwants, -, -, -, hrdy⟩ := h.mem_of_completes hdone
  obtain rfl := mem_unique hm hm'
  have hkind : m.isAtomic = false := by
    rw [atomicMemAccess, wants_memory hwants] at hplain
    exact hplain
  rw [exMemOutClear, memWbInClear_iff.mpr (.inl hwb),
    memIs_of hm, complete_of_wants hwants, hrdy, hkind] at hout
  cases hout

/-- The atomic unit goes on with what memory answers. -/
theorem Ledger.did_step (hatomic : m.atomicMemAccess p) (hout : t.core.exMemOutClear i = false) :
    (t.step i).core.amo.Did (m.lsuOp p) ((t.step i).hist.trace t.hist.memNo) := by
  obtain ⟨hmemory, hamo⟩ := and_eq_true_iff.mp hatomic
  obtain ⟨hfl, hval, hop, -⟩ := amoInput_of hm
  have hdid := (h.mem m (mem_eq_some.mp hm).2).atomic hatomic
  have hstep : (t.step i).core.amo = t.core.amo.step (t.core.amoInput i) := rfl
  rw [hstep]
  have hserv : t.core.amo.stateQ ≠ .idle → t.core.amo.Serves (m.lsuOp p) m.badaddr := by
    intro hst
    obtain ⟨m', hm', -, -, hserv⟩ := h.engine.mem_of_amo h.pipe (i := i) hst
    obtain rfl := mem_unique hm hm'
    exact hserv
  have hwaits : (t.core.amoInput i).memReadyI = false →
      (t.step i).hist.trace t.hist.memNo = t.hist.trace t.hist.memNo := by
    intro hrdy
    refine h.trace_waits ?_ _
    refine eq_false_of_ne_true fun hdone => ?_
    obtain ⟨-, -, -, -, -, -, -, hrdy'⟩ := h.mem_of_completes hdone
    rw [show (t.core.amoInput i).memReadyI = t.core.execMemReady i from rfl, hrdy'] at hrdy
    cases hrdy
  have hanswers : (t.core.amoInput i).memReadyI →
      Answers (t.core.amoInput i) (t.core.amo.stateQ == .write)
        (t.hist.trace t.hist.memNo) ((t.step i).hist.trace t.hist.memNo) := by
    intro hrdy
    have hdone : t.completes i := (and_eq_true_iff.mp hrdy).1
    obtain ⟨m', hm', -, -, -, hwr, -⟩ := h.mem_of_completes hdone
    obtain rfl := mem_unique hm hm'
    have hans := h.answers hdone
    rw [hwr, wantsWrite, if_pos hamo] at hans
    exact hans
  cases hst : t.core.amo.stateQ with
  | idle =>
    have hwants : t.core.wants m = false := by simp [wants, hamo, hst]
    rw [Did, hst] at hdid
    rw [h.trace_of_not_wants hm hwants, hdid, step_start hfl hst (hval.trans hatomic), ← hop]
    exact did_start
  | read =>
    have hs := hserv (by rw [hst]; decide)
    cases hrdy : (t.core.amoInput i).memReadyI with
    | false =>
      rw [step_waits hfl (.inl hst) hrdy, hwaits hrdy]
      exact hdid
    | true =>
      have hans := hanswers hrdy
      rw [Did, hst] at hdid
      rw [hst, hdid] at hans
      rw [step_read hfl hst hrdy hs.held]
      exact hs.released.did_readDone hst hans
  | write =>
    have hs := hserv (by rw [hst]; decide)
    cases hrdy : (t.core.amoInput i).memReadyI with
    | false =>
      rw [step_waits hfl (.inr hst) hrdy, hwaits hrdy]
      exact hdid
    | true =>
      have hans := hanswers hrdy
      rw [Did, hst] at hdid
      rw [hst, hdid] at hans
      rw [step_write hfl hst hrdy hs.held]
      exact hs.released.did_writeDone hst hans
  | done =>
    rw [h.engine.complete_of_done h.pipe hst] at hout
    cases hout

end

/-- The instruction in MEM goes on, or a new one comes for which nothing has been done. -/
theorem Ledger.step_mem (m : ExMemPacket) (hnxt : (t.step i).core.exMemQ = some m) :
    (t.step i).Working m := by
  cases memNext t.core i with
  | empties _ hnone =>
    rw [show (t.step i).core = t.core.step i from rfl, hnone] at hnxt
    cases hnxt
  | enters d hd hmem =>
    obtain rfl := mem_unique hmem hnxt
    obtain ⟨hno, hiss, hop⟩ := step_of_fires hd
    have hfresh : t.hist.trace t.hist.issued = [] :=
      trace_eq_nil.mpr fun a ha => Nat.ne_of_lt (h.fresh a ha)
    have htrc : (t.step i).hist.trace (t.step i).hist.memNo = [] := by
      rw [hno]
      refine (h.trace_other fun hsome => ?_).trans hfresh
      obtain ⟨m', hm'⟩ := ne_none_iff_exists'.mp hsome
      exact Nat.ne_of_gt (h.mem m' hm').issued
    refine ⟨by rw [hno]; exact hop, by rw [hno, hiss]; exact Nat.lt_succ_self _,
      fun _ => htrc, fun _ => ?_⟩
    have hidle : (t.step i).core.amo.stateQ = .idle := by
      by_contra hwork
      obtain ⟨m', hm', -, hwait, -⟩ := h.engine.amo_waits h.pipe hwork
      rcases mem_goes hm' with ⟨hnone, -⟩ | ⟨-, hdone, -⟩
      · rw [hd] at hnone
        cases hnone
      · rw [hwait] at hdone
        cases hdone
    rw [Did, hidle]
    exact htrc
  | stays m' hd hm hout hmem =>
    obtain rfl := mem_unique hmem hnxt
    obtain ⟨hno, hiss⟩ := step_of_not_fires hd
    obtain ⟨hfl, hq⟩ := mem_eq_some.mp hm
    have hwork := h.mem _ hq
    refine ⟨by rw [hno, step_op hwork.issued]; exact hwork.op,
      by rw [hno, hiss]; exact hwork.issued, fun hplain => ?_, fun hamo => ?_⟩
    · rw [hno, h.trace_plain_waits hm hplain hout]
      exact hwork.idle hplain
    · rw [hno]
      exact h.did_step hm hamo hout

theorem Ledger.untouched_of_flush {m : ExMemPacket} (hm : t.core.exMemQ = some m)
    (hfl : t.core.flushExMem i) : t.hist.trace t.hist.memNo = [] ∧ t.completes i = false := by
  have hsome : t.core.exMemQ ≠ none := by rw [hm]; exact some_ne_none m
  have hbegun : ∀ hwb : t.core.memWbQ = none, False := by
    intro hwb
    rw [h.pipe.noFlush_of_wb hsome hwb] at hfl
    cases hfl
  constructor
  · have hwork := h.mem m hm
    cases hamo : m.atomicMemAccess p with
    | false => exact hwork.idle hamo
    | true =>
      have hidle : t.core.amo.stateQ = .idle := by
        by_contra hst
        obtain ⟨-, -, -, hwb, -⟩ := h.engine.amo hst
        exact hbegun hwb
      have hdid := hwork.atomic hamo
      rwa [Did, hidle] at hdid
  · refine eq_false_of_ne_true fun hdone => ?_
    obtain ⟨-, -, hwb, -⟩ := h.mem_of_completes hdone
    exact (hbegun hwb).elim

omit h in
theorem ne_none_of_mem {m : ExMemPacket} (hm : t.core.mem i = some m) : t.core.exMemQ ≠ none := by
  rw [(mem_eq_some.mp hm).2]
  exact some_ne_none m

omit h in
theorem wbNo_of_out {m : ExMemPacket} (hclr : t.core.memWbInClear)
    (hm : t.core.mem i = some m) (hdone : t.core.memoryComplete i m) :
    (t.step i).hist.wbNo = t.hist.memNo := by
  have hout : (t.core.memOut i).isSome := by
    rw [memOut_eq_some.mpr ⟨m, hm, hdone, rfl⟩]
    rfl
  simp [step, hout, hclr]

omit h in
theorem wbNo_of_held (hheld : t.core.memWbInClear = false) :
    (t.step i).hist.wbNo = t.hist.wbNo := by
  simp [step, hheld]

omit h in
/-- What came before MEM comes before what is in MEM next. -/
theorem before_mem {n : ℕ} (hiss : n < t.hist.issued)
    (hmem : t.core.exMemQ ≠ none → n < t.hist.memNo)
    (hsome : (t.step i).core.exMemQ ≠ none) : n < (t.step i).hist.memNo := by
  cases memNext t.core i with
  | empties _ hnone => exact absurd hnone hsome
  | enters d hd _ =>
    rw [(step_of_fires hd).1]
    exact hiss
  | stays m hd hm _ _ =>
    rw [(step_of_not_fires hd).1]
    exact hmem (ne_none_of_mem hm)

omit h in
/-- And before what is in WB next, unless it is still there itself. -/
theorem before_wb {n : ℕ} (hmem : t.core.exMemQ ≠ none → n < t.hist.memNo)
    (hwb : t.core.csrBusy → t.core.memWbQ ≠ none → n < t.hist.wbNo)
    (hsome : (t.step i).core.memWbQ ≠ none) : n < (t.step i).hist.wbNo := by
  cases wbNext t.core i with
  | empties _ _ hnone => exact absurd hnone hsome
  | enters m hclr hm hdone _ =>
    rw [wbNo_of_out hclr hm hdone]
    exact hmem (ne_none_of_mem hm)
  | stays w hbsy hheld hw _ =>
    rw [wbNo_of_held hheld]
    exact hwb hbsy (by rw [hw]; exact some_ne_none w)

theorem Ledger.step_wb (w : MemWbPacket) (hnxt : (t.step i).core.memWbQ = some w) :
    (t.step i).hist.Settled p (t.step i).hist.wbNo w ∧
      (t.step i).hist.wbNo < (t.step i).hist.issued ∧
      ((t.step i).core.exMemQ ≠ none → (t.step i).hist.wbNo < (t.step i).hist.memNo) := by
  have hstep : (t.step i).core = t.core.step i := rfl
  have hiss := @issued_le p t i
  cases wbNext t.core i with
  | empties _ _ hnone => rw [hstep, hnone] at hnxt; cases hnxt
  | enters m hclr hm hdone hwb =>
    obtain rfl := mem_unique hwb hnxt
    have hwork := h.mem m (mem_eq_some.mp hm).2
    rw [wbNo_of_out hclr hm hdone]
    refine ⟨h.settled_step hm hdone, hwork.issued.trans_le hiss, fun hsome => ?_⟩
    cases memNext t.core i with
    | empties _ hnone => exact absurd hnone hsome
    | enters d hd _ =>
      rw [(step_of_fires hd).1]
      exact hwork.issued
    | stays m' _ hm' hblocked _ =>
      obtain rfl := mem_unique hm hm'
      rw [exMemOutClear, hclr, memIs_of hm, hdone] at hblocked
      cases hblocked
  | stays w' hbsy hheld hw hwb =>
    obtain rfl := mem_unique hwb hnxt
    obtain ⟨hsettled, hlt, hmem⟩ := h.wb _ hw
    rw [wbNo_of_held hheld]
    exact ⟨hsettled.congr (step_op hlt) (h.trace_other fun hsome => Nat.ne_of_lt (hmem hsome)),
      hlt.trans_le hiss, before_mem hlt hmem⟩

omit h in
theorem retiring_eq_some {w : MemWbPacket} (hw : t.core.retiring = some w) :
    t.core.csrBusy = false ∧ t.core.memWbQ = some w := by
  rw [retiring] at hw
  split_ifs at hw with hbsy
  exact ⟨by simpa using hbsy, hw⟩

omit h in
/-- An instruction ends when it leaves WB or when a flush removes it from MEM. -/
theorem step_endings (n : ℕ) : (t.step i).hist.endings n = t.hist.endings n +
    (if t.core.retiring ≠ none ∧ t.hist.wbNo = n then 1 else 0) +
    (if t.core.flushExMem i ∧ t.core.exMemQ ≠ none ∧ t.hist.memNo = n then 1 else 0) := by
  have hflushed : (t.step i).hist.flushed.count n = t.hist.flushed.count n +
      if t.core.flushExMem i ∧ t.core.exMemQ ≠ none ∧ t.hist.memNo = n then 1 else 0 := by
    change (if t.core.flushExMem i && t.core.exMemQ.isSome then t.hist.memNo :: t.hist.flushed
      else t.hist.flushed).count n = _
    cases t.core.flushExMem i <;> cases t.core.exMemQ <;> simp [List.count_cons]
  have hended : (t.step i).hist.retired.countP (fun e => e.no == n) +
      (t.step i).hist.trapped.countP (fun e => e.no == n) =
      t.hist.retired.countP (fun e => e.no == n) + t.hist.trapped.countP (fun e => e.no == n) +
        if t.core.retiring ≠ none ∧ t.hist.wbNo = n then 1 else 0 := by
    change (((t.ended.filter fun e => e.packet.arch).toList) ++ t.hist.retired).countP _ +
      (((t.ended.filter fun e => e.packet.exception).toList) ++ t.hist.trapped).countP _ = _
    rw [List.countP_append, List.countP_append, ended]
    cases hw : t.core.retiring with
    | none => simp
    | some w =>
      cases hexc : w.exception <;> by_cases hno : t.hist.wbNo = n <;>
        simp [filter, arch, hexc, hno] <;> omega
  rw [endings, hflushed, hended, endings]
  omega

omit h in
/-- What is past stays past. -/
theorem past_step {n : ℕ} (hn : t.Past n) : (t.step i).Past n :=
  ⟨hn.issued.trans_le issued_le, before_mem hn.issued hn.mem, before_wb hn.mem fun _ => hn.wb⟩

theorem Ledger.past_of_retiring {w : MemWbPacket} (hw : t.core.retiring = some w) :
    (t.step i).Past t.hist.wbNo := by
  obtain ⟨hbsy, hq⟩ := retiring_eq_some hw
  obtain ⟨-, hlt, hmem⟩ := h.wb w hq
  refine ⟨hlt.trans_le issued_le, before_mem hlt hmem, before_wb hmem fun hbsy' _ => ?_⟩
  rw [hbsy] at hbsy'
  cases hbsy'

theorem Ledger.past_of_flush {m : ExMemPacket} (hm : t.core.exMemQ = some m)
    (hfl : t.core.flushExMem i) : (t.step i).Past t.hist.memNo := by
  have hnone : t.core.mem i = none := by simp [ScalarState.mem, Stage.out, hfl]
  refine ⟨(h.mem m hm).issued.trans_le issued_le, fun hsome => ?_, fun hsome => ?_⟩
  · exact absurd (Stage.next_of_flush hfl) hsome
  · cases wbNext t.core i with
    | empties _ _ hemp => exact absurd hemp hsome
    | enters m' _ hm' _ _ => rw [hnone] at hm'; cases hm'
    | stays w hbsy _ _ _ =>
      rw [h.pipe.noFlush_of_busy hbsy] at hfl
      cases hfl

theorem Ledger.step_past (n : ℕ) (hn : 0 < (t.step i).hist.endings n) : (t.step i).Past n := by
  by_cases hold : 0 < t.hist.endings n
  · exact past_step (h.past n hold)
  rw [step_endings] at hn
  by_cases hwb : t.core.retiring ≠ none ∧ t.hist.wbNo = n
  · obtain ⟨w, hw⟩ := ne_none_iff_exists'.mp hwb.1
    rw [← hwb.2]
    exact h.past_of_retiring hw
  by_cases hmem : t.core.flushExMem i ∧ t.core.exMemQ ≠ none ∧ t.hist.memNo = n
  · obtain ⟨m, hm⟩ := ne_none_iff_exists'.mp hmem.2.1
    rw [← hmem.2.2]
    exact h.past_of_flush hm hmem.1
  · rw [if_neg hwb, if_neg hmem] at hn
    omega

theorem Ledger.step_ends (n : ℕ) : (t.step i).hist.endings n ≤ 1 := by
  rw [step_endings]
  have hends := h.ends n
  have hpast := h.past n
  by_cases hwb : t.core.retiring ≠ none ∧ t.hist.wbNo = n
  · obtain ⟨w, hw⟩ := ne_none_iff_exists'.mp hwb.1
    have hq := (retiring_eq_some hw).2
    have hnone : t.hist.endings n = 0 := by
      by_contra hsome
      have hlt := (hpast (Nat.pos_of_ne_zero hsome)).wb (by rw [hq]; exact some_ne_none w)
      omega
    have hmem : ¬(t.core.flushExMem i ∧ t.core.exMemQ ≠ none ∧ t.hist.memNo = n) := by
      rintro ⟨-, hsome, hno⟩
      have hlt := (h.wb w hq).2.2 hsome
      omega
    rw [hnone, if_pos hwb, if_neg hmem]
  rw [if_neg hwb]
  split_ifs with hmem
  · have hnone : t.hist.endings n = 0 := by
      by_contra hsome
      have hlt := (hpast (Nat.pos_of_ne_zero hsome)).mem hmem.2.1
      omega
    rw [hnone]
  · omega

omit h in
theorem mem_retired {e : ScalarEnd} : e ∈ (t.step i).hist.retired ↔
    (∃ w, t.core.retiring = some w ∧ w.exception = false ∧ e = ⟨t.hist.wbNo, w⟩) ∨
      e ∈ t.hist.retired := by
  change e ∈ ((t.ended.filter fun e => e.packet.arch).toList) ++ t.hist.retired ↔ _
  rw [List.mem_append, ended]
  cases hw : t.core.retiring with
  | none => simp
  | some w =>
    cases hexc : w.exception <;> simp [filter, arch, hexc]

omit h in
theorem mem_trapped {e : ScalarEnd} : e ∈ (t.step i).hist.trapped ↔
    (∃ w, t.core.retiring = some w ∧ w.exception ∧ e = ⟨t.hist.wbNo, w⟩) ∨ e ∈ t.hist.trapped := by
  change e ∈ ((t.ended.filter fun e => e.packet.exception).toList) ++ t.hist.trapped ↔ _
  rw [List.mem_append, ended]
  cases hw : t.core.retiring with
  | none => simp
  | some w =>
    cases hexc : w.exception <;> simp [filter, hexc]

theorem Ledger.past_kept {n : ℕ} (hn : t.Past n) : (t.step i).hist.op n = t.hist.op n ∧
    (t.step i).hist.trace n = t.hist.trace n :=
  ⟨step_op hn.issued, h.trace_other fun hsome => Nat.ne_of_lt (hn.mem hsome)⟩

theorem Ledger.past_of_retired {e : ScalarEnd} (he : e ∈ t.hist.retired) : t.Past e.no := by
  refine h.past e.no ?_
  have hcnt : 0 < t.hist.retired.countP fun x => x.no == e.no :=
    List.countP_pos_iff.mpr ⟨e, he, by simp⟩
  rw [endings]
  omega

theorem Ledger.past_of_trapped {e : ScalarEnd} (he : e ∈ t.hist.trapped) : t.Past e.no := by
  refine h.past e.no ?_
  have hcnt : 0 < t.hist.trapped.countP fun x => x.no == e.no :=
    List.countP_pos_iff.mpr ⟨e, he, by simp⟩
  rw [endings]
  omega

theorem Ledger.past_of_flushed {n : ℕ} (hn : n ∈ t.hist.flushed) : t.Past n := by
  refine h.past n ?_
  have hcnt : 0 < t.hist.flushed.count n := List.count_pos_iff.mpr hn
  rw [endings]
  omega

theorem Ledger.settled_of_retiring {w : MemWbPacket} (hw : t.core.retiring = some w) :
    (t.step i).hist.Settled p t.hist.wbNo w := by
  obtain ⟨hsettled, hlt, hmem⟩ := h.wb w (retiring_eq_some hw).2
  exact hsettled.congr (step_op hlt) (h.trace_other fun hsome => Nat.ne_of_lt (hmem hsome))

theorem Ledger.step_retired (e : ScalarEnd) (he : e ∈ (t.step i).hist.retired) :
    e.packet.exception = false ∧ (t.step i).hist.Settled p e.no e.packet := by
  rcases mem_retired.mp he with ⟨w, hw, hexc, rfl⟩ | hold
  · exact ⟨hexc, h.settled_of_retiring hw⟩
  · obtain ⟨hop, htrc⟩ := h.past_kept (i := i) (h.past_of_retired hold)
    exact ⟨(h.retired e hold).1, (h.retired e hold).2.congr hop htrc⟩

theorem Ledger.step_trapped (e : ScalarEnd) (he : e ∈ (t.step i).hist.trapped) :
    e.packet.exception ∧ (t.step i).hist.Settled p e.no e.packet := by
  rcases mem_trapped.mp he with ⟨w, hw, hexc, rfl⟩ | hold
  · exact ⟨hexc, h.settled_of_retiring hw⟩
  · obtain ⟨hop, htrc⟩ := h.past_kept (i := i) (h.past_of_trapped hold)
    exact ⟨(h.trapped e hold).1, (h.trapped e hold).2.congr hop htrc⟩

theorem Ledger.step_flushed (n : ℕ) (hn : n ∈ (t.step i).hist.flushed) :
    (t.step i).hist.trace n = [] := by
  have hcases : (t.core.flushExMem i ∧ t.core.exMemQ ≠ none ∧ n = t.hist.memNo) ∨
      n ∈ t.hist.flushed := by
    change n ∈ (if t.core.flushExMem i && t.core.exMemQ.isSome then
      t.hist.memNo :: t.hist.flushed else t.hist.flushed) at hn
    split_ifs at hn with hfl
    · rcases List.mem_cons.mp hn with rfl | hold
      · simp only [and_eq_true, Option.isSome_iff_ne_none] at hfl
        exact .inl ⟨hfl.1, hfl.2, rfl⟩
      · exact .inr hold
    · exact .inr hn
  rcases hcases with ⟨hfl, hsome, rfl⟩ | hold
  · obtain ⟨m, hm⟩ := ne_none_iff_exists'.mp hsome
    obtain ⟨htrc, hdone⟩ := h.untouched_of_flush hm hfl
    rw [h.trace_waits hdone, htrc]
  · rw [(h.past_kept (h.past_of_flushed hold)).2]
    exact h.flushed n hold

/-- A new access is one of the instruction in MEM. -/
theorem Ledger.mem_performed {a : ScalarAccess} (ha : a ∈ (t.step i).hist.performed) :
    a ∈ t.hist.performed ∨ ∃ m, t.core.mem i = some m ∧ t.core.memWbQ = none ∧
      a.no = t.hist.memNo ∧ a.request = t.core.bus.bus.requestQ ∧ Asks p m a.request := by
  change a ∈ (if t.performs i then t.access i :: t.hist.performed else t.hist.performed) at ha
  split_ifs at ha with hperforms
  · rcases List.mem_cons.mp ha with rfl | hold
    · obtain ⟨m, hm, hwb, -, hno, -, hasks, -⟩ :=
        h.mem_of_completes (h.completes_of_performs hperforms)
      exact .inr ⟨m, hm, hwb, hno, rfl, hasks⟩
    · exact .inl hold
  · exact .inl ha

theorem Ledger.step_fresh (a : ScalarAccess) (ha : a ∈ (t.step i).hist.performed) :
    a.no < (t.step i).hist.issued := by
  refine lt_of_lt_of_le ?_ issued_le
  rcases h.mem_performed ha with hold | ⟨m, hm, -, hno, -⟩
  · exact h.fresh a hold
  · rw [hno]
    exact (h.mem m (mem_eq_some.mp hm).2).issued

theorem Ledger.step_asked (a : ScalarAccess) (ha : a ∈ (t.step i).hist.performed) :
    Asks p ((t.step i).hist.op a.no) a.request := by
  rcases h.mem_performed ha with hold | ⟨m, hm, -, hno, -, hasks⟩
  · rw [step_op (h.fresh a hold)]
    exact h.asked a hold
  · have hwork := h.mem m (mem_eq_some.mp hm).2
    rw [hno, step_op hwork.issued, hwork.op]
    exact hasks

omit h in
/-- What MEM holds is there or in WB after the edge, under its number. -/
theorem present_of_mem {m : ExMemPacket} (hm : t.core.mem i = some m) :
    (t.step i).Present t.hist.memNo := by
  rcases mem_goes hm with ⟨hd, -, hnxt⟩ | ⟨hclr, hdone, hnxt⟩
  · exact .inl ⟨(by rw [show (t.step i).core = t.core.step i from rfl, hnxt]; rfl),
      (step_of_not_fires hd).1⟩
  · exact .inr ⟨(by rw [show (t.step i).core = t.core.step i from rfl, hnxt]; rfl),
      wbNo_of_out hclr hm hdone⟩

theorem Ledger.step_owned (a : ScalarAccess) (ha : a ∈ (t.step i).hist.performed) :
    (∃ e ∈ (t.step i).hist.retired, e.no = a.no) ∨
      (∃ e ∈ (t.step i).hist.trapped, e.no = a.no) ∨ (t.step i).Present a.no := by
  rcases h.mem_performed ha with hold | ⟨m, hm, -, hno, -⟩
  · rcases h.owned a hold with ⟨e, he, heq⟩ | ⟨e, he, heq⟩ | hpresent
    · exact .inl ⟨e, mem_retired.mpr (.inr he), heq⟩
    · exact .inr (.inl ⟨e, mem_trapped.mpr (.inr he), heq⟩)
    rcases hpresent with ⟨hsome, hno⟩ | ⟨hsome, hno⟩
    · obtain ⟨m, hm⟩ := isSome_iff_exists.mp hsome
      have hfl : t.core.flushExMem i = false := by
        refine eq_false_of_ne_true fun hfl => ?_
        have hnil := (h.untouched_of_flush hm hfl).1
        exact absurd hno.symm (trace_eq_nil.mp hnil a hold)
      rw [← hno]
      exact .inr (.inr (present_of_mem (mem_eq_some.mpr ⟨hfl, hm⟩)))
    obtain ⟨w, hw⟩ := isSome_iff_exists.mp hsome
    cases hbsy : t.core.csrBusy with
    | false =>
      have hret : t.core.retiring = some w := by simp [retiring, hbsy, hw]
      cases hexc : w.exception with
      | false => exact .inl ⟨_, mem_retired.mpr (.inl ⟨w, hret, hexc, rfl⟩), hno⟩
      | true => exact .inr (.inl ⟨_, mem_trapped.mpr (.inl ⟨w, hret, hexc, rfl⟩), hno⟩)
    | true =>
      have hheld : t.core.memWbInClear = false := by
        simp [memWbInClear, Stage.inClear, hw, hbsy]
      refine .inr (.inr (.inr ⟨?_, (wbNo_of_held hheld).trans hno⟩))
      rw [show (t.step i).core.memWbQ = t.core.memWbQ from Stage.next_of_held rfl hheld, hw]
      rfl
  · rw [hno]
    exact .inr (.inr (present_of_mem hm))

theorem Ledger.step_answered (c : ℕ × Option ℕ) (hc : c ∈ (t.step i).hist.answered) :
    c.2 = some c.1 := by
  change c ∈ (if t.completes i then
    (t.hist.busyNo, if t.takes i then some t.hist.memNo else none) :: t.hist.answered
    else t.hist.answered) at hc
  split_ifs at hc with hdone htake
  · rcases List.mem_cons.mp hc with rfl | hold
    · obtain ⟨-, -, -, -, hno, -⟩ := h.mem_of_completes hdone
      rw [hno]
    · exact h.answered c hold
  · exfalso
    obtain ⟨m, hm, -, hwants, -, -, -, hrdy⟩ := h.mem_of_completes hdone
    rw [takes, execMemValid_of hm, hwants, hrdy] at htake
    exact htake rfl
  · exact h.answered c hc

/-- The engine goes on for the instruction in MEM, or begins for it. -/
theorem Ledger.step_busyNo (hnxt : (t.step i).core.bus.bus.lsuBusy) :
    (t.step i).hist.busyNo = (t.step i).hist.memNo := by
  have hbus : (t.step i).core.bus.bus =
      t.core.bus.bus.step p.bus (t.core.bus.busInput (t.core.busEdge i)) := rfl
  have hno : (t.step i).hist.busyNo =
      if t.core.bus.genLsuTaken (t.core.busInput i) then t.hist.memNo else t.hist.busyNo := rfl
  rw [hbus] at hnxt
  cases htaken : t.core.bus.genLsuTaken (t.core.busInput i) with
  | true =>
    rw [hno, htaken, if_pos rfl]
    obtain ⟨-, hval, -⟩ := h.engine.taken_iff.mp htaken
    obtain ⟨m, hm, hwants⟩ := execMemValid_iff.mp hval
    have hrdy : t.core.execMemReady i = false := by
      refine eq_false_of_ne_true fun hrdy => ?_
      have hbsy := h.engine.busy_of_ready (i := i) (and_eq_true_iff.mp hrdy).1
      rw [CoreBusState.genLsuTaken] at htaken
      rw [GenBusState.lsuBusy_of_taken htaken] at hbsy
      cases hbsy
    have hwait : t.core.memoryComplete i m = false := by
      rw [complete_of_wants hwants, hrdy, Bool.and_false]
    rcases mem_goes hm with ⟨hd, -, -⟩ | ⟨-, hdone, -⟩
    · exact (step_of_not_fires hd).1.symm
    · rw [hwait] at hdone
      cases hdone
  | false =>
    rw [hno, htaken, if_low]
    have hbsy : t.core.bus.bus.lsuBusy := by
      by_contra hidle
      have hstill := GenBusState.step_of_not_taken (p := p.bus)
        (i := t.core.bus.busInput (t.core.busEdge i)) (Bool.eq_false_iff.mpr hidle) htaken
      rw [hnxt] at hstill
      cases hstill
    have hdone : t.completes i = false := by
      refine eq_false_of_ne_true fun hdone => ?_
      rw [h.completes_eq] at hdone
      rw [GenBusState.lsuBusy, h.engine.walk.step_of_ready
        (i := t.core.bus.busInput (t.core.busEdge i)) hdone] at hnxt
      cases hnxt
    obtain ⟨m, hm, -, hwants, -, -, hrdy⟩ := h.engine.mem_of_busy h.pipe (i := i) hbsy
    have hwait : t.core.memoryComplete i m = false := by
      rw [complete_of_wants hwants, hrdy.trans hdone, Bool.and_false]
    rcases mem_goes hm with ⟨hd, -, -⟩ | ⟨-, hdone', -⟩
    · exact (h.busy hbsy).trans (step_of_not_fires hd).1.symm
    · rw [hwait] at hdone'
      cases hdone'

omit h in
theorem retires_of_retiring {w : MemWbPacket} (hw : t.core.retiring = some w)
    (f : MemWbPacket → Bool) : t.core.retires f = f w := by
  rw [retires, hw]
  rfl

theorem Ledger.retiring_of_sleep (hsleep : t.core.wfiSleepQ) : t.core.retiring = none :=
  retiring_of_none (h.pipe.empty (.inl hsleep)).wb

omit h in
/-- A core that is going to sleep takes no interrupt. -/
theorem calm_of_sleep (hnxt : (t.step i).core.wfiSleepQ) : t.core.irqTake i = false := by
  have hwake : t.core.csrWfiWake i = false := by
    change (if t.core.wfiSleepQ then !t.core.csrWfiWake i
      else t.core.retires isWfi && !t.core.csrWfiWake i) at hnxt
    split_ifs at hnxt
    · simpa using hnxt
    · simpa using (and_eq_true_iff.mp hnxt).2
  have hcalm : t.core.csrIrqPending i = false := TrapRegs.irqPendingO_of_wfiWakeO hwake
  rw [irqTake, wfiIrqTake, hcalm, Bool.and_false, Bool.false_and, Bool.or_false]

/-- A core that sleeps has the address at which it will go on. -/
theorem Ledger.step_asleep (hnxt : (t.step i).core.wfiSleepQ) :
    (t.step i).core.pcQ = (t.step i).hist.nextPc := by
  have hcalm := calm_of_sleep hnxt
  have hpc : (t.step i).core.pcQ = t.core.pcNext i := rfl
  have hnextPc : (t.step i).hist.nextPc = t.nextPcRetired i := by
    change (if t.core.irqTake i then _ else _) = _
    rw [hcalm, if_low]
  rw [hpc, hnextPc]
  cases hsleep : t.core.wfiSleepQ with
  | true =>
    have hret := h.retiring_of_sleep hsleep
    have hemp := h.pipe.empty (.inl hsleep)
    have hreset : t.core.resetPendingQ = false := by
      refine eq_false_of_ne_true fun hreset => ?_
      rw [(h.start hreset).2] at hsleep
      cases hsleep
    have hfires : t.core.exFires i = none := by
      cases hd : t.core.exFires i with
      | none => rfl
      | some d =>
        have hsome := (exFires_eq_some.mp hd).1
        rw [hemp.dispatch] at hsome
        cases hsome
    have hifId : t.core.ifId i = none := by
      rw [ifId, hemp.ifId, Stage.out, ite_self]
    have hhard : t.core.hardFlush i = false := by
      simp [hardFlush, hreset, flushExMem, hardFlushTrap,
        hardFlushRestart, hardFlushRedirect, firesIs, hfires, retires_of_idle hret, hcalm]
    have hpredict : t.core.predictRedirect i = false := by
      simp [predictRedirect, branchAllocate, ifIdIs, hifId]
    have hfetch : t.core.fetchPcValid i = false := by simp [fetchPcValid, hsleep]
    rw [pcNext, hhard, hpredict, hfetch, if_low, if_low, if_low, nextPcRetired, hret]
    exact h.asleep hsleep
  | false =>
    have hwfi : t.core.retires isWfi := by
      change (if t.core.wfiSleepQ then _ else _) = true at hnxt
      rw [hsleep, if_low] at hnxt
      exact (and_eq_true_iff.mp hnxt).1
    obtain ⟨hbsy, w, hw, hiswfi⟩ := retires_iff.mp hwfi
    have hret : t.core.retiring = some w := by simp [retiring, hbsy, hw]
    obtain ⟨harch, hinstr⟩ := and_eq_true_iff.mp hiswfi
    have hexc : w.exception = false := by simpa [arch] using harch
    have hcode : w.instr = instrWfi := beq_iff_eq.mp hinstr
    obtain ⟨hmret, hsret⟩ := h.pipe.wbReturn w hw
    have hnoreturn : w.isMret = false ∧ w.isSret = false := by
      constructor
      · cases hr : w.mret with
        | false => simp [MemWbPacket.isMret, hr]
        | true => exact absurd (hcode.symm.trans (hmret hr)) (by decide)
      · cases hr : w.sret with
        | false => simp [MemWbPacket.isSret, hr]
        | true => exact absurd (hcode.symm.trans (hsret hr)) (by decide)
    have hreset : t.core.resetPendingQ = false := by
      refine eq_false_of_ne_true fun hreset => ?_
      rw [(h.start hreset).1] at hw
      cases hw
    have hrst : t.core.hardFlushRestart := by simp [hardFlushRestart, hwfi]
    have htrap : t.core.hardFlushTrap = false := (retires_of_retiring hret _).trans (by simp [hexc])
    have hmret' : t.core.retires MemWbPacket.isMret = false :=
      (retires_of_retiring hret _).trans hnoreturn.1
    have hsret' : t.core.retires MemWbPacket.isSret = false :=
      (retires_of_retiring hret _).trans hnoreturn.2
    rw [pcNext, hardFlush_of_restart hrst, if_pos rfl,
      vectorTarget, hreset, htrap, hcalm, hmret', hsret', hrst, nextPcRetired, hret, wbPacket, hw]
    simp [hexc, hnoreturn.1, hnoreturn.2]

theorem Ledger.step_interrupts (c : BitVec 64 × BitVec 64)
    (hc : c ∈ (t.step i).hist.interrupts) : c.1 = c.2 := by
  change c ∈ (if t.core.irqTake i then (t.core.trapPc i, t.nextPcRetired i) :: t.hist.interrupts
    else t.hist.interrupts) at hc
  split_ifs at hc with htake
  · rcases List.mem_cons.mp hc with rfl | hold
    · cases hsleep : t.core.wfiIrqTake i with
      | true =>
        have hasleep : t.core.wfiSleepQ := (and_eq_true_iff.mp hsleep).1
        rw [trapPc, if_pos hsleep, nextPcRetired, h.retiring_of_sleep hasleep]
        exact h.asleep hasleep
      | false =>
        have hgo := htake
        rw [irqTake, hsleep, Bool.false_or, and_eq_true] at hgo
        obtain ⟨hbsy, w, hw, hgood⟩ := retires_iff.mp hgo.2
        have hret : t.core.retiring = some w := by simp [retiring, hbsy, hw]
        simp only [interruptible, and_eq_true, Bool.not_eq_true'] at hgood
        obtain ⟨⟨⟨hexc, -⟩, hmret⟩, hsret⟩ := hgood
        rw [trapPc, hsleep, htake, nextPcRetired, hret, wbPacket, hw]
        simp [hexc, hmret, hsret]
    · exact h.interrupts c hold
  · exact h.interrupts c hc

theorem Ledger.step : (t.step i).Ledger where
  pipe := h.pipe.step
  path := h.path.step h.pipe
  engine := h.engine.step h.pipe
  start hreset := by cases hreset
  mem := h.step_mem
  wb := h.step_wb
  past := h.step_past
  ends := h.step_ends
  retired := h.step_retired
  trapped := h.step_trapped
  flushed := h.step_flushed
  fresh := h.step_fresh
  owned := h.step_owned
  asked := h.step_asked
  busy := h.step_busyNo
  answered := h.step_answered
  asleep := h.step_asleep
  interrupts := h.step_interrupts

omit i in
/-- The ledger says what the claim of exactness needs. -/
theorem Ledger.exact : t.Exact where
  asked := h.asked
  once n write := by
    by_cases hnone : t.hist.trace n = []
    · rw [count_eq, hnone]
      exact Nat.zero_le 1
    have hsome : ∃ a ∈ t.hist.performed, a.no = n := by
      by_contra hno
      exact hnone (trace_eq_nil.mpr fun a ha heq => hno ⟨a, ha, heq⟩)
    obtain ⟨a, ha, rfl⟩ := hsome
    rw [count_eq]
    rcases h.owned a ha with ⟨e, he, heq⟩ | ⟨e, he, heq⟩ | ⟨hsome, heq⟩ | ⟨hsome, heq⟩
    · rw [← heq]
      exact (h.retired e he).2.once write
    · rw [← heq]
      exact (h.trapped e he).2.once write
    · obtain ⟨m, hm⟩ := isSome_iff_exists.mp hsome
      have hwork := h.mem m hm
      rw [← heq] at hnone ⊢
      cases hamo : m.atomicMemAccess p with
      | false => exact absurd (hwork.idle hamo) hnone
      | true => exact (hwork.atomic hamo).once write
    · obtain ⟨w, hw⟩ := isSome_iff_exists.mp hsome
      rw [← heq]
      exact (h.wb w hw).1.once write
  owned := h.owned
  retired e he := by
    obtain ⟨hexc, hsettled⟩ := h.retired e he
    refine ⟨(hsettled.done hexc).1, fun a ha heq => ?_⟩
    have hmem := mem_trace ha
    rw [heq] at hmem
    exact (hsettled.done hexc).2 _ hmem
  trapped e he a ha heq := by
    obtain ⟨hexc, hsettled⟩ := h.trapped e he
    refine hsettled.faulted hexc fun hnil => ?_
    exact trace_eq_nil.mp hnil a ha heq
  flushed n hn := trace_eq_nil.mp (h.flushed n hn)
  ends := h.ends
  underWay hbsy := by
    obtain ⟨m, hm, -⟩ := h.engine.busy hbsy
    exact ⟨by rw [hm]; rfl, h.busy hbsy⟩
  answered := h.answered
  interrupts := h.interrupts

end Cycle

end ScalarTracked

end OpenRV64
