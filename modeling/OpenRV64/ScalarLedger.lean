/-
The one-wide core with a ledger beside it: every instruction that enters MEM gets a number,
and every data access that memory performs is noted with the instruction for which the bus
began it.
-/
import OpenRV64.ScalarCore
import OpenRV64.SyncRun

namespace OpenRV64

/-- A data access that memory performed: for which instruction, what the bus asked for, and
whether memory reported an error. -/
structure ScalarAccess where
  no : ℕ
  request : LsuRequest
  error : Bool

/-- An instruction as it left WB. -/
structure ScalarEnd where
  no : ℕ
  packet : MemWbPacket
deriving DecidableEq

/-- What an observer of the pipeline notes, the most recent first. -/
structure ScalarHistory where
  /-- The number of the next instruction that enters MEM. -/
  issued : ℕ
  memNo : ℕ
  wbNo : ℕ
  /-- The instruction for which the data access in the engine of the bus runs. -/
  busyNo : ℕ
  /-- The instructions as they entered MEM. -/
  op : ℕ → ExMemPacket
  performed : List ScalarAccess
  /-- Each completion: for whom the access ran, and which instruction took it. -/
  answered : List (ℕ × Option ℕ)
  retired : List ScalarEnd
  trapped : List ScalarEnd
  /-- The instructions that a flush removed from MEM. -/
  flushed : List ℕ
  /-- The address of the next instruction in program order. -/
  nextPc : BitVec 64
  /-- Each interrupt: the address that it saved, and that of the next instruction. -/
  interrupts : List (BitVec 64 × BitVec 64)

structure ScalarTracked (p : ScalarParams) where
  core : ScalarState p
  hist : ScalarHistory

namespace ScalarTracked

variable {p : ScalarParams} (t : ScalarTracked p) (i : ScalarInput)

/-- Memory performs a data access in this cycle. -/
def performs : Bool := t.core.bus.performs (t.core.busInput i)

def access : ScalarAccess where
  no := t.hist.busyNo
  request := t.core.bus.bus.requestQ
  error := (t.core.bus.busInput (t.core.busInput i)).reqErrorI

/-- The bus reports that a data access is over. -/
def completes : Bool := t.core.bus.lsuReadyO p.bus (t.core.busInput i)

/-- The instruction in MEM takes the completion. -/
def takes : Bool := t.core.execMemValid i && t.core.execMemReady i

/-- What comes after the instruction that leaves WB in this cycle. -/
def nextPcRetired : BitVec 64 :=
  match t.core.retiring with
  | none => t.hist.nextPc
  | some w =>
    if w.exception then t.core.trapVector i
    else if w.isMret then t.core.csr.regs.mepcQ
    else if w.isSret then t.core.csr.regs.sepcQ
    else w.nextPc

def ended : Option ScalarEnd := t.core.retiring.map fun w => ⟨t.hist.wbNo, w⟩

def step : ScalarTracked p where
  core := t.core.step i
  hist :=
    { issued := if (t.core.exFires i).isSome then t.hist.issued + 1 else t.hist.issued
      memNo := if (t.core.exFires i).isSome then t.hist.issued else t.hist.memNo
      wbNo := if (t.core.memOut i).isSome && t.core.memWbInClear then t.hist.memNo
        else t.hist.wbNo
      busyNo := if t.core.bus.genLsuTaken (t.core.busInput i) then t.hist.memNo
        else t.hist.busyNo
      op :=
        match t.core.exFires i with
        | none => t.hist.op
        | some d => Function.update t.hist.op t.hist.issued (t.core.exMemIn i d)
      performed := if t.performs i then t.access i :: t.hist.performed else t.hist.performed
      answered :=
        if t.completes i then
          (t.hist.busyNo, if t.takes i then some t.hist.memNo else none) :: t.hist.answered
        else t.hist.answered
      retired := ((t.ended.filter fun e => e.packet.arch).toList) ++ t.hist.retired
      trapped := ((t.ended.filter fun e => e.packet.exception).toList) ++ t.hist.trapped
      flushed :=
        if t.core.flushExMem i && t.core.exMemQ.isSome then t.hist.memNo :: t.hist.flushed
        else t.hist.flushed
      nextPc := if t.core.irqTake i then t.core.trapVector i else t.nextPcRetired i
      interrupts :=
        if t.core.irqTake i then (t.core.trapPc i, t.nextPcRetired i) :: t.hist.interrupts
        else t.hist.interrupts }

/-- The start of every run.  Instruction numbers begin at zero. -/
def reset (powerUp : PtwState) : ScalarTracked p where
  core := .reset powerUp
  hist :=
    { issued := 0
      memNo := 0
      wbNo := 0
      busyNo := 0
      op := fun _ =>
        ⟨0, 0, 0, 0, 0, 0, 0, false, false, 0, false, false, 0, false, false⟩
      performed := []
      answered := []
      retired := []
      trapped := []
      flushed := []
      nextPc := p.resetVector
      interrupts := [] }

end ScalarTracked

def scalarCore (p : ScalarParams) : Sync.Circuit (ScalarTracked p) ScalarInput where
  Init t := ∃ powerUp, t = ScalarTracked.reset powerUp
  step := ScalarTracked.step

/-! ## The property -/

/-- The accesses that an instruction makes, reads and writes, when it ends without an
exception; `result` is what it wrote to its register. -/
def ExMemPacket.accesses (p : ScalarParams) (m : ExMemPacket) (result : BitVec 64) :
    Bool → ℕ
  | false => if m.memory p && (m.lsuOp p).reads then 1 else 0
  | true =>
    if m.memory p && (m.lsuOp p).writes && !((m.lsuOp p) == .sc && result != 0) then 1 else 0

namespace ScalarHistory

variable (h : ScalarHistory)

/-- How often memory read or wrote for instruction `n`. -/
def count (n : ℕ) (write : Bool) : ℕ :=
  h.performed.countP fun a => a.no == n && a.request.write == write

/-- How often instruction `n` retired, trapped or was flushed. -/
def endings (n : ℕ) : ℕ :=
  h.retired.countP (fun e => e.no == n) + h.trapped.countP (fun e => e.no == n) + h.flushed.count n

/-- What an instruction asked for: its address, and of a plain store its bytes. -/
structure Asks (p : ScalarParams) (m : ExMemPacket) (r : LsuRequest) : Prop where
  addr : r.addr = m.badaddr
  plain : m.isAtomic = false → r.write = (m.lsuOp p).isStore ∧
    (r.write = true → r.wdata = (m.lsuOp p).storeData m.badaddr m.lsuStoreData ∧
      r.wstrb = (m.lsuOp p).storeStrb m.badaddr)

end ScalarHistory

/-- The fault of a memory access: an access fault or a page fault of a load or a store, at
the address of the instruction. -/
structure MemWbPacket.MemoryFault (w : MemWbPacket) (m : ExMemPacket) : Prop where
  cause : w.cause = 5 ∨ w.cause = 13 ∨ w.cause = 7 ∨ w.cause = 15
  tval : w.tval = m.badaddr

namespace ScalarTracked

variable {p : ScalarParams}

/-- Instruction `n` is in MEM or in WB. -/
def Present (t : ScalarTracked p) (n : ℕ) : Prop :=
  (t.core.exMemQ.isSome = true ∧ t.hist.memNo = n) ∨ (t.core.memWbQ.isSome = true ∧ t.hist.wbNo = n)

/-- Every access belongs to one instruction, once, and every completion to the instruction
for which the access ran; a flush leaves nothing behind; and an interrupt saves the address
of the next instruction. -/
structure Exact (t : ScalarTracked p) : Prop where
  asked : ∀ a ∈ t.hist.performed, ScalarHistory.Asks p (t.hist.op a.no) a.request
  once : ∀ n write, t.hist.count n write ≤ 1
  owned : ∀ a ∈ t.hist.performed, (∃ e ∈ t.hist.retired, e.no = a.no) ∨
    (∃ e ∈ t.hist.trapped, e.no = a.no) ∨ t.Present a.no
  retired : ∀ e ∈ t.hist.retired,
    (∀ write, t.hist.count e.no write = (t.hist.op e.no).accesses p e.packet.data write) ∧
      ∀ a ∈ t.hist.performed, a.no = e.no → a.error = false
  trapped : ∀ e ∈ t.hist.trapped, ∀ a ∈ t.hist.performed, a.no = e.no →
    e.packet.MemoryFault (t.hist.op e.no)
  flushed : ∀ n ∈ t.hist.flushed, ∀ a ∈ t.hist.performed, a.no ≠ n
  ends : ∀ n, t.hist.endings n ≤ 1
  /-- The access in the engine is that of the instruction in MEM. -/
  underWay : t.core.bus.bus.lsuBusy = true →
    t.core.exMemQ.isSome = true ∧ t.hist.busyNo = t.hist.memNo
  answered : ∀ c ∈ t.hist.answered, c.2 = some c.1
  interrupts : ∀ c ∈ t.hist.interrupts, c.1 = c.2

end ScalarTracked

end OpenRV64
