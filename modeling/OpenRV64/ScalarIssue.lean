/-
Issue in the one-wide core: the register file, the register map, the multiplier's handshake
and the operand multiplexers around the pipeline, and a ledger in which every instruction that
dispatch takes gets a number.
-/
import OpenRV64.LatestWriter
import OpenRV64.RegMap
import OpenRV64.ScalarPipe

namespace OpenRV64

open RegMapState (writers)

/-- `alu_ext_sel_o` of the ALU decoder. -/
def AluSel.ext : AluSel → BitVec 3
  | .base _ => 1
  | .m _ => 2
  | .zbb _ => 3

/-- The decoder as the pipeline sees it. -/
def DecodeEnables.params (p : DecodeEnables) : DecodeParams where
  enableRv64a := p.enableRv64a
  decodeAlu := fun instr => (decodeAlu p instr).map AluSel.ext

structure IssueParams where
  core : ScalarParams
  enables : DecodeEnables
  decode_eq : core.decode = enables.params
  enableForwarding : Bool
  enableLoadForwarding : Bool

namespace IssueParams

variable (p : IssueParams) (instr : BitVec 32)

/-- The registers of an instruction word. -/
def use : RegUse := .ofDecode (p.enables.decodeTop .idle instr)

/-- The same as dispatch asks the register map for them: `decode_writes_rd`. -/
def decodeUse : RegUse :=
  { p.use instr with
    regWrite := (p.use instr).regWrite && !(p.enables.decodeTop .idle instr).illegal &&
      instr != instrEbreak && (p.use instr).rd != 0 }

/-- The same as they leave MEM. -/
def memWbUse : RegUse :=
  { p.use instr with
    regWrite := (p.use instr).regWrite &&
      (!(p.core.decode.decodeTop instr).memWrite || rvOpcode instr == opcodeAmo) }

/-- The release of `openrv64_retire`: a source that is not `x0` counts as read. -/
def retireUse : RegUse :=
  let u := p.memWbUse instr
  { u with
    usesRs1 := u.rs1 != 0
    usesRs2 := u.rs2 != 0
    regWrite := u.regWrite && u.rd != 0 }

end IssueParams

/-- The handshake of `openrv64_exec_rv64m`, and `alu_m_issued_q`. -/
structure MulUnit where
  activeQ : Bool
  resultValidQ : Bool
  issuedQ : Bool
deriving DecidableEq, Repr

structure IssueState (p : IssueParams) where
  core : ScalarState p.core
  gpr : BitVec 5 → BitVec 64
  regMap : RegMapState
  mul : MulUnit

/-- The inputs of a cycle.  The operands, the multiplier's handshake and the answer of the
register map are wired inside; how long the multiplier works is left open. -/
structure IssueInput where
  pins : ScalarInput
  /-- The worker of the multiplier is through. -/
  mulDoneI : Bool
  /-- An operation that has its result at once. -/
  mulAtOnceI : Bool

namespace IssueState

variable {p : IssueParams} (s : IssueState p) (i : IssueInput)

/-! ### Writing back -/

/-- What WB writes: `wb_write`, unless the register is `x0`. -/
def wbWrite (r : BitVec 5) : Option (BitVec 64) :=
  (s.core.memWbQ.filter fun w =>
    (p.memWbUse w.instr).writes r && !w.exception && !s.core.haltedQ).map MemWbPacket.data

/-- A read port of the register file, with the bypass of a write in the same cycle. -/
def gprRead (r : BitVec 5) : BitVec 64 := if r == 0 then 0 else (s.wbWrite r).getD (s.gpr r)

/-! ### The multiplier -/

section Multiplier

/-- `ex_m_selected`. -/
def mulSelected : Bool := ((s.core.ex i.pins).map (DispatchPacket.mSelected p.core)).getD false

/-- `alu_m_result_ready`. -/
def mulResultReady : Bool :=
  s.mulSelected i && s.mul.issuedQ && s.mul.resultValidQ && s.core.exMemInClear i.pins &&
    !s.core.csrBusy && !s.core.serializingQ

/-- `alu_m_ready`. -/
def mulReady : Bool := !s.mul.activeQ && (!s.mul.resultValidQ || s.mulResultReady i)

/-- `alu_m_start`: the multiplier takes the operands of the instruction in EX. -/
def mulStart : Bool :=
  s.mulSelected i && !s.mul.issuedQ && s.mulReady i && s.core.exMemInClear i.pins &&
    !s.core.csrBusy && !s.core.serializingQ

def mulNext : MulUnit :=
  if s.core.flushExMem i.pins then ⟨false, false, false⟩
  else
    let finishes := s.mul.activeQ && i.mulDoneI
    { activeQ := (s.mul.activeQ && !i.mulDoneI) || (s.mulStart i && !i.mulAtOnceI)
      resultValidQ := (s.mul.resultValidQ && !s.mulResultReady i) || finishes ||
        (s.mulStart i && i.mulAtOnceI)
      issuedQ :=
        if s.mulResultReady i || !s.mulSelected i then false
        else s.mul.issuedQ || s.mulStart i }

end Multiplier

/-! ### Forwarding -/

section Forwarding

/-- `mem_forward_valid` for the instruction in MEM. -/
def memForwardValid (m : ExMemPacket) : Bool :=
  p.enableForwarding && !m.isAtomic && (p.use m.instr).regWrite && !m.memWrite p.core &&
    s.core.memoryComplete i.pins m && (s.core.exceptCause i.pins m).isNone

/-- `mem_bypass_valid`. -/
def memBypassValid (m : ExMemPacket) : Bool :=
  s.memForwardValid i m && (p.enableLoadForwarding || !m.memRead p.core)

/-- `mem_forward_data`. -/
def memForwardData (m : ExMemPacket) : BitVec 64 :=
  if m.memRead p.core then
    (m.lsuOp p.core).loadData m.badaddr (s.core.execMemAnswer i.pins).rdata
  else m.wbData

/-- What MEM bypasses to EX for register `r`. -/
def bypass (r : BitVec 5) : Option (BitVec 64) :=
  ((s.core.mem i.pins).filter fun m =>
    s.memBypassValid i m && r != 0 && r == (p.use m.instr).rd).map (s.memForwardData i)

/-- `forwarded_rs1_data` and `forwarded_rs2_data`, by the address of the source. -/
def operand (r : BitVec 5) : BitVec 64 := (s.bypass i r).getD (s.gprRead r)

/-- The instruction in EX, as its register addresses leave dispatch. -/
def exUse : RegUse :=
  ((s.core.ex i.pins).map fun d => p.use d.instr).getD ⟨false, false, 0, 0, false, 0⟩

/-- The pins with everything but the answer of the register map wired. -/
def execInput : ScalarInput :=
  { i.pins with
    rs1DataI := s.operand i (s.exUse i).rs1
    rs2DataI := s.operand i (s.exUse i).rs2
    aluMReadyI := s.mulReady i
    aluMDoneI := s.mul.issuedQ && s.mul.resultValidQ }

/-- `forward_ex_valid_o`, with the register. -/
def forwardEx : Option (BitVec 5) :=
  ((s.core.exFires (s.execInput i)).filter fun d =>
    p.enableForwarding && (p.use d.instr).regWrite && !(d.op p.core).memWrite &&
      (p.enableLoadForwarding || !(d.op p.core).memRead) &&
      !s.core.exIllegal (s.execInput i) d).map fun d => (p.use d.instr).rd

/-- `forward_mem_valid_o`, with the register. -/
def forwardMem : Option (BitVec 5) :=
  ((s.core.mem i.pins).filter (s.memBypassValid i)).map fun m => (p.use m.instr).rd

end Forwarding

/-! ### Dispatch -/

section Dispatch

/-- The instruction in decode that asks for its registers. -/
def allocI : Option RegUse :=
  if s.core.flushIdEx i.pins || i.pins.bpDecodeStallI then none
  else (s.core.ifId (s.execInput i)).map fun f => p.decodeUse f.instr

/-- The port of the register map without the instruction that enters. -/
def mapPort : RegMapInput where
  clearI := s.core.flushIdEx i.pins
  allocI := s.allocI i
  allocFireI := false
  forwardExI := s.forwardEx i
  forwardMemI := if p.enableForwarding then s.forwardMem i else none
  retireI := s.core.retiring.map fun w => p.retireUse w.instr
  rollbackI :=
    if s.core.flushIdEx i.pins then s.core.dispatchQ.map fun d => p.decodeUse d.instr else none

/-- The input of the pipeline. -/
def input : ScalarInput :=
  { s.execInput i with
    regMapCanAllocateI := s.regMap.canAllocateO p.enableForwarding (s.mapPort i) }

def mapInput : RegMapInput :=
  { s.mapPort i with allocFireI := (s.core.dispatches (s.input i)).isSome }

def step : IssueState p where
  core := s.core.step (s.input i)
  gpr := fun r => (s.wbWrite r).getD (s.gpr r)
  regMap := s.regMap.step (s.mapInput i)
  mul := s.mulNext i

end Dispatch

end IssueState

/-! ## The ledger -/

/-- An instruction that left MEM: its number, and what it writes unless it traps. -/
structure IssueEnd where
  no : ℕ
  write : Option (BitVec 5 × BitVec 64)
deriving DecidableEq

/-- What an observer of dispatch notes, the most recent first. -/
structure IssueHistory where
  /-- The number of the next instruction that dispatch takes. -/
  taken : ℕ
  exNo : ℕ
  memNo : ℕ
  /-- The instructions that left the dispatch register for MEM. -/
  issued : List ℕ
  /-- Those that a flush removed from the dispatch register, and from MEM. -/
  dropped : List ℕ
  squashed : List ℕ
  ended : List IssueEnd
  /-- What the registers held at the start. -/
  initial : BitVec 5 → BitVec 64

namespace IssueHistory

variable (h : IssueHistory)

/-- What instruction `n` writes. -/
def outcome (n : ℕ) : Option (BitVec 5 × BitVec 64) :=
  (h.ended.find? fun e => e.no == n).bind IssueEnd.write

/-- The instructions that have left MEM with a result. -/
def flight : LatestWriter.Flight (BitVec 5) (BitVec 64) where
  live := {n | (h.outcome n).isSome = true}
  writes := fun n => (h.outcome n).map Prod.fst
  result := fun n => (h.outcome n).map Prod.snd
  committed := h.initial

end IssueHistory

structure IssueTracked (p : IssueParams) where
  machine : IssueState p
  hist : IssueHistory

namespace IssueTracked

variable {p : IssueParams} (t : IssueTracked p) (i : IssueInput)

/-- The input of the pipeline in the cycle. -/
def input : ScalarInput := t.machine.input i

/-- What the instruction that leaves MEM writes. -/
def written (w : MemWbPacket) : Option (BitVec 5 × BitVec 64) :=
  let u := p.use w.instr
  if u.regWrite && u.rd != 0 && !w.exception then some (u.rd, w.data) else none

/-- The instruction that leaves MEM in this cycle. -/
def leaving : Option IssueEnd :=
  if t.machine.core.memWbInClear then
    (t.machine.core.memOut (t.input i)).map fun w => ⟨t.hist.memNo, written (p := p) w⟩
  else none

def step : IssueTracked p where
  machine := t.machine.step i
  hist :=
    { taken := if (t.machine.core.dispatches (t.input i)).isSome then t.hist.taken + 1
        else t.hist.taken
      exNo := if (t.machine.core.dispatches (t.input i)).isSome then t.hist.taken else t.hist.exNo
      memNo := if (t.machine.core.exFires (t.input i)).isSome then t.hist.exNo else t.hist.memNo
      issued := if (t.machine.core.exFires (t.input i)).isSome then t.hist.exNo :: t.hist.issued
        else t.hist.issued
      dropped :=
        if t.machine.core.flushIdEx (t.input i) && t.machine.core.dispatchQ.isSome then
          t.hist.exNo :: t.hist.dropped
        else t.hist.dropped
      squashed :=
        if t.machine.core.flushExMem (t.input i) && t.machine.core.exMemQ.isSome then
          t.hist.memNo :: t.hist.squashed
        else t.hist.squashed
      ended := (t.leaving i).toList ++ t.hist.ended
      initial := t.hist.initial }

/-- The start of every run.  The registers may hold anything. -/
def reset (powerUp : PtwState) (gpr : BitVec 5 → BitVec 64) : IssueTracked p where
  machine := ⟨.reset powerUp, gpr, .reset, ⟨false, false, false⟩⟩
  hist := ⟨0, 0, 0, [], [], [], [], gpr⟩

end IssueTracked

def scalarIssue (p : IssueParams) : Sync.Circuit (IssueTracked p) IssueInput where
  Init t := ∃ powerUp gpr, t = IssueTracked.reset powerUp gpr
  step := IssueTracked.step

/-! ## The property -/

namespace IssueTracked

variable {p : IssueParams} (t : IssueTracked p)

/-- The issued writers of `r` that have not yet written back. -/
def outstanding (r : BitVec 5) : ℕ :=
  RegMapState.writers (t.machine.core.dispatchQ.map fun d => p.use d.instr) r +
    RegMapState.writers (t.machine.core.exMemQ.map fun m => p.use m.instr) r +
    RegMapState.writers (t.machine.core.memWbQ.map fun w => p.use w.instr) r

/-- An instruction in EX gives its operands away: it goes to MEM, or the multiplier starts. -/
def Consumes (i : IssueInput) (d : DispatchPacket) : Prop :=
  t.machine.core.exFires (t.input i) = some d ∨
    t.machine.core.ex i.pins = some d ∧ t.machine.mulStart i = true

/-- Instruction `n` is over, or dispatch never issued it. -/
def Past (n : ℕ) : Prop := n ∈ t.hist.dropped ∨ n ∈ t.hist.squashed ∨ ∃ e ∈ t.hist.ended, e.no = n

/-- Every instruction that dispatch takes waits, is issued or is dropped, once; the register
map counts the writers in flight; and an operand is what the latest older instruction writes
that survives. -/
structure IssuesRight : Prop where
  queue : ∀ n, t.hist.issued.count n + t.hist.dropped.count n +
    (if t.machine.core.dispatchQ.isSome = true ∧ t.hist.exNo = n then 1 else 0) =
      if n < t.hist.taken then 1 else 0
  inOrder : t.hist.issued.Pairwise (· > ·)
  places : ∀ n, t.hist.squashed.count n + t.hist.ended.countP (fun e => e.no == n) +
    (if t.machine.core.exMemQ.isSome = true ∧ t.hist.memNo = n then 1 else 0) =
      t.hist.issued.count n
  counts : ∀ r, r ≠ 0 → t.machine.regMap.writeCountQ r = t.outstanding r
  /-- By the edge at which an operand is taken every older instruction is over. -/
  older : ∀ i d, t.Consumes i d → ∀ n < t.hist.exNo, (t.step i).Past n
  operands : ∀ i d, t.Consumes i d → ∀ r, (p.use d.instr).reads r = true →
    LatestWriter.Reads (t.step i).hist.flight r t.hist.exNo (t.machine.operand i r)

/-! ### What goes wrong -/

/-- An LR leaves EX for MEM while an instruction enters dispatch that reads its result, and
the core forwards loads. -/
def forwardsReservation (i : IssueInput) : Bool :=
  p.enableForwarding && p.enableLoadForwarding && t.machine.core.firesIs (t.input i) fun d =>
      (d.op p.core).lsu == some .lr && (p.use d.instr).regWrite &&
        ((t.machine.core.dispatches (t.input i)).map fun f =>
          (p.use f.instr).reads (p.use d.instr).rd).getD false

/-- A control that writes a register goes another way than fetch did. -/
def redirectsLink (i : IssueInput) : Bool :=
  t.machine.core.firesIs (t.input i) fun d =>
    (p.use d.instr).writes (p.use d.instr).rd &&
      (t.machine.core.redirects (t.input i) d || t.machine.core.targetMispredicts (t.input i) d)

end IssueTracked

end OpenRV64
