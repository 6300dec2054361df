/-
Decoding for the one-wide core: the class of an instruction, the operation of its unit, and
the flags that the pipeline steers by.
-/
import OpenRV64.BackendDefs
import OpenRV64.Cmu

namespace OpenRV64

abbrev opcodeLoad : BitVec 7 := 0b0000011
abbrev opcodeMiscMem : BitVec 7 := 0b0001111
abbrev opcodeOpImm : BitVec 7 := 0b0010011
abbrev opcodeAuipc : BitVec 7 := 0b0010111
abbrev opcodeOpImm32 : BitVec 7 := 0b0011011
abbrev opcodeStore : BitVec 7 := 0b0100011
abbrev opcodeOp : BitVec 7 := 0b0110011
abbrev opcodeLui : BitVec 7 := 0b0110111
abbrev opcodeOp32 : BitVec 7 := 0b0111011
abbrev opcodeBranch : BitVec 7 := 0b1100011
abbrev opcodeSystem : BitVec 7 := 0b1110011

abbrev instrNop : BitVec 32 := 0x00000013
abbrev instrEcall : BitVec 32 := 0x00000073
abbrev instrEbreak : BitVec 32 := 0x00100073
abbrev instrSret : BitVec 32 := 0x10200073
abbrev instrMret : BitVec 32 := 0x30200073
abbrev instrWfi : BitVec 32 := 0x10500073

def rvFunct3 (instr : BitVec 32) : BitVec 3 := instr.extractLsb' 12 3
def rvRs2 (instr : BitVec 32) : BitVec 5 := instr.extractLsb' 20 5
def rvCsr (instr : BitVec 32) : BitVec 12 := instr.extractLsb' 20 12
def amoFunct5 (instr : BitVec 32) : BitVec 5 := instr.extractLsb' 27 5

/-- `RV64_IS_SFENCE_VMA`. -/
def isSfenceVma (instr : BitVec 32) : Bool := instr &&& 0xfe007fff == (0x12000073 : BitVec 32)

inductive EarlyClass where
  | alu
  | mem
  | branch
  | jump
  | fence
  | system
  | extension
  | invalid
deriving DecidableEq, Repr

@[simp] theorem EarlyClass.beq_eq_decide (a b : EarlyClass) : (a == b) = decide (a = b) := rfl

inductive LsuOp where
  | lb | lh | lw | ld | lbu | lhu | lwu
  | sb | sh | sw | sd
  | lr | sc
  | amoswap | amoadd | amoxor | amoand | amoor | amomin | amomax | amominu | amomaxu
deriving DecidableEq, Repr

@[simp] theorem LsuOp.beq_eq_decide (a b : LsuOp) : (a == b) = decide (a = b) := rfl

inductive BrOp where
  | beq | bne | blt | bge | bltu | bgeu
  | jal | jalr
deriving DecidableEq, Repr

namespace LsuOp

/-- `op_is_amo`. -/
def isAmo : LsuOp → Bool
  | amoswap | amoadd | amoxor | amoand | amoor | amomin | amomax | amominu | amomaxu => true
  | _ => false

def isLoad : LsuOp → Bool
  | lb | lh | lw | ld | lbu | lhu | lwu => true
  | _ => false

def isStore : LsuOp → Bool
  | sb | sh | sw | sd => true
  | _ => false

/-- `lsu_load`: the operation reads memory. -/
def reads (op : LsuOp) : Bool := op.isLoad || op == lr || op.isAmo

/-- `lsu_store`: the operation may write memory. -/
def writes (op : LsuOp) : Bool := op.isStore || op == sc || op.isAmo

end LsuOp

/-- `openrv64_decode_early`. -/
def earlyClass (instr : BitVec 32) : EarlyClass :=
  let opcode := rvOpcode instr
  if opcode == opcodeLui || opcode == opcodeAuipc || opcode == opcodeOpImm ||
      opcode == opcodeOpImm32 || opcode == opcodeOp || opcode == opcodeOp32 then .alu
  else if opcode == opcodeJal || opcode == opcodeJalr then .jump
  else if opcode == opcodeBranch then .branch
  else if opcode == opcodeLoad || opcode == opcodeStore || opcode == opcodeAmo then .mem
  else if opcode == opcodeMiscMem then .fence
  else if opcode == opcodeSystem then .system
  else if opcode.extractLsb' 0 2 == (0b11 : BitVec 2) then .extension
  else .invalid

/-- `openrv64_decode_lsu`: the operation of a legal load, store or atomic. -/
def decodeLsu (enableRv64a : Bool) (instr : BitVec 32) : Option LsuOp :=
  let funct3 := rvFunct3 instr
  if rvOpcode instr == opcodeLoad then
    if funct3 == 0b000 then some .lb
    else if funct3 == 0b001 then some .lh
    else if funct3 == 0b010 then some .lw
    else if funct3 == 0b011 then some .ld
    else if funct3 == 0b100 then some .lbu
    else if funct3 == 0b101 then some .lhu
    else if funct3 == 0b110 then some .lwu
    else none
  else if rvOpcode instr == opcodeStore then
    if funct3 == 0b000 then some .sb
    else if funct3 == 0b001 then some .sh
    else if funct3 == 0b010 then some .sw
    else if funct3 == 0b011 then some .sd
    else none
  else if rvOpcode instr == opcodeAmo then
    if enableRv64a && (funct3 == 0b010 || funct3 == 0b011) then
      let funct5 := amoFunct5 instr
      if funct5 == 0b00010 then if rvRs2 instr == 0 then some .lr else none
      else if funct5 == 0b00011 then some .sc
      else if funct5 == 0b00001 then some .amoswap
      else if funct5 == 0b00000 then some .amoadd
      else if funct5 == 0b00100 then some .amoxor
      else if funct5 == 0b01100 then some .amoand
      else if funct5 == 0b01000 then some .amoor
      else if funct5 == 0b10000 then some .amomin
      else if funct5 == 0b10100 then some .amomax
      else if funct5 == 0b11000 then some .amominu
      else if funct5 == 0b11100 then some .amomaxu
      else none
    else none
  else none

/-- `openrv64_decode_br`. -/
def decodeBr (instr : BitVec 32) : Option BrOp :=
  let funct3 := rvFunct3 instr
  if rvOpcode instr == opcodeBranch then
    if funct3 == 0b000 then some .beq
    else if funct3 == 0b001 then some .bne
    else if funct3 == 0b100 then some .blt
    else if funct3 == 0b101 then some .bge
    else if funct3 == 0b110 then some .bltu
    else if funct3 == 0b111 then some .bgeu
    else none
  else if rvOpcode instr == opcodeJal then some .jal
  else if rvOpcode instr == opcodeJalr then if funct3 == 0b000 then some .jalr else none
  else none

/-- A legal CSR access by its `funct3`. -/
def csrFunct3 (funct3 : BitVec 3) : Bool := funct3 != 0b000 && funct3 != 0b100

/-- `openrv64_decode_system`: the instruction is a legal one of its class. -/
def decodeSystem (instr : BitVec 32) : Bool :=
  if rvFunct3 instr == 0b000 then
    instr == instrEcall || instr == instrEbreak || instr == instrSret || instr == instrMret ||
      instr == instrWfi || isSfenceVma instr
  else csrFunct3 (rvFunct3 instr)

/-- `openrv64_decode_fence`: FENCE and FENCE.I. -/
def decodeFence (instr : BitVec 32) : Bool := rvFunct3 instr == 0b000 || rvFunct3 instr == 0b001

def immI (instr : BitVec 32) : BitVec 64 := (instr.extractLsb' 20 12).signExtend 64

def immS (instr : BitVec 32) : BitVec 64 :=
  (instr.extractLsb' 25 7 ++ instr.extractLsb' 7 5).signExtend 64

def immB (instr : BitVec 32) : BitVec 64 :=
  (instr.extractLsb' 31 1 ++ instr.extractLsb' 7 1 ++ instr.extractLsb' 25 6 ++
    instr.extractLsb' 8 4 ++ 0#1).signExtend 64

def immU (instr : BitVec 32) : BitVec 64 := (instr.extractLsb' 12 20 ++ 0#12).signExtend 64

def immJ (instr : BitVec 32) : BitVec 64 :=
  (instr.extractLsb' 31 1 ++ instr.extractLsb' 12 8 ++ instr.extractLsb' 20 1 ++
    instr.extractLsb' 21 10 ++ 0#1).signExtend 64

/-- `openrv64_decode_imm`, by the format that the class and the opcode have. -/
def decodeImm (instr : BitVec 32) : BitVec 64 :=
  let opcode := rvOpcode instr
  if opcode == opcodeLui || opcode == opcodeAuipc then immU instr
  else if opcode == opcodeJal then immJ instr
  else if opcode == opcodeBranch then immB instr
  else if opcode == opcodeStore then immS instr
  else if opcode == opcodeAmo || opcode == opcodeOp || opcode == opcodeOp32 then 0
  else immI instr

/-- What the decoder depends on.  `openrv64_decode_alu` may be any function: the extension
of a legal ALU instruction is all that the pipeline uses of it. -/
structure DecodeParams where
  enableRv64a : Bool
  decodeAlu : BitVec 32 → Option (BitVec 3)

/-- `openrv64_decode_top` without extension decoders. -/
structure ScalarOp where
  alu : Option (BitVec 3)
  lsu : Option LsuOp
  br : Option BrOp
  system : Bool
  fence : Bool
  illegal : Bool
  imm : BitVec 64
deriving DecidableEq, Repr

def DecodeParams.decodeTop (p : DecodeParams) (instr : BitVec 32) : ScalarOp :=
  let cls := earlyClass instr
  let alu := if cls == .alu then p.decodeAlu instr else none
  let lsu := if cls == .mem then decodeLsu p.enableRv64a instr else none
  let br := if cls == .branch || cls == .jump then decodeBr instr else none
  let system := cls == .system && decodeSystem instr
  let fence := cls == .fence && decodeFence instr
  { alu := alu
    lsu := lsu
    br := br
    system := system
    fence := fence
    illegal := alu.isNone && lsu.isNone && br.isNone && !system && !fence
    imm := decodeImm instr }

namespace ScalarOp

variable (o : ScalarOp)

def memRead : Bool := (o.lsu.map LsuOp.reads).getD false

def memWrite : Bool := (o.lsu.map LsuOp.writes).getD false

/-- `branch_o || jump_o`. -/
def control : Bool := o.br.isSome

end ScalarOp

/-! ### What the classes exclude -/

section Classes

variable {p : DecodeParams} {instr : BitVec 32}

theorem earlyClass_of_system (h : rvOpcode instr = opcodeSystem) : earlyClass instr = .system := by
  simp [earlyClass, h, opcodeJal, opcodeJalr, opcodeAmo]

theorem rvOpcode_of_system (h : earlyClass instr = .system) : rvOpcode instr = opcodeSystem := by
  simp only [earlyClass] at h
  split_ifs at h with h1 h2 h3 h4 h5 h6
  simpa using h6

theorem decodeTop_lsu {op : LsuOp} (h : (p.decodeTop instr).lsu = some op) :
    earlyClass instr = .mem ∧ (p.decodeTop instr).br = none ∧
      (p.decodeTop instr).system = false ∧ (p.decodeTop instr).fence = false ∧
      (p.decodeTop instr).illegal = false := by
  have hmem : earlyClass instr = .mem := by
    by_contra hne
    simp [DecodeParams.decodeTop, hne] at h
  simp only [DecodeParams.decodeTop, hmem] at h ⊢
  simp only [EarlyClass.beq_eq_decide, decide_true, if_true] at h
  simp [h]

theorem decodeTop_br {op : BrOp} (h : (p.decodeTop instr).br = some op) :
    (p.decodeTop instr).lsu = none ∧ (p.decodeTop instr).system = false ∧
      (p.decodeTop instr).fence = false ∧ (p.decodeTop instr).illegal = false := by
  have hcls : earlyClass instr = .branch ∨ earlyClass instr = .jump := by
    by_contra hne
    rw [not_or] at hne
    simp [DecodeParams.decodeTop, hne.1, hne.2] at h
  rcases hcls with hcls | hcls <;>
    · simp only [DecodeParams.decodeTop, hcls] at h ⊢
      simp only [EarlyClass.beq_eq_decide, decide_true, Bool.or_true, Bool.true_or, if_true] at h
      simp [h]

theorem decodeTop_system (h : (p.decodeTop instr).system) :
    rvOpcode instr = opcodeSystem ∧ (p.decodeTop instr).lsu = none ∧
      (p.decodeTop instr).br = none ∧ (p.decodeTop instr).fence = false ∧
      (p.decodeTop instr).illegal = false := by
  simp only [DecodeParams.decodeTop, Bool.and_eq_true, EarlyClass.beq_eq_decide,
    decide_eq_true_eq] at h
  refine ⟨rvOpcode_of_system h.1, ?_⟩
  simp [DecodeParams.decodeTop, h.1, h.2]

/-- An instruction of the system opcode is a system operation or illegal. -/
theorem decodeTop_of_system (h : rvOpcode instr = opcodeSystem) :
    (p.decodeTop instr).lsu = none ∧ (p.decodeTop instr).br = none ∧
      (p.decodeTop instr).illegal = !(p.decodeTop instr).system := by
  have hcls := earlyClass_of_system h
  simp [DecodeParams.decodeTop, hcls]

/-- The instruction that stands for a failed fetch touches no memory. -/
theorem decodeTop_nop_lsu : (p.decodeTop instrNop).lsu = none := by
  have hcls : (earlyClass instrNop == .mem) = false := by decide
  rw [DecodeParams.decodeTop]
  simp only [hcls, if_low]

end Classes

end OpenRV64
