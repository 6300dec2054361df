/-
The integer decoder `openrv64_decode_top` with all that it reports: the sub-decoders of the
opcode, the ALU, the memory unit, the register fields and the immediate, and their priority.
The base ALU stands here because it refuses word forms that the decoder lets through.
-/
import OpenRV64.ScalarDecode

namespace OpenRV64

def rvFunct7 (instr : BitVec 32) : BitVec 7 := instr.extractLsb' 25 7

/-! ### What the decoder reports -/

inductive EarlyFormat where
  | invalid
  | r
  | i
  | s
  | b
  | u
  | j
deriving DecidableEq, Repr

/-- `RV64_ALU_OP_*` of the base set. -/
inductive AluOp where
  | add | sub | sll | slt | sltu | xor | srl | sra | or | and
  | lui | auipc
deriving DecidableEq, Repr

/-- `RV64_ALU_OP_*` of the M set. -/
inductive MulOp where
  | mul | mulh | mulhsu | mulhu
  | div | divu | rem | remu
deriving DecidableEq, Repr

/-- `RV64_ALU_OP_ZBB_*`. -/
inductive ZbbOp where
  | andn | orn | xnor
  | min | minu | max | maxu
  | rol | ror
  | clz | ctz | cpop
  | sextB | sextH | zextH
  | orcB | rev8
deriving DecidableEq, Repr

/-- `alu_ext_sel_o` with `alu_op_sel_o`: the code of an operation counts within its set. -/
inductive AluSel where
  | base (op : AluOp)
  | m (op : MulOp)
  | zbb (op : ZbbOp)
deriving DecidableEq, Repr

inductive LsuSize where
  | byte
  | half
  | word
  | dword
deriving DecidableEq, Repr

/-- The parameters of `openrv64_decode_top`. -/
structure DecodeEnables where
  enableRv64m : Bool
  enableRv64zbb : Bool
  enableRv64a : Bool
  enableExtension : Bool
deriving DecidableEq, Repr

/-! ### The opcode -/

/-- The outputs of `openrv64_decode_early`. -/
structure EarlyDecode where
  valid : Bool := false
  cls : EarlyClass := .invalid
  format : EarlyFormat := .invalid
  usesRs1 : Bool := false
  usesRs2 : Bool := false
  usesRd : Bool := false
  regWrite : Bool := false
  memRead : Bool := false
  memWrite : Bool := false
  branch : Bool := false
  jump : Bool := false
  wordOp : Bool := false
  subdecodeNeeded : Bool := false
  extensionDecodePossible : Bool := false
deriving DecidableEq, Repr

/-- `openrv64_decode_early`. -/
def decodeEarly (opcode : BitVec 7) : EarlyDecode :=
  if opcode == opcodeLui || opcode == opcodeAuipc then
    { valid := true, cls := .alu, format := .u, usesRd := true, regWrite := true }
  else if opcode == opcodeJal then
    { valid := true, cls := .jump, format := .j, usesRd := true, regWrite := true, jump := true }
  else if opcode == opcodeJalr then
    { valid := true, cls := .jump, format := .i, usesRs1 := true, usesRd := true
      regWrite := true, jump := true, subdecodeNeeded := true }
  else if opcode == opcodeBranch then
    { valid := true, cls := .branch, format := .b, usesRs1 := true, usesRs2 := true
      branch := true, subdecodeNeeded := true }
  else if opcode == opcodeLoad then
    { valid := true, cls := .mem, format := .i, usesRs1 := true, usesRd := true
      regWrite := true, memRead := true, subdecodeNeeded := true }
  else if opcode == opcodeStore then
    { valid := true, cls := .mem, format := .s, usesRs1 := true, usesRs2 := true
      memWrite := true, subdecodeNeeded := true }
  else if opcode == opcodeAmo then
    { valid := true, cls := .mem, format := .r, usesRs1 := true, usesRs2 := true
      usesRd := true, regWrite := true, memRead := true, memWrite := true
      subdecodeNeeded := true }
  else if opcode == opcodeOpImm then
    { valid := true, cls := .alu, format := .i, usesRs1 := true, usesRd := true
      regWrite := true, subdecodeNeeded := true }
  else if opcode == opcodeOpImm32 then
    { valid := true, cls := .alu, format := .i, usesRs1 := true, usesRd := true
      regWrite := true, wordOp := true, subdecodeNeeded := true }
  else if opcode == opcodeOp then
    { valid := true, cls := .alu, format := .r, usesRs1 := true, usesRs2 := true
      usesRd := true, regWrite := true, subdecodeNeeded := true
      extensionDecodePossible := true }
  else if opcode == opcodeOp32 then
    { valid := true, cls := .alu, format := .r, usesRs1 := true, usesRs2 := true
      usesRd := true, regWrite := true, wordOp := true, subdecodeNeeded := true
      extensionDecodePossible := true }
  else if opcode == opcodeMiscMem then
    { valid := true, cls := .fence, format := .i, subdecodeNeeded := true }
  else if opcode == opcodeSystem then
    { valid := true, cls := .system, format := .i, subdecodeNeeded := true }
  else if opcode.extractLsb' 0 2 == (0b11 : BitVec 2) then
    -- every other opcode of a 32-bit instruction is offered to the extension decoders
    { valid := true, cls := .extension, subdecodeNeeded := true
      extensionDecodePossible := true }
  else {}

/-! ### The ALU -/

/-- `RV64_FUNCT3_SLL` of `RV64_OPCODE_OP_IMM`. -/
def decodeSlli (zbb : Bool) (funct12 : BitVec 12) : Option AluSel :=
  if zbb && funct12 == 0x600 then some (.zbb .clz)
  else if zbb && funct12 == 0x601 then some (.zbb .ctz)
  else if zbb && funct12 == 0x602 then some (.zbb .cpop)
  else if zbb && funct12 == 0x604 then some (.zbb .sextB)
  else if zbb && funct12 == 0x605 then some (.zbb .sextH)
  else if funct12.extractLsb' 6 6 == (0b000000 : BitVec 6) then some (.base .sll)
  else none

/-- `RV64_FUNCT3_SRL_SRA` of `RV64_OPCODE_OP_IMM`. -/
def decodeSrli (zbb : Bool) (funct12 : BitVec 12) : Option AluSel :=
  let funct6 : BitVec 6 := funct12.extractLsb' 6 6
  if zbb && funct6 == 0b011000 then some (.zbb .ror)
  else if zbb && funct12 == 0x287 then some (.zbb .orcB)
  else if zbb && funct12 == 0x6b8 then some (.zbb .rev8)
  else if funct6 == 0b000000 then some (.base .srl)
  else if funct6 == 0b010000 then some (.base .sra)
  else none

/-- The arm of `openrv64_decode_alu` for `RV64_OPCODE_OP_IMM`. -/
def decodeOpImm (zbb : Bool) (funct3 : BitVec 3) (funct12 : BitVec 12) : Option AluSel :=
  if funct3 == 0b000 then some (.base .add)
  else if funct3 == 0b010 then some (.base .slt)
  else if funct3 == 0b011 then some (.base .sltu)
  else if funct3 == 0b100 then some (.base .xor)
  else if funct3 == 0b110 then some (.base .or)
  else if funct3 == 0b111 then some (.base .and)
  else if funct3 == 0b001 then decodeSlli zbb funct12
  else decodeSrli zbb funct12

/-- The arm of `openrv64_decode_alu` for `RV64_OPCODE_OP_IMM_32`. -/
def decodeOpImm32 (zbb : Bool) (funct3 : BitVec 3) (funct12 : BitVec 12) : Option AluSel :=
  let funct7 : BitVec 7 := funct12.extractLsb' 5 7
  if funct3 == 0b000 then some (.base .add)
  else if funct3 == 0b001 then
    if zbb && funct12 == 0x600 then some (.zbb .clz)
    else if zbb && funct12 == 0x601 then some (.zbb .ctz)
    else if zbb && funct12 == 0x602 then some (.zbb .cpop)
    else if funct7 == 0b0000000 then some (.base .sll)
    else none
  else if funct3 == 0b101 then
    if zbb && funct7 == 0b0110000 then some (.zbb .ror)
    else if funct7 == 0b0000000 then some (.base .srl)
    else if funct7 == 0b0100000 then some (.base .sra)
    else none
  else none

/-- The M operations of `RV64_OPCODE_OP` and, for `isWord`, of `RV64_OPCODE_OP_32`. -/
def decodeMul (isWord : Bool) (funct3 : BitVec 3) : Option MulOp :=
  if funct3 == 0b000 then some .mul
  else if !isWord && funct3 == 0b001 then some .mulh
  else if !isWord && funct3 == 0b010 then some .mulhsu
  else if !isWord && funct3 == 0b011 then some .mulhu
  else if funct3 == 0b100 then some .div
  else if funct3 == 0b101 then some .divu
  else if funct3 == 0b110 then some .rem
  else if funct3 == 0b111 then some .remu
  else none

/-- The base operations of `RV64_OPCODE_OP` and of `RV64_OPCODE_OP_32`: one table for both. -/
def decodeBase (funct3 : BitVec 3) (funct7 : BitVec 7) : Option AluOp :=
  if funct3 == 0b000 then
    if funct7 == 0b0000000 then some .add
    else if funct7 == 0b0100000 then some .sub
    else none
  else if funct3 == 0b101 then
    if funct7 == 0b0000000 then some .srl
    else if funct7 == 0b0100000 then some .sra
    else none
  else if funct7 == 0b0000000 then
    if funct3 == 0b001 then some .sll
    else if funct3 == 0b010 then some .slt
    else if funct3 == 0b011 then some .sltu
    else if funct3 == 0b100 then some .xor
    else if funct3 == 0b110 then some .or
    else some .and
  else none

/-- The arm of `openrv64_decode_alu` for `RV64_OPCODE_OP` and, for `isWord`,
`RV64_OPCODE_OP_32`. -/
def decodeOp (m zbb isWord : Bool) (funct3 : BitVec 3) (funct7 : BitVec 7) (rs2 : BitVec 5) :
    Option AluSel :=
  if zbb && !isWord && funct7 == 0b0100000 &&
      (funct3 == 0b111 || funct3 == 0b110 || funct3 == 0b100) then
    if funct3 == 0b111 then some (.zbb .andn)
    else if funct3 == 0b110 then some (.zbb .orn)
    else some (.zbb .xnor)
  else if zbb && !isWord && funct7 == 0b0000101 then
    if funct3 == 0b100 then some (.zbb .min)
    else if funct3 == 0b101 then some (.zbb .minu)
    else if funct3 == 0b110 then some (.zbb .max)
    else if funct3 == 0b111 then some (.zbb .maxu)
    else none
  else if zbb && funct7 == 0b0110000 && (funct3 == 0b001 || funct3 == 0b101) then
    if funct3 == 0b001 then some (.zbb .rol) else some (.zbb .ror)
  else if zbb && isWord && funct7 == 0b0000100 && funct3 == 0b100 && rs2 == 0 then
    some (.zbb .zextH)
  else if funct7 == 0b0000001 then
    if m then (decodeMul isWord funct3).map .m else none
  else (decodeBase funct3 funct7).map .base

/-- `openrv64_decode_alu`: the operation of a legal word. -/
def decodeAlu (p : DecodeEnables) (instr : BitVec 32) : Option AluSel :=
  let opcode := rvOpcode instr
  if opcode == opcodeLui then some (.base .lui)
  else if opcode == opcodeAuipc then some (.base .auipc)
  else if opcode == opcodeOpImm then
    decodeOpImm p.enableRv64zbb (rvFunct3 instr) (rvCsr instr)
  else if opcode == opcodeOpImm32 then
    decodeOpImm32 p.enableRv64zbb (rvFunct3 instr) (rvCsr instr)
  else if opcode == opcodeOp || opcode == opcodeOp32 then
    decodeOp p.enableRv64m p.enableRv64zbb (opcode == opcodeOp32) (rvFunct3 instr)
      (rvFunct7 instr) (rvRs2 instr)
  else none

/-- `word_op_o` of `openrv64_decode_alu`. -/
def aluWordOp (opcode : BitVec 7) : Bool := opcode == opcodeOpImm32 || opcode == opcodeOp32

/-! ### Memory operations -/

/-- `size_sel_o` of `openrv64_decode_lsu`: an atomic operation has the size of its `funct3`. -/
def LsuOp.size (funct3 : BitVec 3) : LsuOp → LsuSize
  | lb | lbu | sb => .byte
  | lh | lhu | sh => .half
  | lw | lwu | sw => .word
  | ld | sd => .dword
  | _ => if funct3 == 0b010 then .word else .dword

/-- `unsigned_o` of `openrv64_decode_lsu`. -/
def LsuOp.unsigned : LsuOp → Bool
  | lbu | lhu | lwu => true
  | _ => false

namespace BrOp

/-- `branch_o` of `openrv64_decode_br`. -/
def isBranch : BrOp → Bool
  | jal | jalr => false
  | _ => true

/-- `jump_o` and `link_o` of `openrv64_decode_br`. -/
def isJump : BrOp → Bool
  | jal | jalr => true
  | _ => false

def isIndirect : BrOp → Bool
  | jalr => true
  | _ => false

end BrOp

/-! ### The base ALU -/

/-- `openrv64_exec_alu_rv64i`: `none` is its `illegal_o`, which it raises for every word form
that does not exist. -/
def execAlu (op : AluOp) (wordOp : Bool) (src1 src2 pc : BitVec 64) : Option (BitVec 64) :=
  let word (value : BitVec 32) : BitVec 64 := value.signExtend 64
  let low1 : BitVec 32 := src1.setWidth 32
  let low2 : BitVec 32 := src2.setWidth 32
  let amount : Nat := (src2.setWidth 6).toNat
  let wordAmount : Nat := (src2.setWidth 5).toNat
  let xlen (value : BitVec 64) : Option (BitVec 64) := if wordOp then none else some value
  match op with
  | .add => some (if wordOp then word (low1 + low2) else src1 + src2)
  | .sub => some (if wordOp then word (low1 - low2) else src1 - src2)
  | .sll => some (if wordOp then word (low1 <<< wordAmount) else src1 <<< amount)
  | .srl => some (if wordOp then word (low1 >>> wordAmount) else src1 >>> amount)
  | .sra => some (if wordOp then word (low1.sshiftRight wordAmount) else src1.sshiftRight amount)
  | .slt => xlen (if src1.slt src2 then 1 else 0)
  | .sltu => xlen (if src1 < src2 then 1 else 0)
  | .xor => xlen (src1 ^^^ src2)
  | .or => xlen (src1 ||| src2)
  | .and => xlen (src1 &&& src2)
  | .lui => xlen src2
  | .auipc => xlen (pc + src2)

/-! ### Register fields -/

/-- The outputs of the register decoders. -/
structure RegFields where
  valid : Bool := false
  usesRs1 : Bool := false
  usesRs2 : Bool := false
  usesRd : Bool := false
  rs1Addr : BitVec 5 := 0
  rs2Addr : BitVec 5 := 0
  rdAddr : BitVec 5 := 0
deriving DecidableEq, Repr

/-- `openrv64_decode_reg_alu`. -/
def decodeRegAlu (instr : BitVec 32) : RegFields :=
  let opcode := rvOpcode instr
  if opcode == opcodeLui || opcode == opcodeAuipc then
    { valid := true, usesRd := true, rdAddr := rvRd instr }
  else if opcode == opcodeOpImm || opcode == opcodeOpImm32 then
    { valid := true, usesRs1 := true, usesRd := true
      rs1Addr := rvRs1 instr, rdAddr := rvRd instr }
  else if opcode == opcodeOp || opcode == opcodeOp32 then
    { valid := true, usesRs1 := true, usesRs2 := true, usesRd := true
      rs1Addr := rvRs1 instr, rs2Addr := rvRs2 instr, rdAddr := rvRd instr }
  else {}

/-- `openrv64_decode_reg_lsu`. -/
def decodeRegLsu (instr : BitVec 32) : RegFields :=
  let opcode := rvOpcode instr
  if opcode == opcodeLoad then
    { valid := true, usesRs1 := true, usesRd := true
      rs1Addr := rvRs1 instr, rdAddr := rvRd instr }
  else if opcode == opcodeStore then
    { valid := true, usesRs1 := true, usesRs2 := true
      rs1Addr := rvRs1 instr, rs2Addr := rvRs2 instr }
  else if opcode == opcodeAmo then
    let usesRs2 := amoFunct5 instr != 0b00010
    { valid := true, usesRs1 := true, usesRs2 := usesRs2, usesRd := true
      rs1Addr := rvRs1 instr, rs2Addr := if usesRs2 then rvRs2 instr else 0
      rdAddr := rvRd instr }
  else {}

/-- `openrv64_decode_reg_system`. -/
def decodeRegSystem (instr : BitVec 32) : RegFields :=
  let funct3 := rvFunct3 instr
  if rvOpcode instr == opcodeSystem then
    if funct3 == 0b000 then { valid := true }
    else if funct3 == 0b001 || funct3 == 0b010 || funct3 == 0b011 then
      { valid := true, usesRs1 := true, usesRd := true
        rs1Addr := rvRs1 instr, rdAddr := rvRd instr }
    else if funct3 == 0b101 || funct3 == 0b110 || funct3 == 0b111 then
      { valid := true, usesRd := true, rdAddr := rvRd instr }
    else {}
  else {}

/-! ### The immediate -/

/-- `openrv64_decode_imm`: `none` is an invalid format, `some none` a format without an
immediate. -/
def decodeImmediate (format : EarlyFormat) (instr : BitVec 32) : Option (Option (BitVec 64)) :=
  match format with
  | .invalid => none
  | .r => some none
  | .i => some (some (immI instr))
  | .s => some (some (immS instr))
  | .b => some (some (immB instr))
  | .u => some (some (immU instr))
  | .j => some (some (immJ instr))

/-! ### The decoder -/

/-- The response of an extension decoder, its payload left out. -/
structure ExtensionResponse where
  selected : Bool := false
  valid : Bool := false
  illegal : Bool := false
  cls : EarlyClass := .invalid
  format : EarlyFormat := .invalid
  usesRs1 : Bool := false
  usesRs2 : Bool := false
  usesRd : Bool := false
  rs1Addr : BitVec 5 := 0
  rs2Addr : BitVec 5 := 0
  rdAddr : BitVec 5 := 0
  regWrite : Bool := false
  immValid : Bool := false
  hasImm : Bool := false
  imm : BitVec 64 := 0
  memRead : Bool := false
  memWrite : Bool := false
  lsuOp : Option LsuOp := none
  lsuSize : LsuSize := .byte
  lsuUnsigned : Bool := false
deriving DecidableEq, Repr

/-- No extension decoder claims the word. -/
def ExtensionResponse.idle : ExtensionResponse := {}

/-- The outputs of `openrv64_decode_top`.  `none` stands for the `INVALID` operations. -/
structure DecodeTop where
  valid : Bool
  illegal : Bool
  cls : EarlyClass
  format : EarlyFormat
  usesRs1 : Bool
  usesRs2 : Bool
  usesRd : Bool
  rs1Addr : BitVec 5
  rs2Addr : BitVec 5
  rdAddr : BitVec 5
  regWrite : Bool
  immValid : Bool
  hasImm : Bool
  imm : BitVec 64
  memRead : Bool
  memWrite : Bool
  branch : Bool
  jump : Bool
  wordOp : Bool
  system : Bool
  fence : Bool
  alu : Option AluSel
  lsuOp : Option LsuOp
  lsuSize : LsuSize
  lsuUnsigned : Bool
  brOp : Option BrOp
  brLink : Bool
  brIndirect : Bool
  subdecodeNeeded : Bool
  extensionCandidate : Bool
  extensionInstr : Bool
deriving DecidableEq, Repr

namespace DecodeEnables

variable (p : DecodeEnables)

/-- `selected_decode_valid` with `selected_decode_illegal` low: the sub-decoder of the class
accepts the word. -/
def selectedDecode (instr : BitVec 32) : Bool :=
  match (decodeEarly (rvOpcode instr)).cls with
  | .alu => (decodeAlu p instr).isSome
  | .mem => (decodeLsu p.enableRv64a instr).isSome
  | .branch | .jump => (decodeBr instr).isSome
  | .system => decodeSystem instr
  | .fence => decodeFence instr
  | .extension | .invalid => true

/-- `selected_reg_valid` and the selected register fields. -/
def selectedRegs (instr : BitVec 32) : RegFields :=
  let early := decodeEarly (rvOpcode instr)
  match early.cls with
  | .alu => decodeRegAlu instr
  | .mem => decodeRegLsu instr
  | .system => decodeRegSystem instr
  | _ =>
    { valid := true
      usesRs1 := early.usesRs1
      usesRs2 := early.usesRs2
      usesRd := early.usesRd
      rs1Addr := if early.usesRs1 then rvRs1 instr else 0
      rs2Addr := if early.usesRs2 then rvRs2 instr else 0
      rdAddr := if early.usesRd then rvRd instr else 0 }

/-- `illegal_o` when no extension decoder has selected the word. -/
def integerIllegal (instr : BitVec 32) : Bool :=
  let early := decodeEarly (rvOpcode instr)
  !early.valid || (decodeImmediate early.format instr).isNone || !p.selectedDecode instr ||
    !(selectedRegs instr).valid

/-- `extension_candidate`. -/
def extensionCandidate (instr : BitVec 32) : Bool :=
  let early := decodeEarly (rvOpcode instr)
  early.valid && early.extensionDecodePossible

/-- `extension_selected`. -/
def extensionSelected (ext : ExtensionResponse) (instr : BitVec 32) : Bool :=
  p.enableExtension && (extensionCandidate instr && ext.selected)

/-- `openrv64_decode_top`. -/
def decodeTop (ext : ExtensionResponse) (instr : BitVec 32) : DecodeTop :=
  let early := decodeEarly (rvOpcode instr)
  let imm := decodeImmediate early.format instr
  let regs := selectedRegs instr
  let selected := p.extensionSelected ext instr
  let illegal := if selected then ext.illegal else p.integerIllegal instr
  let valid := if selected then ext.valid && !ext.illegal else
    early.valid && imm.isSome && !illegal
  let integer := valid && !selected
  let lsu := if integer && early.cls == .mem then decodeLsu p.enableRv64a instr else none
  let br := if integer && (early.cls == .branch || early.cls == .jump) then decodeBr instr
    else none
  let alu := if integer && early.cls == .alu then decodeAlu p instr else none
  let usesRs1 := valid && if selected then ext.usesRs1 else regs.usesRs1
  let usesRs2 := valid && if selected then ext.usesRs2 else regs.usesRs2
  let usesRd := valid && if selected then ext.usesRd else regs.usesRd
  let immValid := if selected then ext.immValid else early.valid && imm.isSome
  { valid := valid
    illegal := illegal
    cls := if selected then ext.cls else early.cls
    format := if selected then ext.format else early.format
    usesRs1 := usesRs1
    usesRs2 := usesRs2
    usesRd := usesRd
    rs1Addr := if usesRs1 then if selected then ext.rs1Addr else regs.rs1Addr else 0
    rs2Addr := if usesRs2 then if selected then ext.rs2Addr else regs.rs2Addr else 0
    rdAddr := if usesRd then if selected then ext.rdAddr else regs.rdAddr else 0
    regWrite := valid && if selected then ext.regWrite
      else if early.cls == .system then (decodeRegSystem instr).usesRd else early.regWrite
    immValid := immValid
    hasImm := immValid && if selected then ext.hasImm else (imm.getD none).isSome
    imm := if immValid then if selected then ext.imm else (imm.getD none).getD 0 else 0
    memRead := valid && if selected then ext.memRead
      else (lsu.map LsuOp.reads).getD false && early.memRead
    memWrite := valid && if selected then ext.memWrite
      else (lsu.map LsuOp.writes).getD false && early.memWrite
    branch := integer && early.cls == .branch && (br.map BrOp.isBranch).getD false && early.branch
    jump := integer && early.cls == .jump && (br.map BrOp.isJump).getD false && early.jump
    wordOp := integer && early.cls == .alu && aluWordOp (rvOpcode instr) && early.wordOp
    system := integer && early.cls == .system
    fence := integer && early.cls == .fence
    alu := alu
    lsuOp := if valid && selected then ext.lsuOp else lsu
    lsuSize := if valid && selected then ext.lsuSize
      else (lsu.map (LsuOp.size (rvFunct3 instr))).getD .byte
    lsuUnsigned := valid && if selected then ext.lsuUnsigned
      else (lsu.map LsuOp.unsigned).getD false
    brOp := br
    brLink := (br.map BrOp.isJump).getD false
    brIndirect := (br.map BrOp.isIndirect).getD false
    subdecodeNeeded := if selected then true else early.valid && early.subdecodeNeeded
    extensionCandidate := extensionCandidate instr
    extensionInstr := valid && selected }

end DecodeEnables

end OpenRV64
