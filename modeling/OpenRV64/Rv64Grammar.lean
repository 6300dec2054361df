/-
The instruction set as a grammar: the instructions of RV64I, Zicsr, Zifencei, M, A and Zbb
with the privileged ones, the word of each, and what a decoder has to report for it.
-/
import OpenRV64.InstrFormat
import OpenRV64.DecodeTop

namespace OpenRV64

open InstrFormat

/-! ### Families of instructions -/

inductive BranchKind where
  | beq | bne | blt | bge | bltu | bgeu
deriving DecidableEq, Repr

namespace BranchKind

def funct3 : BranchKind → BitVec 3
  | beq => 0b000
  | bne => 0b001
  | blt => 0b100
  | bge => 0b101
  | bltu => 0b110
  | bgeu => 0b111

def op : BranchKind → BrOp
  | beq => .beq
  | bne => .bne
  | blt => .blt
  | bge => .bge
  | bltu => .bltu
  | bgeu => .bgeu

end BranchKind

inductive LoadKind where
  | lb | lh | lw | ld | lbu | lhu | lwu
deriving DecidableEq, Repr

namespace LoadKind

def funct3 : LoadKind → BitVec 3
  | lb => 0b000
  | lh => 0b001
  | lw => 0b010
  | ld => 0b011
  | lbu => 0b100
  | lhu => 0b101
  | lwu => 0b110

/-- The operation, the access size and whether the value is extended with zeros. -/
def op : LoadKind → LsuOp × LsuSize × Bool
  | lb => (.lb, .byte, false)
  | lh => (.lh, .half, false)
  | lw => (.lw, .word, false)
  | ld => (.ld, .dword, false)
  | lbu => (.lbu, .byte, true)
  | lhu => (.lhu, .half, true)
  | lwu => (.lwu, .word, true)

end LoadKind

inductive StoreKind where
  | sb | sh | sw | sd
deriving DecidableEq, Repr

namespace StoreKind

def funct3 : StoreKind → BitVec 3
  | sb => 0b000
  | sh => 0b001
  | sw => 0b010
  | sd => 0b011

def op : StoreKind → LsuOp × LsuSize × Bool
  | sb => (.sb, .byte, false)
  | sh => (.sh, .half, false)
  | sw => (.sw, .word, false)
  | sd => (.sd, .dword, false)

end StoreKind

/-- Operations on a register and a twelve-bit immediate. -/
inductive ImmKind where
  | addi | slti | sltiu | xori | ori | andi
deriving DecidableEq, Repr

namespace ImmKind

def funct3 : ImmKind → BitVec 3
  | addi => 0b000
  | slti => 0b010
  | sltiu => 0b011
  | xori => 0b100
  | ori => 0b110
  | andi => 0b111

def op : ImmKind → AluOp
  | addi => .add
  | slti => .slt
  | sltiu => .sltu
  | xori => .xor
  | ori => .or
  | andi => .and

end ImmKind

/-- Shifts and rotations by a constant. -/
inductive ShiftKind where
  | slli | srli | srai | rori
deriving DecidableEq, Repr

namespace ShiftKind

def funct3 : ShiftKind → BitVec 3
  | slli => 0b001
  | srli | srai | rori => 0b101

def funct6 : ShiftKind → BitVec 6
  | slli | srli => 0b000000
  | srai => 0b010000
  | rori => 0b011000

def sel : ShiftKind → AluSel
  | slli => .base .sll
  | srli => .base .srl
  | srai => .base .sra
  | rori => .zbb .ror

end ShiftKind

/-- Zbb operations on one register. -/
inductive UnaryKind where
  | clz | ctz | cpop | sextB | sextH | orcB | rev8
deriving DecidableEq, Repr

namespace UnaryKind

def funct3 : UnaryKind → BitVec 3
  | clz | ctz | cpop | sextB | sextH => 0b001
  | orcB | rev8 => 0b101

def funct12 : UnaryKind → BitVec 12
  | clz => 0x600
  | ctz => 0x601
  | cpop => 0x602
  | sextB => 0x604
  | sextH => 0x605
  | orcB => 0x287
  | rev8 => 0x6b8

def op : UnaryKind → ZbbOp
  | clz => .clz
  | ctz => .ctz
  | cpop => .cpop
  | sextB => .sextB
  | sextH => .sextH
  | orcB => .orcB
  | rev8 => .rev8

/-- The counts also exist on the low word. -/
def hasWord : UnaryKind → Bool
  | clz | ctz | cpop => true
  | _ => false

end UnaryKind

/-- Operations on two registers. -/
inductive RegKind where
  | add | sub | sll | slt | sltu | xor | srl | sra | or | and
  | mul | mulh | mulhsu | mulhu | div | divu | rem | remu
  | andn | orn | xnor | min | minu | max | maxu | rol | ror
deriving DecidableEq, Repr

namespace RegKind

def funct3 : RegKind → BitVec 3
  | add | sub | mul => 0b000
  | sll | mulh | rol => 0b001
  | slt | mulhsu => 0b010
  | sltu | mulhu => 0b011
  | xor | div | xnor | min => 0b100
  | srl | sra | divu | minu | ror => 0b101
  | or | rem | orn | max => 0b110
  | and | remu | andn | maxu => 0b111

def sel : RegKind → AluSel
  | add => .base .add
  | sub => .base .sub
  | sll => .base .sll
  | slt => .base .slt
  | sltu => .base .sltu
  | xor => .base .xor
  | srl => .base .srl
  | sra => .base .sra
  | or => .base .or
  | and => .base .and
  | mul => .m .mul
  | mulh => .m .mulh
  | mulhsu => .m .mulhsu
  | mulhu => .m .mulhu
  | div => .m .div
  | divu => .m .divu
  | rem => .m .rem
  | remu => .m .remu
  | andn => .zbb .andn
  | orn => .zbb .orn
  | xnor => .zbb .xnor
  | min => .zbb .min
  | minu => .zbb .minu
  | max => .zbb .max
  | maxu => .zbb .maxu
  | rol => .zbb .rol
  | ror => .zbb .ror

def funct7 : RegKind → BitVec 7
  | sub | sra | andn | orn | xnor => 0b0100000
  | mul | mulh | mulhsu | mulhu | div | divu | rem | remu => 0b0000001
  | min | minu | max | maxu => 0b0000101
  | rol | ror => 0b0110000
  | _ => 0b0000000

/-- The operations that also exist on the low words. -/
def hasWord : RegKind → Bool
  | add | sub | sll | srl | sra | mul | div | divu | rem | remu | rol | ror => true
  | _ => false

end RegKind

inductive ZicsrKind where
  | csrrw | csrrs | csrrc | csrrwi | csrrsi | csrrci
deriving DecidableEq, Repr

namespace ZicsrKind

def funct3 : ZicsrKind → BitVec 3
  | csrrw => 0b001
  | csrrs => 0b010
  | csrrc => 0b011
  | csrrwi => 0b101
  | csrrsi => 0b110
  | csrrci => 0b111

/-- The source field names a register. -/
def readsRegister : ZicsrKind → Bool
  | csrrw | csrrs | csrrc => true
  | csrrwi | csrrsi | csrrci => false

end ZicsrKind

/-- The atomic operations that store, SC among them. -/
inductive AmoKind where
  | sc | swap | add | xor | and | or | min | max | minu | maxu
deriving DecidableEq, Repr

namespace AmoKind

def funct5 : AmoKind → BitVec 5
  | sc => 0b00011
  | swap => 0b00001
  | add => 0b00000
  | xor => 0b00100
  | and => 0b01100
  | or => 0b01000
  | min => 0b10000
  | max => 0b10100
  | minu => 0b11000
  | maxu => 0b11100

def op : AmoKind → LsuOp
  | sc => .sc
  | swap => .amoswap
  | add => .amoadd
  | xor => .amoxor
  | and => .amoand
  | or => .amoor
  | min => .amomin
  | max => .amomax
  | minu => .amominu
  | maxu => .amomaxu

end AmoKind

/-! ### Instructions -/

/-- An instruction.  Offsets of branches and jumps count halfwords; `isWord` of an atomic
operation is its 32-bit form, and `ordering` its `aq` and `rl` bits. -/
inductive Instr where
  | lui (rd : BitVec 5) (imm : BitVec 20)
  | auipc (rd : BitVec 5) (imm : BitVec 20)
  | jal (rd : BitVec 5) (offset : BitVec 20)
  | jalr (rd rs1 : BitVec 5) (imm : BitVec 12)
  | branch (k : BranchKind) (rs1 rs2 : BitVec 5) (offset : BitVec 12)
  | load (k : LoadKind) (rd rs1 : BitVec 5) (imm : BitVec 12)
  | store (k : StoreKind) (rs2 rs1 : BitVec 5) (imm : BitVec 12)
  | opImm (k : ImmKind) (rd rs1 : BitVec 5) (imm : BitVec 12)
  | addiw (rd rs1 : BitVec 5) (imm : BitVec 12)
  | shift (k : ShiftKind) (rd rs1 : BitVec 5) (shamt : BitVec 6)
  | shiftw (k : ShiftKind) (rd rs1 : BitVec 5) (shamt : BitVec 5)
  | unary (k : UnaryKind) (rd rs1 : BitVec 5)
  | unaryw (k : UnaryKind) (word : k.hasWord = true) (rd rs1 : BitVec 5)
  | op (k : RegKind) (rd rs1 rs2 : BitVec 5)
  | opw (k : RegKind) (word : k.hasWord = true) (rd rs1 rs2 : BitVec 5)
  | zextH (rd rs1 : BitVec 5)
  | fence (imm : BitVec 12) (rs1 rd : BitVec 5)
  | fenceI (imm : BitVec 12) (rs1 rd : BitVec 5)
  | ecall
  | ebreak
  | sret
  | mret
  | wfi
  | sfenceVma (rs1 rs2 : BitVec 5)
  | csr (k : ZicsrKind) (rd source : BitVec 5) (address : BitVec 12)
  | lr (isWord : Bool) (ordering : BitVec 2) (rd rs1 : BitVec 5)
  | amo (k : AmoKind) (isWord : Bool) (ordering : BitVec 2) (rd rs1 rs2 : BitVec 5)
deriving DecidableEq, Repr

/-- The sets that an implementation may leave out. -/
inductive IsaSet where
  | base
  | m
  | zbb
  | a
deriving DecidableEq, Repr

def AluSel.set : AluSel → IsaSet
  | .base _ => .base
  | .m _ => .m
  | .zbb _ => .zbb

def DecodeEnables.has (p : DecodeEnables) : IsaSet → Bool
  | .base => true
  | .m => p.enableRv64m
  | .zbb => p.enableRv64zbb
  | .a => p.enableRv64a

/-- What a decoder reports of an instruction: the unit and its operation, the registers it
names, the immediate and the effects. -/
structure Meaning where
  cls : EarlyClass
  alu : Option AluSel := none
  lsu : Option (LsuOp × LsuSize × Bool) := none
  br : Option BrOp := none
  wordOp : Bool := false
  rs1 : Option (BitVec 5) := none
  rs2 : Option (BitVec 5) := none
  rd : Option (BitVec 5) := none
  regWrite : Bool := rd.isSome
  imm : Option (BitVec 64) := none
  memRead : Bool := false
  memWrite : Bool := false
  branch : Bool := false
  jump : Bool := false
  link : Bool := false
  indirect : Bool := false
  system : Bool := false
  fence : Bool := false
deriving DecidableEq, Repr

/-- The access size of an atomic operation. -/
def atomicSize (isWord : Bool) : LsuSize := if isWord then .word else .dword

def atomicFunct3 (isWord : Bool) : BitVec 3 := if isWord then 0b010 else 0b011

namespace Instr

/-- The set that an instruction belongs to. -/
def set : Instr → IsaSet
  | shift k .. | shiftw k .. => k.sel.set
  | op k .. | opw k .. => k.sel.set
  | unary .. | unaryw .. | zextH .. => .zbb
  | lr .. | amo .. => .a
  | _ => .base

/-- The word of an instruction. -/
def encode : Instr → BitVec 32
  | lui rd imm => uType imm rd 0b0110111
  | auipc rd imm => uType imm rd 0b0010111
  | jal rd offset => jType offset rd 0b1101111
  | jalr rd rs1 imm => iType imm rs1 0b000 rd 0b1100111
  | branch k rs1 rs2 offset => bType offset rs2 rs1 k.funct3 0b1100011
  | load k rd rs1 imm => iType imm rs1 k.funct3 rd 0b0000011
  | store k rs2 rs1 imm => sType imm rs2 rs1 k.funct3 0b0100011
  | opImm k rd rs1 imm => iType imm rs1 k.funct3 rd 0b0010011
  | addiw rd rs1 imm => iType imm rs1 0b000 rd 0b0011011
  | shift k rd rs1 shamt => iType (k.funct6 ++ shamt) rs1 k.funct3 rd 0b0010011
  | shiftw k rd rs1 shamt => rType (k.funct6 ++ 0#1) shamt rs1 k.funct3 rd 0b0011011
  | unary k rd rs1 => iType k.funct12 rs1 k.funct3 rd 0b0010011
  | unaryw k _ rd rs1 => iType k.funct12 rs1 k.funct3 rd 0b0011011
  | op k rd rs1 rs2 => rType k.funct7 rs2 rs1 k.funct3 rd 0b0110011
  | opw k _ rd rs1 rs2 => rType k.funct7 rs2 rs1 k.funct3 rd 0b0111011
  | zextH rd rs1 => rType 0b0000100 0 rs1 0b100 rd 0b0111011
  | fence imm rs1 rd => iType imm rs1 0b000 rd 0b0001111
  | fenceI imm rs1 rd => iType imm rs1 0b001 rd 0b0001111
  | ecall => iType 0x000 0 0b000 0 0b1110011
  | ebreak => iType 0x001 0 0b000 0 0b1110011
  | sret => iType 0x102 0 0b000 0 0b1110011
  | mret => iType 0x302 0 0b000 0 0b1110011
  | wfi => iType 0x105 0 0b000 0 0b1110011
  | sfenceVma rs1 rs2 => rType 0b0001001 rs2 rs1 0b000 0 0b1110011
  | csr k rd source address => iType address source k.funct3 rd 0b1110011
  | lr isWord ordering rd rs1 =>
    rType (0b00010#5 ++ ordering) 0 rs1 (atomicFunct3 isWord) rd 0b0101111
  | amo k isWord ordering rd rs1 rs2 =>
    rType (k.funct5 ++ ordering) rs2 rs1 (atomicFunct3 isWord) rd 0b0101111

/-- The meaning of an instruction of the ALU with an immediate. -/
def aluImm (sel : AluSel) (isWord : Bool) (rd rs1 : BitVec 5) (imm : BitVec 12) : Meaning :=
  { cls := .alu, alu := some sel, wordOp := isWord, rs1 := some rs1, rd := some rd
    imm := some (imm.signExtend 64) }

def aluReg (sel : AluSel) (isWord : Bool) (rd rs1 rs2 : BitVec 5) : Meaning :=
  { cls := .alu, alu := some sel, wordOp := isWord, rs1 := some rs1, rs2 := some rs2
    rd := some rd }

/-- The meaning of a system instruction without a CSR. -/
def privileged (funct12 : BitVec 12) : Meaning :=
  { cls := .system, system := true, imm := some (funct12.signExtend 64) }

/-- What the instruction set manual says of an instruction: a shift amount is the low part of
the immediate, a CSR address the low twelve bits. -/
def meaning : Instr → Meaning
  | lui rd imm =>
    { cls := .alu, alu := some (.base .lui), rd := some rd
      imm := some ((imm ++ 0#12).signExtend 64) }
  | auipc rd imm =>
    { cls := .alu, alu := some (.base .auipc), rd := some rd
      imm := some ((imm ++ 0#12).signExtend 64) }
  | jal rd offset =>
    { cls := .jump, br := some .jal, jump := true, link := true, rd := some rd
      imm := some ((offset ++ 0#1).signExtend 64) }
  | jalr rd rs1 imm =>
    { cls := .jump, br := some .jalr, jump := true, link := true, indirect := true
      rs1 := some rs1, rd := some rd, imm := some (imm.signExtend 64) }
  | branch k rs1 rs2 offset =>
    { cls := .branch, br := some k.op, branch := true, rs1 := some rs1, rs2 := some rs2
      imm := some ((offset ++ 0#1).signExtend 64) }
  | load k rd rs1 imm =>
    { cls := .mem, lsu := some k.op, memRead := true, rs1 := some rs1, rd := some rd
      imm := some (imm.signExtend 64) }
  | store k rs2 rs1 imm =>
    { cls := .mem, lsu := some k.op, memWrite := true, rs1 := some rs1, rs2 := some rs2
      imm := some (imm.signExtend 64) }
  | opImm k rd rs1 imm => aluImm (.base k.op) false rd rs1 imm
  | addiw rd rs1 imm => aluImm (.base .add) true rd rs1 imm
  | shift k rd rs1 shamt => aluImm k.sel false rd rs1 (k.funct6 ++ shamt)
  | shiftw k rd rs1 shamt => aluImm k.sel true rd rs1 (k.funct6 ++ 0#1 ++ shamt)
  | unary k rd rs1 => aluImm (.zbb k.op) false rd rs1 k.funct12
  | unaryw k _ rd rs1 => aluImm (.zbb k.op) true rd rs1 k.funct12
  | op k rd rs1 rs2 => aluReg k.sel false rd rs1 rs2
  | opw k _ rd rs1 rs2 => aluReg k.sel true rd rs1 rs2
  | zextH rd rs1 =>
    { cls := .alu, alu := some (.zbb .zextH), wordOp := true, rs1 := some rs1, rd := some rd }
  | fence imm _ _ => { cls := .fence, fence := true, imm := some (imm.signExtend 64) }
  | fenceI imm _ _ => { cls := .fence, fence := true, imm := some (imm.signExtend 64) }
  | ecall => privileged 0x000
  | ebreak => privileged 0x001
  | sret => privileged 0x102
  | mret => privileged 0x302
  | wfi => privileged 0x105
  | sfenceVma rs1 rs2 =>
    { privileged (0b0001001#7 ++ rs2) with rs1 := some rs1, rs2 := some rs2 }
  | csr k rd source address =>
    { cls := .system, system := true, rs1 := if k.readsRegister then some source else none
      rd := some rd, imm := some (address.signExtend 64) }
  | lr isWord _ rd rs1 =>
    { cls := .mem, lsu := some (.lr, atomicSize isWord, false), memRead := true
      rs1 := some rs1, rd := some rd }
  | amo k isWord _ rd rs1 rs2 =>
    { cls := .mem, lsu := some (k.op, atomicSize isWord, false), memRead := k != .sc
      memWrite := true, rs1 := some rs1, rs2 := some rs2, rd := some rd }

/-- What this core reports: SFENCE.VMA always flushes everything and reads no register, and
ZEXT.H is decoded as the PACKW with `x0` that encodes it. -/
def reported : Instr → Meaning
  | sfenceVma rs1 rs2 => { (sfenceVma rs1 rs2).meaning with rs1 := none, rs2 := none }
  | zextH rd rs1 => { (zextH rd rs1).meaning with rs2 := some 0 }
  | i => i.meaning

end Instr

/-- What `openrv64_decode_top` reports, as a meaning. -/
def DecodeTop.meaning (d : DecodeTop) : Meaning :=
  { cls := d.cls
    alu := d.alu
    lsu := d.lsuOp.map fun op => (op, d.lsuSize, d.lsuUnsigned)
    br := d.brOp
    wordOp := d.wordOp
    rs1 := if d.usesRs1 then some d.rs1Addr else none
    rs2 := if d.usesRs2 then some d.rs2Addr else none
    rd := if d.usesRd then some d.rdAddr else none
    regWrite := d.regWrite
    imm := if d.hasImm then some d.imm else none
    memRead := d.memRead
    memWrite := d.memWrite
    branch := d.branch
    jump := d.jump
    link := d.brLink
    indirect := d.brIndirect
    system := d.system
    fence := d.fence }

end OpenRV64
