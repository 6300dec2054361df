/-
The decompressor `openrv64_decode_rv64c`, and the compressed instruction set as a grammar: the
parcel of each instruction, the instruction that it stands for, and the parcels that are
reserved or belong to the floating-point extensions.
-/
import OpenRV64.Rv64Grammar

namespace OpenRV64

open InstrFormat

/-! ### The decompressor -/

/-- The outputs of `openrv64_decode_rv64c`. -/
structure Decompressed where
  instr : BitVec 32
  compressed : Bool
  illegal : Bool
  unsupportedLength : Bool
  instrBytes : BitVec 3
deriving DecidableEq, Repr

namespace Decompressed

def encodeI (imm : BitVec 12) (rs1 : BitVec 5) (funct3 : BitVec 3) (rd : BitVec 5)
    (opcode : BitVec 7) : BitVec 32 :=
  imm ++ rs1 ++ funct3 ++ rd ++ opcode

def encodeR (funct7 : BitVec 7) (rs2 rs1 : BitVec 5) (funct3 : BitVec 3) (rd : BitVec 5)
    (opcode : BitVec 7) : BitVec 32 :=
  funct7 ++ rs2 ++ rs1 ++ funct3 ++ rd ++ opcode

def encodeS (imm : BitVec 12) (rs2 rs1 : BitVec 5) (funct3 : BitVec 3) (opcode : BitVec 7) :
    BitVec 32 :=
  imm.extractLsb' 5 7 ++ rs2 ++ rs1 ++ funct3 ++ imm.extractLsb' 0 5 ++ opcode

def encodeB (imm : BitVec 13) (rs2 rs1 : BitVec 5) (funct3 : BitVec 3) (opcode : BitVec 7) :
    BitVec 32 :=
  imm.extractLsb' 12 1 ++ imm.extractLsb' 5 6 ++ rs2 ++ rs1 ++ funct3 ++
    imm.extractLsb' 1 4 ++ imm.extractLsb' 11 1 ++ opcode

def encodeU (imm : BitVec 20) (rd : BitVec 5) (opcode : BitVec 7) : BitVec 32 := imm ++ rd ++ opcode

def encodeJ (imm : BitVec 21) (rd : BitVec 5) (opcode : BitVec 7) : BitVec 32 :=
  imm.extractLsb' 20 1 ++ imm.extractLsb' 1 10 ++ imm.extractLsb' 11 1 ++
    imm.extractLsb' 12 8 ++ rd ++ opcode

section Quadrants

variable (c : BitVec 16)

/-- `c_rd`. -/
def cRd : BitVec 5 := c.extractLsb' 7 5

/-- `c_rs1_prime`. -/
def cRs1Prime : BitVec 5 := 0b01#2 ++ c.extractLsb' 7 3

/-- `c_rs2_prime`. -/
def cRs2Prime : BitVec 5 := 0b01#2 ++ c.extractLsb' 2 3

/-- `c_instr[6:2]`. -/
def cLow : BitVec 5 := c.extractLsb' 2 5

/-- The sign-extended immediate of `c_instr[12]` and `c_instr[6:2]`. -/
def cImm6 : BitVec 12 := (c.extractLsb' 12 1 ++ cLow c).signExtend 12

/-- The offset of a word access. -/
def cWordOffset : BitVec 12 :=
  0#5 ++ c.extractLsb' 5 1 ++ c.extractLsb' 10 3 ++ c.extractLsb' 6 1 ++ 0#2

/-- The offset of a doubleword access. -/
def cDwordOffset : BitVec 12 := 0#4 ++ c.extractLsb' 5 2 ++ c.extractLsb' 10 3 ++ 0#3

/-- The quadrant `2'b00`; `none` is `illegal_o`. -/
def quadrant0 : Option (BitVec 32) :=
  let funct3 : BitVec 3 := c.extractLsb' 13 3
  if funct3 == 0b000 then
    let imm : BitVec 12 := 0#2 ++ c.extractLsb' 7 4 ++ c.extractLsb' 11 2 ++ c.extractLsb' 5 1 ++
      c.extractLsb' 6 1 ++ 0#2
    if imm == 0 then none else some (encodeI imm 2 0b000 (cRs2Prime c) opcodeOpImm)
  else if funct3 == 0b010 then
    some (encodeI (cWordOffset c) (cRs1Prime c) 0b010 (cRs2Prime c) opcodeLoad)
  else if funct3 == 0b011 then
    some (encodeI (cDwordOffset c) (cRs1Prime c) 0b011 (cRs2Prime c) opcodeLoad)
  else if funct3 == 0b110 then
    some (encodeS (cWordOffset c) (cRs2Prime c) (cRs1Prime c) 0b010 opcodeStore)
  else if funct3 == 0b111 then
    some (encodeS (cDwordOffset c) (cRs2Prime c) (cRs1Prime c) 0b011 opcodeStore)
  else none

/-- `funct3` `3'b100` of the quadrant `2'b01`. -/
def quadrant1Alu : Option (BitVec 32) :=
  let rd := cRs1Prime c
  let rs2 := cRs2Prime c
  let sub : BitVec 2 := c.extractLsb' 5 2
  let shamt : BitVec 6 := c.extractLsb' 12 1 ++ cLow c
  if c.extractLsb' 10 2 == (0b00 : BitVec 2) then
    some (encodeI (0b000000#6 ++ shamt) rd 0b101 rd opcodeOpImm)
  else if c.extractLsb' 10 2 == (0b01 : BitVec 2) then
    some (encodeI (0b010000#6 ++ shamt) rd 0b101 rd opcodeOpImm)
  else if c.extractLsb' 10 2 == (0b10 : BitVec 2) then
    some (encodeI (cImm6 c) rd 0b111 rd opcodeOpImm)
  else if c.extractLsb' 12 1 == (0b0 : BitVec 1) then
    if sub == 0b00 then some (encodeR 0b0100000 rs2 rd 0b000 rd opcodeOp)
    else if sub == 0b01 then some (encodeR 0b0000000 rs2 rd 0b100 rd opcodeOp)
    else if sub == 0b10 then some (encodeR 0b0000000 rs2 rd 0b110 rd opcodeOp)
    else some (encodeR 0b0000000 rs2 rd 0b111 rd opcodeOp)
  else if sub == 0b00 then some (encodeR 0b0100000 rs2 rd 0b000 rd opcodeOp32)
  else if sub == 0b01 then some (encodeR 0b0000000 rs2 rd 0b000 rd opcodeOp32)
  else none

/-- The offset of C.BEQZ and C.BNEZ. -/
def cBranchOffset : BitVec 13 :=
  (c.extractLsb' 12 1 ++ c.extractLsb' 5 2 ++ c.extractLsb' 2 1 ++ c.extractLsb' 10 2 ++
    c.extractLsb' 3 2 ++ 0#1).signExtend 13

/-- The offset of C.J. -/
def cJumpOffset : BitVec 21 :=
  (c.extractLsb' 12 1 ++ c.extractLsb' 8 1 ++ c.extractLsb' 9 2 ++ c.extractLsb' 6 1 ++
    c.extractLsb' 7 1 ++ c.extractLsb' 2 1 ++ c.extractLsb' 11 1 ++ c.extractLsb' 3 3 ++
    0#1).signExtend 21

/-- The quadrant `2'b01`. -/
def quadrant1 : Option (BitVec 32) :=
  let funct3 : BitVec 3 := c.extractLsb' 13 3
  let rd := cRd c
  if funct3 == 0b000 then some (encodeI (cImm6 c) rd 0b000 rd opcodeOpImm)
  else if funct3 == 0b001 then
    if rd == 0 then none else some (encodeI (cImm6 c) rd 0b000 rd opcodeOpImm32)
  else if funct3 == 0b010 then some (encodeI (cImm6 c) 0 0b000 rd opcodeOpImm)
  else if funct3 == 0b011 then
    if rd == 2 then
      let imm : BitVec 12 := (c.extractLsb' 12 1 ++ c.extractLsb' 3 2 ++ c.extractLsb' 5 1 ++
        c.extractLsb' 2 1 ++ c.extractLsb' 6 1 ++ 0#4).signExtend 12
      if imm == 0 then none else some (encodeI imm 2 0b000 2 opcodeOpImm)
    else
      let imm : BitVec 6 := c.extractLsb' 12 1 ++ cLow c
      if imm == 0 then none else some (encodeU (imm.signExtend 20) rd opcodeLui)
  else if funct3 == 0b100 then quadrant1Alu c
  else if funct3 == 0b101 then some (encodeJ (cJumpOffset c) 0 opcodeJal)
  else if funct3 == 0b110 then
    some (encodeB (cBranchOffset c) 0 (cRs1Prime c) 0b000 opcodeBranch)
  else some (encodeB (cBranchOffset c) 0 (cRs1Prime c) 0b001 opcodeBranch)

/-- The quadrant `2'b10`. -/
def quadrant2 : Option (BitVec 32) :=
  let funct3 : BitVec 3 := c.extractLsb' 13 3
  let rd := cRd c
  if funct3 == 0b000 then
    some (encodeI (0b000000#6 ++ c.extractLsb' 12 1 ++ cLow c) rd 0b001 rd opcodeOpImm)
  else if funct3 == 0b010 then
    let imm : BitVec 12 := 0#4 ++ c.extractLsb' 2 2 ++ c.extractLsb' 12 1 ++ c.extractLsb' 4 3 ++
      0#2
    if rd == 0 then none else some (encodeI imm 2 0b010 rd opcodeLoad)
  else if funct3 == 0b011 then
    let imm : BitVec 12 := 0#3 ++ c.extractLsb' 2 3 ++ c.extractLsb' 12 1 ++ c.extractLsb' 5 2 ++
      0#3
    if rd == 0 then none else some (encodeI imm 2 0b011 rd opcodeLoad)
  else if funct3 == 0b100 then
    if c.extractLsb' 12 1 == (0b0 : BitVec 1) then
      if cLow c == 0 then
        if rd == 0 then none else some (encodeI 0 rd 0b000 0 opcodeJalr)
      else some (encodeR 0b0000000 (cLow c) 0 0b000 rd opcodeOp)
    else if cLow c == 0 then
      if rd == 0 then some instrEbreak else some (encodeI 0 rd 0b000 1 opcodeJalr)
    else some (encodeR 0b0000000 (cLow c) rd 0b000 rd opcodeOp)
  else if funct3 == 0b110 then
    let imm : BitVec 12 := 0#4 ++ c.extractLsb' 7 2 ++ c.extractLsb' 9 4 ++ 0#2
    some (encodeS imm (cLow c) 2 0b010 opcodeStore)
  else if funct3 == 0b111 then
    let imm : BitVec 12 := 0#3 ++ c.extractLsb' 7 3 ++ c.extractLsb' 10 3 ++ 0#3
    some (encodeS imm (cLow c) 2 0b011 opcodeStore)
  else none

end Quadrants

end Decompressed

/-- The 32-bit word of a compressed parcel; `none` is `illegal_o`. -/
def Decompressed.expandParcel (c : BitVec 16) : Option (BitVec 32) :=
  let op : BitVec 2 := c.extractLsb' 0 2
  if op == 0b00 then quadrant0 c else if op == 0b01 then quadrant1 c else quadrant2 c

/-- `openrv64_decode_rv64c`. -/
def decodeRv64c (instr : BitVec 32) : Decompressed :=
  let c : BitVec 16 := instr.extractLsb' 0 16
  if instr.extractLsb' 0 2 != (0b11 : BitVec 2) then
    { instr := (Decompressed.expandParcel c).getD instrNop
      compressed := true
      illegal := (Decompressed.expandParcel c).isNone
      unsupportedLength := false
      instrBytes := 2 }
  else if instr.extractLsb' 2 3 == (0b111 : BitVec 3) then
    -- the prefix of a longer instruction
    { instr := instrNop
      compressed := false
      illegal := true
      unsupportedLength := true
      instrBytes := 0 }
  else
    { instr := instr
      compressed := false
      illegal := false
      unsupportedLength := false
      instrBytes := 4 }

/-! ### The compressed grammar -/

/-- Operations of two popular registers. -/
inductive CaKind where
  | sub | xor | or | and | subw | addw
deriving DecidableEq, Repr

namespace CaKind

def isWord : CaKind → Bool
  | subw | addw => true
  | _ => false

/-- Bits 6 and 5 of the parcel. -/
def funct2 : CaKind → BitVec 2
  | sub | subw => 0b00
  | xor | addw => 0b01
  | or => 0b10
  | and => 0b11

end CaKind

/-- A compressed instruction.  Immediates are without the low bits that are always zero;
what the specification reserves cannot be built. -/
inductive CInstr where
  | addi4spn (rd : BitVec 3) (uimm : BitVec 8) (nonzero : uimm ≠ 0)
  | lw (rd rs1 : BitVec 3) (uimm : BitVec 5)
  | ld (rd rs1 : BitVec 3) (uimm : BitVec 5)
  | sw (rs2 rs1 : BitVec 3) (uimm : BitVec 5)
  | sd (rs2 rs1 : BitVec 3) (uimm : BitVec 5)
  | addi (rd : BitVec 5) (imm : BitVec 6)
  | addiw (rd : BitVec 5) (imm : BitVec 6) (dest : rd ≠ 0)
  | li (rd : BitVec 5) (imm : BitVec 6)
  | addi16sp (imm : BitVec 6) (nonzero : imm ≠ 0)
  | lui (rd : BitVec 5) (imm : BitVec 6) (dest : rd ≠ 2) (nonzero : imm ≠ 0)
  | srli (rd : BitVec 3) (shamt : BitVec 6)
  | srai (rd : BitVec 3) (shamt : BitVec 6)
  | andi (rd : BitVec 3) (imm : BitVec 6)
  | ca (k : CaKind) (rd rs2 : BitVec 3)
  | j (offset : BitVec 11)
  | beqz (rs1 : BitVec 3) (offset : BitVec 8)
  | bnez (rs1 : BitVec 3) (offset : BitVec 8)
  | slli (rd : BitVec 5) (shamt : BitVec 6)
  | lwsp (rd : BitVec 5) (uimm : BitVec 6) (dest : rd ≠ 0)
  | ldsp (rd : BitVec 5) (uimm : BitVec 6) (dest : rd ≠ 0)
  | jr (rs1 : BitVec 5) (source : rs1 ≠ 0)
  | mv (rd rs2 : BitVec 5) (source : rs2 ≠ 0)
  | ebreak
  | jalr (rs1 : BitVec 5) (source : rs1 ≠ 0)
  | add (rd rs2 : BitVec 5) (source : rs2 ≠ 0)
  | swsp (rs2 : BitVec 5) (uimm : BitVec 6)
  | sdsp (rs2 : BitVec 5) (uimm : BitVec 6)
deriving DecidableEq, Repr

/-- The parcels that the specification reserves. -/
inductive CReserved where
  | addi4spn (rd : BitVec 3)
  | quadrant0 (rest : BitVec 11)
  | addiw (imm : BitVec 6)
  | addi16sp
  | lui (rd : BitVec 5) (dest : rd ≠ 2)
  | ca (rd rs2 : BitVec 3) (last : BitVec 1)
  | lwsp (uimm : BitVec 6)
  | ldsp (uimm : BitVec 6)
  | jr
deriving DecidableEq, Repr

/-- The parcels of C.FLD, C.FSD, C.FLDSP and C.FSDSP. -/
inductive CFloat where
  | fld (rest : BitVec 11)
  | fsd (rest : BitVec 11)
  | fldsp (rest : BitVec 11)
  | fsdsp (rest : BitVec 11)
deriving DecidableEq, Repr

/-- The register of a three-bit field. -/
def popular (r : BitVec 3) : BitVec 5 := 0b01#2 ++ r

namespace CInstr

/-- The offset field of C.LWSP, split around the register. -/
def lwspType (rd : BitVec 5) (uimm : BitVec 6) : BitVec 16 :=
  ciType 0b010 (uimm.extractLsb' 3 1) rd (uimm.extractLsb' 0 3 ++ uimm.extractLsb' 4 2) 0b10

def ldspType (rd : BitVec 5) (uimm : BitVec 6) : BitVec 16 :=
  ciType 0b011 (uimm.extractLsb' 2 1) rd (uimm.extractLsb' 0 2 ++ uimm.extractLsb' 3 3) 0b10

/-- A six-bit immediate of which bit 5 stands over the register. -/
def imm6Type (funct3 : BitVec 3) (rd : BitVec 5) (imm : BitVec 6) (op : BitVec 2) : BitVec 16 :=
  ciType funct3 (imm.extractLsb' 5 1) rd (imm.extractLsb' 0 5) op

/-- The immediate of C.ADDI16SP. -/
def addi16spType (imm : BitVec 6) : BitVec 16 :=
  ciType 0b011 (imm.extractLsb' 5 1) 2 (imm.extractLsb' 0 1 ++ imm.extractLsb' 2 1 ++
    imm.extractLsb' 3 2 ++ imm.extractLsb' 1 1) 0b01

/-- An offset that counts words. -/
def wordType (funct3 rs1 rd : BitVec 3) (uimm : BitVec 5) : BitVec 16 :=
  clType funct3 (uimm.extractLsb' 1 3) rs1 (uimm.extractLsb' 0 1 ++ uimm.extractLsb' 4 1) rd 0b00

/-- An offset that counts doublewords. -/
def dwordType (funct3 rs1 rd : BitVec 3) (uimm : BitVec 5) : BitVec 16 :=
  clType funct3 (uimm.extractLsb' 0 3) rs1 (uimm.extractLsb' 3 2) rd 0b00

def branchType (funct3 rs1 : BitVec 3) (offset : BitVec 8) : BitVec 16 :=
  clType funct3 (offset.extractLsb' 7 1 ++ offset.extractLsb' 2 2) rs1 (offset.extractLsb' 5 2)
    (offset.extractLsb' 0 2 ++ offset.extractLsb' 4 1) 0b01

/-- The immediate of C.ADDI4SPN. -/
def addi4spnType (rd : BitVec 3) (uimm : BitVec 8) : BitVec 16 :=
  cjType 0b000 (uimm.extractLsb' 2 2 ++ uimm.extractLsb' 4 4 ++ uimm.extractLsb' 0 1 ++
    uimm.extractLsb' 1 1 ++ rd) 0b00

def jumpType (offset : BitVec 11) : BitVec 16 :=
  cjType 0b101 (offset.extractLsb' 10 1 ++ offset.extractLsb' 3 1 ++ offset.extractLsb' 7 2 ++
    offset.extractLsb' 9 1 ++ offset.extractLsb' 5 1 ++ offset.extractLsb' 6 1 ++
    offset.extractLsb' 0 3 ++ offset.extractLsb' 4 1) 0b01

def swspType (rs2 : BitVec 5) (uimm : BitVec 6) : BitVec 16 :=
  cjType 0b110 (uimm.extractLsb' 0 4 ++ uimm.extractLsb' 4 2 ++ rs2) 0b10

def sdspType (rs2 : BitVec 5) (uimm : BitVec 6) : BitVec 16 :=
  cjType 0b111 (uimm.extractLsb' 0 3 ++ uimm.extractLsb' 3 3 ++ rs2) 0b10

/-- The parcel of a compressed instruction. -/
def encode : CInstr → BitVec 16
  | addi4spn rd uimm _ => addi4spnType rd uimm
  | lw rd rs1 uimm => wordType 0b010 rs1 rd uimm
  | ld rd rs1 uimm => dwordType 0b011 rs1 rd uimm
  | sw rs2 rs1 uimm => wordType 0b110 rs1 rs2 uimm
  | sd rs2 rs1 uimm => dwordType 0b111 rs1 rs2 uimm
  | addi rd imm => imm6Type 0b000 rd imm 0b01
  | addiw rd imm _ => imm6Type 0b001 rd imm 0b01
  | li rd imm => imm6Type 0b010 rd imm 0b01
  | addi16sp imm _ => addi16spType imm
  | lui rd imm _ _ => imm6Type 0b011 rd imm 0b01
  | srli rd shamt => imm6Type 0b100 (0b00#2 ++ rd) shamt 0b01
  | srai rd shamt => imm6Type 0b100 (0b01#2 ++ rd) shamt 0b01
  | andi rd imm => imm6Type 0b100 (0b10#2 ++ rd) imm 0b01
  | ca k rd rs2 => clType 0b100 (BitVec.ofBool k.isWord ++ 0b11#2) rd k.funct2 rs2 0b01
  | j offset => jumpType offset
  | beqz rs1 offset => branchType 0b110 rs1 offset
  | bnez rs1 offset => branchType 0b111 rs1 offset
  | slli rd shamt => imm6Type 0b000 rd shamt 0b10
  | lwsp rd uimm _ => lwspType rd uimm
  | ldsp rd uimm _ => ldspType rd uimm
  | jr rs1 _ => ciType 0b100 0 rs1 0 0b10
  | mv rd rs2 _ => ciType 0b100 0 rd rs2 0b10
  | ebreak => ciType 0b100 1 0 0 0b10
  | jalr rs1 _ => ciType 0b100 1 rs1 0 0b10
  | add rd rs2 _ => ciType 0b100 1 rd rs2 0b10
  | swsp rs2 uimm => swspType rs2 uimm
  | sdsp rs2 uimm => sdspType rs2 uimm

/-- The operation of two popular registers. -/
def caOp (k : CaKind) (rd rs2 : BitVec 5) : Instr :=
  match k with
  | .sub => .op .sub rd rd rs2
  | .xor => .op .xor rd rd rs2
  | .or => .op .or rd rd rs2
  | .and => .op .and rd rd rs2
  | .subw => .opw .sub rfl rd rd rs2
  | .addw => .opw .add rfl rd rd rs2

/-- The instruction that a compressed instruction stands for. -/
def expand : CInstr → Instr
  | addi4spn rd uimm _ => .opImm .addi (popular rd) 2 (0#2 ++ uimm ++ 0#2)
  | lw rd rs1 uimm => .load .lw (popular rd) (popular rs1) (0#5 ++ uimm ++ 0#2)
  | ld rd rs1 uimm => .load .ld (popular rd) (popular rs1) (0#4 ++ uimm ++ 0#3)
  | sw rs2 rs1 uimm => .store .sw (popular rs2) (popular rs1) (0#5 ++ uimm ++ 0#2)
  | sd rs2 rs1 uimm => .store .sd (popular rs2) (popular rs1) (0#4 ++ uimm ++ 0#3)
  | addi rd imm => .opImm .addi rd rd (imm.signExtend 12)
  | addiw rd imm _ => .addiw rd rd (imm.signExtend 12)
  | li rd imm => .opImm .addi rd 0 (imm.signExtend 12)
  | addi16sp imm _ => .opImm .addi 2 2 ((imm ++ 0#4).signExtend 12)
  | lui rd imm _ _ => .lui rd (imm.signExtend 20)
  | srli rd shamt => .shift .srli (popular rd) (popular rd) shamt
  | srai rd shamt => .shift .srai (popular rd) (popular rd) shamt
  | andi rd imm => .opImm .andi (popular rd) (popular rd) (imm.signExtend 12)
  | ca k rd rs2 => caOp k (popular rd) (popular rs2)
  | j offset => .jal 0 (offset.signExtend 20)
  | beqz rs1 offset => .branch .beq (popular rs1) 0 (offset.signExtend 12)
  | bnez rs1 offset => .branch .bne (popular rs1) 0 (offset.signExtend 12)
  | slli rd shamt => .shift .slli rd rd shamt
  | lwsp rd uimm _ => .load .lw rd 2 (0#4 ++ uimm ++ 0#2)
  | ldsp rd uimm _ => .load .ld rd 2 (0#3 ++ uimm ++ 0#3)
  | jr rs1 _ => .jalr 0 rs1 0
  | mv rd rs2 _ => .op .add rd 0 rs2
  | ebreak => .ebreak
  | jalr rs1 _ => .jalr 1 rs1 0
  | add rd rs2 _ => .op .add rd rd rs2
  | swsp rs2 uimm => .store .sw rs2 2 (0#4 ++ uimm ++ 0#2)
  | sdsp rs2 uimm => .store .sd rs2 2 (0#3 ++ uimm ++ 0#3)

/-- The code points that the specification sets aside for hints. -/
def isHint : CInstr → Bool
  | addi rd imm => (rd == 0) != (imm == 0)
  | li rd _ | lui rd .. | mv rd .. | add rd .. => rd == 0
  | slli rd shamt => rd == 0 || shamt == 0
  | srli _ shamt | srai _ shamt => shamt == 0
  | _ => false

end CInstr

def CReserved.encode : CReserved → BitVec 16
  | addi4spn rd => CInstr.addi4spnType rd 0
  | quadrant0 rest => cjType 0b100 rest 0b00
  | addiw imm => CInstr.imm6Type 0b001 0 imm 0b01
  | addi16sp => CInstr.addi16spType 0
  | lui rd _ => CInstr.imm6Type 0b011 rd 0 0b01
  | ca rd rs2 last => clType 0b100 0b111 rd (0b1#1 ++ last) rs2 0b01
  | lwsp uimm => CInstr.lwspType 0 uimm
  | ldsp uimm => CInstr.ldspType 0 uimm
  | jr => ciType 0b100 0 0 0 0b10

def CFloat.encode : CFloat → BitVec 16
  | fld rest => cjType 0b001 rest 0b00
  | fsd rest => cjType 0b101 rest 0b00
  | fldsp rest => cjType 0b001 rest 0b10
  | fsdsp rest => cjType 0b101 rest 0b10

end OpenRV64
