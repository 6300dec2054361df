/-
The floating-point decoder and its composition with the integer decoder.
-/
import OpenRV64.DecodeExact

namespace OpenRV64

/-- `OPENRV64_FP_OP_*`. -/
inductive FpOp where
  | add | sub | mul | div | sqrt
  | sgnj | sgnjn | sgnjx
  | min | max
  | eq | lt | le
  | classify
  | mvXF | mvFX
  | cvtToInt | cvtFromInt | cvtFormat
  | madd | msub | nmsub | nmadd
deriving DecidableEq, Repr

structure FdEnables where
  enableRv64f : Bool
  enableRv64d : Bool
deriving DecidableEq, Repr

/-- The outputs of `openrv64_decode_rv64fd`. -/
structure FdDecode where
  selected : Bool := false
  valid : Bool := false
  illegal : Bool := false
  cls : EarlyClass := .invalid
  format : EarlyFormat := .invalid
  usesRs1 : Bool := false
  usesRs2 : Bool := false
  usesRs3 : Bool := false
  usesRd : Bool := false
  src1Fp : Bool := false
  src2Fp : Bool := false
  src3Fp : Bool := false
  regWrite : Bool := false
  fpRegWrite : Bool := false
  rs1Addr : BitVec 5
  rs2Addr : BitVec 5
  rs3Addr : BitVec 5
  rdAddr : BitVec 5
  immValid : Bool := false
  hasImm : Bool := false
  imm : BitVec 64 := 0
  memRead : Bool := false
  memWrite : Bool := false
  lsuOp : Option LsuOp := none
  lsuSize : LsuSize := .byte
  fpOp : Option FpOp := none
  fpFmt : BitVec 2
  fpRm : BitVec 3
  fpType : BitVec 5 := 0
  fflagsWrite : Bool := false
deriving DecidableEq, Repr

abbrev fpOpcodeLoad : BitVec 7 := 0b0000111
abbrev fpOpcodeStore : BitVec 7 := 0b0100111
abbrev fpOpcodeMadd : BitVec 7 := 0b1000011
abbrev fpOpcodeMsub : BitVec 7 := 0b1000111
abbrev fpOpcodeNmsub : BitVec 7 := 0b1001011
abbrev fpOpcodeNmadd : BitVec 7 := 0b1001111
abbrev fpOpcodeOp : BitVec 7 := 0b1010011

/-- `RV64_FP_FMT`. -/
def fpFmt (instr : BitVec 32) : BitVec 2 := instr.extractLsb' 25 2

namespace FdEnables

variable (p : FdEnables)

/-- `format_enabled`. -/
def formatEnabled (format : BitVec 2) : Bool :=
  if format == 0b00 then p.enableRv64f
  else if format == 0b01 then p.enableRv64f && p.enableRv64d
  else false

/-- `rounding_valid`. -/
def roundingValid (rounding : BitVec 3) : Bool := decide (rounding ≤ 0b100) || rounding == 0b111

/-- `integer_type_valid`. -/
def integerTypeValid (type : BitVec 5) : Bool :=
  type == 0b00000 || type == 0b00001 || type == 0b00010 || type == 0b00011

/-- The outputs before any opcode is recognised. -/
def unclaimed (instr : BitVec 32) : FdDecode :=
  { rs1Addr := rvRs1 instr
    rs2Addr := rvRs2 instr
    rs3Addr := amoFunct5 instr
    rdAddr := rvRd instr
    fpFmt := fpFmt instr
    fpRm := rvFunct3 instr }

/-- A word of a floating-point opcode that no arm has accepted yet. -/
def claimed (cls : EarlyClass) (format : EarlyFormat) (instr : BitVec 32) : FdDecode :=
  { unclaimed instr with
    selected := true, illegal := true, cls := cls, format := format, immValid := true }

/-- `accept_fp_binary`. -/
def acceptBinary (d : FdDecode) (op : FpOp) (writesFlags : Bool) : FdDecode :=
  if p.formatEnabled d.fpFmt then
    { d with
      valid := true, illegal := false, usesRs1 := true, usesRs2 := true, usesRd := true
      src1Fp := true, src2Fp := true, fpRegWrite := true, fpOp := some op
      fflagsWrite := writesFlags }
  else d

/-- `accept_fp_binary_rounded`. -/
def acceptBinaryRounded (d : FdDecode) (op : FpOp) : FdDecode :=
  if p.formatEnabled d.fpFmt && roundingValid d.fpRm then p.acceptBinary d op true else d

/-- `accept_fma`. -/
def acceptFma (d : FdDecode) (op : FpOp) : FdDecode :=
  if p.formatEnabled d.fpFmt && roundingValid d.fpRm then
    { d with
      valid := true, illegal := false, usesRs1 := true, usesRs2 := true, usesRs3 := true
      usesRd := true, src1Fp := true, src2Fp := true, src3Fp := true, fpRegWrite := true
      fpOp := some op, fflagsWrite := true }
  else d

/-- An operation on one floating-point register with a floating-point result. -/
def acceptUnary (d : FdDecode) (op : FpOp) (type : BitVec 5) : FdDecode :=
  { d with
    valid := true, illegal := false, usesRs1 := true, usesRd := true, src1Fp := true
    fpRegWrite := true, fpOp := some op, fpType := type, fflagsWrite := true }

/-- The arm of `RV64_FP_FUNCT5_COMPARE`. -/
def acceptCompare (d : FdDecode) (op : FpOp) : FdDecode :=
  { d with
    valid := true, illegal := false, usesRs1 := true, usesRs2 := true, usesRd := true
    src1Fp := true, src2Fp := true, regWrite := true, fpOp := some op, fflagsWrite := true }

/-- The arm of `RV64_FP_OPCODE_OP`. -/
def decodeFpOp (instr : BitVec 32) : FdDecode :=
  let d := claimed .extension .r instr
  let funct5 := amoFunct5 instr
  let funct3 := rvFunct3 instr
  let rs2 := rvRs2 instr
  if funct5 == 0b00000 then p.acceptBinaryRounded d .add
  else if funct5 == 0b00001 then p.acceptBinaryRounded d .sub
  else if funct5 == 0b00010 then p.acceptBinaryRounded d .mul
  else if funct5 == 0b00011 then p.acceptBinaryRounded d .div
  else if funct5 == 0b01011 then
    if p.formatEnabled d.fpFmt && rs2 == 0 && roundingValid d.fpRm then acceptUnary d .sqrt 0
    else d
  else if funct5 == 0b00100 then
    if funct3 == 0b000 then p.acceptBinary d .sgnj false
    else if funct3 == 0b001 then p.acceptBinary d .sgnjn false
    else if funct3 == 0b010 then p.acceptBinary d .sgnjx false
    else d
  else if funct5 == 0b00101 then
    if funct3 == 0b000 then p.acceptBinary d .min true
    else if funct3 == 0b001 then p.acceptBinary d .max true
    else d
  else if funct5 == 0b10100 then
    if p.formatEnabled d.fpFmt then
      if funct3 == 0b000 then acceptCompare d .le
      else if funct3 == 0b001 then acceptCompare d .lt
      else if funct3 == 0b010 then acceptCompare d .eq
      else d
    else d
  else if funct5 == 0b11000 then
    if p.formatEnabled d.fpFmt && integerTypeValid rs2 && roundingValid d.fpRm then
      { d with
        valid := true, illegal := false, usesRs1 := true, usesRd := true, src1Fp := true
        regWrite := true, fpOp := some .cvtToInt, fpType := rs2, fflagsWrite := true }
    else d
  else if funct5 == 0b11010 then
    if p.formatEnabled d.fpFmt && integerTypeValid rs2 && roundingValid d.fpRm then
      { d with
        valid := true, illegal := false, usesRs1 := true, usesRd := true, fpRegWrite := true
        fpOp := some .cvtFromInt, fpType := rs2, fflagsWrite := true }
    else d
  else if funct5 == 0b01000 then
    if p.enableRv64f && p.enableRv64d && roundingValid d.fpRm &&
        (d.fpFmt == 0b00 && rs2 == 0b00001 || d.fpFmt == 0b01 && rs2 == 0b00000) then
      acceptUnary d .cvtFormat rs2
    else d
  else if funct5 == 0b11100 then
    if p.formatEnabled d.fpFmt && rs2 == 0 && (funct3 == 0b000 || funct3 == 0b001) then
      { d with
        valid := true, illegal := false, usesRs1 := true, usesRd := true, src1Fp := true
        regWrite := true, fpOp := some (if funct3 == 0b001 then .classify else .mvXF) }
    else d
  else if funct5 == 0b11110 then
    if p.formatEnabled d.fpFmt && rs2 == 0 && funct3 == 0b000 then
      { d with
        valid := true, illegal := false, usesRs1 := true, usesRd := true, fpRegWrite := true
        fpOp := some .mvFX }
    else d
  else d

/-- The arm of `RV64_FP_OPCODE_LOAD`. -/
def decodeFpLoad (instr : BitVec 32) : FdDecode :=
  let d := { claimed .mem .i instr with hasImm := true, imm := immI instr }
  let accepted := { d with
    valid := true, illegal := false, usesRs1 := true, usesRd := true, fpRegWrite := true
    memRead := true }
  if rvFunct3 instr == 0b010 && p.enableRv64f then
    { accepted with lsuOp := some .lwu, lsuSize := .word, fpFmt := 0b00 }
  else if rvFunct3 instr == 0b011 && p.enableRv64f && p.enableRv64d then
    { accepted with lsuOp := some .ld, lsuSize := .dword, fpFmt := 0b01 }
  else d

/-- The arm of `RV64_FP_OPCODE_STORE`. -/
def decodeFpStore (instr : BitVec 32) : FdDecode :=
  let d := { claimed .mem .s instr with hasImm := true, imm := immS instr }
  let accepted := { d with
    valid := true, illegal := false, usesRs1 := true, usesRs2 := true, src2Fp := true
    memWrite := true }
  if rvFunct3 instr == 0b010 && p.enableRv64f then
    { accepted with lsuOp := some .sw, lsuSize := .word, fpFmt := 0b00 }
  else if rvFunct3 instr == 0b011 && p.enableRv64f && p.enableRv64d then
    { accepted with lsuOp := some .sd, lsuSize := .dword, fpFmt := 0b01 }
  else d

/-- `openrv64_decode_rv64fd`. -/
def decodeRv64fd (instr : BitVec 32) : FdDecode :=
  let opcode := rvOpcode instr
  let fma := claimed .extension .r instr
  if opcode == fpOpcodeLoad then p.decodeFpLoad instr
  else if opcode == fpOpcodeStore then p.decodeFpStore instr
  else if opcode == fpOpcodeMadd then p.acceptFma fma .madd
  else if opcode == fpOpcodeMsub then p.acceptFma fma .msub
  else if opcode == fpOpcodeNmsub then p.acceptFma fma .nmsub
  else if opcode == fpOpcodeNmadd then p.acceptFma fma .nmadd
  else if opcode == fpOpcodeOp then p.decodeFpOp instr
  else unclaimed instr

/-- `openrv64_decode_fd` on the candidates of the integer decoder: the response that
`openrv64_fpu_decode_top` feeds back to it. -/
def response (instr : BitVec 32) : ExtensionResponse :=
  let d := p.decodeRv64fd instr
  let selected := DecodeEnables.extensionCandidate instr && d.selected
  { selected := selected
    valid := selected && d.valid && !d.illegal
    illegal := selected && (!d.valid || d.illegal)
    cls := d.cls
    format := d.format
    usesRs1 := d.usesRs1
    usesRs2 := d.usesRs2
    usesRd := d.usesRd
    rs1Addr := d.rs1Addr
    rs2Addr := d.rs2Addr
    rdAddr := d.rdAddr
    regWrite := d.regWrite
    immValid := d.immValid
    hasImm := d.hasImm
    imm := d.imm
    memRead := d.memRead
    memWrite := d.memWrite
    lsuOp := d.lsuOp
    lsuSize := d.lsuSize
    lsuUnsigned := false }

/-! ### The two decoders share no word -/

variable {p} {w : BitVec 32}

/-- Only the seven floating-point opcodes are claimed. -/
theorem opcode_of_selected (h : (p.decodeRv64fd w).selected) :
    rvOpcode w = fpOpcodeLoad ∨ rvOpcode w = fpOpcodeStore ∨ rvOpcode w = fpOpcodeMadd ∨
      rvOpcode w = fpOpcodeMsub ∨ rvOpcode w = fpOpcodeNmsub ∨ rvOpcode w = fpOpcodeNmadd ∨
      rvOpcode w = fpOpcodeOp := by
  by_contra hno
  simp only [not_or] at hno
  obtain ⟨h1, h2, h3, h4, h5, h6, h7⟩ := hno
  have hunclaimed : p.decodeRv64fd w = unclaimed w := by
    simp only [decodeRv64fd, beq_iff_eq, h1, h2, h3, h4, h5, h6, h7, if_false]
  rw [hunclaimed] at h
  cases h

/-- A word that the floating-point decoder claims is left over by the integer decoder. -/
theorem integer_rejects (q : DecodeEnables) (h : (p.decodeRv64fd w).selected) :
    (q.decodeTop .idle w).valid = false := by
  have hformat : (decodeEarly (rvOpcode w)).format = .invalid := by
    rcases opcode_of_selected h with hop | hop | hop | hop | hop | hop | hop <;>
      · rw [hop]
        rfl
  exact (DecodeEnables.reports_other hformat).1

/-- Where the floating-point decoder does not claim the word, the composition of the two is the
integer decoder. -/
theorem composed_of_unselected {q : DecodeEnables} (h : (p.decodeRv64fd w).selected = false) :
    q.decodeTop (p.response w) w = q.decodeTop .idle w := by
  apply DecodeEnables.decodeTop_unselected
  rw [DecodeEnables.extensionSelected, response, h]
  simp only [Bool.and_false]

end FdEnables

end OpenRV64
