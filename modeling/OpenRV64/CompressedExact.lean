/-
The decompressor accepts its grammar: every compressed instruction is expanded to the
instruction it stands for, the reserved and the floating-point parcels are illegal, and there
are no other parcels.
-/
import OpenRV64.Compressed
import OpenRV64.DecodeExact

namespace OpenRV64

open InstrFormat Decompressed CInstr
open BitVec (extractLsb'_eq_self extractLsb'_append_eq_of_le extractLsb'_append_eq_of_add_le
  extractLsb'_append_extractLsb'_eq_extractLsb' extractLsb'_append_eq_right ofBool)
open Nat (reduceSub)

namespace CInstr

/-! ### The fields that the decompressor reads -/

section Slices

variable {funct3 rs1 rd : BitVec 3} {uimm : BitVec 5} {imm : BitVec 6} {reg : BitVec 5}
  {op : BitVec 2} {offset : BitVec 8}

theorem cRs1Prime_clType {mid : BitVec 3} {low2 : BitVec 2} :
    cRs1Prime (clType funct3 mid rs1 low2 rd op) = popular rs1 := by
  rw [cRs1Prime, clType_rs1]
  rfl

theorem cRs2Prime_clType {mid : BitVec 3} {low2 : BitVec 2} :
    cRs2Prime (clType funct3 mid rs1 low2 rd op) = popular rd := by
  rw [cRs2Prime, clType_rd (k := 0) (n := 3) (by decide), extractLsb'_eq_self]
  rfl

theorem cWordOffset_wordType : cWordOffset (wordType funct3 rs1 rd uimm) = 0#5 ++ uimm ++ 0#2 := by
  rw [cWordOffset, wordType, clType_low (k := 0) (n := 1) (by decide),
    clType_low (k := 1) (n := 1) (by decide), clType_mid (k := 0) (n := 3) (by decide)]
  revert uimm
  decide

theorem cDwordOffset_dwordType :
    cDwordOffset (dwordType funct3 rs1 rd uimm) = 0#4 ++ uimm ++ 0#3 := by
  rw [cDwordOffset, dwordType, clType_low (k := 0) (n := 2) (by decide),
    clType_mid (k := 0) (n := 3) (by decide)]
  revert uimm
  decide

theorem cImm6_imm6Type : cImm6 (imm6Type funct3 reg imm op) = imm.signExtend 12 := by
  rw [cImm6, cLow, imm6Type, ciType_hi, ciType_lo (k := 0) (n := 5) (by decide)]
  revert imm
  decide

theorem cShamt_imm6Type : (imm6Type funct3 reg imm op).extractLsb' 12 1 ++
    cLow (imm6Type funct3 reg imm op) = imm := by
  rw [cLow, imm6Type, ciType_hi, ciType_lo (k := 0) (n := 5) (by decide)]
  revert imm
  decide

theorem cRd_ciType {hi : BitVec 1} {lo : BitVec 5} : cRd (ciType funct3 hi reg lo op) = reg := by
  rw [cRd, ciType_reg (k := 0) (n := 5) (by decide), extractLsb'_eq_self]

/-- The sign of an offset in halfwords is the sign of the offset in bytes. -/
theorem cBranchOffset_branchType :
    cBranchOffset (branchType funct3 rs1 offset) = offset.signExtend 12 ++ 0#1 := by
  rw [cBranchOffset, branchType, clType_mid (k := 2) (n := 1) (by decide),
    clType_low (k := 0) (n := 2) (by decide), clType_rd (k := 0) (n := 1) (by decide),
    clType_mid (k := 0) (n := 2) (by decide), clType_rd (k := 1) (n := 2) (by decide)]
  simp (disch := decide) only [extractLsb'_append_eq_of_le,
    extractLsb'_append_eq_of_add_le, reduceSub, extractLsb'_eq_self]
  repeat rw [extractLsb'_append_extractLsb'_eq_extractLsb' (by decide)]
  rw [extractLsb'_eq_self]
  exact signExtend_append_zero offset (by decide)

theorem cJumpOffset_jumpType {target : BitVec 11} :
    cJumpOffset (jumpType target) = target.signExtend 20 ++ 0#1 := by
  rw [cJumpOffset, jumpType, cjType_target (k := 10) (n := 1) (by decide),
    cjType_target (k := 6) (n := 1) (by decide), cjType_target (k := 7) (n := 2) (by decide),
    cjType_target (k := 4) (n := 1) (by decide), cjType_target (k := 5) (n := 1) (by decide),
    cjType_target (k := 0) (n := 1) (by decide), cjType_target (k := 9) (n := 1) (by decide),
    cjType_target (k := 1) (n := 3) (by decide)]
  simp (disch := decide) only [extractLsb'_append_eq_of_le,
    extractLsb'_append_eq_of_add_le, reduceSub, extractLsb'_eq_self]
  repeat rw [extractLsb'_append_extractLsb'_eq_extractLsb' (by decide)]
  rw [extractLsb'_eq_self]
  exact signExtend_append_zero target (by decide)

end Slices

/-! ### The words that the decompressor builds -/

section Words

variable {rs2 rs1 rd : BitVec 5} {funct3 : BitVec 3} {opcode : BitVec 7}

theorem encodeB_append {offset : BitVec 12} :
    encodeB (offset ++ 0#1) rs2 rs1 funct3 opcode = bType offset rs2 rs1 funct3 opcode := by
  simp (disch := decide) only [encodeB, bType, rType, extractLsb'_append_eq_of_le, reduceSub]
  rw [append_assoc_five]

theorem encodeJ_append {offset : BitVec 20} :
    encodeJ (offset ++ 0#1) rd opcode = jType offset rd opcode := by
  simp (disch := decide) only [encodeJ, jType, uType, extractLsb'_append_eq_of_le, reduceSub]

end Words

/-! ### Every compressed instruction is expanded -/

section

variable {sub : BitVec 2} {r : BitVec 3} {imm : BitVec 6} {op : BitVec 2} {funct3 : BitVec 3}

/-- The upper two of the five bits over the popular register. -/
theorem imm6Type_sub : (imm6Type funct3 (sub ++ r) imm op).extractLsb' 10 2 = sub := by
  rw [imm6Type, ciType_reg (k := 3) (n := 2) (by decide), BitVec.extractLsb'_append_eq_left]

theorem cRs1Prime_imm6Type : cRs1Prime (imm6Type funct3 (sub ++ r) imm op) = popular r := by
  rw [cRs1Prime, imm6Type, ciType_reg (k := 0) (n := 3) (by decide), extractLsb'_append_eq_right]
  rfl

end

section Arms

variable {c : BitVec 16}

theorem expandParcel_zero (h : c.extractLsb' 0 2 = 0b00#2) : expandParcel c = quadrant0 c := by
  rw [expandParcel, h]
  rfl

theorem expandParcel_one (h : c.extractLsb' 0 2 = 0b01#2) : expandParcel c = quadrant1 c := by
  rw [expandParcel, h]
  rfl

theorem expandParcel_two (h : c.extractLsb' 0 2 = 0b10#2) : expandParcel c = quadrant2 c := by
  rw [expandParcel, h]
  rfl

theorem quadrant1_alu (h : c.extractLsb' 13 3 = 0b100#3) : quadrant1 c = quadrant1Alu c := by
  rw [quadrant1, h]
  rfl

end Arms

section Quadrants

variable {rd rs1 rs2 : BitVec 3} {reg : BitVec 5}

theorem cAddi4spnOffset {uimm : BitVec 8} :
    0#2 ++ (addi4spnType rd uimm).extractLsb' 7 4 ++ (addi4spnType rd uimm).extractLsb' 11 2 ++
      (addi4spnType rd uimm).extractLsb' 5 1 ++ (addi4spnType rd uimm).extractLsb' 6 1 ++ 0#2 =
    0#2 ++ uimm ++ 0#2 := by
  rw [addi4spnType, cjType_target (k := 5) (n := 4) (by decide),
    cjType_target (k := 9) (n := 2) (by decide), cjType_target (k := 3) (n := 1) (by decide),
    cjType_target (k := 4) (n := 1) (by decide)]
  simp (disch := decide) only [extractLsb'_append_eq_of_le,
    extractLsb'_append_eq_of_add_le, reduceSub, extractLsb'_eq_self]
  rw [append_slices _ uimm (k := 2) rfl, BitVec.cast_eq, append_slices _ uimm (k := 1) rfl,
    BitVec.cast_eq, append_slices _ uimm (k := 2) rfl, BitVec.cast_eq, extractLsb'_eq_self]

theorem quadrant0_addi4spn {uimm : BitVec 8} : quadrant0 (addi4spnType rd uimm) =
    if uimm = 0 then none
    else some (encodeI (0#2 ++ uimm ++ 0#2) 2 0b000 (popular rd) opcodeOpImm) := by
  have hrd : cRs2Prime (addi4spnType rd uimm) = popular rd := by
    rw [cRs2Prime, addi4spnType, cjType_target (k := 0) (n := 3) (by decide),
      extractLsb'_append_eq_right]
    rfl
  have hz : ((0#2 ++ uimm ++ 0#2 : BitVec 12) == 0) = decide (uimm = 0) := by
    rw [Bool.eq_iff_iff, beq_iff_eq, decide_eq_true_iff]
    constructor
    · intro h
      have hmid := congrArg (BitVec.extractLsb' 2 8) h
      rwa [extractLsb'_append_eq_of_le (by decide), extractLsb'_append_eq_right] at hmid
    · rintro rfl
      rfl
  have h3 : (addi4spnType rd uimm).extractLsb' 13 3 = 0b000#3 := cjType_funct3
  simp only [quadrant0, cAddi4spnOffset, hz, hrd, h3, decide_eq_true_eq]
  rfl

section Accesses

variable {funct3 : BitVec 3} {uimm : BitVec 5}

theorem quadrant0_lw : quadrant0 (wordType 0b010 rs1 rd uimm) =
    some (encodeI (0#5 ++ uimm ++ 0#2) (popular rs1) 0b010 (popular rd) opcodeLoad) := by
  have h3 : (wordType 0b010 rs1 rd uimm).extractLsb' 13 3 = 0b010#3 := clType_funct3
  have hrs1 : cRs1Prime (wordType 0b010 rs1 rd uimm) = popular rs1 := cRs1Prime_clType
  have hrd : cRs2Prime (wordType 0b010 rs1 rd uimm) = popular rd := cRs2Prime_clType
  rw [quadrant0, h3, cWordOffset_wordType, hrs1, hrd]
  rfl

theorem quadrant0_sw : quadrant0 (wordType 0b110 rs1 rd uimm) =
    some (encodeS (0#5 ++ uimm ++ 0#2) (popular rd) (popular rs1) 0b010 opcodeStore) := by
  have h3 : (wordType 0b110 rs1 rd uimm).extractLsb' 13 3 = 0b110#3 := clType_funct3
  have hrs1 : cRs1Prime (wordType 0b110 rs1 rd uimm) = popular rs1 := cRs1Prime_clType
  have hrd : cRs2Prime (wordType 0b110 rs1 rd uimm) = popular rd := cRs2Prime_clType
  rw [quadrant0, h3, cWordOffset_wordType, hrs1, hrd]
  rfl

theorem quadrant0_ld : quadrant0 (dwordType 0b011 rs1 rd uimm) =
    some (encodeI (0#4 ++ uimm ++ 0#3) (popular rs1) 0b011 (popular rd) opcodeLoad) := by
  have h3 : (dwordType 0b011 rs1 rd uimm).extractLsb' 13 3 = 0b011#3 := clType_funct3
  have hrs1 : cRs1Prime (dwordType 0b011 rs1 rd uimm) = popular rs1 := cRs1Prime_clType
  have hrd : cRs2Prime (dwordType 0b011 rs1 rd uimm) = popular rd := cRs2Prime_clType
  rw [quadrant0, h3, cDwordOffset_dwordType, hrs1, hrd]
  rfl

theorem quadrant0_sd : quadrant0 (dwordType 0b111 rs1 rd uimm) =
    some (encodeS (0#4 ++ uimm ++ 0#3) (popular rd) (popular rs1) 0b011 opcodeStore) := by
  have h3 : (dwordType 0b111 rs1 rd uimm).extractLsb' 13 3 = 0b111#3 := clType_funct3
  have hrs1 : cRs1Prime (dwordType 0b111 rs1 rd uimm) = popular rs1 := cRs1Prime_clType
  have hrd : cRs2Prime (dwordType 0b111 rs1 rd uimm) = popular rd := cRs2Prime_clType
  rw [quadrant0, h3, cDwordOffset_dwordType, hrs1, hrd]
  rfl

end Accesses

section Immediates

variable {imm : BitVec 6} {funct3 : BitVec 3}

theorem imm6Type_rd {op : BitVec 2} : cRd (imm6Type funct3 reg imm op) = reg := cRd_ciType

theorem quadrant1_addi : quadrant1 (imm6Type 0b000 reg imm 0b01) =
    some (encodeI (imm.signExtend 12) reg 0b000 reg opcodeOpImm) := by
  have h3 : (imm6Type 0b000 reg imm 0b01).extractLsb' 13 3 = 0b000#3 := ciType_funct3
  rw [quadrant1, h3, cImm6_imm6Type, imm6Type_rd]
  rfl

theorem quadrant1_addiw : quadrant1 (imm6Type 0b001 reg imm 0b01) =
    if reg == 0 then none else some (encodeI (imm.signExtend 12) reg 0b000 reg opcodeOpImm32) := by
  have h3 : (imm6Type 0b001 reg imm 0b01).extractLsb' 13 3 = 0b001#3 := ciType_funct3
  rw [quadrant1, h3, cImm6_imm6Type, imm6Type_rd]
  rfl

theorem quadrant1_li : quadrant1 (imm6Type 0b010 reg imm 0b01) =
    some (encodeI (imm.signExtend 12) 0 0b000 reg opcodeOpImm) := by
  have h3 : (imm6Type 0b010 reg imm 0b01).extractLsb' 13 3 = 0b010#3 := ciType_funct3
  rw [quadrant1, h3, cImm6_imm6Type, imm6Type_rd]
  rfl

theorem cAddi16spOffset :
    ((addi16spType imm).extractLsb' 12 1 ++ (addi16spType imm).extractLsb' 3 2 ++
      (addi16spType imm).extractLsb' 5 1 ++ (addi16spType imm).extractLsb' 2 1 ++
      (addi16spType imm).extractLsb' 6 1 ++ 0#4).signExtend 12 = (imm ++ 0#4).signExtend 12 := by
  rw [addi16spType, ciType_hi, ciType_lo (k := 1) (n := 2) (by decide),
    ciType_lo (k := 3) (n := 1) (by decide), ciType_lo (k := 0) (n := 1) (by decide),
    ciType_lo (k := 4) (n := 1) (by decide)]
  revert imm
  decide

theorem quadrant1_addi16sp : quadrant1 (addi16spType imm) =
    if imm = 0 then none
    else some (encodeI ((imm ++ 0#4).signExtend 12) 2 0b000 2 opcodeOpImm) := by
  have h3 : (addi16spType imm).extractLsb' 13 3 = 0b011#3 := ciType_funct3
  have hrd : cRd (addi16spType imm) = 2 := cRd_ciType
  have hz : ((imm ++ 0#4).signExtend 12 == (0 : BitVec 12)) = decide (imm = 0) := by
    revert imm
    decide
  simp only [quadrant1, h3, hrd, cAddi16spOffset, hz, decide_eq_true_eq]
  rfl

theorem quadrant1_lui (hreg : reg ≠ 2) : quadrant1 (imm6Type 0b011 reg imm 0b01) =
    if imm == 0 then none else some (encodeU (imm.signExtend 20) reg opcodeLui) := by
  have h3 : (imm6Type 0b011 reg imm 0b01).extractLsb' 13 3 = 0b011#3 := ciType_funct3
  have hne : (reg == 2) = false := beq_eq_false_iff_ne.mpr hreg
  rw [quadrant1, h3, cShamt_imm6Type, imm6Type_rd, hne]
  rfl

theorem quadrant1_srli : quadrant1 (imm6Type 0b100 (0b00#2 ++ rd) imm 0b01) =
    some (encodeI (0b000000#6 ++ imm) (popular rd) 0b101 (popular rd) opcodeOpImm) := by
  have h : quadrant1 (imm6Type 0b100 (0b00#2 ++ rd) imm 0b01) = quadrant1Alu _ :=
    quadrant1_alu ciType_funct3
  rw [h, quadrant1Alu, imm6Type_sub, cShamt_imm6Type, cRs1Prime_imm6Type]
  rfl

theorem quadrant1_srai : quadrant1 (imm6Type 0b100 (0b01#2 ++ rd) imm 0b01) =
    some (encodeI (0b010000#6 ++ imm) (popular rd) 0b101 (popular rd) opcodeOpImm) := by
  have h : quadrant1 (imm6Type 0b100 (0b01#2 ++ rd) imm 0b01) = quadrant1Alu _ :=
    quadrant1_alu ciType_funct3
  rw [h, quadrant1Alu, imm6Type_sub, cShamt_imm6Type, cRs1Prime_imm6Type]
  rfl

theorem quadrant1_andi : quadrant1 (imm6Type 0b100 (0b10#2 ++ rd) imm 0b01) =
    some (encodeI (imm.signExtend 12) (popular rd) 0b111 (popular rd) opcodeOpImm) := by
  have h : quadrant1 (imm6Type 0b100 (0b10#2 ++ rd) imm 0b01) = quadrant1Alu _ :=
    quadrant1_alu ciType_funct3
  rw [h, quadrant1Alu, imm6Type_sub, cImm6_imm6Type, cRs1Prime_imm6Type]
  rfl

theorem quadrant2_slli : quadrant2 (imm6Type 0b000 reg imm 0b10) =
    some (encodeI (0b000000#6 ++ imm) reg 0b001 reg opcodeOpImm) := by
  have h3 : (imm6Type 0b000 reg imm 0b10).extractLsb' 13 3 = 0b000#3 := ciType_funct3
  have himm : 0b000000#6 ++ (imm6Type 0b000 reg imm 0b10).extractLsb' 12 1 ++
      cLow (imm6Type 0b000 reg imm 0b10) = 0b000000#6 ++ imm := by
    rw [cLow, imm6Type, ciType_hi, ciType_lo (k := 0) (n := 5) (by decide)]
    clear h3
    revert imm
    decide
  rw [quadrant2, h3, himm, imm6Type_rd]
  rfl

end Immediates

theorem quadrant1Alu_ca {hi : BitVec 1} {sub : BitVec 2} :
    quadrant1Alu (clType 0b100 (hi ++ 0b11#2) rd sub rs2 0b01) =
      if hi == 0 then
        if sub == 0b00 then
          some (encodeR 0b0100000 (popular rs2) (popular rd) 0b000 (popular rd) opcodeOp)
        else if sub == 0b01 then
          some (encodeR 0b0000000 (popular rs2) (popular rd) 0b100 (popular rd) opcodeOp)
        else if sub == 0b10 then
          some (encodeR 0b0000000 (popular rs2) (popular rd) 0b110 (popular rd) opcodeOp)
        else some (encodeR 0b0000000 (popular rs2) (popular rd) 0b111 (popular rd) opcodeOp)
      else if sub == 0b00 then
        some (encodeR 0b0100000 (popular rs2) (popular rd) 0b000 (popular rd) opcodeOp32)
      else if sub == 0b01 then
        some (encodeR 0b0000000 (popular rs2) (popular rd) 0b000 (popular rd) opcodeOp32)
      else none := by
  rw [quadrant1Alu, clType_mid (k := 0) (n := 2) (by decide),
    clType_mid (k := 2) (n := 1) (by decide), clType_low (k := 0) (n := 2) (by decide),
    cRs1Prime_clType, cRs2Prime_clType, BitVec.extractLsb'_append_eq_left,
    extractLsb'_append_eq_right, extractLsb'_eq_self]
  rfl

theorem quadrant1_j {target : BitVec 11} : quadrant1 (jumpType target) =
    some (jType (target.signExtend 20) 0 opcodeJal) := by
  have h3 : (jumpType target).extractLsb' 13 3 = 0b101#3 := cjType_funct3
  rw [quadrant1, h3, cJumpOffset_jumpType, encodeJ_append]
  rfl

theorem quadrant1_beqz {offset : BitVec 8} : quadrant1 (branchType 0b110 rs1 offset) =
    some (bType (offset.signExtend 12) 0 (popular rs1) 0b000 opcodeBranch) := by
  have h3 : (branchType 0b110 rs1 offset).extractLsb' 13 3 = 0b110#3 := clType_funct3
  have hrs1 : cRs1Prime (branchType 0b110 rs1 offset) = popular rs1 := cRs1Prime_clType
  rw [quadrant1, h3, cBranchOffset_branchType, encodeB_append, encodeB_append, hrs1]
  rfl

theorem quadrant1_bnez {offset : BitVec 8} : quadrant1 (branchType 0b111 rs1 offset) =
    some (bType (offset.signExtend 12) 0 (popular rs1) 0b001 opcodeBranch) := by
  have h3 : (branchType 0b111 rs1 offset).extractLsb' 13 3 = 0b111#3 := clType_funct3
  have hrs1 : cRs1Prime (branchType 0b111 rs1 offset) = popular rs1 := cRs1Prime_clType
  rw [quadrant1, h3, cBranchOffset_branchType, encodeB_append, encodeB_append, hrs1]
  rfl

section Stack

variable {uimm : BitVec 6}

theorem quadrant2_lwsp : quadrant2 (lwspType reg uimm) =
    if reg == 0 then none
    else some (encodeI (0#4 ++ uimm ++ 0#2) 2 0b010 reg opcodeLoad) := by
  have h3 : (lwspType reg uimm).extractLsb' 13 3 = 0b010#3 := ciType_funct3
  have hrd : cRd (lwspType reg uimm) = reg := cRd_ciType
  have himm : 0#4 ++ (lwspType reg uimm).extractLsb' 2 2 ++
      (lwspType reg uimm).extractLsb' 12 1 ++ (lwspType reg uimm).extractLsb' 4 3 ++ 0#2 =
      0#4 ++ uimm ++ 0#2 := by
    rw [lwspType, ciType_hi, ciType_lo (k := 0) (n := 2) (by decide),
      ciType_lo (k := 2) (n := 3) (by decide)]
    clear h3 hrd
    revert uimm
    decide
  rw [quadrant2, h3, hrd]
  simp only [himm]
  rfl

theorem quadrant2_ldsp : quadrant2 (ldspType reg uimm) =
    if reg == 0 then none
    else some (encodeI (0#3 ++ uimm ++ 0#3) 2 0b011 reg opcodeLoad) := by
  have h3 : (ldspType reg uimm).extractLsb' 13 3 = 0b011#3 := ciType_funct3
  have hrd : cRd (ldspType reg uimm) = reg := cRd_ciType
  have himm : 0#3 ++ (ldspType reg uimm).extractLsb' 2 3 ++
      (ldspType reg uimm).extractLsb' 12 1 ++ (ldspType reg uimm).extractLsb' 5 2 ++ 0#3 =
      0#3 ++ uimm ++ 0#3 := by
    rw [ldspType, ciType_hi, ciType_lo (k := 0) (n := 3) (by decide),
      ciType_lo (k := 3) (n := 2) (by decide)]
    clear h3 hrd
    revert uimm
    decide
  rw [quadrant2, h3, hrd]
  simp only [himm]
  rfl

theorem quadrant2_swsp : quadrant2 (swspType reg uimm) =
    some (encodeS (0#4 ++ uimm ++ 0#2) reg 2 0b010 opcodeStore) := by
  have h3 : (swspType reg uimm).extractLsb' 13 3 = 0b110#3 := cjType_funct3
  have hrs2 : cLow (swspType reg uimm) = reg := by
    rw [cLow, swspType, cjType_target (k := 0) (n := 5) (by decide), extractLsb'_append_eq_right]
  have himm : 0#4 ++ (swspType reg uimm).extractLsb' 7 2 ++
      (swspType reg uimm).extractLsb' 9 4 ++ 0#2 = 0#4 ++ uimm ++ 0#2 := by
    rw [swspType, cjType_target (k := 5) (n := 2) (by decide),
      cjType_target (k := 7) (n := 4) (by decide)]
    simp (disch := decide) only [extractLsb'_append_eq_of_le,
      extractLsb'_append_eq_of_add_le, reduceSub, extractLsb'_eq_self]
    rw [append_slices _ uimm (k := 4) rfl, BitVec.cast_eq, extractLsb'_eq_self]
  rw [quadrant2, h3, hrs2]
  simp only [himm]
  rfl

theorem quadrant2_sdsp : quadrant2 (sdspType reg uimm) =
    some (encodeS (0#3 ++ uimm ++ 0#3) reg 2 0b011 opcodeStore) := by
  have h3 : (sdspType reg uimm).extractLsb' 13 3 = 0b111#3 := cjType_funct3
  have hrs2 : cLow (sdspType reg uimm) = reg := by
    rw [cLow, sdspType, cjType_target (k := 0) (n := 5) (by decide), extractLsb'_append_eq_right]
  have himm : 0#3 ++ (sdspType reg uimm).extractLsb' 7 3 ++
      (sdspType reg uimm).extractLsb' 10 3 ++ 0#3 = 0#3 ++ uimm ++ 0#3 := by
    rw [sdspType, cjType_target (k := 5) (n := 3) (by decide),
      cjType_target (k := 8) (n := 3) (by decide)]
    simp (disch := decide) only [extractLsb'_append_eq_of_le,
      extractLsb'_append_eq_of_add_le, reduceSub, extractLsb'_eq_self]
    rw [append_slices _ uimm (k := 3) rfl, BitVec.cast_eq, extractLsb'_eq_self]
  rw [quadrant2, h3, hrs2]
  simp only [himm]
  rfl

end Stack

theorem quadrant2_jump {hi : BitVec 1} {rd2 : BitVec 5} : quadrant2 (ciType 0b100 hi reg rd2 0b10) =
      if hi == 0 then
        if rd2 == 0 then if reg == 0 then none else some (encodeI 0 reg 0b000 0 opcodeJalr)
        else some (encodeR 0b0000000 rd2 0 0b000 reg opcodeOp)
      else if rd2 == 0 then
        if reg == 0 then some instrEbreak else some (encodeI 0 reg 0b000 1 opcodeJalr)
      else some (encodeR 0b0000000 rd2 reg 0b000 reg opcodeOp) := by
  rw [quadrant2, ciType_funct3, ciType_hi, cRd_ciType, cLow,
    ciType_lo (k := 0) (n := 5) (by decide), extractLsb'_eq_self]
  rfl

end Quadrants

/-- The decompressor builds the word of the instruction that the specification assigns. -/
theorem expandParcel_encode (c : CInstr) : expandParcel c.encode = some c.expand.encode := by
  cases c with
  | addi4spn rd uimm nonzero =>
    have h : expandParcel (addi4spnType rd uimm) = _ := expandParcel_zero cjType_op
    rw [quadrant0_addi4spn, if_neg nonzero] at h
    exact h
  | lw rd rs1 uimm => exact (expandParcel_zero clType_op).trans quadrant0_lw
  | ld rd rs1 uimm => exact (expandParcel_zero clType_op).trans quadrant0_ld
  | sw rs2 rs1 uimm => exact (expandParcel_zero clType_op).trans quadrant0_sw
  | sd rs2 rs1 uimm => exact (expandParcel_zero clType_op).trans quadrant0_sd
  | addi rd imm => exact (expandParcel_one ciType_op).trans quadrant1_addi
  | addiw rd imm dest =>
    have h : expandParcel (imm6Type 0b001 rd imm 0b01) = _ := expandParcel_one ciType_op
    rw [quadrant1_addiw, if_neg (by simpa using dest)] at h
    exact h
  | li rd imm => exact (expandParcel_one ciType_op).trans quadrant1_li
  | addi16sp imm nonzero =>
    have h : expandParcel (addi16spType imm) = _ := expandParcel_one ciType_op
    rw [quadrant1_addi16sp, if_neg nonzero] at h
    exact h
  | lui rd imm dest nonzero =>
    have h : expandParcel (imm6Type 0b011 rd imm 0b01) = _ := expandParcel_one ciType_op
    rw [quadrant1_lui dest, if_neg (by simpa using nonzero)] at h
    exact h
  | srli rd shamt => exact (expandParcel_one ciType_op).trans quadrant1_srli
  | srai rd shamt => exact (expandParcel_one ciType_op).trans quadrant1_srai
  | andi rd imm => exact (expandParcel_one ciType_op).trans quadrant1_andi
  | ca k rd rs2 =>
    have h : expandParcel (clType 0b100 (ofBool k.isWord ++ 0b11#2) rd k.funct2 rs2
        0b01) = quadrant1Alu _ :=
      (expandParcel_one clType_op).trans (quadrant1_alu clType_funct3)
    have hca := h.trans quadrant1Alu_ca
    cases k <;> exact hca
  | j offset => exact (expandParcel_one cjType_op).trans quadrant1_j
  | beqz rs1 offset => exact (expandParcel_one clType_op).trans quadrant1_beqz
  | bnez rs1 offset => exact (expandParcel_one clType_op).trans quadrant1_bnez
  | slli rd shamt => exact (expandParcel_two ciType_op).trans quadrant2_slli
  | lwsp rd uimm dest =>
    have h : expandParcel (lwspType rd uimm) = _ := expandParcel_two ciType_op
    rw [quadrant2_lwsp, if_neg (by simpa using dest)] at h
    exact h
  | ldsp rd uimm dest =>
    have h : expandParcel (ldspType rd uimm) = _ := expandParcel_two ciType_op
    rw [quadrant2_ldsp, if_neg (by simpa using dest)] at h
    exact h
  | jr rs1 source =>
    have h : expandParcel (ciType 0b100 0 rs1 0 0b10) = _ := expandParcel_two ciType_op
    rw [quadrant2_jump, if_pos (by decide), if_pos (by decide), if_neg (by simpa using source)] at h
    exact h
  | mv rd rs2 source =>
    have h : expandParcel (ciType 0b100 0 rd rs2 0b10) = _ := expandParcel_two ciType_op
    rw [quadrant2_jump, if_pos (by decide), if_neg (by simpa using source)] at h
    exact h
  | ebreak => rfl
  | jalr rs1 source =>
    have h : expandParcel (ciType 0b100 1 rs1 0 0b10) = _ := expandParcel_two ciType_op
    rw [quadrant2_jump, if_neg (by decide), if_pos (by decide), if_neg (by simpa using source)] at h
    exact h
  | add rd rs2 source =>
    have h : expandParcel (ciType 0b100 1 rd rs2 0b10) = _ := expandParcel_two ciType_op
    rw [quadrant2_jump, if_neg (by decide), if_neg (by simpa using source)] at h
    exact h
  | swsp rs2 uimm => exact (expandParcel_two cjType_op).trans quadrant2_swsp
  | sdsp rs2 uimm => exact (expandParcel_two cjType_op).trans quadrant2_sdsp

end CInstr

/-! ### What the specification does not assign is illegal -/

section Illegal

variable {c : BitVec 16}

theorem quadrant0_none (h : c.extractLsb' 13 3 = 0b001#3 ∨ c.extractLsb' 13 3 = 0b100#3 ∨
    c.extractLsb' 13 3 = 0b101#3) : quadrant0 c = none := by
  rcases h with h | h | h <;>
    · rw [quadrant0, h]
      rfl

theorem quadrant2_none (h : c.extractLsb' 13 3 = 0b001#3 ∨ c.extractLsb' 13 3 = 0b101#3) :
    quadrant2 c = none := by
  rcases h with h | h <;>
    · rw [quadrant2, h]
      rfl

theorem expandParcel_reserved (r : CReserved) : expandParcel r.encode = none := by
  cases r with
  | addi4spn rd =>
    have h : expandParcel (addi4spnType rd 0) = _ := expandParcel_zero cjType_op
    rw [quadrant0_addi4spn, if_pos rfl] at h
    exact h
  | quadrant0 rest =>
    exact (expandParcel_zero cjType_op).trans (quadrant0_none (.inr (.inl cjType_funct3)))
  | addiw imm => exact (expandParcel_one ciType_op).trans quadrant1_addiw
  | addi16sp => exact (expandParcel_one ciType_op).trans quadrant1_addi16sp
  | lui rd dest => exact (expandParcel_one ciType_op).trans (quadrant1_lui dest)
  | ca rd rs2 last =>
    have h : expandParcel (clType 0b100 (0b1#1 ++ 0b11#2) rd (0b1#1 ++ last) rs2 0b01) =
        quadrant1Alu (clType 0b100 (0b1#1 ++ 0b11#2) rd (0b1#1 ++ last) rs2 0b01) :=
      (expandParcel_one clType_op).trans (quadrant1_alu clType_funct3)
    have hsub : (0b1#1 ++ last == (0b00 : BitVec 2)) = false ∧
        (0b1#1 ++ last == (0b01 : BitVec 2)) = false := by
      clear h
      revert last
      decide
    refine h.trans ?_
    rw [quadrant1Alu_ca, hsub.1, hsub.2]
    rfl
  | lwsp uimm => exact (expandParcel_two ciType_op).trans quadrant2_lwsp
  | ldsp uimm => exact (expandParcel_two ciType_op).trans quadrant2_ldsp
  | jr => rfl

theorem expandParcel_float (f : CFloat) : expandParcel f.encode = none := by
  cases f with
  | fld rest =>
    exact (expandParcel_zero cjType_op).trans (quadrant0_none (.inl cjType_funct3))
  | fsd rest =>
    exact (expandParcel_zero cjType_op).trans (quadrant0_none (.inr (.inr cjType_funct3)))
  | fldsp rest =>
    exact (expandParcel_two cjType_op).trans (quadrant2_none (.inl cjType_funct3))
  | fsdsp rest =>
    exact (expandParcel_two cjType_op).trans (quadrant2_none (.inr cjType_funct3))

end Illegal

/-! ### There are no other parcels -/

namespace CInstr

section Parse

variable (c : BitVec 16)

/-- The offset in words of a parcel. -/
def wordField : BitVec 5 := c.extractLsb' 5 1 ++ c.extractLsb' 10 3 ++ c.extractLsb' 6 1

def dwordField : BitVec 5 := c.extractLsb' 5 2 ++ c.extractLsb' 10 3

def imm6Field : BitVec 6 := c.extractLsb' 12 1 ++ c.extractLsb' 2 5

def addi4spnField : BitVec 8 :=
  c.extractLsb' 7 4 ++ c.extractLsb' 11 2 ++ c.extractLsb' 5 1 ++ c.extractLsb' 6 1

def addi16spField : BitVec 6 :=
  c.extractLsb' 12 1 ++ c.extractLsb' 3 2 ++ c.extractLsb' 5 1 ++ c.extractLsb' 2 1 ++
    c.extractLsb' 6 1

def branchField : BitVec 8 :=
  c.extractLsb' 12 1 ++ c.extractLsb' 5 2 ++ c.extractLsb' 2 1 ++ c.extractLsb' 10 2 ++
    c.extractLsb' 3 2

def jumpField : BitVec 11 :=
  c.extractLsb' 12 1 ++ c.extractLsb' 8 1 ++ c.extractLsb' 9 2 ++ c.extractLsb' 6 1 ++
    c.extractLsb' 7 1 ++ c.extractLsb' 2 1 ++ c.extractLsb' 11 1 ++ c.extractLsb' 3 3

def lwspField : BitVec 6 := c.extractLsb' 2 2 ++ c.extractLsb' 12 1 ++ c.extractLsb' 4 3

def ldspField : BitVec 6 := c.extractLsb' 2 3 ++ c.extractLsb' 12 1 ++ c.extractLsb' 5 2

def swspField : BitVec 6 := c.extractLsb' 7 2 ++ c.extractLsb' 9 4

def sdspField : BitVec 6 := c.extractLsb' 7 3 ++ c.extractLsb' 10 3

variable {c} {funct3 : BitVec 3} {op : BitVec 2}

theorem wordType_fields (h3 : c.extractLsb' 13 3 = funct3) (hop : c.extractLsb' 0 2 = 0b00#2) :
    wordType funct3 (c.extractLsb' 7 3) (c.extractLsb' 2 3) (wordField c) = c := by
  have h := clType_fields c
  rw [hop, h3] at h
  simp (disch := decide) only [wordType, wordField, extractLsb'_append_eq_of_le,
    extractLsb'_append_eq_of_add_le, reduceSub, extractLsb'_eq_self]
  repeat rw [extractLsb'_append_extractLsb'_eq_extractLsb' (by decide)]
  exact h

theorem dwordType_fields (h3 : c.extractLsb' 13 3 = funct3) (hop : c.extractLsb' 0 2 = 0b00#2) :
    dwordType funct3 (c.extractLsb' 7 3) (c.extractLsb' 2 3) (dwordField c) = c := by
  have h := clType_fields c
  rw [hop, h3] at h
  simp (disch := decide) only [dwordType, dwordField, extractLsb'_append_eq_of_le,
    extractLsb'_append_eq_of_add_le, reduceSub, extractLsb'_eq_self]
  exact h

theorem imm6Type_fields (h3 : c.extractLsb' 13 3 = funct3) (hop : c.extractLsb' 0 2 = op) :
    imm6Type funct3 (c.extractLsb' 7 5) (imm6Field c) op = c := by
  have h := ciType_fields c
  rw [hop, h3] at h
  rw [imm6Type, imm6Field, BitVec.extractLsb'_append_eq_left, extractLsb'_append_eq_right]
  exact h

theorem addi4spnType_fields (h3 : c.extractLsb' 13 3 = 0b000#3) (hop : c.extractLsb' 0 2 = 0b00#2) :
    addi4spnType (c.extractLsb' 2 3) (addi4spnField c) = c := by
  have h := cjType_fields c
  rw [hop, h3] at h
  simp (disch := decide) only [addi4spnType, addi4spnField, extractLsb'_append_eq_of_le,
    extractLsb'_append_eq_of_add_le, reduceSub, extractLsb'_eq_self]
  repeat rw [extractLsb'_append_extractLsb'_eq_extractLsb' (by decide)]
  exact h

theorem addi16spType_fields (h3 : c.extractLsb' 13 3 = 0b011#3)
    (hop : c.extractLsb' 0 2 = 0b01#2) (hrd : c.extractLsb' 7 5 = 2#5) :
    addi16spType (addi16spField c) = c := by
  have h := ciType_fields c
  rw [hop, h3, hrd] at h
  simp (disch := decide) only [addi16spType, addi16spField, extractLsb'_append_eq_of_le,
    extractLsb'_append_eq_of_add_le, reduceSub, extractLsb'_eq_self]
  repeat rw [extractLsb'_append_extractLsb'_eq_extractLsb' (by decide)]
  exact h

theorem branchType_fields (h3 : c.extractLsb' 13 3 = funct3) (hop : c.extractLsb' 0 2 = 0b01#2) :
    branchType funct3 (c.extractLsb' 7 3) (branchField c) = c := by
  have h := clType_fields c
  rw [hop, h3] at h
  simp (disch := decide) only [branchType, branchField, extractLsb'_append_eq_of_le,
    extractLsb'_append_eq_of_add_le, reduceSub, extractLsb'_eq_self]
  repeat rw [extractLsb'_append_extractLsb'_eq_extractLsb' (by decide)]
  exact h

theorem jumpType_fields (h3 : c.extractLsb' 13 3 = 0b101#3) (hop : c.extractLsb' 0 2 = 0b01#2) :
    jumpType (jumpField c) = c := by
  have h := cjType_fields c
  rw [hop, h3] at h
  simp (disch := decide) only [jumpType, jumpField, extractLsb'_append_eq_of_le,
    extractLsb'_append_eq_of_add_le, reduceSub, extractLsb'_eq_self]
  repeat rw [extractLsb'_append_extractLsb'_eq_extractLsb' (by decide)]
  exact h

theorem lwspType_fields (h3 : c.extractLsb' 13 3 = 0b010#3) (hop : c.extractLsb' 0 2 = 0b10#2) :
    lwspType (c.extractLsb' 7 5) (lwspField c) = c := by
  have h := ciType_fields c
  rw [hop, h3] at h
  simp (disch := decide) only [lwspType, lwspField, extractLsb'_append_eq_of_le,
    extractLsb'_append_eq_of_add_le, reduceSub, extractLsb'_eq_self]
  repeat rw [extractLsb'_append_extractLsb'_eq_extractLsb' (by decide)]
  exact h

theorem ldspType_fields (h3 : c.extractLsb' 13 3 = 0b011#3) (hop : c.extractLsb' 0 2 = 0b10#2) :
    ldspType (c.extractLsb' 7 5) (ldspField c) = c := by
  have h := ciType_fields c
  rw [hop, h3] at h
  simp (disch := decide) only [ldspType, ldspField, extractLsb'_append_eq_of_le,
    extractLsb'_append_eq_of_add_le, reduceSub, extractLsb'_eq_self]
  repeat rw [extractLsb'_append_extractLsb'_eq_extractLsb' (by decide)]
  exact h

theorem swspType_fields (h3 : c.extractLsb' 13 3 = 0b110#3) (hop : c.extractLsb' 0 2 = 0b10#2) :
    swspType (c.extractLsb' 2 5) (swspField c) = c := by
  have h := cjType_fields c
  rw [hop, h3] at h
  simp (disch := decide) only [swspType, swspField, extractLsb'_append_eq_of_le,
    extractLsb'_append_eq_of_add_le, reduceSub, extractLsb'_eq_self]
  repeat rw [extractLsb'_append_extractLsb'_eq_extractLsb' (by decide)]
  exact h

theorem sdspType_fields (h3 : c.extractLsb' 13 3 = 0b111#3) (hop : c.extractLsb' 0 2 = 0b10#2) :
    sdspType (c.extractLsb' 2 5) (sdspField c) = c := by
  have h := cjType_fields c
  rw [hop, h3] at h
  simp (disch := decide) only [sdspType, sdspField, extractLsb'_append_eq_of_le,
    extractLsb'_append_eq_of_add_le, reduceSub, extractLsb'_eq_self]
  repeat rw [extractLsb'_append_extractLsb'_eq_extractLsb' (by decide)]
  exact h

end Parse

/-- A parcel of one of the three kinds. -/
def Assigned (c : BitVec 16) : Prop :=
  (∃ i : CInstr, i.encode = c) ∨ (∃ r : CReserved, r.encode = c) ∨ ∃ f : CFloat, f.encode = c

section Cover

variable {c : BitVec 16}

theorem funct3_cases (f : BitVec 3) : f = 0b000#3 ∨ f = 0b001#3 ∨ f = 0b010#3 ∨ f = 0b011#3 ∨
    f = 0b100#3 ∨ f = 0b101#3 ∨ f = 0b110#3 ∨ f = 0b111#3 := by
  revert f
  decide

theorem assigned_quadrant0 (hop : c.extractLsb' 0 2 = 0b00#2) : Assigned c := by
  rcases funct3_cases (c.extractLsb' 13 3) with h | h | h | h | h | h | h | h
  · by_cases hz : addi4spnField c = 0
    · refine .inr (.inl ⟨.addi4spn (c.extractLsb' 2 3), ?_⟩)
      change addi4spnType (c.extractLsb' 2 3) 0 = c
      rw [← hz]
      exact addi4spnType_fields h hop
    · exact .inl ⟨.addi4spn (c.extractLsb' 2 3) (addi4spnField c) hz, addi4spnType_fields h hop⟩
  · refine .inr (.inr ⟨.fld (c.extractLsb' 2 11), ?_⟩)
    change cjType 0b001#3 _ 0b00#2 = c
    rw [← h, ← hop]
    exact cjType_fields c
  · exact .inl ⟨.lw (c.extractLsb' 2 3) (c.extractLsb' 7 3) (wordField c), wordType_fields h hop⟩
  · exact .inl ⟨.ld (c.extractLsb' 2 3) (c.extractLsb' 7 3) (dwordField c), dwordType_fields h hop⟩
  · refine .inr (.inl ⟨.quadrant0 (c.extractLsb' 2 11), ?_⟩)
    change cjType 0b100#3 _ 0b00#2 = c
    rw [← h, ← hop]
    exact cjType_fields c
  · refine .inr (.inr ⟨.fsd (c.extractLsb' 2 11), ?_⟩)
    change cjType 0b101#3 _ 0b00#2 = c
    rw [← h, ← hop]
    exact cjType_fields c
  · exact .inl ⟨.sw (c.extractLsb' 2 3) (c.extractLsb' 7 3) (wordField c), wordType_fields h hop⟩
  · exact .inl ⟨.sd (c.extractLsb' 2 3) (c.extractLsb' 7 3) (dwordField c), dwordType_fields h hop⟩

/-- The register field over the two bits that name the operation. -/
theorem subField_append : c.extractLsb' 10 2 ++ c.extractLsb' 7 3 = c.extractLsb' 7 5 :=
  extractLsb'_append_extractLsb'_eq_extractLsb' (by decide)

theorem imm6_sub {sub : BitVec 2} (h : c.extractLsb' 13 3 = 0b100#3)
    (hop : c.extractLsb' 0 2 = 0b01#2) (hsub : c.extractLsb' 10 2 = sub) :
    imm6Type 0b100#3 (sub ++ c.extractLsb' 7 3) (imm6Field c) 0b01#2 = c := by
  rw [← hsub, subField_append]
  exact imm6Type_fields h hop

theorem assigned_ca (h : c.extractLsb' 13 3 = 0b100#3) (hop : c.extractLsb' 0 2 = 0b01#2)
    (hsub : c.extractLsb' 10 2 = 0b11#2) : Assigned c := by
  have hmid : c.extractLsb' 12 1 ++ 0b11#2 = c.extractLsb' 10 3 := by
    rw [← hsub]
    exact extractLsb'_append_extractLsb'_eq_extractLsb' (by decide)
  have hfields := clType_fields c
  rw [h, hop, ← hmid] at hfields
  have hbits : ∀ (b : BitVec 1) (s : BitVec 2), (∃ k : CaKind, ofBool k.isWord = b ∧ k.funct2 = s) ∨
        b = 0b1#1 ∧ ∃ last : BitVec 1, s = 0b1#1 ++ last := by
    intro b s
    have hb : b = 0b0#1 ∨ b = 0b1#1 := by
      revert b
      decide
    have hs : s = 0b00#2 ∨ s = 0b01#2 ∨ s = 0b10#2 ∨ s = 0b11#2 := by
      revert s
      decide
    rcases hb with rfl | rfl <;> rcases hs with rfl | rfl | rfl | rfl
    · exact .inl ⟨.sub, rfl, rfl⟩
    · exact .inl ⟨.xor, rfl, rfl⟩
    · exact .inl ⟨.or, rfl, rfl⟩
    · exact .inl ⟨.and, rfl, rfl⟩
    · exact .inl ⟨.subw, rfl, rfl⟩
    · exact .inl ⟨.addw, rfl, rfl⟩
    · exact .inr ⟨rfl, 0, rfl⟩
    · exact .inr ⟨rfl, 1, rfl⟩
  obtain ⟨k, hk, hk2⟩ | ⟨hone, last, hlast⟩ := hbits (c.extractLsb' 12 1) (c.extractLsb' 5 2)
  · refine .inl ⟨.ca k (c.extractLsb' 7 3) (c.extractLsb' 2 3), ?_⟩
    rw [← hk, ← hk2] at hfields
    exact hfields
  · refine .inr (.inl ⟨.ca (c.extractLsb' 7 3) (c.extractLsb' 2 3) last, ?_⟩)
    rw [hone, hlast] at hfields
    exact hfields

theorem assigned_quadrant1 (hop : c.extractLsb' 0 2 = 0b01#2) : Assigned c := by
  rcases funct3_cases (c.extractLsb' 13 3) with h | h | h | h | h | h | h | h
  · exact .inl ⟨.addi (c.extractLsb' 7 5) (imm6Field c), imm6Type_fields h hop⟩
  · by_cases hz : c.extractLsb' 7 5 = 0#5
    · refine .inr (.inl ⟨.addiw (imm6Field c), ?_⟩)
      change imm6Type 0b001#3 0#5 (imm6Field c) 0b01#2 = c
      rw [← hz]
      exact imm6Type_fields h hop
    · exact .inl ⟨.addiw (c.extractLsb' 7 5) (imm6Field c) hz, imm6Type_fields h hop⟩
  · exact .inl ⟨.li (c.extractLsb' 7 5) (imm6Field c), imm6Type_fields h hop⟩
  · by_cases hsp : c.extractLsb' 7 5 = 2#5
    · by_cases hz : addi16spField c = 0
      · refine .inr (.inl ⟨.addi16sp, ?_⟩)
        change addi16spType 0 = c
        rw [← hz]
        exact addi16spType_fields h hop hsp
      · exact .inl ⟨.addi16sp (addi16spField c) hz, addi16spType_fields h hop hsp⟩
    by_cases hz : imm6Field c = 0
    · refine .inr (.inl ⟨.lui (c.extractLsb' 7 5) hsp, ?_⟩)
      change imm6Type 0b011#3 (c.extractLsb' 7 5) 0 0b01#2 = c
      rw [← hz]
      exact imm6Type_fields h hop
    · exact .inl ⟨.lui (c.extractLsb' 7 5) (imm6Field c) hsp hz, imm6Type_fields h hop⟩
  · have hsub : c.extractLsb' 10 2 = 0b00#2 ∨ c.extractLsb' 10 2 = 0b01#2 ∨
        c.extractLsb' 10 2 = 0b10#2 ∨ c.extractLsb' 10 2 = 0b11#2 := by
      generalize c.extractLsb' 10 2 = sub
      revert sub
      decide
    rcases hsub with hsub | hsub | hsub | hsub
    · exact .inl ⟨.srli (c.extractLsb' 7 3) (imm6Field c), imm6_sub h hop hsub⟩
    · exact .inl ⟨.srai (c.extractLsb' 7 3) (imm6Field c), imm6_sub h hop hsub⟩
    · exact .inl ⟨.andi (c.extractLsb' 7 3) (imm6Field c), imm6_sub h hop hsub⟩
    · exact assigned_ca h hop hsub
  · exact .inl ⟨.j (jumpField c), jumpType_fields h hop⟩
  · exact .inl ⟨.beqz (c.extractLsb' 7 3) (branchField c), branchType_fields h hop⟩
  · exact .inl ⟨.bnez (c.extractLsb' 7 3) (branchField c), branchType_fields h hop⟩

theorem assigned_jump (h : c.extractLsb' 13 3 = 0b100#3) (hop : c.extractLsb' 0 2 = 0b10#2) :
    Assigned c := by
  have hfields := ciType_fields c
  rw [h, hop] at hfields
  have hbit : c.extractLsb' 12 1 = 0#1 ∨ c.extractLsb' 12 1 = 1#1 := by
    generalize c.extractLsb' 12 1 = b
    revert b
    decide
  rcases hbit with hbit | hbit <;> rw [hbit] at hfields <;>
    by_cases hlow : c.extractLsb' 2 5 = 0#5 <;> by_cases hrd : c.extractLsb' 7 5 = 0#5
  · rw [hlow, hrd] at hfields
    exact .inr (.inl ⟨.jr, hfields⟩)
  · rw [hlow] at hfields
    exact .inl ⟨.jr (c.extractLsb' 7 5) hrd, hfields⟩
  · exact .inl ⟨.mv (c.extractLsb' 7 5) (c.extractLsb' 2 5) hlow, hfields⟩
  · exact .inl ⟨.mv (c.extractLsb' 7 5) (c.extractLsb' 2 5) hlow, hfields⟩
  · rw [hlow, hrd] at hfields
    exact .inl ⟨.ebreak, hfields⟩
  · rw [hlow] at hfields
    exact .inl ⟨.jalr (c.extractLsb' 7 5) hrd, hfields⟩
  · exact .inl ⟨.add (c.extractLsb' 7 5) (c.extractLsb' 2 5) hlow, hfields⟩
  · exact .inl ⟨.add (c.extractLsb' 7 5) (c.extractLsb' 2 5) hlow, hfields⟩

theorem assigned_quadrant2 (hop : c.extractLsb' 0 2 = 0b10#2) : Assigned c := by
  rcases funct3_cases (c.extractLsb' 13 3) with h | h | h | h | h | h | h | h
  · exact .inl ⟨.slli (c.extractLsb' 7 5) (imm6Field c), imm6Type_fields h hop⟩
  · refine .inr (.inr ⟨.fldsp (c.extractLsb' 2 11), ?_⟩)
    change cjType 0b001#3 _ 0b10#2 = c
    rw [← h, ← hop]
    exact cjType_fields c
  · by_cases hz : c.extractLsb' 7 5 = 0#5
    · refine .inr (.inl ⟨.lwsp (lwspField c), ?_⟩)
      change lwspType 0#5 (lwspField c) = c
      rw [← hz]
      exact lwspType_fields h hop
    · exact .inl ⟨.lwsp (c.extractLsb' 7 5) (lwspField c) hz, lwspType_fields h hop⟩
  · by_cases hz : c.extractLsb' 7 5 = 0#5
    · refine .inr (.inl ⟨.ldsp (ldspField c), ?_⟩)
      change ldspType 0#5 (ldspField c) = c
      rw [← hz]
      exact ldspType_fields h hop
    · exact .inl ⟨.ldsp (c.extractLsb' 7 5) (ldspField c) hz, ldspType_fields h hop⟩
  · exact assigned_jump h hop
  · refine .inr (.inr ⟨.fsdsp (c.extractLsb' 2 11), ?_⟩)
    change cjType 0b101#3 _ 0b10#2 = c
    rw [← h, ← hop]
    exact cjType_fields c
  · exact .inl ⟨.swsp (c.extractLsb' 2 5) (swspField c), swspType_fields h hop⟩
  · exact .inl ⟨.sdsp (c.extractLsb' 2 5) (sdspField c), sdspType_fields h hop⟩

/-- Every compressed parcel is that of an instruction, reserved or floating-point. -/
theorem assigned_of_compressed (h : c.extractLsb' 0 2 ≠ 0b11#2) : Assigned c := by
  have hcases : ∀ op : BitVec 2, op ≠ 0b11#2 → op = 0b00#2 ∨ op = 0b01#2 ∨ op = 0b10#2 := by
    decide
  rcases hcases _ h with hop | hop | hop
  · exact assigned_quadrant0 hop
  · exact assigned_quadrant1 hop
  · exact assigned_quadrant2 hop

end Cover

end CInstr

end OpenRV64
