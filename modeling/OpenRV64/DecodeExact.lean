/-
The integer decoder accepts its grammar: what `openrv64_decode_top` does with each opcode,
that it reports every instruction of the grammar, and that the words it accepts are words of
the grammar or word forms that the ALU refuses.
-/
import OpenRV64.Rv64Grammar

namespace OpenRV64

open InstrFormat
open Bool (and_eq_true or_eq_true not_eq_true')
open Option (isSome_iff_exists isSome_ite some)
open BitVec (extractLsb'_eq_self)
open Instr (aluReg aluImm)

namespace DecodeEnables

variable {p : DecodeEnables} {w : BitVec 32}

/-! ### One opcode at a time -/

theorem extensionSelected_idle : p.extensionSelected .idle w = false := by
  simp only [extensionSelected, ExtensionResponse.idle, Bool.and_false]

/-- Without an extension decoder the word is valid when the integer decoder finds nothing
illegal in it. -/
theorem decodeTop_valid : (p.decodeTop .idle w).valid = !p.integerIllegal w := by
  simp only [decodeTop, extensionSelected_idle, if_low, integerIllegal]
  cases (decodeEarly (rvOpcode w)).valid <;>
    cases decodeImmediate (decodeEarly (rvOpcode w)).format w <;> simp

/-- The decoder reports `m` of the word; `none` is a word that it does not accept. -/
def Reports (p : DecodeEnables) (w : BitVec 32) (m : Option Meaning) : Prop :=
  (p.decodeTop .idle w).valid = m.isSome ∧ ∀ x ∈ m, (p.decodeTop .idle w).meaning = x

theorem Reports.refused (h : p.integerIllegal w) : p.Reports w none := by
  refine ⟨?_, by simp⟩
  rw [decodeTop_valid, h]
  rfl

theorem Reports.accepted {x : Meaning} (h : p.integerIllegal w = false)
    (hx : (p.decodeTop .idle w).meaning = x) : p.Reports w (some x) := by
  refine ⟨?_, ?_⟩
  · rw [decodeTop_valid, h]
    rfl
  · intro y hy
    cases hy
    exact hx

/-- A table that gives the operation decides about the word. -/
theorem Reports.of_table {α : Type} {o : Option α} {f : α → Meaning}
    (hnone : o = none → p.integerIllegal w)
    (hsome : ∀ x, o = some x → p.integerIllegal w = false)
    (hmeaning : ∀ x, o = some x → p.integerIllegal w = false →
      (p.decodeTop .idle w).meaning = f x) : p.Reports w (o.map f) := by
  cases ho : o with
  | none => exact .refused (hnone ho)
  | some x => exact .accepted (hsome x ho) (hmeaning x ho (hsome x ho))

theorem immI_eq : immI w = (rvCsr w).signExtend 64 := rfl

section Opcodes

attribute [local simp] integerIllegal decodeEarly decodeImmediate selectedDecode selectedRegs
  extensionSelected_idle DecodeTop.meaning decodeRegAlu decodeAlu aluWordOp decodeRegLsu opcodeJal
  opcodeJalr opcodeAmo

theorem reports_lui (hop : rvOpcode w = opcodeLui) :
    p.Reports w (some { cls := .alu, alu := some (.base .lui), rd := some (rvRd w)
                        imm := some (immU w) }) := by
  have hok : p.integerIllegal w = false := by simp [hop]
  apply Reports.accepted hok
  simp [decodeTop, -integerIllegal, hok, hop]

theorem reports_auipc (hop : rvOpcode w = opcodeAuipc) :
    p.Reports w (some { cls := .alu, alu := some (.base .auipc), rd := some (rvRd w)
                        imm := some (immU w) }) := by
  have hok : p.integerIllegal w = false := by simp [hop]
  apply Reports.accepted hok
  simp [decodeTop, -integerIllegal, hok, hop]

theorem reports_jal (hop : rvOpcode w = opcodeJal) :
    p.Reports w (some { cls := .jump, br := some .jal, jump := true, link := true
                        rd := some (rvRd w), imm := some (immJ w) }) := by
  have hok : p.integerIllegal w = false := by simp [hop, decodeBr]
  apply Reports.accepted hok
  simp [decodeTop, -integerIllegal, hok, hop, decodeBr, BrOp.isJump, BrOp.isIndirect]

theorem reports_jalr (hop : rvOpcode w = opcodeJalr) : p.Reports w (if rvFunct3 w = 0b000 then
      some { cls := .jump, br := some .jalr, jump := true, link := true, indirect := true
             rs1 := some (rvRs1 w), rd := some (rvRd w), imm := some (immI w) }
      else none) := by
  split_ifs with hf
  · have hok : p.integerIllegal w = false := by simp [hop, decodeBr, hf]
    apply Reports.accepted hok
    simp [decodeTop, -integerIllegal, hok, hop, decodeBr, BrOp.isJump, BrOp.isIndirect, hf]
  · apply Reports.refused
    simpa [hop, decodeBr] using hf

theorem reports_branch (hop : rvOpcode w = opcodeBranch) :
    p.Reports w ((decodeBr w).map fun op =>
      { cls := .branch, br := some op, branch := op.isBranch, link := op.isJump
        indirect := op.isIndirect, rs1 := some (rvRs1 w), rs2 := some (rvRs2 w)
        imm := some (immB w) }) := by
  refine .of_table (fun hbr => ?_) (fun op hbr => ?_) fun op hbr hok => ?_
  · simp [hop, hbr]
  · simp [hop, hbr]
  · simp [decodeTop, -integerIllegal, hok, hop, hbr]

theorem reports_load (hop : rvOpcode w = opcodeLoad) :
    p.Reports w ((decodeLsu p.enableRv64a w).map fun op =>
      { cls := .mem, lsu := some (op, op.size (rvFunct3 w), op.unsigned), memRead := op.reads
        rs1 := some (rvRs1 w), rd := some (rvRd w), imm := some (immI w) }) := by
  refine .of_table (fun hlsu => ?_) (fun op hlsu => ?_) fun op hlsu hok => ?_
  · simp [hop, hlsu]
  · simp [hop, hlsu]
  · simp [decodeTop, -integerIllegal, hok, hop, hlsu]

theorem reports_store (hop : rvOpcode w = opcodeStore) :
    p.Reports w ((decodeLsu p.enableRv64a w).map fun op =>
      { cls := .mem, lsu := some (op, op.size (rvFunct3 w), op.unsigned), memWrite := op.writes
        rs1 := some (rvRs1 w), rs2 := some (rvRs2 w), imm := some (immS w) }) := by
  refine .of_table (fun hlsu => ?_) (fun op hlsu => ?_) fun op hlsu hok => ?_
  · simp [hop, hlsu]
  · simp [hop, hlsu]
  · simp [decodeTop, -integerIllegal, hok, hop, hlsu]

theorem reports_amo (hop : rvOpcode w = opcodeAmo) :
    p.Reports w ((decodeLsu p.enableRv64a w).map fun op =>
      { cls := .mem, lsu := some (op, op.size (rvFunct3 w), op.unsigned)
        memRead := op.reads, memWrite := op.writes, rs1 := some (rvRs1 w)
        rs2 := if amoFunct5 w = 0b00010 then none else some (rvRs2 w), rd := some (rvRd w) }) := by
  refine .of_table (fun hlsu => ?_) (fun op hlsu => ?_) fun op hlsu hok => ?_
  · simp [hop, hlsu]
  · simp [hop, hlsu]
  · by_cases hlr : amoFunct5 w = 0b00010#5 <;>
      simp [decodeTop, -integerIllegal, hok, hop, hlsu, hlr]

theorem reports_opImm (hop : rvOpcode w = opcodeOpImm) :
    p.Reports w ((decodeOpImm p.enableRv64zbb (rvFunct3 w) (rvCsr w)).map fun sel =>
      aluImm sel false (rvRd w) (rvRs1 w) (rvCsr w)) := by
  refine .of_table (fun halu => ?_) (fun sel halu => ?_) fun sel halu hok => ?_
  · simp [hop, halu]
  · simp [hop, halu]
  · simp [decodeTop, -integerIllegal, hok, hop, halu, aluImm, immI_eq]

theorem reports_opImm32 (hop : rvOpcode w = opcodeOpImm32) :
    p.Reports w ((decodeOpImm32 p.enableRv64zbb (rvFunct3 w) (rvCsr w)).map fun sel =>
      aluImm sel true (rvRd w) (rvRs1 w) (rvCsr w)) := by
  refine .of_table (fun halu => ?_) (fun sel halu => ?_) fun sel halu hok => ?_
  · simp [hop, halu]
  · simp [hop, halu]
  · simp [decodeTop, -integerIllegal, hok, hop, halu, aluImm, immI_eq]

theorem reports_op (hop : rvOpcode w = opcodeOp) :
    p.Reports w ((decodeOp p.enableRv64m p.enableRv64zbb false (rvFunct3 w) (rvFunct7 w)
      (rvRs2 w)).map fun sel => aluReg sel false (rvRd w) (rvRs1 w) (rvRs2 w)) := by
  refine .of_table (fun halu => ?_) (fun sel halu => ?_) fun sel halu hok => ?_
  · simp [hop, halu]
  · simp [hop, halu]
  · simp [decodeTop, -integerIllegal, hok, hop, halu, aluReg]

theorem reports_op32 (hop : rvOpcode w = opcodeOp32) :
    p.Reports w ((decodeOp p.enableRv64m p.enableRv64zbb true (rvFunct3 w) (rvFunct7 w)
      (rvRs2 w)).map fun sel => aluReg sel true (rvRd w) (rvRs1 w) (rvRs2 w)) := by
  refine .of_table (fun halu => ?_) (fun sel halu => ?_) fun sel halu hok => ?_
  · simp [hop, halu]
  · simp [hop, halu]
  · simp [decodeTop, -integerIllegal, hok, hop, halu, aluReg]

theorem reports_miscMem (hop : rvOpcode w = opcodeMiscMem) : p.Reports w (if decodeFence w then
      some { cls := .fence, fence := true, imm := some (immI w) } else none) := by
  split_ifs with hfen
  · have hok : p.integerIllegal w = false := by simp [hop, hfen]
    apply Reports.accepted hok
    simp [decodeTop, -integerIllegal, hok, hop]
  · apply Reports.refused
    simp [hop, hfen]

/-- The CSR accesses whose source is a register. -/
def csrReads (funct3 : BitVec 3) : Bool := funct3 == 0b001 || funct3 == 0b010 || funct3 == 0b011

/-- A legal system word names the registers of its `funct3`. -/
theorem decodeRegSystem_eq (hop : rvOpcode w = opcodeSystem) (h : decodeSystem w) :
    decodeRegSystem w =
      { valid := true
        usesRs1 := csrReads (rvFunct3 w)
        usesRd := rvFunct3 w != 0
        rs1Addr := if csrReads (rvFunct3 w) then rvRs1 w else 0
        rdAddr := if rvFunct3 w != 0 then rvRd w else 0 } := by
  have hleg : rvFunct3 w ≠ 0b100 := by
    intro h4
    simp [decodeSystem, h4, csrFunct3] at h
  rw [decodeRegSystem]
  generalize rvFunct3 w = funct3 at hleg ⊢
  generalize rvRs1 w = rs1
  generalize rvRd w = rd
  simp only [hop, BEq.rfl, if_true]
  have hcases : funct3 = 0 ∨ funct3 = 1 ∨ funct3 = 2 ∨ funct3 = 3 ∨ funct3 = 5 ∨ funct3 = 6 ∨
      funct3 = 7 := by
    revert hleg
    revert funct3
    decide
  rcases hcases with rfl | rfl | rfl | rfl | rfl | rfl | rfl <;> rfl

theorem reports_system (hop : rvOpcode w = opcodeSystem) : p.Reports w (if decodeSystem w then
      some { cls := .system, system := true
             rs1 := if csrReads (rvFunct3 w) then some (rvRs1 w) else none
             rd := if rvFunct3 w != 0 then some (rvRd w) else none
             imm := some (immI w) }
      else none) := by
  cases hsys : decodeSystem w with
  | false =>
    apply Reports.refused
    simp [hop, hsys]
  | true =>
    have hregs := decodeRegSystem_eq hop hsys
    have hok : p.integerIllegal w = false := by simp [hop, hsys, hregs]
    apply Reports.accepted hok
    by_cases hf : rvFunct3 w = 0#3
    · simp [decodeTop, -integerIllegal, hok, hop, hregs, hf, csrReads]
    · cases hbit : csrReads (rvFunct3 w) <;>
        simp [decodeTop, -integerIllegal, hok, hop, hregs, hf, hbit]

/-- Every other opcode is left to the extension decoders. -/
theorem reports_other (h : (decodeEarly (rvOpcode w)).format = .invalid) : p.Reports w none := by
  apply Reports.refused
  simp only [integerIllegal, decodeImmediate, h, Option.isNone_none, Bool.or_true, Bool.true_or]

end Opcodes

end DecodeEnables

/-! ### The fields of an encoded instruction -/

section EncodedFields

variable {funct7 opcode : BitVec 7} {rs2 rs1 rd : BitVec 5} {funct3 : BitVec 3}
  {imm offset : BitVec 12} {imm20 : BitVec 20}

@[simp] theorem rvOpcode_rType : rvOpcode (rType funct7 rs2 rs1 funct3 rd opcode) = opcode :=
  rType_opcode

@[simp] theorem rvRd_rType : rvRd (rType funct7 rs2 rs1 funct3 rd opcode) = rd := rType_rd

@[simp] theorem rvFunct3_rType : rvFunct3 (rType funct7 rs2 rs1 funct3 rd opcode) = funct3 :=
  rType_funct3

@[simp] theorem rvRs1_rType : rvRs1 (rType funct7 rs2 rs1 funct3 rd opcode) = rs1 := rType_rs1

@[simp] theorem rvRs2_rType : rvRs2 (rType funct7 rs2 rs1 funct3 rd opcode) = rs2 := rType_rs2

@[simp] theorem rvFunct7_rType : rvFunct7 (rType funct7 rs2 rs1 funct3 rd opcode) = funct7 :=
  rType_funct7

@[simp] theorem rvCsr_rType :
    rvCsr (rType funct7 rs2 rs1 funct3 rd opcode) = funct7 ++ rs2 := rType_funct12

@[simp] theorem amoFunct5_rType :
    amoFunct5 (rType funct7 rs2 rs1 funct3 rd opcode) = funct7.extractLsb' 2 5 := rType_funct5

@[simp] theorem rvOpcode_iType : rvOpcode (iType imm rs1 funct3 rd opcode) = opcode := iType_opcode

@[simp] theorem rvRd_iType : rvRd (iType imm rs1 funct3 rd opcode) = rd := iType_rd

@[simp] theorem rvFunct3_iType : rvFunct3 (iType imm rs1 funct3 rd opcode) = funct3 := iType_funct3

@[simp] theorem rvRs1_iType : rvRs1 (iType imm rs1 funct3 rd opcode) = rs1 := iType_rs1

@[simp] theorem rvCsr_iType : rvCsr (iType imm rs1 funct3 rd opcode) = imm := iType_funct12

@[simp] theorem rvOpcode_uType : rvOpcode (uType imm20 rd opcode) = opcode := uType_opcode

@[simp] theorem rvRd_uType : rvRd (uType imm20 rd opcode) = rd := uType_rd

@[simp] theorem immI_iType : immI (iType imm rs1 funct3 rd opcode) = imm.signExtend 64 := by
  rw [DecodeEnables.immI_eq, rvCsr_iType]

@[simp] theorem immU_uType : immU (uType imm20 rd opcode) = (imm20 ++ 0#12).signExtend 64 := by
  rw [immU, uType_imm]

@[simp] theorem immS_sType : immS (sType imm rs2 rs1 funct3 opcode) = imm.signExtend 64 := by
  rw [immS, sType, rType_funct7, rType_rd]
  rw [BitVec.extractLsb'_append_extractLsb'_eq_extractLsb' (by decide)]
  simp only [Nat.reduceAdd, extractLsb'_eq_self]

theorem immB_rType : immB (rType funct7 rs2 rs1 funct3 rd opcode) =
    (funct7.extractLsb' 6 1 ++ rd.extractLsb' 0 1 ++ funct7.extractLsb' 0 6 ++
      rd.extractLsb' 1 4 ++ 0#1).signExtend 64 := by
  simp (disch := decide) only [immB, rType, BitVec.extractLsb'_append_eq_of_le,
    BitVec.extractLsb'_append_eq_of_add_le, Nat.reduceSub]

@[simp] theorem immB_bType :
    immB (bType offset rs2 rs1 funct3 opcode) = (offset ++ 0#1).signExtend 64 := by
  rw [bType, immB_rType]
  simp (disch := decide) only [BitVec.extractLsb'_append_eq_of_le,
    BitVec.extractLsb'_append_eq_of_add_le, Nat.reduceSub, extractLsb'_eq_self]
  repeat rw [BitVec.extractLsb'_append_extractLsb'_eq_extractLsb' (by decide)]
  simp only [Nat.reduceAdd, extractLsb'_eq_self]

@[simp] theorem immJ_jType {target : BitVec 20} :
    immJ (jType target rd opcode) = (target ++ 0#1).signExtend 64 := by
  simp (disch := decide) only [immJ, jType, uType, BitVec.extractLsb'_append_eq_of_le,
    BitVec.extractLsb'_append_eq_of_add_le, Nat.reduceSub, extractLsb'_eq_self]
  repeat rw [BitVec.extractLsb'_append_extractLsb'_eq_extractLsb' (by decide)]
  simp only [Nat.reduceAdd, extractLsb'_eq_self]

end EncodedFields

/-! ### The sub-decoders on the families -/

section Families

variable {p : DecodeEnables} {w : BitVec 32} {zbb : Bool}

theorem decodeBr_branch (hop : rvOpcode w = opcodeBranch) (k : BranchKind)
    (hf : rvFunct3 w = k.funct3) : decodeBr w = some k.op := by
  simp only [decodeBr, hop, hf]
  cases k <;> rfl

theorem branch_of_decodeBr {op : BrOp} (hop : rvOpcode w = opcodeBranch)
    (h : decodeBr w = some op) : ∃ k : BranchKind, rvFunct3 w = k.funct3 := by
  simp only [decodeBr, hop, BEq.rfl, if_true, beq_iff_eq] at h
  split_ifs at h with h0 h1 h2 h3 h4 h5
  · exact ⟨.beq, h0⟩
  · exact ⟨.bne, h1⟩
  · exact ⟨.blt, h2⟩
  · exact ⟨.bge, h3⟩
  · exact ⟨.bltu, h4⟩
  · exact ⟨.bgeu, h5⟩

theorem decodeLsu_load {a : Bool} (hop : rvOpcode w = opcodeLoad) (k : LoadKind)
    (hf : rvFunct3 w = k.funct3) : decodeLsu a w = some k.op.1 := by
  simp only [decodeLsu, hop, hf]
  cases k <;> rfl

theorem load_of_decodeLsu {a : Bool} {op : LsuOp} (hop : rvOpcode w = opcodeLoad)
    (h : decodeLsu a w = some op) : ∃ k : LoadKind, rvFunct3 w = k.funct3 := by
  simp only [decodeLsu, hop, BEq.rfl, if_true, beq_iff_eq] at h
  split_ifs at h with h0 h1 h2 h3 h4 h5 h6
  · exact ⟨.lb, h0⟩
  · exact ⟨.lh, h1⟩
  · exact ⟨.lw, h2⟩
  · exact ⟨.ld, h3⟩
  · exact ⟨.lbu, h4⟩
  · exact ⟨.lhu, h5⟩
  · exact ⟨.lwu, h6⟩

theorem decodeLsu_store {a : Bool} (hop : rvOpcode w = opcodeStore) (k : StoreKind)
    (hf : rvFunct3 w = k.funct3) : decodeLsu a w = some k.op.1 := by
  simp only [decodeLsu, hop, hf]
  cases k <;> rfl

theorem store_of_decodeLsu {a : Bool} {op : LsuOp} (hop : rvOpcode w = opcodeStore)
    (h : decodeLsu a w = some op) : ∃ k : StoreKind, rvFunct3 w = k.funct3 := by
  have hne : (opcodeStore == opcodeLoad) = false := by decide
  simp only [decodeLsu, hop, hne, Bool.false_eq_true, BEq.rfl, if_true, if_false, beq_iff_eq] at h
  split_ifs at h with h0 h1 h2 h3
  · exact ⟨.sb, h0⟩
  · exact ⟨.sh, h1⟩
  · exact ⟨.sw, h2⟩
  · exact ⟨.sd, h3⟩

section

variable {a : Bool} (hop : rvOpcode w = opcodeAmo) (isWord : Bool)
  (hf : rvFunct3 w = atomicFunct3 isWord)
include hop hf

theorem decodeLsu_amo_eq : decodeLsu a w = if a then
      (if amoFunct5 w == 0b00010 then if rvRs2 w == 0 then some .lr else none
      else if amoFunct5 w == 0b00011 then some .sc
      else if amoFunct5 w == 0b00001 then some .amoswap
      else if amoFunct5 w == 0b00000 then some .amoadd
      else if amoFunct5 w == 0b00100 then some .amoxor
      else if amoFunct5 w == 0b01100 then some .amoand
      else if amoFunct5 w == 0b01000 then some .amoor
      else if amoFunct5 w == 0b10000 then some .amomin
      else if amoFunct5 w == 0b10100 then some .amomax
      else if amoFunct5 w == 0b11000 then some .amominu
      else if amoFunct5 w == 0b11100 then some .amomaxu
      else none) else none := by
  simp only [decodeLsu, hop, hf]
  cases isWord <;> cases a <;> rfl

theorem decodeLsu_amo (k : AmoKind) (hk : amoFunct5 w = k.funct5) :
    decodeLsu true w = some k.op := by
  rw [decodeLsu_amo_eq hop isWord hf, hk]
  cases k <;> rfl

theorem decodeLsu_lr (hk : amoFunct5 w = 0b00010) (hrs2 : rvRs2 w = 0) :
    decodeLsu true w = some .lr := by
  rw [decodeLsu_amo_eq hop isWord hf, hk, hrs2]
  rfl

end

/-- A conditional that gives a value: its condition holds or its other branch gives it. -/
theorem of_ite_some {α : Type*} {c : Prop} [Decidable c] {a b : α} {x : Option α}
    (h : (if c then some a else x) = some b) : c ∨ x = some b := by
  split_ifs at h with hc
  · exact .inl hc
  · exact .inr h

theorem amo_of_decodeLsu {a : Bool} {op : LsuOp} (hop : rvOpcode w = opcodeAmo)
    (h : decodeLsu a w = some op) : a ∧ (∃ isWord, rvFunct3 w = atomicFunct3 isWord) ∧
      (amoFunct5 w = 0b00010 ∧ rvRs2 w = 0 ∨ ∃ k : AmoKind, amoFunct5 w = k.funct5) := by
  have hwidth : (a && (rvFunct3 w == 0b010 || rvFunct3 w == 0b011)) := by
    by_contra hno
    rw [Bool.not_eq_true] at hno
    have hl : (opcodeAmo == opcodeLoad) = false := by decide
    have hs : (opcodeAmo == opcodeStore) = false := by decide
    rw [decodeLsu, hop, hno] at h
    simp only [hl, hs, Bool.false_eq_true, BEq.rfl, if_true, if_false, reduceCtorEq] at h
  rw [and_eq_true, or_eq_true, beq_iff_eq, beq_iff_eq] at hwidth
  obtain ⟨isWord, hf⟩ : ∃ isWord, rvFunct3 w = atomicFunct3 isWord :=
    hwidth.2.elim (fun hw => ⟨true, hw⟩) fun hd => ⟨false, hd⟩
  refine ⟨hwidth.1, ⟨isWord, hf⟩, ?_⟩
  rw [decodeLsu_amo_eq hop isWord hf, if_pos hwidth.1] at h
  by_cases hlr : amoFunct5 w = 0b00010
  · rw [if_pos (beq_iff_eq.mpr hlr)] at h
    by_cases hz : rvRs2 w = 0
    · exact .inl ⟨hlr, hz⟩
    · rw [if_neg (by simpa using hz)] at h
      cases h
  rw [if_neg (by simpa using hlr)] at h
  right
  rcases of_ite_some h with h1 | h
  · exact ⟨.sc, eq_of_beq h1⟩
  rcases of_ite_some h with h1 | h
  · exact ⟨.swap, eq_of_beq h1⟩
  rcases of_ite_some h with h1 | h
  · exact ⟨.add, eq_of_beq h1⟩
  rcases of_ite_some h with h1 | h
  · exact ⟨.xor, eq_of_beq h1⟩
  rcases of_ite_some h with h1 | h
  · exact ⟨.and, eq_of_beq h1⟩
  rcases of_ite_some h with h1 | h
  · exact ⟨.or, eq_of_beq h1⟩
  rcases of_ite_some h with h1 | h
  · exact ⟨.min, eq_of_beq h1⟩
  rcases of_ite_some h with h1 | h
  · exact ⟨.max, eq_of_beq h1⟩
  rcases of_ite_some h with h1 | h
  · exact ⟨.minu, eq_of_beq h1⟩
  rcases of_ite_some h with h1 | h
  · exact ⟨.maxu, eq_of_beq h1⟩
  cases h

theorem decodeOpImm_imm (k : ImmKind) (imm : BitVec 12) :
    decodeOpImm zbb k.funct3 imm = some (.base k.op) := by
  cases k <;> rfl

example : decodeOpImm false 0b000 5 = some (.base .add) := by decide +kernel

theorem decodeOpImm_shift (k : ShiftKind) (shamt : BitVec 6) (hset : k.sel.set = .base ∨ zbb) :
    decodeOpImm zbb k.funct3 (k.funct6 ++ shamt) = some k.sel := by
  revert hset shamt
  cases k <;> cases zbb <;> decide +kernel

theorem decodeOpImm_unary (k : UnaryKind) :
    decodeOpImm true k.funct3 k.funct12 = some (.zbb k.op) := by
  cases k <;> rfl

theorem imm_of_decodeSlli {imm : BitVec 12} {sel : AluSel} (h : decodeSlli zbb imm = some sel) :
    (∃ k : ShiftKind, (k.sel.set = .base ∨ zbb) ∧ k.funct3 = 0b001 ∧
      imm.extractLsb' 6 6 = k.funct6) ∨
    ∃ k : UnaryKind, zbb ∧ k.funct3 = 0b001 ∧ imm = k.funct12 := by
  simp only [decodeSlli, beq_iff_eq, and_eq_true] at h
  split_ifs at h with hclz hctz hcpop hsextB hsextH hsll
  · exact .inr ⟨.clz, hclz.1, rfl, hclz.2⟩
  · exact .inr ⟨.ctz, hctz.1, rfl, hctz.2⟩
  · exact .inr ⟨.cpop, hcpop.1, rfl, hcpop.2⟩
  · exact .inr ⟨.sextB, hsextB.1, rfl, hsextB.2⟩
  · exact .inr ⟨.sextH, hsextH.1, rfl, hsextH.2⟩
  · exact .inl ⟨.slli, .inl rfl, rfl, hsll⟩

theorem imm_of_decodeSrli {imm : BitVec 12} {sel : AluSel} (h : decodeSrli zbb imm = some sel) :
    (∃ k : ShiftKind, (k.sel.set = .base ∨ zbb) ∧ k.funct3 = 0b101 ∧
      imm.extractLsb' 6 6 = k.funct6) ∨
    ∃ k : UnaryKind, zbb ∧ k.funct3 = 0b101 ∧ imm = k.funct12 := by
  simp only [decodeSrli, beq_iff_eq, and_eq_true] at h
  split_ifs at h with hror horc hrev hsrl hsra
  · exact .inl ⟨.rori, .inr hror.1, rfl, hror.2⟩
  · exact .inr ⟨.orcB, horc.1, rfl, horc.2⟩
  · exact .inr ⟨.rev8, hrev.1, rfl, hrev.2⟩
  · exact .inl ⟨.srli, .inl rfl, rfl, hsrl⟩
  · exact .inl ⟨.srai, .inl rfl, rfl, hsra⟩

theorem imm_of_decodeOpImm {funct3 : BitVec 3} {imm : BitVec 12} {sel : AluSel}
    (h : decodeOpImm zbb funct3 imm = some sel) :
    (∃ k : ImmKind, k.funct3 = funct3) ∨
      (∃ k : ShiftKind, (k.sel.set = .base ∨ zbb) ∧ k.funct3 = funct3 ∧
        imm.extractLsb' 6 6 = k.funct6) ∨
      ∃ k : UnaryKind, zbb ∧ k.funct3 = funct3 ∧ imm = k.funct12 := by
  simp only [decodeOpImm, beq_iff_eq] at h
  split_ifs at h with h0 h2 h3 h4 h6 h7 h1
  · exact .inl ⟨.addi, h0.symm⟩
  · exact .inl ⟨.slti, h2.symm⟩
  · exact .inl ⟨.sltiu, h3.symm⟩
  · exact .inl ⟨.xori, h4.symm⟩
  · exact .inl ⟨.ori, h6.symm⟩
  · exact .inl ⟨.andi, h7.symm⟩
  · rw [h1]
    exact .inr (imm_of_decodeSlli h)
  · have h5 : funct3 = 0b101 := by bv_omega
    rw [h5]
    exact .inr (imm_of_decodeSrli h)

theorem decodeOpImm32_addiw (imm : BitVec 12) :
    decodeOpImm32 zbb 0b000 imm = some (.base .add) := rfl

theorem decodeOpImm32_shift (k : ShiftKind) (shamt : BitVec 5) (hset : k.sel.set = .base ∨ zbb) :
    decodeOpImm32 zbb k.funct3 (k.funct6 ++ 0#1 ++ shamt) = some k.sel := by
  revert hset shamt
  cases k <;> cases zbb <;> decide +kernel

theorem decodeOpImm32_unary (k : UnaryKind) (hwrd : k.hasWord) :
    decodeOpImm32 true k.funct3 k.funct12 = some (.zbb k.op) := by
  revert hwrd
  cases k <;> decide

/-- What the word form of the immediate opcode accepts. -/
theorem imm_of_decodeOpImm32 {funct3 : BitVec 3} {imm : BitVec 12} {sel : AluSel}
    (h : decodeOpImm32 zbb funct3 imm = some sel) :
    funct3 = 0b000 ∨ (∃ k : ShiftKind, (k.sel.set = .base ∨ zbb) ∧ k.funct3 = funct3 ∧
        imm.extractLsb' 5 7 = k.funct6 ++ 0#1) ∨
      ∃ k : UnaryKind, k.hasWord ∧ zbb ∧ k.funct3 = funct3 ∧ imm = k.funct12 := by
  simp only [decodeOpImm32, beq_iff_eq, and_eq_true] at h
  split_ifs at h with h0 h1 hclz hctz hcpop hsll h5 hror hsrl hsra
  · exact .inl h0
  · exact .inr (.inr ⟨.clz, rfl, hclz.1, h1.symm, hclz.2⟩)
  · exact .inr (.inr ⟨.ctz, rfl, hctz.1, h1.symm, hctz.2⟩)
  · exact .inr (.inr ⟨.cpop, rfl, hcpop.1, h1.symm, hcpop.2⟩)
  · exact .inr (.inl ⟨.slli, .inl rfl, h1.symm, hsll⟩)
  · exact .inr (.inl ⟨.rori, .inr hror.1, h5.symm, hror.2⟩)
  · exact .inr (.inl ⟨.srli, .inl rfl, h5.symm, hsrl⟩)
  · exact .inr (.inl ⟨.srai, .inl rfl, h5.symm, hsra⟩)

theorem decodeOp_reg {m : Bool} (k : RegKind) (rs2 : BitVec 5)
    (hset : k.sel.set = .base ∨ k.sel.set = .m ∧ m ∨ k.sel.set = .zbb ∧ zbb) :
    decodeOp m zbb false k.funct3 k.funct7 rs2 = some k.sel := by
  cases k <;> cases m <;> cases zbb <;> first | rfl | exact absurd hset (by decide)

theorem decodeOp_regw {m : Bool} (k : RegKind) (hwrd : k.hasWord) (rs2 : BitVec 5)
    (hset : k.sel.set = .base ∨ k.sel.set = .m ∧ m ∨ k.sel.set = .zbb ∧ zbb) :
    decodeOp m zbb true k.funct3 k.funct7 rs2 = some k.sel := by
  cases k <;> cases m <;> cases zbb <;>
    first | rfl | exact absurd hset (by decide) | exact absurd hwrd (by decide)

/-- The base operations whose word form does not exist. -/
def noWordForm : AluOp → Bool
  | .slt | .sltu | .xor | .or | .and => true
  | _ => false

theorem reg_of_decodeBase {funct3 : BitVec 3} {funct7 : BitVec 7} {op : AluOp}
    (h : decodeBase funct3 funct7 = some op) : ∃ k : RegKind, k.sel = .base op ∧
      k.funct3 = funct3 ∧ k.funct7 = funct7 ∧ (k.hasWord ∨ noWordForm op) := by
  simp only [decodeBase, beq_iff_eq] at h
  split_ifs at h with h0 hadd hsub h5 hsrl hsra hz h1 h2 h3 h4 h6 <;> cases h
  · exact ⟨.add, rfl, h0.symm, hadd.symm, .inl rfl⟩
  · exact ⟨.sub, rfl, h0.symm, hsub.symm, .inl rfl⟩
  · exact ⟨.srl, rfl, h5.symm, hsrl.symm, .inl rfl⟩
  · exact ⟨.sra, rfl, h5.symm, hsra.symm, .inl rfl⟩
  · exact ⟨.sll, rfl, h1.symm, hz.symm, .inl rfl⟩
  · exact ⟨.slt, rfl, h2.symm, hz.symm, .inr rfl⟩
  · exact ⟨.sltu, rfl, h3.symm, hz.symm, .inr rfl⟩
  · exact ⟨.xor, rfl, h4.symm, hz.symm, .inr rfl⟩
  · exact ⟨.or, rfl, h6.symm, hz.symm, .inr rfl⟩
  · have h7 : funct3 = 0b111 := by bv_omega
    exact ⟨.and, rfl, h7.symm, hz.symm, .inr rfl⟩

theorem reg_of_decodeMul {isWord : Bool} {funct3 : BitVec 3} {op : MulOp}
    (h : decodeMul isWord funct3 = some op) : ∃ k : RegKind, k.sel = .m op ∧
      k.funct3 = funct3 ∧ k.funct7 = 0b0000001 ∧ (isWord → k.hasWord) := by
  simp only [decodeMul, beq_iff_eq, and_eq_true, not_eq_true'] at h
  split_ifs at h with h0 h1 h2 h3 h4 h5 h6 h7 <;> cases h
  · exact ⟨.mul, rfl, h0.symm, rfl, fun _ => rfl⟩
  · exact ⟨.mulh, rfl, h1.2.symm, rfl, by simp [h1.1]⟩
  · exact ⟨.mulhsu, rfl, h2.2.symm, rfl, by simp [h2.1]⟩
  · exact ⟨.mulhu, rfl, h3.2.symm, rfl, by simp [h3.1]⟩
  · exact ⟨.div, rfl, h4.symm, rfl, fun _ => rfl⟩
  · exact ⟨.divu, rfl, h5.symm, rfl, fun _ => rfl⟩
  · exact ⟨.rem, rfl, h6.symm, rfl, fun _ => rfl⟩
  · exact ⟨.remu, rfl, h7.symm, rfl, fun _ => rfl⟩

/-- The funct fields of an operation that has no word form. -/
theorem fields_of_noWordForm {k : RegKind} {op : AluOp} (hk : k.sel = .base op)
    (h : noWordForm op) : k.funct7 = 0 ∧ (k.funct3 = 0b010 ∨ k.funct3 = 0b011 ∨
      k.funct3 = 0b100 ∨ k.funct3 = 0b110 ∨ k.funct3 = 0b111) := by
  cases k <;> cases hk <;> first | decide | cases h

theorem reg_of_decodeOp {m isWord : Bool} {funct3 : BitVec 3} {funct7 : BitVec 7}
    {rs2 : BitVec 5} {sel : AluSel} (hm : p.enableRv64m = m) (hz : p.enableRv64zbb = zbb)
    (h : decodeOp m zbb isWord funct3 funct7 rs2 = some sel) :
    (∃ k : RegKind, p.has k.sel.set ∧ k.funct3 = funct3 ∧ k.funct7 = funct7 ∧
      (isWord → k.hasWord ∨ k.funct7 = 0 ∧ (k.funct3 = 0b010 ∨
        k.funct3 = 0b011 ∨ k.funct3 = 0b100 ∨ k.funct3 = 0b110 ∨ k.funct3 = 0b111))) ∨
      (p.enableRv64zbb ∧ isWord ∧ funct7 = 0b0000100 ∧ funct3 = 0b100 ∧ rs2 = 0) := by
  rw [decodeOp] at h
  by_cases hn : (zbb && !isWord && funct7 == 0b0100000 &&
      (funct3 == 0b111 || funct3 == 0b110 || funct3 == 0b100))
  · rw [if_pos hn] at h
    simp only [and_eq_true, or_eq_true, beq_iff_eq, not_eq_true'] at hn
    obtain ⟨⟨⟨hzbb, hwrd⟩, h7⟩, (h3 | h3) | h3⟩ := hn
    · exact .inl ⟨.andn, hz.trans hzbb, h3.symm, h7.symm, by simp [hwrd]⟩
    · exact .inl ⟨.orn, hz.trans hzbb, h3.symm, h7.symm, by simp [hwrd]⟩
    · exact .inl ⟨.xnor, hz.trans hzbb, h3.symm, h7.symm, by simp [hwrd]⟩
  rw [if_neg hn] at h
  by_cases hmm : (zbb && !isWord && funct7 == 0b0000101)
  · rw [if_pos hmm] at h
    simp only [and_eq_true, beq_iff_eq, not_eq_true'] at hmm
    obtain ⟨⟨hzbb, hwrd⟩, h7⟩ := hmm
    simp only [beq_iff_eq] at h
    split_ifs at h with h4 h5 h6 hf7
    · exact .inl ⟨.min, hz.trans hzbb, h4.symm, h7.symm, by simp [hwrd]⟩
    · exact .inl ⟨.minu, hz.trans hzbb, h5.symm, h7.symm, by simp [hwrd]⟩
    · exact .inl ⟨.max, hz.trans hzbb, h6.symm, h7.symm, by simp [hwrd]⟩
    · exact .inl ⟨.maxu, hz.trans hzbb, hf7.symm, h7.symm, by simp [hwrd]⟩
  rw [if_neg hmm] at h
  by_cases hr : (zbb && funct7 == 0b0110000 && (funct3 == 0b001 || funct3 == 0b101))
  · simp only [and_eq_true, or_eq_true, beq_iff_eq] at hr
    obtain ⟨⟨hzbb, h7⟩, h3 | h3⟩ := hr
    · exact .inl ⟨.rol, hz.trans hzbb, h3.symm, h7.symm, fun _ => .inl rfl⟩
    · exact .inl ⟨.ror, hz.trans hzbb, h3.symm, h7.symm, fun _ => .inl rfl⟩
  rw [if_neg hr] at h
  rcases of_ite_some h with hzext | h
  · simp only [and_eq_true, beq_iff_eq] at hzext
    obtain ⟨⟨⟨⟨hzbb, hwrd⟩, h7⟩, h3⟩, hrs2⟩ := hzext
    exact .inr ⟨hz.trans hzbb, hwrd, h7, h3, hrs2⟩
  by_cases hmul : (funct7 == 0b0000001)
  · rw [if_pos hmul] at h
    split_ifs at h with hmset
    obtain ⟨op, hop, -⟩ := Option.map_eq_some_iff.mp h
    obtain ⟨k, hk, h3, h7, hwrd⟩ := reg_of_decodeMul hop
    refine .inl ⟨k, ?_, h3, h7.trans (eq_of_beq hmul).symm, fun hw => .inl (hwrd hw)⟩
    rw [hk]
    exact hm.trans hmset
  rw [if_neg hmul] at h
  obtain ⟨op, hop, -⟩ := Option.map_eq_some_iff.mp h
  obtain ⟨k, hk, h3, h7, hwrd⟩ := reg_of_decodeBase hop
  refine .inl ⟨k, ?_, h3, h7, fun _ => hwrd.imp id (fields_of_noWordForm hk)⟩
  rw [hk]
  rfl

end Families

/-! ### The grammar -/

namespace DecodeEnables

variable {p : DecodeEnables} {w : BitVec 32}

/-- The word forms that do not exist: `RV64_OPCODE_OP_32` with the `funct7` of ADD and the
`funct3` of an operation that has no word form. -/
def ReservedWordOp (w : BitVec 32) : Prop :=
  rvOpcode w = opcodeOp32 ∧ rvFunct7 w = 0 ∧
    (rvFunct3 w = 0b010 ∨ rvFunct3 w = 0b011 ∨ rvFunct3 w = 0b100 ∨ rvFunct3 w = 0b110 ∨
      rvFunct3 w = 0b111)

/-- An operation on two registers is never of the atomic set. -/
theorem reg_has {k : RegKind} (h : p.has k.sel.set) : k.sel.set = .base ∨
    k.sel.set = .m ∧ p.enableRv64m ∨ k.sel.set = .zbb ∧ p.enableRv64zbb := by
  cases k <;> simp_all [has, RegKind.sel, AluSel.set]

/-- SFENCE.VMA by its mask: the fields that the mask selects. -/
theorem isSfenceVma_iff : isSfenceVma w ↔
    rvOpcode w = opcodeSystem ∧ rvRd w = 0 ∧ rvFunct3 w = 0 ∧ rvFunct7 w = 0b0001001 := by
  have hmask : (0xfe007fff : BitVec 32) =
      rType (.allOnes 7) 0#5 0#5 (.allOnes 3) (.allOnes 5) (.allOnes 7) := by decide
  have hmat : (0x12000073 : BitVec 32) = rType 0b0001001 0#5 0#5 0 0 opcodeSystem := by decide
  have hmasked : w &&& 0xfe007fff =
      rType (rvFunct7 w) 0#5 0#5 (rvFunct3 w) (rvRd w) (rvOpcode w) := by
    conv_lhs => rw [← rType_fields w, hmask, rType_and]
    simp only [BitVec.and_zero, BitVec.and_allOnes]
    rfl
  rw [isSfenceVma, hmasked, hmat, beq_iff_eq]
  constructor
  · intro h
    have hop := congrArg rvOpcode h
    have hrd := congrArg rvRd h
    have hf3 := congrArg rvFunct3 h
    have hf7 := congrArg rvFunct7 h
    rw [rvOpcode_rType, rvOpcode_rType] at hop
    rw [rvRd_rType, rvRd_rType] at hrd
    rw [rvFunct3_rType, rvFunct3_rType] at hf3
    rw [rvFunct7_rType, rvFunct7_rType] at hf7
    exact ⟨hop, hrd, hf3, hf7⟩
  · rintro ⟨hop, hrd, hf3, hf7⟩
    rw [hop, hrd, hf3, hf7]

theorem decodeSystem_sfenceVma {rs1 rs2 : BitVec 5} :
    decodeSystem (rType 0b0001001 rs2 rs1 0b000 0 opcodeSystem) := by
  have hsfence : isSfenceVma (rType 0b0001001 rs2 rs1 0b000 0 opcodeSystem) :=
    isSfenceVma_iff.mpr ⟨rvOpcode_rType, rvRd_rType, rvFunct3_rType, rvFunct7_rType⟩
  rw [decodeSystem, rvFunct3_rType, hsfence]
  simp only [BEq.rfl, if_true, Bool.or_true]

theorem reports_privileged (funct12 : BitVec 12)
    (h : decodeSystem (iType funct12 0 0b000 0 opcodeSystem)) :
    p.Reports (iType funct12 0 0b000 0 opcodeSystem) (some (Instr.privileged funct12)) := by
  have hsys := reports_system (p := p) (w := iType funct12 0 0b000 0 opcodeSystem) rvOpcode_iType
  rw [h, rvFunct3_iType, immI_iType] at hsys
  exact hsys

/-- The decoder reports every instruction of the grammar. -/
theorem reports_encode (i : Instr) (hset : p.has i.set) : p.Reports i.encode (some i.reported) := by
  cases i with
  | lui rd imm =>
    have h := reports_lui (p := p) (w := uType imm rd opcodeLui) rvOpcode_uType
    rw [rvRd_uType, immU_uType] at h
    exact h
  | auipc rd imm =>
    have h := reports_auipc (p := p) (w := uType imm rd opcodeAuipc) rvOpcode_uType
    rw [rvRd_uType, immU_uType] at h
    exact h
  | jal rd offset =>
    have h := reports_jal (p := p) (w := jType offset rd opcodeJal) rvOpcode_uType
    rw [immJ_jType, jType, rvRd_uType, ← jType] at h
    exact h
  | jalr rd rs1 imm =>
    have h := reports_jalr (p := p) (w := iType imm rs1 0b000 rd opcodeJalr) rvOpcode_iType
    rw [rvFunct3_iType, if_pos rfl, rvRs1_iType, rvRd_iType, immI_iType] at h
    exact h
  | branch k rs1 rs2 offset =>
    have hop : rvOpcode (bType offset rs2 rs1 k.funct3 opcodeBranch) = opcodeBranch :=
      rvOpcode_rType
    have h := reports_branch (p := p) hop
    rw [decodeBr_branch hop k rvFunct3_rType, immB_bType, bType, rvRs1_rType, rvRs2_rType,
      ← bType] at h
    cases k <;> exact h
  | load k rd rs1 imm =>
    have hop : rvOpcode (iType imm rs1 k.funct3 rd opcodeLoad) = opcodeLoad := rvOpcode_iType
    have h := reports_load (p := p) hop
    rw [decodeLsu_load hop k rvFunct3_iType, rvFunct3_iType, rvRs1_iType, rvRd_iType,
      immI_iType] at h
    cases k <;> exact h
  | store k rs2 rs1 imm =>
    have hop : rvOpcode (sType imm rs2 rs1 k.funct3 opcodeStore) = opcodeStore := rvOpcode_rType
    have h := reports_store (p := p) hop
    rw [decodeLsu_store hop k rvFunct3_rType, immS_sType, sType, rvFunct3_rType, rvRs1_rType,
      rvRs2_rType, ← sType] at h
    cases k <;> exact h
  | opImm k rd rs1 imm =>
    have h := reports_opImm (p := p) (w := iType imm rs1 k.funct3 rd opcodeOpImm) rvOpcode_iType
    rw [rvFunct3_iType, rvCsr_iType, rvRs1_iType, rvRd_iType, decodeOpImm_imm] at h
    exact h
  | addiw rd rs1 imm =>
    have h := reports_opImm32 (p := p) (w := iType imm rs1 0b000 rd opcodeOpImm32) rvOpcode_iType
    rw [rvFunct3_iType, rvCsr_iType, rvRs1_iType, rvRd_iType, decodeOpImm32_addiw] at h
    exact h
  | shift k rd rs1 shamt =>
    have hzbb : k.sel.set = .base ∨ p.enableRv64zbb := by
      cases k <;> first | exact .inl rfl | exact .inr hset
    have h := reports_opImm (p := p)
      (w := iType (k.funct6 ++ shamt) rs1 k.funct3 rd opcodeOpImm) rvOpcode_iType
    rw [rvFunct3_iType, rvCsr_iType, rvRs1_iType, rvRd_iType, decodeOpImm_shift k shamt hzbb] at h
    exact h
  | shiftw k rd rs1 shamt =>
    have hzbb : k.sel.set = .base ∨ p.enableRv64zbb := by
      cases k <;> first | exact .inl rfl | exact .inr hset
    have h := reports_opImm32 (p := p)
      (w := rType (k.funct6 ++ 0#1) shamt rs1 k.funct3 rd opcodeOpImm32) rvOpcode_rType
    rw [rvFunct3_rType, rvCsr_rType, rvRs1_rType, rvRd_rType, decodeOpImm32_shift k shamt hzbb] at h
    exact h
  | unary k rd rs1 =>
    have hzbb : p.enableRv64zbb := hset
    have h := reports_opImm (p := p) (w := iType k.funct12 rs1 k.funct3 rd opcodeOpImm)
      rvOpcode_iType
    rw [rvFunct3_iType, rvCsr_iType, rvRs1_iType, rvRd_iType, hzbb, decodeOpImm_unary] at h
    exact h
  | unaryw k word rd rs1 =>
    have hzbb : p.enableRv64zbb := hset
    have h := reports_opImm32 (p := p) (w := iType k.funct12 rs1 k.funct3 rd opcodeOpImm32)
      rvOpcode_iType
    rw [rvFunct3_iType, rvCsr_iType, rvRs1_iType, rvRd_iType, hzbb, decodeOpImm32_unary k word] at h
    exact h
  | op k rd rs1 rs2 =>
    have h := reports_op (p := p) (w := rType k.funct7 rs2 rs1 k.funct3 rd opcodeOp) rvOpcode_rType
    rw [rvFunct3_rType, rvFunct7_rType, rvRs2_rType, rvRs1_rType, rvRd_rType,
      decodeOp_reg k rs2 (reg_has hset)] at h
    exact h
  | opw k word rd rs1 rs2 =>
    have h := reports_op32 (p := p) (w := rType k.funct7 rs2 rs1 k.funct3 rd opcodeOp32)
      rvOpcode_rType
    rw [rvFunct3_rType, rvFunct7_rType, rvRs2_rType, rvRs1_rType, rvRd_rType,
      decodeOp_regw k word rs2 (reg_has hset)] at h
    exact h
  | zextH rd rs1 =>
    have hzbb : p.enableRv64zbb := hset
    have h := reports_op32 (p := p) (w := rType 0b0000100 0 rs1 0b100 rd opcodeOp32) rvOpcode_rType
    rw [rvFunct3_rType, rvFunct7_rType, rvRs2_rType, rvRs1_rType, rvRd_rType, hzbb] at h
    exact h
  | fence imm rs1 rd =>
    have h := reports_miscMem (p := p) (w := iType imm rs1 0b000 rd opcodeMiscMem) rvOpcode_iType
    rw [decodeFence, rvFunct3_iType, immI_iType] at h
    exact h
  | fenceI imm rs1 rd =>
    have h := reports_miscMem (p := p) (w := iType imm rs1 0b001 rd opcodeMiscMem) rvOpcode_iType
    rw [decodeFence, rvFunct3_iType, immI_iType] at h
    exact h
  | ecall => exact reports_privileged 0x000 (by decide)
  | ebreak => exact reports_privileged 0x001 (by decide)
  | sret => exact reports_privileged 0x102 (by decide)
  | mret => exact reports_privileged 0x302 (by decide)
  | wfi => exact reports_privileged 0x105 (by decide)
  | sfenceVma rs1 rs2 =>
    have h := reports_system (p := p)
      (w := rType 0b0001001 rs2 rs1 0b000 0 opcodeSystem) rvOpcode_rType
    rw [decodeSystem_sfenceVma, rvFunct3_rType, immI_eq, rvCsr_rType] at h
    exact h
  | csr k rd source address =>
    have hsys : decodeSystem (iType address source k.funct3 rd opcodeSystem) := by
      rw [decodeSystem, rvFunct3_iType]
      cases k <;> rfl
    have h := reports_system (p := p) (w := iType address source k.funct3 rd opcodeSystem)
      rvOpcode_iType
    rw [hsys, rvFunct3_iType, rvRs1_iType, rvRd_iType, immI_iType] at h
    cases k <;> exact h
  | lr isWord ordering rd rs1 =>
    have ha : p.enableRv64a := hset
    have hop : rvOpcode (rType (0b00010#5 ++ ordering) 0 rs1 (atomicFunct3 isWord) rd
        opcodeAmo) = opcodeAmo := rvOpcode_rType
    have hfunct5 : (0b00010#5 ++ ordering).extractLsb' 2 5 = 0b00010#5 :=
      BitVec.extractLsb'_append_eq_left
    have h := reports_amo (p := p) hop
    rw [ha, decodeLsu_lr hop isWord rvFunct3_rType (amoFunct5_rType.trans hfunct5)
      rvRs2_rType, amoFunct5_rType, hfunct5, rvFunct3_rType, rvRs1_rType, rvRd_rType] at h
    cases isWord <;> exact h
  | amo k isWord ordering rd rs1 rs2 =>
    have ha : p.enableRv64a := hset
    have hop : rvOpcode (rType (k.funct5 ++ ordering) rs2 rs1 (atomicFunct3 isWord) rd
        opcodeAmo) = opcodeAmo := rvOpcode_rType
    have hfunct5 : (k.funct5 ++ ordering).extractLsb' 2 5 = k.funct5 :=
      BitVec.extractLsb'_append_eq_left
    have h := reports_amo (p := p) hop
    rw [ha, decodeLsu_amo hop isWord rvFunct3_rType k (amoFunct5_rType.trans hfunct5),
      amoFunct5_rType, hfunct5, rvFunct3_rType, rvRs1_rType, rvRd_rType, rvRs2_rType] at h
    cases k <;> cases isWord <;> exact h

end DecodeEnables

/-! ### Every accepted word is of the grammar -/

/-- The word is that of an enabled instruction. -/
def DecodeEnables.Encodes (p : DecodeEnables) (w : BitVec 32) : Prop :=
  ∃ i : Instr, p.has i.set = true ∧ i.encode = w

namespace DecodeEnables

section Accepted

variable {p : DecodeEnables} {w : BitVec 32}

theorem encodes_branch (hop : rvOpcode w = opcodeBranch) (h : (decodeBr w).isSome) :
    p.Encodes w := by
  obtain ⟨op, hbr⟩ := isSome_iff_exists.mp h
  obtain ⟨k, hk⟩ := branch_of_decodeBr hop hbr
  refine ⟨.branch k (rvRs1 w) (rvRs2 w) (branchOffset w), rfl, ?_⟩
  change bType (branchOffset w) (rvRs2 w) (rvRs1 w) k.funct3 opcodeBranch = w
  rw [← hk, ← hop]
  exact bType_fields w

theorem encodes_load (hop : rvOpcode w = opcodeLoad)
    (h : (decodeLsu p.enableRv64a w).isSome) : p.Encodes w := by
  obtain ⟨op, hlsu⟩ := isSome_iff_exists.mp h
  obtain ⟨k, hk⟩ := load_of_decodeLsu hop hlsu
  refine ⟨.load k (rvRd w) (rvRs1 w) (rvCsr w), rfl, ?_⟩
  change iType (rvCsr w) (rvRs1 w) k.funct3 (rvRd w) opcodeLoad = w
  rw [← hk, ← hop]
  exact iType_fields w

theorem encodes_store (hop : rvOpcode w = opcodeStore)
    (h : (decodeLsu p.enableRv64a w).isSome) : p.Encodes w := by
  obtain ⟨op, hlsu⟩ := isSome_iff_exists.mp h
  obtain ⟨k, hk⟩ := store_of_decodeLsu hop hlsu
  refine ⟨.store k (rvRs2 w) (rvRs1 w) (rvFunct7 w ++ rvRd w), rfl, ?_⟩
  change sType (rvFunct7 w ++ rvRd w) (rvRs2 w) (rvRs1 w) k.funct3 opcodeStore = w
  rw [← hk, ← hop]
  exact sType_fields w

/-- The upper seven bits of an atomic word are its operation and its ordering. -/
theorem funct5_append (w : BitVec 32) : amoFunct5 w ++ w.extractLsb' 25 2 = rvFunct7 w := by
  rw [amoFunct5, BitVec.extractLsb'_append_extractLsb'_eq_extractLsb' (by decide)]
  rfl

theorem encodes_amo (hop : rvOpcode w = opcodeAmo)
    (h : (decodeLsu p.enableRv64a w).isSome) : p.Encodes w := by
  obtain ⟨op, hlsu⟩ := isSome_iff_exists.mp h
  obtain ⟨ha, ⟨isWord, hf⟩, hlr | ⟨k, hk⟩⟩ := amo_of_decodeLsu hop hlsu
  · refine ⟨.lr isWord (w.extractLsb' 25 2) (rvRd w) (rvRs1 w), ha, ?_⟩
    change rType (0b00010#5 ++ w.extractLsb' 25 2) 0 (rvRs1 w) (atomicFunct3 isWord) (rvRd w)
      opcodeAmo = w
    have hfunct7 : 0b00010#5 ++ w.extractLsb' 25 2 = rvFunct7 w := by
      rw [← funct5_append, hlr.1]
      rfl
    rw [← hf, ← hop, ← hlr.2, hfunct7]
    exact rType_fields w
  refine ⟨.amo k isWord (w.extractLsb' 25 2) (rvRd w) (rvRs1 w) (rvRs2 w), ha, ?_⟩
  change rType (k.funct5 ++ w.extractLsb' 25 2) (rvRs2 w) (rvRs1 w) (atomicFunct3 isWord)
    (rvRd w) opcodeAmo = w
  rw [← hf, ← hop, ← hk, funct5_append]
  exact rType_fields w

theorem shift_has {k : ShiftKind} (h : k.sel.set = .base ∨ p.enableRv64zbb) : p.has k.sel.set := by
  rcases h with h | h
  · rw [h]
    rfl
  · cases k <;> first | rfl | exact h

theorem encodes_opImm (hop : rvOpcode w = opcodeOpImm)
    (h : (decodeOpImm p.enableRv64zbb (rvFunct3 w) (rvCsr w)).isSome) : p.Encodes w := by
  obtain ⟨sel, halu⟩ := isSome_iff_exists.mp h
  obtain ⟨k, hk⟩ | ⟨k, hset, hk, h6⟩ | ⟨k, hzbb, hk, h12⟩ := imm_of_decodeOpImm halu
  · refine ⟨.opImm k (rvRd w) (rvRs1 w) (rvCsr w), rfl, ?_⟩
    change iType (rvCsr w) (rvRs1 w) k.funct3 (rvRd w) opcodeOpImm = w
    rw [hk, ← hop]
    exact iType_fields w
  · refine ⟨.shift k (rvRd w) (rvRs1 w) ((rvCsr w).extractLsb' 0 6), shift_has hset, ?_⟩
    change iType (k.funct6 ++ (rvCsr w).extractLsb' 0 6) (rvRs1 w) k.funct3 (rvRd w) opcodeOpImm = w
    rw [hk, ← hop, ← h6, BitVec.extractLsb'_append_extractLsb'_eq_extractLsb' (by decide),
      extractLsb'_eq_self]
    exact iType_fields w
  · refine ⟨.unary k (rvRd w) (rvRs1 w), hzbb, ?_⟩
    change iType k.funct12 (rvRs1 w) k.funct3 (rvRd w) opcodeOpImm = w
    rw [hk, ← hop, ← h12]
    exact iType_fields w

theorem encodes_opImm32 (hop : rvOpcode w = opcodeOpImm32)
    (h : (decodeOpImm32 p.enableRv64zbb (rvFunct3 w) (rvCsr w)).isSome) : p.Encodes w := by
  obtain ⟨sel, halu⟩ := isSome_iff_exists.mp h
  obtain hk | ⟨k, hset, hk, h7⟩ | ⟨k, hwrd, hzbb, hk, h12⟩ := imm_of_decodeOpImm32 halu
  · refine ⟨.addiw (rvRd w) (rvRs1 w) (rvCsr w), rfl, ?_⟩
    change iType (rvCsr w) (rvRs1 w) 0b000 (rvRd w) opcodeOpImm32 = w
    rw [← hk, ← hop]
    exact iType_fields w
  · refine ⟨.shiftw k (rvRd w) (rvRs1 w) (rvRs2 w), shift_has hset, ?_⟩
    change rType (k.funct6 ++ 0#1) (rvRs2 w) (rvRs1 w) k.funct3 (rvRd w) opcodeOpImm32 = w
    have hfunct7 : (rvCsr w).extractLsb' 5 7 = rvFunct7 w := by
      have h12 := congrArg rvCsr (rType_fields w)
      rw [rvCsr_rType] at h12
      rw [← h12, BitVec.extractLsb'_append_eq_left]
      rfl
    rw [hk, ← hop, ← h7, hfunct7]
    exact rType_fields w
  · refine ⟨.unaryw k hwrd (rvRd w) (rvRs1 w), hzbb, ?_⟩
    change iType k.funct12 (rvRs1 w) k.funct3 (rvRd w) opcodeOpImm32 = w
    rw [hk, ← hop, ← h12]
    exact iType_fields w

theorem encodes_op (hop : rvOpcode w = opcodeOp)
    (h : (decodeOp p.enableRv64m p.enableRv64zbb false (rvFunct3 w) (rvFunct7 w)
      (rvRs2 w)).isSome) : p.Encodes w := by
  obtain ⟨sel, halu⟩ := isSome_iff_exists.mp h
  obtain ⟨k, hset, hf3, hf7, -⟩ | hzext := reg_of_decodeOp rfl rfl halu
  · refine ⟨.op k (rvRd w) (rvRs1 w) (rvRs2 w), hset, ?_⟩
    change rType k.funct7 (rvRs2 w) (rvRs1 w) k.funct3 (rvRd w) opcodeOp = w
    rw [hf3, hf7, ← hop]
    exact rType_fields w
  · cases hzext.2.1

theorem encodes_op32 (hop : rvOpcode w = opcodeOp32)
    (h : (decodeOp p.enableRv64m p.enableRv64zbb true (rvFunct3 w) (rvFunct7 w)
      (rvRs2 w)).isSome) : p.Encodes w ∨ ReservedWordOp w := by
  obtain ⟨sel, halu⟩ := isSome_iff_exists.mp h
  obtain ⟨k, hset, hf3, hf7, hwrd⟩ | ⟨hzbb, -, hf7, hf3, hrs2⟩ := reg_of_decodeOp rfl rfl halu
  · rcases hwrd rfl with hwrd | hresv
    · refine .inl ⟨.opw k hwrd (rvRd w) (rvRs1 w) (rvRs2 w), hset, ?_⟩
      change rType k.funct7 (rvRs2 w) (rvRs1 w) k.funct3 (rvRd w) opcodeOp32 = w
      rw [hf3, hf7, ← hop]
      exact rType_fields w
    · refine .inr ⟨hop, ?_⟩
      rw [← hf3, ← hf7]
      exact hresv
  · refine .inl ⟨.zextH (rvRd w) (rvRs1 w), hzbb, ?_⟩
    change rType 0b0000100 0 (rvRs1 w) 0b100 (rvRd w) opcodeOp32 = w
    rw [← hf3, ← hf7, ← hop, ← hrs2]
    exact rType_fields w

theorem encodes_miscMem (hop : rvOpcode w = opcodeMiscMem) (h : decodeFence w) : p.Encodes w := by
  rw [decodeFence, or_eq_true, beq_iff_eq, beq_iff_eq] at h
  rcases h with hf | hf
  · refine ⟨.fence (rvCsr w) (rvRs1 w) (rvRd w), rfl, ?_⟩
    change iType (rvCsr w) (rvRs1 w) 0b000 (rvRd w) opcodeMiscMem = w
    rw [← hf, ← hop]
    exact iType_fields w
  · refine ⟨.fenceI (rvCsr w) (rvRs1 w) (rvRd w), rfl, ?_⟩
    change iType (rvCsr w) (rvRs1 w) 0b001 (rvRd w) opcodeMiscMem = w
    rw [← hf, ← hop]
    exact iType_fields w

/-- The legal values of `funct3` among the CSR accesses. -/
theorem exists_csrKind {funct3 : BitVec 3} (h : csrFunct3 funct3) :
    ∃ k : ZicsrKind, k.funct3 = funct3 := by
  have hcases : funct3 = 1 ∨ funct3 = 2 ∨ funct3 = 3 ∨ funct3 = 5 ∨ funct3 = 6 ∨ funct3 = 7 := by
    revert h
    revert funct3
    decide
  rcases hcases with rfl | rfl | rfl | rfl | rfl | rfl
  · exact ⟨.csrrw, rfl⟩
  · exact ⟨.csrrs, rfl⟩
  · exact ⟨.csrrc, rfl⟩
  · exact ⟨.csrrwi, rfl⟩
  · exact ⟨.csrrsi, rfl⟩
  · exact ⟨.csrrci, rfl⟩

theorem encodes_system (hop : rvOpcode w = opcodeSystem) (h : decodeSystem w) : p.Encodes w := by
  rw [decodeSystem] at h
  split_ifs at h with hf
  · simp only [or_eq_true, beq_iff_eq] at h
    rcases h with ((((h | h) | h) | h) | h) | h
    · exact ⟨.ecall, rfl, by rw [h]; decide⟩
    · exact ⟨.ebreak, rfl, by rw [h]; decide⟩
    · exact ⟨.sret, rfl, by rw [h]; decide⟩
    · exact ⟨.mret, rfl, by rw [h]; decide⟩
    · exact ⟨.wfi, rfl, by rw [h]; decide⟩
    obtain ⟨-, hrd, hf3, hf7⟩ := isSfenceVma_iff.mp h
    refine ⟨.sfenceVma (rvRs1 w) (rvRs2 w), rfl, ?_⟩
    change rType 0b0001001 (rvRs2 w) (rvRs1 w) 0 0 opcodeSystem = w
    rw [← hf3, ← hf7, ← hop, ← hrd]
    exact rType_fields w
  · obtain ⟨k, hk⟩ := exists_csrKind h
    refine ⟨.csr k (rvRd w) (rvRs1 w) (rvCsr w), rfl, ?_⟩
    change iType (rvCsr w) (rvRs1 w) k.funct3 (rvRd w) opcodeSystem = w
    rw [hk, ← hop]
    exact iType_fields w

/-- The opcodes that are not left to the extension decoders. -/
theorem opcode_cases {opcode : BitVec 7} (h : (decodeEarly opcode).format ≠ .invalid) :
    opcode = opcodeLui ∨ opcode = opcodeAuipc ∨ opcode = opcodeJal ∨ opcode = opcodeJalr ∨
      opcode = opcodeBranch ∨ opcode = opcodeLoad ∨ opcode = opcodeStore ∨ opcode = opcodeAmo ∨
      opcode = opcodeOpImm ∨ opcode = opcodeOpImm32 ∨ opcode = opcodeOp ∨ opcode = opcodeOp32 ∨
      opcode = opcodeMiscMem ∨ opcode = opcodeSystem := by
  revert h
  revert opcode
  decide +kernel

/-- A valid word is that of an enabled instruction or a word form that does not exist. -/
theorem encodes_of_valid (h : (p.decodeTop .idle w).valid) : p.Encodes w ∨ ReservedWordOp w := by
  have hreports {m : Option Meaning} (hm : p.Reports w m) : m.isSome := hm.1 ▸ h
  by_cases hformat : (decodeEarly (rvOpcode w)).format = .invalid
  · cases hreports (reports_other hformat)
  rcases opcode_cases hformat with hop | hop | hop | hop | hop | hop | hop | hop | hop | hop |
    hop | hop | hop | hop
  · refine .inl ⟨.lui (rvRd w) (w.extractLsb' 12 20), rfl, ?_⟩
    change uType (w.extractLsb' 12 20) (rvRd w) opcodeLui = w
    rw [← hop]
    exact uType_fields w
  · refine .inl ⟨.auipc (rvRd w) (w.extractLsb' 12 20), rfl, ?_⟩
    change uType (w.extractLsb' 12 20) (rvRd w) opcodeAuipc = w
    rw [← hop]
    exact uType_fields w
  · refine .inl ⟨.jal (rvRd w) (jumpOffset w), rfl, ?_⟩
    change jType (jumpOffset w) (rvRd w) opcodeJal = w
    rw [← hop]
    exact jType_fields w
  · have hf : rvFunct3 w = 0b000 := isSome_ite.mp (hreports (reports_jalr hop))
    refine .inl ⟨.jalr (rvRd w) (rvRs1 w) (rvCsr w), rfl, ?_⟩
    change iType (rvCsr w) (rvRs1 w) 0b000 (rvRd w) opcodeJalr = w
    rw [← hf, ← hop]
    exact iType_fields w
  · exact .inl (encodes_branch hop (by simpa using hreports (reports_branch hop)))
  · exact .inl (encodes_load hop (by simpa using hreports (reports_load hop)))
  · exact .inl (encodes_store hop (by simpa using hreports (reports_store hop)))
  · exact .inl (encodes_amo hop (by simpa using hreports (reports_amo hop)))
  · exact .inl (encodes_opImm hop (by simpa using hreports (reports_opImm hop)))
  · exact .inl (encodes_opImm32 hop (by simpa using hreports (reports_opImm32 hop)))
  · exact .inl (encodes_op hop (by simpa using hreports (reports_op hop)))
  · exact encodes_op32 hop (by simpa using hreports (reports_op32 hop))
  · exact .inl (encodes_miscMem hop (isSome_ite.mp (hreports (reports_miscMem hop))))
  · exact .inl (encodes_system hop (isSome_ite.mp (hreports (reports_system hop))))

end Accepted

/-! ### The decoder as a whole -/

section Whole

variable {p : DecodeEnables} {w : BitVec 32}

theorem valid_of_encodes (h : p.Encodes w) : (p.decodeTop .idle w).valid := by
  obtain ⟨i, hset, rfl⟩ := h
  exact (reports_encode i hset).1

/-- A word form that does not exist is decoded, and the ALU refuses it. -/
theorem reports_reserved (h : ReservedWordOp w) : ∃ op : AluOp, noWordForm op ∧
    p.Reports w (some (aluReg (.base op) true (rvRd w) (rvRs1 w) (rvRs2 w))) ∧
      ∀ src1 src2 pc, execAlu op true src1 src2 pc = none := by
  obtain ⟨hop, hf7, hf3⟩ := h
  have hreports := reports_op32 (p := p) hop
  rw [hf7] at hreports
  rcases hf3 with hf3 | hf3 | hf3 | hf3 | hf3 <;> rw [hf3] at hreports
  · exact ⟨.slt, rfl, by simpa [decodeOp, decodeBase] using hreports, fun _ _ _ => rfl⟩
  · exact ⟨.sltu, rfl, by simpa [decodeOp, decodeBase] using hreports, fun _ _ _ => rfl⟩
  · exact ⟨.xor, rfl, by simpa [decodeOp, decodeBase] using hreports, fun _ _ _ => rfl⟩
  · exact ⟨.or, rfl, by simpa [decodeOp, decodeBase] using hreports, fun _ _ _ => rfl⟩
  · exact ⟨.and, rfl, by simpa [decodeOp, decodeBase] using hreports, fun _ _ _ => rfl⟩

/-- The integer decoder accepts the grammar and the word forms that do not exist. -/
theorem valid_iff : (p.decodeTop .idle w).valid ↔ p.Encodes w ∨ ReservedWordOp w := by
  refine ⟨encodes_of_valid, fun h => h.elim valid_of_encodes fun hres => ?_⟩
  obtain ⟨op, -, hreports, -⟩ := reports_reserved (p := p) hres
  exact hreports.1

/-- No effect bit is set. -/
def Silent (d : DecodeTop) : Prop :=
  d.regWrite = false ∧ d.memRead = false ∧ d.memWrite = false ∧ d.branch = false ∧
    d.jump = false ∧ d.system = false ∧ d.fence = false

/-- An invalid word has no effect, whatever an extension decoder answers. -/
theorem silent_of_invalid {ext : ExtensionResponse} (h : (p.decodeTop ext w).valid = false) :
    Silent (p.decodeTop ext w) := by
  simp only [decodeTop] at h
  simp only [Silent, decodeTop, h, Bool.false_and, and_self]

/-- A response that is not selected does not matter. -/
theorem decodeTop_unselected {ext : ExtensionResponse} (h : p.extensionSelected ext w = false) :
    p.decodeTop ext w = p.decodeTop .idle w := by
  simp only [decodeTop, h, extensionSelected_idle, if_low, Bool.and_false]

theorem noWordForm_eq_false {k : RegKind} {op : AluOp} (hk : k.hasWord)
    (hsel : k.sel = .base op) : noWordForm op = false := by
  cases k <;> first
    | (cases hk; done)
    | (cases hsel; done)
    | (cases hsel; rfl)

/-- A word form that does not exist is not the word of an instruction. -/
theorem not_encodes_of_reserved (h : ReservedWordOp w) : ¬p.Encodes w := by
  rintro ⟨i, hset, rfl⟩
  obtain ⟨op, hwrd, hresv, -⟩ := reports_reserved (p := p) h
  have hmeaning := (reports_encode i hset).2 _ rfl
  rw [hresv.2 _ rfl] at hmeaning
  have hwordOp : true = i.reported.wordOp := congrArg Meaning.wordOp hmeaning
  have halu : some (AluSel.base op) = i.reported.alu := congrArg Meaning.alu hmeaning
  cases i with
  | addiw =>
    cases halu
    cases hwrd
  | shiftw k =>
    have hsel : AluSel.base op = k.sel := some.inj halu
    cases k <;> cases hsel <;> cases hwrd
  | opw k hk =>
    have hsel : AluSel.base op = k.sel := some.inj halu
    rw [noWordForm_eq_false hk hsel.symm] at hwrd
    cases hwrd
  | unaryw => cases halu
  | zextH => cases halu
  | _ => cases hwordOp

end Whole

end DecodeEnables

end OpenRV64
