/-
Instruction words as concatenations of fields: the layouts of 32-bit words and of 16-bit
parcels, what each field of a laid-out word is, and that a word is its fields put together.
-/
import Mathlib.Data.BitVec

namespace OpenRV64

open BitVec (extractLsb'_eq_self extractLsb'_append_eq_of_le extractLsb'_append_eq_of_add_le
  extractLsb'_append_extractLsb'_eq_extractLsb')
open Nat (reduceSub add_sub_cancel sub_sub)

namespace InstrFormat

/-! ### Words of 32 bits -/

/-- The register layout: every 32-bit layout with two source fields is this one. -/
def rType (funct7 : BitVec 7) (rs2 rs1 : BitVec 5) (funct3 : BitVec 3) (rd : BitVec 5)
    (opcode : BitVec 7) : BitVec 32 :=
  funct7 ++ rs2 ++ rs1 ++ funct3 ++ rd ++ opcode

def iType (imm : BitVec 12) (rs1 : BitVec 5) (funct3 : BitVec 3) (rd : BitVec 5)
    (opcode : BitVec 7) : BitVec 32 :=
  imm ++ rs1 ++ funct3 ++ rd ++ opcode

def uType (imm : BitVec 20) (rd : BitVec 5) (opcode : BitVec 7) : BitVec 32 := imm ++ rd ++ opcode

def sType (imm : BitVec 12) (rs2 rs1 : BitVec 5) (funct3 : BitVec 3) (opcode : BitVec 7) :
    BitVec 32 :=
  rType (imm.extractLsb' 5 7) rs2 rs1 funct3 (imm.extractLsb' 0 5) opcode

/-- `offset` counts halfwords: its bit `i` is bit `i + 1` of the branch offset. -/
def bType (offset : BitVec 12) (rs2 rs1 : BitVec 5) (funct3 : BitVec 3) (opcode : BitVec 7) :
    BitVec 32 :=
  rType (offset.extractLsb' 11 1 ++ offset.extractLsb' 4 6) rs2 rs1 funct3
    (offset.extractLsb' 0 4 ++ offset.extractLsb' 10 1) opcode

/-- `offset` counts halfwords: its bit `i` is bit `i + 1` of the jump offset. -/
def jType (offset : BitVec 20) (rd : BitVec 5) (opcode : BitVec 7) : BitVec 32 :=
  uType (offset.extractLsb' 19 1 ++ offset.extractLsb' 0 10 ++ offset.extractLsb' 10 1 ++
    offset.extractLsb' 11 8) rd opcode

section Fields

variable {funct7 opcode : BitVec 7} {rs2 rs1 rd : BitVec 5} {funct3 : BitVec 3}
  {imm : BitVec 12} {imm20 : BitVec 20}

@[simp] theorem rType_opcode :
    (rType funct7 rs2 rs1 funct3 rd opcode).extractLsb' 0 7 = opcode := by
  simp (disch := decide) only [rType, extractLsb'_append_eq_of_add_le, extractLsb'_eq_self]

@[simp] theorem rType_rd : (rType funct7 rs2 rs1 funct3 rd opcode).extractLsb' 7 5 = rd := by
  simp (disch := decide) only [rType, extractLsb'_append_eq_of_le,
    extractLsb'_append_eq_of_add_le, reduceSub, extractLsb'_eq_self]

@[simp] theorem rType_funct3 :
    (rType funct7 rs2 rs1 funct3 rd opcode).extractLsb' 12 3 = funct3 := by
  simp (disch := decide) only [rType, extractLsb'_append_eq_of_le,
    extractLsb'_append_eq_of_add_le, reduceSub, extractLsb'_eq_self]

@[simp] theorem rType_rs1 : (rType funct7 rs2 rs1 funct3 rd opcode).extractLsb' 15 5 = rs1 := by
  simp (disch := decide) only [rType, extractLsb'_append_eq_of_le,
    extractLsb'_append_eq_of_add_le, reduceSub, extractLsb'_eq_self]

@[simp] theorem rType_rs2 : (rType funct7 rs2 rs1 funct3 rd opcode).extractLsb' 20 5 = rs2 := by
  simp (disch := decide) only [rType, extractLsb'_append_eq_of_le,
    extractLsb'_append_eq_of_add_le, reduceSub, extractLsb'_eq_self]

@[simp] theorem rType_funct7 :
    (rType funct7 rs2 rs1 funct3 rd opcode).extractLsb' 25 7 = funct7 := by
  simp (disch := decide) only [rType, extractLsb'_append_eq_of_le, reduceSub, extractLsb'_eq_self]

@[simp] theorem rType_funct12 :
    (rType funct7 rs2 rs1 funct3 rd opcode).extractLsb' 20 12 = funct7 ++ rs2 := by
  simp (disch := decide) only [rType, extractLsb'_append_eq_of_le, reduceSub, extractLsb'_eq_self]

@[simp] theorem rType_funct5 :
    (rType funct7 rs2 rs1 funct3 rd opcode).extractLsb' 27 5 = funct7.extractLsb' 2 5 := by
  simp (disch := decide) only [rType, extractLsb'_append_eq_of_le, reduceSub]

theorem rType_and {funct7' opcode' : BitVec 7} {rs2' rs1' rd' : BitVec 5} {funct3' : BitVec 3} :
    rType funct7 rs2 rs1 funct3 rd opcode &&& rType funct7' rs2' rs1' funct3' rd' opcode' =
      rType (funct7 &&& funct7') (rs2 &&& rs2') (rs1 &&& rs1') (funct3 &&& funct3') (rd &&& rd')
        (opcode &&& opcode') := by
  simp only [rType]
  repeat rw [BitVec.and_append]

/-- An immediate word is a register word whose upper fields hold the immediate. -/
theorem iType_eq_rType : iType imm rs1 funct3 rd opcode =
    rType (imm.extractLsb' 5 7) (imm.extractLsb' 0 5) rs1 funct3 rd opcode := by
  rw [iType, rType]
  rw [extractLsb'_append_extractLsb'_eq_extractLsb' (by decide)]
  simp only [Nat.reduceAdd, extractLsb'_eq_self]

@[simp] theorem iType_opcode : (iType imm rs1 funct3 rd opcode).extractLsb' 0 7 = opcode := by
  rw [iType_eq_rType, rType_opcode]

@[simp] theorem iType_rd : (iType imm rs1 funct3 rd opcode).extractLsb' 7 5 = rd := by
  rw [iType_eq_rType, rType_rd]

@[simp] theorem iType_funct3 : (iType imm rs1 funct3 rd opcode).extractLsb' 12 3 = funct3 := by
  rw [iType_eq_rType, rType_funct3]

@[simp] theorem iType_rs1 : (iType imm rs1 funct3 rd opcode).extractLsb' 15 5 = rs1 := by
  rw [iType_eq_rType, rType_rs1]

@[simp] theorem iType_funct12 : (iType imm rs1 funct3 rd opcode).extractLsb' 20 12 = imm := by
  simp (disch := decide) only [iType, extractLsb'_append_eq_of_le, reduceSub, extractLsb'_eq_self]

@[simp] theorem uType_opcode : (uType imm20 rd opcode).extractLsb' 0 7 = opcode := by
  simp (disch := decide) only [uType, extractLsb'_append_eq_of_add_le, extractLsb'_eq_self]

@[simp] theorem uType_rd : (uType imm20 rd opcode).extractLsb' 7 5 = rd := by
  simp (disch := decide) only [uType, extractLsb'_append_eq_of_le,
    extractLsb'_append_eq_of_add_le, reduceSub, extractLsb'_eq_self]

@[simp] theorem uType_imm : (uType imm20 rd opcode).extractLsb' 12 20 = imm20 := by
  simp (disch := decide) only [uType, extractLsb'_append_eq_of_le, reduceSub, extractLsb'_eq_self]

end Fields

section Parse

variable (w : BitVec 32)

theorem rType_fields : rType (w.extractLsb' 25 7) (w.extractLsb' 20 5) (w.extractLsb' 15 5)
    (w.extractLsb' 12 3) (w.extractLsb' 7 5) (w.extractLsb' 0 7) = w := by
  rw [rType]
  repeat rw [extractLsb'_append_extractLsb'_eq_extractLsb' (by decide)]
  exact extractLsb'_eq_self

theorem iType_fields : iType (w.extractLsb' 20 12) (w.extractLsb' 15 5) (w.extractLsb' 12 3)
    (w.extractLsb' 7 5) (w.extractLsb' 0 7) = w := by
  rw [iType]
  repeat rw [extractLsb'_append_extractLsb'_eq_extractLsb' (by decide)]
  exact extractLsb'_eq_self

theorem uType_fields : uType (w.extractLsb' 12 20) (w.extractLsb' 7 5) (w.extractLsb' 0 7) = w := by
  rw [uType]
  repeat rw [extractLsb'_append_extractLsb'_eq_extractLsb' (by decide)]
  exact extractLsb'_eq_self

theorem sType_fields : sType (w.extractLsb' 25 7 ++ w.extractLsb' 7 5) (w.extractLsb' 20 5)
    (w.extractLsb' 15 5) (w.extractLsb' 12 3) (w.extractLsb' 0 7) = w := by
  rw [sType, BitVec.extractLsb'_append_eq_left, BitVec.extractLsb'_append_eq_right]
  exact rType_fields w

/-- The halfword offset of a branch word. -/
def branchOffset : BitVec 12 :=
  w.extractLsb' 31 1 ++ w.extractLsb' 7 1 ++ w.extractLsb' 25 6 ++ w.extractLsb' 8 4

theorem bType_fields : bType (branchOffset w) (w.extractLsb' 20 5) (w.extractLsb' 15 5)
    (w.extractLsb' 12 3) (w.extractLsb' 0 7) = w := by
  have hhi : (branchOffset w).extractLsb' 11 1 ++ (branchOffset w).extractLsb' 4 6 =
      w.extractLsb' 25 7 := by
    simp (disch := decide) only [branchOffset, extractLsb'_append_eq_of_le,
      extractLsb'_append_eq_of_add_le, reduceSub, extractLsb'_eq_self]
    exact extractLsb'_append_extractLsb'_eq_extractLsb' (by decide)
  have hlo : (branchOffset w).extractLsb' 0 4 ++ (branchOffset w).extractLsb' 10 1 =
      w.extractLsb' 7 5 := by
    simp (disch := decide) only [branchOffset, extractLsb'_append_eq_of_le,
      extractLsb'_append_eq_of_add_le, reduceSub, extractLsb'_eq_self]
    exact extractLsb'_append_extractLsb'_eq_extractLsb' (by decide)
  rw [bType, hhi, hlo]
  exact rType_fields w

/-- The halfword offset of a jump word. -/
def jumpOffset : BitVec 20 :=
  w.extractLsb' 31 1 ++ w.extractLsb' 12 8 ++ w.extractLsb' 20 1 ++ w.extractLsb' 21 10

theorem jType_fields : jType (jumpOffset w) (w.extractLsb' 7 5) (w.extractLsb' 0 7) = w := by
  have himm : (jumpOffset w).extractLsb' 19 1 ++ (jumpOffset w).extractLsb' 0 10 ++
      (jumpOffset w).extractLsb' 10 1 ++ (jumpOffset w).extractLsb' 11 8 = w.extractLsb' 12 20 := by
    simp (disch := decide) only [jumpOffset, extractLsb'_append_eq_of_le,
      extractLsb'_append_eq_of_add_le, reduceSub, extractLsb'_eq_self]
    repeat rw [extractLsb'_append_extractLsb'_eq_extractLsb' (by decide)]
  rw [jType, himm]
  exact uType_fields w

end Parse

/-! ### Parcels of 16 bits -/

/-- A parcel with a destination that is also a source: `funct3`, one bit, a register, five
more bits and the quadrant. -/
def ciType (funct3 : BitVec 3) (hi : BitVec 1) (rd lo : BitVec 5) (op : BitVec 2) : BitVec 16 :=
  funct3 ++ hi ++ rd ++ lo ++ op

/-- A parcel with two of the eight popular registers. -/
def clType (funct3 : BitVec 3) (hi rs1 : BitVec 3) (lo : BitVec 2) (rd : BitVec 3)
    (op : BitVec 2) : BitVec 16 :=
  funct3 ++ hi ++ rs1 ++ lo ++ rd ++ op

/-- A parcel whose other eleven bits are one field. -/
def cjType (funct3 : BitVec 3) (target : BitVec 11) (op : BitVec 2) : BitVec 16 :=
  funct3 ++ target ++ op

/-- Fields of four bits and of one bit that stand side by side. -/
theorem append_assoc_five {n : Nat} (x : BitVec n) (y : BitVec 4) (z : BitVec 1) :
    x ++ y ++ z = (x ++ (y ++ z) : BitVec (n + 5)) := by
  rw [BitVec.append_assoc]
  rfl

/-- Neighbouring slices of one vector, in the middle of a longer one. -/
theorem append_slices {n m : Nat} (pre : BitVec n) (x : BitVec m) {s k l t : Nat} (h : t = s + k) :
    pre ++ x.extractLsb' t l ++ x.extractLsb' s k =
      (pre ++ x.extractLsb' s (l + k)).cast (Nat.add_assoc n l k).symm := by
  rw [BitVec.append_assoc, extractLsb'_append_extractLsb'_eq_extractLsb' h]

/-- A multiple of two is extended by extending its half. -/
theorem signExtend_append_zero {n m : Nat} (x : BitVec n) (hn : 0 < n) :
    (x ++ 0#1).signExtend (m + 1) = x.signExtend m ++ 0#1 := by
  apply BitVec.eq_of_getLsbD_eq
  intro k hk
  have hmsb : (x ++ 0#1).msb = x.msb := by
    rw [BitVec.msb_append, if_neg (by omega)]
  rw [BitVec.getLsbD_signExtend, BitVec.getLsbD_append, BitVec.getLsbD_append, hmsb,
    BitVec.getLsbD_signExtend]
  cases k with
  | zero => simp
  | succ k =>
    have hm : k + 1 < m + 1 ↔ k < m := by omega
    have hlt : k + 1 < n + 1 ↔ k < n := by omega
    simp [hm, hlt]

section ParcelFields

variable {funct3 rs1 rd : BitVec 3} {reg lo : BitVec 5} {hi : BitVec 1} {mid : BitVec 3}
  {low2 : BitVec 2} {target : BitVec 11} {op : BitVec 2} {k n : Nat}

@[simp] theorem ciType_op : (ciType funct3 hi reg lo op).extractLsb' 0 2 = op := by
  simp (disch := decide) only [ciType, extractLsb'_append_eq_of_add_le, extractLsb'_eq_self]

theorem ciType_lo (h : k + n ≤ 5) :
    (ciType funct3 hi reg lo op).extractLsb' (k + 2) n = lo.extractLsb' k n := by
  rw [ciType, extractLsb'_append_eq_of_le (by omega), add_sub_cancel,
    extractLsb'_append_eq_of_add_le h]

theorem ciType_reg (h : k + n ≤ 5) :
    (ciType funct3 hi reg lo op).extractLsb' (k + 7) n = reg.extractLsb' k n := by
  rw [ciType, extractLsb'_append_eq_of_le (by omega),
    extractLsb'_append_eq_of_le (by omega), sub_sub, add_sub_cancel,
    extractLsb'_append_eq_of_add_le h]

@[simp] theorem ciType_hi : (ciType funct3 hi reg lo op).extractLsb' 12 1 = hi := by
  simp (disch := decide) only [ciType, extractLsb'_append_eq_of_le,
    extractLsb'_append_eq_of_add_le, reduceSub, extractLsb'_eq_self]

@[simp] theorem ciType_funct3 : (ciType funct3 hi reg lo op).extractLsb' 13 3 = funct3 := by
  simp (disch := decide) only [ciType, extractLsb'_append_eq_of_le, reduceSub, extractLsb'_eq_self]

@[simp] theorem clType_op : (clType funct3 mid rs1 low2 rd op).extractLsb' 0 2 = op := by
  simp (disch := decide) only [clType, extractLsb'_append_eq_of_add_le, extractLsb'_eq_self]

theorem clType_rd (h : k + n ≤ 3) :
    (clType funct3 mid rs1 low2 rd op).extractLsb' (k + 2) n = rd.extractLsb' k n := by
  rw [clType, extractLsb'_append_eq_of_le (by omega), add_sub_cancel,
    extractLsb'_append_eq_of_add_le h]

theorem clType_low (h : k + n ≤ 2) :
    (clType funct3 mid rs1 low2 rd op).extractLsb' (k + 5) n = low2.extractLsb' k n := by
  rw [clType, extractLsb'_append_eq_of_le (by omega),
    extractLsb'_append_eq_of_le (by omega), sub_sub, add_sub_cancel,
    extractLsb'_append_eq_of_add_le h]

@[simp] theorem clType_rs1 : (clType funct3 mid rs1 low2 rd op).extractLsb' 7 3 = rs1 := by
  simp (disch := decide) only [clType, extractLsb'_append_eq_of_le,
    extractLsb'_append_eq_of_add_le, reduceSub, extractLsb'_eq_self]

theorem clType_mid (h : k + n ≤ 3) :
    (clType funct3 mid rs1 low2 rd op).extractLsb' (k + 10) n = mid.extractLsb' k n := by
  rw [clType, extractLsb'_append_eq_of_le (by omega),
    extractLsb'_append_eq_of_le (by omega), extractLsb'_append_eq_of_le (by omega),
    extractLsb'_append_eq_of_le (by omega), sub_sub, sub_sub, sub_sub,
    add_sub_cancel, extractLsb'_append_eq_of_add_le h]

@[simp] theorem clType_funct3 : (clType funct3 mid rs1 low2 rd op).extractLsb' 13 3 = funct3 := by
  simp (disch := decide) only [clType, extractLsb'_append_eq_of_le, reduceSub, extractLsb'_eq_self]

@[simp] theorem cjType_op : (cjType funct3 target op).extractLsb' 0 2 = op := by
  simp (disch := decide) only [cjType, extractLsb'_append_eq_of_add_le, extractLsb'_eq_self]

theorem cjType_target (h : k + n ≤ 11) :
    (cjType funct3 target op).extractLsb' (k + 2) n = target.extractLsb' k n := by
  rw [cjType, extractLsb'_append_eq_of_le (by omega), add_sub_cancel,
    extractLsb'_append_eq_of_add_le h]

@[simp] theorem cjType_funct3 : (cjType funct3 target op).extractLsb' 13 3 = funct3 := by
  simp (disch := decide) only [cjType, extractLsb'_append_eq_of_le, reduceSub, extractLsb'_eq_self]

variable (c : BitVec 16)

theorem ciType_fields : ciType (c.extractLsb' 13 3) (c.extractLsb' 12 1) (c.extractLsb' 7 5)
    (c.extractLsb' 2 5) (c.extractLsb' 0 2) = c := by
  rw [ciType]
  repeat rw [extractLsb'_append_extractLsb'_eq_extractLsb' (by decide)]
  exact extractLsb'_eq_self

theorem clType_fields : clType (c.extractLsb' 13 3) (c.extractLsb' 10 3) (c.extractLsb' 7 3)
    (c.extractLsb' 5 2) (c.extractLsb' 2 3) (c.extractLsb' 0 2) = c := by
  rw [clType]
  repeat rw [extractLsb'_append_extractLsb'_eq_extractLsb' (by decide)]
  exact extractLsb'_eq_self

theorem cjType_fields :
    cjType (c.extractLsb' 13 3) (c.extractLsb' 2 11) (c.extractLsb' 0 2) = c := by
  rw [cjType]
  repeat rw [extractLsb'_append_extractLsb'_eq_extractLsb' (by decide)]
  exact extractLsb'_eq_self

end ParcelFields

end InstrFormat

end OpenRV64
