/-
The packets that the stages of the back end exchange, as far as the stages modelled
here read them.
-/
import Mathlib.Data.Nat.Notation

namespace OpenRV64

/-- `OPENRV64_INSTR_ID_WIDTH`. -/
abbrev instrIdWidth : Nat := 10

/-! ## Instruction fields -/

def rvOpcode (instr : BitVec 32) : BitVec 7 := instr.extractLsb' 0 7
def rvRd (instr : BitVec 32) : BitVec 5 := instr.extractLsb' 7 5
def rvRs1 (instr : BitVec 32) : BitVec 5 := instr.extractLsb' 15 5

def opcodeJalr : BitVec 7 := 0b1100111
def opcodeJal : BitVec 7 := 0b1101111
def opcodeAmo : BitVec 7 := 0b0101111

def brOpJal : BitVec 4 := 7

def aluExtBase : BitVec 3 := 1
def aluExtM : BitVec 3 := 2
def aluExtZbb : BitVec 3 := 3

/-! ## Packets -/

/-- The two source operands. -/
inductive Operand where
  | rs1
  | rs2
deriving DecidableEq, Repr

inductive ExecPipe where
  | ex0
  | ex1
  | mem0
  | mem1
deriving DecidableEq, Repr

/-- An issue payload without the two captured operands. -/
structure IssuePayload where
  instr : BitVec 32
  rsAddr : Operand → BitVec 5
  imm : BitVec 64
  rd : BitVec 5
  aluExt : BitVec 3
  brOp : BitVec 4
  regWrite : Bool
  memRead : Bool
  memWrite : Bool
  branch : Bool
  jump : Bool
  system : Bool
  fence : Bool
  illegal : Bool
  ebreak : Bool
  ecall : Bool
  instrFault : Bool
  instrPageFault : Bool

/-- The payload that reset leaves. -/
def IssuePayload.zero : IssuePayload where
  instr := 0
  rsAddr := fun _ => 0
  imm := 0
  rd := 0
  aluExt := 0
  brOp := 0
  regWrite := false
  memRead := false
  memWrite := false
  branch := false
  jump := false
  system := false
  fence := false
  illegal := false
  ebreak := false
  ecall := false
  instrFault := false
  instrPageFault := false

/-- A completion payload. -/
structure CompletePayload where
  regWrite : Bool
  illegal : Bool
  exception : Bool
  rd : BitVec 5
  data : BitVec 64
deriving DecidableEq, Repr

end OpenRV64
