/-
The parallel-prefix adder: carries by groups of bits that double level by level, and the sums,
differences and targets that the core forms with it.
-/
import OpenRV64.ZbbUnit
import OpenRV64.DecodeExact

/-! ## Groups of bits -/

namespace PrefixCarry

variable {w d : ℕ} {x y g p : BitVec w} {c : ℕ → Bool}

/-- The `d` bits up to each one generate the carry out of it by `g` or hand it on by `p`; where
there are fewer below, all of them do. -/
def Covers (c : ℕ → Bool) (d : ℕ) (g p : BitVec w) : Prop :=
  ∀ j, c (j + 1) = (g.getLsbD j || (p.getLsbD j && c (j + 1 - d)))

/-- A bit alone is a group. -/
theorem covers_bits (x y : BitVec w) (carryIn : Bool) :
    Covers (fun j => BitVec.carry j x y carryIn) 1 (x &&& y) (x ^^^ y) := by
  intro j
  change BitVec.carry (j + 1) x y carryIn = (_ || (_ && BitVec.carry j x y carryIn))
  rw [BitVec.carry_succ, BitVec.getLsbD_and, BitVec.getLsbD_xor]
  cases x.getLsbD j <;> cases y.getLsbD j <;> cases BitVec.carry j x y carryIn <;> rfl

/-- Two neighbouring groups make one; those that reach the lowest bit are left as they are. -/
theorem Covers.double (h : Covers c d g p) :
    Covers c (d + d) (g ||| (p &&& g <<< d)) (p &&& (p <<< d ||| BitVec.ofNat w (2 ^ d - 1))) := by
  intro j
  rw [BitVec.getLsbD_or, BitVec.getLsbD_and, BitVec.getLsbD_and, BitVec.getLsbD_or,
    BitVec.getLsbD_shiftLeft, BitVec.getLsbD_shiftLeft, BitVec.getLsbD_ofNat,
    Nat.testBit_two_pow_sub_one]
  cases hp : p.getLsbD j with
  | false =>
    rw [h j, hp]
    simp
  | true =>
    have hw : j < w := BitVec.lt_of_getLsbD hp
    by_cases hlow : j < d
    · have hnone : j + 1 - (d + d) = j + 1 - d := by omega
      rw [h j, hp, hnone]
      simp [hw, hlow]
    · have hbelow : j + 1 - d = j - d + 1 := by omega
      have hnxt : j - d + 1 - d = j + 1 - (d + d) := by omega
      rw [h j, hp, hbelow, h (j - d), hnxt]
      simp [hw, hlow, Bool.or_assoc]

/-- A group as wide as the number reaches the carry that comes in. -/
theorem Covers.all (h : Covers c d g p) {j : ℕ} (hj : j < d) :
    c (j + 1) = (g.getLsbD j || (p.getLsbD j && c 0)) := by
  rw [h j, Nat.sub_eq_zero_of_le hj]

end PrefixCarry

namespace OpenRV64

open PrefixCarry DecodeEnables

/-! ## The adder -/

/-- One level: `g` and `p` of groups of `d` bits become those of twice as many. -/
def prefixLevel (d : ℕ) (gp : BitVec 64 × BitVec 64) : BitVec 64 × BitVec 64 :=
  (gp.1 ||| (gp.2 &&& gp.1 <<< d), gp.2 &&& (gp.2 <<< d ||| BitVec.ofNat 64 (2 ^ d - 1)))

/-- `g6` and `p6`. -/
def prefixGroups (a bXor : BitVec 64) : BitVec 64 × BitVec 64 :=
  prefixLevel 32 (prefixLevel 16 (prefixLevel 8 (prefixLevel 4 (prefixLevel 2
    (prefixLevel 1 (a &&& bXor, a ^^^ bXor))))))

/-- `carry`: bit `j` goes into position `j` of the sum. -/
def prefixCarry (a bXor : BitVec 64) (subI : Bool) : BitVec 65 :=
  ((prefixGroups a bXor).1 ||| ((prefixGroups a bXor).2 &&& BitVec.fill 64 subI)) ++
    BitVec.ofBool subI

/-- `openrv64_prefix_addsub`. -/
def prefixAddsub (a b : BitVec 64) (subI : Bool) : BitVec 64 :=
  let bXor := b ^^^ BitVec.fill 64 subI
  a ^^^ bXor ^^^ (prefixCarry a bXor subI).setWidth 64

/-- The results of `openrv64_exec_alu_rv64i` with its two adders in place. -/
def prefixAlu (opSel : AluOp) (wordOp : Bool) (src1 src2 pc : BitVec 64) : Option (BitVec 64) :=
  let addsubResult := prefixAddsub src1 src2 (opSel == .sub)
  let auipcResult := prefixAddsub pc src2 false
  match opSel with
  | .add | .sub =>
    some (if wordOp then (addsubResult.setWidth 32).signExtend 64 else addsubResult)
  | .auipc => if wordOp then none else some auipcResult
  | op => aluRv64i op wordOp src1 src2 pc

/-- `bp_direct_target` of the three-wide core. -/
def bpDirectTarget (bpSelectedPc bpSelectedImm : BitVec 64) : BitVec 64 :=
  prefixAddsub bpSelectedPc bpSelectedImm false

/-- `bp_fallback_target` of the one-wide core. -/
def bpFallbackTarget (ifIdPc bpPredecodeImm decodeImm : BitVec 64) (ifIdPredecodeValid : Bool) :
    BitVec 64 :=
  prefixAddsub ifIdPc (if ifIdPredecodeValid then bpPredecodeImm else decodeImm) false

theorem prefixCarry_eq (a b : BitVec 64) (subI : Bool) {j : ℕ} (hj : j < 65) :
    (prefixCarry a b subI).getLsbD j = BitVec.carry j a b subI := by
  have hall : Covers (fun k => BitVec.carry k a b subI) 64 (prefixGroups a b).1
      (prefixGroups a b).2 := (covers_bits a b subI).double.double.double.double.double.double
  rw [prefixCarry, BitVec.getLsbD_append]
  cases j with
  | zero => simp [BitVec.carry_zero]
  | succ k =>
    have hk : k < 64 := by omega
    rw [hall.all hk, BitVec.carry_zero]
    simp [hk]

/-- The adder adds the second operand, or its complement and one. -/
theorem prefixAddsub_eq (a b : BitVec 64) (subI : Bool) :
    prefixAddsub a b subI = if subI then a - b else a + b := by
  have hsum : prefixAddsub a b subI =
      a + (b ^^^ BitVec.fill 64 subI) + (BitVec.ofBool subI).setWidth 64 := by
    apply BitVec.eq_of_getLsbD_eq
    intro j hj
    rw [BitVec.getLsbD_add_add_bool hj, prefixAddsub, BitVec.getLsbD_xor, BitVec.getLsbD_xor,
      BitVec.getLsbD_setWidth, prefixCarry_eq _ _ _ (by omega), decide_eq_true hj, Bool.true_and,
      Bool.xor_assoc]
  rw [hsum]
  cases subI with
  | false => simp
  | true =>
    rw [BitVec.fill_true, BitVec.xor_allOnes, if_pos rfl, BitVec.add_assoc,
      BitVec.sub_eq_add_neg, BitVec.neg_eq_not_add]
    rfl

/-- The ALU of the execution stage is the one with the networks. -/
theorem prefixAlu_eq (op : AluOp) (word : Bool) (src1 src2 pc : BitVec 64) :
    prefixAlu op word src1 src2 pc = aluRv64i op word src1 src2 pc := by
  cases op with
  | add =>
    rw [prefixAlu, prefixAddsub_eq]
    cases word <;> rfl
  | sub =>
    rw [prefixAlu, prefixAddsub_eq]
    cases word <;> rfl
  | auipc =>
    rw [prefixAlu, prefixAddsub_eq pc]
    rfl
  | _ => rfl

/-- The immediate that the decoder gives out for an instruction that has one. -/
theorem decodeTop_imm (p : DecodeEnables) {i : Instr} (hset : p.has i.set) {imm : BitVec 64}
    (himm : i.reported.imm = some imm) : (p.decodeTop .idle i.encode).imm = imm := by
  have hgiven := congrArg Meaning.imm ((reports_encode i hset).2 _ rfl)
  change (if _ then some _ else none) = _ at hgiven
  rw [himm] at hgiven
  split at hgiven
  · exact Option.some_inj.mp hgiven
  · cases hgiven

/-- The adder network adds and subtracts, so the results of the ALU and the targets formed with
it are the architectural ones. -/
theorem prefix_adder_exact :
    (∀ a b, prefixAddsub a b false = a + b ∧ prefixAddsub a b true = a - b) ∧
    (∀ src1 src2 pc,
      prefixAlu .add false src1 src2 pc = some (src1 + src2) ∧
      prefixAlu .add true src1 src2 pc =
        some ((src1.setWidth 32 + src2.setWidth 32).signExtend 64) ∧
      prefixAlu .sub false src1 src2 pc = some (src1 - src2) ∧
      prefixAlu .sub true src1 src2 pc =
        some ((src1.setWidth 32 - src2.setWidth 32).signExtend 64) ∧
      prefixAlu .auipc false src1 src2 pc = some (pc + src2)) ∧
    (∀ op word src1 src2 pc, prefixAlu op word src1 src2 pc = aluRv64i op word src1 src2 pc) ∧
    (∀ pc predecoded decoded valid, bpFallbackTarget pc predecoded decoded valid =
      pc + if valid then predecoded else decoded) ∧
    (∀ (p : DecodeEnables) pc rd offset,
      bpDirectTarget pc (p.decodeTop .idle (Instr.jal rd offset).encode).imm =
        pc + (offset ++ 0#1).signExtend 64) ∧
    ∀ (p : DecodeEnables) pc k rs1 rs2 offset,
      bpDirectTarget pc (p.decodeTop .idle (Instr.branch k rs1 rs2 offset).encode).imm =
        pc + (offset ++ 0#1).signExtend 64 := by
  have hsum : ∀ a b, prefixAddsub a b false = a + b := fun a b => prefixAddsub_eq a b false
  refine ⟨fun a b => ⟨hsum a b, prefixAddsub_eq a b true⟩, fun src1 src2 pc => ?_, prefixAlu_eq,
    fun pc _ _ _ => hsum pc _, fun p pc rd offset => ?_, fun p pc k rs1 rs2 offset => ?_⟩
  · refine ⟨prefixAlu_eq .., ?_, prefixAlu_eq .., ?_, prefixAlu_eq ..⟩
    · rw [← BitVec.setWidth_add _ _ (by decide)]
      exact prefixAlu_eq ..
    · have hlow : src1.setWidth 32 - src2.setWidth 32 = (src1 - src2).setWidth 32 := by
        apply BitVec.eq_of_toNat_eq
        simp only [BitVec.toNat_setWidth, BitVec.toNat_sub]
        omega
      rw [hlow]
      exact prefixAlu_eq ..
  · rw [bpDirectTarget, hsum, decodeTop_imm p rfl rfl]
  · rw [bpDirectTarget, hsum, decodeTop_imm p rfl rfl]

end OpenRV64
