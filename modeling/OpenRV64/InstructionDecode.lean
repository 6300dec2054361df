/-
The instruction decoders together: the integer decoder accepts its grammar, the decompressor
hands it the instruction of every parcel that has one, and the floating-point decoder takes
only what is left.
-/
import OpenRV64.DecodeFd
import OpenRV64.CompressedExact

namespace OpenRV64

open DecodeEnables

/-! ### Hints -/

/-- An instruction that leaves every register as it was: it writes `x0`, or gives its
destination back the value that it reads there. -/
def Meaning.Idle (m : Meaning) : Prop :=
  m.memRead = false ∧ m.memWrite = false ∧ m.branch = false ∧ m.jump = false ∧
    m.system = false ∧ m.fence = false ∧ ∃ rd, m.rd = some rd ∧
      (rd = 0 ∨ m.rs1 = some rd ∧ ∃ op imm, m.alu = some (.base op) ∧ m.imm = some imm ∧
        ∀ value pc, execAlu op m.wordOp value imm pc = some value)

namespace CInstr

/-- What the core reports of an expanded instruction is what the manual says of it. -/
theorem expand_reported (c : CInstr) : c.expand.reported = c.expand.meaning := by
  cases c with
  | ca k rd rs2 => cases k <;> rfl
  | _ => rfl

theorem expand_has (p : DecodeEnables) (c : CInstr) : p.has c.expand.set := by
  cases c with
  | ca k rd rs2 => cases k <;> rfl
  | _ => rfl

theorem idle_opImm_zero (rd : BitVec 5) : (Instr.opImm .addi rd rd 0).meaning.Idle := by
  refine ⟨rfl, rfl, rfl, rfl, rfl, rfl, rd, rfl, .inr ⟨rfl, .add, 0, rfl, rfl, ?_⟩⟩
  intro value pc
  exact congrArg some (BitVec.add_zero value)

theorem idle_shift_zero (rd : BitVec 5) {k : ShiftKind} (h : k ≠ .rori) :
    (Instr.shift k rd rd 0).meaning.Idle := by
  cases k with
  | slli =>
    refine ⟨rfl, rfl, rfl, rfl, rfl, rfl, rd, rfl, .inr ⟨rfl, .sll, _, rfl, rfl, ?_⟩⟩
    exact fun value _ => congrArg some (BitVec.shiftLeft_zero value)
  | srli =>
    refine ⟨rfl, rfl, rfl, rfl, rfl, rfl, rd, rfl, .inr ⟨rfl, .srl, _, rfl, rfl, ?_⟩⟩
    exact fun value _ => congrArg some (BitVec.ushiftRight_zero value)
  | srai =>
    refine ⟨rfl, rfl, rfl, rfl, rfl, rfl, rd, rfl, .inr ⟨rfl, .sra, _, rfl, rfl, ?_⟩⟩
    exact fun value _ => congrArg some (BitVec.sshiftRight_zero)
  | rori => exact absurd rfl h

theorem idle_of_isHint (c : CInstr) (h : c.isHint) : c.expand.meaning.Idle := by
  cases c with
  | addi rd imm =>
    by_cases hrd : rd = 0
    · exact ⟨rfl, rfl, rfl, rfl, rfl, rfl, rd, rfl, .inl hrd⟩
    have himm : imm = 0 := by
      by_contra hne
      have hdiffer : ¬(rd = 0 ↔ imm = 0) := by simpa [isHint] using h
      exact hdiffer ⟨fun hz => absurd hz hrd, fun hz => absurd hz hne⟩
    subst himm
    exact idle_opImm_zero rd
  | li rd imm => exact ⟨rfl, rfl, rfl, rfl, rfl, rfl, rd, rfl, .inl (eq_of_beq h)⟩
  | lui rd imm hdest hnonzero => exact ⟨rfl, rfl, rfl, rfl, rfl, rfl, rd, rfl, .inl (eq_of_beq h)⟩
  | mv rd rs2 hsrc => exact ⟨rfl, rfl, rfl, rfl, rfl, rfl, rd, rfl, .inl (eq_of_beq h)⟩
  | add rd rs2 hsrc => exact ⟨rfl, rfl, rfl, rfl, rfl, rfl, rd, rfl, .inl (eq_of_beq h)⟩
  | slli rd shamt =>
    obtain hrd | hz := Bool.or_eq_true_iff.mp h
    · exact ⟨rfl, rfl, rfl, rfl, rfl, rfl, rd, rfl, .inl (eq_of_beq hrd)⟩
    · rw [eq_of_beq hz]
      exact idle_shift_zero rd ShiftKind.noConfusion
  | srli rd shamt =>
    rw [eq_of_beq h]
    exact idle_shift_zero (popular rd) ShiftKind.noConfusion
  | srai rd shamt =>
    rw [eq_of_beq h]
    exact idle_shift_zero (popular rd) ShiftKind.noConfusion
  | _ => cases h

end CInstr

/-! ### The decompressor in front of the decoder -/

section Parcels

variable {p : DecodeEnables} {w : BitVec 32}

section

variable (h : w.extractLsb' 0 2 ≠ 0b11#2)

include h

theorem decodeRv64c_compressed : decodeRv64c w =
    { instr := (Decompressed.expandParcel (w.extractLsb' 0 16)).getD instrNop
      compressed := true
      illegal := (Decompressed.expandParcel (w.extractLsb' 0 16)).isNone
      unsupportedLength := false
      instrBytes := 2 } := by
  exact if_pos (bne_iff_ne.mpr h)

/-- The parcel of an instruction is handed on as that instruction. -/
theorem decode_parcel (i : CInstr) (hi : i.encode = w.extractLsb' 0 16) :
    (decodeRv64c w).illegal = false ∧ (decodeRv64c w).instr = i.expand.encode := by
  rw [decodeRv64c_compressed h, ← hi, CInstr.expandParcel_encode]
  exact ⟨rfl, rfl⟩

/-- The reserved parcels and those of the floating-point extensions are refused, and no
others. -/
theorem illegal_iff : (decodeRv64c w).illegal ↔ (∃ r : CReserved, r.encode = w.extractLsb' 0 16) ∨
      ∃ f : CFloat, f.encode = w.extractLsb' 0 16 := by
  have hlow : (w.extractLsb' 0 16).extractLsb' 0 2 ≠ 0b11#2 := by
    rwa [BitVec.extractLsb'_extractLsb'_of_le (by decide)]
  constructor
  · intro hillegal
    obtain ⟨i, hi⟩ | hrest := CInstr.assigned_of_compressed hlow
    · rw [(decode_parcel h i hi).1] at hillegal
      cases hillegal
    · exact hrest
  · rintro (⟨r, hr⟩ | ⟨f, hf⟩)
    · rw [decodeRv64c_compressed h, ← hr, expandParcel_reserved]
      rfl
    · rw [decodeRv64c_compressed h, ← hf, expandParcel_float]
      rfl

/-- A parcel that is not refused is that of an instruction. -/
theorem exists_of_legal (hleg : (decodeRv64c w).illegal = false) :
    ∃ i : CInstr, i.encode = w.extractLsb' 0 16 := by
  have hlow : (w.extractLsb' 0 16).extractLsb' 0 2 ≠ 0b11#2 := by
    rwa [BitVec.extractLsb'_extractLsb'_of_le (by decide)]
  obtain hi | hrest := CInstr.assigned_of_compressed hlow
  · exact hi
  · rw [(illegal_iff h).mpr hrest] at hleg
    cases hleg

/-- The two decoders in a row report what the specification assigns to the parcel. -/
theorem meaning_parcel (i : CInstr) (hi : i.encode = w.extractLsb' 0 16) :
    (p.decodeTop .idle (decodeRv64c w).instr).valid ∧
      (p.decodeTop .idle (decodeRv64c w).instr).meaning = i.expand.meaning := by
  have hreports := reports_encode (p := p) i.expand (i.expand_has p)
  rw [(decode_parcel h i hi).2, ← i.expand_reported]
  exact ⟨hreports.1, hreports.2 _ rfl⟩

end

end Parcels

/-! ### The main results -/

/-- The decoders accept their grammar.  Besides it the integer decoder only accepts the five
word forms that do not exist, and those the ALU refuses; SFENCE.VMA is reported without its
registers, and a hint changes no register. -/
theorem decode_exact (p : DecodeEnables) (fd : FdEnables) :
    (∀ w, (p.decodeTop .idle w).valid = true ↔ p.Encodes w ∨ ReservedWordOp w) ∧
    (∀ i : Instr, p.has i.set = true → (p.decodeTop .idle i.encode).meaning = i.reported) ∧
    (∀ w, ReservedWordOp w → ¬p.Encodes w ∧ ∃ op : AluOp, (p.decodeTop .idle w).meaning =
        Instr.aluReg (.base op) true (rvRd w) (rvRs1 w) (rvRs2 w) ∧
      ∀ src1 src2 pc, execAlu op true src1 src2 pc = none) ∧
    (∀ ext w, (p.decodeTop ext w).valid = false → Silent (p.decodeTop ext w)) ∧
    (∀ w, w.extractLsb' 0 2 ≠ 0b11#2 →
      ((decodeRv64c w).illegal = true ↔ (∃ r : CReserved, r.encode = w.extractLsb' 0 16) ∨
          ∃ f : CFloat, f.encode = w.extractLsb' 0 16) ∧
      ((decodeRv64c w).illegal = false → ∃ i : CInstr, i.encode = w.extractLsb' 0 16) ∧
      ∀ i : CInstr, i.encode = w.extractLsb' 0 16 → (decodeRv64c w).illegal = false ∧
        (p.decodeTop .idle (decodeRv64c w).instr).valid = true ∧
        (p.decodeTop .idle (decodeRv64c w).instr).meaning = i.expand.meaning ∧
        (i.isHint = true → i.expand.meaning.Idle)) ∧
    ∀ w, ((fd.decodeRv64fd w).selected = true → (p.decodeTop .idle w).valid = false) ∧
      ((fd.decodeRv64fd w).selected = false →
        p.decodeTop (fd.response w) w = p.decodeTop .idle w) := by
  refine ⟨fun w => valid_iff, fun i hset => ?_, fun w hres => ?_,
    fun ext w h => silent_of_invalid h, fun w hlow => ?_, fun w => ?_⟩
  · exact (reports_encode i hset).2 _ rfl
  · obtain ⟨op, -, hreports, hrefused⟩ := reports_reserved (p := p) hres
    exact ⟨not_encodes_of_reserved hres, op, hreports.2 _ rfl, hrefused⟩
  · refine ⟨illegal_iff hlow, exists_of_legal hlow, fun i hi => ?_⟩
    have hmeaning := meaning_parcel (p := p) hlow i hi
    exact ⟨(decode_parcel hlow i hi).1, hmeaning.1, hmeaning.2, i.idle_of_isHint⟩
  · exact ⟨FdEnables.integer_rejects p, FdEnables.composed_of_unselected⟩

/-- SLTW does not exist, and the decoder accepts its word; SFENCE.VMA reads two registers, and
the decoder reports none; and the hint C.ADDI with nothing added is decoded as a write. -/
theorem decode_inexact :
    let p : DecodeEnables := ⟨true, true, true, false⟩
    ((p.decodeTop .idle 0x0000203b).valid = true ∧ ¬p.Encodes 0x0000203b) ∧
    ((p.decodeTop .idle (Instr.sfenceVma 5 6).encode).valid = true ∧
      (p.decodeTop .idle (Instr.sfenceVma 5 6).encode).meaning ≠ (Instr.sfenceVma 5 6).meaning) ∧
    ((CInstr.addi 5 0).isHint = true ∧
      (p.decodeTop .idle
        (decodeRv64c ((CInstr.addi 5 0).encode.setWidth 32)).instr).regWrite = true ∧
      (p.decodeTop .idle
        (decodeRv64c ((CInstr.addi 5 0).encode.setWidth 32)).instr).rdAddr = 5) := by
  refine ⟨⟨by decide +kernel, ?_⟩, ⟨by decide +kernel, by decide +kernel⟩, by decide +kernel,
    by decide +kernel, by decide +kernel⟩
  exact not_encodes_of_reserved ⟨rfl, rfl, .inl rfl⟩

end OpenRV64
