/-
The operands of the one-wide core.  An instruction enters dispatch only when each source is
settled or about to be forwarded; the register map counts the writers in flight; and so the
operand is what the latest older instruction writes.
-/
import OpenRV64.ScalarQueue

namespace OpenRV64

open DecodeEnables
open Prod (fst snd)

/-! ## The registers of an instruction -/

namespace IssueParams

variable {p : IssueParams} {instr : BitVec 32} {r : BitVec 5}

theorem decodeTop_illegal :
    (p.enables.decodeTop .idle instr).illegal = p.enables.integerIllegal instr := by
  simp only [decodeTop, extensionSelected_idle, if_low, integerIllegal]

theorem legal_of_regWrite (h : (p.use instr).regWrite) :
    (p.enables.decodeTop .idle instr).illegal = false ∧
      (p.enables.decodeTop .idle instr).valid := by
  have hval : (p.enables.decodeTop .idle instr).valid := by
    simp only [use, RegUse.ofDecode, decodeTop, Bool.and_eq_true] at h
    exact h.1
  refine ⟨?_, hval⟩
  rw [decodeTop_valid] at hval
  rw [decodeTop_illegal]
  simpa using hval

theorem regWrite_of_reports {m : Option Meaning} (h : p.enables.Reports instr m)
    (hno : ∀ x ∈ m, x.regWrite = false) : (p.use instr).regWrite = false := by
  refine eq_false_of_ne_true fun hw => ?_
  have hval := (legal_of_regWrite hw).2
  cases m with
  | none => rw [h.1] at hval; cases hval
  | some x =>
    have hmeaning := congrArg Meaning.regWrite (h.2 x rfl)
    have hfalse : (p.use instr).regWrite = false := hmeaning.trans (hno x rfl)
    rw [hfalse] at hw
    cases hw

theorem regWrite_ebreak : (p.use instrEbreak).regWrite = false := by
  have hreports := reports_encode (p := p.enables) .ebreak rfl
  refine @regWrite_of_reports p instrEbreak _ hreports ?_
  rintro x ⟨⟩
  rfl

/-- What dispatch reserves is what the instruction writes. -/
theorem decodeUse_writes : (p.decodeUse instr).writes r = (p.use instr).writes r := by
  cases hw : (p.use instr).regWrite with
  | false => simp [RegUse.writes, decodeUse, hw]
  | true =>
    have hleg := (legal_of_regWrite hw).1
    have hebreak : (instr != instrEbreak) := by
      refine bne_iff_ne.mpr fun heq => ?_
      rw [heq, regWrite_ebreak] at hw
      cases hw
    simp only [RegUse.writes, decodeUse, hw, hleg, hebreak, Bool.not_false, Bool.and_self,
      Bool.true_and]
    by_cases hr : r = 0
    · simp [hr]
    have hne : (r != 0) := bne_iff_ne.mpr hr
    cases hrd : ((p.use instr).rd == r) with
    | false => simp
    | true =>
      rw [eq_of_beq hrd, hne]
      rfl

/-- An instruction that may write memory and writes a register is an atomic. -/
theorem amo_of_memWrite (hw : (p.use instr).regWrite)
    (h : (p.core.decode.decodeTop instr).memWrite) : rvOpcode instr = opcodeAmo := by
  have hlsu : (decodeLsu p.enables.enableRv64a instr).any LsuOp.writes := by
    rw [p.decode_eq] at h
    simp only [ScalarOp.memWrite, DecodeParams.decodeTop, params] at h
    split_ifs at h with hcls
    · cases hop : decodeLsu p.enables.enableRv64a instr with
      | none => rw [hop] at h; cases h
      | some op => rw [hop] at h; exact h
    · cases h
  by_contra hamo
  have hamo' : (rvOpcode instr == opcodeAmo) = false := beq_eq_false_iff_ne.mpr hamo
  by_cases hstr : rvOpcode instr = opcodeStore
  · have hno := regWrite_of_reports (reports_store (p := p.enables) hstr) (by
      intro x hx
      obtain ⟨op, -, rfl⟩ := Option.map_eq_some_iff.mp hx
      rfl)
    rw [hw] at hno
    cases hno
  · have hstr' : (rvOpcode instr == opcodeStore) = false := beq_eq_false_iff_ne.mpr hstr
    simp only [decodeLsu, hamo', hstr', if_low] at hlsu
    split_ifs at hlsu <;> cases hlsu

theorem memWbUse_eq : p.memWbUse instr = p.use instr := by
  have hsame : ((p.use instr).regWrite &&
      (!(p.core.decode.decodeTop instr).memWrite || rvOpcode instr == opcodeAmo)) =
        (p.use instr).regWrite := by
    cases hw : (p.use instr).regWrite with
    | false => rfl
    | true =>
      cases hm : (p.core.decode.decodeTop instr).memWrite with
      | false => rfl
      | true => simp [amo_of_memWrite hw hm]
  rw [memWbUse, hsame]

/-- What a retirement gives back is what the instruction writes. -/
theorem retireUse_writes : (p.retireUse instr).writes r = (p.use instr).writes r := by
  rw [retireUse, memWbUse_eq]
  simp only [RegUse.writes]
  by_cases hr : r = 0
  · simp [hr]
  have hne : (r != 0) := bne_iff_ne.mpr hr
  cases hrd : ((p.use instr).rd == r) with
  | false => simp
  | true =>
    rw [eq_of_beq hrd, hne]
    simp

theorem lr_of_atomic (hw : (p.use instr).regWrite) (hop : rvOpcode instr = opcodeAmo)
    (h : (p.core.decode.decodeTop instr).memWrite = false) :
    (p.core.decode.decodeTop instr).lsu = some .lr := by
  have hcls : earlyClass instr = .mem := by
    simp [earlyClass, hop, opcodeJal, opcodeJalr, opcodeAmo]
  have hlsu : (p.core.decode.decodeTop instr).lsu = decodeLsu p.enables.enableRv64a instr := by
    rw [p.decode_eq]
    simp [DecodeParams.decodeTop, params, hcls]
  have hsome : (decodeLsu p.enables.enableRv64a instr).isSome := by
    have hval := (legal_of_regWrite hw).2
    rw [decodeTop_valid] at hval
    cases hnone : decodeLsu p.enables.enableRv64a instr with
    | some op => rfl
    | none => simp [integerIllegal, selectedDecode, decodeEarly, hop,
        hnone, opcodeJal, opcodeJalr, opcodeAmo] at hval
  obtain ⟨op, hop'⟩ := Option.isSome_iff_exists.mp hsome
  obtain ⟨ha, ⟨isWord, hf⟩, ⟨hlr, hrs2⟩ | ⟨k, hk⟩⟩ := amo_of_decodeLsu hop hop'
  · rw [hlsu, ha]
    exact decodeLsu_lr hop isWord hf hlr hrs2
  · exfalso
    rw [ScalarOp.memWrite, hlsu, ha, decodeLsu_amo hop isWord hf k hk] at h
    cases k <;> cases h

end IssueParams

/-! ## What has been written -/

namespace IssueHistory

variable {h h' : IssueHistory} {e : IssueEnd} {r : BitVec 5} {n : ℕ} {v : BitVec 64}

/-- The numbers of the instructions that have left MEM. -/
def numbers (h : IssueHistory) : List ℕ := h.ended.map IssueEnd.no

theorem outcome_cons (hended : h'.ended = e :: h.ended) (n : ℕ) :
    h'.outcome n = if e.no = n then e.write else h.outcome n := by
  rw [outcome, hended, List.find?_cons]
  by_cases hn : e.no = n
  · have heq : (e.no == n) := beq_iff_eq.mpr hn
    rw [heq, if_pos hn]
    rfl
  · have hne : (e.no == n) = false := beq_eq_false_iff_ne.mpr hn
    rw [hne, if_neg hn]
    rfl

theorem mem_numbers_of_live (hlive : n ∈ h.flight.live) : n ∈ h.numbers := by
  have hsome : (h.outcome n).isSome := hlive
  rw [outcome, Option.isSome_bind] at hsome
  cases he : h.ended.find? fun e => e.no == n with
  | none => rw [he] at hsome; cases hsome
  | some e =>
    have hno : e.no = n := by simpa using List.find?_some he
    exact List.mem_map.mpr ⟨e, List.mem_of_find?_eq_some he, hno⟩

theorem flight_congr (hended : h'.ended = h.ended) (hinitial : h'.initial = h.initial) :
    h'.flight = h.flight := by
  rw [flight, flight, hinitial]
  simp only [outcome, hended]

section Cons

variable (hended : h'.ended = e :: h.ended)
include hended

/-- The newest instruction is the latest writer of its register. -/
theorem reads_of_write (hwr : e.write = some (r, v)) (holder : ∀ m ∈ h.numbers, m < e.no)
    (hn : e.no < n) : LatestWriter.Reads h'.flight r n v := by
  have hout := outcome_cons hended
  have hself : h'.outcome e.no = some (r, v) := by rw [hout, if_pos rfl, hwr]
  refine .inl ⟨e.no, ⟨?_, ?_, hn, ?_⟩, ?_⟩
  · change (h'.outcome e.no).isSome
    rw [hself]
    rfl
  · change (h'.outcome e.no).map fst = some r
    rw [hself]
    rfl
  · intro k hk _ _
    by_cases hne : e.no = k
    · exact hne.ge
    have hlive : k ∈ h.flight.live := by
      have hk' : (h'.outcome k).isSome := hk
      rw [hout, if_neg hne] at hk'
      exact hk'
    exact (holder k (mem_numbers_of_live hlive)).le
  · change (h'.outcome e.no).map snd = some v
    rw [hself]
    rfl

/-- An instruction that writes another register, or none, changes nothing. -/
theorem reads_of_other (hinitial : h'.initial = h.initial)
    (holder : ∀ m ∈ h.numbers, m < e.no) (hoth : ∀ v', e.write ≠ some (r, v'))
    (hreads : LatestWriter.Reads h.flight r n v) : LatestWriter.Reads h'.flight r n v := by
  have hout := outcome_cons hended
  have hkept : ∀ m ∈ h.flight.live, h'.outcome m = h.outcome m := fun m hm => by
    rw [hout, if_neg (holder m (mem_numbers_of_live hm)).ne']
  have hback : ∀ k ∈ h'.flight.live, h'.flight.writes k = some r →
      k ∈ h.flight.live ∧ h.flight.writes k = some r := by
    intro k hk hwrs
    by_cases hne : e.no = k
    · exfalso
      change (h'.outcome k).map fst = some r at hwrs
      rw [hout, if_pos hne] at hwrs
      obtain ⟨⟨r', v'⟩, hw, hr⟩ := Option.map_eq_some_iff.mp hwrs
      exact hoth v' (hw.trans (congrArg (fun x => some (x, v')) hr))
    have hsame : h'.outcome k = h.outcome k := by rw [hout, if_neg hne]
    refine ⟨?_, ?_⟩
    · change (h.outcome k).isSome
      rw [← hsame]
      exact hk
    · change (h.outcome k).map fst = some r
      rw [← hsame]
      exact hwrs
  obtain ⟨m, hm, hv⟩ | ⟨hsettled, hv⟩ := hreads
  · have hsame := hkept m hm.live
    refine .inl ⟨m, ⟨?_, ?_, hm.older, ?_⟩, ?_⟩
    · change (h'.outcome m).isSome
      rw [hsame]
      exact hm.live
    · change (h'.outcome m).map fst = some r
      rw [hsame]
      exact hm.writes
    · intro k hk hwrs hlt
      obtain ⟨hlive, hwrs'⟩ := hback k hk hwrs
      exact hm.latest k hlive hwrs' hlt
    · change (h'.outcome m).map snd = some v
      rw [hsame]
      exact hv
  refine .inr ⟨?_, ?_⟩
  · intro k hk hlt hwrs
    obtain ⟨hlive, hwrs'⟩ := hback k hk hwrs
    exact hsettled k hlive hlt hwrs'
  · change h'.initial r = v
    rw [hinitial]
    exact hv

end Cons

end IssueHistory

end OpenRV64
