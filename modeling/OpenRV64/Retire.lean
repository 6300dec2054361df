/-
The commit logic: of the completed entries the retirement queue offers, which are
accepted in this cycle, and what they do to the architectural state.

The extension port is absent: every lane is ready and none takes an exception or a
result from an extension.
-/
import OpenRV64.RetireQueue

namespace OpenRV64

open Bool (and_eq_true not_eq_true')

/-- What allocation recorded of an instruction.  Register tags are numbers. -/
structure RetireRecord where
  pc : BitVec 64
  instr : BitVec 32
  rs1 : BitVec 5
  rs2 : BitVec 5
  rd : BitVec 5
  regWrite : Bool
  usesRs1 : Bool
  usesRs2 : Bool
  hard : Bool
  newPhys : ℕ
deriving DecidableEq

/-- What completion recorded of it. -/
structure RetireResult where
  csrWdata : BitVec 64
  csrAddr : BitVec 12
  csrWrite : Bool
  sret : Bool
  mret : Bool
  tval : BitVec 64
  cause : BitVec 5
  halt : Bool
  exception : Bool
  data : BitVec 64
  nextPc : BitVec 64
deriving DecidableEq

/-- One entry of the queue, with both of its records. -/
structure RetireLane where
  record : RetireRecord
  result : RetireResult

namespace RetireLane

variable (x : RetireLane)

/-- The CSR operation, `funct3` of the instruction. -/
def csrOp : BitVec 3 := x.record.instr.extractLsb' 12 3

def opcode : BitVec 7 := x.record.instr.extractLsb' 0 7

def isFenceI : Bool := x.opcode == 0b0001111 && x.csrOp == (0b001 : BitVec 3)

def isSfenceVma : Bool := x.record.instr &&& 0xfe007fff == (0x12000073 : BitVec 32)

def isWfi : Bool := x.record.instr == (0x10500073 : BitVec 32)

/-- The entry performs a CSR write if it commits. -/
def writesCsr : Bool := !x.result.exception && x.result.csrWrite

/-- Nothing younger commits together with this entry. -/
def ends : Bool := x.result.exception || x.result.halt || x.record.hard

def writesGpr : Bool := x.record.regWrite && x.record.rd != 0

end RetireLane

structure RetireIn where
  queueValidI : Fin 3 → Bool
  lane : Fin 3 → RetireLane
  csrWriteReadyI : Bool
  irqPendingI : Bool
  irqCauseI : BitVec 5

namespace RetireIn

variable (i : RetireIn)

def csrPending (k : Fin 3) : Bool := i.queueValidI k && (i.lane k).writesCsr

/-- What a lane by itself needs to be accepted. -/
def laneReady (k : Fin 3) : Bool := i.queueValidI k && (!i.csrPending k || i.csrWriteReadyI)

def queueAcceptO : Fin 3 → Bool
  | 0 => i.laneReady 0
  | 1 => i.laneReady 0 && !(i.lane 0).ends && i.laneReady 1
  | 2 => i.laneReady 0 && !(i.lane 0).ends && i.laneReady 1 && !(i.lane 1).ends && i.laneReady 2

def retireArchO (k : Fin 3) : Bool := i.queueAcceptO k && !(i.lane k).result.exception

def retireCountO : ℕ := laneCount i.retireArchO

def retireHardO (k : Fin 3) : Bool := i.queueAcceptO k && (i.lane k).record.hard

/-! The register uses an accepted entry gives up. -/

def releaseValidO (k : Fin 3) : Bool := i.queueAcceptO k
def releaseUsesRs1O (k : Fin 3) : Bool := i.queueAcceptO k && (i.lane k).record.usesRs1
def releaseUsesRs2O (k : Fin 3) : Bool := i.queueAcceptO k && (i.lane k).record.usesRs2
def releaseRs1AddrO (k : Fin 3) : BitVec 5 := (i.lane k).record.rs1
def releaseRs2AddrO (k : Fin 3) : BitVec 5 := (i.lane k).record.rs2
def releaseRegWriteO (k : Fin 3) : Bool := i.queueAcceptO k && (i.lane k).writesGpr
def releaseRdAddrO (k : Fin 3) : BitVec 5 := (i.lane k).record.rd

def gprWriteO (k : Fin 3) : Bool := i.retireArchO k && (i.lane k).writesGpr
def gprRdAddrO (k : Fin 3) : ℕ := (i.lane k).record.newPhys
def gprRdDataO (k : Fin 3) : BitVec 64 := (i.lane k).result.data

/-- The held CSR request of a lane: every older lane is completed and ends no group. -/
def csrWriteLane : Fin 3 → Bool
  | 0 => i.csrPending 0
  | 1 => i.csrPending 1 && i.queueValidI 0 && !(i.lane 0).ends
  | 2 => i.csrPending 2 && i.queueValidI 0 && i.queueValidI 1 && !(i.lane 0).ends &&
      !(i.lane 1).ends

def csrWriteO : Bool := i.csrWriteLane 0 || i.csrWriteLane 1 || i.csrWriteLane 2

/-- The lane whose request goes to the CSR block. -/
def csrLane : Fin 3 :=
  if i.csrWriteLane 0 then 0 else if i.csrWriteLane 1 then 1 else 2

def csrAddrO : BitVec 12 := (i.lane i.csrLane).result.csrAddr
def csrOpO : BitVec 3 := (i.lane i.csrLane).csrOp
def csrWdataO : BitVec 64 := (i.lane i.csrLane).result.csrWdata

def exceptionEvent (k : Fin 3) : Bool := i.queueAcceptO k && (i.lane k).result.exception

def anyLane (f : Fin 3 → Bool) : Bool := f 0 || f 1 || f 2

def exceptionO : Bool := anyLane i.exceptionEvent
def haltO : Bool := anyLane fun k => i.queueAcceptO k && (i.lane k).result.halt
def mretO : Bool := anyLane fun k => i.retireArchO k && (i.lane k).result.mret
def sretO : Bool := anyLane fun k => i.retireArchO k && (i.lane k).result.sret
def fenceIO : Bool := anyLane fun k => i.retireArchO k && (i.lane k).isFenceI
def sfenceVmaO : Bool := anyLane fun k => i.retireArchO k && (i.lane k).isSfenceVma

def controlEvent : Bool :=
  i.exceptionO || i.haltO || i.mretO || i.sretO || i.fenceIO || i.sfenceVmaO

/-- An interrupt waits behind a control event and behind a CSR write. -/
def irqO : Bool := i.irqPendingI && anyLane i.retireArchO && !i.controlEvent && !i.csrWriteO

def eventLane : Fin 3 :=
  if i.exceptionEvent 0 then 0
  else if i.exceptionEvent 1 then 1
  else if i.exceptionEvent 2 then 2
  else if i.retireArchO 2 then 2
  else if i.retireArchO 1 then 1
  else 0

def causeO : BitVec 5 := if i.irqO then i.irqCauseI else (i.lane i.eventLane).result.cause
def pcO : BitVec 64 := (i.lane i.eventLane).record.pc
def nextPcO : BitVec 64 := (i.lane i.eventLane).result.nextPc
def tvalO : BitVec 64 := if i.exceptionO then (i.lane i.eventLane).result.tval else 0
def instrO : BitVec 32 := (i.lane i.eventLane).record.instr

end RetireIn

/-! ## Commitment as a sequence -/

/-- The entries accepted together, taken from the completed ones in program order: a CSR
write waits for the CSR block, and an exception, a halt or a hard-order entry is the
last. -/
def commitPrefix (ready : Bool) : List RetireLane → List RetireLane
  | [] => []
  | x :: rest =>
    if x.writesCsr && !ready then []
    else if x.ends then [x]
    else x :: commitPrefix ready rest

/-- An architectural effect of an instruction, other than a CSR write. -/
inductive CommitEffect
  | gpr (tag : ℕ) (data : BitVec 64)
  | mret
  | sret
  | fenceI
  | sfenceVma
deriving DecidableEq, Repr

/-- `[e]` when the condition holds. -/
def effectIf (b : Bool) (e : CommitEffect) : List CommitEffect := if b then [e] else []

/-- What an instruction does when it commits; an excepting one does nothing. -/
def RetireLane.effects (x : RetireLane) : List CommitEffect :=
  if x.result.exception then []
  else
    effectIf x.writesGpr (.gpr x.record.newPhys x.result.data) ++
      effectIf x.result.mret .mret ++ effectIf x.result.sret .sret ++
      effectIf x.isFenceI .fenceI ++ effectIf x.isSfenceVma .sfenceVma

/-- What decoding and execution promise: an instruction with a control effect or a CSR
write is hard-order, and neither a CSR write nor a WFI is a return. -/
structure RetireLane.Decoded (x : RetireLane) : Prop where
  hard : (x.result.csrWrite || x.result.mret || x.result.sret || x.isFenceI ||
    x.isSfenceVma || x.isWfi) = true → x.record.hard = true
  alone : (x.result.csrWrite || x.isWfi) = true → x.result.mret = false ∧ x.result.sret = false

namespace RetireIn

variable (i : RetireIn)

/-- The effects of one cycle, as the output ports show them. -/
def effectsO : List CommitEffect :=
  effectIf (i.gprWriteO 0) (.gpr (i.gprRdAddrO 0) (i.gprRdDataO 0)) ++
    effectIf (i.gprWriteO 1) (.gpr (i.gprRdAddrO 1) (i.gprRdDataO 1)) ++
    effectIf (i.gprWriteO 2) (.gpr (i.gprRdAddrO 2) (i.gprRdDataO 2)) ++
    effectIf i.mretO .mret ++ effectIf i.sretO .sret ++ effectIf i.fenceIO .fenceI ++
    effectIf i.sfenceVmaO .sfenceVma

/-- The completed entries that are offered, oldest first. -/
def offered : List RetireLane :=
  if i.queueValidI 0 then
    i.lane 0 ::
      if i.queueValidI 1 then i.lane 1 :: if i.queueValidI 2 then [i.lane 2] else []
      else []
  else []

/-- The accepted entries, oldest first. -/
def accepted : List RetireLane := commitPrefix i.csrWriteReadyI i.offered

variable {i}

@[simp] theorem commitPrefix_nil (ready : Bool) : commitPrefix ready [] = [] := rfl

theorem commitPrefix_prefix (ready : Bool) (l : List RetireLane) : commitPrefix ready l <+: l := by
  induction l with
  | nil => exact List.prefix_rfl
  | cons x rest ih =>
    rw [commitPrefix]
    split_ifs
    · exact List.nil_prefix
    · exact ⟨rest, rfl⟩
    · exact (List.prefix_cons_inj x).mpr ih

section

variable {ready : Bool} {x : RetireLane} {rest : List RetireLane}

theorem commitPrefix_waits (h : (x.writesCsr && !ready)) : commitPrefix ready (x :: rest) = [] :=
  if_pos h

theorem commitPrefix_ends (h : (x.writesCsr && !ready) = false) (he : x.ends) :
    commitPrefix ready (x :: rest) = [x] := by
  rw [commitPrefix, h, he]
  rfl

theorem commitPrefix_goes (h : (x.writesCsr && !ready) = false) (he : x.ends = false) :
    commitPrefix ready (x :: rest) = x :: commitPrefix ready rest := by
  rw [commitPrefix, h, he]
  rfl

/-- A lane is ready unless it waits for the CSR block. -/
theorem laneReady_eq (k : Fin 3) :
    i.laneReady k = (i.queueValidI k && !((i.lane k).writesCsr && !i.csrWriteReadyI)) := by
  rw [laneReady, csrPending]
  cases i.queueValidI k <;> cases (i.lane k).writesCsr <;> cases i.csrWriteReadyI <;> rfl

/-- The four ways a cycle can end: how many lanes are accepted, and that none but the last
of them ends the group. -/
theorem accepted_cases : (i.accepted = [] ∧ i.queueAcceptO 0 = false ∧ i.queueAcceptO 1 = false ∧
      i.queueAcceptO 2 = false) ∨
    (i.accepted = [i.lane 0] ∧ i.queueAcceptO 0 ∧ i.queueAcceptO 1 = false ∧
      i.queueAcceptO 2 = false) ∨ (i.accepted = [i.lane 0, i.lane 1] ∧ i.queueAcceptO 0 ∧
      i.queueAcceptO 1 ∧ i.queueAcceptO 2 = false ∧ (i.lane 0).ends = false) ∨
    (i.accepted = [i.lane 0, i.lane 1, i.lane 2] ∧ i.queueAcceptO 0 ∧
      i.queueAcceptO 1 ∧ i.queueAcceptO 2 ∧ (i.lane 0).ends = false ∧ (i.lane 1).ends = false) := by
  rw [accepted, offered]
  simp only [queueAcceptO, laneReady_eq]
  cases hv0 : i.queueValidI 0 with
  | false => exact .inl ⟨rfl, rfl, rfl, rfl⟩
  | true =>
  cases hs0 : ((i.lane 0).writesCsr && !i.csrWriteReadyI) with
  | true =>
    have hlist : ∀ rest, commitPrefix i.csrWriteReadyI (i.lane 0 :: rest) = [] :=
      fun _ => commitPrefix_waits hs0
    left
    simp [hlist]
  | false =>
  cases he0 : (i.lane 0).ends with
  | true =>
    have hlist : ∀ rest, commitPrefix i.csrWriteReadyI (i.lane 0 :: rest) = [i.lane 0] :=
      fun _ => commitPrefix_ends hs0 he0
    right; left
    simp [hlist]
  | false =>
  have hlist0 : ∀ rest, commitPrefix i.csrWriteReadyI (i.lane 0 :: rest) =
      i.lane 0 :: commitPrefix i.csrWriteReadyI rest :=
    fun _ => commitPrefix_goes hs0 he0
  cases hv1 : i.queueValidI 1 with
  | false =>
    right; left
    simp [hlist0]
  | true =>
  cases hs1 : ((i.lane 1).writesCsr && !i.csrWriteReadyI) with
  | true =>
    have hlist : ∀ rest, commitPrefix i.csrWriteReadyI (i.lane 1 :: rest) = [] :=
      fun _ => commitPrefix_waits hs1
    right; left
    simp [hlist0, hlist]
  | false =>
  cases he1 : (i.lane 1).ends with
  | true =>
    have hlist : ∀ rest, commitPrefix i.csrWriteReadyI (i.lane 1 :: rest) = [i.lane 1] :=
      fun _ => commitPrefix_ends hs1 he1
    right; right; left
    simp [hlist0, hlist]
  | false =>
  have hlist1 : ∀ rest, commitPrefix i.csrWriteReadyI (i.lane 1 :: rest) =
      i.lane 1 :: commitPrefix i.csrWriteReadyI rest :=
    fun _ => commitPrefix_goes hs1 he1
  cases hv2 : i.queueValidI 2 with
  | false =>
    right; right; left
    simp [hlist0, hlist1]
  | true =>
  cases hs2 : ((i.lane 2).writesCsr && !i.csrWriteReadyI) with
  | true =>
    right; right; left
    simp [hlist0, hlist1, commitPrefix_waits hs2]
  | false =>
    right; right; right
    have hlist : commitPrefix i.csrWriteReadyI [i.lane 2] = [i.lane 2] := by
      cases he2 : (i.lane 2).ends with
      | true => exact commitPrefix_ends hs2 he2
      | false => exact commitPrefix_goes hs2 he2
    simp [hlist0, hlist1, hlist]

theorem valid_of_accept {k : Fin 3} (h : i.queueAcceptO k) : i.queueValidI k := by
  have hrdy : i.laneReady k := by
    have hk : k = 0 ∨ k = 1 ∨ k = 2 := by omega
    rcases hk with rfl | rfl | rfl <;> simp only [queueAcceptO, and_eq_true] at h
    · exact h
    · exact h.2
    · exact h.2
  rw [laneReady, and_eq_true] at hrdy
  exact hrdy.1

theorem queueAcceptO_eq (k : Fin 3) : i.queueAcceptO k = decide (k.val < i.accepted.length) := by
  have hk : k = 0 ∨ k = 1 ∨ k = 2 := by omega
  rcases accepted_cases (i := i) with ⟨h, h0, h1, h2⟩ | ⟨h, h0, h1, h2⟩ | ⟨h, h0, h1, h2, -⟩ |
    ⟨h, h0, h1, h2, -⟩
  all_goals
    rw [h]
    rcases hk with rfl | rfl | rfl
  all_goals first | exact h0 | exact h1 | exact h2

theorem accepted_length_le : i.accepted.length ≤ 3 := by
  rcases accepted_cases (i := i) with ⟨h, -⟩ | ⟨h, -⟩ | ⟨h, -⟩ | ⟨h, -⟩ <;> rw [h] <;> simp

theorem accepted_ends {j : ℕ} {x : RetireLane} (hx : i.accepted[j]? = some x)
    (hj : j + 1 < i.accepted.length) : x.ends = false := by
  rcases accepted_cases (i := i) with ⟨h, -⟩ | ⟨h, -⟩ | ⟨h, -, -, -, he⟩ | ⟨h, -, -, -, he0, he1⟩
  all_goals rw [h] at hx hj
  · simp at hj
  · simp at hj
  · have hz : j = 0 := by
      simp at hj
      omega
    subst hz
    cases hx
    exact he
  · have hcases : j = 0 ∨ j = 1 := by
      simp at hj
      omega
    rcases hcases with rfl | rfl
    · cases hx
      exact he0
    · cases hx
      exact he1

/-- An entry that does not end the group has no control effect. -/
theorem effects_of_goes (hx : x.Decoded) (he : x.ends = false) :
    x.result.exception = false ∧ x.result.halt = false ∧ x.result.mret = false ∧
      x.result.sret = false ∧ x.isFenceI = false ∧ x.isSfenceVma = false ∧
      x.result.csrWrite = false ∧ x.isWfi = false := by
  simp only [RetireLane.ends, Bool.or_eq_false_iff] at he
  obtain ⟨⟨hexc, hhalt⟩, hhard⟩ := he
  have hnone : (x.result.csrWrite || x.result.mret || x.result.sret || x.isFenceI ||
      x.isSfenceVma || x.isWfi) = false := by
    cases h : (x.result.csrWrite || x.result.mret || x.result.sret || x.isFenceI ||
      x.isSfenceVma || x.isWfi) with
    | false => rfl
    | true => exact absurd ((hx.hard h).symm.trans hhard) (by decide)
  simp only [Bool.or_eq_false_iff] at hnone
  exact ⟨hexc, hhalt, hnone.1.1.1.1.2, hnone.1.1.1.2, hnone.1.1.2, hnone.1.2,
    hnone.1.1.1.1.1, hnone.2⟩

/-- A CSR write ends the group, and it neither traps nor returns. -/
theorem writesCsr_ends (hx : x.Decoded) (hw : x.writesCsr) :
    x.ends ∧ x.result.exception = false ∧ x.result.mret = false ∧ x.result.sret = false := by
  simp only [RetireLane.writesCsr, and_eq_true, not_eq_true'] at hw
  obtain ⟨hexc, hwr⟩ := hw
  have hhard := hx.hard (by rw [hwr]; rfl)
  obtain ⟨hmret, hsret⟩ := hx.alone (by rw [hwr]; rfl)
  exact ⟨by rw [RetireLane.ends, hhard, Bool.or_true], hexc, hmret, hsret⟩

/-- An entry that does not end the group writes at most its register. -/
theorem effects_goes (hx : x.Decoded) (he : x.ends = false) :
    x.effects = effectIf x.writesGpr (.gpr x.record.newPhys x.result.data) := by
  obtain ⟨hexc, -, hmret, hsret, hfen, hsfence, -⟩ := effects_of_goes hx he
  simp [RetireLane.effects, hexc, hmret, hsret, hfen, hsfence, effectIf]

end

/-- The output ports show the effects of the accepted entries, in program order. -/
theorem effectsO_eq (hd : ∀ k, i.queueValidI k → (i.lane k).Decoded) :
    i.effectsO = i.accepted.flatMap RetireLane.effects := by
  rw [effectsO]
  simp only [gprWriteO, gprRdAddrO, gprRdDataO, mretO, sretO, fenceIO, sfenceVmaO, anyLane,
    retireArchO]
  rcases accepted_cases (i := i) with ⟨h, h0, h1, h2⟩ | ⟨h, h0, h1, h2⟩ |
    ⟨h, h0, h1, h2, he0⟩ | ⟨h, h0, h1, h2, he0, he1⟩
  · simp [h, h0, h1, h2, effectIf]
  · rw [h, h0, h1, h2]
    cases hx : (i.lane 0).result.exception <;>
      simp [RetireLane.effects, hx, effectIf]
  · have hd0 := hd 0 (valid_of_accept h0)
    obtain ⟨hexc, -, hmret, hsret, hfen, hsfence, -⟩ := effects_of_goes hd0 he0
    rw [h, h0, h1, h2, hexc, hmret, hsret, hfen, hsfence, List.flatMap_cons, effects_goes hd0 he0]
    cases hx : (i.lane 1).result.exception <;>
      simp [RetireLane.effects, hx, effectIf]
  have hd0 := hd 0 (valid_of_accept h0)
  have hd1 := hd 1 (valid_of_accept h1)
  obtain ⟨hexc0, -, hmret0, hsret0, hfence0, hsfence0, -⟩ := effects_of_goes hd0 he0
  obtain ⟨hexc1, -, hmret1, hsret1, hfence1, hsfence1, -⟩ := effects_of_goes hd1 he1
  rw [h, h0, h1, h2, hexc0, hmret0, hsret0, hfence0, hsfence0, hexc1, hmret1, hsret1,
    hfence1, hsfence1, List.flatMap_cons, List.flatMap_cons, effects_goes hd0 he0,
    effects_goes hd1 he1]
  cases hx : (i.lane 2).result.exception <;>
    simp [RetireLane.effects, hx, effectIf]

/-- The instruction count is the number of accepted entries that do not take an
exception. -/
theorem retireCountO_eq :
    i.retireCountO = (i.accepted.filter fun x => !x.result.exception).length := by
  simp only [retireCountO, laneCount, retireArchO]
  rcases accepted_cases (i := i) with ⟨h, h0, h1, h2⟩ | ⟨h, h0, h1, h2⟩ |
    ⟨h, h0, h1, h2, -⟩ | ⟨h, h0, h1, h2, -, -⟩
  all_goals
    rw [h, h0, h1, h2]
    cases hx0 : (i.lane 0).result.exception <;> cases hx1 : (i.lane 1).result.exception <;>
      cases hx2 : (i.lane 2).result.exception <;> simp [hx0, hx1, hx2]

/-- Some accepted entry without an exception has a property. -/
theorem anyLane_arch (f : RetireLane → Bool) : (anyLane fun k => i.retireArchO k && f (i.lane k)) ↔
      ∃ x ∈ i.accepted, x.result.exception = false ∧ f x := by
  simp only [anyLane, retireArchO]
  rcases accepted_cases (i := i) with ⟨h, h0, h1, h2⟩ | ⟨h, h0, h1, h2⟩ |
    ⟨h, h0, h1, h2, -⟩ | ⟨h, h0, h1, h2, -, -⟩
  all_goals simp [h, h0, h1, h2, or_assoc]

theorem anyLane_retireArchO :
    anyLane i.retireArchO ↔ ∃ x ∈ i.accepted, x.result.exception = false := by
  have h := anyLane_arch (i := i) fun _ => true
  simpa using h

theorem haltO_iff : i.haltO ↔ ∃ x ∈ i.accepted, x.result.halt := by
  simp only [haltO, anyLane]
  rcases accepted_cases (i := i) with ⟨h, h0, h1, h2⟩ | ⟨h, h0, h1, h2⟩ |
    ⟨h, h0, h1, h2, -⟩ | ⟨h, h0, h1, h2, -, -⟩
  all_goals simp [h, h0, h1, h2, or_assoc]

theorem csrWriteO_of_accepted {x : RetireLane} (hx : x ∈ i.accepted)
    (hw : x.writesCsr) : i.csrWriteO := by
  simp only [csrWriteO, csrWriteLane, csrPending]
  rcases accepted_cases (i := i) with ⟨h, h0, h1, h2⟩ | ⟨h, h0, h1, h2⟩ |
    ⟨h, h0, h1, h2, he0⟩ | ⟨h, h0, h1, h2, he0, he1⟩
  · rw [h] at hx
    cases hx
  · have hv0 := valid_of_accept h0
    rw [h] at hx
    obtain rfl : x = i.lane 0 := by simpa using hx
    simp [hv0, hw]
  · have hv0 := valid_of_accept h0
    have hv1 := valid_of_accept h1
    rw [h] at hx
    rcases (by simpa using hx : x = i.lane 0 ∨ x = i.lane 1) with rfl | rfl
    · simp [hv0, hw]
    · simp [hv0, hv1, hw, he0]
  have hv0 := valid_of_accept h0
  have hv1 := valid_of_accept h1
  have hv2 := valid_of_accept h2
  rw [h] at hx
  rcases (by simpa using hx : x = i.lane 0 ∨ x = i.lane 1 ∨ x = i.lane 2) with rfl | rfl | rfl
  · simp [hv0, hw]
  · simp [hv0, hv1, hw, he0]
  · simp [hv0, hv1, hv2, hw, he0, he1]

/-- The event ports show the last accepted entry. -/
theorem eventLane_last (hne : i.accepted ≠ []) :
    i.accepted.getLast? = some (i.lane i.eventLane) := by
  have hexc : ∀ k, (i.lane k).ends = false → i.exceptionEvent k = false := by
    intro k he
    simp only [RetireLane.ends, Bool.or_eq_false_iff] at he
    simp [exceptionEvent, he.1.1]
  rw [eventLane]
  rcases accepted_cases (i := i) with ⟨h, -⟩ | ⟨h, h0, h1, h2⟩ |
    ⟨h, h0, h1, h2, he0⟩ | ⟨h, h0, h1, h2, he0, he1⟩
  · exact absurd h hne
  · cases hx : (i.lane 0).result.exception <;>
      simp [h, exceptionEvent, retireArchO, h0, h1, h2, hx]
  · rw [hexc 0 he0]
    cases hx : (i.lane 1).result.exception <;>
      simp [h, exceptionEvent, retireArchO, h1, h2, hx]
  · rw [hexc 0 he0, hexc 1 he1]
    cases hx : (i.lane 2).result.exception <;>
      simp [h, exceptionEvent, retireArchO, h2, hx]

theorem eventLane_accept (hne : i.accepted ≠ []) : i.queueAcceptO i.eventLane := by
  rw [eventLane]
  rcases accepted_cases (i := i) with ⟨h, -⟩ | ⟨-, h0, h1, h2⟩ | ⟨-, h0, h1, h2, -⟩ |
    ⟨-, h0, h1, h2, -, -⟩
  · exact absurd h hne
  all_goals
    simp only [exceptionEvent, retireArchO, h0, h1, h2, Bool.true_and, Bool.false_and]
    cases (i.lane 0).result.exception <;> cases (i.lane 1).result.exception <;>
      cases (i.lane 2).result.exception <;> simp [h0, h1, h2]

/-- An accepted entry that ends the group is the last one. -/
theorem ends_last {x : RetireLane} (hx : x ∈ i.accepted) (he : x.ends) :
    i.accepted.getLast? = some x := by
  obtain ⟨j, hj⟩ := List.mem_iff_getElem?.mp hx
  have hlen := (List.getElem?_eq_some_iff.mp hj).1
  have hlast : i.accepted.length - 1 = j := by
    by_contra hne
    have hgoes := accepted_ends hj (by omega)
    exact Bool.false_ne_true (hgoes.symm.trans he)
  rw [List.getLast?_eq_getElem?, hlast, hj]

/-- A WFI that is offered only as the oldest entry commits alone. -/
theorem wfi_alone (hd : ∀ k, i.queueValidI k → (i.lane k).Decoded)
    (hold : ∀ k, k ≠ 0 → i.queueValidI k → (i.lane k).isWfi = false)
    (hany : anyLane i.retireArchO) (hwfi : (i.lane i.eventLane).isWfi) :
    i.accepted = [i.lane 0] ∧ i.eventLane = 0 ∧ (i.lane 0).result.exception = false := by
  obtain ⟨x, hx, hexc⟩ := anyLane_retireArchO.mp hany
  have hne := List.ne_nil_of_mem hx
  have hval := valid_of_accept (eventLane_accept hne)
  have hz : i.eventLane = 0 := by
    by_contra hoth
    exact Bool.false_ne_true ((hold _ hoth hval).symm.trans hwfi)
  rw [hz] at hwfi hval
  have hends : (i.lane 0).ends := by
    rw [RetireLane.ends, (hd 0 hval).hard (by rw [hwfi, Bool.or_true]), Bool.or_true]
  have halone : i.accepted = [i.lane 0] := by
    rcases accepted_cases (i := i) with ⟨h, -⟩ | ⟨h, -⟩ | ⟨-, -, -, -, he⟩ | ⟨-, -, -, -, he, -⟩
    · exact absurd h hne
    · exact h
    · exact absurd_low (he.symm.trans hends)
    · exact absurd_low (he.symm.trans hends)
  rw [halone, List.mem_singleton] at hx
  exact ⟨halone, hz, hx ▸ hexc⟩

/-- An exception is reported exactly when the last accepted entry takes one. -/
theorem exceptionO_iff : i.exceptionO ↔ ∃ x ∈ i.accepted, x.result.exception := by
  simp only [exceptionO, anyLane, exceptionEvent]
  rcases accepted_cases (i := i) with ⟨h, h0, h1, h2⟩ | ⟨h, h0, h1, h2⟩ |
    ⟨h, h0, h1, h2, -⟩ | ⟨h, h0, h1, h2, -, -⟩
  all_goals simp [h, h0, h1, h2, or_assoc]

/-- A held CSR request: everything older in the group is accepted and has no control
effect, and the CSR write itself is accepted when the CSR block is ready. -/
theorem csrWrite_cases (hd : ∀ k, i.queueValidI k → (i.lane k).Decoded) (hreq : i.csrWriteO) :
    i.offered[i.csrLane.val]? = some (i.lane i.csrLane) ∧ (i.lane i.csrLane).writesCsr ∧
      i.accepted = i.offered.take (i.csrLane.val + if i.csrWriteReadyI then 1 else 0) ∧
      ∀ x ∈ i.offered.take i.csrLane.val, x.ends = false := by
  have hgoes : ∀ k, i.queueValidI k → (i.lane k).ends = false → (i.lane k).writesCsr = false := by
    intro k hv he
    simp [RetireLane.writesCsr, (effects_of_goes (hd k hv) he).2.2.2.2.2.2.1]
  have hends : ∀ k, i.queueValidI k → (i.lane k).writesCsr →
      (i.lane k).ends := fun k hv hw => (writesCsr_ends (hd k hv) hw).1
  rw [csrWriteO, Bool.or_eq_true, Bool.or_eq_true] at hreq
  rw [accepted, csrLane]
  cases hr0 : i.csrWriteLane 0 with
  | true =>
    rw [csrWriteLane, csrPending, and_eq_true] at hr0
    obtain ⟨hv0, hw0⟩ := hr0
    have he0 := hends 0 hv0 hw0
    refine ⟨by simp [offered, hv0], hw0, ?_, by simp⟩
    cases hrdy : i.csrWriteReadyI with
    | true =>
      simp [offered, hv0, @commitPrefix_ends true (i.lane 0) _ (by simp) he0]
    | false =>
      simp [offered, hv0, @commitPrefix_waits false (i.lane 0) _ (by simp [hw0])]
  | false =>
  rw [hr0] at hreq
  cases hr1 : i.csrWriteLane 1 with
  | true =>
    rw [csrWriteLane, csrPending, and_eq_true, and_eq_true, and_eq_true, not_eq_true'] at hr1
    obtain ⟨⟨⟨hv1, hw1⟩, hv0⟩, he0⟩ := hr1
    have he1 := hends 1 hv1 hw1
    have hgo := fun ready rest => @commitPrefix_goes ready (i.lane 0) rest
      (by simp [hgoes 0 hv0 he0]) he0
    refine ⟨by simp [offered, hv0, hv1], hw1, ?_, by simp [offered, hv0, he0]⟩
    cases hrdy : i.csrWriteReadyI with
    | true =>
      simp [offered, hv0, hv1, hgo, @commitPrefix_ends true (i.lane 1) _ (by simp) he1]
    | false =>
      simp [offered, hv0, hv1, hgo, @commitPrefix_waits false (i.lane 1) _ (by simp [hw1])]
  | false =>
    have hr2 : i.csrWriteLane 2 := by
      rw [hr1] at hreq
      simpa using hreq
    rw [csrWriteLane, csrPending] at hr2
    simp only [and_eq_true, not_eq_true'] at hr2
    obtain ⟨⟨⟨⟨⟨hv2, hw2⟩, hv0⟩, hv1⟩, he0⟩, he1⟩ := hr2
    have he2 := hends 2 hv2 hw2
    have hgo0 := fun ready rest =>
      @commitPrefix_goes ready (i.lane 0) rest (by simp [hgoes 0 hv0 he0]) he0
    have hgo1 := fun ready rest =>
      @commitPrefix_goes ready (i.lane 1) rest (by simp [hgoes 1 hv1 he1]) he1
    refine ⟨by simp [offered, hv0, hv1, hv2], hw2, ?_, by simp [offered, hv0, hv1, hv2, he0, he1]⟩
    cases hrdy : i.csrWriteReadyI with
    | true =>
      simp [offered, hv0, hv1, hv2, hgo0, hgo1, @commitPrefix_ends true (i.lane 2) _ (by simp) he2]
    | false =>
      simp [offered, hv0, hv1, hv2, hgo0, hgo1,
        @commitPrefix_waits false (i.lane 2) _ (by simp [hw2])]

end RetireIn

end OpenRV64
