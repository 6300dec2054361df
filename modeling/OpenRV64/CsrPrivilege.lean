/-
Privilege over every run of the CSR block: what an S-mode access may change, where
traps go, and what returns restore.
-/
import OpenRV64.TrapRegs

namespace OpenRV64

open CsrState Sync TrapRegs
open Bool (and_eq_true)
open BitVec (le_def extractLsb'_toNat lt_def)

theorem CmuState.step_idle {p : CmuParams} (s : CmuState p) {i j : CmuInput}
    (hi : i.csrWriteI = false) (hj : j.csrWriteI = false)
    (hcnt : i.retireCountI = j.retireCountI) (hevents : i.eventPulsesI = j.eventPulsesI) :
    s.step i = s.step j := by
  have hno : s.csrWriteAccept i = false ∧ s.csrWriteAccept j = false := by
    simp [csrWriteAccept, hi, hj]
  simp only [step, counted, selectorWrite, counterWrite, hno.1, hno.2, hcnt, hevents,
    Bool.false_and, if_low]

/-- A write of `scounteren` leaves the machine-only counter state to the counters. -/
theorem CmuState.step_scounteren {p : CmuParams} (s : CmuState p) {i : CmuInput}
    (haddr : i.csrAddrI = csrScounteren) :
    (s.step i).machine = (s.step { i with csrWriteI := false }).machine := by
  have hevent : i.csrIsMhpmevent = false := by
    rw [CmuInput.csrIsMhpmevent, haddr]
    decide
  have hcounter : i.csrIsMhpmcounter = false := by
    rw [CmuInput.csrIsMhpmcounter, haddr]
    decide
  have hcounted : s.counted i = s.counted { i with csrWriteI := false } := by
    have hno : s.csrWriteAccept { i with csrWriteI := false } = false := by
      simp [csrWriteAccept]
    simp only [counted, selectorWrite, counterWrite, hno, hevent, hcounter, Bool.and_false,
      Bool.false_and]
  have hidle : s.step { i with csrWriteI := false } = s.counted i := by
    rw [step, hcounted]
    simp [csrWriteAccept]
  rw [hidle, step]
  cases s.csrWriteAccept i with
  | false => rfl
  | true =>
    rw [if_pos rfl, written, haddr]
    rfl

theorem PmpState.step_idle {p : PmpParams} (s : PmpState p) {i j : PmpInput}
    (hi : i.csrWriteI = false) (hj : j.csrWriteI = false) : s.step i = s.step j := by
  simp only [step, pmpaddrStart, hi, hj, Bool.false_and, if_low]

/-- The protection unit's addresses are machine addresses. -/
theorem pmp_addr_machine {i : PmpInput} (hmat : PmpState.csrMatchO i) :
    privS < i.csrAddrI.extractLsb' 8 2 := by
  simp only [PmpState.csrMatchO, PmpInput.csrPmpaddrMatch, Bool.or_eq_true, and_eq_true,
    beq_iff_eq, decide_eq_true_eq] at hmat
  rcases hmat with (h | h) | ⟨hlow, hhigh⟩
  · rw [h]
    decide
  · rw [h]
    decide
  rw [lt_def]
  rw [le_def] at hlow
  rw [lt_def] at hhigh
  simp only [extractLsb'_toNat, Nat.shiftRight_eq_div_pow]
  have h1 : (csrPmpaddr0 : BitVec 12).toNat = 944 := rfl
  have h2 : (csrPmpaddr0 + 16 : BitVec 12).toNat = 960 := rfl
  have h3 : (privS : BitVec 2).toNat = 1 := rfl
  omega

/-- The one counter address S-mode may write is `scounteren`. -/
theorem cmu_addr_supervisor {i : CmuInput} (hmat : CmuState.csrMatchO i)
    (hs : i.csrAddrI.extractLsb' 8 2 ≤ privS)
    (hwritable : i.csrAddrI.extractLsb' 10 2 ≠ (0b11 : BitVec 2)) : i.csrAddrI = csrScounteren := by
  have hnot : ∀ a : BitVec 12, i.csrAddrI = a → a.extractLsb' 8 2 ≤ privS := by
    rintro a rfl
    exact hs
  have htop : ∀ a : BitVec 12, i.csrAddrI = a → a.extractLsb' 10 2 ≠ (0b11 : BitVec 2) := by
    rintro a rfl
    exact hwritable
  have hsNat : i.csrAddrI.toNat / 256 % 4 ≤ 1 := by
    have h := le_def.1 hs
    simp only [extractLsb'_toNat, Nat.shiftRight_eq_div_pow] at h
    exact h
  have htopNat : i.csrAddrI.toNat / 1024 % 4 ≠ 3 := by
    intro h
    apply hwritable
    apply BitVec.eq_of_toNat_eq
    simp only [extractLsb'_toNat, Nat.shiftRight_eq_div_pow]
    exact h
  simp only [CmuState.csrMatchO, CmuInput.csrIsMhpmcounter, CmuInput.csrIsMhpmevent,
    CmuInput.csrIsHpmcounter, Bool.or_eq_true, and_eq_true, beq_iff_eq,
    decide_eq_true_eq, le_def] at hmat
  rcases hmat with (((((((((( h | h) | h) | h) | h) | h) | h) | h) | h) | h) | h)
  · exact h
  · exact absurd (hnot _ h) (by decide)
  · exact absurd (hnot _ h) (by decide)
  · exact absurd (hnot _ h) (by decide)
  · exact absurd (hnot _ h) (by decide)
  · exact absurd rfl (htop _ h)
  · exact absurd rfl (htop _ h)
  · exact absurd rfl (htop _ h)
  · have h1 : (csrMhpmcounter3 : BitVec 12).toNat = 0xb03 := rfl
    omega
  · have h1 : (csrMhpmevent3 : BitVec 12).toNat = 0x323 := rfl
    have h2 : (csrMhpmevent31 : BitVec 12).toNat = 0x33f := rfl
    omega
  · have h1 : (csrHpmcounter3 : BitVec 12).toNat = 0xc03 := rfl
    omega

/-- A cycle with no CSR access in it. -/
def CsrInput.withoutAccess (i : CsrInput) : CsrInput :=
  { i with csrAddrI := 0, csrWriteI := false, csrOpI := 0, csrWdataI := 0 }

/-- What an access from below M-mode may not change. -/
structure MachineOnly (p : CsrParams) where
  regs : TrapRegs
  cmu : CmuState p.cmu
  pmp : PmpState p.pmp

namespace CsrState

variable {p : CsrParams} (s : CsrState p) (i : CsrInput)

def machineOnly : MachineOnly p where
  regs := s.regs.machine
  cmu := s.cmu.machine
  pmp := s.pmp

/-- An S-mode write that gets as far as the registers finds nothing in the undelegated
bits it drops. -/
def KeepsUndelegated : Prop :=
  i.trapEnterI = false → i.mretI = false → i.sretI = false → s.csrWriteAccept i = true →
    s.regs.KeepsUndelegated i.csrAddrI i.csrWriteMask

variable {s i}

@[simp] theorem csrWriteAccept_withoutAccess : s.csrWriteAccept i.withoutAccess = false := by
  simp [csrWriteAccept, CsrInput.withoutAccess]

theorem accept_valid (h : s.csrWriteAccept i) : (s.access i).valid ∧ (s.access i).writable := by
  simp only [csrWriteAccept, and_eq_true] at h
  exact ⟨h.1.2, h.2⟩

/-- An accepted write names an address of the current privilege or a lower one. -/
theorem accept_priv (h : s.csrWriteAccept i) : i.csrAddrI.extractLsb' 8 2 ≤ s.regs.privModeQ := by
  have hval := (accept_valid h).1
  simp only [access, and_eq_true] at hval
  exact of_decide_eq_true hval.1.1

theorem accept_writable (h : s.csrWriteAccept i) :
    i.csrAddrI.extractLsb' 10 2 ≠ (0b11 : BitVec 2) := by
  have hwritable := (accept_valid h).2
  simp only [access, and_eq_true, bne_iff_ne] at hwritable
  exact hwritable.2

/-- The counter block's port does not depend on the access, unless a write starts. -/
theorem cmu_withoutAccess : s.cmu.step (s.cmuInput i (s.csrWriteValue i)) =
      s.cmu.step (s.cmuInput i.withoutAccess (s.csrWriteValue i.withoutAccess)) := by
  cases hcom : s.hpmWriteCommit with
  | false => exact CmuState.step_idle _ hcom hcom rfl rfl
  | true =>
    have hport : s.cmuInput i (s.csrWriteValue i) =
        s.cmuInput i.withoutAccess (s.csrWriteValue i.withoutAccess) := by
      simp only [cmuInput, hcom, if_true, CsrInput.withoutAccess]
    rw [hport]

theorem pmp_withoutAccess (hwr : s.pmpCsrWrite i = false) :
    s.pmp.step (s.pmpPort i) = s.pmp.step (s.pmpPort i.withoutAccess) :=
  PmpState.step_idle _ hwr (by simp [pmpPort, pmpInput, pmpCsrWrite])

/-- Without an accepted write a cycle is one with no access in it. -/
theorem step_of_not_accept (h : s.csrWriteAccept i = false) :
    s.step i = s.step i.withoutAccess := by
  have hcmu := cmu_withoutAccess (s := s) (i := i)
  have hpmp := pmp_withoutAccess (s := s) (i := i) (by rw [pmpCsrWrite, h, Bool.false_and])
  have hregs : s.regsStep i = s.regsStep i.withoutAccess := by
    simp only [regsStep, h, csrWriteAccept_withoutAccess]
    rfl
  have hsatp : s.satpStep i = s.satpStep i.withoutAccess := by
    simp only [satpStep, satpStart, satpWriteRequest, h, csrWriteAccept_withoutAccess,
      Bool.false_and, if_low]
  have hhpm : s.hpmStep i = s.hpmStep i.withoutAccess := by
    simp only [hpmStep, hpmWriteStart, hpmWriteRequest, h, csrWriteAccept_withoutAccess,
      Bool.false_and, if_low]
  simp only [step, hcmu, hpmp, hregs, hsatp, hhpm]

/-- The access check refuses an address above the current privilege, and SATP from S-mode
when TVM is set. -/
theorem refused (h : s.regs.csrPrivilegeOk i = false ∨ s.regs.satpAccessOk i = false) :
    s.access i = { rdata := 0, valid := false, writable := false } ∧
      s.step i = s.step i.withoutAccess := by
  have hallowed : (s.regs.csrPrivilegeOk i && s.regs.satpAccessOk i) = false := by
    rcases h with h | h <;> rw [h] <;> simp
  have hacs : s.access i = { rdata := 0, valid := false, writable := false } := by
    simp [access, hallowed]
  refine ⟨hacs, step_of_not_accept ?_⟩
  rw [csrWriteAccept, hacs]
  simp

/-- An S-mode access changes machine-only state exactly when it drops undelegated bits. -/
theorem machineOnly_iff (hs : s.regs.privModeQ = privS) :
    (s.step i).machineOnly = (s.step i.withoutAccess).machineOnly ↔ s.KeepsUndelegated i := by
  cases hacc : s.csrWriteAccept i with
  | false =>
    rw [step_of_not_accept hacc]
    exact ⟨fun _ _ _ _ h => absurd_low (hacc.symm.trans h), fun _ => rfl⟩
  | true =>
    have haddr : i.csrAddrI.extractLsb' 8 2 ≤ privS := hs ▸ accept_priv hacc
    have hpmpWrite : s.pmpCsrWrite i = false := by
      cases hmat : PmpState.csrMatchO (pmpInput i false 0) with
      | false => rw [pmpCsrWrite, hmat, Bool.and_false]
      | true => exact absurd (pmp_addr_machine hmat) (BitVec.not_lt.2 haddr)
    have hcmu := cmu_withoutAccess (s := s) (i := i)
    have hpmp := pmp_withoutAccess hpmpWrite
    -- Only the registers can tell the two cycles apart.
    have hregs : (s.step i).machineOnly = (s.step i.withoutAccess).machineOnly ↔
        (s.regsStep i).machine = (s.regsStep i.withoutAccess).machine := by
      constructor
      · exact congrArg MachineOnly.regs
      · intro h
        simp only [machineOnly, step, hcmu, hpmp, h]
    rw [hregs]
    by_cases hquiet : i.trapEnterI = false ∧ i.mretI = false ∧ i.sretI = false
    · obtain ⟨htrap, hmret, hsret⟩ := hquiet
      have hwith : s.regsStep i = s.regs.write i.csrAddrI (s.csrWriteValue i) i.csrWriteMask := by
        simp [regsStep, htrap, hmret, hsret, hacc]
      have hwithout : s.regsStep i.withoutAccess = s.regs := by
        simp only [regsStep, csrWriteAccept_withoutAccess]
        simp [CsrInput.withoutAccess, htrap, hmret, hsret]
      rw [hwith, hwithout, write_machine_iff haddr]
      exact ⟨fun h _ _ _ _ => h, fun h => h htrap hmret hsret hacc⟩
    have hsame : s.regsStep i = s.regsStep i.withoutAccess := by
      cases htrap : i.trapEnterI with
      | true => simp [regsStep, CsrInput.withoutAccess, htrap]; rfl
      | false =>
      cases hmret : i.mretI with
      | true => simp [regsStep, CsrInput.withoutAccess, htrap, hmret]
      | false =>
        cases hsret : i.sretI with
        | true => simp [regsStep, CsrInput.withoutAccess, htrap, hmret, hsret]
        | false => exact absurd ⟨htrap, hmret, hsret⟩ hquiet
    rw [hsame]
    exact ⟨fun _ h1 h2 h3 _ => absurd ⟨h1, h2, h3⟩ hquiet, fun _ => rfl⟩

theorem legal_step (h : s.regs.Legal) : (s.step i).regs.Legal := by
  show (s.regsStep i).Legal
  rw [regsStep]
  split_ifs
  · exact (h.enter i).1
  · exact (h.enter i).2
  · exact h.leave.1
  · exact h.leave.2
  · exact h.write _ _ _
  · exact h

/-- The frame a trap writes, for the target it goes to. -/
theorem trap_step (h : s.regs.Legal) (htrap : i.trapEnterI) :
    s.regs.Entered (s.step i).regs i (s.regs.trapDelegated i) := by
  show s.regs.Entered (s.regsStep i) i _
  rw [regsStep, if_pos htrap]
  cases hdel : s.regs.trapDelegated i with
  | true =>
    rw [if_pos rfl]
    apply entered_enterS h
    simp only [trapDelegated, and_eq_true, bne_iff_ne] at hdel
    exact hdel.1
  | false =>
    rw [if_low]
    exact entered_enterM

end CsrState

namespace CsrInput

variable (i : CsrInput)

/-- A cycle with no trap, no return and no write of a status register. -/
structure Quiet : Prop where
  trap : i.trapEnterI = false
  mret : i.mretI = false
  sret : i.sretI = false
  write : i.csrWriteI = true → i.csrAddrI ≠ csrMstatus ∧ i.csrAddrI ≠ csrSstatus

/-- A cycle that returns from a handler of M-mode. -/
structure ReturnsM : Prop where
  trap : i.trapEnterI = false
  mret : i.mretI = true

/-- A cycle that returns from a handler of S-mode. -/
structure ReturnsS : Prop where
  trap : i.trapEnterI = false
  mret : i.mretI = false
  sret : i.sretI = true

end CsrInput

/-- `t` is reached from `s` inside a handler of M-mode: only quiet cycles. -/
inductive HandlerM {p : CsrParams} : CsrState p → CsrState p → Prop
  | start (s : CsrState p) : HandlerM s s
  | quiet {s t : CsrState p} (i : CsrInput) : HandlerM s t → i.Quiet → HandlerM s (t.step i)

/-- `t` is reached from `s` inside a handler of S-mode: quiet cycles, and traps to M-mode
with their handlers and returns. -/
inductive HandlerS {p : CsrParams} : CsrState p → CsrState p → Prop
  | start (s : CsrState p) : HandlerS s s
  | quiet {s t : CsrState p} (i : CsrInput) : HandlerS s t → i.Quiet → HandlerS s (t.step i)
  | nested {s t u : CsrState p} (i j : CsrInput) : HandlerS s t → i.trapEnterI = true →
      t.regs.trapDelegated i = false → HandlerM (t.step i) u → j.ReturnsM → HandlerS s (u.step j)

namespace CsrState

variable {p : CsrParams} {r s t : CsrState p} {i j : CsrInput}

theorem quiet_step (hquiet : i.Quiet) :
    (s.step i).regs.mstatusQ = s.regs.mstatusQ ∧ (s.step i).regs.privModeQ = s.regs.privModeQ := by
  show (s.regsStep i).mstatusQ = _ ∧ (s.regsStep i).privModeQ = _
  rw [regsStep, hquiet.trap, hquiet.mret, hquiet.sret]
  simp only [if_low]
  cases hacc : s.csrWriteAccept i with
  | false => exact ⟨rfl, rfl⟩
  | true =>
    have hwr : i.csrWriteI := by
      simp only [csrWriteAccept, and_eq_true] at hacc
      exact hacc.1.1
    obtain ⟨hm, hs⟩ := hquiet.write hwr
    rw [if_pos rfl, write_mstatusQ, write_privModeQ,
      if_neg (by simpa using hs), if_neg (by simpa using hm)]
    exact ⟨rfl, rfl⟩

theorem returnM_step (hret : i.ReturnsM) : (s.step i).regs = s.regs.returnM := by
  show s.regsStep i = _
  rw [regsStep, hret.trap, hret.mret]
  rfl

theorem returnS_step (hret : i.ReturnsS) : (s.step i).regs = s.regs.returnS := by
  show s.regsStep i = _
  rw [regsStep, hret.trap, hret.mret, hret.sret]
  rfl

/-- A handler of M-mode keeps mstatus and the privilege. -/
theorem handlerM_keeps (h : HandlerM s t) :
    t.regs.mstatusQ = s.regs.mstatusQ ∧ t.regs.privModeQ = s.regs.privModeQ := by
  induction h with
  | start => exact ⟨rfl, rfl⟩
  | quiet i _ hquiet ih =>
    exact ⟨(quiet_step hquiet).1.trans ih.1, (quiet_step hquiet).2.trans ih.2⟩

/-- A trap to M-mode, its handler and its return: the interrupted privilege and interrupt
enable are back, and the S-mode part of mstatus was not touched. -/
theorem handlerM_returns (hleg : s.regs.Legal) (htrap : i.trapEnterI)
    (htgt : s.regs.trapDelegated i = false) (hh : HandlerM (s.step i) t)
    (hret : j.ReturnsM) :
    (t.step j).regs.privModeQ = s.regs.privModeQ ∧
      (t.step j).regs.mstatusQ.getLsbD mstatusMie = s.regs.mstatusQ.getLsbD mstatusMie ∧
      ∀ k, k = mstatusSie ∨ k = mstatusSpie ∨ k = mstatusSpp →
        (t.step j).regs.mstatusQ.getLsbD k = s.regs.mstatusQ.getLsbD k := by
  have hentered : (s.step i).regs = s.regs.enterM i := by
    show s.regsStep i = _
    rw [regsStep, if_pos htrap, htgt]
    rfl
  have hstatus : t.regs.mstatusQ = (s.regs.enterM i).mstatusQ := by
    rw [(handlerM_keeps hh).1, hentered]
  rw [returnM_step hret]
  refine ⟨?_, ?_, ?_⟩
  · have hmpp : field (s.regs.enterM i).mstatusQ mstatusMpp = s.regs.privModeQ :=
      (entered_enterM (r := s.regs) (i := i)).previousPriv
    show t.regs.mppValue = _
    rw [mppValue, hstatus, hmpp]
    rcases hleg.priv with h | h | h <;> rw [h] <;> rfl
  · calc
      t.regs.returnM.mstatusQ.getLsbD mstatusMie = t.regs.mstatusQ.getLsbD mstatusMpie :=
        returnM_bit _ mstatusMie
      _ = s.regs.mstatusQ.getLsbD mstatusMie := by
        rw [hstatus]
        exact enterM_bit _ i mstatusMpie
  · intro k hk
    calc
      t.regs.returnM.mstatusQ.getLsbD k = t.regs.mstatusQ.getLsbD k := by
        rw [returnM_bit]
        rcases hk with rfl | rfl | rfl <;> rfl
      _ = s.regs.mstatusQ.getLsbD k := by
        rw [hstatus, enterM_bit]
        rcases hk with rfl | rfl | rfl <;> rfl

theorem legal_handlerM (h : HandlerM s t) (hleg : s.regs.Legal) : t.regs.Legal := by
  induction h with
  | start => exact hleg
  | quiet i _ _ ih => exact legal_step ih

/-- What a handler of S-mode keeps for its return. -/
theorem handlerS_keeps (h : HandlerS s t) (hleg : s.regs.Legal) :
    t.regs.Legal ∧ t.regs.privModeQ = s.regs.privModeQ ∧
      ∀ k, k = mstatusSie ∨ k = mstatusSpie ∨ k = mstatusSpp →
        t.regs.mstatusQ.getLsbD k = s.regs.mstatusQ.getLsbD k := by
  induction h with
  | start => exact ⟨hleg, rfl, fun _ _ => rfl⟩
  | quiet i _ hquiet ih =>
    obtain ⟨hleg', hpriv, hbits⟩ := ih
    refine ⟨legal_step hleg', (quiet_step hquiet).2.trans hpriv, fun k hk => ?_⟩
    rw [(quiet_step hquiet).1, hbits k hk]
  | nested i j _ htrap htgt hh hret ih =>
    obtain ⟨hleg', hpriv, hbits⟩ := ih
    have hreturned := handlerM_returns hleg' htrap htgt hh hret
    refine ⟨legal_step (legal_handlerM hh (legal_step hleg')),
      hreturned.1.trans hpriv, fun k hk => ?_⟩
    rw [hreturned.2.2 k hk, hbits k hk]

/-- A trap to S-mode, its handler and its return. -/
theorem handlerS_returns (hleg : s.regs.Legal) (htrap : i.trapEnterI)
    (htgt : s.regs.trapDelegated i) (hh : HandlerS (s.step i) t)
    (hret : j.ReturnsS) :
    (t.step j).regs.privModeQ = s.regs.privModeQ ∧
      (t.step j).regs.mstatusQ.getLsbD mstatusSie = s.regs.mstatusQ.getLsbD mstatusSie := by
  have hentered : (s.step i).regs = s.regs.enterS i := by
    show s.regsStep i = _
    rw [regsStep, if_pos htrap, htgt]
    rfl
  obtain ⟨-, -, hbits⟩ := handlerS_keeps hh (legal_step hleg)
  rw [hentered] at hbits
  rw [returnS_step hret]
  constructor
  · have hspp : t.regs.mstatusQ.getLsbD mstatusSpp = (s.regs.privModeQ == privS) :=
      (hbits _ (.inr (.inr rfl))).trans (enterS_bit _ i mstatusSpp)
    have hbelow : s.regs.privModeQ ≠ privM := by
      simp only [trapDelegated, and_eq_true, bne_iff_ne] at htgt
      exact htgt.1
    show (if t.regs.mstatusQ.getLsbD mstatusSpp then privS else privU) = _
    rw [hspp]
    rcases hleg.priv with h | h | h
    · rw [h]
      rfl
    · rw [h]
      rfl
    · exact absurd h hbelow
  · calc
      t.regs.returnS.mstatusQ.getLsbD mstatusSie = t.regs.mstatusQ.getLsbD mstatusSpie :=
        returnS_bit _ mstatusSie
      _ = (s.regs.enterS i).mstatusQ.getLsbD mstatusSpie := hbits _ (.inr (.inl rfl))
      _ = s.regs.mstatusQ.getLsbD mstatusSie := enterS_bit _ i mstatusSpie

end CsrState

/-- The CSR block with the privilege in which the latched counter write was made. -/
structure CsrTracked (p : CsrParams) where
  csr : CsrState p
  hpmPriv : BitVec 2

namespace CsrTracked

variable {p : CsrParams} (t : CsrTracked p) (i : CsrInput)

def step : CsrTracked p where
  csr := t.csr.step i
  hpmPriv := if t.csr.hpmWriteStart i then t.csr.regs.privModeQ else t.hpmPriv

def circuit (p : CsrParams) : Circuit (CsrTracked p) CsrInput where
  Init t := t = { csr := reset, hpmPriv := privM }
  step := CsrTracked.step

/-- What holds of every reachable state. -/
structure Inv : Prop where
  legal : t.csr.regs.Legal
  latched : t.csr.hpm.hpmWriteBusyQ = true → t.hpmPriv = privS →
    t.csr.hpm.hpmWriteAddrQ = csrScounteren

variable {t i}

theorem inv_reset : Inv ({ csr := reset, hpmPriv := privM } : CsrTracked p) where
  legal := by
    constructor
    · show field (((2 : BitVec 64) <<< 34) ||| ((2 : BitVec 64) <<< 32) |||
        ((3 : BitVec 64) <<< 11)) mstatusMpp ≠ 0b10
      decide
    · exact .inr (.inr rfl)
  latched := by
    intro h
    cases h

theorem inv_step (h : t.Inv) : (t.step i).Inv where
  legal := legal_step h.legal
  latched := by
    show (t.csr.hpmStep i).hpmWriteBusyQ → _ → (t.csr.hpmStep i).hpmWriteAddrQ = _
    cases hbsy : t.csr.hpm.hpmWriteBusyQ with
    | true =>
      have hstart : t.csr.hpmWriteStart i = false := by
        simp [hpmWriteStart, hbsy]
      intro _ hpriv
      have hsame : (t.step i).hpmPriv = t.hpmPriv := by
        show (if t.csr.hpmWriteStart i then _ else _) = _
        rw [hstart]
        rfl
      rw [hsame] at hpriv
      have haddr : (t.csr.hpmStep i).hpmWriteAddrQ = t.csr.hpm.hpmWriteAddrQ := by
        simp only [hpmStep, hbsy, if_true]
        split_ifs <;> rfl
      rw [haddr]
      exact h.latched hbsy hpriv
    | false =>
    cases hstart : t.csr.hpmWriteStart i with
    | false =>
      intro hbsy'
      simp [hpmStep, hbsy, hstart] at hbsy'
    | true =>
      intro _ hpriv
      have hnow : t.csr.regs.privModeQ = privS := by
        have hset : (t.step i).hpmPriv = t.csr.regs.privModeQ := if_pos hstart
        exact hset.symm.trans hpriv
      simp only [hpmWriteStart, hpmWriteRequest, and_eq_true] at hstart
      have hacc := hstart.1.1.1
      have hport : t.csr.cmuInput i 0 = { t.csr.cmuInput i 0 with csrAddrI := i.csrAddrI } := by
        have hcom : t.csr.hpmWriteCommit = false := by
          rw [hpmWriteCommit, hbsy, Bool.false_and]
        simp only [cmuInput, hcom, if_low]
      have hmat : CmuState.csrMatchO (t.csr.cmuInput i 0) := hstart.1.1.2
      rw [hport] at hmat
      have haddr : i.csrAddrI = csrScounteren :=
        cmu_addr_supervisor hmat (hnow ▸ accept_priv hacc) (accept_writable hacc)
      have hlatch : (t.csr.hpmStep i).hpmWriteAddrQ = i.csrAddrI := by
        have hstart' : t.csr.hpmWriteStart i := by
          simp only [hpmWriteStart, hpmWriteRequest, and_eq_true]
          exact hstart
        simp [hpmStep, hbsy, hstart']
      rw [hlatch, haddr]

theorem inv_of_run {env : Past (CsrTracked p) CsrInput → CsrTracked p → CsrInput → Prop}
    {past : Past (CsrTracked p) CsrInput} (hrun : Run (circuit p) env past t) : t.Inv := by
  apply Run.stateInvariant _ _ hrun
  · rintro s rfl
    exact inv_reset
  · intro past s i _ h
    exact inv_step h

variable (t i) in
/-- The rules of the mode in one cycle: refused accesses, latched writes, legal encodings,
trap targets and frames, and the returns that match them. -/
structure PrivilegeRules : Prop where
  refused : i.csrAddrI.extractLsb' 8 2 > t.csr.regs.privModeQ ∨
      (i.csrAddrI = csrSatp ∧ t.csr.regs.privModeQ = privS ∧
        t.csr.regs.mstatusQ.getLsbD mstatusTvm = true) →
    t.csr.access i = { rdata := 0, valid := false, writable := false } ∧
      t.csr.step i = t.csr.step i.withoutAccess
  latched : t.hpmPriv = privS → t.csr.hpmWriteCommit = true → (t.csr.step i).cmu.machine =
      (t.csr.cmu.step { t.csr.cmuInput i 0 with csrWriteI := false }).machine
  mpp : field t.csr.regs.mstatusQ mstatusMpp ≠ 0b10
  mode : t.csr.regs.privModeQ = privU ∨ t.csr.regs.privModeQ = privS ∨ t.csr.regs.privModeQ = privM
  trap : i.trapEnterI = true → ∃ toS,
    (toS = true ↔ t.csr.regs.privModeQ ≠ privM ∧
      (if i.trapInterruptI then t.csr.regs.midelegQ.getLsbD i.trapCauseI.toNat
        else t.csr.regs.medelegQ.getLsbD i.trapCauseI.toNat) = true) ∧
    t.csr.regs.Entered (t.csr.step i).regs i toS
  returnS : i.trapEnterI = true → (t.csr.step i).regs.privModeQ = privS →
    ∀ u (j : CsrInput), HandlerS (t.csr.step i) u → j.ReturnsS →
      (u.step j).regs.privModeQ = t.csr.regs.privModeQ ∧
        ((u.step j).regs.frame true).interruptEnable = (t.csr.regs.frame true).interruptEnable
  returnM : i.trapEnterI = true → (t.csr.step i).regs.privModeQ = privM →
    ∀ u (j : CsrInput), HandlerM (t.csr.step i) u → j.ReturnsM →
      (u.step j).regs.privModeQ = t.csr.regs.privModeQ ∧
        ((u.step j).regs.frame false).interruptEnable = (t.csr.regs.frame false).interruptEnable
  machine : i.trapEnterI = true → t.csr.regs.privModeQ = privM →
    (t.csr.step i).regs.privModeQ ≠ privS

theorem rules_of_inv (h : t.Inv) : t.PrivilegeRules i where
  refused := by
    intro href
    apply refused
    rcases href with hpriv | ⟨haddr, hmode, htvm⟩
    · left
      exact decide_eq_false (BitVec.not_le.2 hpriv)
    · right
      rw [satpAccessOk, haddr, hmode, htvm]
      rfl
  latched := by
    intro hpriv hcom
    have hbsy : t.csr.hpm.hpmWriteBusyQ := by
      rw [hpmWriteCommit, and_eq_true] at hcom
      exact hcom.1
    have hport : t.csr.cmuInput i (t.csr.csrWriteValue i) = t.csr.cmuInput i 0 := by
      simp only [cmuInput, hcom, if_true]
    have haddr : (t.csr.cmuInput i 0).csrAddrI = csrScounteren := by
      simp only [cmuInput, hcom, if_true, h.latched hbsy hpriv]
    show (t.csr.cmu.step (t.csr.cmuInput i (t.csr.csrWriteValue i))).machine = _
    rw [hport]
    exact CmuState.step_scounteren _ haddr
  mpp := h.legal.mpp
  mode := h.legal.priv
  trap := by
    intro htrap
    refine ⟨t.csr.regs.trapDelegated i, ?_, trap_step h.legal htrap⟩
    rw [trapDelegated, and_eq_true, bne_iff_ne]
  returnS := by
    intro htrap htgt u j hh hret
    have hdel : t.csr.regs.trapDelegated i := by
      have hentered := trap_step h.legal htrap
      cases hdel : t.csr.regs.trapDelegated i with
      | true => rfl
      | false =>
        rw [hdel] at hentered
        exact absurd (hentered.target.symm.trans htgt) (by decide)
    exact handlerS_returns h.legal htrap hdel hh hret
  returnM := by
    intro htrap htgt u j hh hret
    have hdel : t.csr.regs.trapDelegated i = false := by
      have hentered := trap_step h.legal htrap
      refine eq_false_of_ne_true fun hdel => ?_
      rw [hdel] at hentered
      exact absurd (hentered.target.symm.trans htgt) (by decide)
    have hreturned := handlerM_returns h.legal htrap hdel hh hret
    exact ⟨hreturned.1, hreturned.2.1⟩
  machine := by
    intro htrap hmode htgt
    have hentered := trap_step h.legal htrap
    have hdel : t.csr.regs.trapDelegated i = false := by
      rw [trapDelegated, hmode]
      rfl
    rw [hdel] at hentered
    exact absurd (hentered.target.symm.trans htgt) (by decide)

/-- Every cycle of every run obeys the rules of the mode, and an S-mode access keeps the
machine-only state exactly when the views of `mie` and `mip` drop no undelegated bit. -/
theorem privilege_governed {past : Past (CsrTracked p) CsrInput}
    (hrun : Run (circuit p) anyEnv past t) (i : CsrInput) :
    t.PrivilegeRules i ∧
      (t.csr.regs.privModeQ = privS →
        ((t.csr.step i).machineOnly = (t.csr.step i.withoutAccess).machineOnly ↔
          t.csr.KeepsUndelegated i)) :=
  ⟨rules_of_inv (inv_of_run hrun), machineOnly_iff⟩

theorem noCounter_le : 0 ≤ 29 := Nat.zero_le 29

theorem oneRegion_pos : 1 ≤ 1 := Nat.le_refl 1

theorem oneRegion_le : 1 ≤ 16 := by decide

/-- One protected region and no event counter. -/
def smallCsr : CsrParams where
  enableRv64m := false
  enableRv64a := true
  enableExtension := false
  hartId := 0
  cmu := { hpmCounters := 0, hpm_le := noCounter_le }
  pmp := { activeEntries := 1, active_pos := oneRegion_pos, active_le := oneRegion_le }

/-- A cycle that writes one CSR. -/
def writeCycle (addr : BitVec 12) (value : BitVec 64) : CsrInput where
  csrAddrI := addr
  csrWriteI := true
  csrOpI := 0b001
  csrWdataI := value
  extensionCsrSelectedI := false
  extensionCsrValidI := false
  extensionCsrWritableI := false
  extensionCsrRdataI := 0
  extensionCsrWriteReadyI := false
  extensionMisaBitsI := 0
  extensionMstatusBitsI := 0
  extensionSstatusBitsI := 0
  trapEnterI := false
  trapInterruptI := false
  trapCauseI := 0
  trapPcI := 0
  trapTvalI := 0
  mretI := false
  sretI := false
  retireCountI := 1
  perfEventsI := 0
  irqSoftwareI := false
  irqTimerI := false
  irqExternalI := false
  irqSSoftwareI := false
  irqSTimerI := false
  irqSExternalI := false

/-- M-mode enables the supervisor software interrupt, does not delegate it, and returns to
S-mode. -/
def toSupervisor : List CsrInput :=
  [writeCycle csrMie 2, writeCycle csrMstatus 0x800,
    { writeCycle 0 0 with csrWriteI := false, mretI := true }]

def inSupervisor : CsrTracked smallCsr :=
  (exec (circuit smallCsr) [] { csr := reset, hpmPriv := privM } toSupervisor).2

theorem inSupervisor_run : ∃ past, Run (circuit smallCsr) anyEnv past inSupervisor :=
  ⟨_, exec_run toSupervisor (.reset rfl)⟩

theorem inSupervisor_regs : inSupervisor.csr.regs.privModeQ = privS ∧
    inSupervisor.csr.regs.mieQ = 2 ∧ inSupervisor.csr.regs.midelegQ = 0 := by
  decide +kernel

/-- After a write of `sscratch` the machine-only state is that of a cycle without it. -/
theorem privilege_governed_sscratch :
    inSupervisor.PrivilegeRules (writeCycle csrSscratch 7) ∧
      (inSupervisor.csr.step (writeCycle csrSscratch 7)).machineOnly =
        (inSupervisor.csr.step (writeCycle csrSscratch 7).withoutAccess).machineOnly := by
  obtain ⟨past, hrun⟩ := inSupervisor_run
  have h := privilege_governed hrun (writeCycle csrSscratch 7)
  refine ⟨h.1, (h.2 inSupervisor_regs.1).2 ?_⟩
  intro _ _ _ _
  exact ⟨fun hsie => absurd hsie (by decide), fun hsip => absurd hsip (by decide)⟩

/-- An S-mode write of zero to `sie` clears an enable that is not delegated to S-mode. -/
theorem privilege_governed_fails :
    ¬ ∀ (p : CsrParams) (past : Past (CsrTracked p) CsrInput) (t : CsrTracked p),
      Run (circuit p) anyEnv past t → ∀ i : CsrInput, t.csr.regs.privModeQ = privS →
          (t.csr.step i).machineOnly = (t.csr.step i.withoutAccess).machineOnly := by
  intro hall
  obtain ⟨past, hrun⟩ := inSupervisor_run
  have heq := hall smallCsr past inSupervisor hrun (writeCycle csrSie 0) inSupervisor_regs.1
  have hmie := congrArg (fun m => m.regs.mieQ) heq
  exact absurd hmie (by decide +kernel)

end CsrTracked

end OpenRV64
