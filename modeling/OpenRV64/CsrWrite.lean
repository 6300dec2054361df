/-
The write port of the CSR block as a transaction: a fast register is written in the
cycle of the request, a slow one (SATP, a counter, an address of the protection unit)
once, after which the port reports ready for one cycle.
-/
import OpenRV64.Csr

namespace OpenRV64

open PmpState
open Bool (and_eq_true)
open BitVec (le_def lt_def)

/-- Which part of the CSR block stores a write. -/
inductive CsrKind
  | fast
  | satp
  | counter
  | pmpaddr
deriving DecidableEq, Repr

/-- A write that the CSR block stores: the part that stores it and the value stored. -/
structure CsrPerform where
  kind : CsrKind
  addr : BitVec 12
  value : BitVec 64
deriving DecidableEq, Repr

/-- The protection unit's port at an address. -/
def pmpAt (addr : BitVec 12) : PmpInput where
  csrAddrI := addr
  csrWriteI := false
  csrWdataI := 0
  busValidI := false
  busAddrI := 0
  busSizeI := 0
  busWriteI := false
  busExecI := false
  busPrivModeI := 0

/-- The counter block's port at an address. -/
def cmuAt (addr : BitVec 12) : CmuInput where
  csrAddrI := addr
  csrWriteI := false
  csrWdataI := 0
  privModeI := 0
  retireCountI := 0
  eventPulsesI := 0

/-- The address belongs to the counter block, or to the protection unit. -/
def counterAddr (addr : BitVec 12) : Bool := CmuState.csrMatchO (cmuAt addr)
def pmpAddr (addr : BitVec 12) : Bool := csrMatchO (pmpAt addr)

theorem counterAddr_not_pmp {addr : BitVec 12} (h : counterAddr addr) : pmpAddr addr = false := by
  refine eq_false_of_ne_true fun hpmp => ?_
  exfalso
  simp only [pmpAddr, csrMatchO, PmpInput.csrPmpaddrMatch, pmpAt,
    Bool.or_eq_true, and_eq_true, beq_iff_eq, decide_eq_true_eq, le_def, lt_def] at hpmp
  rcases hpmp with (rfl | rfl) | ⟨hlow, hhigh⟩
  · exact absurd h (by decide)
  · exact absurd h (by decide)
  have h1 : (csrPmpaddr0 : BitVec 12).toNat = 944 := rfl
  have h2 : (csrPmpaddr0 + 16 : BitVec 12).toNat = 960 := rfl
  rw [h1] at hlow
  rw [h2] at hhigh
  have hrng : ∀ a : BitVec 12, addr = a → ¬ (944 ≤ a.toNat ∧ a.toNat < 960) → False :=
    fun a ha hout => hout (ha ▸ ⟨hlow, hhigh⟩)
  simp only [counterAddr, CmuState.csrMatchO, CmuInput.csrIsMhpmcounter,
    CmuInput.csrIsMhpmevent, CmuInput.csrIsHpmcounter, cmuAt, Bool.or_eq_true,
    and_eq_true, beq_iff_eq, decide_eq_true_eq, le_def] at h
  rcases h with (((((((((( h | h) | h) | h) | h) | h) | h) | h) | h) | h) | h)
  iterate 8 exact hrng _ h (by decide)
  · have h3 : (csrMhpmcounter3 : BitVec 12).toNat = 0xb03 := rfl
    omega
  · have h3 : (csrMhpmevent31 : BitVec 12).toNat = 0x33f := rfl
    omega
  · have h3 : (csrHpmcounter3 : BitVec 12).toNat = 0xc03 := rfl
    omega

namespace CsrState

variable {p : CsrParams} (s : CsrState p) (i : CsrInput)

/-- The address is an unlocked address register with storage, whose bounds take long to
compute. -/
def pmpaddrSlow (addr : BitVec 12) : Bool :=
  (pmpAt addr).csrPmpaddrActive p.pmp && !s.pmp.csrPmpaddrLocked (pmpAt addr)

/-- A write stored in the cycle it is requested. -/
def fastWrite : Bool :=
  s.csrWriteAccept i && !i.trapEnterI && !i.mretI && !i.sretI && !s.satpWriteRequest i &&
    !s.hpmWriteRequest i && !s.pmpaddrSlow i.csrAddrI &&
    !(pmpAddr i.csrAddrI && (s.pmp.busyQ || s.pmp.doneQ))

def satpCommit : Bool := s.satp.satpBusyQ && s.satp.satpCountQ == 29

/-- The last cycle of an address write in the protection unit. -/
def pmpCommit : Bool := s.pmp.busyQ && s.pmp.addPhaseQ && s.pmp.bitCountQ == 39

/-- The writes the CSR block stores in one cycle. -/
def performed : List CsrPerform :=
  (if s.fastWrite i then [⟨.fast, i.csrAddrI, s.csrWriteValue i⟩] else []) ++
    (if s.satpCommit then [⟨.satp, csrSatp, s.satp.satpPendingQ⟩] else []) ++
    (if s.hpmWriteCommit then [⟨.counter, s.hpm.hpmWriteAddrQ, s.hpm.hpmWriteDataQ⟩] else []) ++
    (if s.pmpCommit then
      [⟨.pmpaddr, csrPmpaddr0 + s.pmp.entryQ.setWidth 12, s.pmp.pendingQ.setWidth 64⟩] else [])

/-- No slow write is under way or waiting to be acknowledged. -/
structure Idle : Prop where
  satpBusy : s.satp.satpBusyQ = false
  satpDone : s.satp.satpDoneQ = false
  hpmBusy : s.hpm.hpmWriteBusyQ = false
  hpmDone : s.hpm.hpmWriteDoneQ = false
  pmpBusy : s.pmp.busyQ = false
  pmpDone : s.pmp.doneQ = false

instance : Decidable s.Idle :=
  decidable_of_iff (s.satp.satpBusyQ = false ∧ s.satp.satpDoneQ = false ∧
      s.hpm.hpmWriteBusyQ = false ∧ s.hpm.hpmWriteDoneQ = false ∧ s.pmp.busyQ = false ∧
      s.pmp.doneQ = false)
    ⟨fun h => ⟨h.1, h.2.1, h.2.2.1, h.2.2.2.1, h.2.2.2.2.1, h.2.2.2.2.2⟩,
      fun h => ⟨h.satpBusy, h.satpDone, h.hpmBusy, h.hpmDone, h.pmpBusy, h.pmpDone⟩⟩

/-- A slow write has been stored and waits to be acknowledged. -/
def stored : Bool := s.satp.satpDoneQ || s.hpm.hpmWriteDoneQ || s.pmp.doneQ

/-- The slow write under way, if any, is the one to this address of this value. -/
structure Serves (addr : BitVec 12) (value : BitVec 64) : Prop where
  satp : s.satp.satpBusyQ = true ∨ s.satp.satpDoneQ = true → addr = csrSatp
  hpm : s.hpm.hpmWriteBusyQ = true ∨ s.hpm.hpmWriteDoneQ = true → counterAddr addr = true
  pmp : s.pmp.busyQ = true ∨ s.pmp.doneQ = true → s.pmpaddrSlow addr = true
  satpBusy : s.satp.satpBusyQ = true →
    s.satp.satpDoneQ = false ∧ s.satp.satpPendingQ = s.satpWarl value
  hpmBusy : s.hpm.hpmWriteBusyQ = true → s.hpm.hpmWriteDoneQ = false ∧
    s.hpm.hpmWriteAddrQ = addr ∧ s.hpm.hpmWriteDataQ = value
  pmpBusy : s.pmp.busyQ = true → s.pmp.doneQ = false ∧
    csrPmpaddr0 + s.pmp.entryQ.setWidth 12 = addr ∧ s.pmp.pendingQ = value.setWidth 37

/-- What a slow write stores of `value`. -/
inductive Stores (addr : BitVec 12) (value : BitVec 64) : CsrPerform → Prop
  | satp : addr = csrSatp → Stores addr value ⟨.satp, addr, s.satpWarl value⟩
  | counter : counterAddr addr = true → Stores addr value ⟨.counter, addr, value⟩
  | pmpaddr : s.pmpaddrSlow addr = true →
      Stores addr value ⟨.pmpaddr, addr, (value.setWidth 37).setWidth 64⟩

variable {s i}

theorem Idle.serves (h : s.Idle) (addr : BitVec 12) (value : BitVec 64) : s.Serves addr value where
  satp := by rw [h.satpBusy, h.satpDone]; simp
  hpm := by rw [h.hpmBusy, h.hpmDone]; simp
  pmp := by rw [h.pmpBusy, h.pmpDone]; simp
  satpBusy := by rw [h.satpBusy]; simp
  hpmBusy := by rw [h.hpmBusy]; simp
  pmpBusy := by rw [h.pmpBusy]; simp

theorem Idle.not_stored (h : s.Idle) : s.stored = false := by
  rw [stored, h.satpDone, h.hpmDone, h.pmpDone]
  rfl

theorem Idle.no_commit (h : s.Idle) :
    s.satpCommit = false ∧ s.hpmWriteCommit = false ∧ s.pmpCommit = false := by
  refine ⟨?_, ?_, ?_⟩
  · rw [satpCommit, h.satpBusy, Bool.false_and]
  · rw [hpmWriteCommit, h.hpmBusy, Bool.false_and]
  · rw [pmpCommit, h.pmpBusy]
    rfl

theorem pmpaddrSlow_pmpAddr {addr : BitVec 12} (h : s.pmpaddrSlow addr) : pmpAddr addr := by
  simp only [pmpaddrSlow, PmpInput.csrPmpaddrActive, and_eq_true] at h
  rw [pmpAddr, csrMatchO, h.1.1, Bool.or_true]

theorem pmpaddrSlow_of_not {addr : BitVec 12} (h : pmpAddr addr = false) :
    s.pmpaddrSlow addr = false := by
  refine eq_false_of_ne_true fun hslow => ?_
  exact absurd_low (h.symm.trans (pmpaddrSlow_pmpAddr hslow))

/-! ### SATP -/

theorem satp_idle (hreq : s.satpWriteRequest i = false) (hbsy : s.satp.satpBusyQ = false) :
    (s.satpStep i).satpBusyQ = false ∧ (s.satpStep i).satpDoneQ = false := by
  have hstart : s.satpStart i = false := by simp [satpStart, hreq]
  simp [satpStep, hbsy, hstart, hreq]

theorem satp_start (hreq : s.satpWriteRequest i) (hbsy : s.satp.satpBusyQ = false)
    (hdone : s.satp.satpDoneQ = false) :
    (s.satpStep i).satpBusyQ ∧ (s.satpStep i).satpDoneQ = false ∧
      (s.satpStep i).satpPendingQ = s.satpWarl (s.csrWriteValue i) ∧
      (s.satpStep i).satpQ = s.satp.satpQ := by
  have hstart : s.satpStart i := by rw [satpStart, hreq, hbsy, hdone]; rfl
  simp [satpStep, hbsy, hdone, hstart]

theorem satp_waits (hbsy : s.satp.satpBusyQ) (hdone : s.satp.satpDoneQ = false)
    (hcom : s.satpCommit = false) :
    (s.satpStep i).satpBusyQ ∧ (s.satpStep i).satpDoneQ = false ∧
      (s.satpStep i).satpPendingQ = s.satp.satpPendingQ ∧ (s.satpStep i).satpQ = s.satp.satpQ := by
  have hcnt : (s.satp.satpCountQ == 29) = false := by
    rw [satpCommit, hbsy, Bool.true_and] at hcom
    exact hcom
  simp only [satpStep, hbsy, hcnt, hdone, if_true, if_low]
  simp

theorem satp_commits (hcom : s.satpCommit) :
    (s.satpStep i).satpBusyQ = false ∧ (s.satpStep i).satpDoneQ ∧
      (s.satpStep i).satpQ = s.satp.satpPendingQ := by
  rw [satpCommit, and_eq_true] at hcom
  simp only [satpStep, hcom.1, hcom.2, if_true]
  simp

theorem satp_acknowledged (hbsy : s.satp.satpBusyQ = false) (hdone : s.satp.satpDoneQ) :
    (s.satpStep i).satpBusyQ = false ∧ (s.satpStep i).satpDoneQ = false := by
  have hstart : s.satpStart i = false := by rw [satpStart, hdone]; simp
  simp [satpStep, hbsy, hstart, hdone]

/-! ### Counters -/

theorem hpm_idle (hreq : s.hpmWriteRequest i = false) (hbsy : s.hpm.hpmWriteBusyQ = false) :
    (s.hpmStep i).hpmWriteBusyQ = false ∧ (s.hpmStep i).hpmWriteDoneQ = false := by
  have hstart : s.hpmWriteStart i = false := by simp [hpmWriteStart, hreq]
  simp [hpmStep, hbsy, hstart, hreq]

theorem hpm_start (hreq : s.hpmWriteRequest i) (hbsy : s.hpm.hpmWriteBusyQ = false)
    (hdone : s.hpm.hpmWriteDoneQ = false) :
    (s.hpmStep i).hpmWriteBusyQ ∧ (s.hpmStep i).hpmWriteDoneQ = false ∧
      (s.hpmStep i).hpmWriteAddrQ = i.csrAddrI ∧
      (s.hpmStep i).hpmWriteDataQ = s.csrWriteValue i := by
  have hstart : s.hpmWriteStart i := by rw [hpmWriteStart, hreq, hbsy, hdone]; rfl
  simp [hpmStep, hbsy, hdone, hstart]

theorem hpm_waits (hbsy : s.hpm.hpmWriteBusyQ) (hdone : s.hpm.hpmWriteDoneQ = false)
    (hcom : s.hpmWriteCommit = false) :
    (s.hpmStep i).hpmWriteBusyQ ∧ (s.hpmStep i).hpmWriteDoneQ = false ∧
      (s.hpmStep i).hpmWriteAddrQ = s.hpm.hpmWriteAddrQ ∧
      (s.hpmStep i).hpmWriteDataQ = s.hpm.hpmWriteDataQ := by
  have hcnt : (s.hpm.hpmWriteCountQ == 2) = false := by
    rw [hpmWriteCommit, hbsy, Bool.true_and] at hcom
    exact hcom
  simp only [hpmStep, hbsy, hcnt, hdone, if_true, if_low]
  simp

theorem hpm_commits (hcom : s.hpmWriteCommit) :
    (s.hpmStep i).hpmWriteBusyQ = false ∧ (s.hpmStep i).hpmWriteDoneQ := by
  rw [hpmWriteCommit, and_eq_true] at hcom
  simp only [hpmStep, hcom.1, hcom.2, if_true]
  simp

theorem hpm_acknowledged (hbsy : s.hpm.hpmWriteBusyQ = false) (hdone : s.hpm.hpmWriteDoneQ) :
    (s.hpmStep i).hpmWriteBusyQ = false ∧ (s.hpmStep i).hpmWriteDoneQ = false := by
  have hstart : s.hpmWriteStart i = false := by rw [hpmWriteStart, hdone]; simp
  simp [hpmStep, hbsy, hstart, hdone]

/-! ### The protection unit -/

theorem pmp_idle (hbsy : s.pmp.busyQ = false)
    (hslow : s.pmpCsrWrite i = false ∨ s.pmpaddrSlow i.csrAddrI = false) :
    (s.pmp.step (s.pmpPort i)).busyQ = false ∧
      (s.pmp.doneQ = false → (s.pmp.step (s.pmpPort i)).doneQ = false) := by
  have hstart : s.pmp.pmpaddrStart (s.pmpPort i) = false := by
    have hport : s.pmp.pmpaddrStart (s.pmpPort i) =
        (s.pmpCsrWrite i && s.pmpaddrSlow i.csrAddrI && !s.pmp.busyQ && !s.pmp.doneQ) := by
      simp only [pmpaddrStart, pmpaddrSlow, Bool.and_assoc]
      rfl
    rw [hport]
    rcases hslow with h | h <;> rw [h] <;> simp
  constructor
  · simp only [PmpState.step, hbsy, hstart, if_low]
    split_ifs <;> simp [cfgStep]
  · intro hdone
    simp only [PmpState.step, hbsy, hstart, hdone, if_low]
    split_ifs <;> simp [cfgStep]

/-- The entry number of an address register names the register. -/
theorem pmpaddr_entry {addr : BitVec 12} (h : (pmpAt addr).csrPmpaddrMatch) :
    csrPmpaddr0 + (pmpAt addr).csrPmpaddrEntry.setWidth 12 = addr := by
  simp only [PmpInput.csrPmpaddrMatch, pmpAt, and_eq_true, decide_eq_true_eq, le_def, lt_def] at h
  have h1 : (csrPmpaddr0 : BitVec 12).toNat = 944 := rfl
  have h2 : (csrPmpaddr0 + 16 : BitVec 12).toNat = 960 := rfl
  apply BitVec.eq_of_toNat_eq
  simp only [PmpInput.csrPmpaddrEntry, pmpAt, BitVec.toNat_add, BitVec.toNat_setWidth,
    BitVec.toNat_sub]
  omega

theorem pmp_start (hwr : s.pmpCsrWrite i) (hslow : s.pmpaddrSlow i.csrAddrI)
    (hbsy : s.pmp.busyQ = false) (hdone : s.pmp.doneQ = false) :
    (s.pmp.step (s.pmpPort i)).busyQ ∧ (s.pmp.step (s.pmpPort i)).doneQ = false ∧
      csrPmpaddr0 + (s.pmp.step (s.pmpPort i)).entryQ.setWidth 12 = i.csrAddrI ∧
      (s.pmp.step (s.pmpPort i)).pendingQ = (s.csrWriteValue i).setWidth 37 ∧
      (s.pmp.step (s.pmpPort i)).cfgQ = s.pmp.cfgQ := by
  have hstart : s.pmp.pmpaddrStart (s.pmpPort i) := by
    have hport : s.pmp.pmpaddrStart (s.pmpPort i) =
        (s.pmpCsrWrite i && s.pmpaddrSlow i.csrAddrI && !s.pmp.busyQ && !s.pmp.doneQ) := by
      simp only [pmpaddrStart, pmpaddrSlow, Bool.and_assoc]
      rfl
    rw [hport, hwr, hslow, hbsy, hdone]
    rfl
  have hmat : (pmpAt i.csrAddrI).csrPmpaddrMatch := by
    simp only [pmpaddrSlow, PmpInput.csrPmpaddrActive, and_eq_true] at hslow
    exact hslow.1.1
  have hent := pmpaddr_entry hmat
  simp only [PmpState.step, hbsy, hstart, hdone, if_low, if_true]
  refine ⟨rfl, ?_, hent, rfl, rfl⟩
  simp [startStep]

theorem pmp_waits (hbsy : s.pmp.busyQ) (hdone : s.pmp.doneQ = false) (hcom : s.pmpCommit = false) :
    (s.pmp.step (s.pmpPort i)).busyQ ∧ (s.pmp.step (s.pmpPort i)).doneQ = false ∧
      (s.pmp.step (s.pmpPort i)).entryQ = s.pmp.entryQ ∧
      (s.pmp.step (s.pmpPort i)).pendingQ = s.pmp.pendingQ ∧
      (s.pmp.step (s.pmpPort i)).cfgQ = s.pmp.cfgQ := by
  rw [pmpCommit, hbsy, Bool.true_and] at hcom
  cases hph : s.pmp.addPhaseQ with
  | false =>
    simp only [PmpState.step, hbsy, hph, hdone, Bool.not_false, if_true, scanStep]
    split_ifs <;> simp_all
  | true =>
    rw [hph, Bool.true_and] at hcom
    simp only [PmpState.step, hbsy, hph, hdone, Bool.not_true, Bool.false_eq_true,
      if_false, if_true, addStep, hcom]
    simp

theorem pmp_commits (hcom : s.pmpCommit) :
    (s.pmp.step (s.pmpPort i)).busyQ = false ∧ (s.pmp.step (s.pmpPort i)).doneQ ∧
      (s.pmp.step (s.pmpPort i)).cfgQ = s.pmp.cfgQ := by
  simp only [pmpCommit, and_eq_true] at hcom
  obtain ⟨⟨hbsy, hph⟩, hcnt⟩ := hcom
  simp only [PmpState.step, hbsy, hph, Bool.not_true, if_low, if_true, addStep, hcnt]
  simp

theorem pmp_acknowledged (hbsy : s.pmp.busyQ = false) (hdone : s.pmp.doneQ) :
    (s.pmp.step (s.pmpPort i)).busyQ = false ∧ (s.pmp.step (s.pmpPort i)).doneQ = false := by
  have hstart : s.pmp.pmpaddrStart (s.pmpPort i) = false := by
    simp [pmpaddrStart, hdone]
  simp [PmpState.step, hbsy, hstart, hdone]

theorem pmpaddrSlow_congr {t : CsrState p} (h : t.pmp.cfgQ = s.pmp.cfgQ) (addr : BitVec 12) :
    t.pmpaddrSlow addr = s.pmpaddrSlow addr := by
  simp only [pmpaddrSlow, csrPmpaddrLocked, h]

/-! ### One cycle of a request -/

/-- What a cycle of a held request does: a fast write is stored and acknowledged, a slow one
is acknowledged after it has been stored, and until then it is stored at most once. -/
inductive WriteCycle (s : CsrState p) (i : CsrInput) (value : BitVec 64) : Prop
  | acknowledged (hstored : s.stored = true) (hready : s.csrWriteReadyO i = true)
      (hperformed : s.performed i = []) (hnext : (s.step i).Idle)
  | fast (hidle : s.Idle) (hready : s.csrWriteReadyO i = true)
      (hperformed : s.performed i = [⟨.fast, i.csrAddrI, s.csrWriteValue i⟩])
      (hnext : (s.step i).Idle)
  | waits (hstored : s.stored = false) (hready : s.csrWriteReadyO i = false)
      (hperformed : s.performed i = []) (hserves : (s.step i).Serves i.csrAddrI value)
      (hnext : (s.step i).stored = false)
  | stores (hstored : s.stored = false) (hready : s.csrWriteReadyO i = false) (e : CsrPerform)
      (hperformed : s.performed i = [e]) (hstores : s.Stores i.csrAddrI value e)
      (hserves : (s.step i).Serves i.csrAddrI value) (hnext : (s.step i).stored = true)

/-- The value of the slow write under way, or the one that starts now. -/
def slowValue (s : CsrState p) (i : CsrInput) (value : BitVec 64) : BitVec 64 :=
  if s.Idle then s.csrWriteValue i else value

theorem of_down {b : Bool} {q : Prop} (hb : b = false) (h : b) : q := absurd_low (hb.symm.trans h)

/-- Nor do two flags that are down. -/
theorem of_both_down {b d : Bool} {q : Prop} (hb : b = false) (hd : d = false)
    (h : b ∨ d) : q := h.elim (of_down hb) (of_down hd)

theorem not_up {b d : Bool} : ¬ (b ∨ d) ↔ b = false ∧ d = false := by simp

/-- The cycle of a request that one unit serves while the others are idle. -/
theorem WriteCycle.of_unit {value : BitVec 64} {busy done commit done' : Bool} {e : CsrPerform}
    (hstored : s.stored = done) (hrdy : s.csrWriteReadyO i = done)
    (hperf : s.performed i = if commit then [e] else []) (hnxt : (s.step i).stored = done')
    (hidle : s.Idle ↔ busy = false ∧ done = false) (hdown : busy = false → commit = false)
    (hbsy : busy → done = false) (hack : busy = false → done → (s.step i).Idle)
    (hstart : busy = false → done = false →
      done' = false ∧ (s.step i).Serves i.csrAddrI (s.csrWriteValue i))
    (hwait : busy → commit = false → done' = false ∧ (s.step i).Serves i.csrAddrI value)
    (hcom : busy → commit →
      done' ∧ s.Stores i.csrAddrI value e ∧ (s.step i).Serves i.csrAddrI value) :
    WriteCycle s i (s.slowValue i value) := by
  cases busy with
  | false =>
    rw [hdown rfl, if_low] at hperf
    cases done with
    | true => exact .acknowledged hstored hrdy hperf (hack rfl rfl)
    | false =>
      obtain ⟨hd, hs⟩ := hstart rfl rfl
      rw [slowValue, if_pos (hidle.mpr ⟨rfl, rfl⟩)]
      exact .waits hstored hrdy hperf hs (hnxt.trans hd)
  | true =>
    rw [hbsy rfl] at hstored hrdy
    rw [slowValue, if_neg fun h => absurd_low (hidle.mp h).1.symm]
    cases commit with
    | false =>
      obtain ⟨hd, hs⟩ := hwait rfl rfl
      exact .waits hstored hrdy hperf hs (hnxt.trans hd)
    | true =>
      obtain ⟨hd, he, hs⟩ := hcom rfl rfl
      exact .stores hstored hrdy e hperf he hs (hnxt.trans hd)

section Requests

variable {value : BitVec 64} (hacc : s.csrWriteAccept i) (hserves : s.Serves i.csrAddrI value)

include hacc in
theorem satpWriteRequest_eq : s.satpWriteRequest i = (i.csrAddrI == csrSatp) := by
  rw [satpWriteRequest, hacc, Bool.true_and]

include hserves in
/-- In the last cycle of a counter write the port shows the latched address, which is the
one requested. -/
theorem cmuCsrMatch_eq : s.cmuCsrMatch i = counterAddr i.csrAddrI := by
  cases hcom : s.hpmWriteCommit with
  | false =>
    show CmuState.csrMatchO (s.cmuInput i 0) = _
    simp only [cmuInput, hcom, if_low]
    rfl
  | true =>
    have hbsy : s.hpm.hpmWriteBusyQ := by
      rw [hpmWriteCommit, and_eq_true] at hcom
      exact hcom.1
    show CmuState.csrMatchO (s.cmuInput i 0) = _
    simp only [cmuInput, hcom, if_true, (hserves.hpmBusy hbsy).2.1]
    rfl

include hacc hserves in
theorem hpmWriteRequest_eq : s.hpmWriteRequest i = counterAddr i.csrAddrI := by
  rw [hpmWriteRequest, hacc, Bool.true_and, cmuCsrMatch_eq hserves]

include hacc in
theorem pmpCsrWrite_eq : s.pmpCsrWrite i = pmpAddr i.csrAddrI := by
  rw [pmpCsrWrite, hacc, Bool.true_and]
  rfl

include hacc hserves in
/-- When the port is ready. -/
theorem csrWriteReadyO_eq (hext : p.enableExtension = false) : s.csrWriteReadyO i =
      if pmpAddr i.csrAddrI then
        if s.pmpaddrSlow i.csrAddrI then s.pmp.doneQ else !s.pmp.busyQ
      else if i.csrAddrI == csrSatp then s.satp.satpDoneQ
      else if counterAddr i.csrAddrI then s.hpm.hpmWriteDoneQ
      else true := by
  have hsel : extensionCsrSelected i p = false := by simp [extensionCsrSelected, hext]
  have hmat : csrMatchO (pmpInput i false 0) = pmpAddr i.csrAddrI := rfl
  rw [csrWriteReadyO, hsel, hmat, satpWriteRequest_eq hacc, hpmWriteRequest_eq hacc hserves]
  cases hpmp : pmpAddr i.csrAddrI with
  | false => rfl
  | true =>
    have hwr : (s.pmpPort i).csrWriteI := (pmpCsrWrite_eq hacc).trans hpmp
    have hslow : ((s.pmpPort i).csrPmpaddrActive p.pmp &&
        !s.pmp.csrPmpaddrLocked (s.pmpPort i)) = s.pmpaddrSlow i.csrAddrI := rfl
    rw [if_low, if_pos rfl, if_pos rfl, PmpState.csrWriteReadyO, hwr, hslow]
    rfl

include hacc hserves in
/-- SATP rests while another register is written. -/
theorem satp_rests (h : i.csrAddrI ≠ csrSatp) :
    s.satp.satpBusyQ = false ∧ s.satp.satpDoneQ = false ∧ s.satpWriteRequest i = false ∧
      s.satpCommit = false ∧ (s.satpStep i).satpBusyQ = false ∧
        (s.satpStep i).satpDoneQ = false := by
  obtain ⟨hbsy, hdone⟩ := not_up.1 fun hup => h (hserves.satp hup)
  have hreq : s.satpWriteRequest i = false := by
    rw [satpWriteRequest_eq hacc]
    simpa using h
  exact ⟨hbsy, hdone, hreq, by rw [satpCommit, hbsy, Bool.false_and], satp_idle hreq hbsy⟩

include hacc hserves in
theorem hpm_rests (h : counterAddr i.csrAddrI = false) :
    s.hpm.hpmWriteBusyQ = false ∧ s.hpm.hpmWriteDoneQ = false ∧ s.hpmWriteRequest i = false ∧
      s.hpmWriteCommit = false ∧ (s.hpmStep i).hpmWriteBusyQ = false ∧
        (s.hpmStep i).hpmWriteDoneQ = false := by
  obtain ⟨hbsy, hdone⟩ := not_up.1 fun hup => of_down h (hserves.hpm hup)
  have hreq := (hpmWriteRequest_eq hacc hserves).trans h
  exact ⟨hbsy, hdone, hreq, by rw [hpmWriteCommit, hbsy, Bool.false_and], hpm_idle hreq hbsy⟩

include hserves in
theorem pmp_rests (h : s.pmpaddrSlow i.csrAddrI = false) :
    s.pmp.busyQ = false ∧ s.pmp.doneQ = false ∧ s.pmpCommit = false ∧
      (s.pmp.step (s.pmpPort i)).busyQ = false ∧ (s.pmp.step (s.pmpPort i)).doneQ = false := by
  obtain ⟨hbsy, hdone⟩ := not_up.1 fun hup => of_down h (hserves.pmp hup)
  obtain ⟨hbsy', hdone'⟩ := pmp_idle (s := s) (i := i) hbsy (.inr h)
  exact ⟨hbsy, hdone, by rw [pmpCommit, hbsy]; rfl, hbsy', hdone' hdone⟩

include hacc hserves in
/-- A held write of SATP. -/
theorem write_cycle_satp (hext : p.enableExtension = false) (haddr : i.csrAddrI = csrSatp) :
    WriteCycle s i (s.slowValue i value) := by
  have hcounter : counterAddr i.csrAddrI = false := by rw [haddr]; decide
  have hpmp : pmpAddr i.csrAddrI = false := by rw [haddr]; decide
  obtain ⟨hhb, hhd, -, hhc, hhb', hhd'⟩ := hpm_rests hacc hserves hcounter
  obtain ⟨hpb, hpd, hpc, hpb', hpd'⟩ := pmp_rests hserves (pmpaddrSlow_of_not hpmp)
  have hreq : s.satpWriteRequest i := by
    rw [satpWriteRequest_eq hacc, haddr]
    rfl
  have hrdy : s.csrWriteReadyO i = s.satp.satpDoneQ := by
    rw [csrWriteReadyO_eq hacc hserves hext, hpmp, haddr]
    rfl
  have hperf : s.performed i =
      if s.satpCommit then [⟨.satp, csrSatp, s.satp.satpPendingQ⟩] else [] := by
    have hfast : s.fastWrite i = false := by simp [fastWrite, hreq]
    simp [performed, hfast, hhc, hpc]
  have hstored : s.stored = s.satp.satpDoneQ := by simp [stored, hhd, hpd]
  have hstored' : (s.step i).stored = (s.satpStep i).satpDoneQ := by
    simp [stored, step, hhd', hpd']
  -- The other units stay idle, so serving is about SATP alone.
  have hserve : ∀ v, ((s.satpStep i).satpBusyQ → (s.satpStep i).satpDoneQ = false ∧
      (s.satpStep i).satpPendingQ = (s.step i).satpWarl v) → (s.step i).Serves i.csrAddrI v := by
    intro v hv
    exact ⟨fun _ => haddr, of_both_down hhb' hhd', of_both_down hpb' hpd', hv,
      of_down hhb', of_down hpb'⟩
  refine .of_unit hstored hrdy hperf hstored'
    ⟨fun h => ⟨h.satpBusy, h.satpDone⟩, fun h => ⟨h.1, h.2, hhb, hhd, hpb, hpd⟩⟩
    (fun h => by rw [satpCommit, h, Bool.false_and]) (fun h => (hserves.satpBusy h).1) ?_ ?_ ?_ ?_
  · intro hbsy hdone
    obtain ⟨hb', hd'⟩ := satp_acknowledged (i := i) hbsy hdone
    exact ⟨hb', hd', hhb', hhd', hpb', hpd'⟩
  · intro hbsy hdone
    obtain ⟨-, hd', hp', hq'⟩ := satp_start hreq hbsy hdone
    refine ⟨hd', hserve _ fun _ => ⟨hd', ?_⟩⟩
    rw [hp']
    simp only [satpWarl, step, hq']
  · intro hbsy hcom
    obtain ⟨hdone, hpend⟩ := hserves.satpBusy hbsy
    obtain ⟨-, hd', hp', hq'⟩ := satp_waits (i := i) hbsy hdone hcom
    refine ⟨hd', hserve _ fun _ => ⟨hd', ?_⟩⟩
    rw [hp', hpend]
    simp only [satpWarl, step, hq']
  · intro hbsy hcom
    obtain ⟨hb', hd', -⟩ := satp_commits (i := i) hcom
    refine ⟨hd', ?_, hserve _ (of_down hb')⟩
    rw [(hserves.satpBusy hbsy).2, ← haddr]
    exact .satp haddr

include hacc hserves in
/-- A held write of a counter. -/
theorem write_cycle_counter (hext : p.enableExtension = false)
    (haddr : counterAddr i.csrAddrI) : WriteCycle s i (s.slowValue i value) := by
  have hsatp : i.csrAddrI ≠ csrSatp := by
    intro h
    rw [h] at haddr
    exact absurd haddr (by decide)
  have hpmp : pmpAddr i.csrAddrI = false := counterAddr_not_pmp haddr
  obtain ⟨hsb, hsd, -, hsc, hsb', hsd'⟩ := satp_rests hacc hserves hsatp
  obtain ⟨hpb, hpd, hpc, hpb', hpd'⟩ := pmp_rests hserves (pmpaddrSlow_of_not hpmp)
  have hreq : s.hpmWriteRequest i := (hpmWriteRequest_eq hacc hserves).trans haddr
  have hrdy : s.csrWriteReadyO i = s.hpm.hpmWriteDoneQ := by
    rw [csrWriteReadyO_eq hacc hserves hext, hpmp, haddr, if_low,
      if_neg (by simpa using hsatp), if_pos rfl]
  have hperf : s.performed i = if s.hpmWriteCommit then
      [⟨.counter, s.hpm.hpmWriteAddrQ, s.hpm.hpmWriteDataQ⟩] else [] := by
    have hfast : s.fastWrite i = false := by simp [fastWrite, hreq]
    simp [performed, hfast, hsc, hpc]
  have hstored : s.stored = s.hpm.hpmWriteDoneQ := by simp [stored, hsd, hpd]
  have hstored' : (s.step i).stored = (s.hpmStep i).hpmWriteDoneQ := by
    simp [stored, step, hsd', hpd']
  have hserve : ∀ v, ((s.hpmStep i).hpmWriteBusyQ → (s.hpmStep i).hpmWriteDoneQ = false ∧
      (s.hpmStep i).hpmWriteAddrQ = i.csrAddrI ∧ (s.hpmStep i).hpmWriteDataQ = v) →
      (s.step i).Serves i.csrAddrI v := by
    intro v hv
    exact ⟨of_both_down hsb' hsd', fun _ => haddr, of_both_down hpb' hpd',
      of_down hsb', hv, of_down hpb'⟩
  refine .of_unit hstored hrdy hperf hstored'
    ⟨fun h => ⟨h.hpmBusy, h.hpmDone⟩, fun h => ⟨hsb, hsd, h.1, h.2, hpb, hpd⟩⟩
    (fun h => by rw [hpmWriteCommit, h, Bool.false_and]) (fun h => (hserves.hpmBusy h).1)
    ?_ ?_ ?_ ?_
  · intro hbsy hdone
    obtain ⟨hb', hd'⟩ := hpm_acknowledged (i := i) hbsy hdone
    exact ⟨hsb', hsd', hb', hd', hpb', hpd'⟩
  · intro hbsy hdone
    obtain ⟨-, hd', ha', hv'⟩ := hpm_start hreq hbsy hdone
    exact ⟨hd', hserve _ fun _ => ⟨hd', ha', hv'⟩⟩
  · intro hbsy hcom
    obtain ⟨hdone, hlatch, hvalue⟩ := hserves.hpmBusy hbsy
    obtain ⟨-, hd', ha', hv'⟩ := hpm_waits (i := i) hbsy hdone hcom
    exact ⟨hd', hserve _ fun _ => ⟨hd', ha'.trans hlatch, hv'.trans hvalue⟩⟩
  · intro hbsy hcom
    obtain ⟨-, hlatch, hvalue⟩ := hserves.hpmBusy hbsy
    obtain ⟨hb', hd'⟩ := hpm_commits (i := i) hcom
    refine ⟨hd', ?_, hserve _ (of_down hb')⟩
    rw [hlatch, hvalue]
    exact .counter haddr

include hacc hserves in
/-- A held write of an address register whose bounds take long to compute. -/
theorem write_cycle_pmpaddr (hext : p.enableExtension = false)
    (hslow : s.pmpaddrSlow i.csrAddrI) : WriteCycle s i (s.slowValue i value) := by
  have hpmp : pmpAddr i.csrAddrI := pmpaddrSlow_pmpAddr hslow
  have hsatp : i.csrAddrI ≠ csrSatp := by
    intro h
    rw [h] at hpmp
    exact absurd hpmp (by decide)
  have hcounter : counterAddr i.csrAddrI = false := by
    refine eq_false_of_ne_true fun h => ?_
    exact absurd_low ((counterAddr_not_pmp h).symm.trans hpmp)
  obtain ⟨hsb, hsd, -, hsc, hsb', hsd'⟩ := satp_rests hacc hserves hsatp
  obtain ⟨hhb, hhd, -, hhc, hhb', hhd'⟩ := hpm_rests hacc hserves hcounter
  have hwr : s.pmpCsrWrite i := (pmpCsrWrite_eq hacc).trans hpmp
  have hrdy : s.csrWriteReadyO i = s.pmp.doneQ := by
    rw [csrWriteReadyO_eq hacc hserves hext, hpmp, hslow, if_pos rfl, if_pos rfl]
  have hperf : s.performed i = if s.pmpCommit then
      [⟨.pmpaddr, csrPmpaddr0 + s.pmp.entryQ.setWidth 12, s.pmp.pendingQ.setWidth 64⟩]
      else [] := by
    have hfast : s.fastWrite i = false := by simp [fastWrite, hslow]
    simp [performed, hfast, hsc, hhc]
  have hstored : s.stored = s.pmp.doneQ := by simp [stored, hsd, hhd]
  have hstored' : (s.step i).stored = (s.pmp.step (s.pmpPort i)).doneQ := by
    simp [stored, step, hsd', hhd']
  have hserve : ∀ v, (s.pmp.step (s.pmpPort i)).cfgQ = s.pmp.cfgQ →
      ((s.pmp.step (s.pmpPort i)).busyQ → (s.pmp.step (s.pmpPort i)).doneQ = false ∧
        csrPmpaddr0 + (s.pmp.step (s.pmpPort i)).entryQ.setWidth 12 = i.csrAddrI ∧
        (s.pmp.step (s.pmpPort i)).pendingQ = v.setWidth 37) → (s.step i).Serves i.csrAddrI v := by
    intro v hcfg hv
    refine ⟨of_both_down hsb' hsd', of_both_down hhb' hhd', fun _ => ?_, of_down hsb',
      of_down hhb', hv⟩
    rw [pmpaddrSlow_congr (t := s.step i) hcfg]
    exact hslow
  refine .of_unit hstored hrdy hperf hstored'
    ⟨fun h => ⟨h.pmpBusy, h.pmpDone⟩, fun h => ⟨hsb, hsd, hhb, hhd, h.1, h.2⟩⟩
    (fun h => by rw [pmpCommit, h]; rfl) (fun h => (hserves.pmpBusy h).1) ?_ ?_ ?_ ?_
  · intro hbsy hdone
    obtain ⟨hb', hd'⟩ := pmp_acknowledged (i := i) hbsy hdone
    exact ⟨hsb', hsd', hhb', hhd', hb', hd'⟩
  · intro hbsy hdone
    obtain ⟨-, hd', he', hv', hcfg⟩ := pmp_start hwr hslow hbsy hdone
    exact ⟨hd', hserve _ hcfg fun _ => ⟨hd', he', hv'⟩⟩
  · intro hbsy hcom
    obtain ⟨hdone, hent, hvalue⟩ := hserves.pmpBusy hbsy
    obtain ⟨-, hd', he', hv', hcfg⟩ := pmp_waits (i := i) hbsy hdone hcom
    refine ⟨hd', hserve _ hcfg fun _ => ⟨hd', ?_, hv'.trans hvalue⟩⟩
    rw [he', hent]
  · intro hbsy hcom
    obtain ⟨-, hent, hvalue⟩ := hserves.pmpBusy hbsy
    obtain ⟨hb', hd', hcfg⟩ := pmp_commits (i := i) hcom
    refine ⟨hd', ?_, hserve _ hcfg (of_down hb')⟩
    rw [hent, hvalue]
    exact .pmpaddr hslow

include hacc hserves in
/-- Every cycle of a held request. -/
theorem write_cycle (hext : p.enableExtension = false)
    (hquiet : i.trapEnterI = false ∧ i.mretI = false ∧ i.sretI = false) :
    WriteCycle s i (s.slowValue i value) := by
  by_cases hsatp : i.csrAddrI = csrSatp
  · exact write_cycle_satp hacc hserves hext hsatp
  cases hcounter : counterAddr i.csrAddrI with
  | true => exact write_cycle_counter hacc hserves hext hcounter
  | false =>
  cases hslow : s.pmpaddrSlow i.csrAddrI with
  | true => exact write_cycle_pmpaddr hacc hserves hext hslow
  | false =>
    obtain ⟨hsb, hsd, hsatpReq, hsc, hsb', hsd'⟩ := satp_rests hacc hserves hsatp
    obtain ⟨hhb, hhd, hhpmReq, hhc, hhb', hhd'⟩ := hpm_rests hacc hserves hcounter
    obtain ⟨hpb, hpd, hpc, hpb', hpd'⟩ := pmp_rests hserves hslow
    have hrdy : s.csrWriteReadyO i := by
      rw [csrWriteReadyO_eq hacc hserves hext, hslow, hcounter, hpb,
        if_neg (show ¬ (i.csrAddrI == csrSatp) by simpa using hsatp)]
      cases pmpAddr i.csrAddrI <;> rfl
    have hperf : s.performed i = [⟨.fast, i.csrAddrI, s.csrWriteValue i⟩] := by
      have hfast : s.fastWrite i := by
        simp [fastWrite, hacc, hquiet.1, hquiet.2.1, hquiet.2.2, hsatpReq, hhpmReq, hslow, hpb, hpd]
      simp [performed, hfast, hsc, hhc, hpc]
    exact .fast ⟨hsb, hsd, hhb, hhd, hpb, hpd⟩ hrdy hperf ⟨hsb', hsd', hhb', hhd', hpb', hpd'⟩

end Requests

/-- A cycle without a request keeps the port idle and stores nothing. -/
theorem idle_cycle (hidle : s.Idle) (hwr : i.csrWriteI = false) :
    s.performed i = [] ∧ (s.step i).Idle := by
  have hacc : s.csrWriteAccept i = false := by simp [csrWriteAccept, hwr]
  obtain ⟨hsc, hhc, hpc⟩ := hidle.no_commit
  constructor
  · have hfast : s.fastWrite i = false := by simp [fastWrite, hacc]
    simp [performed, hfast, hsc, hhc, hpc]
  · obtain ⟨hsb, hsd⟩ := satp_idle (s := s) (i := i)
      (by simp [satpWriteRequest, hacc]) hidle.satpBusy
    obtain ⟨hhb, hhd⟩ := hpm_idle (s := s) (i := i) (by simp [hpmWriteRequest, hacc]) hidle.hpmBusy
    obtain ⟨hpb, hpd⟩ := pmp_idle (s := s) (i := i) hidle.pmpBusy
      (.inl (by simp [pmpCsrWrite, hacc]))
    exact ⟨hsb, hsd, hhb, hhd, hpb, hpd hidle.pmpDone⟩

end CsrState

end OpenRV64
