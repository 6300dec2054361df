/-
The physical memory protection unit: WARL configuration bytes with locks, bounds
recomputed one bit a cycle when an address register is written, and the
first-match decision on the request path.
-/
import OpenRV64.Napot
import OpenRV64.SyncRun
import Mathlib.Data.List.FinRange

namespace OpenRV64

open BitVec (getLsbD_append ofBool getLsbD_extractLsb')

/-- Sixteen entries are visible; the lowest `activeEntries` have storage. -/
structure PmpParams where
  activeEntries : ℕ
  active_pos : 1 ≤ activeEntries
  active_le : activeEntries ≤ 16

structure PmpState (p : PmpParams) where
  cfgQ : Fin p.activeEntries → BitVec 8
  addrQ : Fin p.activeEntries → BitVec 37
  regionLowQ : Fin p.activeEntries → BitVec 39
  regionHighQ : Fin p.activeEntries → BitVec 40
  busyQ : Bool
  addPhaseQ : Bool
  doneQ : Bool
  entryQ : BitVec 4
  pendingQ : BitVec 37
  scanQ : BitVec 37
  bitCountQ : BitVec 6
  addressQ : BitVec 39
  maskQ : BitVec 39
  lowQ : BitVec 39
  addSourceQ : BitVec 40
  highWorkQ : BitVec 40
  addCarryQ : Bool

structure PmpInput where
  csrAddrI : BitVec 12
  csrWriteI : Bool
  csrWdataI : BitVec 64
  busValidI : Bool
  busAddrI : BitVec 64
  busSizeI : BitVec 3
  busWriteI : Bool
  busExecI : Bool
  busPrivModeI : BitVec 2

abbrev privM : BitVec 2 := 0b11
abbrev pmpANapot : BitVec 2 := 0b11
abbrev pmpAOff : BitVec 2 := 0b00
abbrev csrPmpcfg0 : BitVec 12 := 0x3a0
abbrev csrPmpcfg2 : BitVec 12 := 0x3a2
abbrev csrPmpaddr0 : BitVec 12 := 0x3b0

/-- The fields of a configuration byte. -/
def cfgL (cfg : BitVec 8) : Bool := cfg.getLsbD 7
def cfgA (cfg : BitVec 8) : BitVec 2 := cfg.extractLsb' 3 2
def cfgX (cfg : BitVec 8) : Bool := cfg.getLsbD 2
def cfgW (cfg : BitVec 8) : Bool := cfg.getLsbD 1
def cfgR (cfg : BitVec 8) : Bool := cfg.getLsbD 0

/-- TOR and NA4 coerce to OFF, and write permission needs read permission. -/
def pmpcfgWarl (cfg : BitVec 8) : BitVec 8 :=
  let supportedMode : BitVec 2 := if cfgA cfg = pmpANapot then pmpANapot else pmpAOff
  BitVec.ofBool (cfgL cfg) ++ (0 : BitVec 2) ++ supportedMode ++
    BitVec.ofBool (cfgX cfg) ++ BitVec.ofBool (cfgW cfg && cfgR cfg) ++ BitVec.ofBool (cfgR cfg)

section Warl

variable (cfg : BitVec 8)

@[simp] theorem cfgL_warl : cfgL (pmpcfgWarl cfg) = cfgL cfg := by
  simp only [cfgL, pmpcfgWarl, getLsbD_append]
  cases h : cfg.getLsbD 7 <;> rfl

@[simp] theorem cfgW_warl : cfgW (pmpcfgWarl cfg) = (cfgW cfg && cfgR cfg) := by
  simp only [cfgW, cfgR, pmpcfgWarl, getLsbD_append]
  cases h : (cfg.getLsbD 1 && cfg.getLsbD 0) <;> rfl

@[simp] theorem cfgX_warl : cfgX (pmpcfgWarl cfg) = cfgX cfg := by
  simp only [cfgX, pmpcfgWarl, getLsbD_append]
  cases h : cfg.getLsbD 2 <;> rfl

@[simp] theorem cfgR_warl : cfgR (pmpcfgWarl cfg) = cfgR cfg := by
  simp only [cfgR, pmpcfgWarl, getLsbD_append]
  cases h : cfg.getLsbD 0 <;> rfl

theorem cfgA_warl :
    cfgA (pmpcfgWarl cfg) = if cfgA cfg = pmpANapot then pmpANapot else pmpAOff := by
  have hbit : ∀ j < 2, (cfgA (pmpcfgWarl cfg)).getLsbD j =
      (if cfgA cfg = pmpANapot then pmpANapot else pmpAOff).getLsbD j := by
    intro j hj
    have hj' : j = 0 ∨ j = 1 := by omega
    by_cases hmode : cfgA cfg = pmpANapot
    · rw [if_pos hmode, pmpcfgWarl, if_pos hmode]
      rcases hj' with rfl | rfl
      · simp only [cfgA, getLsbD_extractLsb', getLsbD_append]
        rfl
      · simp only [cfgA, getLsbD_extractLsb', getLsbD_append]
        rfl
    rw [if_neg hmode, pmpcfgWarl, if_neg hmode]
    rcases hj' with rfl | rfl
    · simp only [cfgA, getLsbD_extractLsb', getLsbD_append]
      rfl
    · simp only [cfgA, getLsbD_extractLsb', getLsbD_append]
      rfl
  exact BitVec.eq_of_getLsbD_eq hbit

end Warl

namespace PmpInput

variable (i : PmpInput)

def csrPmpaddrValue : BitVec 37 := i.csrWdataI.setWidth 37

def csrPmpaddrMatch : Bool :=
  decide (csrPmpaddr0 ≤ i.csrAddrI) && decide (i.csrAddrI < csrPmpaddr0 + 16)

def csrPmpaddrEntry : BitVec 4 := (i.csrAddrI - csrPmpaddr0).setWidth 4

def csrPmpaddrActive (p : PmpParams) : Bool :=
  i.csrPmpaddrMatch && decide (i.csrPmpaddrEntry.toNat < p.activeEntries)

/-- Byte `k` of the value being written. -/
def wdataByte (k : ℕ) : BitVec 8 := i.csrWdataI.extractLsb' (k * 8) 8

end PmpInput

namespace PmpState

variable {p : PmpParams} (s : PmpState p) (i : PmpInput)

def csrPmpaddrLocked : Bool :=
  (List.finRange p.activeEntries).any fun e =>
    decide (i.csrPmpaddrEntry.toNat = e.val) && cfgL (s.cfgQ e)

def pmpaddrStart : Bool :=
  i.csrWriteI && i.csrPmpaddrActive p && !s.csrPmpaddrLocked i && !s.busyQ && !s.doneQ

def scanMaskNext : BitVec 39 := (s.maskQ <<< 1) ||| 1

def addSum : Bool := s.addSourceQ.getLsbD 0 ^^ s.addCarryQ

def addCarryNext : Bool := s.addSourceQ.getLsbD 0 && s.addCarryQ

def highNext : BitVec 40 := BitVec.ofBool s.addSum ++ s.highWorkQ.extractLsb' 1 39

def csrBusyO : Bool := s.busyQ

def csrWriteReadyO : Bool :=
  if !i.csrWriteI then true
  else if i.csrPmpaddrActive p && !s.csrPmpaddrLocked i then s.doneQ
  else !s.busyQ

/-- An address register as it reads: a NAPOT entry shows the ones its grain forces, any
other mode the zeros. -/
def pmpaddrReadValue (addr : BitVec 37) (mode : BitVec 2) : BitVec 64 :=
  (if mode = pmpANapot then addr ||| 0x1ff else addr &&& ~~~(0x3ff : BitVec 37)).setWidth 64

/-- The configuration bytes of entries `first` through `first + 7`. -/
def pmpcfgReadValue (first : ℕ) : BitVec 64 :=
  (List.finRange p.activeEntries).foldl
    (fun word e =>
      if first ≤ e.val ∧ e.val < first + 8 then
        word ||| ((s.cfgQ e).setWidth 64 <<< ((e.val - first) * 8))
      else word) 0

def csrMatchO : Bool := i.csrAddrI == csrPmpcfg0 || i.csrAddrI == csrPmpcfg2 || i.csrPmpaddrMatch

def csrRdataO : BitVec 64 :=
  if i.csrAddrI == csrPmpcfg0 then s.pmpcfgReadValue 0
  else if i.csrAddrI == csrPmpcfg2 then s.pmpcfgReadValue 8
  else if i.csrPmpaddrMatch then
    if h : i.csrPmpaddrEntry.toNat < p.activeEntries then
      pmpaddrReadValue (s.addrQ ⟨_, h⟩) (cfgA (s.cfgQ ⟨_, h⟩))
    else 0
  else 0

/-- The bounds an access is compared with are one bit wider than an address, so that
neither end wraps. -/
def accessLow : BitVec 40 := (i.busAddrI.setWidth 39).setWidth 40
def accessHigh : BitVec 40 := accessLow i + ((1 : BitVec 40) <<< i.busSizeI.toNat)
def accessRepresentable : Bool := i.busAddrI.extractLsb' 39 25 == 0

def permitted (cfg : BitVec 8) : Bool :=
  if i.busExecI then cfgX cfg else if i.busWriteI then cfgW cfg else cfgR cfg

def overlap (e : Fin p.activeEntries) : Bool :=
  accessRepresentable i && cfgA (s.cfgQ e) == pmpANapot && decide (accessLow i < s.regionHighQ e) &&
    decide ((s.regionLowQ e).setWidth 40 < accessHigh i)

def entryAllow (e : Fin p.activeEntries) : Bool :=
  decide ((s.regionLowQ e).setWidth 40 ≤ accessLow i) && decide (accessHigh i ≤ s.regionHighQ e) &&
    ((i.busPrivModeI == privM && !cfgL (s.cfgQ e)) || permitted i (s.cfgQ e))

/-- The lowest-numbered overlapping entry decides. -/
def pmpAllow : Bool :=
  match (List.finRange p.activeEntries).find? (s.overlap i) with
  | some e => s.entryAllow i e
  | none => i.busPrivModeI == privM

def busAllowO : Bool := !i.busValidI || s.pmpAllow i

/-- One cycle of the trailing-one scan. -/
def scanStep : PmpState p :=
  if !s.scanQ.getLsbD 0 || s.bitCountQ == 36 then
    { s with
      lowQ := s.addressQ &&& ~~~s.scanMaskNext
      addSourceQ := (s.addressQ ||| s.scanMaskNext).setWidth 40
      highWorkQ := 0
      addCarryQ := true
      bitCountQ := 0
      addPhaseQ := true }
  else
    { s with
      scanQ := s.scanQ >>> 1
      maskQ := s.scanMaskNext
      bitCountQ := s.bitCountQ + 1 }

/-- One cycle of the increment of the high bound.  Its last bit commits the address and
both bounds together. -/
def addStep : PmpState p :=
  let shifted :=
    { s with
      addSourceQ := s.addSourceQ >>> 1
      highWorkQ := s.highNext
      addCarryQ := s.addCarryNext }
  if s.bitCountQ == 39 then
    { shifted with
      addrQ := fun e => if e.val = s.entryQ.toNat then s.pendingQ else s.addrQ e
      regionLowQ := fun e => if e.val = s.entryQ.toNat then s.lowQ else s.regionLowQ e
      regionHighQ := fun e =>
        if e.val = s.entryQ.toNat then s.highNext else s.regionHighQ e
      busyQ := false
      addPhaseQ := false
      doneQ := true }
  else
    { shifted with bitCountQ := s.bitCountQ + 1 }

/-- The first cycle of an address write. -/
def startStep : PmpState p :=
  { s with
    busyQ := true
    addPhaseQ := false
    entryQ := i.csrPmpaddrEntry
    pendingQ := i.csrPmpaddrValue
    scanQ := i.csrPmpaddrValue ||| 0x1ff
    bitCountQ := 0
    addressQ := i.csrPmpaddrValue ++ (0 : BitVec 2)
    maskQ := 3 }

/-- Write the unlocked bytes among entries `first` through `first + 7`. -/
def cfgStep (first : ℕ) : PmpState p :=
  { s with
    cfgQ := fun e =>
      if first ≤ e.val ∧ e.val < first + 8 ∧ !cfgL (s.cfgQ e) then
        pmpcfgWarl (i.wdataByte (e.val - first))
      else s.cfgQ e }

/-- One clock edge of `openrv64_rv64i_pmp`. -/
def step : PmpState p :=
  let held := { s with doneQ := if !i.csrWriteI || s.doneQ then false else s.doneQ }
  if s.busyQ then
    if !s.addPhaseQ then held.scanStep else held.addStep
  else if s.pmpaddrStart i then held.startStep i
  else if i.csrWriteI && !s.doneQ && i.csrAddrI == csrPmpcfg0 then held.cfgStep i 0
  else if i.csrWriteI && !s.doneQ && i.csrAddrI == csrPmpcfg2 then held.cfgStep i 8
  else held

/-- What reset leaves behind: no entry matches, and the bounds are those of address zero. -/
def reset : PmpState p where
  cfgQ _ := 0
  addrQ _ := 0
  regionLowQ _ := 0
  regionHighQ _ := 4096
  busyQ := false
  addPhaseQ := false
  doneQ := false
  entryQ := 0
  pendingQ := 0
  scanQ := 0
  bitCountQ := 0
  addressQ := 0
  maskQ := 0
  lowQ := 0
  addSourceQ := 0
  highWorkQ := 0
  addCarryQ := false

end PmpState

/-- `openrv64_rv64i_pmp` from reset. -/
def pmpCircuit (p : PmpParams) : Sync.Circuit (PmpState p) PmpInput where
  Init s := s = PmpState.reset
  step := PmpState.step

end OpenRV64
