/-
The counter block: cycle and instruction counters, programmable event counters,
and the counter-enable registers, behind their own small CSR port.
-/
import OpenRV64.Pmp

namespace OpenRV64

abbrev privS : BitVec 2 := 0b01
abbrev privU : BitVec 2 := 0b00

abbrev csrScounteren : BitVec 12 := 0x106
abbrev csrMcounteren : BitVec 12 := 0x306
abbrev csrMcountinhibit : BitVec 12 := 0x320
abbrev csrMhpmevent3 : BitVec 12 := 0x323
abbrev csrMhpmevent31 : BitVec 12 := 0x33f
abbrev csrMcycle : BitVec 12 := 0xb00
abbrev csrMinstret : BitVec 12 := 0xb02
abbrev csrMhpmcounter3 : BitVec 12 := 0xb03
abbrev csrMhpmcounter31 : BitVec 12 := 0xb1f
abbrev csrCycle : BitVec 12 := 0xc00
abbrev csrTime : BitVec 12 := 0xc01
abbrev csrInstret : BitVec 12 := 0xc02
abbrev csrHpmcounter3 : BitVec 12 := 0xc03
abbrev csrHpmcounter31 : BitVec 12 := 0xc1f

/-- The number of platform events a selector can name. -/
abbrev cmuEventCount : ℕ := 38

structure CmuParams where
  hpmCounters : ℕ
  hpm_le : hpmCounters ≤ 29

structure CmuState (p : CmuParams) where
  mcounterenQ : BitVec 64
  scounterenQ : BitVec 64
  mcountinhibitQ : BitVec 64
  mcycleQ : BitVec 64
  minstretQ : BitVec 64
  mhpmcounterQ : Fin p.hpmCounters → BitVec 64
  mhpmeventQ : Fin p.hpmCounters → BitVec 64
  eventCaptureQ : BitVec cmuEventCount
  eventPulsesQ : BitVec cmuEventCount
  hpmSelectorDeadQ : Fin p.hpmCounters → BitVec 2

structure CmuInput where
  csrAddrI : BitVec 12
  csrWriteI : Bool
  csrWdataI : BitVec 64
  privModeI : BitVec 2
  retireCountI : BitVec 2
  eventPulsesI : BitVec cmuEventCount

namespace CmuParams

variable (p : CmuParams)

def hpmEventMask : BitVec 64 := ((1 : BitVec 64) <<< cmuEventCount) - 1

def hpmCounterMask : BitVec 64 := (((1 : BitVec 64) <<< p.hpmCounters) - 1) <<< 3

def counterEnableMask : BitVec 64 := 1 ||| 2 ||| 4 ||| p.hpmCounterMask

def countinhibitMask : BitVec 64 := 1 ||| 4 ||| p.hpmCounterMask

end CmuParams

namespace CmuInput

variable (i : CmuInput)

def csrIsMhpmcounter : Bool :=
  decide (csrMhpmcounter3 ≤ i.csrAddrI) && decide (i.csrAddrI ≤ csrMhpmcounter31)

def csrIsMhpmevent : Bool :=
  decide (csrMhpmevent3 ≤ i.csrAddrI) && decide (i.csrAddrI ≤ csrMhpmevent31)

def csrIsHpmcounter : Bool :=
  decide (csrHpmcounter3 ≤ i.csrAddrI) && decide (i.csrAddrI ≤ csrHpmcounter31)

def csrCounterNumber : BitVec 5 := i.csrAddrI.setWidth 5

def csrHpmIndex : BitVec 5 := i.csrCounterNumber - 3

def csrHpmImplemented (p : CmuParams) : Bool :=
  decide (3 ≤ i.csrCounterNumber.toNat) && decide (i.csrCounterNumber.toNat < p.hpmCounters + 3)

end CmuInput

/-- What a CSR port answers to one address. -/
@[ext] structure CsrAnswer where
  rdata : BitVec 64
  valid : Bool
  writable : Bool

namespace CmuState

variable {p : CmuParams} (s : CmuState p) (i : CmuInput)

def counterAliasAccessOk : Bool :=
  i.privModeI == privM ||
    (i.privModeI == privS && s.mcounterenQ.getLsbD i.csrCounterNumber.toNat) ||
    (i.privModeI == privU && s.mcounterenQ.getLsbD i.csrCounterNumber.toNat &&
      s.scounterenQ.getLsbD i.csrCounterNumber.toNat)

/-- Bit 0 is the cycle event, which pulses in every cycle. -/
def activeEventPulses : BitVec cmuEventCount := s.eventPulsesQ ||| 1

def minstretReadValue : BitVec 64 :=
  s.minstretQ + if s.mcountinhibitQ.getLsbD 2 then 0 else i.retireCountI.setWidth 64

def countEvents (events : BitVec cmuEventCount) : BitVec 6 :=
  (List.range cmuEventCount).foldl (fun n e => n + (BitVec.ofBool (events.getLsbD e)).setWidth 6) 0

def hpmIncrement (k : Fin p.hpmCounters) : BitVec 6 :=
  countEvents (s.activeEventPulses &&& (s.mhpmeventQ k).setWidth cmuEventCount)

def hpmNextValue (k : Fin p.hpmCounters) : BitVec 64 :=
  s.mhpmcounterQ k + (s.hpmIncrement k).setWidth 64

/-- Entry `csr_hpm_index` of a counter array; an index without storage reads zero. -/
def hpmEntry (q : Fin p.hpmCounters → BitVec 64) : BitVec 64 :=
  if hk : i.csrHpmIndex.toNat < p.hpmCounters then q ⟨_, hk⟩ else 0

/-- Whether the address is one of the counter block's own. -/
def csrMatchO : Bool :=
  i.csrAddrI == csrScounteren || i.csrAddrI == csrMcounteren ||
    i.csrAddrI == csrMcountinhibit || i.csrAddrI == csrMcycle ||
    i.csrAddrI == csrMinstret || i.csrAddrI == csrCycle || i.csrAddrI == csrTime ||
    i.csrAddrI == csrInstret || i.csrIsMhpmcounter || i.csrIsMhpmevent || i.csrIsHpmcounter

/-- A register that only M-mode reads and writes. -/
def machineAnswer (rdata : BitVec 64) : CsrAnswer where
  rdata := rdata
  valid := i.privModeI == privM
  writable := i.privModeI == privM

def access : CsrAnswer :=
  if i.csrAddrI == csrScounteren then
    { rdata := s.scounterenQ
      valid := decide (privS ≤ i.privModeI)
      writable := decide (privS ≤ i.privModeI) }
  else if i.csrAddrI == csrMcounteren then machineAnswer i s.mcounterenQ
  else if i.csrAddrI == csrMcountinhibit then machineAnswer i s.mcountinhibitQ
  else if i.csrAddrI == csrMcycle then machineAnswer i s.mcycleQ
  else if i.csrAddrI == csrMinstret then machineAnswer i (s.minstretReadValue i)
  else if i.csrAddrI == csrCycle then
    { rdata := s.mcycleQ, valid := s.counterAliasAccessOk i, writable := false }
  else if i.csrAddrI == csrTime then
    { rdata := s.mcycleQ, valid := s.counterAliasAccessOk i, writable := false }
  else if i.csrAddrI == csrInstret then
    { rdata := s.minstretReadValue i, valid := s.counterAliasAccessOk i, writable := false }
  else if i.csrIsMhpmcounter then
    { rdata := if i.csrHpmImplemented p then hpmEntry i s.mhpmcounterQ else 0
      valid := i.privModeI == privM
      writable := i.privModeI == privM && i.csrHpmImplemented p }
  else if i.csrIsMhpmevent then
    { rdata := if i.csrHpmImplemented p then hpmEntry i s.mhpmeventQ else 0
      valid := i.privModeI == privM
      writable := i.privModeI == privM && i.csrHpmImplemented p }
  else if i.csrIsHpmcounter then
    { rdata := if i.csrHpmImplemented p then hpmEntry i s.mhpmcounterQ else 0
      valid := s.counterAliasAccessOk i
      writable := false }
  else { rdata := 0, valid := false, writable := false }

def csrWriteAccept : Bool :=
  i.csrWriteI && csrMatchO i && (s.access i).valid && (s.access i).writable

/-- The write in progress names the selector of counter `k`. -/
def selectorWrite (k : Fin p.hpmCounters) : Bool :=
  s.csrWriteAccept i && i.csrIsMhpmevent && i.csrHpmImplemented p && i.csrHpmIndex.toNat == k.val

def counterWrite (k : Fin p.hpmCounters) : Bool :=
  s.csrWriteAccept i && i.csrIsMhpmcounter && i.csrHpmImplemented p && i.csrHpmIndex.toNat == k.val

/-- The counters advance whether or not a write is going on; a write overrides them. -/
def counted : CmuState p :=
  { s with
    eventCaptureQ := i.eventPulsesI
    eventPulsesQ := s.eventCaptureQ
    mcycleQ := if !s.mcountinhibitQ.getLsbD 0 then s.mcycleQ + 1 else s.mcycleQ
    minstretQ :=
      if i.retireCountI != 0 && !s.mcountinhibitQ.getLsbD 2 then
        s.minstretQ + i.retireCountI.setWidth 64
      else s.minstretQ
    hpmSelectorDeadQ := fun k =>
      if s.selectorWrite i k then 3
      else if s.counterWrite i k then 0
      else if s.hpmSelectorDeadQ k != 0 then s.hpmSelectorDeadQ k - 1
      else s.hpmSelectorDeadQ k
    mhpmcounterQ := fun k =>
      if s.selectorWrite i k || s.counterWrite i k || s.hpmSelectorDeadQ k != 0 then
        s.mhpmcounterQ k
      else if !s.mcountinhibitQ.getLsbD (k.val + 3) && s.hpmIncrement k != 0 then
        s.hpmNextValue k
      else s.mhpmcounterQ k }

/-- The accepted write on top of what the counters did. -/
def written (next : CmuState p) : CmuState p :=
  if i.csrAddrI == csrScounteren then
    { next with scounterenQ := i.csrWdataI &&& p.counterEnableMask }
  else if i.csrAddrI == csrMcounteren then
    { next with mcounterenQ := i.csrWdataI &&& p.counterEnableMask }
  else if i.csrAddrI == csrMcountinhibit then
    { next with mcountinhibitQ := i.csrWdataI &&& p.countinhibitMask }
  else if i.csrAddrI == csrMcycle then { next with mcycleQ := i.csrWdataI }
  else if i.csrAddrI == csrMinstret then { next with minstretQ := i.csrWdataI }
  else if i.csrIsMhpmcounter && i.csrHpmImplemented p then
    { next with
      mhpmcounterQ := fun k =>
        if i.csrHpmIndex.toNat = k.val then i.csrWdataI else next.mhpmcounterQ k }
  else if i.csrIsMhpmevent && i.csrHpmImplemented p then
    { next with
      mhpmeventQ := fun k =>
        if i.csrHpmIndex.toNat = k.val then i.csrWdataI &&& CmuParams.hpmEventMask
        else next.mhpmeventQ k }
  else next

/-- One clock edge of `openrv64_cmu`. -/
def step : CmuState p :=
  if s.csrWriteAccept i then written i (s.counted i) else s.counted i

/-- What reset leaves behind. -/
def reset : CmuState p where
  mcounterenQ := 0
  scounterenQ := 0
  mcountinhibitQ := 0
  mcycleQ := 0
  minstretQ := 0
  mhpmcounterQ _ := 0
  mhpmeventQ _ := 0
  eventCaptureQ := 0
  eventPulsesQ := 0
  hpmSelectorDeadQ _ := 0

/-- Everything but `scounteren`, the one register that is not machine-only. -/
def machine : CmuState p := { s with scounterenQ := 0 }

end CmuState

end OpenRV64
