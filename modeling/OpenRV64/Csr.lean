/-
The architectural CSR block: trap entry and return, the CSR read and write ports
with their privilege checks, the delegated interrupt decision, and the slow
writes of SATP and of the counter block.
-/
import OpenRV64.Cmu

namespace OpenRV64

abbrev csrSstatus : BitVec 12 := 0x100
abbrev csrSie : BitVec 12 := 0x104
abbrev csrStvec : BitVec 12 := 0x105
abbrev csrSscratch : BitVec 12 := 0x140
abbrev csrSepc : BitVec 12 := 0x141
abbrev csrScause : BitVec 12 := 0x142
abbrev csrStval : BitVec 12 := 0x143
abbrev csrSip : BitVec 12 := 0x144
abbrev csrSatp : BitVec 12 := 0x180
abbrev csrMstatus : BitVec 12 := 0x300
abbrev csrMisa : BitVec 12 := 0x301
abbrev csrMedeleg : BitVec 12 := 0x302
abbrev csrMideleg : BitVec 12 := 0x303
abbrev csrMie : BitVec 12 := 0x304
abbrev csrMtvec : BitVec 12 := 0x305
abbrev csrMscratch : BitVec 12 := 0x340
abbrev csrMepc : BitVec 12 := 0x341
abbrev csrMcause : BitVec 12 := 0x342
abbrev csrMtval : BitVec 12 := 0x343
abbrev csrMip : BitVec 12 := 0x344
abbrev csrMvendorid : BitVec 12 := 0xf11
abbrev csrMarchid : BitVec 12 := 0xf12
abbrev csrMimpid : BitVec 12 := 0xf13
abbrev csrMhartid : BitVec 12 := 0xf14
abbrev csrMconfigptr : BitVec 12 := 0xf15

abbrev mstatusSie : ℕ := 1
abbrev mstatusMie : ℕ := 3
abbrev mstatusSpie : ℕ := 5
abbrev mstatusMpie : ℕ := 7
abbrev mstatusSpp : ℕ := 8
/-- The low bit of the two-bit field MPP. -/
abbrev mstatusMpp : ℕ := 11
abbrev mstatusMprv : ℕ := 17
abbrev mstatusSum : ℕ := 18
abbrev mstatusMxr : ℕ := 19
abbrev mstatusTvm : ℕ := 20
abbrev mstatusTw : ℕ := 21
abbrev mstatusTsr : ℕ := 22
abbrev mstatusUxl : ℕ := 32
abbrev mstatusSxl : ℕ := 34

abbrev mipSsip : ℕ := 1
abbrev mipMsip : ℕ := 3
abbrev mipStip : ℕ := 5
abbrev mipMtip : ℕ := 7
abbrev mipSeip : ℕ := 9
abbrev mipMeip : ℕ := 11

/-- The value with bit `k` alone set. -/
def bitAt (k : ℕ) : BitVec 64 := (1 : BitVec 64) <<< k

def mipSMask : BitVec 64 := bitAt mipSsip ||| bitAt mipStip ||| bitAt mipSeip
def mipMMask : BitVec 64 := bitAt mipMsip ||| bitAt mipMtip ||| bitAt mipMeip
def mipMask : BitVec 64 := mipSMask ||| mipMMask
/-- M-mode firmware uses mip.STIP to inject a timer event into S-mode. -/
def mipSwWritableMask : BitVec 64 := bitAt mipSsip ||| bitAt mipStip
def midelegMask : BitVec 64 := mipSMask

/-- Every exception cause that can be delegated: 0 to 9, 12, 13 and 15. -/
def medelegMask : BitVec 64 :=
  [0, 1, 2, 3, 4, 5, 6, 7, 8, 9, 12, 13, 15].foldl (fun mask cause => mask ||| bitAt cause) 0

def sstatusRwMask : BitVec 64 :=
  bitAt mstatusSie ||| bitAt mstatusSpie ||| bitAt mstatusSpp ||| bitAt mstatusSum |||
    bitAt mstatusMxr

def sstatusReadMask : BitVec 64 := sstatusRwMask ||| ((3 : BitVec 64) <<< 32)

/-- `x` with bit `k` assigned. -/
def assignBit (x : BitVec 64) (k : ℕ) (b : Bool) : BitVec 64 :=
  if b then x ||| bitAt k else x &&& ~~~bitAt k

/-- `x` with the two-bit field whose low bit is `k` assigned. -/
def assignField (x : BitVec 64) (k : ℕ) (v : BitVec 2) : BitVec 64 :=
  assignBit (assignBit x k (v.getLsbD 0)) (k + 1) (v.getLsbD 1)

/-- The two-bit field whose low bit is `k`. -/
def field (x : BitVec 64) (k : ℕ) : BitVec 2 := x.extractLsb' k 2

/-- A value with its two low bits cleared. -/
def aligned (x : BitVec 64) : BitVec 64 := x.extractLsb' 2 62 ++ (0 : BitVec 2)

/-- A trap vector: the base is aligned and the mode is direct or vectored. -/
def tvecWarl (x : BitVec 64) : BitVec 64 :=
  x.extractLsb' 2 62 ++ if x.extractLsb' 0 2 = (1 : BitVec 2) then (1 : BitVec 2) else 0

/-- The parameters of `openrv64_rv64i_csrs`. -/
structure CsrParams where
  enableRv64m : Bool
  enableRv64a : Bool
  enableExtension : Bool
  hartId : BitVec 64
  cmu : CmuParams
  pmp : PmpParams

namespace CsrParams

def misaValue (p : CsrParams) : BitVec 64 :=
  ((2 : BitVec 64) <<< 62) ||| (if p.enableRv64a then bitAt 0 else 0) ||| bitAt 8 |||
    (if p.enableRv64m then bitAt 12 else 0) ||| bitAt 18 ||| bitAt 20

end CsrParams

/-- The registers a trap, a return or a fast CSR write updates. -/
@[ext] structure TrapRegs where
  mstatusQ : BitVec 64
  medelegQ : BitVec 64
  midelegQ : BitVec 64
  mieQ : BitVec 64
  mtvecQ : BitVec 64
  mscratchQ : BitVec 64
  mepcQ : BitVec 64
  mcauseQ : BitVec 64
  mtvalQ : BitVec 64
  mipSwQ : BitVec 64
  stvecQ : BitVec 64
  sscratchQ : BitVec 64
  sepcQ : BitVec 64
  scauseQ : BitVec 64
  stvalQ : BitVec 64
  privModeQ : BitVec 2

/-- SATP and the write to it that is under way. -/
structure SatpRegs where
  satpQ : BitVec 64
  satpPendingQ : BitVec 64
  satpCountQ : BitVec 5
  satpBusyQ : Bool
  satpDoneQ : Bool

/-- The write to the counter block that is under way. -/
structure HpmRegs where
  hpmWriteCountQ : BitVec 2
  hpmWriteBusyQ : Bool
  hpmWriteDoneQ : Bool
  hpmWriteAddrQ : BitVec 12
  hpmWriteDataQ : BitVec 64

structure CsrState (p : CsrParams) where
  regs : TrapRegs
  satp : SatpRegs
  hpm : HpmRegs
  cmu : CmuState p.cmu
  pmp : PmpState p.pmp

structure CsrInput where
  csrAddrI : BitVec 12
  csrWriteI : Bool
  csrOpI : BitVec 3
  csrWdataI : BitVec 64
  extensionCsrSelectedI : Bool
  extensionCsrValidI : Bool
  extensionCsrWritableI : Bool
  extensionCsrRdataI : BitVec 64
  extensionCsrWriteReadyI : Bool
  extensionMisaBitsI : BitVec 64
  extensionMstatusBitsI : BitVec 64
  extensionSstatusBitsI : BitVec 64
  trapEnterI : Bool
  trapInterruptI : Bool
  trapCauseI : BitVec 5
  trapPcI : BitVec 64
  trapTvalI : BitVec 64
  mretI : Bool
  sretI : Bool
  retireCountI : BitVec 2
  perfEventsI : BitVec cmuEventCount
  irqSoftwareI : Bool
  irqTimerI : Bool
  irqExternalI : Bool
  irqSSoftwareI : Bool
  irqSTimerI : Bool
  irqSExternalI : Bool

namespace CsrInput

variable (i : CsrInput)

def mipExternal : BitVec 64 :=
  (if i.irqSSoftwareI then bitAt mipSsip else 0) |||
    (if i.irqSoftwareI then bitAt mipMsip else 0) |||
    (if i.irqSTimerI then bitAt mipStip else 0) |||
    (if i.irqTimerI then bitAt mipMtip else 0) |||
    (if i.irqSExternalI then bitAt mipSeip else 0) |||
    (if i.irqExternalI then bitAt mipMeip else 0)

def csrOpSet : Bool := i.csrOpI == 0b010 || i.csrOpI == 0b110

def csrOpClear : Bool := i.csrOpI == 0b011 || i.csrOpI == 0b111

def csrWriteMask : BitVec 64 :=
  if i.csrOpSet || i.csrOpClear then i.csrWdataI else BitVec.allOnes 64

/-- The cause register of the trap being taken. -/
def trapCauseValue : BitVec 64 := BitVec.ofBool i.trapInterruptI ++ (0 : BitVec 58) ++ i.trapCauseI

end CsrInput

namespace TrapRegs

variable (r : TrapRegs) (i : CsrInput)

def mipValue : BitVec 64 := (r.mipSwQ ||| i.mipExternal) &&& mipMask

def enabledPending : BitVec 64 := r.mieQ &&& r.mipValue i

def trapDelegated : Bool :=
  r.privModeQ != privM &&
    (if i.trapInterruptI then r.midelegQ.getLsbD i.trapCauseI.toNat
      else r.medelegQ.getLsbD i.trapCauseI.toNat)

def mppValue : BitVec 2 :=
  if field r.mstatusQ mstatusMpp = 0b10 then privU else field r.mstatusQ mstatusMpp

def csrPrivilegeOk : Bool := decide (i.csrAddrI.extractLsb' 8 2 ≤ r.privModeQ)

def satpAccessOk : Bool :=
  !(i.csrAddrI == csrSatp && r.privModeQ == privS && r.mstatusQ.getLsbD mstatusTvm)

def selectedTvec : BitVec 64 := if r.trapDelegated i then r.stvecQ else r.mtvecQ

def trapVectorO : BitVec 64 :=
  aligned (r.selectedTvec i) +
    if i.trapInterruptI && (r.selectedTvec i).extractLsb' 0 2 == (1 : BitVec 2) then
      ((0 : BitVec 57) ++ i.trapCauseI ++ (0 : BitVec 2) : BitVec 64)
    else 0

def irqEligible (cause : ℕ) : Bool :=
  if r.midelegQ.getLsbD cause then
    r.privModeQ != privM && (r.privModeQ == privU || r.mstatusQ.getLsbD mstatusSie)
  else r.privModeQ != privM || r.mstatusQ.getLsbD mstatusMie

/-- The interrupt that would be taken now, the machine causes first. -/
def irqChoice : Option ℕ :=
  [mipMeip, mipMsip, mipMtip, mipSeip, mipSsip, mipStip].find? fun cause =>
    (r.enabledPending i).getLsbD cause && r.irqEligible cause

def irqPendingO : Bool := (r.irqChoice i).isSome

def irqCauseO : BitVec 5 := BitVec.ofNat 5 ((r.irqChoice i).getD mipMtip)

def wfiWakeO : Bool := r.enabledPending i != 0

variable {r} {i} in
/-- An interrupt that can be taken wakes a sleeping core. -/
theorem irqPendingO_of_wfiWakeO (h : r.wfiWakeO i = false) : r.irqPendingO i = false := by
  have hnone : r.enabledPending i = 0 := by simpa [wfiWakeO] using h
  rw [irqPendingO, irqChoice, hnone]
  simp

def dataPrivModeO : BitVec 2 :=
  if r.privModeQ == privM && r.mstatusQ.getLsbD mstatusMprv then r.mppValue else r.privModeQ

def sretAllowedO : Bool :=
  r.privModeQ == privM || (r.privModeQ == privS && !r.mstatusQ.getLsbD mstatusTsr)

/-- A trap taken to S-mode. -/
def enterS : TrapRegs :=
  { r with
    mstatusQ :=
      assignBit
        (assignBit (assignBit r.mstatusQ mstatusSpie (r.mstatusQ.getLsbD mstatusSie))
          mstatusSie false)
        mstatusSpp (r.privModeQ == privS)
    privModeQ := privS
    sepcQ := aligned i.trapPcI
    scauseQ := i.trapCauseValue
    stvalQ := i.trapTvalI }

/-- A trap taken to M-mode. -/
def enterM : TrapRegs :=
  { r with
    mstatusQ :=
      assignField
        (assignBit (assignBit r.mstatusQ mstatusMpie (r.mstatusQ.getLsbD mstatusMie))
          mstatusMie false)
        mstatusMpp r.privModeQ
    privModeQ := privM
    mepcQ := aligned i.trapPcI
    mcauseQ := i.trapCauseValue
    mtvalQ := i.trapTvalI }

def returnM : TrapRegs :=
  let status :=
    assignField
      (assignBit (assignBit r.mstatusQ mstatusMie (r.mstatusQ.getLsbD mstatusMpie))
        mstatusMpie true)
      mstatusMpp privU
  { r with
    mstatusQ := if r.mppValue != privM then assignBit status mstatusMprv false else status
    privModeQ := r.mppValue }

def returnS : TrapRegs :=
  { r with
    mstatusQ :=
      assignBit
        (assignBit
          (assignBit (assignBit r.mstatusQ mstatusSie (r.mstatusQ.getLsbD mstatusSpie))
            mstatusSpie true)
          mstatusSpp false)
        mstatusMprv false
    privModeQ := if r.mstatusQ.getLsbD mstatusSpp then privS else privU }

/-- The bits of mstatus a write to it copies one by one. -/
def mstatusWritable : List ℕ :=
  [mstatusSie, mstatusMie, mstatusSpie, mstatusMpie, mstatusSpp, mstatusMprv, mstatusSum,
    mstatusMxr, mstatusTvm, mstatusTw, mstatusTsr]

/-- A write of mstatus.  The reserved MPP encoding is stored as U. -/
def writeMstatus (value : BitVec 64) : BitVec 64 :=
  let bits := mstatusWritable.foldl (fun x k => assignBit x k (value.getLsbD k)) r.mstatusQ
  let mpp := if field value mstatusMpp = 0b10 then privU else field value mstatusMpp
  assignField (assignField (assignField bits mstatusMpp mpp) mstatusSxl 0b10) mstatusUxl 0b10

/-- The registers after a CSR write of `value`, of which a set or clear operation names
the bits of `mask`. -/
def write (addr : BitVec 12) (value mask : BitVec 64) : TrapRegs :=
  if addr == csrSstatus then
    { r with mstatusQ := (r.mstatusQ &&& ~~~sstatusRwMask) ||| (value &&& sstatusRwMask) }
  else if addr == csrSie then
    { r with mieQ := (r.mieQ &&& ~~~mipSMask) ||| (value &&& r.midelegQ &&& mipSMask) }
  else if addr == csrStvec then { r with stvecQ := tvecWarl value }
  else if addr == csrSscratch then { r with sscratchQ := value }
  else if addr == csrSepc then { r with sepcQ := aligned value }
  else if addr == csrScause then { r with scauseQ := value }
  else if addr == csrStval then { r with stvalQ := value }
  else if addr == csrSip then
    { r with
      mipSwQ :=
        (r.mipSwQ &&& ~~~(mask &&& bitAt mipSsip)) |||
          (value &&& mask &&& r.midelegQ &&& bitAt mipSsip) }
  else if addr == csrMstatus then { r with mstatusQ := r.writeMstatus value }
  else if addr == csrMedeleg then { r with medelegQ := value &&& medelegMask }
  else if addr == csrMideleg then { r with midelegQ := value &&& midelegMask }
  else if addr == csrMie then { r with mieQ := value &&& mipMask }
  else if addr == csrMtvec then { r with mtvecQ := tvecWarl value }
  else if addr == csrMscratch then { r with mscratchQ := value }
  else if addr == csrMepc then { r with mepcQ := aligned value }
  else if addr == csrMcause then { r with mcauseQ := value }
  else if addr == csrMtval then { r with mtvalQ := value }
  else if addr == csrMip then
    { r with
      mipSwQ :=
        (r.mipSwQ &&& ~~~(mask &&& mipSwWritableMask)) ||| (value &&& mask &&& mipSwWritableMask) }
  else r

end TrapRegs

namespace CsrState

variable {p : CsrParams} (s : CsrState p) (i : CsrInput)

def hpmWriteCommit : Bool := s.hpm.hpmWriteBusyQ && s.hpm.hpmWriteCountQ == 2

/-- The counter block's port.  It serves the slow write in the last cycle of that write
and the address being accessed in every other. -/
def cmuInput (csrWriteValue : BitVec 64) : CmuInput where
  csrAddrI := if s.hpmWriteCommit then s.hpm.hpmWriteAddrQ else i.csrAddrI
  csrWriteI := s.hpmWriteCommit
  csrWdataI := if s.hpmWriteCommit then s.hpm.hpmWriteDataQ else csrWriteValue
  privModeI := s.regs.privModeQ
  retireCountI := i.retireCountI
  eventPulsesI := i.perfEventsI

/-- The protection unit's CSR port; its request port is not used here. -/
def pmpInput (write : Bool) (csrWriteValue : BitVec 64) : PmpInput where
  csrAddrI := i.csrAddrI
  csrWriteI := write
  csrWdataI := csrWriteValue
  busValidI := false
  busAddrI := 0
  busSizeI := 0
  busWriteI := false
  busExecI := false
  busPrivModeI := 0

def cmuCsrMatch : Bool := CmuState.csrMatchO (s.cmuInput i 0)

/-- Registers other than those of a client block share one answer: valid and writable. -/
def ownAnswer (rdata : BitVec 64) : CsrAnswer where
  rdata := rdata
  valid := true
  writable := true

def readOnlyAnswer (rdata : BitVec 64) : CsrAnswer where
  rdata := rdata
  valid := true
  writable := false

/-- Bits an extension contributes to a register. -/
def extensionBits (p : CsrParams) (bits : BitVec 64) : BitVec 64 :=
  if p.enableExtension then bits else 0

def extensionCsrSelected (p : CsrParams) : Bool := p.enableExtension && i.extensionCsrSelectedI

/-- An address that is not one of the block's own goes to the first client that claims
it. -/
def clientAnswer : CsrAnswer :=
  if extensionCsrSelected i p then
    { rdata := i.extensionCsrRdataI
      valid := i.extensionCsrValidI
      writable := i.extensionCsrWritableI }
  else if s.cmuCsrMatch i then s.cmu.access (s.cmuInput i 0)
  else if PmpState.csrMatchO (pmpInput i false 0) then
    ownAnswer (s.pmp.csrRdataO (pmpInput i false 0))
  else { rdata := 0, valid := false, writable := false }

/-- The answer of the address decoder alone. -/
def decoded : CsrAnswer :=
  let r := s.regs
  if i.csrAddrI == csrSstatus then
    ownAnswer ((r.mstatusQ &&& sstatusReadMask) ||| extensionBits p i.extensionSstatusBitsI)
  else if i.csrAddrI == csrSie then ownAnswer (r.mieQ &&& r.midelegQ &&& mipSMask)
  else if i.csrAddrI == csrStvec then ownAnswer r.stvecQ
  else if i.csrAddrI == csrSscratch then ownAnswer r.sscratchQ
  else if i.csrAddrI == csrSepc then ownAnswer r.sepcQ
  else if i.csrAddrI == csrScause then ownAnswer r.scauseQ
  else if i.csrAddrI == csrStval then ownAnswer r.stvalQ
  else if i.csrAddrI == csrSip then ownAnswer (r.mipValue i &&& r.midelegQ &&& mipSMask)
  else if i.csrAddrI == csrSatp then ownAnswer s.satp.satpQ
  else if i.csrAddrI == csrMstatus then
    ownAnswer (r.mstatusQ ||| extensionBits p i.extensionMstatusBitsI)
  else if i.csrAddrI == csrMisa then
    readOnlyAnswer (p.misaValue ||| extensionBits p i.extensionMisaBitsI)
  else if i.csrAddrI == csrMedeleg then ownAnswer r.medelegQ
  else if i.csrAddrI == csrMideleg then ownAnswer r.midelegQ
  else if i.csrAddrI == csrMie then ownAnswer r.mieQ
  else if i.csrAddrI == csrMtvec then ownAnswer r.mtvecQ
  else if i.csrAddrI == csrMscratch then ownAnswer r.mscratchQ
  else if i.csrAddrI == csrMepc then ownAnswer r.mepcQ
  else if i.csrAddrI == csrMcause then ownAnswer r.mcauseQ
  else if i.csrAddrI == csrMtval then ownAnswer r.mtvalQ
  else if i.csrAddrI == csrMip then ownAnswer (r.mipValue i)
  else if i.csrAddrI == csrMvendorid || i.csrAddrI == csrMarchid ||
      i.csrAddrI == csrMimpid || i.csrAddrI == csrMconfigptr then
    readOnlyAnswer 0
  else if i.csrAddrI == csrMhartid then readOnlyAnswer p.hartId
  else s.clientAnswer i

/-- The CSR read port: the privilege of the address and of SATP override the decoder, and
the top quarter of the address space is read-only. -/
def access : CsrAnswer :=
  let allowed := s.regs.csrPrivilegeOk i && s.regs.satpAccessOk i
  { rdata := if allowed then (s.decoded i).rdata else 0
    valid := allowed && (s.decoded i).valid
    writable :=
      allowed && (s.decoded i).writable && i.csrAddrI.extractLsb' 10 2 != (0b11 : BitVec 2) }

def csrWriteValue : BitVec 64 :=
  if i.csrOpSet then (s.access i).rdata ||| i.csrWdataI
  else if i.csrOpClear then (s.access i).rdata &&& ~~~i.csrWdataI
  else i.csrWdataI

/-- A write that the access check lets through. -/
def csrWriteAccept : Bool := i.csrWriteI && (s.access i).valid && (s.access i).writable

def satpWriteRequest : Bool := s.csrWriteAccept i && i.csrAddrI == csrSatp

def satpStart : Bool := s.satpWriteRequest i && !s.satp.satpBusyQ && !s.satp.satpDoneQ

def hpmWriteRequest : Bool := s.csrWriteAccept i && s.cmuCsrMatch i

def hpmWriteStart : Bool := s.hpmWriteRequest i && !s.hpm.hpmWriteBusyQ && !s.hpm.hpmWriteDoneQ

def pmpCsrWrite : Bool := s.csrWriteAccept i && PmpState.csrMatchO (pmpInput i false 0)

def pmpPort : PmpInput := pmpInput i (s.pmpCsrWrite i) (s.csrWriteValue i)

def csrWriteReadyO : Bool :=
  if extensionCsrSelected i p then i.extensionCsrWriteReadyI
  else if PmpState.csrMatchO (pmpInput i false 0) then s.pmp.csrWriteReadyO (s.pmpPort i)
  else if s.satpWriteRequest i then s.satp.satpDoneQ
  else if s.hpmWriteRequest i then s.hpm.hpmWriteDoneQ
  else true

/-- Counter writes latch their address and data and commit after three busy cycles. -/
def hpmStep : HpmRegs :=
  let held :=
    { s.hpm with
      hpmWriteDoneQ :=
        if !s.hpmWriteRequest i || s.hpm.hpmWriteDoneQ then false else s.hpm.hpmWriteDoneQ }
  if s.hpm.hpmWriteBusyQ then
    if s.hpm.hpmWriteCountQ == 2 then { held with hpmWriteBusyQ := false, hpmWriteDoneQ := true }
    else { held with hpmWriteCountQ := s.hpm.hpmWriteCountQ + 1 }
  else if s.hpmWriteStart i then
    { held with
      hpmWriteAddrQ := i.csrAddrI
      hpmWriteDataQ := s.csrWriteValue i
      hpmWriteCountQ := 0
      hpmWriteBusyQ := true }
  else held

/-- What a SATP write of `value` will leave there: an unsupported mode keeps the old
value. -/
def satpWarl (value : BitVec 64) : BitVec 64 :=
  if value.extractLsb' 60 4 = (0 : BitVec 4) then 0
  else if value.extractLsb' 60 4 = (8 : BitVec 4) then value
  else s.satp.satpQ

/-- SATP writes hold the old value for thirty cycles and commit in one. -/
def satpStep : SatpRegs :=
  let held :=
    { s.satp with
      satpDoneQ :=
        if !s.satpWriteRequest i || s.satp.satpDoneQ then false else s.satp.satpDoneQ }
  if s.satp.satpBusyQ then
    if s.satp.satpCountQ == 29 then
      { held with satpQ := s.satp.satpPendingQ, satpBusyQ := false, satpDoneQ := true }
    else { held with satpCountQ := s.satp.satpCountQ + 1 }
  else if s.satpStart i then
    { held with
      satpPendingQ := s.satpWarl (s.csrWriteValue i)
      satpCountQ := 0
      satpBusyQ := true }
  else held

/-- A trap goes before a return and a return before a CSR write. -/
def regsStep : TrapRegs :=
  if i.trapEnterI then
    if s.regs.trapDelegated i then s.regs.enterS i else s.regs.enterM i
  else if i.mretI then s.regs.returnM
  else if i.sretI then s.regs.returnS
  else if s.csrWriteAccept i then s.regs.write i.csrAddrI (s.csrWriteValue i) i.csrWriteMask
  else s.regs

/-- One clock edge of `openrv64_rv64i_csrs`. -/
def step : CsrState p where
  regs := s.regsStep i
  satp := s.satpStep i
  hpm := s.hpmStep i
  cmu := s.cmu.step (s.cmuInput i (s.csrWriteValue i))
  pmp := s.pmp.step (s.pmpPort i)

/-- What reset leaves behind: M-mode, with MPP naming M-mode and both XLEN fields 64. -/
def reset : CsrState p where
  regs :=
    { mstatusQ := ((2 : BitVec 64) <<< 34) ||| ((2 : BitVec 64) <<< 32) ||| ((3 : BitVec 64) <<< 11)
      medelegQ := 0
      midelegQ := 0
      mieQ := 0
      mtvecQ := 0
      mscratchQ := 0
      mepcQ := 0
      mcauseQ := 0
      mtvalQ := 0
      mipSwQ := 0
      stvecQ := 0
      sscratchQ := 0
      sepcQ := 0
      scauseQ := 0
      stvalQ := 0
      privModeQ := privM }
  satp :=
    { satpQ := 0, satpPendingQ := 0, satpCountQ := 0, satpBusyQ := false, satpDoneQ := false }
  hpm :=
    { hpmWriteCountQ := 0
      hpmWriteBusyQ := false
      hpmWriteDoneQ := false
      hpmWriteAddrQ := 0
      hpmWriteDataQ := 0 }
  cmu := CmuState.reset
  pmp := PmpState.reset

end CsrState

/-- `openrv64_rv64i_csrs` from reset. -/
def csrCircuit (p : CsrParams) : Sync.Circuit (CsrState p) CsrInput where
  Init s := s = CsrState.reset
  step := CsrState.step

end OpenRV64
