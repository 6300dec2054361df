/-
The line crossbar: a round-robin arbiter for the commands of the harts, one owner of the
write-data channel, and the way back of the responses by hart id.
-/
import OpenRV64.L2Native
import OpenRV64.Interleave
import OpenRV64.RotatingPriority
import OpenRV64.SyncView

namespace OpenRV64

open RotatingPriority

/-- The parameters of `openrv64_icx_line_crossbar`, with what its checks accept. -/
structure CrossbarParams where
  numHarts : ℕ
  hartIdBase : ℕ
  harts_ok : 1 ≤ numHarts ∧ numHarts ≤ 16
  ids_ok : hartIdBase + numHarts ≤ 16

/-- `HART_ID_WIDTH'(HART_ID_BASE + h)`. -/
def CrossbarParams.strap (p : CrossbarParams) (h : Fin p.numHarts) : BitVec 4 :=
  BitVec.ofNat 4 (p.hartIdBase + h.val)

/-- The fields of a command of the line interface. -/
structure LineCommand where
  hartId : BitVec 4
  txnId : BitVec 4
  sourceId : BitVec 2
  op : BitVec 4
  lock : Bool
  order : BitVec 2
  kind : BitVec 2
  attr : BitVec 4
  size : BitVec 3
  addr : BitVec 64
  burstLen : BitVec 8
deriving DecidableEq

/-- `WRITE` and `SC` are followed by write data. -/
def LineCommand.carriesData (c : LineCommand) : Bool := c.op == icxOpWrite || c.op == icxOpSc

/-- One beat of write data. -/
structure LineWdata where
  hartId : BitVec 4
  txnId : BitVec 4
  sourceId : BitVec 2
  beatIndex : BitVec 8
  last : Bool
  wdata : LineData
  wstrb : LineStrobe

structure LineResponse where
  hartId : BitVec 4
  txnId : BitVec 4
  sourceId : BitVec 2
  beatIndex : BitVec 8
  last : Bool
  rdata : LineData
  error : Bool
  scSuccess : Bool

structure CrossbarState (p : CrossbarParams) where
  roundRobinQ : Fin p.numHarts
  wdataActiveQ : Bool
  wdataHartQ : Fin p.numHarts
  wdataTxnIdQ : BitVec 4
  wdataSourceIdQ : BitVec 2
  wdataBurstLenQ : BitVec 8
  wdataBeatQ : BitVec 8

structure CrossbarInput (p : CrossbarParams) where
  hartReqValidI : Fin p.numHarts → Bool
  hartReqI : Fin p.numHarts → LineCommand
  memReqReadyI : Bool
  hartWdataValidI : Fin p.numHarts → Bool
  hartWdataI : Fin p.numHarts → LineWdata
  memWdataReadyI : Bool
  memRespValidI : Bool
  memRespI : LineResponse
  hartRespReadyI : Fin p.numHarts → Bool

namespace CrossbarState

variable {p : CrossbarParams} (s : CrossbarState p) (i : CrossbarInput p)

/-- A command with data waits for the data of the one before it. -/
def eligible (h : Fin p.numHarts) : Bool := !s.wdataActiveQ || !(i.hartReqI h).carriesData

/-- The first hart from the pointer on whose command can go. -/
def grant : Option (Fin p.numHarts) :=
  (scan s.roundRobinQ).find? fun h => i.hartReqValidI h && s.eligible i h

def grantHart : Fin p.numHarts := (s.grant i).getD s.roundRobinQ

def memReqValidO : Bool := (s.grant i).isSome

/-- The granted command, under the id its port is strapped to. -/
def memReqO : LineCommand :=
  { i.hartReqI (s.grantHart i) with hartId := p.strap (s.grantHart i) }

def commandFire : Bool := s.memReqValidO i && i.memReqReadyI

def hartReqReadyO (h : Fin p.numHarts) : Bool :=
  (s.grant i).isSome && s.grantHart i == h && i.memReqReadyI

def selectedWdataValid : Bool := s.wdataActiveQ && i.hartWdataValidI s.wdataHartQ

def selectedWdataIdentityMatch : Bool :=
  (i.hartWdataI s.wdataHartQ).hartId == p.strap s.wdataHartQ &&
    (i.hartWdataI s.wdataHartQ).txnId == s.wdataTxnIdQ &&
    (i.hartWdataI s.wdataHartQ).sourceId == s.wdataSourceIdQ &&
    (i.hartWdataI s.wdataHartQ).beatIndex == s.wdataBeatQ

def memWdataValidO : Bool := s.selectedWdataValid i && s.selectedWdataIdentityMatch i

/-- The owner's beat, under the identity of the command it belongs to. -/
def memWdataO : LineWdata where
  hartId := p.strap s.wdataHartQ
  txnId := s.wdataTxnIdQ
  sourceId := s.wdataSourceIdQ
  beatIndex := s.wdataBeatQ
  last := (i.hartWdataI s.wdataHartQ).last
  wdata := (i.hartWdataI s.wdataHartQ).wdata
  wstrb := (i.hartWdataI s.wdataHartQ).wstrb

def wdataFire : Bool := s.memWdataValidO i && i.memWdataReadyI

def hartWdataReadyO (h : Fin p.numHarts) : Bool :=
  s.wdataActiveQ && s.selectedWdataIdentityMatch i && s.wdataHartQ == h && i.memWdataReadyI

end CrossbarState

namespace CrossbarInput

variable {p : CrossbarParams} (i : CrossbarInput p)

/-- The hart a response names, if it names one. -/
def responseHart : Option (Fin p.numHarts) :=
  (List.finRange p.numHarts).find? fun h => i.memRespI.hartId == p.strap h

def hartRespValidO (h : Fin p.numHarts) : Bool := i.responseHart == some h && i.memRespValidI

/-- The response port of a hart; a port that is not named shows zeros. -/
def hartRespO (h : Fin p.numHarts) : LineResponse :=
  if i.responseHart = some h then i.memRespI
  else
    { hartId := 0
      txnId := 0
      sourceId := 0
      beatIndex := 0
      last := false
      rdata := LineData.zero
      error := false
      scSuccess := false }

def memRespReadyO : Bool :=
  match i.responseHart with
  | some h => i.hartRespReadyI h
  | none => false

end CrossbarInput

namespace CrossbarState

variable {p : CrossbarParams} (s : CrossbarState p) (i : CrossbarInput p)

/-- The registers after the command channel; the data channel comes behind it. -/
def commandStep : CrossbarState p :=
  if s.commandFire i then
    { (if (s.memReqO i).carriesData then
        { s with
          wdataActiveQ := true
          wdataHartQ := s.grantHart i
          wdataTxnIdQ := (s.memReqO i).txnId
          wdataSourceIdQ := (s.memReqO i).sourceId
          wdataBurstLenQ := (s.memReqO i).burstLen
          wdataBeatQ := 0 }
      else s) with
      roundRobinQ := next (s.grantHart i) }
  else s

/-- One clock edge of `openrv64_icx_line_crossbar`. -/
def step : CrossbarState p :=
  if s.wdataFire i then
    if s.wdataBurstLenQ ≤ s.wdataBeatQ then
      { s.commandStep i with wdataActiveQ := false, wdataBeatQ := 0 }
    else { s.commandStep i with wdataBeatQ := s.wdataBeatQ + 1 }
  else s.commandStep i

/-- What reset leaves behind. -/
structure Reset : Prop where
  roundRobin : s.roundRobinQ.val = 0
  inactive : s.wdataActiveQ = false
  hart : s.wdataHartQ.val = 0
  txn : s.wdataTxnIdQ = 0
  source : s.wdataSourceIdQ = 0
  burst : s.wdataBurstLenQ = 0
  beat : s.wdataBeatQ = 0

end CrossbarState

/-- `openrv64_icx_line_crossbar` from reset. -/
def lineCrossbar (p : CrossbarParams) : Sync.Circuit (CrossbarState p) (CrossbarInput p) where
  Init := CrossbarState.Reset
  step := CrossbarState.step

end OpenRV64
