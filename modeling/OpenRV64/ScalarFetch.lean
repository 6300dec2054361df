/-
The one-wide fetch unit: eight resident lines of two instructions, read as a circular queue,
with one request to memory at a time and replay of a line that is still resident.
-/
import OpenRV64.ScalarDecode

namespace OpenRV64

/-- A line buffer.  `count` is what of the line is still unread. -/
structure FetchBuffer where
  instr0 : BitVec 32
  instr1 : BitVec 32
  lineTag : BitVec 60
  fault : Bool
  pageFault : Bool
  resident : Bool
  count : BitVec 2

structure FetchState where
  buffer : BitVec 3 → FetchBuffer
  readBankQ : BitVec 3
  readSlotQ : Bool
  writeBankQ : BitVec 3
  reqActiveQ : Bool
  reqBankQ : BitVec 3
  reqPcQ : BitVec 64
  reqAddrQ : BitVec 64

structure FetchInput where
  flushI : Bool
  redirectI : Bool
  redirectReplayI : Bool
  redirectPcI : BitVec 64
  pcValidI : Bool
  pcI : BitVec 64
  memReadyI : Bool
  memRdataI : BitVec 64
  memFaultI : Bool
  memPageFaultI : Bool
  decodeReadyI : Bool

/-- What fetch hands to decode. -/
structure FetchPacket where
  pc : BitVec 64
  instr : BitVec 32
  fault : Bool
  pageFault : Bool
deriving DecidableEq, Repr

def FetchBuffer.empty : FetchBuffer := ⟨instrNop, instrNop, 0, false, false, false, 0⟩

/-- A line that could not be fetched holds instructions that do nothing. -/
def FetchBuffer.Harmless (b : FetchBuffer) : Prop :=
  b.fault = true ∨ b.pageFault = true → b.instr0 = instrNop ∧ b.instr1 = instrNop

/-- The instruction in one of the two slots. -/
def FetchBuffer.slot (b : FetchBuffer) (upper : Bool) : BitVec 32 :=
  if upper then b.instr1 else b.instr0

/-- A line entered at `pc` is unread from there on. -/
def unreadFrom (pc : BitVec 64) : BitVec 2 := if pc.getLsbD 2 then 1 else 2

namespace FetchState

variable (s : FetchState) (i : FetchInput)

section Lookup

def lookupPc : BitVec 64 := if i.redirectReplayI then i.redirectPcI else i.pcI

/-- The four ways of the set of a line; consecutive lines alternate between the sets. -/
def wayBank (pc : BitVec 64) (way : BitVec 2) : BitVec 3 := way ++ pc.extractLsb' 3 1

def wayHits (pc : BitVec 64) (way : BitVec 2) : Bool :=
  (s.buffer (wayBank pc way)).resident && (s.buffer (wayBank pc way)).lineTag == pc.extractLsb' 4 60

/-- The bank that holds the line of `pc`. -/
def lookup (pc : BitVec 64) : Option (BitVec 3) :=
  if s.wayHits pc 0 then some (wayBank pc 0)
  else if s.wayHits pc 1 then some (wayBank pc 1)
  else if s.wayHits pc 2 then some (wayBank pc 2)
  else if s.wayHits pc 3 then some (wayBank pc 3)
  else none

def lookupHit : Bool := (s.lookup (lookupPc i)).isSome

def lookupBank : BitVec 3 := (s.lookup (lookupPc i)).getD 0

end Lookup

section Queue

def unread (bank : BitVec 3) : Bool := (s.buffer bank).count != 0

def queueEmpty : Bool :=
  !(s.unread 0 || s.unread 1 || s.unread 2 || s.unread 3 || s.unread 4 || s.unread 5 ||
    s.unread 6 || s.unread 7)

def bufferedDecodeValid : Bool := !i.redirectI && s.unread s.readBankQ

def bufferedDecodeFire : Bool := s.bufferedDecodeValid i && i.decodeReadyI

def readBankWillEmpty : Bool := s.bufferedDecodeFire i && (s.buffer s.readBankQ).count == 1

def reqSuccessorBank : BitVec 3 := s.reqBankQ + 1

def nextReqBank : BitVec 3 := if s.reqActiveQ then s.reqSuccessorBank else s.writeBankQ

def streamEmpty : Bool := s.queueEmpty && !s.reqActiveQ

/-- A new stream starts in the set of its first line. -/
def missBank : BitVec 3 :=
  if s.streamEmpty then s.writeBankQ.extractLsb' 1 2 ++ i.pcI.extractLsb' 3 1
  else s.nextReqBank

def missBankEmpty : Bool :=
  !s.unread (s.missBank i) || (s.readBankWillEmpty i && s.readBankQ == s.missBank i)

def reqComplete : Bool := s.reqActiveQ && i.memReadyI

def lookupStartsStream : Bool := s.lookupHit i && s.queueEmpty && !s.reqActiveQ

def lookupHitsTail : Bool :=
  s.lookupHit i && s.lookupBank i == s.nextReqBank && s.missBankEmpty i &&
    (!s.reqActiveQ || s.reqComplete i)

def lookupReusable : Bool := s.lookupStartsStream i || s.lookupHitsTail i

def requestCanStart : Bool := s.missBankEmpty i && (!s.reqActiveQ || s.reqComplete i)

def pcReadyO : Bool := !i.flushI && !i.redirectI && (s.lookupReusable i || s.requestCanStart i)

def pcAccept : Bool := i.pcValidI && s.pcReadyO i

def pcAcceptHit : Bool := s.pcAccept i && s.lookupReusable i

def pcAcceptMiss : Bool := s.pcAccept i && !s.lookupReusable i

end Queue

section Decode

def redirectReplayValid : Bool := i.redirectI && i.redirectReplayI && s.lookupHit i

def streamReplayValid : Bool := s.pcAcceptHit i && s.lookupStartsStream i

def replayValid : Bool := s.redirectReplayValid i || s.streamReplayValid i

def replayPc : BitVec 64 := if s.redirectReplayValid i then i.redirectPcI else i.pcI

def redirectReplayO : Bool := s.redirectReplayValid i && i.decodeReadyI

def streamReplayFire : Bool := s.streamReplayValid i && i.decodeReadyI

def memNextValidO : Bool := s.reqComplete i && s.pcAcceptMiss i

def decodeValidO : Bool := !i.flushI && (s.replayValid i || s.bufferedDecodeValid i)

/-- The address of the instruction that is next in the queue. -/
def readPc : BitVec 64 :=
  ((s.buffer s.readBankQ).lineTag ++ s.readBankQ.extractLsb' 0 1 ++ 0#3 : BitVec 64) +
    if s.readSlotQ then 4 else 0

def decodeO : FetchPacket :=
  if s.replayValid i then
    let b := s.buffer (s.lookupBank i)
    ⟨s.replayPc i, b.slot ((s.replayPc i).getLsbD 2), b.fault, b.pageFault⟩
  else
    let b := s.buffer s.readBankQ
    ⟨s.readPc, b.slot s.readSlotQ, b.fault, b.pageFault⟩

end Decode

section Next

/-- The line that memory has answered with.  A failed fetch leaves instructions that do
nothing. -/
def answeredLine : FetchBuffer :=
  let failed := i.memFaultI || i.memPageFaultI
  { instr0 := if failed then instrNop else i.memRdataI.extractLsb' 0 32
    instr1 := if failed then instrNop else i.memRdataI.extractLsb' 32 32
    lineTag := s.reqAddrQ.extractLsb' 4 60
    fault := i.memFaultI
    pageFault := i.memPageFaultI
    resident := true
    count := unreadFrom s.reqPcQ }

/-- What a redirect leaves of the line that it replays. -/
def replayCount : BitVec 2 :=
  if s.redirectReplayO i then if i.redirectPcI.getLsbD 2 then 0 else 1
  else unreadFrom i.redirectPcI

def flushed : FetchState where
  buffer _ := .empty
  readBankQ := 0
  readSlotQ := false
  writeBankQ := 0
  reqActiveQ := false
  reqBankQ := 0
  reqPcQ := 0
  reqAddrQ := 0

/-- A redirect discards the unread stream; the lines stay. -/
def redirected : FetchState where
  buffer bank :=
    { s.buffer bank with
      count := if s.redirectReplayValid i && bank == s.lookupBank i then s.replayCount i else 0 }
  readBankQ := if s.redirectReplayValid i then s.lookupBank i else 0
  readSlotQ := s.redirectReplayValid i && (i.redirectPcI.getLsbD 2 ^^ s.redirectReplayO i)
  writeBankQ := if s.redirectReplayValid i then s.lookupBank i + 1 else 0
  reqActiveQ := false
  reqBankQ := 0
  reqPcQ := 0
  reqAddrQ := 0

/-- The bank in which a miss accepted in this cycle begins its request. -/
def requestBank : BitVec 3 := if s.reqComplete i then s.reqSuccessorBank else s.missBank i

/-- A miss begins a request: behind the one that completes, or when none is under way. -/
def requestStarts : Bool := s.pcAcceptMiss i && (s.reqComplete i || !s.reqActiveQ)

/-- The buffers when the stream goes on.  The later assignments of the source win. -/
def bufferNext (bank : BitVec 3) : FetchBuffer :=
  let b := s.buffer bank
  let b :=
    if s.bufferedDecodeFire i && bank == s.readBankQ then
      { b with count := b.count - 1 }
    else b
  let b := if s.reqComplete i && bank == s.reqBankQ then s.answeredLine i else b
  let b :=
    if s.requestStarts i && bank == s.requestBank i then { b with resident := false } else b
  if s.pcAcceptHit i && bank == s.lookupBank i then
    { b with
      count :=
        if s.streamReplayFire i then if i.pcI.getLsbD 2 then 0 else 1 else unreadFrom i.pcI }
  else b

/-- The stream starts anew at the request or at the line that is replayed. -/
def startsAtRequest : Bool := s.requestStarts i && !s.reqComplete i && s.queueEmpty

def startsAtHit : Bool := s.pcAcceptHit i && s.lookupStartsStream i

def streamed : FetchState where
  buffer := s.bufferNext i
  readBankQ :=
    if s.startsAtHit i then s.lookupBank i
    else if s.startsAtRequest i then s.missBank i
    else if s.readBankWillEmpty i then s.readBankQ + 1
    else s.readBankQ
  readSlotQ :=
    if s.startsAtHit i then s.streamReplayFire i || i.pcI.getLsbD 2
    else if s.startsAtRequest i then i.pcI.getLsbD 2
    else if s.bufferedDecodeFire i then !s.readBankWillEmpty i
    else s.readSlotQ
  writeBankQ :=
    if s.pcAcceptHit i then s.lookupBank i + 1
    else if s.reqComplete i then s.reqSuccessorBank
    else s.writeBankQ
  reqActiveQ := s.requestStarts i || (s.reqActiveQ && !s.reqComplete i)
  reqBankQ := if s.requestStarts i then s.requestBank i else s.reqBankQ
  reqPcQ := if s.requestStarts i then i.pcI else s.reqPcQ
  reqAddrQ :=
    if s.requestStarts i then i.pcI.extractLsb' 3 61 ++ 0#3 else s.reqAddrQ

def step : FetchState :=
  if i.flushI then flushed else if i.redirectI then s.redirected i else s.streamed i

end Next

/-! ### A unit with nothing to hand out -/

/-- Nothing is unread and no request is under way. -/
structure Quiet : Prop where
  unread : ∀ bank, s.unread bank = false
  noRequest : s.reqActiveQ = false

/-- The lines that could not be fetched hold instructions that do nothing. -/
def Harmless : Prop := ∀ bank, (s.buffer bank).Harmless

variable {s : FetchState} {i : FetchInput}

theorem quiet_flushed : Quiet flushed := ⟨fun _ => rfl, rfl⟩

theorem Quiet.pcAccept (h : i.pcValidI = false) : s.pcAccept i = false := by
  simp [FetchState.pcAccept, h]

/-- A quiet unit hands out nothing unless a redirect replays a line or a new address comes. -/
theorem Quiet.decodeValidO (h : s.Quiet) (hpc : i.pcValidI = false)
    (hredir : i.redirectI = false) : s.decodeValidO i = false := by
  have hacc : s.pcAccept i = false := Quiet.pcAccept hpc
  simp [FetchState.decodeValidO, replayValid, redirectReplayValid, hredir, streamReplayValid,
    pcAcceptHit, hacc, bufferedDecodeValid, h.unread]

/-- It stays quiet as long as neither comes. -/
theorem Quiet.step (h : s.Quiet) (hpc : i.pcValidI = false) (hredir : i.redirectI = false) :
    (s.step i).Quiet := by
  have hacc : s.pcAccept i = false := Quiet.pcAccept hpc
  have hcomp : s.reqComplete i = false := by simp [reqComplete, h.noRequest]
  have hfire : s.bufferedDecodeFire i = false := by
    simp [bufferedDecodeFire, bufferedDecodeValid, h.unread]
  cases hfl : i.flushI with
  | true =>
    rw [FetchState.step, hfl]
    exact quiet_flushed
  | false =>
    have hstep : s.step i = s.streamed i := by simp [FetchState.step, hfl, hredir]
    rw [hstep]
    refine ⟨fun bank => ?_, by simp [streamed, requestStarts, pcAcceptMiss, hacc, h.noRequest]⟩
    have hbuffer : (s.streamed i).buffer bank = s.buffer bank := by
      simp [streamed, bufferNext, hfire, hcomp, requestStarts, pcAcceptMiss, pcAcceptHit, hacc]
    exact (congrArg (fun b : FetchBuffer => b.count != 0) hbuffer).trans (h.unread bank)

theorem harmless_flushed : Harmless flushed := fun _ _ => ⟨rfl, rfl⟩

theorem answeredLine_harmless : (s.answeredLine i).Harmless := by
  intro hflt
  have hfailed : (i.memFaultI || i.memPageFaultI) := by
    rcases hflt with hflt | hflt
    · exact (Bool.or_eq_true _ _).mpr (.inl hflt)
    · exact (Bool.or_eq_true _ _).mpr (.inr hflt)
  simp [answeredLine, hfailed]

/-- Only an answer of memory changes what a buffer holds. -/
theorem Harmless.step (h : s.Harmless) : (s.step i).Harmless := by
  rw [FetchState.step]
  split_ifs
  · exact harmless_flushed
  · exact fun bank hflt => h bank hflt
  · intro bank
    have hansd : (s.answeredLine i).Harmless := answeredLine_harmless
    change (s.bufferNext i bank).Harmless
    simp only [bufferNext]
    split_ifs <;> first | exact h bank | exact hansd

/-- So a packet with a fault carries such an instruction. -/
theorem Harmless.decodeO (h : s.Harmless) (hflt : (s.decodeO i).fault ∨ (s.decodeO i).pageFault) :
    (s.decodeO i).instr = instrNop := by
  have hslot : ∀ (b : FetchBuffer) (upper : Bool), b.Harmless →
      b.fault ∨ b.pageFault → b.slot upper = instrNop := by
    intro b upper hb hf
    cases upper
    · exact (hb hf).1
    · exact (hb hf).2
  rw [FetchState.decodeO] at hflt ⊢
  split_ifs at hflt ⊢ <;> exact hslot _ _ (h _) hflt

/-! ### Addresses -/

/-- Only a replay hands out an address that is not that of a resident instruction. -/
theorem decodeO_pc (s : FetchState) (i : FetchInput) :
    (s.decodeO i).pc = s.readPc ∨ (s.decodeO i).pc = s.replayPc i ∧ s.replayValid i := by
  cases h : s.replayValid i with
  | true => exact .inr ⟨by simp [FetchState.decodeO, h], rfl⟩
  | false => exact .inl (by simp [FetchState.decodeO, h])

end FetchState

end OpenRV64
