/-
The three-wide register ownership map, and the table of the youngest producers that the
back end keeps beside it.
-/
import OpenRV64.BackendDefs
import OpenRV64.RetireQueue

namespace OpenRV64

/-- `WRITER_COUNT_WIDTH`, which `openrv64_dispatch_3p` leaves at its default. -/
abbrev writerCountWidth : ℕ := 5

structure RegMap3pParams where
  maxReadsPerReg : ℕ
  relaxWaw : Bool
  relaxHazards : Bool

/-- A candidate for issue, as the map reads it. -/
structure MapCandidate where
  valid : Bool
  branch : Bool
  usesRs1 : Bool
  usesRs2 : Bool
  rs1 : BitVec 5
  rs2 : BitVec 5
  regWrite : Bool
  rd : BitVec 5
  pipe : ExecPipe

structure RegMap3pState where
  writeBusyQ : BitVec 5 → Bool
  writerCountQ : BitVec 5 → BitVec writerCountWidth

structure RegMap3pInput where
  clearI : Bool
  candidateI : Fin 3 → MapCandidate
  forwardEx0I : Option (BitVec 5)
  forwardEx1I : Option (BitVec 5)
  completionForwardValidI : Fin 3 → Bool
  completionForwardRdI : Fin 3 → BitVec 5
  branchCompletionForwardValidI : Fin 3 → Bool
  forwardMapValidI : BitVec 5 → Bool
  allocationFireI : Fin 3 → Bool
  retireValidI : Fin 3 → Bool
  retireRegWriteI : Fin 3 → Bool
  retireRdI : Fin 3 → BitVec 5

/-! ## Ports -/

namespace RegMap3pInput

variable (i : RegMap3pInput)

/-- A retirement lane releases `r`. -/
def retires (r : BitVec 5) (lane : Fin 3) : Bool :=
  i.retireValidI lane && i.retireRegWriteI lane && i.retireRdI lane == r

/-- An allocation lane takes `r`. -/
def allocates (r : BitVec 5) (lane : Fin 3) : Bool :=
  i.allocationFireI lane && (i.candidateI lane).regWrite && (i.candidateI lane).rd == r

/-- `writer_retire_count`. -/
def writerRetireCount (r : BitVec 5) : ℕ :=
  if r = 0 then 0 else laneCount (i.retires r)

/-- `writer_alloc_count`. -/
def writerAllocCount (r : BitVec 5) : ℕ :=
  if r = 0 then 0 else laneCount (i.allocates r)

def retireWriteHot (r : BitVec 5) : Bool :=
  r != 0 && (i.retires r 0 || i.retires r 1 || i.retires r 2)

def allocationWriteHot (r : BitVec 5) : Bool :=
  r != 0 && (i.allocates r 0 || i.allocates r 1 || i.allocates r 2)

/-- How many operands of the lanes in `mask` read `addr`. -/
def countReads (addr : BitVec 5) (mask : Fin 3 → Bool) : ℕ :=
  if addr = 0 then 0
  else
    laneCount (fun lane => mask lane && (i.candidateI lane).usesRs1 &&
      (i.candidateI lane).rs1 == addr) +
    laneCount (fun lane => mask lane && (i.candidateI lane).usesRs2 &&
      (i.candidateI lane).rs2 == addr)

def completionForwardMatch (addr : BitVec 5) (valid : Fin 3 → Bool) : Bool :=
  addr != 0 && ((valid 0 && i.completionForwardRdI 0 == addr) ||
    (valid 1 && i.completionForwardRdI 1 == addr) || (valid 2 && i.completionForwardRdI 2 == addr))

def samePipeForward (pipe : ExecPipe) (addr : BitVec 5) : Bool :=
  addr != 0 && ((pipe == .ex0 && i.forwardEx0I == some addr) ||
    (pipe == .ex1 && i.forwardEx1I == some addr))

end RegMap3pInput

/-! ## Hazards of the candidates -/

namespace RegMap3pState

variable (p : RegMap3pParams) (s : RegMap3pState) (i : RegMap3pInput)

def countBusyAfterRetire (r : BitVec 5) : Bool :=
  decide (i.writerRetireCount r < (s.writerCountQ r).toNat)

def countUnambiguousWriter (r : BitVec 5) : Bool := r != 0 && s.writerCountQ r == 1

def busyAfterRetire (r : BitVec 5) : Bool :=
  if p.relaxWaw then r != 0 && s.countBusyAfterRetire i r
  else s.writeBusyQ r && !i.retireWriteHot r

/-- `forward_rs1` and `forward_rs2` of a candidate that reads `addr`. -/
def forwards (c : MapCandidate) (addr : BitVec 5) : Bool :=
  (c.branch && i.completionForwardMatch addr i.branchCompletionForwardValidI) ||
    ((!p.relaxWaw || p.relaxHazards || s.countUnambiguousWriter addr) &&
      (i.forwardMapValidI addr || i.completionForwardMatch addr i.completionForwardValidI ||
        i.samePipeForward c.pipe addr))

def writes (lane : Fin 3) : Bool :=
  (i.candidateI lane).valid && (i.candidateI lane).regWrite && (i.candidateI lane).rd != 0

def readsRs1 (lane : Fin 3) : Bool :=
  (i.candidateI lane).valid && (i.candidateI lane).usesRs1 && (i.candidateI lane).rs1 != 0

def readsRs2 (lane : Fin 3) : Bool :=
  (i.candidateI lane).valid && (i.candidateI lane).usesRs2 && (i.candidateI lane).rs2 != 0

/-- The lanes of `accepted` write `r` in this bundle. -/
def writeHot (accepted : Fin 3 → Bool) (r : BitVec 5) : Bool :=
  (accepted 0 && writes i 0 && (i.candidateI 0).rd == r) ||
    (accepted 1 && writes i 1 && (i.candidateI 1).rd == r) ||
    (accepted 2 && writes i 2 && (i.candidateI 2).rd == r)

/-- `raw` of a lane behind the `accepted` ones. -/
def rawBehind (accepted : Fin 3 → Bool) (lane : Fin 3) : Bool :=
  let c := i.candidateI lane
  (readsRs1 i lane && ((s.busyAfterRetire p i c.rs1 && !s.forwards p i c c.rs1) ||
      writeHot i accepted c.rs1)) ||
    (readsRs2 i lane && ((s.busyAfterRetire p i c.rs2 && !s.forwards p i c c.rs2) ||
      writeHot i accepted c.rs2))

def wawBehind (accepted : Fin 3 → Bool) (lane : Fin 3) : Bool :=
  !p.relaxWaw && writes i lane &&
    (s.busyAfterRetire p i (i.candidateI lane).rd || writeHot i accepted (i.candidateI lane).rd)

def readPortBehind (accepted : Fin 3 → Bool) (lane : Fin 3) : Bool :=
  let c := i.candidateI lane
  let mask := fun other => accepted other || (other == lane && c.valid)
  !p.relaxHazards && c.valid &&
    ((readsRs1 i lane && decide (p.maxReadsPerReg < i.countReads c.rs1 mask)) ||
      (readsRs2 i lane && decide (p.maxReadsPerReg < i.countReads c.rs2 mask)))

def hazardBehind (accepted : Fin 3 → Bool) (lane : Fin 3) : Bool :=
  s.rawBehind p i accepted lane || s.wawBehind p i accepted lane || readPortBehind p i accepted lane

def noLane : Fin 3 → Bool := fun _ => false

def accept0 : Bool := (i.candidateI 0).valid && !s.hazardBehind p i noLane 0

/-- The lanes accepted before lane 1. -/
def before1 : Fin 3 → Bool := fun lane => lane == 0 && s.accept0 p i

def hazardFree1 : Bool := !s.hazardBehind p i noLane 0 && !s.hazardBehind p i (s.before1 p i) 1

def accept1 : Bool := (i.candidateI 1).valid && s.hazardFree1 p i

/-- The lanes accepted before lane 2. -/
def before2 : Fin 3 → Bool := fun lane => s.before1 p i lane || (lane == 1 && s.accept1 p i)

def accepted : Fin 3 → Fin 3 → Bool
  | 0 => noLane
  | 1 => s.before1 p i
  | 2 => s.before2 p i

def candidateHazardFreeO : Fin 3 → Bool
  | 0 => !s.hazardBehind p i noLane 0
  | 1 => s.hazardFree1 p i
  | 2 => s.hazardFree1 p i && !s.hazardBehind p i (s.before2 p i) 2

def rawHazardO (lane : Fin 3) : Bool := s.rawBehind p i (s.accepted p i lane) lane
def wawHazardO (lane : Fin 3) : Bool := s.wawBehind p i (s.accepted p i lane) lane
def readPortHazardO (lane : Fin 3) : Bool := readPortBehind p i (s.accepted p i lane) lane
def writeBusyO : BitVec 5 → Bool := s.writeBusyQ

/-! ## Registers -/

/-- The sum that the counter of `r` is assigned from, as wide as an `integer`. -/
def writersNext (r : BitVec 5) : BitVec 32 :=
  (s.writerCountQ r).setWidth 32 + BitVec.ofNat 32 (i.writerAllocCount r) -
    BitVec.ofNat 32 (i.writerRetireCount r)

/-- One clock edge of `openrv64_dispatch_reg_map_3p`. -/
def step : RegMap3pState :=
  if i.clearI then ⟨fun _ => false, fun _ => 0⟩
  else if p.relaxWaw then
    { writerCountQ := fun r => if r = 0 then 0 else (s.writersNext i r).setWidth _
      writeBusyQ := fun r => r != 0 && s.writersNext i r != 0 }
  else
    { s with
      writeBusyQ := fun r => r != 0 && (s.busyAfterRetire p i r || i.allocationWriteHot r) }

def reset : RegMap3pState := ⟨fun _ => false, fun _ => 0⟩

end RegMap3pState

/-! ## The youngest producers -/

structure YoungestOwner where
  valid : Bool
  ready : Bool
  id : BitVec instrIdWidth
  slot : ℕ
  data : BitVec 64

/-- The inputs of one cycle of the map and of the table. -/
structure WriterInput where
  map : RegMap3pInput
  allocationIdI : Fin 3 → BitVec instrIdWidth
  allocationSlotI : Fin 3 → ℕ
  windowRetireSlotI : Fin 3 → ℕ
  completeValidI : Fin 3 → Bool
  completeIdI : Fin 3 → BitVec instrIdWidth
  completePayloadI : Fin 3 → CompletePayload

/-- The last set lane, whose assignment wins. -/
def winningLane (lanes : Fin 3 → Bool) : Option (Fin 3) :=
  if lanes 2 then some 2 else if lanes 1 then some 1 else if lanes 0 then some 0 else none

namespace WriterInput

variable (i : WriterInput) (o : YoungestOwner) (r : BitVec 5)

/-- The owner of `r` retires. -/
def releasesOwner : Bool :=
  r != 0 && o.valid && (List.finRange 3).any fun lane => i.map.retires r lane &&
      o.slot == i.windowRetireSlotI lane

/-- The port through which the owner of `r` completes. -/
def completesOwner : Option (Fin 3) :=
  winningLane fun port => i.completeValidI port && (i.completePayloadI port).regWrite &&
    !(i.completePayloadI port).illegal && !(i.completePayloadI port).exception &&
    (i.completePayloadI port).rd == r && r != 0 && o.valid && o.id == i.completeIdI port

/-- The lane that allocates the new owner of `r`. -/
def allocatesOwner : Option (Fin 3) := winningLane fun lane => r != 0 && i.map.allocates r lane

/-- One clock edge of the `youngest_owner` table.  Within one register the later
assignment wins: retirement, completion, allocation. -/
def ownerNext : YoungestOwner :=
  if i.map.clearI then { o with valid := false, ready := false }
  else
    { valid := r != 0 && ((i.allocatesOwner r).isSome || (o.valid && !i.releasesOwner o r))
      ready := r != 0 && !(i.allocatesOwner r).isSome &&
        ((i.completesOwner o r).isSome || (o.ready && !i.releasesOwner o r))
      id :=
        match i.allocatesOwner r with
        | some lane => i.allocationIdI lane
        | none => o.id
      slot :=
        match i.allocatesOwner r with
        | some lane => i.allocationSlotI lane
        | none => o.slot
      data :=
        match i.completesOwner o r with
        | some port => (i.completePayloadI port).data
        | none => o.data }

end WriterInput

end OpenRV64
