/-
The vector load/store unit between the front end that dispatches and retires its commands
and a memory that answers its requests in any order, with what has become of each command.
-/
import OpenRV64.SyncRun
import OpenRV64.VecLsu

namespace OpenRV64

open VecLsuState (responseSlot)

/-- A request as the memory accepted it. -/
structure VecMemRequest (p : VecLsuParams) where
  command : ℕ
  beat : ℕ
  tag : ℕ
  write : Bool
  addr : BitVec p.addrWidth
  wdata : ℕ → BitVec 64
  wstrb : ℕ → Bool

/-- A slice of a vector register with its contents. -/
structure VecRegSlice (p : VecLsuParams) where
  reg : BitVec p.regAddrWidth
  slice : ℕ
  data : BitVec 64
deriving DecidableEq

/-- What has become of a command: the pointer it read, what it read from the register file,
the beats that memory has stored for it, what memory has answered to its reads, and what it
wrote to the register file. -/
structure VecLsuRecord (p : VecLsuParams) where
  command : VecLsuCommand p
  pointer : Option (BitVec p.addrWidth)
  wasHead : Bool
  killed : Bool
  faulted : Bool
  gathered : List (VecRegSlice p)
  stored : List ℕ
  loaded : ℕ → Option (ℕ → BitVec 64)
  written : List (VecRegSlice p)

def VecLsuCommand.record {p : VecLsuParams} (c : VecLsuCommand p) : VecLsuRecord p :=
  ⟨c, none, false, false, false, [], [], fun _ => none, []⟩

/-- The first `n` slices of the group of registers from `vreg` on. -/
def VecLsuParams.groupImage (p : VecLsuParams) (vreg : BitVec p.regAddrWidth) (n : ℕ)
    (data : ℕ → BitVec 64) : List (VecRegSlice p) :=
  (List.range n).map fun j => ⟨vreg + BitVec.ofNat _ (j / p.baseSlices), j % p.baseSlices, data j⟩

/-- Slice `j` of what memory has answered. -/
def VecLsuRecord.loadedSlice {p : VecLsuParams} (r : VecLsuRecord p) (j : ℕ) : BitVec 64 :=
  (r.loaded (j / p.rfSlicesPerBeat)).elim 0 fun data => data (j % p.rfSlicesPerBeat)

/-- The unit with the numbers of the commands that it holds, in the order of dispatch. -/
structure VecLsuLedger (p : VecLsuParams) where
  core : VecLsuState p
  dispatched : ℕ
  pendingId : ℕ
  owner : ℕ → ℕ
  record : ℕ → VecLsuRecord p
  /-- The commands that are neither retired nor killed. -/
  live : List ℕ
  inFlight : List (VecMemRequest p)

/-- The inputs of a cycle, with the place in flight of the request that memory answers. -/
structure VecLsuCycle (p : VecLsuParams) where
  port : VecLsuInput p
  answers : ℕ

namespace VecLsuLedger

variable {p : VecLsuParams} (t : VecLsuLedger p) (x : VecLsuCycle p)

/-- The request that memory answers in this cycle. -/
def answered : Option (VecMemRequest p) :=
  if x.port.memRespValidI then t.inFlight[x.answers]? else none

/-- The request that the unit offers. -/
def offered : VecMemRequest p where
  command := t.owner (t.core.requestSlot x.port)
  beat := t.core.requestBeat x.port
  tag := t.core.memReqTagO x.port
  write := t.core.memReqWriteO x.port
  addr := t.core.memReqAddrO x.port
  wdata := t.core.memReqWdataO x.port
  wstrb := t.core.memReqWstrbO x.port

/-- Command `n` is the one that an accepted retirement names. -/
def retires (n : ℕ) : Bool :=
  x.port.retireValidI && t.core.retireReadyO x.port && t.live.contains n &&
    (t.record n).command.tag == x.port.retireTagI

/-- Command `n` is the ordered head. -/
def isHead (n : ℕ) : Bool :=
  x.port.orderedValidI && t.live.contains n && (t.record n).command.tag == x.port.orderedTagI

/-- A write of command `n` is refused for now. -/
def refused (n : ℕ) : Option ℕ :=
  (t.answered x).bind fun r =>
    if r.command = n ∧ r.write = true ∧ x.port.memRespRetryI = true then some r.beat else none

/-- What memory answers to a read of beat `b` of command `n`. -/
def readAnswer (n b : ℕ) : Option (ℕ → BitVec 64) :=
  (t.answered x).bind fun r =>
    if r.command = n ∧ r.beat = b ∧ r.write = false ∧ x.port.memRespRetryI = false ∧
        x.port.memRespErrorI = false then some x.port.memRespRdataI else none

/-- The pointer of command `n` turns out to be misaligned, or memory answers an error. -/
def faults (n : ℕ) : Bool :=
  (t.core.pendingPromote x.port && t.pendingId == n && p.misaligned x.port.gprReadDataI) ||
    ((t.answered x).any fun r => r.command == n) && x.port.memRespErrorI && !x.port.memRespRetryI

def gatheredNow : VecRegSlice p := ⟨t.core.rfReadAddrO, t.core.rfReadSliceO, x.port.rfReadDataI⟩

def writtenNow : VecRegSlice p :=
  ⟨t.core.rfWriteAddrO x.port, t.core.rfWriteSliceO x.port, t.core.rfWriteDataO x.port⟩

/-- The beats stored for command `n`, less the one that memory refuses. -/
def storedKept (n : ℕ) : List ℕ :=
  match t.refused x n with
  | some b => (t.record n).stored.erase b
  | none => (t.record n).stored

def storedNext (n : ℕ) : List ℕ :=
  if t.core.memReqFire x.port && (t.offered x).write && (t.offered x).command == n then
    (t.offered x).beat :: t.storedKept x n
  else t.storedKept x n

/-- What the cycle adds to the record of a command. -/
def recordKept (n : ℕ) : VecLsuRecord p where
  command := (t.record n).command
  pointer :=
    if t.core.pendingPromote x.port && t.pendingId == n then some x.port.gprReadDataI
    else (t.record n).pointer
  wasHead := (t.record n).wasHead || t.isHead x n
  killed := (t.record n).killed || (t.retires x n && x.port.retireKillI)
  faulted := (t.record n).faulted || t.faults x n
  gathered :=
    if t.core.rfReadFire x.port && t.owner t.core.gatherSlot == n then
      (t.record n).gathered ++ [t.gatheredNow x]
    else (t.record n).gathered
  stored := t.storedNext x n
  loaded := fun b => (t.readAnswer x n b).or ((t.record n).loaded b)
  written :=
    if t.core.rfWriteFire x.port && t.owner (t.core.retireSlot x.port) == n then
      (t.record n).written ++ [t.writtenNow x]
    else (t.record n).written

def recordNext (n : ℕ) : VecLsuRecord p :=
  if t.core.dispatchFire x.port && t.dispatched == n then x.port.dispatchI.record
  else t.recordKept x n

def step : VecLsuLedger p where
  core := t.core.step x.port
  dispatched := if t.core.dispatchFire x.port then t.dispatched + 1 else t.dispatched
  pendingId := if t.core.dispatchFire x.port then t.dispatched else t.pendingId
  owner := fun k => if t.core.promotes x.port k then t.pendingId else t.owner k
  record := t.recordNext x
  live :=
    (t.live.filter fun n => !t.retires x n) ++
      if t.core.dispatchFire x.port then [t.dispatched] else []
  inFlight :=
    (if x.port.memRespValidI then t.inFlight.eraseIdx x.answers else t.inFlight) ++
      if t.core.memReqFire x.port then [t.offered x] else []

/-- What the surroundings promise: the tag of a new command differs from those of the
commands that stay live, and a response answers a request in flight, once. -/
def Served : Prop :=
  (t.core.dispatchFire x.port = true → ∀ n ∈ t.live, t.retires x n = false →
    (t.record n).command.tag ≠ x.port.dispatchI.tag) ∧
  (x.port.memRespValidI = true → ((t.answered x).any fun r => r.tag == x.port.memRespTagI) ∧
    (x.port.memRespRetryI && x.port.memRespErrorI) = false)

instance : Decidable (t.Served x) := inferInstanceAs (Decidable (_ ∧ _))

end VecLsuLedger

/-- The vector load/store unit from reset. -/
def vecLsu (p : VecLsuParams) : Sync.Circuit (VecLsuLedger p) (VecLsuCycle p) where
  Init t := t.core = .reset ∧ t.dispatched = 0 ∧ t.live = [] ∧ t.inFlight = [] ∧
    ∀ n, t.record n = VecLsuCommand.record ⟨0, .invalid, 0, 0, 0⟩
  step t x := t.step x

namespace VecLsuSlot

variable {p : VecLsuParams} (q : VecLsuSlot p)

/-- Beat `b` has not been requested, or has to be requested again, and the slot is one whose
beats the unit goes on to request. -/
def Awaits (b : ℕ) : Prop :=
  q.working = true ∧ (q.op = .load ∨ q.op = .store) ∧ q.beatSent b = false ∧ q.beatDone b = false

end VecLsuSlot

namespace VecLsuLedger

variable {p : VecLsuParams} (t : VecLsuLedger p) (x : VecLsuCycle p)

/-- What holds of the unit in every cycle. -/
structure Exact : Prop where
  /-- A response goes to the command and the beat whose request it answers. -/
  attributed : ∀ r, t.answered x = some r → t.core.responseUse x.port = true →
    t.owner (VecLsuState.responseSlot x.port) = r.command ∧ VecLsuState.responseBeat x.port = r.beat
  /-- A slot is given back when no request of its command is unanswered. -/
  freed : ∀ k < p.queueDepth, (t.core.slot k).valid = true →
    ((t.step x).core.slot k).valid = false → ∀ r ∈ (t.step x).inFlight, r.command ≠ t.owner k
  /-- A beat that is not done is outstanding, or will be requested. -/
  kept : ∀ k < p.queueDepth, (t.core.slot k).valid = true → ∀ b < p.maxBeats,
    (t.core.slot k).beatDone b = false →
      (∃ r ∈ t.inFlight, r.command = t.owner k ∧ r.beat = b) ∨ (t.core.slot k).Awaits b
  /-- A request is for a beat of its command, at the place of the beat. -/
  request : t.core.memReqFire x.port = true → ∃ base,
    (t.record (t.offered x).command).pointer = some base ∧
      (t.offered x).beat < p.groupBeats (t.record (t.offered x).command).command.lmul ∧
      (t.offered x).addr = base + BitVec.ofNat _ ((t.offered x).beat * p.memBytes)
  /-- A load without a fault delivers what memory has answered to its own requests. -/
  load : ∀ n, t.retires x n = true → x.port.retireKillI = false →
    (t.record n).command.op = .load → (t.record n).command.unsupported = false →
    (t.record n).faulted = false →
      (∀ b < p.groupBeats (t.record n).command.lmul, ((t.record n).loaded b).isSome) ∧
      ((t.step x).record n).written = p.groupImage (t.record n).command.vreg
        (p.groupSlices (t.record n).command.lmul) (t.record n).loadedSlice
  /-- A store sends what it has read of its register group, once it has been the head. -/
  store : t.core.memReqFire x.port = true → (t.offered x).write = true →
    ((t.step x).record (t.offered x).command).wasHead = true ∧
    (t.offered x).beat ∉ (t.record (t.offered x).command).stored ∧
    (∃ data, (t.record (t.offered x).command).gathered =
        p.groupImage (t.record (t.offered x).command).command.vreg
          (p.groupSlices (t.record (t.offered x).command).command.lmul) data ∧
      ∀ n, (t.offered x).wdata n = data ((t.offered x).beat * p.rfSlicesPerBeat + n)) ∧
    ∀ n, (t.offered x).wstrb n = true ↔ (t.offered x).beat * p.memBytes + n <
      p.groupBytes (t.record (t.offered x).command).command.lmul
  storedOnce : ∀ n, (t.record n).stored.Nodup
  /-- A store that retires without a fault has stored every byte of its group. -/
  storedAll : ∀ n, t.retires x n = true → x.port.retireKillI = false →
    (t.record n).command.op = .store → (t.record n).command.unsupported = false →
    (t.record n).faulted = false →
      ∀ j < p.groupBytes (t.record n).command.lmul, j / p.memBytes ∈ (t.record n).stored
  killed : ∀ n, ((t.step x).record n).killed = true → ((t.step x).record n).written = []

/-- No slot has a request accepted in the cycle in which it is killed or takes an error. -/
def RequestClear : Prop :=
  ∀ k < p.queueDepth, ∀ b < p.maxBeats, t.core.sends x.port k b = true →
    t.core.kills x.port k = false ∧ (t.core.settles x.port k && x.port.memRespErrorI) = false

/-- No retry comes for a slot that has a fault or is being killed. -/
def RetryClear : Prop :=
  t.core.responseUse x.port = true → x.port.memRespRetryI = true →
    (t.core.slot (VecLsuState.responseSlot x.port)).killed = false →
      (t.core.slot (VecLsuState.responseSlot x.port)).fault = false ∧
      t.core.kills x.port (VecLsuState.responseSlot x.port) = false

/-- A kill does not find the slot of an earlier command of the same tag, which still waits
for memory, in place of its own, and does not name a command that has begun to write its
registers. -/
def KillClear : Prop :=
  t.core.retireKillSlot x.port = true →
    ((t.core.slot (t.core.retireSlot x.port)).killed = true →
      ∀ k < p.queueDepth, (t.core.slot k).valid = true → (t.core.slot k).killed = false →
        (t.core.slot k).tag ≠ x.port.retireTagI) ∧
    (t.core.slot (t.core.retireSlot x.port)).writeIndex = 0

def Clear : Prop := t.RequestClear x ∧ t.RetryClear x ∧ t.KillClear x

instance : Decidable (t.RequestClear x) :=
  inferInstanceAs (Decidable (∀ k < p.queueDepth, ∀ b < p.maxBeats, _ → _))

instance : Decidable (t.RetryClear x) := inferInstanceAs (Decidable (_ → _ → _ → _))

instance : Decidable (t.KillClear x) := inferInstanceAs (Decidable (_ → _))

instance : Decidable (t.Clear x) := inferInstanceAs (Decidable (_ ∧ _ ∧ _))

end VecLsuLedger

end OpenRV64
