/-
The vector load/store unit: one command in front of a queue of slots, each with the beats of
its register group, between the vector register file and a tagged memory stream.
-/
import Mathlib.Data.List.ProdSigma
import Mathlib.Algebra.Group.Nat.Even
import Mathlib.Algebra.Order.Ring.Nat
import Mathlib.Tactic.Ring

namespace OpenRV64

open Bool (and_eq_true not_eq_true')
open List (range mem_range)
open BitVec (ofNat)

/-- The parameters that pass the checks of the elaboration, with `DATAPATH_WIDTH` at 64 and
`MAX_LMUL` at 8 as these demand. -/
structure VecLsuParams where
  vlen : ℕ
  addrWidth : ℕ
  regAddrWidth : ℕ
  tagWidth : ℕ
  memTagWidth : ℕ
  memDataWidth : ℕ
  queueDepth : ℕ
  readOnly : Bool
  numRegs : ℕ
  lmulWidth : ℕ
  vlen_pos : 0 < vlen
  vlen_slices : 64 ∣ vlen
  data_pos : 0 < memDataWidth
  data_slices : 64 ∣ memDataWidth
  data_beats : memDataWidth ∣ vlen * 8
  tag_wide : queueDepth * (vlen * 8 / memDataWidth) ≤ 2 ^ memTagWidth
  depth_pos : 0 < queueDepth
  lmul_wide : 2 ≤ lmulWidth

inductive VecLsuOp where
  | invalid
  | load
  | store
  | reserved
deriving DecidableEq, Repr

@[simp] theorem VecLsuOp.beq_eq_decide (a b : VecLsuOp) : (a == b) = decide (a = b) := rfl

namespace VecLsuParams

variable (p : VecLsuParams)

def memBytes : ℕ := p.memDataWidth / 8

def maxBeats : ℕ := p.vlen * 8 / p.memDataWidth

def baseSlices : ℕ := p.vlen / 64

def rfSlicesPerBeat : ℕ := p.memDataWidth / 64

/-- The beats of a group of `2 ^ lmul` registers. -/
def groupBeats (lmul : ℕ) : ℕ := (p.vlen * 2 ^ lmul + p.memDataWidth - 1) / p.memDataWidth

/-- The slices of a group of `2 ^ lmul` registers. -/
def groupSlices (lmul : ℕ) : ℕ := p.baseSlices * 2 ^ lmul

/-- The bytes of a group of `2 ^ lmul` registers. -/
def groupBytes (lmul : ℕ) : ℕ := p.vlen / 8 * 2 ^ lmul

def misaligned (addr : BitVec p.addrWidth) : Bool := addr.toNat % p.memBytes != 0

end VecLsuParams

/-- A command as the dispatch port carries it. -/
structure VecLsuCommand (p : VecLsuParams) where
  tag : BitVec p.tagWidth
  op : VecLsuOp
  baseGpr : BitVec p.regAddrWidth
  vreg : BitVec p.regAddrWidth
  vtype : BitVec 64
deriving DecidableEq

namespace VecLsuCommand

variable {p : VecLsuParams} (c : VecLsuCommand p)

def vlmul : ℕ := (c.vtype.extractLsb' 0 3).toNat

def lmul : ℕ := c.vlmul % 2 ^ p.lmulWidth

def groupCount : BitVec (p.regAddrWidth + 1) := 1#(p.regAddrWidth + 1) <<< c.lmul

def groupMask : BitVec (p.regAddrWidth + 1) := c.groupCount - 1

def groupValid : Bool :=
  c.vreg.setWidth (p.regAddrWidth + 1) &&& c.groupMask == 0 &&
    decide (c.vreg.toNat + c.groupCount.toNat ≤ p.numRegs)

def vtypeValid : Bool := !c.vtype.getLsbD 63 && c.vtype.extractLsb' 11 52 == 0 && !c.vtype.getLsbD 2

def unsupported : Bool :=
  (c.op != .load && c.op != .store) || (p.readOnly && c.op == .store) ||
    !c.vtypeValid || !c.groupValid

end VecLsuCommand

/-- The registers `slot_*_q` of one slot. -/
structure VecLsuSlot (p : VecLsuParams) where
  valid : Bool
  killed : Bool
  notified : Bool
  ordered : Bool
  fault : Bool
  unsupported : Bool
  tag : BitVec p.tagWidth
  op : VecLsuOp
  addr : BitVec p.addrWidth
  faultAddr : BitVec p.addrWidth
  vreg : BitVec p.regAddrWidth
  lmul : ℕ
  gatherDone : Bool
  gatherIndex : ℕ
  writeIndex : ℕ
  storeSlice : ℕ → BitVec 64
  loadSlice : ℕ → BitVec 64
  beatSent : ℕ → Bool
  beatDone : ℕ → Bool

structure VecLsuState (p : VecLsuParams) where
  pendingValidQ : Bool
  pendingQ : VecLsuCommand p
  slot : ℕ → VecLsuSlot p
  allocateTailQ : ℕ
  replayPulseQ : Bool

/-- The inputs of one cycle; data of the memory port are numbered by register file slice. -/
structure VecLsuInput (p : VecLsuParams) where
  dispatchValidI : Bool
  dispatchI : VecLsuCommand p
  gprReadReadyI : Bool
  gprReadDataI : BitVec p.addrWidth
  rfReadReadyI : Bool
  rfReadDataI : BitVec 64
  operandsReadyI : Bool
  orderedValidI : Bool
  orderedTagI : BitVec p.tagWidth
  completeReadyI : Bool
  retireValidI : Bool
  retireTagI : BitVec p.tagWidth
  retireKillI : Bool
  rfWriteReadyI : Bool
  memReqReadyI : Bool
  memRespValidI : Bool
  memRespTagI : ℕ
  memRespRdataI : ℕ → BitVec 64
  memRespErrorI : Bool
  memRespRetryI : Bool

namespace VecLsuSlot

variable {p : VecLsuParams} (q : VecLsuSlot p)

def allDone : Bool := (List.range p.maxBeats).all q.beatDone

/-- A slot that is still worked on. -/
def working : Bool := q.valid && !q.killed && !q.fault && !q.unsupported

def gathering : Bool := q.working && q.op == .store && !q.gatherDone

/-- The ordered head is the command of the slot. -/
def atHead (i : VecLsuInput p) : Bool := i.orderedValidI && i.orderedTagI == q.tag

/-- The beats of the slot may be requested. -/
def eligible (i : VecLsuInput p) : Bool :=
  q.working && (q.op == .load || (q.op == .store && q.gatherDone && (q.ordered || q.atHead i)))

def requestable (i : VecLsuInput p) (b : ℕ) : Bool := q.eligible i && !q.beatSent b && !q.beatDone b

def completing : Bool := q.valid && !q.killed && !q.notified && q.allDone

end VecLsuSlot

namespace VecLsuState

variable {p : VecLsuParams} (s : VecLsuState p) (i : VecLsuInput p)

def killPending : Bool :=
  i.retireValidI && i.retireKillI && s.pendingValidQ && i.retireTagI == s.pendingQ.tag

def allocateAvailable : Bool := !(s.slot s.allocateTailQ).valid

def gprReadValidO : Bool :=
  s.pendingValidQ && !s.killPending i && i.operandsReadyI && s.allocateAvailable

def pendingPromote : Bool := s.gprReadValidO i && i.gprReadReadyI

def dispatchReadyO : Bool := !s.pendingValidQ || s.pendingPromote i

def dispatchFire : Bool := i.dispatchValidI && s.dispatchReadyO i

def gatherScan : Option ℕ := (List.range p.queueDepth).find? fun k => (s.slot k).gathering

def gatherSlot : ℕ := s.gatherScan.getD 0

def gatherIndex : ℕ := (s.slot s.gatherSlot).gatherIndex

def rfReadValidO : Bool := s.gatherScan.isSome

def rfReadAddrO : BitVec p.regAddrWidth :=
  (s.slot s.gatherSlot).vreg + BitVec.ofNat _ (s.gatherIndex / p.baseSlices)

def rfReadSliceO : ℕ := s.gatherIndex % p.baseSlices

def rfReadFire : Bool := s.rfReadValidO && i.rfReadReadyI

def gatherLast : Bool := s.gatherIndex + 1 == p.groupSlices (s.slot s.gatherSlot).lmul

/-- The first beat of the first slot that may be requested. -/
def requestScan : Option (ℕ × ℕ) :=
  (List.range p.queueDepth ×ˢ List.range p.maxBeats).find? fun x =>
    (s.slot x.1).requestable i x.2

def requestSlot : ℕ := ((s.requestScan i).map Prod.fst).getD 0

def requestBeat : ℕ := ((s.requestScan i).map Prod.snd).getD 0

def memReqValidO : Bool := (s.requestScan i).isSome

def memReqTagO : ℕ := (s.requestSlot i * p.maxBeats + s.requestBeat i) % 2 ^ p.memTagWidth

def memReqWriteO : Bool := s.memReqValidO i && (s.slot (s.requestSlot i)).op == .store

def memReqAddrO : BitVec p.addrWidth :=
  (s.slot (s.requestSlot i)).addr + BitVec.ofNat _ (s.requestBeat i * p.memBytes)

def memReqWdataO (n : ℕ) : BitVec 64 :=
  (s.slot (s.requestSlot i)).storeSlice (s.requestBeat i * p.rfSlicesPerBeat + n)

def memReqWstrbO (n : ℕ) : Bool :=
  s.memReqWriteO i && decide (s.requestBeat i * p.memBytes + n <
    p.groupBytes (s.slot (s.requestSlot i)).lmul)

def memReqFire : Bool := s.memReqValidO i && i.memReqReadyI

def responseSlot : ℕ := i.memRespTagI / p.maxBeats

def responseBeat : ℕ := i.memRespTagI % p.maxBeats

def responseExpected : Bool :=
  decide (i.memRespTagI < p.queueDepth * p.maxBeats) && (s.slot (responseSlot i)).valid &&
    (s.slot (responseSlot i)).beatSent (responseBeat i) &&
      !(s.slot (responseSlot i)).beatDone (responseBeat i)

/-- A response is taken by the beat that its tag names. -/
def responseUse : Bool := i.memRespValidI && s.responseExpected i

def completeScan : Option ℕ := (List.range p.queueDepth).find? fun k => (s.slot k).completing

def completeSlot : ℕ := s.completeScan.getD 0

def completeValidO : Bool := s.completeScan.isSome

def completeTagO : BitVec p.tagWidth := (s.slot s.completeSlot).tag

def completeFaultO : Bool := s.completeValidO && (s.slot s.completeSlot).fault

def completeFaultAddrO : BitVec p.addrWidth := (s.slot s.completeSlot).faultAddr

def completeUnsupportedO : Bool := s.completeValidO && (s.slot s.completeSlot).unsupported

def completeFire : Bool := s.completeValidO && i.completeReadyI

def retireScan : Option ℕ :=
  (List.range p.queueDepth).find? fun k => (s.slot k).valid && (s.slot k).tag == i.retireTagI

def retireSlot : ℕ := (s.retireScan i).getD 0

def retireKillSlot : Bool := i.retireValidI && i.retireKillI && (s.retireScan i).isSome

def retireCommitSlot : Bool :=
  i.retireValidI && !i.retireKillI && (s.retireScan i).isSome &&
    (s.slot (s.retireSlot i)).notified && (s.slot (s.retireSlot i)).allDone &&
      !(s.slot (s.retireSlot i)).killed

def retireLoadWrite : Bool :=
  s.retireCommitSlot i && (s.slot (s.retireSlot i)).op == .load &&
    !(s.slot (s.retireSlot i)).fault && !(s.slot (s.retireSlot i)).unsupported

def retireWriteIndex : ℕ := (s.slot (s.retireSlot i)).writeIndex

def rfWriteValidO : Bool := s.retireLoadWrite i

def rfWriteAddrO : BitVec p.regAddrWidth :=
  (s.slot (s.retireSlot i)).vreg + BitVec.ofNat _ (s.retireWriteIndex i / p.baseSlices)

def rfWriteSliceO : ℕ := s.retireWriteIndex i % p.baseSlices

def rfWriteDataO : BitVec 64 := (s.slot (s.retireSlot i)).loadSlice (s.retireWriteIndex i)

def rfWriteFire : Bool := s.rfWriteValidO i && i.rfWriteReadyI

def retireWriteLast : Bool :=
  s.retireWriteIndex i + 1 == p.groupSlices (s.slot (s.retireSlot i)).lmul

def retireReadyO : Bool :=
  s.killPending i || s.retireKillSlot i ||
    (s.retireCommitSlot i && (!s.retireLoadWrite i || (s.rfWriteFire i && s.retireWriteLast i)))

def retireCommitFire : Bool := s.retireCommitSlot i && s.retireReadyO i

def busyO : Bool := s.pendingValidQ || (List.range p.queueDepth).any fun k => (s.slot k).valid

def replayO : Bool :=
  s.replayPulseQ ||
    (s.pendingValidQ && (!i.operandsReadyI || !s.allocateAvailable ||
      (s.gprReadValidO i && !i.gprReadReadyI))) || (s.rfReadValidO && !i.rfReadReadyI)

end VecLsuState

namespace VecLsuState

variable {p : VecLsuParams} (s : VecLsuState p) (i : VecLsuInput p) (k b : ℕ)

/-- Slot `k` gets the command in front of the queue. -/
def promotes : Bool := s.pendingPromote i && s.allocateTailQ == k

/-- Slot `k` gets a slice of the register group that it stores. -/
def gathers : Bool := s.rfReadFire i && s.gatherSlot == k

/-- The request for beat `b` of slot `k` is accepted. -/
def sends : Bool := s.memReqFire i && s.requestSlot i == k && s.requestBeat i == b

/-- Beat `b` of slot `k` takes a response. -/
def takes : Bool := s.responseUse i && responseSlot i == k && responseBeat i == b

/-- Slot `k` takes a response that is not a retry. -/
def settles : Bool := s.responseUse i && responseSlot i == k && !i.memRespRetryI

def notifies : Bool := s.completeFire i && s.completeSlot == k

def kills : Bool := s.retireKillSlot i && s.retireSlot i == k

def commits : Bool := s.retireCommitFire i && s.retireSlot i == k

/-- A slot whose killed command has no beat left is given back. -/
def drains : Bool := (s.slot k).valid && (s.slot k).killed && (s.slot k).allDone

/-- The registers of slot `k` after a clock edge; of two assignments the later one counts. -/
def slotNext : VecLsuSlot p where
  valid :=
    if s.commits i k || s.drains k then false
    else if s.promotes i k then true
    else (s.slot k).valid
  killed :=
    if s.commits i k then false
    else if s.kills i k then true
    else if s.drains k || s.promotes i k then false
    else (s.slot k).killed
  notified :=
    if s.commits i k then false
    else if s.kills i k || s.notifies i k then true
    else if s.promotes i k then false
    else (s.slot k).notified
  ordered :=
    if s.commits i k then false
    else if (s.slot k).valid && (s.slot k).op == .store && (s.slot k).atHead i then true
    else if s.promotes i k then
      s.pendingQ.op == .store && i.orderedValidI && i.orderedTagI == s.pendingQ.tag
    else (s.slot k).ordered
  fault :=
    if s.settles i k && i.memRespErrorI then true
    else if s.promotes i k then p.misaligned i.gprReadDataI
    else (s.slot k).fault
  unsupported := if s.promotes i k then s.pendingQ.unsupported else (s.slot k).unsupported
  tag := if s.promotes i k then s.pendingQ.tag else (s.slot k).tag
  op := if s.promotes i k then s.pendingQ.op else (s.slot k).op
  addr := if s.promotes i k then i.gprReadDataI else (s.slot k).addr
  faultAddr :=
    if s.settles i k && i.memRespErrorI then
      (s.slot k).addr + BitVec.ofNat _ (responseBeat i * p.memBytes)
    else if s.promotes i k then i.gprReadDataI
    else (s.slot k).faultAddr
  vreg := if s.promotes i k then s.pendingQ.vreg else (s.slot k).vreg
  lmul := if s.promotes i k then s.pendingQ.lmul else (s.slot k).lmul
  gatherDone :=
    if s.gathers i k && s.gatherLast then true
    else if s.promotes i k then
      s.pendingQ.op != .store || p.misaligned i.gprReadDataI || s.pendingQ.unsupported
    else (s.slot k).gatherDone
  gatherIndex :=
    if s.gathers i k && !s.gatherLast then (s.slot k).gatherIndex + 1
    else if s.promotes i k then 0
    else (s.slot k).gatherIndex
  writeIndex :=
    if s.rfWriteFire i && !s.retireWriteLast i && s.retireSlot i == k then
      (s.slot k).writeIndex + 1
    else if s.promotes i k then 0
    else (s.slot k).writeIndex
  storeSlice := fun n =>
    if s.gathers i k && s.gatherIndex == n then i.rfReadDataI else (s.slot k).storeSlice n
  loadSlice := fun n =>
    if s.settles i k && !i.memRespErrorI && (s.slot k).op == .load &&
        n / p.rfSlicesPerBeat == responseBeat i then
      i.memRespRdataI (n % p.rfSlicesPerBeat)
    else (s.slot k).loadSlice n
  beatSent := fun b =>
    if s.takes i k b && i.memRespRetryI && !(s.slot k).killed then false
    else if s.sends i k b then true
    else if s.promotes i k then false
    else (s.slot k).beatSent b
  beatDone := fun b =>
    if s.kills i k && !(s.slot k).beatSent b then true
    else if s.takes i k b && (!i.memRespRetryI || (s.slot k).killed) then true
    else if s.settles i k && i.memRespErrorI && !(s.slot k).beatSent b then true
    else if s.promotes i k then
      p.misaligned i.gprReadDataI || s.pendingQ.unsupported ||
        decide (p.groupBeats s.pendingQ.lmul ≤ b)
    else (s.slot k).beatDone b

def allocateTailNext : ℕ :=
  if s.pendingPromote i then
    if s.allocateTailQ = p.queueDepth - 1 then 0 else s.allocateTailQ + 1
  else s.allocateTailQ

def pendingValidNext : Bool :=
  if s.killPending i then false
  else if s.dispatchFire i then true
  else if s.pendingPromote i then false
  else s.pendingValidQ

def pendingNext : VecLsuCommand p := if s.dispatchFire i then i.dispatchI else s.pendingQ

def replayPulseNext : Bool :=
  s.responseUse i && i.memRespRetryI && !(s.slot (responseSlot i)).killed

def step : VecLsuState p where
  pendingValidQ := s.pendingValidNext i
  pendingQ := s.pendingNext i
  slot := s.slotNext i
  allocateTailQ := s.allocateTailNext i
  replayPulseQ := s.replayPulseNext i

/-- The state after reset. -/
def reset : VecLsuState p where
  pendingValidQ := false
  pendingQ := ⟨0, .invalid, 0, 0, 0⟩
  slot _ := ⟨false, false, false, false, false, false, 0, .invalid, 0, 0, 0, 0, false, 0, 0,
    fun _ => 0, fun _ => 0, fun _ => false, fun _ => false⟩
  allocateTailQ := 0
  replayPulseQ := false

end VecLsuState

namespace VecLsuParams

variable (p : VecLsuParams)

theorem bytes_slices : p.memBytes = 8 * p.rfSlicesPerBeat := by
  obtain ⟨n, hn⟩ := p.data_slices
  rw [memBytes, rfSlicesPerBeat, hn]
  omega

theorem rfSlicesPerBeat_pos : 0 < p.rfSlicesPerBeat := by
  obtain ⟨n, hn⟩ := p.data_slices
  have := p.data_pos
  rw [rfSlicesPerBeat, hn]
  omega

theorem baseSlices_pos : 0 < p.baseSlices := by
  obtain ⟨n, hn⟩ := p.vlen_slices
  have := p.vlen_pos
  rw [baseSlices, hn]
  omega

theorem dataWidth_eq : p.memDataWidth = 64 * p.rfSlicesPerBeat := by
  obtain ⟨n, hn⟩ := p.data_slices
  rw [rfSlicesPerBeat, hn]
  omega

theorem vlen_eq : p.vlen = 64 * p.baseSlices := by
  obtain ⟨n, hn⟩ := p.vlen_slices
  rw [baseSlices, hn]
  omega

theorem maxBeats_mul : p.maxBeats * p.rfSlicesPerBeat = 8 * p.baseSlices := by
  obtain ⟨n, hn⟩ := p.data_beats
  have hdata := p.dataWidth_eq
  have hpos := p.data_pos
  have hbeats : p.maxBeats = n := by
    rw [maxBeats, hn]
    exact Nat.mul_div_cancel_left n hpos
  have hvlen := p.vlen_eq
  rw [hdata, hvlen] at hn
  rw [hbeats]
  apply Nat.eq_of_mul_eq_mul_left (show 0 < 64 by decide)
  calc 64 * (n * p.rfSlicesPerBeat) = 64 * p.rfSlicesPerBeat * n := by ring
    _ = 64 * p.baseSlices * 8 := hn.symm
    _ = 64 * (8 * p.baseSlices) := by ring

theorem maxBeats_pos : 0 < p.maxBeats := by
  have hmul := p.maxBeats_mul
  have hbase := p.baseSlices_pos
  by_contra hz
  rw [Nat.eq_zero_of_not_pos hz, Nat.zero_mul] at hmul
  omega

theorem groupBytes_eq (lmul : ℕ) : p.groupBytes lmul = 8 * p.groupSlices lmul := by
  have hvlen := p.vlen_eq
  rw [groupBytes, groupSlices, hvlen]
  have hdiv : 64 * p.baseSlices / 8 = 8 * p.baseSlices := by omega
  rw [hdiv, Nat.mul_assoc]

theorem groupSlices_pos (lmul : ℕ) : 0 < p.groupSlices lmul :=
  Nat.mul_pos p.baseSlices_pos (Nat.two_pow_pos lmul)

/-- The beats of a group are those in which a slice of it lies. -/
theorem lt_groupBeats_iff {lmul b : ℕ} :
    b < p.groupBeats lmul ↔ b * p.rfSlicesPerBeat < p.groupSlices lmul := by
  have hgroup : p.vlen * 2 ^ lmul = 64 * p.groupSlices lmul := by
    rw [p.vlen_eq, groupSlices, Nat.mul_assoc]
  have hpos := p.data_pos
  rw [groupBeats, hgroup, ← Nat.succ_le_iff, Nat.le_div_iff_mul_le hpos, p.dataWidth_eq,
    Nat.succ_mul]
  have hcomm : b * (64 * p.rfSlicesPerBeat) = 64 * (b * p.rfSlicesPerBeat) := by ring
  rw [hcomm]
  have := p.rfSlicesPerBeat_pos
  omega

theorem groupBeats_of_slice {lmul j : ℕ} (h : j < p.groupSlices lmul) :
    j / p.rfSlicesPerBeat < p.groupBeats lmul := by
  rw [p.lt_groupBeats_iff]
  exact (Nat.div_mul_le_self j p.rfSlicesPerBeat).trans_lt h

theorem groupBeats_of_byte {lmul j : ℕ} (h : j < p.groupBytes lmul) :
    j / p.memBytes < p.groupBeats lmul := by
  rw [p.lt_groupBeats_iff]
  rw [p.groupBytes_eq] at h
  have hle := Nat.div_mul_le_self j p.memBytes
  rw [p.bytes_slices] at hle ⊢
  have hcomm : j / (8 * p.rfSlicesPerBeat) * (8 * p.rfSlicesPerBeat) =
      8 * (j / (8 * p.rfSlicesPerBeat) * p.rfSlicesPerBeat) := by ring
  omega

theorem groupBeats_le {lmul : ℕ} (h : lmul ≤ 3) : p.groupBeats lmul ≤ p.maxBeats := by
  by_contra hlt
  have hbeat := p.lt_groupBeats_iff.mp (Nat.lt_of_not_le hlt)
  rw [p.maxBeats_mul, groupSlices, Nat.mul_comm 8] at hbeat
  have hpow : 2 ^ lmul ≤ 2 ^ 3 := Nat.pow_le_pow_right (by decide) h
  have := Nat.lt_of_mul_lt_mul_left hbeat
  omega

end VecLsuParams

namespace VecLsuCommand

variable {p : VecLsuParams} {c : VecLsuCommand p}

/-- A supported command is a load or a store of one, two, four or eight registers. -/
theorem supported (h : c.unsupported = false) : (c.op = .load ∨ c.op = .store) ∧ c.lmul ≤ 3 := by
  simp only [unsupported, Bool.or_eq_false_iff, Bool.and_eq_false_iff, bne_eq_false_iff_eq,
    Bool.not_eq_false'] at h
  obtain ⟨⟨⟨hop, -⟩, hvtype⟩, -⟩ := h
  refine ⟨hop, ?_⟩
  simp only [vtypeValid, and_eq_true, not_eq_true'] at hvtype
  have hbit : c.vtype.toNat.testBit 2 = false := hvtype.2
  have hlow : c.vlmul = c.vtype.toNat % 8 := by
    simp [vlmul, BitVec.extractLsb'_toNat]
  have hlt : c.vtype.toNat % 8 < 4 := by
    rw [Nat.testBit_eq_decide_div_mod_eq] at hbit
    have := of_decide_eq_false hbit
    omega
  exact (Nat.mod_le _ _).trans (by omega)

end VecLsuCommand

namespace VecLsuState

variable {p : VecLsuParams} {s : VecLsuState p} {i : VecLsuInput p} {k b : ℕ}

theorem scan_some {P : ℕ → Bool} {n k : ℕ} (h : (range n).find? P = some k) : k < n ∧ P k :=
  ⟨mem_range.mp (List.mem_of_find?_eq_some h), List.find?_some h⟩

theorem promotes_spec (h : s.promotes i k) :
    s.pendingPromote i ∧ s.allocateTailQ = k ∧ s.pendingValidQ ∧
      s.killPending i = false ∧ (s.slot k).valid = false := by
  simp only [promotes, pendingPromote, gprReadValidO, allocateAvailable, and_eq_true,
    not_eq_true', beq_iff_eq] at h ⊢
  obtain ⟨⟨⟨⟨⟨hval, hkill⟩, hoperands⟩, hfree⟩, hrdy⟩, rfl⟩ := h
  exact ⟨⟨⟨⟨⟨hval, hkill⟩, hoperands⟩, hfree⟩, hrdy⟩, rfl, hval, hkill, hfree⟩

theorem not_promotes (hval : (s.slot k).valid) : s.promotes i k = false := by
  by_contra h
  have hfree := (promotes_spec (Bool.of_not_eq_false h)).2.2.2.2
  rw [hval] at hfree
  cases hfree

theorem gathers_spec (h : s.gathers i k) :
    k < p.queueDepth ∧ (s.slot k).gathering ∧ s.gatherSlot = k ∧ s.rfReadFire i := by
  simp only [gathers, and_eq_true, beq_iff_eq] at h
  obtain ⟨hfire, hslot⟩ := h
  have hfnd := hfire
  rw [rfReadFire, rfReadValidO, and_eq_true, Option.isSome_iff_exists] at hfnd
  obtain ⟨⟨n, hn⟩, -⟩ := hfnd
  have hk : n = k := by simpa [gatherSlot, hn] using hslot
  subst hk
  exact ⟨(scan_some hn).1, (scan_some hn).2, hslot, hfire⟩

theorem requestScan_some {x : ℕ × ℕ} (h : s.requestScan i = some x) :
    x.1 < p.queueDepth ∧ x.2 < p.maxBeats ∧ (s.slot x.1).requestable i x.2 := by
  have hmem := List.mem_of_find?_eq_some h
  rw [List.mem_product, mem_range, mem_range] at hmem
  have hreq := List.find?_some h
  exact ⟨hmem.1, hmem.2, hreq⟩

theorem memReqFire_spec (h : s.memReqFire i) :
    s.requestSlot i < p.queueDepth ∧ s.requestBeat i < p.maxBeats ∧
      (s.slot (s.requestSlot i)).requestable i (s.requestBeat i) ∧
      s.sends i (s.requestSlot i) (s.requestBeat i) := by
  have hfire := h
  rw [memReqFire, memReqValidO, and_eq_true, Option.isSome_iff_exists] at hfire
  obtain ⟨⟨x, hx⟩, -⟩ := hfire
  have hslot : s.requestSlot i = x.1 := by simp [requestSlot, hx]
  have hbeat : s.requestBeat i = x.2 := by simp [requestBeat, hx]
  rw [hslot, hbeat]
  obtain ⟨hk, hb, hreq⟩ := requestScan_some hx
  exact ⟨hk, hb, hreq, by simp [sends, h, hslot, hbeat]⟩

theorem sends_iff : s.sends i k b ↔ s.memReqFire i ∧ s.requestSlot i = k ∧ s.requestBeat i = b := by
  simp [sends, and_assoc]

theorem sends_spec (h : s.sends i k b) :
    k < p.queueDepth ∧ b < p.maxBeats ∧ (s.slot k).requestable i b := by
  obtain ⟨hfire, rfl, rfl⟩ := sends_iff.mp h
  obtain ⟨hk, hb, hreq, -⟩ := memReqFire_spec hfire
  exact ⟨hk, hb, hreq⟩

theorem responseUse_spec (h : s.responseUse i) :
    i.memRespValidI ∧ responseSlot i < p.queueDepth ∧ responseBeat i < p.maxBeats ∧
      i.memRespTagI = responseSlot i * p.maxBeats + responseBeat i ∧
      (s.slot (responseSlot i)).valid ∧ (s.slot (responseSlot i)).beatSent (responseBeat i) ∧
      (s.slot (responseSlot i)).beatDone (responseBeat i) = false := by
  simp only [responseUse, responseExpected, and_eq_true, decide_eq_true_eq, not_eq_true'] at h
  obtain ⟨hval, ⟨⟨hrng, hslot⟩, hsent⟩, hdone⟩ := h
  refine ⟨hval, Nat.div_lt_of_lt_mul (by rwa [Nat.mul_comm]), Nat.mod_lt _ p.maxBeats_pos,
    ?_, hslot, hsent, hdone⟩
  rw [responseSlot, responseBeat, Nat.mul_comm]
  exact (Nat.div_add_mod _ _).symm

theorem takes_iff : s.takes i k b ↔ s.responseUse i ∧ responseSlot i = k ∧ responseBeat i = b := by
  simp [takes, and_assoc]

theorem takes_spec (h : s.takes i k b) : i.memRespValidI ∧ k < p.queueDepth ∧ b < p.maxBeats ∧
      i.memRespTagI = k * p.maxBeats + b ∧ (s.slot k).valid ∧
      (s.slot k).beatSent b ∧ (s.slot k).beatDone b = false := by
  obtain ⟨huse, rfl, rfl⟩ := takes_iff.mp h
  exact responseUse_spec huse

theorem settles_iff : s.settles i k ↔ s.takes i k (responseBeat i) ∧ i.memRespRetryI = false := by
  simp [settles, takes, and_assoc]

theorem notifies_spec (h : s.notifies i k) : k < p.queueDepth ∧ (s.slot k).completing := by
  simp only [notifies, completeFire, completeValidO, and_eq_true, beq_iff_eq,
    Option.isSome_iff_exists] at h
  obtain ⟨⟨⟨n, hn⟩, -⟩, hslot⟩ := h
  have hk : n = k := by simpa [completeSlot, hn] using hslot
  exact hk ▸ scan_some hn

theorem retireScan_spec (h : (s.retireScan i).isSome) :
    s.retireSlot i < p.queueDepth ∧ (s.slot (s.retireSlot i)).valid ∧
      (s.slot (s.retireSlot i)).tag = i.retireTagI := by
  obtain ⟨n, hn⟩ := Option.isSome_iff_exists.mp h
  have hslot : s.retireSlot i = n := by simp [retireSlot, hn]
  obtain ⟨hlt, hfnd⟩ := scan_some hn
  rw [and_eq_true, beq_iff_eq] at hfnd
  rw [hslot]
  exact ⟨hlt, hfnd⟩

theorem kills_spec (h : s.kills i k) :
    k < p.queueDepth ∧ (s.slot k).valid ∧ (s.slot k).tag = i.retireTagI ∧
      i.retireValidI ∧ i.retireKillI ∧ s.retireSlot i = k := by
  simp only [kills, retireKillSlot, and_eq_true, beq_iff_eq] at h
  obtain ⟨⟨⟨hval, hkill⟩, hfnd⟩, rfl⟩ := h
  obtain ⟨hlt, hslot, htag⟩ := retireScan_spec hfnd
  exact ⟨hlt, hslot, htag, hval, hkill, rfl⟩

theorem retireCommitSlot_spec (h : s.retireCommitSlot i) :
    s.retireSlot i < p.queueDepth ∧ (s.slot (s.retireSlot i)).valid ∧
      (s.slot (s.retireSlot i)).tag = i.retireTagI ∧ i.retireValidI ∧
      i.retireKillI = false ∧ (s.slot (s.retireSlot i)).notified ∧
      (s.slot (s.retireSlot i)).allDone ∧ (s.slot (s.retireSlot i)).killed = false := by
  simp only [retireCommitSlot, and_eq_true, not_eq_true'] at h
  obtain ⟨⟨⟨⟨⟨hval, hkill⟩, hfnd⟩, hnotified⟩, hdone⟩, hlive⟩ := h
  obtain ⟨hlt, hslot, htag⟩ := retireScan_spec hfnd
  exact ⟨hlt, hslot, htag, hval, hkill, hnotified, hdone, hlive⟩

theorem commits_spec (h : s.commits i k) :
    s.retireCommitSlot i ∧ s.retireReadyO i ∧ s.retireSlot i = k := by
  simpa [commits, retireCommitFire, and_assoc] using h

theorem rfWriteFire_spec (h : s.rfWriteFire i) :
    s.retireCommitSlot i ∧ (s.slot (s.retireSlot i)).op = .load ∧
      (s.slot (s.retireSlot i)).fault = false ∧ (s.slot (s.retireSlot i)).unsupported = false := by
  simp only [rfWriteFire, rfWriteValidO, retireLoadWrite, and_eq_true, not_eq_true',
    VecLsuOp.beq_eq_decide, decide_eq_true_eq] at h
  exact ⟨h.1.1.1.1, h.1.1.1.2, h.1.1.2, h.1.2⟩

theorem allDone_iff {q : VecLsuSlot p} : q.allDone ↔ ∀ b < p.maxBeats, q.beatDone b := by
  simp [VecLsuSlot.allDone]

end VecLsuState

end OpenRV64
