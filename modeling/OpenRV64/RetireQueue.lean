/-
The three-wide retirement queue: a ring of identifiers and control bits with up
to three allocations, three retirements, four completions and a selective
squash in one cycle.
-/
import OpenRV64.ModularAge
import OpenRV64.RingSegment
import OpenRV64.SnoopFilter
import OpenRV64.SyncRun

namespace OpenRV64

open BitVec (ofNat)
open List (map_append append_assoc range' range)

/-- The parameters of the retirement queue with the bound its simulation check
enforces. -/
structure RetireQueueParams where
  depth : Nat
  idWidth : Nat
  enableExtensionCompletion : Bool
  depth_pos : 1 ≤ depth
  depth_lt : depth < 2 ^ (idWidth - 1)

namespace RetireQueueParams

variable (p : RetireQueueParams)

def indexWidth : Nat := if p.depth ≤ 1 then 1 else clog2 p.depth
def countWidth : Nat := clog2 (p.depth + 1)

/-- The next slots of the ring, as the source computes them. -/
def indexAdd (base increment : Nat) : Nat :=
  let sum := base + increment
  (if sum ≥ p.depth then sum - p.depth else sum) % 2 ^ p.indexWidth

/-- The number of slots from `first` through `last`. -/
def prefixCountThrough (first last : Nat) : BitVec p.countWidth :=
  BitVec.ofNat p.countWidth (if last ≥ first then last - first + 1 else p.depth - first + last + 1)

end RetireQueueParams

structure RetireQueueState (p : RetireQueueParams) where
  validQ : Nat → Bool
  completeQ : Nat → Bool
  idQ : Nat → BitVec p.idWidth
  headQ : Nat
  tailQ : Nat
  countQ : BitVec p.countWidth
  nextAllocIdQ : BitVec p.idWidth
  nextRetireIdQ : BitVec p.idWidth

structure RetireQueueInput (p : RetireQueueParams) where
  flushI : Bool
  squashYoungerI : Bool
  squashIdI : BitVec p.idWidth
  squashSlotI : Nat
  allocValidI : Fin 3 → Bool
  allocCompleteI : Fin 3 → Bool
  completeValidI : Fin 3 → Bool
  completeIdI : Fin 3 → BitVec p.idWidth
  completeSlotI : Fin 3 → Nat
  extensionCompleteValidI : Bool
  extensionCompleteIdI : BitVec p.idWidth
  extensionCompleteSlotI : Nat
  retireAcceptI : Fin 3 → Bool

/-- There is a first lane. -/
instance threeLanes : NeZero 3 := ⟨Nat.succ_ne_zero 2⟩

/-- The number of set lanes. -/
def laneCount (lanes : Fin 3 → Bool) : Nat := (lanes 0).toNat + (lanes 1).toNat + (lanes 2).toNat

namespace RetireQueueState

variable {p : RetireQueueParams}

/-- `valid_q[slot]`.  A slot number beyond the ring reads no entry. -/
def validAt (s : RetireQueueState p) (slot : Nat) : Bool := decide (slot < p.depth) && s.validQ slot

def completeAt (s : RetireQueueState p) (slot : Nat) : Bool :=
  decide (slot < p.depth) && s.completeQ slot

def freeCount (s : RetireQueueState p) : BitVec p.countWidth :=
  BitVec.ofNat p.countWidth p.depth - s.countQ

def allocReadyO (s : RetireQueueState p) (i : RetireQueueInput p) : Bool :=
  decide (laneCount i.allocValidI ≤ s.freeCount.toNat)

def allocFire (s : RetireQueueState p) (i : RetireQueueInput p) : Fin 3 → Bool :=
  fun lane => i.allocValidI lane && s.allocReadyO i

def allocSlot (s : RetireQueueState p) (lane : Fin 3) : Nat := p.indexAdd s.tailQ lane

def allocId (s : RetireQueueState p) (lane : Fin 3) : BitVec p.idWidth :=
  s.nextAllocIdQ + BitVec.ofNat p.idWidth lane

/-- `retire_slot0` is the head itself. -/
def retireSlotO (s : RetireQueueState p) (lane : Fin 3) : Nat :=
  if lane = 0 then s.headQ else p.indexAdd s.headQ lane

def retirable (s : RetireQueueState p) (lane : Fin 3) : Bool :=
  s.validAt (s.retireSlotO lane) && s.completeAt (s.retireSlotO lane)

/-- A lane may retire only together with the lanes before it. -/
def retireValidO (s : RetireQueueState p) : Fin 3 → Bool
  | 0 => s.retirable 0
  | 1 => s.retirable 0 && s.retirable 1
  | 2 => s.retirable 0 && s.retirable 1 && s.retirable 2

def retireIdO (s : RetireQueueState p) (lane : Fin 3) : BitVec p.idWidth :=
  if s.retireValidO lane then s.idQ (s.retireSlotO lane) else 0

def retireFire (s : RetireQueueState p) (i : RetireQueueInput p) : Fin 3 → Bool :=
  fun lane => s.retireValidO lane && i.retireAcceptI lane

def retireCount (s : RetireQueueState p) (i : RetireQueueInput p) : Nat :=
  laneCount (s.retireFire i)

/-- A completion is taken only by the live entry that it names. -/
def completionMatches (s : RetireQueueState p) (i : RetireQueueInput p)
    (valid : Bool) (id : BitVec p.idWidth) (slot : Nat) : Bool :=
  valid && (!i.squashYoungerI || !ModularAge.isYounger id i.squashIdI) &&
    s.validAt slot && s.idQ slot == id

def completeAcceptO (s : RetireQueueState p) (i : RetireQueueInput p) (port : Fin 3) : Bool :=
  s.completionMatches i (i.completeValidI port) (i.completeIdI port) (i.completeSlotI port)

def extensionCompleteAcceptO (s : RetireQueueState p) (i : RetireQueueInput p) : Bool :=
  p.enableExtensionCompletion &&
    s.completionMatches i i.extensionCompleteValidI i.extensionCompleteIdI
      i.extensionCompleteSlotI

def squashKeepCount (s : RetireQueueState p) (i : RetireQueueInput p) : BitVec p.countWidth :=
  p.prefixCountThrough s.headQ i.squashSlotI

/-- The lane whose allocation into `slot` is assigned last. -/
def allocLane (s : RetireQueueState p) (i : RetireQueueInput p) (slot : Nat) : Option (Fin 3) :=
  if s.allocFire i 2 && s.allocSlot 2 == slot then some 2
  else if s.allocFire i 1 && s.allocSlot 1 == slot then some 1
  else if s.allocFire i 0 && s.allocSlot 0 == slot then some 0
  else none

def retiresSlot (s : RetireQueueState p) (i : RetireQueueInput p) (slot : Nat) : Bool :=
  (s.retireFire i 0 && s.retireSlotO 0 == slot) || (s.retireFire i 1 && s.retireSlotO 1 == slot) ||
    (s.retireFire i 2 && s.retireSlotO 2 == slot)

def completesSlot (s : RetireQueueState p) (i : RetireQueueInput p) (slot : Nat) : Bool :=
  (s.completeAcceptO i 0 && i.completeSlotI 0 == slot) ||
    (s.completeAcceptO i 1 && i.completeSlotI 1 == slot) ||
    (s.completeAcceptO i 2 && i.completeSlotI 2 == slot) ||
    (s.extensionCompleteAcceptO i && i.extensionCompleteSlotI == slot)

def squashesSlot (s : RetireQueueState p) (i : RetireQueueInput p) (slot : Nat) : Bool :=
  i.squashYoungerI && s.validQ slot && ModularAge.isYounger (s.idQ slot) i.squashIdI

/-- The allocation that this cycle performs into `slot`, if any. -/
def fillsSlot (s : RetireQueueState p) (i : RetireQueueInput p) (slot : Nat) : Option (Fin 3) :=
  if i.squashYoungerI then none else s.allocLane i slot

/-- One clock edge of `openrv64_retire_queue_3p`.  Within one slot the later
assignment wins: retirement, completion, allocation, squash. -/
def step (s : RetireQueueState p) (i : RetireQueueInput p) : RetireQueueState p :=
  if i.flushI then
    { s with
      headQ := 0
      tailQ := 0
      countQ := 0
      nextRetireIdQ := s.nextAllocIdQ
      validQ := fun _ => false
      completeQ := fun _ => false }
  else
    let retired := s.retireCount i
    let allocated := laneCount (s.allocFire i)
    { headQ := if retired ≠ 0 then p.indexAdd s.headQ retired else s.headQ
      nextRetireIdQ :=
        if retired ≠ 0 then s.nextRetireIdQ + BitVec.ofNat p.idWidth retired
        else s.nextRetireIdQ
      tailQ :=
        if i.squashYoungerI then p.indexAdd i.squashSlotI 1
        else if allocated ≠ 0 then p.indexAdd s.tailQ allocated
        else s.tailQ
      nextAllocIdQ :=
        if !i.squashYoungerI && decide (allocated ≠ 0)
          then s.nextAllocIdQ + BitVec.ofNat p.idWidth allocated
        else s.nextAllocIdQ
      countQ :=
        if i.squashYoungerI
          then s.squashKeepCount i - BitVec.ofNat p.countWidth retired
        else s.countQ + BitVec.ofNat p.countWidth allocated - BitVec.ofNat p.countWidth retired
      validQ := fun slot =>
        if s.squashesSlot i slot then false
        else if (s.fillsSlot i slot).isSome then true
        else if s.retiresSlot i slot then false
        else s.validQ slot
      completeQ := fun slot =>
        if s.squashesSlot i slot then false
        else match s.fillsSlot i slot with
          | some lane => i.allocCompleteI lane
          | none =>
            if s.completesSlot i slot then true
            else if s.retiresSlot i slot then false
            else s.completeQ slot
      idQ := fun slot =>
        match s.fillsSlot i slot with
        | some lane => s.allocId lane
        | none => s.idQ slot }

/-- Asynchronous reset.  The identifiers keep whatever they held. -/
def reset (s : RetireQueueState p) : RetireQueueState p :=
  { s with
    headQ := 0
    tailQ := 0
    countQ := 0
    nextAllocIdQ := 0
    nextRetireIdQ := 0
    validQ := fun _ => false
    completeQ := fun _ => false }

/-- The protocol that the simulation checks assert. -/
structure ProtocolOk (s : RetireQueueState p) (i : RetireQueueInput p) : Prop where
  allocPrefix : (i.allocValidI 1 = true → i.allocValidI 0 = true) ∧
    (i.allocValidI 2 = true → i.allocValidI 1 = true)
  retireAvailable : ∀ lane, i.retireAcceptI lane = true → s.retireValidO lane = true
  retirePrefix : (i.retireAcceptI 1 = true → i.retireAcceptI 0 = true) ∧
    (i.retireAcceptI 2 = true → i.retireAcceptI 1 = true)
  squashAlone : i.squashYoungerI = true → ∀ lane, s.allocFire i lane = false
  squashLive : i.squashYoungerI = true →
    s.validAt i.squashSlotI = true ∧ s.idQ i.squashSlotI = i.squashIdI

instance decidableProtocolOk (s : RetireQueueState p) (i : RetireQueueInput p) :
    Decidable (s.ProtocolOk i) :=
  decidable_of_iff
    (((i.allocValidI 1 = true → i.allocValidI 0 = true) ∧
        (i.allocValidI 2 = true → i.allocValidI 1 = true)) ∧
      (∀ lane, i.retireAcceptI lane = true → s.retireValidO lane = true) ∧
      ((i.retireAcceptI 1 = true → i.retireAcceptI 0 = true) ∧
        (i.retireAcceptI 2 = true → i.retireAcceptI 1 = true)) ∧
      (i.squashYoungerI = true → ∀ lane, s.allocFire i lane = false) ∧
      (i.squashYoungerI = true →
        s.validAt i.squashSlotI = true ∧ s.idQ i.squashSlotI = i.squashIdI))
    ⟨fun h => ⟨h.1, h.2.1, h.2.2.1, h.2.2.2.1, h.2.2.2.2⟩,
      fun h => ⟨h.allocPrefix, h.retireAvailable, h.retirePrefix, h.squashAlone, h.squashLive⟩⟩

end RetireQueueState

/-! ## The queue as a list -/

/-- An instruction between its allocation and its retirement: the number of its
allocation, the slot it was given, and whether it has completed. -/
structure RetireEntry where
  seq : Nat
  slot : Nat
  complete : Bool
deriving DecidableEq, Repr

/-- What the queue is for: the instructions in flight in program order, the
number of the next allocation, and what has become of the earlier ones. -/
structure RetireLedger where
  live : List RetireEntry
  next : Nat
  retired : List RetireEntry
  removed : List RetireEntry
deriving DecidableEq, Repr

/-- What happens to a ledger in one cycle without a flush. -/
structure RetireEvent where
  retired : Nat
  squashSlot : Option Nat
  completed : List (Nat × Nat)
  allocated : List (Nat × Bool)

/-- The entries through the one in `slot`. -/
def keepThrough (slot : Nat) : List RetireEntry → List RetireEntry
  | [] => []
  | e :: rest => if e.slot = slot then [e] else e :: keepThrough slot rest

/-- The entries after the one in `slot`. -/
def dropThrough (slot : Nat) : List RetireEntry → List RetireEntry
  | [] => []
  | e :: rest => if e.slot = slot then rest else dropThrough slot rest

/-- The completions of a cycle reach an entry by allocation and slot. -/
def RetireEntry.mark (completed : List (Nat × Nat)) (e : RetireEntry) : RetireEntry :=
  { e with complete := e.complete || decide ((e.seq, e.slot) ∈ completed) }

/-- Number fresh entries from `next` on. -/
def numberFrom (next : Nat) : List (Nat × Bool) → List RetireEntry
  | [] => []
  | (slot, complete) :: rest => ⟨next, slot, complete⟩ :: numberFrom (next + 1) rest

theorem keepThrough_append_dropThrough (slot : Nat) (live : List RetireEntry) :
    keepThrough slot live ++ dropThrough slot live = live := by
  induction live with
  | nil => rfl
  | cons e rest ih =>
    by_cases h : e.slot = slot
    · simp [keepThrough, dropThrough, h]
    · simp [keepThrough, dropThrough, h, ih]

/-- The kept entries are those up to the first one in the named slot. -/
theorem keepThrough_length {slot : Nat} {live : List RetireEntry} {j : Nat}
    {e : RetireEntry} (hj : live[j]? = some e) (hslot : e.slot = slot)
    (hfst : ∀ j' e', live[j']? = some e' → e'.slot = slot → j ≤ j') :
    (keepThrough slot live).length = j + 1 := by
  induction live generalizing j with
  | nil => simp at hj
  | cons head rest ih =>
  by_cases h : head.slot = slot
  · have hz := hfst 0 head rfl h
    have hj0 : j = 0 := by omega
    simp [keepThrough, h, hj0]
  cases j with
  | zero =>
    simp only [List.getElem?_cons_zero, Option.some.injEq] at hj
    exact absurd (hj ▸ hslot) h
  | succ j =>
    have hlen := ih hj fun j' e' hj' hs => by
      have := hfst (j' + 1) e' (by simpa using hj') hs
      omega
    simp [keepThrough, h, hlen]

theorem numberFrom_getElem? (next : Nat) (fresh : List (Nat × Bool)) (l : Nat) :
    (numberFrom next fresh)[l]? = fresh[l]?.map fun x => ⟨next + l, x.1, x.2⟩ := by
  induction fresh generalizing next l with
  | nil => simp [numberFrom]
  | cons x rest ih =>
  cases l with
  | zero => simp [numberFrom]
  | succ l =>
    simp only [numberFrom, List.getElem?_cons_succ, ih]
    congr 1
    funext y
    congr 1
    omega

theorem numberFrom_seq (next : Nat) (fresh : List (Nat × Bool)) :
    (numberFrom next fresh).map RetireEntry.seq = range' next fresh.length := by
  induction fresh generalizing next with
  | nil => rfl
  | cons x rest ih => simp [numberFrom, ih, List.range'_succ]

@[simp] theorem RetireEntry.mark_seq (completed : List (Nat × Nat))
    (e : RetireEntry) : (e.mark completed).seq = e.seq := rfl

@[simp] theorem RetireEntry.mark_slot (completed : List (Nat × Nat))
    (e : RetireEntry) : (e.mark completed).slot = e.slot := rfl

namespace RetireLedger

def empty : RetireLedger := ⟨[], 0, [], []⟩

def flush (a : RetireLedger) : RetireLedger :=
  { a with live := [], removed := a.removed ++ a.live }

/-- The oldest entries retire, a squash keeps the entries through the named one,
completions mark entries, and new entries join at the end. -/
def advance (a : RetireLedger) (ev : RetireEvent) : RetireLedger where
  live :=
    ((match ev.squashSlot with
      | none => a.live
      | some slot => keepThrough slot a.live).drop ev.retired).map
        (RetireEntry.mark ev.completed) ++ numberFrom a.next ev.allocated
  next := a.next + ev.allocated.length
  retired := a.retired ++ a.live.take ev.retired
  removed :=
    a.removed ++
      match ev.squashSlot with
      | none => []
      | some slot => dropThrough slot a.live

/-- The entries in program order, the retired ones first. -/
def order (a : RetireLedger) : List RetireEntry := a.retired ++ a.live

/-- Retirement follows allocation order, and every allocation is retired, live
or removed, once. -/
structure Accounted (a : RetireLedger) : Prop where
  ordered : (a.order.map RetireEntry.seq).Pairwise (· < ·)
  partition : ((a.order ++ a.removed).map RetireEntry.seq).Perm (List.range a.next)

theorem accounted_empty : empty.Accounted where
  ordered := List.Pairwise.nil
  partition := List.Perm.refl _

/-- The entries a cycle keeps in flight. -/
def kept (a : RetireLedger) (ev : RetireEvent) : List RetireEntry :=
  match ev.squashSlot with
  | none => a.live
  | some slot => keepThrough slot a.live

/-- The entries a cycle squashes. -/
def squashed (a : RetireLedger) (ev : RetireEvent) : List RetireEntry :=
  match ev.squashSlot with
  | none => []
  | some slot => dropThrough slot a.live

theorem kept_append_squashed (a : RetireLedger) (ev : RetireEvent) :
    a.kept ev ++ a.squashed ev = a.live := by
  cases h : ev.squashSlot with
  | none => simp [kept, squashed, h]
  | some slot => simp [kept, squashed, h, keepThrough_append_dropThrough]

theorem advance_order_seq {a : RetireLedger} {ev : RetireEvent}
    (hretired : ev.retired ≤ (a.kept ev).length) :
    (a.advance ev).order.map RetireEntry.seq = (a.retired ++ a.kept ev).map RetireEntry.seq ++
        range' a.next ev.allocated.length := by
  have htake : a.live.take ev.retired = (a.kept ev).take ev.retired := by
    conv_lhs => rw [← a.kept_append_squashed ev]
    exact List.take_append_of_le_length hretired
  have hseq : RetireEntry.seq ∘ RetireEntry.mark ev.completed = RetireEntry.seq := rfl
  change ((a.retired ++ a.live.take ev.retired) ++
    (((a.kept ev).drop ev.retired).map (RetireEntry.mark ev.completed) ++
      numberFrom a.next ev.allocated)).map RetireEntry.seq = _
  rw [htake, map_append, map_append, map_append, List.map_map,
    hseq, numberFrom_seq, map_append, ← append_assoc]
  congr 1
  rw [append_assoc, ← map_append, List.take_append_drop]

theorem Accounted.advance {a : RetireLedger} (ha : a.Accounted)
    {ev : RetireEvent} (hretired : ev.retired ≤ (a.kept ev).length) : (a.advance ev).Accounted := by
  have hlive := a.kept_append_squashed ev
  have hpartition := ha.partition
  have hord := ha.ordered
  have hbelow : ∀ n ∈ (a.retired ++ a.kept ev).map RetireEntry.seq, n < a.next := by
    intro n hn
    have hmem : n ∈ (a.order ++ a.removed).map RetireEntry.seq := by
      rw [order, ← hlive, map_append, List.mem_append]
      refine .inl ?_
      rw [← append_assoc, map_append, List.mem_append]
      exact .inl hn
    exact List.mem_range.mp (hpartition.mem_iff.mp hmem)
  constructor
  · rw [advance_order_seq hretired, List.pairwise_append]
    refine ⟨?_, List.pairwise_lt_range', ?_⟩
    · rw [order, ← hlive, ← append_assoc, map_append] at hord
      exact (List.pairwise_append.mp hord).1
    · intro n hn m hm
      have := hbelow n hn
      have := (List.mem_range'_1.mp hm).1
      omega
  · have hnxt : (a.advance ev).next = a.next + ev.allocated.length := rfl
    have hremoved : (a.advance ev).removed = a.removed ++ a.squashed ev := rfl
    rw [map_append, advance_order_seq hretired, hnxt, hremoved,
      List.range_add, ← List.range'_eq_map_range, map_append]
    have hold : ((a.retired ++ a.kept ev).map RetireEntry.seq ++
        (a.removed.map RetireEntry.seq ++ (a.squashed ev).map RetireEntry.seq)).Perm
          (range a.next) := by
      apply List.Perm.trans ?_ hpartition
      rw [order, ← hlive]
      simp only [map_append, append_assoc]
      apply List.Perm.append_left
      apply List.Perm.append_left
      exact List.perm_append_comm
    apply List.Perm.trans ?_ (hold.append_right _)
    simp only [map_append, append_assoc]
    apply List.Perm.append_left
    apply List.Perm.append_left
    apply List.perm_append_comm.trans
    rw [append_assoc]

theorem Accounted.flush {a : RetireLedger} (ha : a.Accounted) : a.flush.Accounted where
  ordered := by
    have hord := ha.ordered
    rw [order, map_append] at hord
    simpa [order, RetireLedger.flush] using (List.pairwise_append.mp hord).1
  partition := by
    refine List.Perm.trans ?_ ha.partition
    simp only [order, RetireLedger.flush, List.append_nil, map_append, append_assoc]
    exact List.Perm.append_left _ List.perm_append_comm

end RetireLedger

end OpenRV64
