/-
The retirement queue keeps its ledger: the ring holds exactly the instructions
in flight, and each of them retires in order, once, and only when it completed.
-/
import OpenRV64.RetireQueue

namespace OpenRV64

open RingSegment ModularAge RetireQueueState RetireLedger
open BitVec (toNat_ofNat ofNat)
open List (finRange mem_of_getElem? range length_map mem_cons_self mem_range mem_append length)
open Bool (and_eq_true)
open RetireEntry (mark seq mark_seq)

namespace RetireQueueParams

variable (p : RetireQueueParams)

theorem depth_le_index : p.depth ≤ 2 ^ p.indexWidth := by
  rw [indexWidth]
  split
  · have := p.depth_pos
    omega
  · exact le_two_pow_clog2 _

theorem depth_lt_count : p.depth < 2 ^ p.countWidth := by
  have := le_two_pow_clog2 (p.depth + 1)
  rw [countWidth]
  omega

theorem idWidth_pos : 0 < p.idWidth := by
  apply Nat.pos_of_ne_zero
  intro h
  have hlt := p.depth_lt
  have hpos := p.depth_pos
  rw [h, Nat.zero_sub, Nat.pow_zero] at hlt
  omega

/-- On the ring the source's index arithmetic is the step to a later slot. -/
theorem indexAdd_slot (head j : Nat) {k : Nat} (hk : k ≤ p.depth) :
    p.indexAdd (slot p.depth head j) k = slot p.depth head (j + k) := by
  have hlt : slot p.depth head j < p.depth := slot_lt p.depth_pos j
  have hidx := p.depth_le_index
  rw [← slot_slot, slot_eq hlt hk, indexAdd]
  split
  · rw [if_neg (by omega), Nat.mod_eq_of_lt (by omega)]
  · rw [if_pos (by omega), Nat.mod_eq_of_lt (by omega)]

theorem prefixCountThrough_slot {head j : Nat} (hhead : head < p.depth) (hj : j < p.depth) :
    (p.prefixCountThrough head (slot p.depth head j)).toNat = j + 1 := by
  have hcnt := p.depth_lt_count
  rw [prefixCountThrough, toNat_ofNat]
  change span p.depth head (slot p.depth head j) % _ = _
  rw [span_slot hhead hj]
  exact Nat.mod_eq_of_lt (by omega)

end RetireQueueParams

/-- A cycle's inputs together with the allocation that each completion port
answers, which the queue itself cannot see. -/
structure RetireInput (p : RetireQueueParams) where
  pins : RetireQueueInput p
  completeSeq : Fin 3 → Nat
  extensionCompleteSeq : Nat

/-- The queue next to the ledger of what it is for. -/
structure RetireTracked (p : RetireQueueParams) where
  queue : RetireQueueState p
  ledger : RetireLedger

namespace RetireInput

variable {p : RetireQueueParams} (i : RetireInput p)

/-! The completion ports, `none` being the extension's. -/

def portValid : Option (Fin 3) → Bool
  | some port => i.pins.completeValidI port
  | none => p.enableExtensionCompletion && i.pins.extensionCompleteValidI

def portId : Option (Fin 3) → BitVec p.idWidth
  | some port => i.pins.completeIdI port
  | none => i.pins.extensionCompleteIdI

def portSlot : Option (Fin 3) → Nat
  | some port => i.pins.completeSlotI port
  | none => i.pins.extensionCompleteSlotI

def portSeq : Option (Fin 3) → Nat
  | some port => i.completeSeq port
  | none => i.extensionCompleteSeq

/-- The allocations and slots that are completed in this cycle. -/
def completed : List (Nat × Nat) :=
  ((none :: (List.finRange 3).map some).filter i.portValid).map fun port =>
    (i.portSeq port, i.portSlot port)

theorem mem_completed (seq slot : Nat) : (seq, slot) ∈ i.completed ↔ ∃ port, i.portValid port ∧
      i.portSeq port = seq ∧ i.portSlot port = slot := by
  have hall : ∀ port : Option (Fin 3), port ∈ none :: (finRange 3).map some := by
    intro port
    cases port with
    | none => exact mem_cons_self
    | some port =>
      exact List.mem_cons_of_mem _ (List.mem_map_of_mem (List.mem_finRange port))
  simp only [completed, List.mem_map, List.mem_filter, hall, true_and, Prod.mk.injEq]

end RetireInput

namespace RetireQueueState

variable {p : RetireQueueParams}

/-- What the inputs of one cycle do to the ledger. -/
def event (s : RetireQueueState p) (i : RetireInput p) : RetireEvent where
  retired := s.retireCount i.pins
  squashSlot := if i.pins.squashYoungerI then some i.pins.squashSlotI else none
  completed := i.completed
  allocated :=
    if i.pins.squashYoungerI then []
    else ((List.finRange 3).filter (s.allocFire i.pins)).map fun lane =>
      (s.allocSlot lane, i.pins.allocCompleteI lane)

end RetireQueueState

/-- The queue from reset, with its ledger. -/
def retireTracked (p : RetireQueueParams) : Sync.Circuit (RetireTracked p) (RetireInput p) where
  Init t := (∃ s : RetireQueueState p, t.queue = s.reset) ∧ t.ledger = .empty
  step t i :=
    { queue := t.queue.step i.pins
      ledger :=
        if i.pins.flushI then t.ledger.flush
        else t.ledger.advance (t.queue.event i) }

namespace RetireTracked

variable {p : RetireQueueParams}

/-- What the queue relies on: its asserted protocol, and that the instructions
in flight, completions under way included, span at most half of the identifier
space. -/
structure Promises (t : RetireTracked p) (i : RetireInput p) : Prop where
  protocol : i.pins.flushI = false → t.queue.ProtocolOk i.pins
  window : ∀ e ∈ t.ledger.live, t.ledger.next ≤ e.seq + 2 ^ (p.idWidth - 1)
  answers : ∀ port, i.portValid port = true → i.portSeq port < t.ledger.next ∧
      t.ledger.next ≤ i.portSeq port + 2 ^ (p.idWidth - 1) ∧
      i.portId port = idOf p.idWidth (i.portSeq port)

/-- Allocation number `seq` of slot `slot` is marked complete in this cycle. -/
def Completes (seq slot : Nat) (t : RetireTracked p) (i : RetireInput p) : Prop :=
  (∃ lane : Fin 3, t.queue.allocFire i.pins lane = true ∧
    i.pins.allocCompleteI lane = true ∧ t.ledger.next + lane = seq ∧
    t.queue.allocSlot lane = slot) ∨ ∃ port, i.portValid port = true ∧ i.portSeq port = seq ∧
    i.portSlot port = slot ∧ i.portId port = idOf p.idWidth seq

/-- The queue is exact: its ring segment is the ledger's list of instructions in
flight, retirement offers the oldest ones, every allocation is accounted for
once, and nothing is complete that was not completed itself. -/
structure RetireExact (past : Sync.Past (RetireTracked p) (RetireInput p))
    (t : RetireTracked p) : Prop where
  head : t.queue.headQ < p.depth
  tail : t.queue.tailQ = slot p.depth t.queue.headQ t.ledger.live.length
  segment : ∀ x, x < p.depth → (t.queue.validQ x = true ↔
    ∃ j, j < t.ledger.live.length ∧ slot p.depth t.queue.headQ j = x)
  count : t.queue.countQ.toNat = ((List.range p.depth).filter t.queue.validQ).length
  nextId : t.queue.nextAllocIdQ = idOf p.idWidth t.ledger.next
  entry : ∀ (j : Nat) (e : RetireEntry), t.ledger.live[j]? = some e →
    e.slot = slot p.depth t.queue.headQ j ∧ t.queue.idQ e.slot = idOf p.idWidth e.seq ∧
      t.queue.completeQ e.slot = e.complete
  offered : ∀ lane : Fin 3, lane < t.ledger.live.length →
    (t.queue.retireValidO lane = true ↔ ∀ j ≤ lane.val, ∀ e : RetireEntry,
      t.ledger.live[j]? = some e → e.complete = true) ∧
    ∀ e : RetireEntry, t.ledger.live[lane.val]? = some e → t.queue.retireSlotO lane = e.slot ∧
      (t.queue.retireValidO lane = true → t.queue.retireIdO lane = idOf p.idWidth e.seq)
  notOffered : 3 ≤ p.depth → ∀ lane : Fin 3,
    t.queue.retireValidO lane = true → lane < t.ledger.live.length
  accounted : t.ledger.Accounted
  retiredComplete : ∀ e ∈ t.ledger.retired, e.complete = true
  caused : ∀ e ∈ t.ledger.order, e.complete = true → ∃ x ∈ past, Completes e.seq e.slot x.1 x.2

/-- The cycle retires no more than what is live, and under a squash no more than
what the squash keeps. -/
def retireSafe (t : RetireTracked p) (i : RetireInput p) : Bool :=
  i.pins.flushI ||
    (decide (t.queue.retireCount i.pins ≤ t.queue.countQ.toNat) &&
      (!i.pins.squashYoungerI ||
        decide (t.queue.retireCount i.pins ≤ (t.queue.squashKeepCount i.pins).toNat)))

/-- The inductive part of exactness. -/
structure Inv (t : RetireTracked p) : Prop where
  head : t.queue.headQ < p.depth
  length : t.ledger.live.length ≤ p.depth
  tail : t.queue.tailQ = slot p.depth t.queue.headQ t.ledger.live.length
  count : t.queue.countQ.toNat = t.ledger.live.length
  nextId : t.queue.nextAllocIdQ = idOf p.idWidth t.ledger.next
  valid : ∀ j, j < p.depth → t.queue.validQ (slot p.depth t.queue.headQ j) =
    decide (j < t.ledger.live.length)
  entry : ∀ (j : Nat) (e : RetireEntry), t.ledger.live[j]? = some e →
    e.slot = slot p.depth t.queue.headQ j ∧ t.queue.idQ e.slot = idOf p.idWidth e.seq ∧
      t.queue.completeQ e.slot = e.complete
  accounted : t.ledger.Accounted

end RetireTracked

/-! ## Lanes -/

/-- The lanes of a prefix are those below their number. -/
theorem lane_eq_decide {lanes : Fin 3 → Bool} (h : (lanes 1 → lanes 0) ∧ (lanes 2 → lanes 1))
    (lane : Fin 3) : lanes lane = decide (lane.val < laneCount lanes) := by
  unfold laneCount
  match lane with
  | 0 => cases h0 : lanes 0 <;> cases h1 : lanes 1 <;> cases h2 : lanes 2 <;> simp_all
  | 1 => cases h0 : lanes 0 <;> cases h1 : lanes 1 <;> cases h2 : lanes 2 <;> simp_all
  | 2 => cases h0 : lanes 0 <;> cases h1 : lanes 1 <;> cases h2 : lanes 2 <;> simp_all

theorem laneCount_le (lanes : Fin 3 → Bool) : laneCount lanes ≤ 3 := by
  unfold laneCount
  have h0 := (lanes 0).toNat_le
  have h1 := (lanes 1).toNat_le
  have h2 := (lanes 2).toNat_le
  omega

theorem filter_prefix {lanes : Fin 3 → Bool} {l : Nat}
    (h : ∀ lane, lanes lane = decide (lane.val < laneCount lanes))
    (hl : l < laneCount lanes) :
    ∃ lane : Fin 3, lane.val = l ∧ ((finRange 3).filter lanes)[l]? = some lane := by
  have h3 := laneCount_le lanes
  have hlist : (finRange 3) = [0, 1, 2] := rfl
  match l with
  | 0 =>
    refine ⟨0, rfl, ?_⟩
    have h0 := h 0
    simp only [Fin.val_zero, hl, decide_true] at h0
    simp [hlist, h0]
  | 1 =>
    refine ⟨1, rfl, ?_⟩
    have h0 := h 0
    have h1 := h 1
    simp only [Fin.val_zero, Fin.val_one, hl, Nat.zero_lt_of_lt hl, decide_true] at h0 h1
    simp [hlist, h0, h1]
  | 2 =>
    refine ⟨2, rfl, ?_⟩
    have h0 := h 0
    have h1 := h 1
    have h2 := h 2
    simp only [Fin.val_zero, Fin.val_one, Fin.val_two, hl, Nat.zero_lt_of_lt hl,
      Nat.lt_of_succ_lt hl, decide_true] at h0 h1 h2
    simp [hlist, h0, h1, h2]
  | l + 3 => omega

theorem filter_length (lanes : Fin 3 → Bool) :
    ((finRange 3).filter lanes).length = laneCount lanes := by
  have hlist : (finRange 3) = [0, 1, 2] := rfl
  rw [hlist, laneCount]
  cases h0 : lanes 0 <;> cases h1 : lanes 1 <;> cases h2 : lanes 2 <;>
    simp [h0, h1, h2]

namespace RetireQueueState

variable {p : RetireQueueParams} {s : RetireQueueState p} {i : RetireQueueInput p}

theorem retireFire_eq (hok : s.ProtocolOk i) (lane : Fin 3) :
    s.retireFire i lane = decide (lane.val < s.retireCount i) := by
  apply lane_eq_decide
  have hfire : s.retireFire i = i.retireAcceptI := by
    funext lane
    cases h : i.retireAcceptI lane with
    | false => simp [retireFire, h]
    | true => simp [retireFire, h, hok.retireAvailable lane h]
  rw [hfire]
  exact hok.retirePrefix

theorem allocFire_eq (hok : s.ProtocolOk i) (lane : Fin 3) :
    s.allocFire i lane = decide (lane.val < laneCount (s.allocFire i)) := by
  apply lane_eq_decide
  simp only [allocFire, and_eq_true]
  exact ⟨fun h => ⟨hok.allocPrefix.1 h.1, h.2⟩, fun h => ⟨hok.allocPrefix.2 h.1, h.2⟩⟩

theorem allocCount_le (s : RetireQueueState p) (i : RetireQueueInput p) :
    laneCount (s.allocFire i) ≤ s.freeCount.toNat := by
  cases h : s.allocReadyO i with
  | false => simp [laneCount, allocFire, h]
  | true =>
    have hrdy : laneCount i.allocValidI ≤ s.freeCount.toNat := by
      simpa [allocReadyO] using h
    simpa [laneCount, allocFire, h] using hrdy

theorem retireValidO_iff (s : RetireQueueState p) (lane : Fin 3) :
    s.retireValidO lane ↔ ∀ other ≤ lane, s.retirable other := by
  match lane with
  | 0 => simp [retireValidO]
  | 1 => simp [retireValidO, Fin.forall_fin_succ]
  | 2 => simp [retireValidO, Fin.forall_fin_succ, and_assoc]

theorem retiresSlot_iff (slot : Nat) :
    s.retiresSlot i slot ↔ ∃ lane, s.retireFire i lane ∧ s.retireSlotO lane = slot := by
  simp [retiresSlot, Fin.exists_fin_succ, or_assoc]

/-- A slot is completed through one of the ports. -/
theorem completesSlot_iff (s : RetireQueueState p) (i : RetireInput p) (slot : Nat) :
    s.completesSlot i.pins slot ↔ ∃ port, i.portSlot port = slot ∧
        s.completionMatches i.pins (i.portValid port) (i.portId port) slot := by
  simp only [completesSlot, Bool.or_eq_true, and_eq_true, beq_iff_eq]
  constructor
  · intro h
    rcases h with ((h | h) | h) | h
    · exact ⟨some 0, h.2, h.2 ▸ h.1⟩
    · exact ⟨some 1, h.2, h.2 ▸ h.1⟩
    · exact ⟨some 2, h.2, h.2 ▸ h.1⟩
    have hext : (p.enableExtensionCompletion && s.completionMatches i.pins
      i.pins.extensionCompleteValidI i.pins.extensionCompleteIdI slot) := h.2 ▸ h.1
    refine ⟨none, h.2, ?_⟩
    simpa [completionMatches, RetireInput.portValid, RetireInput.portId, and_assoc] using hext
  · intro h
    obtain ⟨port, rfl, hmat⟩ := h
    match port with
    | some 0 => exact .inl (.inl (.inl ⟨hmat, rfl⟩))
    | some 1 => exact .inl (.inl (.inr ⟨hmat, rfl⟩))
    | some 2 => exact .inl (.inr ⟨hmat, rfl⟩)
    | none =>
      refine .inr ⟨?_, rfl⟩
      simpa [extensionCompleteAcceptO, completionMatches, RetireInput.portValid,
        RetireInput.portId, RetireInput.portSlot, and_assoc] using hmat

theorem allocLane_none {slot : Nat} (h : ∀ lane, s.allocFire i lane → s.allocSlot lane ≠ slot) :
    s.allocLane i slot = none := by
  have hlane : ∀ lane, (s.allocFire i lane && s.allocSlot lane == slot) = false := by
    intro lane
    cases hfire : s.allocFire i lane with
    | false => rfl
    | true => simpa using h lane hfire
  simp [allocLane, hlane]

theorem allocLane_some {slot : Nat} {lane : Fin 3}
    (hfire : s.allocFire i lane) (hslot : s.allocSlot lane = slot)
    (honly : ∀ other, s.allocFire i other → s.allocSlot other = slot → other = lane) :
    s.allocLane i slot = some lane := by
  have hlane : ∀ other, (s.allocFire i other && s.allocSlot other == slot) =
      decide (other = lane) := by
    intro other
    by_cases h : other = lane
    · simp [h, hfire, hslot]
    · simp only [h, decide_false, Bool.and_eq_false_iff, beq_eq_false_iff_ne]
      by_contra hcon
      simp only [not_or, Bool.not_eq_false, ne_eq, not_not] at hcon
      exact h (honly other hcon.1 hcon.2)
  simp only [allocLane, hlane]
  match lane with
  | 0 => rfl
  | 1 => rfl
  | 2 => rfl

end RetireQueueState

namespace RetireLedger.Accounted

variable {a : RetireLedger}

theorem live_seq_pairwise (ha : a.Accounted) : (a.live.map seq).Pairwise (· < ·) := by
  have hord := ha.ordered
  rw [order, List.map_append] at hord
  exact (List.pairwise_append.mp hord).2.1

theorem live_seq_lt (ha : a.Accounted) {e : RetireEntry} (he : e ∈ a.live) : e.seq < a.next := by
  have hmem : e.seq ∈ (a.order ++ a.removed).map seq := by
    apply List.mem_map_of_mem
    simp [order, he]
  exact mem_range.mp (ha.partition.mem_iff.mp hmem)

/-- The instructions in flight stand in the order of their allocation. -/
theorem live_seq_lt_iff (ha : a.Accounted) {j k : Nat} {e f : RetireEntry}
    (he : a.live[j]? = some e) (hf : a.live[k]? = some f) : e.seq < f.seq ↔ j < k := by
  have hlt : ∀ {j k : Nat} {e f : RetireEntry}, a.live[j]? = some e →
      a.live[k]? = some f → j < k → e.seq < f.seq := by
    intro j k e f he hf hjk
    have hpair := ha.live_seq_pairwise
    rw [List.pairwise_map] at hpair
    obtain ⟨hj, rfl⟩ := List.getElem?_eq_some_iff.mp he
    obtain ⟨hk, rfl⟩ := List.getElem?_eq_some_iff.mp hf
    exact List.pairwise_iff_getElem.mp hpair j k hj hk hjk
  constructor
  · intro h
    by_contra hcon
    rcases Nat.lt_or_eq_of_le (Nat.le_of_not_lt hcon) with hkj | rfl
    · have := hlt hf he hkj
      omega
    · rw [he] at hf
      cases hf
      omega
  · exact hlt he hf

end RetireLedger.Accounted

namespace RetireTracked

variable {p : RetireQueueParams} {t : RetireTracked p} {i : RetireInput p}

namespace Inv

theorem freeCount (h : Inv t) : t.queue.freeCount.toNat = p.depth - t.ledger.live.length := by
  have hdep := p.depth_lt_count
  have hlen := h.length
  rw [RetireQueueState.freeCount, BitVec.toNat_sub, toNat_ofNat, h.count,
    Nat.mod_eq_of_lt hdep, show 2 ^ p.countWidth - t.ledger.live.length + p.depth =
      p.depth - t.ledger.live.length + 2 ^ p.countWidth by omega, Nat.add_mod_right]
  exact Nat.mod_eq_of_lt (by omega)

theorem alloc_fits (h : Inv t) (pins : RetireQueueInput p) :
    t.ledger.live.length + laneCount (t.queue.allocFire pins) ≤ p.depth := by
  have hle := t.queue.allocCount_le pins
  rw [h.freeCount] at hle
  have := h.length
  omega

theorem retireSlot (h : Inv t) (lane : Fin 3) (hlane : lane.val ≤ p.depth) :
    t.queue.retireSlotO lane = slot p.depth t.queue.headQ lane := by
  rw [retireSlotO]
  split
  · rename_i hz
    rw [hz, Fin.val_zero, slot_zero h.head]
  · have hadd := p.indexAdd_slot t.queue.headQ 0 hlane
    rwa [slot_zero h.head, Nat.zero_add] at hadd

theorem allocSlot (h : Inv t) (lane : Fin 3) (hlane : lane.val ≤ p.depth) :
    t.queue.allocSlot lane = slot p.depth t.queue.headQ (t.ledger.live.length + lane) := by
  rw [RetireQueueState.allocSlot, h.tail, p.indexAdd_slot _ _ hlane]

theorem validAt (h : Inv t) {j : Nat} (hj : j < p.depth) :
    t.queue.validAt (slot p.depth t.queue.headQ j) = decide (j < t.ledger.live.length) := by
  rw [RetireQueueState.validAt, h.valid j hj, decide_eq_true (slot_lt p.depth_pos j), Bool.true_and]

end Inv

/-- A cycle without a flush that keeps its promises and takes none of the
branches that break the queue. -/
structure Cycle (t : RetireTracked p) (i : RetireInput p) : Prop where
  inv : Inv t
  promises : Promises t i
  noFlush : i.pins.flushI = false
  safe : retireSafe t i = true

namespace Cycle

section

variable (h : Cycle t i)

include h

theorem protocolOk : t.queue.ProtocolOk i.pins := h.promises.protocol h.noFlush

theorem retireCount_le : t.queue.retireCount i.pins ≤ t.ledger.live.length := by
  have hsafe := h.safe
  simp only [retireSafe, h.noFlush, Bool.false_or, and_eq_true,
    decide_eq_true_eq, h.inv.count] at hsafe
  exact hsafe.1

theorem retiresSlot {j : Nat} (hj : j < p.depth) :
    t.queue.retiresSlot i.pins (slot p.depth t.queue.headQ j) =
      decide (j < t.queue.retireCount i.pins) := by
  have hr := h.retireCount_le
  have hlen := h.inv.length
  have h3 : t.queue.retireCount i.pins ≤ 3 := laneCount_le _
  rw [Bool.eq_iff_iff, retiresSlot_iff, decide_eq_true_iff]
  simp only [retireFire_eq h.protocolOk, decide_eq_true_iff]
  constructor
  · intro hex
    obtain ⟨lane, hlane, hslot⟩ := hex
    rw [h.inv.retireSlot lane (by omega)] at hslot
    rw [← slot_inj h.inv.head (by omega) hj hslot]
    exact hlane
  · intro hlt
    refine ⟨⟨j, by omega⟩, hlt, ?_⟩
    exact h.inv.retireSlot ⟨j, by omega⟩ hj.le

theorem noFill_of_squash (hsq : i.pins.squashYoungerI) :
    laneCount (t.queue.allocFire i.pins) = 0 := by
  simp [laneCount, h.protocolOk.squashAlone hsq]

/-- The slots behind the live ones are filled in the order of the lanes. -/
theorem fillsSlot_some (lane : Fin 3) (hlane : lane.val < laneCount (t.queue.allocFire i.pins)) :
    t.queue.fillsSlot i.pins
      (slot p.depth t.queue.headQ (t.ledger.live.length + lane)) = some lane := by
  have hfits := h.inv.alloc_fits i.pins
  have hsq : i.pins.squashYoungerI = false := by
    by_contra hcon
    have := h.noFill_of_squash (Bool.not_eq_false _ ▸ hcon)
    omega
  rw [fillsSlot, hsq, if_low]
  apply allocLane_some
  · rw [allocFire_eq h.protocolOk]
    exact decide_eq_true hlane
  · exact h.inv.allocSlot lane (by omega)
  · intro other hoth hslot
    rw [allocFire_eq h.protocolOk, decide_eq_true_iff] at hoth
    rw [h.inv.allocSlot other (by omega)] at hslot
    have := slot_inj h.inv.head (by omega) (by omega) hslot
    exact Fin.ext (by omega)

theorem fillsSlot_none {j : Nat} (hj : j < p.depth) (hout : j < t.ledger.live.length ∨
      t.ledger.live.length + laneCount (t.queue.allocFire i.pins) ≤ j) :
    t.queue.fillsSlot i.pins (slot p.depth t.queue.headQ j) = none := by
  have hfits := h.inv.alloc_fits i.pins
  rw [fillsSlot]
  split
  · rfl
  apply allocLane_none
  intro lane hlane hslot
  rw [allocFire_eq h.protocolOk, decide_eq_true_iff] at hlane
  rw [h.inv.allocSlot lane (by omega)] at hslot
  have := slot_inj h.inv.head (by omega) hj hslot
  omega

/-- The place of the instruction that a squash names. -/
theorem squash_named (hsq : i.pins.squashYoungerI) :
    ∃ m e, t.ledger.live[m]? = some e ∧ slot p.depth t.queue.headQ m = i.pins.squashSlotI ∧
      i.pins.squashIdI = idOf p.idWidth e.seq := by
  obtain ⟨hval, hid⟩ := h.protocolOk.squashLive hsq
  have hlt : i.pins.squashSlotI < p.depth := by
    simp only [RetireQueueState.validAt, and_eq_true, decide_eq_true_iff] at hval
    exact hval.1
  obtain ⟨m, hm, hslot⟩ := exists_slot h.inv.head hlt
  rw [← hslot, h.inv.validAt hm, decide_eq_true_iff] at hval
  refine ⟨m, t.ledger.live[m], List.getElem?_eq_getElem hval, hslot, ?_⟩
  obtain ⟨hplc, hold, -⟩ := h.inv.entry m _ (List.getElem?_eq_getElem hval)
  rw [← hid, ← hold, hplc, hslot]

theorem younger {j k : Nat} {e f : RetireEntry}
    (he : t.ledger.live[j]? = some e) (hf : t.ledger.live[k]? = some f) :
    isYounger (idOf p.idWidth e.seq) (idOf p.idWidth f.seq) = decide (k < j) := by
  have hne := h.inv.accounted.live_seq_lt (mem_of_getElem? he)
  have hnf := h.inv.accounted.live_seq_lt (mem_of_getElem? hf)
  have hwe := h.promises.window e (mem_of_getElem? he)
  have hwf := h.promises.window f (mem_of_getElem? hf)
  rw [isYounger_idOf p.idWidth_pos (by omega) (by omega), decide_eq_decide]
  exact h.inv.accounted.live_seq_lt_iff hf he

end

/-- The number of instructions that the cycle keeps in flight, those it retires
included. -/
def keep (t : RetireTracked p) (i : RetireInput p) : Nat := (t.ledger.kept (t.queue.event i)).length

theorem keep_of_noSquash (hsq : i.pins.squashYoungerI = false) :
    keep t i = t.ledger.live.length := by
  simp [keep, kept, event, hsq]

theorem keep_of_squash (h : Cycle t i) (hsq : i.pins.squashYoungerI)
    {m : Nat} {e : RetireEntry} (he : t.ledger.live[m]? = some e)
    (hslot : slot p.depth t.queue.headQ m = i.pins.squashSlotI) : keep t i = m + 1 := by
  have hlen := h.inv.length
  have hm := (List.getElem?_eq_some_iff.mp he).1
  simp only [keep, kept, event, hsq, if_true]
  apply keepThrough_length he
  · rw [(h.inv.entry m e he).1, hslot]
  · intro k f hf hsame
    have hk := (List.getElem?_eq_some_iff.mp hf).1
    rw [(h.inv.entry k f hf).1, ← hslot] at hsame
    exact (slot_inj h.inv.head (by omega) (by omega) hsame).ge

theorem squashesSlot (h : Cycle t i) {j : Nat} (hj : j < p.depth) :
    t.queue.squashesSlot i.pins (slot p.depth t.queue.headQ j) =
      decide (j < t.ledger.live.length ∧ keep t i ≤ j) := by
  rw [RetireQueueState.squashesSlot, h.inv.valid j hj]
  cases hsq : i.pins.squashYoungerI with
  | false =>
    rw [keep_of_noSquash hsq]
    simp
  | true =>
    obtain ⟨m, f, hf, hslot, hid⟩ := h.squash_named hsq
    rw [h.keep_of_squash hsq hf hslot, Bool.true_and]
    by_cases hlive : j < t.ledger.live.length
    · have he := List.getElem?_eq_getElem hlive
      obtain ⟨hplc, hold, -⟩ := h.inv.entry j _ he
      rw [← hplc, hold, hid, h.younger he hf]
      simp [hlive, Nat.succ_le_iff]
    · simp [hlive]

theorem retireCount_le_keep (h : Cycle t i) : t.queue.retireCount i.pins ≤ keep t i := by
  cases hsq : i.pins.squashYoungerI with
  | false =>
    rw [keep_of_noSquash hsq]
    exact h.retireCount_le
  | true =>
    obtain ⟨m, f, hf, hslot, -⟩ := h.squash_named hsq
    have hm := (List.getElem?_eq_some_iff.mp hf).1
    have hlen := h.inv.length
    have hsafe := h.safe
    simp only [retireSafe, h.noFlush, Bool.false_or, and_eq_true,
      hsq, Bool.not_true, decide_eq_true_eq] at hsafe
    have hkeep := hsafe.2
    rw [squashKeepCount, ← hslot, p.prefixCountThrough_slot h.inv.head (by omega)] at hkeep
    rw [h.keep_of_squash hsq hf hslot]
    exact hkeep

theorem keep_le (t : RetireTracked p) (i : RetireInput p) : keep t i ≤ t.ledger.live.length := by
  have := congrArg length (t.ledger.kept_append_squashed (t.queue.event i))
  rw [List.length_append] at this
  rw [keep]
  omega

theorem kept_getElem? {j : Nat} (hj : j < keep t i) :
    (t.ledger.kept (t.queue.event i))[j]? = t.ledger.live[j]? := by
  rw [← t.ledger.kept_append_squashed (t.queue.event i), List.getElem?_append_left hj]

/-- A kept instruction is completed exactly by the completions that name it. -/
theorem completesSlot (h : Cycle t i) {j : Nat} {e : RetireEntry}
    (he : t.ledger.live[j]? = some e) (hkeep : j < keep t i) :
    t.queue.completesSlot i.pins e.slot = decide ((e.seq, e.slot) ∈ i.completed) := by
  have hmem := mem_of_getElem? he
  have hnxt := h.inv.accounted.live_seq_lt hmem
  have hwindow := h.promises.window e hmem
  have hpow : 2 ^ p.idWidth = 2 * 2 ^ (p.idWidth - 1) := by
    rw [← Nat.pow_succ', Nat.succ_eq_add_one, Nat.sub_add_cancel p.idWidth_pos]
  obtain ⟨hplc, hold, -⟩ := h.inv.entry j e he
  have hlen := h.inv.length
  have hj := (List.getElem?_eq_some_iff.mp he).1
  rw [Bool.eq_iff_iff, completesSlot_iff, decide_eq_true_iff, RetireInput.mem_completed]
  constructor
  · intro hex
    obtain ⟨port, hslot, hmat⟩ := hex
    simp only [completionMatches, and_eq_true, beq_iff_eq, hold] at hmat
    obtain ⟨hseq, hnear, hid⟩ := h.promises.answers port hmat.1.1.1
    refine ⟨port, hmat.1.1.1, ?_, hslot⟩
    rw [hid] at hmat
    exact ((idOf_inj (by omega) (by omega)).mp hmat.2).symm
  · intro hex
    obtain ⟨port, hval, hseq, hslot⟩ := hex
    obtain ⟨-, -, hid⟩ := h.promises.answers port hval
    refine ⟨port, hslot, ?_⟩
    have hyoung : (!i.pins.squashYoungerI || !isYounger (i.portId port) i.pins.squashIdI) := by
      cases hsq : i.pins.squashYoungerI with
      | false => rfl
      | true =>
        obtain ⟨m, f, hf, hfslot, hfid⟩ := h.squash_named hsq
        rw [h.keep_of_squash hsq hf hfslot] at hkeep
        rw [hid, hseq, hfid, h.younger he hf]
        simp
        omega
    have hat : t.queue.validAt e.slot := by
      rw [hplc, h.inv.validAt (by omega)]
      exact decide_eq_true hj
    rw [completionMatches, hval, hyoung, hat, hold, hid, hseq]
    simp

/-! ## One cycle -/

theorem step_headQ (h : Cycle t i) :
    (t.queue.step i.pins).headQ = slot p.depth t.queue.headQ (t.queue.retireCount i.pins) := by
  have hr := h.retireCount_le
  have hlen := h.inv.length
  simp only [step, h.noFlush, if_low]
  split
  · have hadd := p.indexAdd_slot t.queue.headQ 0
      (show t.queue.retireCount i.pins ≤ p.depth by omega)
    rwa [slot_zero h.inv.head, Nat.zero_add] at hadd
  · rename_i hz
    rw [not_not] at hz
    rw [hz, slot_zero h.inv.head]

/-- The number of instructions that the cycle adds. -/
def grow (t : RetireTracked p) (i : RetireInput p) : Nat := (t.queue.event i).allocated.length

theorem grow_of_squash (hsq : i.pins.squashYoungerI) : grow t i = 0 := by
  simp [grow, event, hsq]

theorem grow_of_noSquash (hsq : i.pins.squashYoungerI = false) :
    grow t i = laneCount (t.queue.allocFire i.pins) := by
  simp [grow, event, hsq, filter_length]

theorem grow_eq (h : Cycle t i) : grow t i = laneCount (t.queue.allocFire i.pins) := by
  cases hsq : i.pins.squashYoungerI with
  | false => exact grow_of_noSquash hsq
  | true => rw [grow_of_squash hsq, h.noFill_of_squash hsq]

/-- A cycle that adds instructions squashes none. -/
theorem keep_of_grow (hgrow : 0 < grow t i) : keep t i = t.ledger.live.length := by
  apply keep_of_noSquash
  by_contra hcon
  rw [grow_of_squash (Bool.not_eq_false _ ▸ hcon)] at hgrow
  omega

section

variable (h : Cycle t i) {j : Nat} {e : RetireEntry}
include h

theorem keep_add_grow_le : keep t i + grow t i ≤ p.depth := by
  have hfits := h.inv.alloc_fits i.pins
  have := keep_le t i
  rw [h.grow_eq]
  omega

theorem step_tailQ : (t.queue.step i.pins).tailQ =
      slot p.depth t.queue.headQ (keep t i + grow t i) := by
  have hlen := h.inv.length
  have hfits := h.inv.alloc_fits i.pins
  simp only [step, h.noFlush, if_low]
  cases hsq : i.pins.squashYoungerI with
  | true =>
    obtain ⟨m, f, hf, hslot, -⟩ := h.squash_named hsq
    rw [h.keep_of_squash hsq hf hslot, grow_of_squash hsq, ← hslot,
      if_pos rfl, p.indexAdd_slot _ _ p.depth_pos, Nat.add_zero]
  | false =>
    rw [keep_of_noSquash hsq, grow_of_noSquash hsq, if_low, h.inv.tail]
    split
    · exact p.indexAdd_slot _ _ (by omega)
    · rename_i hz
      rw [not_not] at hz
      rw [hz, Nat.add_zero]

theorem step_nextAllocIdQ : (t.queue.step i.pins).nextAllocIdQ =
      idOf p.idWidth (t.ledger.next + grow t i) := by
  simp only [step, h.noFlush, if_low]
  cases hsq : i.pins.squashYoungerI with
  | true => simpa [grow_of_squash hsq] using h.inv.nextId
  | false =>
    rw [grow_of_noSquash hsq, idOf_add, ← h.inv.nextId]
    by_cases hz : laneCount (t.queue.allocFire i.pins) = 0
    · simp [hz]
    · simp [hz]

theorem step_countQ : (t.queue.step i.pins).countQ.toNat =
      keep t i + grow t i - t.queue.retireCount i.pins := by
  have hr := h.retireCount_le_keep
  have hsum := h.keep_add_grow_le
  have hdep := p.depth_lt_count
  have hretired : (ofNat p.countWidth
      (t.queue.retireCount i.pins)).toNat = t.queue.retireCount i.pins := by
    rw [toNat_ofNat]
    exact Nat.mod_eq_of_lt (by omega)
  have hgrow : (ofNat p.countWidth (grow t i)).toNat = grow t i := by
    rw [toNat_ofNat]
    exact Nat.mod_eq_of_lt (by omega)
  have hbase : ∀ c : BitVec p.countWidth, c.toNat = keep t i + grow t i →
      (c - ofNat p.countWidth (t.queue.retireCount i.pins)).toNat =
        keep t i + grow t i - t.queue.retireCount i.pins := by
    intro c hc
    rw [BitVec.toNat_sub_of_le (by rw [BitVec.le_def]; omega), hretired, hc]
  simp only [step, h.noFlush, if_low]
  split
  · rename_i hsq
    apply hbase
    obtain ⟨m, f, hf, hslot, -⟩ := h.squash_named hsq
    have hm := (List.getElem?_eq_some_iff.mp hf).1
    have hlen := h.inv.length
    rw [squashKeepCount, ← hslot, p.prefixCountThrough_slot h.inv.head (by omega),
      h.keep_of_squash hsq hf hslot, grow_of_squash hsq, Nat.add_zero]
  rename_i hsq
  apply hbase
  rw [Bool.not_eq_true] at hsq
  rw [keep_of_noSquash hsq] at hsum ⊢
  rw [← h.grow_eq, BitVec.toNat_add_of_lt (by rw [h.inv.count, hgrow]; omega), h.inv.count, hgrow]

/-- The slots in use after the cycle, counted from the old head. -/
theorem step_validQ (hj : j < p.depth) :
    (t.queue.step i.pins).validQ (slot p.depth t.queue.headQ j) =
      decide (t.queue.retireCount i.pins ≤ j ∧ j < keep t i + grow t i) := by
  have hr := h.retireCount_le_keep
  have hkeep := keep_le t i
  have hgrow := h.grow_eq
  have hadd : 0 < grow t i → keep t i = t.ledger.live.length := keep_of_grow
  simp only [step, h.noFlush, if_low, h.squashesSlot hj, h.retiresSlot hj, h.inv.valid j hj]
  by_cases hsquashed : j < t.ledger.live.length ∧ keep t i ≤ j
  · rw [if_pos (decide_eq_true hsquashed), eq_comm, decide_eq_false_iff_not]
    omega
  rw [if_neg (by simpa using hsquashed)]
  by_cases hfill : t.ledger.live.length ≤ j ∧
      j < t.ledger.live.length + laneCount (t.queue.allocFire i.pins)
  · have hsome := h.fillsSlot_some ⟨j - t.ledger.live.length, by
      have := laneCount_le (t.queue.allocFire i.pins)
      omega⟩ (by change j - _ < _; omega)
    simp only [Nat.add_sub_cancel' hfill.1] at hsome
    rw [hsome, Option.isSome_some, if_pos rfl, eq_comm, decide_eq_true_iff]
    omega
  rw [h.fillsSlot_none hj (by omega), Option.isSome_none, if_low]
  by_cases hretired : j < t.queue.retireCount i.pins
  · rw [if_pos (decide_eq_true hretired), eq_comm, decide_eq_false_iff_not]
    omega
  · rw [if_neg (by simpa using hretired), decide_eq_decide]
    omega

/-- What the cycle leaves in the slot of a kept instruction. -/
theorem step_kept (he : t.ledger.live[j]? = some e) (hkeep : j < keep t i)
    (hretired : t.queue.retireCount i.pins ≤ j) :
    (t.queue.step i.pins).idQ e.slot = idOf p.idWidth e.seq ∧
      (t.queue.step i.pins).completeQ e.slot = (e.mark i.completed).complete := by
  have hlen := h.inv.length
  have hj := (List.getElem?_eq_some_iff.mp he).1
  obtain ⟨hplc, hold, hcomp⟩ := h.inv.entry j e he
  have hcompletes := h.completesSlot he hkeep
  have hfill := h.fillsSlot_none (show j < p.depth by omega) (.inl hj)
  have hretires := h.retiresSlot (show j < p.depth by omega)
  have hsquashes := h.squashesSlot (show j < p.depth by omega)
  rw [← hplc] at hfill hretires hsquashes
  rw [decide_eq_false (by omega)] at hretires hsquashes
  simp only [step, h.noFlush, if_low,
    hfill, hsquashes, hretires, hcompletes, hcomp, hold, mark, true_and]
  cases decide ((e.seq, e.slot) ∈ i.completed) <;> simp

/-- What the cycle puts behind the live instructions. -/
theorem step_filled {lane : Fin 3} (hlane : lane.val < laneCount (t.queue.allocFire i.pins)) :
    t.queue.allocSlot lane = slot p.depth t.queue.headQ (t.ledger.live.length + lane) ∧
      (t.queue.step i.pins).idQ (t.queue.allocSlot lane) = idOf p.idWidth (t.ledger.next + lane) ∧
      (t.queue.step i.pins).completeQ (t.queue.allocSlot lane) = i.pins.allocCompleteI lane := by
  have hfits := h.inv.alloc_fits i.pins
  have hslot := h.inv.allocSlot lane (by omega)
  have hfill := h.fillsSlot_some lane hlane
  have hsquashes := h.squashesSlot (show t.ledger.live.length + lane.val < p.depth by omega)
  rw [← hslot] at hfill hsquashes
  rw [decide_eq_false (by omega)] at hsquashes
  refine ⟨hslot, ?_, ?_⟩
  · simp only [step, h.noFlush, if_low, hfill]
    rw [allocId, h.inv.nextId, idOf_add]
  · simp only [step, h.noFlush, if_low, hfill, hsquashes]

theorem next_live_length : (t.ledger.advance (t.queue.event i)).live.length =
      keep t i + grow t i - t.queue.retireCount i.pins := by
  have hr := h.retireCount_le_keep
  have hnumber := congrArg length (numberFrom_seq t.ledger.next (t.queue.event i).allocated)
  rw [length_map, List.length_range'] at hnumber
  change ((((t.ledger.kept (t.queue.event i)).drop _).map _) ++
    numberFrom t.ledger.next (t.queue.event i).allocated).length = _
  rw [List.length_append, length_map, List.length_drop, hnumber]
  change keep t i - t.queue.retireCount i.pins + grow t i = _
  omega

/-- An instruction in flight after the cycle is a kept one or a new one. -/
theorem next_live_cases (he : (t.ledger.advance (t.queue.event i)).live[j]? = some e) :
    (∃ f, t.ledger.live[t.queue.retireCount i.pins + j]? = some f ∧
        t.queue.retireCount i.pins + j < keep t i ∧ e = f.mark i.completed) ∨
      (∃ lane : Fin 3, lane.val < laneCount (t.queue.allocFire i.pins) ∧
        t.queue.retireCount i.pins + j = t.ledger.live.length + lane ∧
        e = ⟨t.ledger.next + lane, t.queue.allocSlot lane, i.pins.allocCompleteI lane⟩) := by
  have hr := h.retireCount_le_keep
  change ((((t.ledger.kept (t.queue.event i)).drop (t.queue.retireCount i.pins)).map
    (mark i.completed)) ++ numberFrom t.ledger.next (t.queue.event i).allocated)[j]? = some e at he
  have hlen : (((t.ledger.kept (t.queue.event i)).drop
      (t.queue.retireCount i.pins)).map (mark i.completed)).length =
        keep t i - t.queue.retireCount i.pins := by
    rw [length_map, List.length_drop, keep]
  by_cases hj : j < keep t i - t.queue.retireCount i.pins
  · rw [List.getElem?_append_left (by omega), List.getElem?_map,
      List.getElem?_drop, kept_getElem? (by omega), Option.map_eq_some_iff] at he
    obtain ⟨f, hf, rfl⟩ := he
    exact .inl ⟨f, hf, by omega, rfl⟩
  rw [List.getElem?_append_right (by omega), hlen, numberFrom_getElem?,
    Option.map_eq_some_iff] at he
  obtain ⟨x, hx, rfl⟩ := he
  have hl := (List.getElem?_eq_some_iff.mp hx).1
  change _ < grow t i at hl
  have hkeep := keep_of_grow (show 0 < grow t i by omega)
  have hsq : i.pins.squashYoungerI = false := by
    by_contra hcon
    rw [grow_of_squash (Bool.not_eq_false _ ▸ hcon)] at hl
    omega
  rw [grow_of_noSquash hsq] at hl
  obtain ⟨lane, hlane, hget⟩ := filter_prefix (allocFire_eq h.protocolOk) hl
  simp only [event, hsq, if_low, List.getElem?_map, hget, Option.map_some, Option.some.injEq] at hx
  refine .inr ⟨lane, by omega, by omega, ?_⟩
  rw [← hx, hlane]

theorem kept_ge : (t.queue.event i).retired ≤ (t.ledger.kept (t.queue.event i)).length :=
  h.retireCount_le_keep

theorem step_inv : Inv ((retireTracked p).step t i) := by
  have hr := h.retireCount_le_keep
  have hsum := h.keep_add_grow_le
  have hhead := h.step_headQ
  have hlive := h.next_live_length
  have hstep : (retireTracked p).step t i =
      ⟨t.queue.step i.pins, t.ledger.advance (t.queue.event i)⟩ := by
    simp [retireTracked, h.noFlush]
  rw [hstep]
  constructor
  · rw [hhead]
    exact slot_lt p.depth_pos _
  · change (t.ledger.advance _).live.length ≤ p.depth
    omega
  · rw [h.step_tailQ, hhead, hlive, slot_slot, Nat.add_sub_cancel' (by omega)]
  · rw [h.step_countQ, hlive]
  · exact h.step_nextAllocIdQ
  · intro j hj
    rw [hhead, hlive, slot_slot]
    by_cases hturn : t.queue.retireCount i.pins + j < p.depth
    · rw [h.step_validQ hturn, decide_eq_decide]
      omega
    have hwrap : slot p.depth t.queue.headQ (t.queue.retireCount i.pins + j) =
        slot p.depth t.queue.headQ (t.queue.retireCount i.pins + j - p.depth) := by
      rw [slot, slot, show t.queue.headQ + (t.queue.retireCount i.pins + j) =
        t.queue.headQ + (t.queue.retireCount i.pins + j - p.depth) + p.depth by
          omega, Nat.add_mod_right]
    rw [hwrap, h.step_validQ (by omega), decide_eq_decide]
    omega
  · intro j e he
    rw [hhead, slot_slot]
    rcases h.next_live_cases he with ⟨f, hf, hkeep, rfl⟩ | ⟨lane, hlane, hj, rfl⟩
    · obtain ⟨hid, hcomp⟩ := h.step_kept hf hkeep (by omega)
      exact ⟨(h.inv.entry _ f hf).1, hid, hcomp⟩
    · rw [hj]
      exact h.step_filled hlane
  · exact h.inv.accounted.advance h.kept_ge

end

end Cycle

theorem Inv.flush (h : Inv t) (hfl : i.pins.flushI) : Inv ((retireTracked p).step t i) := by
  have hstep : (retireTracked p).step t i = ⟨t.queue.step i.pins, t.ledger.flush⟩ := by
    simp [retireTracked, hfl]
  rw [hstep]
  constructor
  · simp only [step, hfl, if_true]
    exact p.depth_pos
  · exact Nat.zero_le _
  · simp [step, hfl, RetireLedger.flush, slot_zero (show 0 < p.depth from p.depth_pos)]
  · simp [step, hfl, RetireLedger.flush]
  · simpa [step, hfl, RetireLedger.flush] using h.nextId
  · intro j hj
    simp [step, hfl, RetireLedger.flush]
  · intro j e he
    simp [RetireLedger.flush] at he
  · exact h.accounted.flush

theorem Inv.reset (s : RetireQueueState p) : Inv ⟨s.reset, .empty⟩ where
  head := p.depth_pos
  length := Nat.zero_le _
  tail := (slot_zero p.depth_pos).symm
  count := BitVec.toNat_zero
  nextId := rfl
  valid j hj := by simp [RetireQueueState.reset, empty]
  entry j e he := by simp [empty] at he
  accounted := accounted_empty

/-! ## Completions and their causes -/

/-- What the history says about completions. -/
structure History (past : Sync.Past (RetireTracked p) (RetireInput p))
    (t : RetireTracked p) : Prop where
  retiredComplete : ∀ e ∈ t.ledger.retired, e.complete = true
  caused : ∀ e ∈ t.ledger.order, e.complete = true → ∃ x ∈ past, Completes e.seq e.slot x.1 x.2

theorem Cycle.retired_complete (h : Cycle t i) {j : Nat} {e : RetireEntry}
    (he : t.ledger.live[j]? = some e)
    (hj : j < t.queue.retireCount i.pins) : e.complete := by
  have h3 : t.queue.retireCount i.pins ≤ 3 := laneCount_le _
  have hr := h.retireCount_le
  have hlen := h.inv.length
  have hfire : t.queue.retireFire i.pins ⟨j, by omega⟩ := by
    rw [retireFire_eq h.protocolOk]
    exact decide_eq_true hj
  have hoffered : t.queue.retireValidO ⟨j, by omega⟩ := by
    rw [retireFire, and_eq_true] at hfire
    exact hfire.1
  have hretire := (retireValidO_iff t.queue _).mp hoffered ⟨j, by omega⟩ le_rfl
  obtain ⟨hplc, -, hcomp⟩ := h.inv.entry j e he
  rw [retirable, h.inv.retireSlot _ (by change j ≤ _; omega), ← hplc, completeAt, hcomp] at hretire
  simp only [and_eq_true] at hretire
  exact hretire.2.2

theorem Cycle.step_history {past : Sync.Past (RetireTracked p) (RetireInput p)}
    (h : Cycle t i) (hh : History past t) :
    History ((t, i) :: past) ((retireTracked p).step t i) := by
  have hstep : (retireTracked p).step t i =
      ⟨t.queue.step i.pins, t.ledger.advance (t.queue.event i)⟩ := by
    simp [retireTracked, h.noFlush]
  have hold : ∀ e ∈ t.ledger.order, e.complete →
      ∃ x ∈ (t, i) :: past, Completes e.seq e.slot x.1 x.2 := by
    intro e he hcomp
    obtain ⟨x, hx, hcause⟩ := hh.caused e he hcomp
    exact ⟨x, List.mem_cons_of_mem _ hx, hcause⟩
  have htake : ∀ e ∈ t.ledger.live.take (t.queue.retireCount i.pins),
      e ∈ t.ledger.live ∧ e.complete := by
    intro e he
    obtain ⟨j, hj⟩ := List.mem_iff_getElem?.mp he
    rw [List.getElem?_take] at hj
    split at hj
    · rename_i hlt
      exact ⟨mem_of_getElem? hj, h.retired_complete hj hlt⟩
    · cases hj
  rw [hstep]
  constructor
  · intro e he
    rcases mem_append.mp he with he | he
    · exact hh.retiredComplete e he
    · exact (htake e he).2
  · intro e he hcomp
    rcases mem_append.mp he with he | he
    · apply hold e ?_ hcomp
      rcases mem_append.mp he with he | he
      · exact List.mem_append_left _ he
      · exact List.mem_append_right _ (htake e he).1
    obtain ⟨j, hj⟩ := List.mem_iff_getElem?.mp he
    rcases h.next_live_cases hj with ⟨f, hf, -, rfl⟩ | ⟨lane, hlane, -, rfl⟩
    · rw [mark, Bool.or_eq_true, decide_eq_true_iff, RetireInput.mem_completed] at hcomp
      rcases hcomp with hcomp | ⟨port, hval, hseq, hslot⟩
      · exact hold f (List.mem_append_right _ (mem_of_getElem? hf)) hcomp
      · refine ⟨(t, i), mem_cons_self, .inr ⟨port, hval, hseq, hslot, ?_⟩⟩
        rw [(h.promises.answers port hval).2.2, hseq, mark_seq]
    · refine ⟨(t, i), mem_cons_self, .inl ⟨lane, ?_, hcomp, rfl, rfl⟩⟩
      rw [allocFire_eq h.protocolOk]
      exact decide_eq_true hlane

theorem History.flush {past : Sync.Past (RetireTracked p) (RetireInput p)}
    (hh : History past t) (hfl : i.pins.flushI) :
    History ((t, i) :: past) ((retireTracked p).step t i) := by
  have hstep : (retireTracked p).step t i = ⟨t.queue.step i.pins, t.ledger.flush⟩ := by
    simp [retireTracked, hfl]
  rw [hstep]
  constructor
  · exact hh.retiredComplete
  · intro e he hcomp
    have hmem : e ∈ t.ledger.order := by
      simp only [order, RetireLedger.flush, List.append_nil] at he
      exact List.mem_append_left _ he
    obtain ⟨x, hx, hcause⟩ := hh.caused e hmem hcomp
    exact ⟨x, List.mem_cons_of_mem _ hx, hcause⟩

/-! ## Every run -/

/-- The valid slots are as many as the instructions in flight. -/
theorem Inv.valid_count (h : Inv t) :
    ((range p.depth).filter t.queue.validQ).length = t.ledger.live.length := by
  have hlen := h.length
  have hperm : ((range p.depth).filter t.queue.validQ).Perm
      ((range t.ledger.live.length).map (slot p.depth t.queue.headQ)) := by
    apply (List.perm_ext_iff_of_nodup (List.nodup_range.filter _) ?_).mpr
    · intro x
      simp only [List.mem_filter, mem_range, List.mem_map]
      constructor
      · intro hx
        obtain ⟨j, hj, rfl⟩ := exists_slot h.head hx.1
        rw [h.valid j hj, decide_eq_true_iff] at hx
        exact ⟨j, hx.2, rfl⟩
      · intro hx
        obtain ⟨j, hj, rfl⟩ := hx
        refine ⟨slot_lt p.depth_pos j, ?_⟩
        rw [h.valid j (by omega)]
        exact decide_eq_true hj
    · apply List.Nodup.map_on ?_ List.nodup_range
      intro j hj k hk hslot
      rw [mem_range] at hj hk
      exact slot_inj h.head (by omega) (by omega) hslot
  rw [hperm.length_eq, length_map, List.length_range]

/-- A lane is retirable when the instruction at its place is complete. -/
theorem Inv.retirable_iff (h : Inv t) (lane : Fin 3) {e : RetireEntry}
    (he : t.ledger.live[lane.val]? = some e) : t.queue.retirable lane ↔ e.complete := by
  have hlen := h.length
  have hlane := (List.getElem?_eq_some_iff.mp he).1
  obtain ⟨hplc, -, hcomp⟩ := h.entry _ e he
  have hlt : slot p.depth t.queue.headQ lane < p.depth := slot_lt p.depth_pos _
  rw [retirable, h.retireSlot lane (by omega),
    h.validAt (by omega), decide_eq_true hlane, completeAt,
    decide_eq_true hlt, ← hplc, hcomp, Bool.true_and, Bool.true_and]

theorem Inv.offered (h : Inv t) {lane : Fin 3} (hlane : lane < t.ledger.live.length) :
    t.queue.retireValidO lane ↔ ∀ j ≤ lane.val, ∀ e : RetireEntry,
      t.ledger.live[j]? = some e → e.complete := by
  rw [retireValidO_iff]
  constructor
  · intro hall j hj e he
    exact (h.retirable_iff ⟨j, by omega⟩ he).mp (hall ⟨j, by omega⟩ hj)
  · intro hall other hoth
    have he := List.getElem?_eq_getElem
      (show other.val < t.ledger.live.length from Nat.lt_of_le_of_lt hoth hlane)
    exact (h.retirable_iff other he).mpr (hall other.val hoth _ he)

/-- Exactness follows from the inductive part and the history. -/
theorem Inv.retireExact {past : Sync.Past (RetireTracked p) (RetireInput p)}
    (h : Inv t) (hh : History past t) : RetireExact past t := by
  have hlen := h.length
  constructor
  · exact h.head
  · exact h.tail
  · intro x hx
    obtain ⟨j, hj, rfl⟩ := exists_slot h.head hx
    rw [h.valid j hj, decide_eq_true_iff]
    constructor
    · exact fun hlt => ⟨j, hlt, rfl⟩
    · intro hex
      obtain ⟨k, hk, hslot⟩ := hex
      rwa [← slot_inj h.head (by omega) hj hslot]
  · rw [h.count, h.valid_count]
  · exact h.nextId
  · exact h.entry
  · intro lane hlane
    refine ⟨h.offered hlane, fun e he => ?_⟩
    obtain ⟨hplc, hold, -⟩ := h.entry _ e he
    have hslot := h.retireSlot lane (by omega)
    refine ⟨by rw [hslot, hplc], fun hval => ?_⟩
    rw [retireIdO, if_pos hval, hslot, ← hplc, hold]
  · intro hdep lane hval
    have hretire := (t.queue.retireValidO_iff lane).mp hval lane le_rfl
    rw [retirable, h.retireSlot lane (by omega),
      h.validAt (by omega), and_eq_true, decide_eq_true_iff] at hretire
    exact hretire.1
  · exact h.accounted
  · exact hh.retiredComplete
  · exact hh.caused

/-- In every run whose cycles take none of the breaking branches the queue is
exact in every state. -/
theorem retireExact_of_safe {past : Sync.Past (RetireTracked p) (RetireInput p)}
    (hrun : Sync.Run (retireTracked p)
      (Sync.cycleEnv fun t i => Promises t i ∧ retireSafe t i = true) past t) :
    RetireExact past t := by
  have hall : Inv t ∧ History past t := by
    apply Sync.Run.invariant (P := fun past t => Inv t ∧ History past t) ?_ ?_ hrun
    · intro t hinit
      obtain ⟨⟨s, hqueue⟩, hledger⟩ := hinit
      have hreset : t = ⟨s.reset, .empty⟩ := by
        rw [← hqueue, ← hledger]
      rw [hreset]
      exact ⟨Inv.reset s, by simp [empty], by
        simp [empty, order]⟩
    · intro past t i _ henv hold
      obtain ⟨hinv, hhistory⟩ := hold
      cases hflush : i.pins.flushI with
      | true => exact ⟨hinv.flush hflush, hhistory.flush hflush⟩
      | false =>
        have hcycle : Cycle t i := ⟨hinv, henv.1, hflush, henv.2⟩
        exact ⟨hcycle.step_inv, hcycle.step_history hhistory⟩
  exact hall.1.retireExact hall.2

/-! ## Concrete runs -/

/-- What `Promises` says about one completion port. -/
def PortAnswers (t : RetireTracked p) (i : RetireInput p) (port : Option (Fin 3)) : Prop :=
  i.portValid port = true → i.portSeq port < t.ledger.next ∧
      t.ledger.next ≤ i.portSeq port + 2 ^ (p.idWidth - 1) ∧
      i.portId port = idOf p.idWidth (i.portSeq port)

instance (t : RetireTracked p) (i : RetireInput p) (port : Option (Fin 3)) :
    Decidable (PortAnswers t i port) := by
  unfold PortAnswers
  infer_instance

instance (t : RetireTracked p) (i : RetireInput p) : Decidable (Promises t i) :=
  decidable_of_iff
    ((i.pins.flushI = false → t.queue.ProtocolOk i.pins) ∧
      (∀ e ∈ t.ledger.live, t.ledger.next ≤ e.seq + 2 ^ (p.idWidth - 1)) ∧
      (∀ port : Fin 3, PortAnswers t i (some port)) ∧ PortAnswers t i none)
    ⟨fun h => ⟨h.1, h.2.1, fun port => match port with
        | some port => h.2.2.1 port
        | none => h.2.2.2⟩, fun h => ⟨h.protocol, h.window, fun port => h.answers (some port),
        h.answers none⟩⟩

/-- A queue with ten-bit identifiers, as the backend instantiates it. -/
def tenBitParams (depth : Nat) (h : 1 ≤ depth ∧ depth < 512) : RetireQueueParams where
  depth := depth
  idWidth := 10
  enableExtensionCompletion := false
  depth_pos := h.1
  depth_lt := h.2

def quiet (p : RetireQueueParams) : RetireInput p where
  pins :=
    { flushI := false
      squashYoungerI := false
      squashIdI := 0
      squashSlotI := 0
      allocValidI := fun _ => false
      allocCompleteI := fun _ => false
      completeValidI := fun _ => false
      completeIdI := fun _ => 0
      completeSlotI := fun _ => 0
      extensionCompleteValidI := false
      extensionCompleteIdI := 0
      extensionCompleteSlotI := 0
      retireAcceptI := fun _ => false }
  completeSeq := fun _ => 0
  extensionCompleteSeq := 0

/-- Allocate `count` instructions, the first `complete` of them complete. -/
def allocate (p : RetireQueueParams) (count complete : Nat) : RetireInput p :=
  { quiet p with
    pins :=
      { (quiet p).pins with
        allocValidI := fun lane => decide (lane.val < count)
        allocCompleteI := fun lane => decide (lane.val < complete) } }

/-- Complete allocation number `seq` in `slot`. -/
def complete (p : RetireQueueParams) (seq slot : Nat) : RetireInput p :=
  { quiet p with
    pins :=
      { (quiet p).pins with
        completeValidI := fun port => port.val == 1
        completeIdI := fun _ => idOf p.idWidth seq
        completeSlotI := fun _ => slot }
    completeSeq := fun _ => seq }

/-- Retire `count` instructions, and squash what is younger than allocation
number `seq` in `slot` if there is one. -/
def retire (p : RetireQueueParams) (count : Nat) (named : Option (Nat × Nat)) : RetireInput p :=
  { quiet p with
    pins :=
      { (quiet p).pins with
        retireAcceptI := fun lane => decide (lane.val < count)
        squashYoungerI := named.isSome
        squashIdI := idOf p.idWidth (named.getD (0, 0)).1
        squashSlotI := (named.getD (0, 0)).2 } }

/-- The state that reset leaves when the identifiers powered up as zero. -/
def powerUp (p : RetireQueueParams) : RetireTracked p :=
  ⟨RetireQueueState.reset ⟨fun _ => false, fun _ => false, fun _ => 0, 0, 0, 0, 0, 0⟩, .empty⟩

theorem powerUp_init (p : RetireQueueParams) : (retireTracked p).Init (powerUp p) := ⟨⟨_, rfl⟩, rfl⟩

def fourDeep : RetireQueueParams := tenBitParams 4 (by decide)

/-- A ring that wraps: five allocations, a late completion of a squashed
instruction, and a retirement in the cycle of a squash. -/
def wrappingInputs : List (RetireInput fourDeep) :=
  [allocate _ 3 2, retire _ 2 none, allocate _ 2 0, complete _ 2 2,
    retire _ 1 (some (3, 3)), allocate _ 1 0, complete _ 4 0, complete _ 3 3]

theorem retireExact_of_safe_wrapping :
    RetireExact (Sync.exec (retireTracked fourDeep) [] (powerUp fourDeep) wrappingInputs).1
      (Sync.exec (retireTracked fourDeep) [] (powerUp fourDeep) wrappingInputs).2 := by
  apply retireExact_of_safe
  exact Sync.exec_run_decide wrappingInputs (powerUp_init fourDeep) (by decide +kernel)

def twoDeep : RetireQueueParams := tenBitParams 2 (by decide)

/-- With two slots the third retirement lane offers the head a second time. -/
theorem retireExact_fails :
    ¬ ∀ (p : RetireQueueParams) past t, Sync.Run (retireTracked p) (Sync.cycleEnv Promises) past t →
        RetireExact past t := by
  intro hexact
  have hcount := (hexact twoDeep _ _
    (Sync.exec_run_decide [allocate _ 2 2, retire _ 3 none] (powerUp_init twoDeep)
      (by decide +kernel))).count
  revert hcount
  decide +kernel

end RetireTracked

end OpenRV64
