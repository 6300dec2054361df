/-
The window and the retirement queue hold the same instructions in the same slots, and
go through each cycle together.
-/
import OpenRV64.WindowBackend

namespace OpenRV64

open ModularAge RingSegment RetireEntry RetireQueueState RetireTracked WindowState
open RetireTracked.Cycle
open Bool (and_eq_true not_eq_true')
open BitVec (ofNat toNat_zero)
open List (mem_iff_getElem? mem_of_getElem? find?_some finRange)

/-! ## What the selection offers -/

namespace WindowState

variable {p : WindowParams} {s : WindowState p} {i : WindowInput p} {n : Nat}

theorem mem_scanSlots (hhead : i.nextRetireSlotI < p.depth) (hn : n ∈ scanSlots i) :
    n < p.depth := by
  obtain ⟨offset, hoffset, rfl⟩ := List.mem_map.mp hn
  rw [List.mem_range] at hoffset
  split <;> omega

theorem selectBy_some {f : IssuePayload → Bool} (h : s.selectBy i f = some n) :
    n ∈ scanSlots i ∧ s.eligible i n ∧ f (s.entry n).payload := by
  have hn := find?_some h
  rw [and_eq_true] at hn
  exact ⟨List.mem_of_find?_eq_some h, hn⟩

/-- What EX1 is offered is eligible, and is a hard or a flexible instruction. -/
theorem selectEx1_some (h : s.selectEx1 i = some n) : n ∈ scanSlots i ∧ s.eligible i n ∧
      ((s.entry n).payload.isHard ∨ (s.entry n).payload.isFlexibleAlu) := by
  rw [selectEx1, Option.or_eq_some_iff] at h
  rcases h with h | ⟨-, h⟩
  · obtain ⟨hmem, heligible, hfixed⟩ := selectBy_some h
    exact ⟨hmem, heligible, .inl hfixed⟩
  · have hn := find?_some h
    simp only [and_eq_true] at hn
    exact ⟨List.mem_of_find?_eq_some h, hn.1.1, .inr hn.1.2⟩

theorem valid_of_eligible (h : s.eligible i n) :
    (s.entry n).valid ∧ (s.entry n).issued = false := by
  simp only [eligible, baseEligible, and_eq_true, not_eq_true'] at h
  exact h.1.1.1.1.1.1.1

/-- A lane of decode is admitted only behind the lanes before it, and into a free place. -/
theorem decodeFire_order (s : WindowState p) (i : WindowInput p) :
    (s.decodeFire i 1 → s.decodeFire i 0) ∧ (s.decodeFire i 2 → s.decodeFire i 1) := by
  constructor
  · intro h
    rw [decodeFire, and_eq_true] at h
    exact h.2
  · intro h
    rw [decodeFire, and_eq_true] at h
    exact h.2

theorem decodeReadyO_of_fire {lane : Fin 3} (h : s.decodeFire i lane) : s.decodeReadyO i lane := by
  match lane, h with
  | 0, h =>
    rw [decodeFire, and_eq_true] at h
    exact h.2
  | 1, h =>
    rw [decodeFire, and_eq_true, and_eq_true] at h
    exact h.1.2
  | 2, h =>
    rw [decodeFire, and_eq_true, and_eq_true] at h
    exact h.1.2

theorem decodeFire_some {lane : Fin 3} (h : s.decodeFire i lane) :
    i.flushI = false ∧ i.squashFrontendI = false ∧ lane.val < s.freeCount := by
  have hrdy := decodeReadyO_of_fire h
  simp only [decodeReadyO, and_eq_true, not_eq_true', decide_eq_true_eq] at hrdy
  exact ⟨hrdy.1.1.1, hrdy.1.1.2, hrdy.2⟩

/-- What a cycle makes of an entry that stays. -/
def keepEntry (s : WindowState p) (i : WindowInput p) (n : Nat) : WindowEntry p.idWidth :=
  { s.wake i n with
    issued := (s.entry n).issued || s.issues i n
    resultReady := (s.resultNow i n).1 || s.resolves i n }

theorem decodeCount_le (s : WindowState p) (i : WindowInput p) :
    laneCount (s.decodeFire i) ≤ s.freeCount := by
  have horder := lane_eq_decide (s.decodeFire_order i)
  have h3 := laneCount_le (s.decodeFire i)
  by_contra hcon
  have hlane := horder ⟨laneCount (s.decodeFire i) - 1, by omega⟩
  rw [decide_eq_true (by change laneCount _ - 1 < _; omega)] at hlane
  have hfree := (decodeFire_some hlane).2.2
  change laneCount (s.decodeFire i) - 1 < _ at hfree
  omega

end WindowState

namespace BackendTracked

variable {p : WindowParams} {t : BackendTracked p} {i : BackendInput p}

/-- Window and queue hold the instructions in flight, each in its slot, and what has
completed was issued. -/
structure Coupled (t : BackendTracked p) : Prop where
  retire : Inv t.retire
  entry : ∀ e ∈ t.ledger.live, (t.window.entry e.slot).valid = true ∧
    (t.window.entry e.slot).id = idOf p.idWidth e.seq ∧
      (t.window.entry e.slot).payload = t.program e.seq
  vacant : ∀ n, n < p.depth → (∀ e ∈ t.ledger.live, e.slot ≠ n) → (t.window.entry n).valid = false
  count : t.window.countQ.toNat = t.ledger.live.length
  issued : ∀ e ∈ t.ledger.live, e.complete = true → (t.window.entry e.slot).issued = true

namespace Coupled

variable (h : Coupled t)

include h in
theorem head : t.queue.headQ < p.depth := h.retire.head

include h in
theorem length : t.ledger.live.length ≤ p.depth := h.retire.length

include h in
theorem place {j : Nat} {e : RetireEntry} (hj : t.ledger.live[j]? = some e) :
    e.slot = slot p.depth t.queue.headQ j := (h.retire.entry j e hj).1

include h in
theorem slot_lt {e : RetireEntry} (he : e ∈ t.ledger.live) : e.slot < p.depth := by
  obtain ⟨j, hj⟩ := mem_iff_getElem?.mp he
  rw [h.place hj]
  exact RingSegment.slot_lt p.retireQueue.depth_pos j

include h in
/-- A resident entry is that of an instruction in flight. -/
theorem resident {n : Nat} (hn : n < p.depth) (hval : (t.window.entry n).valid) :
    ∃ e ∈ t.ledger.live, e.slot = n := by
  by_contra hnone
  rw [h.vacant n hn fun e he hslot => hnone ⟨e, he, hslot⟩] at hval
  cases hval

include h in
theorem valid_eq {n : Nat} (hn : n < p.depth) : t.queue.validQ n = (t.window.entry n).valid := by
  obtain ⟨j, hj, rfl⟩ := exists_slot h.head hn
  rw [show t.queue.validQ (slot p.depth t.queue.headQ j) = _ from h.retire.valid j hj]
  by_cases hlive : j < t.ledger.live.length
  · have he := List.getElem?_eq_getElem hlive
    rw [← h.place he, (h.entry _ (mem_of_getElem? he)).1]
    exact decide_eq_true hlive
  rw [h.vacant _ hn]
  · exact decide_eq_false hlive
  · intro e he hslot
    obtain ⟨k, hk⟩ := mem_iff_getElem?.mp he
    have hlen := h.length
    have hkl := (List.getElem?_eq_some_iff.mp hk).1
    rw [h.place hk] at hslot
    have := RingSegment.slot_inj h.head (by omega) hj hslot
    omega

include h in
/-- No two instructions share a slot. -/
theorem slot_inj {e f : RetireEntry} (he : e ∈ t.ledger.live) (hf : f ∈ t.ledger.live)
    (hslot : e.slot = f.slot) : e = f := by
  obtain ⟨j, hj⟩ := mem_iff_getElem?.mp he
  obtain ⟨k, hk⟩ := mem_iff_getElem?.mp hf
  have hlen := h.length
  have hjl := (List.getElem?_eq_some_iff.mp hj).1
  have hkl := (List.getElem?_eq_some_iff.mp hk).1
  rw [h.place hj, h.place hk] at hslot
  have hjk := RingSegment.slot_inj h.head (by omega) (by omega) hslot
  rw [hjk, hk] at hj
  exact (Option.some.inj hj).symm

include h in
/-- No two instructions share a number. -/
theorem seq_inj {e f : RetireEntry} (he : e ∈ t.ledger.live) (hf : f ∈ t.ledger.live)
    (hseq : e.seq = f.seq) : e = f := by
  obtain ⟨j, hj⟩ := mem_iff_getElem?.mp he
  obtain ⟨k, hk⟩ := mem_iff_getElem?.mp hf
  have hlt := h.retire.accounted.live_seq_lt_iff hj hk
  have hgt := h.retire.accounted.live_seq_lt_iff hk hj
  have hjk : j = k := by omega
  rw [hjk, hk] at hj
  exact (Option.some.inj hj).symm

include h in
theorem freeCount : t.window.freeCount = p.depth - t.ledger.live.length := by
  rw [WindowState.freeCount, h.count]

include h in
/-- What EX1 takes is an unissued instruction in flight. -/
theorem ex1_entry (htake : t.ex1Takes i) : ∃ e ∈ t.ledger.live, e.slot = i.redirectSlotI ∧
      i.redirectIdI = idOf p.idWidth e.seq ∧ (t.window.entry e.slot).issued = false := by
  simp only [BackendState.ex1Takes, and_eq_true, beq_iff_eq] at htake
  obtain ⟨⟨hsel, -⟩, hid⟩ := htake
  obtain ⟨hmem, heligible, -⟩ := selectEx1_some hsel
  obtain ⟨hval, hiss⟩ := valid_of_eligible heligible
  obtain ⟨e, he, hslot⟩ := h.resident (mem_scanSlots h.head hmem) hval
  refine ⟨e, he, hslot, ?_, by rw [hslot, hiss]⟩
  rw [← hid, ← hslot, (h.entry e he).2.1]

include h in
/-- The queue takes every admitted instruction. -/
theorem allocFire (lane : Fin 3) :
    t.queue.allocFire (t.queueInput i) lane = t.window.decodeFire (t.windowInput i) lane := by
  have hle := t.window.decodeCount_le (t.windowInput i)
  have hfree := h.retire.freeCount
  have hrdy : t.queue.allocReadyO (t.queueInput i) := by
    rw [allocReadyO, decide_eq_true_iff]
    rw [hfree]
    rw [h.freeCount] at hle
    exact hle
  change (t.window.decodeFire (t.windowInput i) lane && _) = _
  rw [hrdy, Bool.and_true]

end Coupled

/-- A cycle that keeps the promises within the bounds and does not clear everything. -/
structure Cycle (t : BackendTracked p) (i : BackendInput p) : Prop where
  coupled : Coupled t
  promises : t.Promises i
  bounded : t.Bounded i
  noClear : i.clears = false

namespace Cycle

variable (h : Cycle t i)

include h in
theorem protocolOk : t.queue.ProtocolOk (t.queueInput i) where
  allocPrefix := t.window.decodeFire_order (t.windowInput i)
  retireAvailable := h.promises.retireAvailable
  retirePrefix := h.promises.retirePrefix
  squashAlone := by
    intro hsq lane
    rw [h.coupled.allocFire]
    by_contra hfire
    have hnone := (decodeFire_some (Bool.not_eq_false _ ▸ hfire)).2.1
    change (i.squashFrontendI && _) at hsq
    change i.squashFrontendI = false at hnone
    rw [hnone] at hsq
    cases hsq
  squashLive := by
    intro hsq
    obtain ⟨e, he, hslot, hid, -⟩ := h.coupled.ex1_entry (h.promises.redirect hsq)
    obtain ⟨j, hj⟩ := mem_iff_getElem?.mp he
    obtain ⟨hplc, hold, -⟩ := h.coupled.retire.entry j e hj
    have hlen := h.coupled.length
    have hjl := (List.getElem?_eq_some_iff.mp hj).1
    have hat := h.coupled.retire.validAt (show j < p.depth by omega)
    change t.queue.validAt i.redirectSlotI ∧ t.queue.idQ i.redirectSlotI = i.redirectIdI
    rw [← hslot, hid]
    refine ⟨?_, hold⟩
    rw [hplc, hat]
    exact decide_eq_true hjl

include h in
theorem retireCount_le : t.queue.retireCount (t.queueInput i) ≤ t.ledger.live.length := by
  rcases h.bounded.retires with hdep | hle
  · have h3 : t.queue.retireCount (t.queueInput i) ≤ 3 := laneCount_le _
    by_contra hcon
    have hlane := retireFire_eq h.protocolOk ⟨t.queue.retireCount (t.queueInput i) - 1, by omega⟩
    rw [decide_eq_true (by change _ - 1 < _; omega), retireFire, and_eq_true] at hlane
    have hretire := (t.queue.retireValidO_iff _).mp hlane.1 _ le_rfl
    rw [retirable, h.coupled.retire.retireSlot _ (by change _ - 1 ≤ p.depth; omega),
      h.coupled.retire.validAt (by change _ - 1 < p.depth; omega), and_eq_true,
      decide_eq_true_iff] at hretire
    have hlt := hretire.1
    change t.queue.retireCount (t.queueInput i) - 1 < t.ledger.live.length at hlt
    omega
  · rwa [h.coupled.retire.count] at hle

include h in
/-- Retirement stops before the control that recovers, which has not completed. -/
theorem retireSafe : RetireTracked.retireSafe t.retire (t.retireInput i) := by
  have hle := h.retireCount_le
  have hcnt := h.coupled.retire.count
  simp only [RetireTracked.retireSafe, Bool.or_eq_true, and_eq_true,
    decide_eq_true_eq, not_eq_true', hcnt]
  refine .inr ⟨hle, ?_⟩
  cases hsq : i.selectiveSquash with
  | false => exact .inl hsq
  | true =>
    refine .inr ?_
    obtain ⟨e, he, hslot, -, hiss⟩ := h.coupled.ex1_entry (h.promises.redirect hsq)
    obtain ⟨m, hm⟩ := mem_iff_getElem?.mp he
    have hml := (List.getElem?_eq_some_iff.mp hm).1
    have hlen := h.coupled.length
    have hkeep : (t.queue.squashKeepCount (t.queueInput i)).toNat = m + 1 := by
      change (p.retireQueue.prefixCountThrough t.queue.headQ i.redirectSlotI).toNat = _
      rw [← hslot, h.coupled.place hm]
      exact p.retireQueue.prefixCountThrough_slot h.coupled.head (show m < p.depth by omega)
    rw [hkeep]
    by_contra hcon
    have h3 : t.queue.retireCount (t.queueInput i) ≤ 3 := laneCount_le _
    have hfire := retireFire_eq h.protocolOk ⟨m, by omega⟩
    rw [decide_eq_true (by change m < _; omega), retireFire, and_eq_true] at hfire
    have hretire := (t.queue.retireValidO_iff _).mp hfire.1 _ le_rfl
    have hcomp := (h.coupled.retire.retirable_iff ⟨m, by omega⟩ hm).mp hretire
    rw [h.coupled.issued e he hcomp] at hiss
    cases hiss

include h in
/-- The queue runs through one of its cycles. -/
theorem retireCycle : RetireTracked.Cycle t.retire (t.retireInput i) where
  inv := h.coupled.retire
  promises :=
    { protocol := fun _ => h.protocolOk
      window := h.bounded.window
      answers := by
        intro port hval
        cases port with
        | some port =>
          have hanswers := h.promises.answers port
          exact ⟨hanswers.allocated hval, h.bounded.answers port hval, hanswers.named hval⟩
        | none => cases hval }
  noFlush := h.noClear
  safe := h.retireSafe

/-! ## One cycle of the window -/

/-- The window and the queue fill, and free, the same slots. -/
theorem allocationLane (h : Cycle t i) (hsq : i.selectiveSquash = false) (n : Nat) :
    t.window.allocationLane (t.windowInput i) n = t.queue.fillsSlot (t.queueInput i) n := by
  have hfire : ∀ lane, t.queue.allocFire (t.queueInput i) lane =
      t.window.decodeFire (t.windowInput i) lane := h.coupled.allocFire
  have hlist : (finRange 3).reverse = [2, 1, 0] := rfl
  have hslot : (t.windowInput i).allocationSlotI = t.queue.allocSlot := rfl
  have hnone : (t.queueInput i).squashYoungerI = false := hsq
  rw [WindowState.allocationLane, RetireQueueState.fillsSlot, RetireQueueState.allocLane,
    hlist, hnone, hslot, if_low, hfire, hfire, hfire]
  simp only [List.find?_cons, List.find?_nil]
  cases t.window.decodeFire (t.windowInput i) 2 && t.queue.allocSlot 2 == n <;>
    cases t.window.decodeFire (t.windowInput i) 1 && t.queue.allocSlot 1 == n <;>
    cases t.window.decodeFire (t.windowInput i) 0 && t.queue.allocSlot 0 == n <;> rfl

theorem retireFire (h : Cycle t i) (lane : Fin 3) :
    t.queue.retireFire (t.queueInput i) lane = i.retireAcceptI lane := by
  change (t.queue.retireValidO lane && i.retireAcceptI lane) = _
  cases hacc : i.retireAcceptI lane with
  | false => rw [Bool.and_false]
  | true => rw [h.promises.retireAvailable lane hacc, Bool.and_true]

theorem retiresSlot (h : Cycle t i) (n : Nat) :
    WindowState.retiresSlot (t.windowInput i) n = t.queue.retiresSlot (t.queueInput i) n := by
  rw [Bool.eq_iff_iff, retiresSlot_iff]
  simp only [WindowState.retiresSlot, List.any_eq_true, List.mem_finRange, true_and,
    and_eq_true, beq_iff_eq, h.retireFire]
  rfl

/-- The place of the oldest instruction that stays, and of the first that does not. -/
def gone (t : BackendTracked p) (i : BackendInput p) : Nat := t.queue.retireCount (t.queueInput i)

def kept (t : BackendTracked p) (i : BackendInput p) : Nat :=
  keep t.retire (t.retireInput i)

def grown (t : BackendTracked p) (i : BackendInput p) : Nat :=
  grow t.retire (t.retireInput i)

theorem kept_le (t : BackendTracked p) (i : BackendInput p) : kept t i ≤ t.ledger.live.length :=
  keep_le t.retire (t.retireInput i)

theorem gone_le_kept (h : Cycle t i) : gone t i ≤ kept t i := h.retireCycle.retireCount_le_keep

theorem kept_add_grown_le (h : Cycle t i) : kept t i + grown t i ≤ p.depth :=
  h.retireCycle.keep_add_grow_le

theorem grown_eq (h : Cycle t i) :
    grown t i = laneCount (t.window.decodeFire (t.windowInput i)) := by
  have hfire : t.queue.allocFire (t.queueInput i) =
      t.window.decodeFire (t.windowInput i) := funext h.coupled.allocFire
  rw [← hfire]
  exact h.retireCycle.grow_eq

theorem kept_of_noSquash (hsq : i.selectiveSquash = false) : kept t i = t.ledger.live.length :=
  keep_of_noSquash hsq

section

variable (h : Cycle t i) {j k : Nat} {e f : RetireEntry}
include h

theorem younger (he : t.ledger.live[j]? = some e) (hf : t.ledger.live[k]? = some f) :
    isYounger (idOf p.idWidth e.seq) (idOf p.idWidth f.seq) = decide (k < j) :=
  h.retireCycle.younger he hf

/-- Identifiers of instructions in flight are distinct. -/
theorem id_inj (he : e ∈ t.ledger.live) (hf : f ∈ t.ledger.live)
    (hid : idOf p.idWidth e.seq = idOf p.idWidth f.seq) : e = f := by
  obtain ⟨j, hj⟩ := mem_iff_getElem?.mp he
  obtain ⟨k, hk⟩ := mem_iff_getElem?.mp hf
  have hjk := h.younger hj hk
  have hkj := h.younger hk hj
  rw [hid, isYounger_self, eq_comm, decide_eq_false_iff_not] at hjk hkj
  have heq : j = k := by omega
  rw [heq, hk] at hj
  exact (Option.some.inj hj).symm

theorem retires (he : t.ledger.live[j]? = some e) :
    (t.windowInput i).retires (idOf p.idWidth e.seq) = decide (j < gone t i) := by
  have hlen := h.coupled.length
  have hgone : gone t i ≤ t.ledger.live.length := h.retireCount_le
  have h3 : gone t i ≤ 3 := laneCount_le _
  have hfire : ∀ lane : Fin 3, i.retireAcceptI lane = decide (lane.val < gone t i) := by
    intro lane
    rw [← h.retireFire lane]
    exact retireFire_eq h.protocolOk lane
  have hid : ∀ (lane : Fin 3) (f : RetireEntry), lane.val < gone t i →
      t.ledger.live[lane.val]? = some f → t.queue.retireIdO lane = idOf p.idWidth f.seq := by
    intro lane f hlane hf
    have hval := h.promises.retireAvailable lane (by rw [hfire, decide_eq_true hlane])
    obtain ⟨hplc, hold, -⟩ := h.coupled.retire.entry _ f hf
    rw [retireIdO, if_pos hval,
      h.coupled.retire.retireSlot lane (show lane.val ≤ p.depth by omega), ← hplc]
    exact hold
  rw [Bool.eq_iff_iff, decide_eq_true_iff]
  simp only [WindowInput.retires, List.any_eq_true, List.mem_finRange, true_and,
    and_eq_true, beq_iff_eq]
  constructor
  · rintro ⟨lane, hacc, hsame⟩
    change i.retireAcceptI lane at hacc
    change t.queue.retireIdO lane = _ at hsame
    rw [hfire, decide_eq_true_iff] at hacc
    have hf := List.getElem?_eq_getElem (show lane.val < t.ledger.live.length by omega)
    rw [hid lane _ hacc hf] at hsame
    have hef := h.id_inj (mem_of_getElem? hf) (mem_of_getElem? he) hsame
    rw [hef] at hf
    have hj := (List.getElem?_eq_some_iff.mp he).1
    have := h.coupled.retire.accounted.live_seq_lt_iff he hf
    have := h.coupled.retire.accounted.live_seq_lt_iff hf he
    omega
  · intro hj
    refine ⟨⟨j, by omega⟩, ?_, hid ⟨j, by omega⟩ e hj he⟩
    change i.retireAcceptI ⟨j, by omega⟩
    rw [hfire, decide_eq_true hj]

/-- What survives a recovery is what the cycle keeps and does not retire. -/
theorem survives (hsq : i.selectiveSquash) {j : Nat} {e : RetireEntry}
    (he : t.ledger.live[j]? = some e) :
    t.window.survives (t.windowInput i) e.slot = decide (gone t i ≤ j ∧ j < kept t i) := by
  obtain ⟨hval, hid, -⟩ := h.coupled.entry e (mem_of_getElem? he)
  obtain ⟨m, f, hf, hslot, hsquashId⟩ := h.retireCycle.squash_named hsq
  have hkeep : kept t i = m + 1 := h.retireCycle.keep_of_squash hsq hf hslot
  have hname : (t.windowInput i).squashIdI = idOf p.idWidth f.seq := hsquashId
  rw [WindowState.survives, hval, hid, hname, h.retires he, h.younger he hf, hkeep,
    Bool.true_and, Bool.eq_iff_iff]
  simp only [and_eq_true, not_eq_true', decide_eq_false_iff_not, decide_eq_true_eq]
  omega

theorem retiresSlot_place (hj : j < p.depth) :
    WindowState.retiresSlot (t.windowInput i) (slot p.depth t.queue.headQ j) =
      decide (j < gone t i) :=
  (h.retiresSlot _).trans (h.retireCycle.retiresSlot hj)

theorem allocationLane_none (hsq : i.selectiveSquash = false) {j : Nat} (hj : j < p.depth)
    (hout : j < t.ledger.live.length ∨ t.ledger.live.length + grown t i ≤ j) :
    t.window.allocationLane (t.windowInput i) (slot p.depth t.queue.headQ j) = none := by
  have hgrown : grown t i = laneCount (t.queue.allocFire (t.queueInput i)) := h.retireCycle.grow_eq
  rw [hgrown] at hout
  exact (h.allocationLane hsq _).trans (h.retireCycle.fillsSlot_none hj hout)

theorem window_step : t.window.step (t.windowInput i) =
      if i.selectiveSquash then
        { entry := t.window.recoverEntry (t.windowInput i)
          owner := t.window.survivorOwners (t.windowInput i)
          countQ := t.window.survivorCount (t.windowInput i) }
      else
        { entry := t.window.advanceEntry (t.windowInput i)
          owner := t.window.ownerViewEnd (t.windowInput i)
          countQ := t.window.countQ + ofNat _ (t.window.decodeCount (t.windowInput i)) -
            ofNat _ (t.windowInput i).retireCount } := by
  have hclr : (t.windowInput i).clears = false := h.noClear
  rw [WindowState.step, hclr, if_low]
  rfl

/-- An instruction that stays keeps its entry, with this cycle's wakeups and issue. -/
theorem entry_kept (he : t.ledger.live[j]? = some e) (hgone : gone t i ≤ j) (hkept : j < kept t i) :
    (t.window.step (t.windowInput i)).entry e.slot =
      t.window.keepEntry (t.windowInput i) e.slot := by
  have hlen := h.coupled.length
  have hj := (List.getElem?_eq_some_iff.mp he).1
  have hval := (h.coupled.entry e (mem_of_getElem? he)).1
  rw [h.window_step]
  cases hsq : i.selectiveSquash with
  | true =>
    have hsurvives := h.survives hsq he
    rw [decide_eq_true ⟨hgone, hkept⟩] at hsurvives
    have hyoung : isYounger (t.window.entry e.slot).id (t.windowInput i).squashIdI = false := by
      simp only [WindowState.survives, and_eq_true, not_eq_true'] at hsurvives
      exact hsurvives.2
    rw [if_pos rfl]
    simp only [recoverEntry, hsurvives, if_true, hyoung, Bool.not_false, Bool.and_true]
    rfl
  | false =>
    have hfill := h.allocationLane_none hsq (show j < p.depth by omega) (.inl hj)
    have hretires := h.retiresSlot_place (show j < p.depth by omega)
    rw [decide_eq_false (show ¬ j < gone t i by omega)] at hretires
    rw [← h.coupled.place he] at hfill hretires
    rw [if_low]
    simp only [advanceEntry, hfill, hretires, hval, if_true, if_low]
    rfl

theorem entry_admitted {lane : Fin 3} (hlane : t.window.decodeFire (t.windowInput i) lane) :
    (t.window.step (t.windowInput i)).entry (t.queue.allocSlot lane) =
      t.window.admitEntry (t.windowInput i) lane := by
  have hlt : lane.val < laneCount (t.queue.allocFire (t.queueInput i)) := by
    have hfire := allocFire_eq h.protocolOk lane
    rwa [h.coupled.allocFire, hlane, eq_comm, decide_eq_true_iff] at hfire
  have hsq : i.selectiveSquash = false := by
    have hnone := (decodeFire_some hlane).2.1
    change i.squashFrontendI = false at hnone
    rw [BackendInput.selectiveSquash, hnone, Bool.false_and]
  have hfill := h.retireCycle.fillsSlot_some lane hlt
  have hplc := (h.retireCycle.step_filled hlt).1
  change t.queue.fillsSlot (t.queueInput i)
    (slot p.depth t.queue.headQ (t.ledger.live.length + lane)) = some lane at hfill
  change t.queue.allocSlot lane = slot p.depth t.queue.headQ (t.ledger.live.length + lane) at hplc
  rw [← hplc] at hfill
  rw [h.window_step, hsq, if_low]
  simp only [advanceEntry, h.allocationLane hsq, hfill]

/-- The slots in use after the cycle are those of the queue. -/
theorem step_valid (hj : j < p.depth) :
    ((t.window.step (t.windowInput i)).entry (slot p.depth t.queue.headQ j)).valid =
      decide (gone t i ≤ j ∧ j < kept t i + grown t i) := by
  have hkept := kept_le t i
  have hgone := h.gone_le_kept
  have hgrown := h.grown_eq
  have hadd : 0 < grown t i → kept t i = t.ledger.live.length := keep_of_grow
  by_cases hlive : j < t.ledger.live.length
  · have he := List.getElem?_eq_getElem hlive
    have hplc := h.coupled.place he
    have hval := (h.coupled.entry _ (mem_of_getElem? he)).1
    by_cases hstays : gone t i ≤ j ∧ j < kept t i
    · rw [← hplc, h.entry_kept he hstays.1 hstays.2, decide_eq_true (by omega)]
      exact hval
    rw [decide_eq_false (by omega), h.window_step]
    cases hsq : i.selectiveSquash with
    | true =>
      have hsurvives := h.survives hsq he
      rw [decide_eq_false hstays] at hsurvives
      rw [if_pos rfl, ← hplc]
      simp only [recoverEntry, hsurvives, if_low]
    | false =>
      rw [kept_of_noSquash hsq] at hstays
      have hfill := h.allocationLane_none hsq hj (.inl hlive)
      have hretires := h.retiresSlot_place hj
      rw [decide_eq_true (show j < gone t i by omega)] at hretires
      rw [← hplc] at hfill hretires
      rw [if_low, ← hplc]
      simp only [advanceEntry, hfill, hretires, if_true]
  have hvacant : (t.window.entry (slot p.depth t.queue.headQ j)).valid = false := by
    apply h.coupled.vacant _ (RingSegment.slot_lt (by omega) j)
    intro e he hslot
    obtain ⟨k, hk⟩ := mem_iff_getElem?.mp he
    have hlen := h.coupled.length
    have hkl := (List.getElem?_eq_some_iff.mp hk).1
    rw [h.coupled.place hk] at hslot
    have := RingSegment.slot_inj h.coupled.head (by omega) hj hslot
    omega
  by_cases hfilled : j < t.ledger.live.length + grown t i
  · have h3 := laneCount_le (t.window.decodeFire (t.windowInput i))
    have hlane : t.window.decodeFire (t.windowInput i) ⟨j - t.ledger.live.length, by omega⟩ := by
      rw [lane_eq_decide (t.window.decodeFire_order _), decide_eq_true_iff]
      change j - t.ledger.live.length < _
      omega
    have hplc : t.queue.allocSlot ⟨j - t.ledger.live.length, by omega⟩ =
        slot p.depth t.queue.headQ j := by
      rw [h.coupled.retire.allocSlot _ (by change j - _ ≤ p.depth; omega)]
      change slot p.depth t.queue.headQ (t.ledger.live.length + (j - _)) = _
      rw [Nat.add_sub_cancel' (by omega)]
    rw [← hplc, h.entry_admitted hlane, decide_eq_true (by omega)]
    rfl
  rw [decide_eq_false (by omega), h.window_step]
  cases hsq : i.selectiveSquash with
  | true =>
    rw [if_pos rfl]
    simp only [recoverEntry, WindowState.survives, hvacant, Bool.false_and, if_low]
  | false =>
    have hfill := h.allocationLane_none hsq hj (.inr (by omega))
    rw [if_low]
    simp only [advanceEntry, hfill, hvacant, if_low]
    split <;> rfl

end

theorem countWidth_lt (p : WindowParams) : p.depth < 2 ^ p.countWidth := by
  have hle := le_two_pow_clog2 (p.depth + 1)
  rw [WindowParams.countWidth]
  omega

section

variable (h : Cycle t i)

include h

theorem survivorCount (hsq : i.selectiveSquash) :
    (t.window.survivorCount (t.windowInput i)).toNat = kept t i - gone t i := by
  have hcnt := countWidth_lt p
  have hsum := h.kept_add_grown_le
  have hall : (List.range p.depth).countP (t.window.survives (t.windowInput i)) =
      kept t i - gone t i := by
    rw [countP_slots h.coupled.head, ← countP_range_between h.gone_le_kept
      (show kept t i ≤ p.depth by omega)]
    apply List.countP_congr
    intro j hj
    rw [List.mem_range] at hj
    have hval := h.step_valid hj
    have hgrown : grown t i = 0 := grow_of_squash hsq
    rw [h.window_step, hsq, if_pos rfl, hgrown, Nat.add_zero] at hval
    rw [← hval]
    cases hsurvives : t.window.survives (t.windowInput i) (slot p.depth t.queue.headQ j) with
    | true =>
      have hent := hsurvives
      rw [WindowState.survives, and_eq_true, and_eq_true] at hent
      simp only [recoverEntry, hsurvives, if_true]
      exact ⟨fun _ => hent.1.1, fun _ => trivial⟩
    | false =>
      simp only [recoverEntry, hsurvives, if_low]
  rw [WindowState.survivorCount, hall, BitVec.toNat_ofNat]
  exact Nat.mod_eq_of_lt (by omega)

theorem decodeCount : t.window.decodeCount (t.windowInput i) = grown t i := h.grown_eq.symm

theorem windowRetireCount : (t.windowInput i).retireCount = gone t i := by
  have hfire : t.queue.retireFire (t.queueInput i) = i.retireAcceptI := funext h.retireFire
  change laneCount i.retireAcceptI = laneCount (t.queue.retireFire (t.queueInput i))
  rw [hfire]

theorem step_count :
    (t.window.step (t.windowInput i)).countQ.toNat = kept t i + grown t i - gone t i := by
  have hcnt := countWidth_lt p
  have hsum := h.kept_add_grown_le
  have hgone := h.gone_le_kept
  rw [h.window_step]
  cases hsq : i.selectiveSquash with
  | true =>
    have hgrown : grown t i = 0 := grow_of_squash hsq
    rw [if_pos rfl, hgrown, Nat.add_zero]
    exact h.survivorCount hsq
  | false =>
    have hkept := kept_of_noSquash (t := t) hsq
    have hretired : (ofNat p.countWidth (gone t i)).toNat = gone t i := Nat.mod_eq_of_lt (by omega)
    have hadmitted : (ofNat p.countWidth (grown t i)).toNat = grown t i :=
      Nat.mod_eq_of_lt (by omega)
    have hold := h.coupled.count
    rw [if_low]
    rw [h.decodeCount, h.windowRetireCount]
    have hadd : (t.window.countQ + ofNat p.countWidth (grown t i)).toNat =
        kept t i + grown t i := by
      rw [BitVec.toNat_add_of_lt (by rw [hold, hadmitted]; omega), hold, hadmitted, hkept]
    rw [BitVec.toNat_sub_of_le (by rw [BitVec.le_def]; omega), hadd, hretired]

theorem ledger_step :
    ((issueBackend p).step t i).ledger = t.ledger.advance (t.queue.event (t.retireInput i)) := by
  change (if i.clears then _ else _) = _
  rw [h.noClear]
  rfl

/-- An instruction in flight after the cycle stayed in flight or was admitted. -/
theorem live_cases {e : RetireEntry} (he : e ∈ ((issueBackend p).step t i).ledger.live) :
    (∃ j f, t.ledger.live[j]? = some f ∧ gone t i ≤ j ∧ j < kept t i ∧
        e = f.mark (t.retireInput i).completed) ∨
      (∃ lane : Fin 3, t.window.decodeFire (t.windowInput i) lane ∧
        e = ⟨t.ledger.next + lane, t.queue.allocSlot lane, false⟩) := by
  rw [h.ledger_step] at he
  obtain ⟨j, hj⟩ := mem_iff_getElem?.mp he
  rcases h.retireCycle.next_live_cases hj with ⟨f, hf, hkept, rfl⟩ | ⟨lane, hlane, -, rfl⟩
  · exact .inl ⟨_, f, hf, Nat.le_add_right _ _, hkept, rfl⟩
  · refine .inr ⟨lane, ?_, rfl⟩
    rw [← h.coupled.allocFire, allocFire_eq h.protocolOk]
    exact decide_eq_true hlane

/-- The numbers in flight after the cycle: the middle of the old ones, then new ones. -/
theorem step_seqs : ((issueBackend p).step t i).ledger.live.map seq =
      ((t.ledger.live.map seq).take (kept t i)).drop (gone t i) ++
        List.range' t.ledger.next (grown t i) := by
  have hseq : seq ∘ mark (t.retireInput i).completed = seq := rfl
  have hkept : t.ledger.kept (t.queue.event (t.retireInput i)) = t.ledger.live.take (kept t i) := by
    have happend := t.ledger.kept_append_squashed (t.queue.event (t.retireInput i))
    rw [← happend]
    exact (List.take_left' rfl).symm
  have hlive : ((issueBackend p).step t i).ledger.live =
      (((t.ledger.live.take (kept t i)).drop (gone t i)).map (mark (t.retireInput i).completed)) ++
          numberFrom t.ledger.next (t.queue.event (t.retireInput i)).allocated := by
    rw [h.ledger_step, ← hkept]
    rfl
  have hgrown : (t.queue.event (t.retireInput i)).allocated.length = grown t i := rfl
  rw [hlive, List.map_append, List.map_map, hseq, numberFrom_seq, hgrown, List.map_drop,
    List.map_take]

theorem step_next : ((issueBackend p).step t i).ledger.next = t.ledger.next + grown t i := by
  rw [h.ledger_step]
  rfl

theorem admitLane_old {e : RetireEntry} (he : e ∈ t.ledger.live) : t.admitLane i e.seq = none := by
  have hlt := h.coupled.retire.accounted.live_seq_lt he
  rw [admitLane, List.find?_eq_none]
  intro lane _
  rw [and_eq_true, beq_iff_eq, not_and]
  intro _ hseq
  change e.seq < t.ledger.next at hlt
  omega

end

theorem admitLane_new {lane : Fin 3} (hlane : t.window.decodeFire (t.windowInput i) lane) :
    t.admitLane i (t.ledger.next + lane) = some lane := by
  rw [admitLane]
  have hsome : ((finRange 3).find? fun other =>
      t.window.decodeFire (t.windowInput i) other &&
        t.ledger.next + lane.val == t.ledger.next + other.val).isSome := by
    rw [List.find?_isSome]
    exact ⟨lane, List.mem_finRange lane, by rw [hlane, beq_self_eq_true, Bool.and_true]⟩
  obtain ⟨other, hoth⟩ := Option.isSome_iff_exists.mp hsome
  have hmat := find?_some hoth
  rw [and_eq_true, beq_iff_eq] at hmat
  rw [hoth, Fin.ext (Nat.add_left_cancel hmat.2).symm]

/-- The cycle keeps window and queue together. -/
theorem step_coupled (h : Cycle t i) : Coupled ((issueBackend p).step t i) := by
  have hretire := h.retireCycle.step_inv
  have hinv : Inv ((issueBackend p).step t i).retire := hretire
  constructor
  · exact hinv
  · intro e he
    rcases h.live_cases he with ⟨j, f, hf, hgone, hkept, rfl⟩ | ⟨lane, hlane, rfl⟩
    · have hfl := mem_of_getElem? hf
      obtain ⟨hval, hid, hpayload⟩ := h.coupled.entry f hfl
      have hent := h.entry_kept hf hgone hkept
      rw [mark_seq, mark_slot, window_next, hent, program_step, h.admitLane_old hfl]
      exact ⟨hval, hid, hpayload⟩
    have hent := h.entry_admitted hlane
    rw [window_next, hent, program_step, admitLane_new hlane]
    refine ⟨rfl, ?_, rfl⟩
    change t.queue.allocId lane = _
    rw [allocId, h.coupled.retire.nextId, idOf_add]
    rfl
  · intro n hn hnone
    obtain ⟨j, hj, rfl⟩ := exists_slot h.coupled.head hn
    have hval := h.step_valid hj
    have hqueue := h.retireCycle.step_validQ hj
    change (t.queue.step (t.queueInput i)).validQ (slot p.depth t.queue.headQ j) =
      decide (gone t i ≤ j ∧ j < kept t i + grown t i) at hqueue
    rw [window_next, hval, ← hqueue]
    obtain ⟨k, hk, hslot⟩ := exists_slot hinv.head hn
    rw [← hslot]
    have hplc := hinv.valid k hk
    refine hplc.trans (decide_eq_false fun hlt => ?_)
    have hget := List.getElem?_eq_getElem hlt
    exact hnone _ (mem_of_getElem? hget) (((hinv.entry k _ hget).1).trans hslot)
  · have hlen := h.retireCycle.next_live_length
    rw [h.ledger_step]
    exact h.step_count.trans hlen.symm
  · intro e he hcomp
    rcases h.live_cases he with ⟨j, f, hf, hgone, hkept, rfl⟩ | ⟨lane, hlane, rfl⟩
    · have hfl := mem_of_getElem? hf
      rw [mark_slot, window_next, h.entry_kept hf hgone hkept]
      suffices hiss : (t.window.entry f.slot).issued by
        rw [keepEntry, hiss, Bool.true_or]
      rw [mark, Bool.or_eq_true, decide_eq_true_iff, RetireInput.mem_completed] at hcomp
      rcases hcomp with hcomp | ⟨port, hval, hseq, -⟩
      · exact h.coupled.issued f hfl hcomp
      · cases port with
        | some port => exact (h.promises.answers port).issued hval f hfl hseq.symm
        | none => cases hval
    · cases hcomp

end Cycle

/-! ## Every run -/

theorem Coupled.clear (h : Coupled t) (hclr : i.clears) : Coupled ((issueBackend p).step t i) := by
  have hinv : Inv ((issueBackend p).step t i).retire := h.retire.flush (i := t.retireInput i) hclr
  have hlive : ((issueBackend p).step t i).ledger.live = [] := by
    change (if i.clears then t.ledger.flush else _).live = []
    rw [hclr, if_pos rfl]
    rfl
  have hwindow : t.window.step (t.windowInput i) =
      { entry := fun n => { t.window.entry n with valid := false, issued := false }
        owner := fun r => { t.window.owner r with valid := false, ready := false }
        countQ := 0 } := by
    have hwin : (t.windowInput i).clears := hclr
    rw [WindowState.step, hwin, if_pos rfl]
  constructor
  · exact hinv
  · intro e he
    rw [hlive] at he
    cases he
  · intro n _ _
    change ((t.window.step (t.windowInput i)).entry n).valid = false
    rw [hwindow]
  · rw [hlive]
    change (t.window.step (t.windowInput i)).countQ.toNat = 0
    rw [hwindow]
    exact toNat_zero
  · intro e he
    rw [hlive] at he
    cases he

theorem coupled_of_init (hinit : (issueBackend p).Init t) : Coupled t := by
  obtain ⟨hwindow, ⟨q, hqueue⟩, hledger, -⟩ := hinit
  have hinv : Inv t.retire := by
    rw [retire, hqueue, hledger]
    exact Inv.reset q
  constructor
  · exact hinv
  · intro e he
    rw [hledger] at he
    cases he
  · intro n _ _
    rw [hwindow]
    rfl
  · rw [hwindow, hledger]
    exact toNat_zero
  · intro e he
    rw [hledger] at he
    cases he

/-- The surroundings that keep their promises within the bounds. -/
def boundedEnv (p : WindowParams) :
    Sync.Past (BackendTracked p) (BackendInput p) → BackendTracked p → BackendInput p → Prop :=
  Sync.cycleEnv fun t i => t.Promises i ∧ t.Bounded i

/-- Window and queue hold the same instructions in every state. -/
theorem coupled_of_run {past : Sync.Past (BackendTracked p) (BackendInput p)}
    (hrun : Sync.Run (issueBackend p) (boundedEnv p) past t) : Coupled t := by
  apply Sync.Run.stateInvariant (P := Coupled) ?_ ?_ hrun
  · exact fun t hinit => coupled_of_init hinit
  · intro past t i henv hold
    cases hclr : i.clears with
    | true => exact hold.clear hclr
    | false => exact Cycle.step_coupled ⟨hold, henv.1, henv.2, hclr⟩

end BackendTracked

end OpenRV64
