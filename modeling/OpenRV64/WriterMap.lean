/-
The writers in flight: the counts of the register map and the table of youngest producers
against the queue of instructions between allocation and retirement.
-/
import OpenRV64.PendingQueue
import OpenRV64.RegMap3p
import OpenRV64.RetireExact

namespace OpenRV64

open PendingQueue Sync
open Option (map_some some mem_def getD_some)

/-- An instruction between its allocation and its retirement. -/
structure InFlight where
  regWrite : Bool
  rd : BitVec 5
  slot : ℕ
  id : BitVec instrIdWidth

def InFlight.writes (r : BitVec 5) (e : InFlight) : Bool := e.regWrite && e.rd == r

/-- The map and the table with the instructions in flight, in program order. -/
structure WriterTracked where
  map : RegMap3pState
  owner : BitVec 5 → YoungestOwner
  live : List InFlight

/-- The instruction that a lane allocates. -/
def WriterInput.allocatedBy (i : WriterInput) (lane : Fin 3) : InFlight :=
  ⟨(i.map.candidateI lane).regWrite, (i.map.candidateI lane).rd, i.allocationSlotI lane,
    i.allocationIdI lane⟩

/-- The instructions that a cycle allocates, in the order of their lanes. -/
def WriterInput.allocated (i : WriterInput) : List InFlight :=
  ((List.finRange 3).filter i.map.allocationFireI).map i.allocatedBy

/-- The map and the table from reset.  A flush empties both and the queue. -/
def writerMap (p : RegMap3pParams) : Circuit WriterTracked WriterInput where
  Init t := t.map = .reset ∧ (∀ r, (t.owner r).valid = false) ∧ t.live = []
  step t i :=
    { map := t.map.step p i.map
      owner := fun r => i.ownerNext (t.owner r) r
      live :=
        if i.map.clearI then []
        else served t.live (laneCount i.map.retireValidI) i.allocated }

namespace WriterTracked

variable (t : WriterTracked) (i : WriterInput)

/-- The number of allocated writers of `r` that have not retired. -/
def writers (r : BitVec 5) : ℕ := t.live.countP (InFlight.writes r)

/-- The youngest of them. -/
def youngest (r : BitVec 5) : Option InFlight := latest (InFlight.writes r) t.live

/-- Allocations and retirements are matched in program order: the oldest instructions
retire with what they were allocated with.  The retirement queue of `depth` entries has
room for a bundle, and its slots tell the instructions in flight apart. -/
structure Matched (depth : ℕ) : Prop where
  retirePrefix : (i.map.retireValidI 1 = true → i.map.retireValidI 0 = true) ∧
    (i.map.retireValidI 2 = true → i.map.retireValidI 1 = true)
  retires : ∀ lane, i.map.retireValidI lane = true → ∃ e ∈ t.live[lane.val]?,
    i.map.retireRegWriteI lane = (e.regWrite && e.rd != 0) ∧
      i.map.retireRdI lane = e.rd ∧ i.windowRetireSlotI lane = e.slot
  room : ∀ lane, i.map.allocationFireI lane = true → t.live.length + 3 ≤ depth
  slots : i.map.clearI = false → ((t.live ++ i.allocated).map InFlight.slot).Nodup

/-- The map and the table are right about the registers other than `x0`. -/
structure MapExact (depth : ℕ) : Prop where
  count : ∀ r ≠ 0, (t.map.writerCountQ r).toNat = t.writers r
  busy : ∀ r ≠ 0, t.map.writeBusyO r = true ↔ 0 < t.writers r
  owner : ∀ r ≠ 0, (t.owner r).valid = (t.youngest r).isSome ∧
    ∀ e, t.youngest r = some e → (t.owner r).slot = e.slot ∧ (t.owner r).id = e.id
  covered : ∀ i, Matched t i depth → ∀ r ≠ 0,
    i.map.writerRetireCount r ≤ (t.map.writerCountQ r).toNat

end WriterTracked

/-! ## One cycle of the queue -/

namespace WriterTracked

variable {p : RegMap3pParams} {depth : ℕ} {t : WriterTracked} {i : WriterInput} {r : BitVec 5}

theorem Matched.retire_lane (h : Matched t i depth) (lane : Fin 3) :
    i.map.retireValidI lane = decide (lane.val < laneCount i.map.retireValidI) :=
  lane_eq_decide h.retirePrefix lane

/-- A retirement lane releases what the instruction in its place writes. -/
theorem Matched.retires_eq (h : Matched t i depth) (hr : r ≠ 0) (lane : Fin 3) :
    i.map.retires r lane = ((t.live.take (laneCount i.map.retireValidI))[lane.val]?.map
      (InFlight.writes r)).getD false := by
  rw [RegMap3pInput.retires, List.getElem?_take]
  cases hval : i.map.retireValidI lane with
  | false =>
    rw [h.retire_lane, decide_eq_false_iff_not] at hval
    rw [if_neg hval]
    rfl
  | true =>
    obtain ⟨e, he, hwr, hrd, -⟩ := h.retires lane hval
    rw [mem_def] at he
    rw [h.retire_lane, decide_eq_true_iff] at hval
    rw [if_pos hval, he, hwr, hrd, map_some, getD_some, Bool.true_and, InFlight.writes]
    by_cases heq : e.rd = r
    · have hne : (r != 0) := bne_iff_ne.mpr hr
      rw [heq, hne, Bool.and_true]
    · rw [beq_false_of_ne heq, Bool.and_false, Bool.and_false]

theorem countP_three {l : List InFlight} (P : InFlight → Bool) (hl : l.length ≤ 3) :
    l.countP P = laneCount fun lane => (l[lane.val]?.map P).getD false := by
  rcases l with _ | ⟨a, _ | ⟨b, _ | ⟨c, _ | ⟨d, rest⟩⟩⟩⟩
  · rfl
  · cases ha : P a <;> simp [laneCount, ha]
  · cases ha : P a <;> cases hb : P b <;> simp [laneCount, ha, hb]
  · cases ha : P a <;> cases hb : P b <;> cases hc : P c <;> simp [laneCount, ha, hb, hc]
  · simp only [List.length_cons] at hl
    omega

theorem Matched.writerRetireCount (h : Matched t i depth) (hr : r ≠ 0) : i.map.writerRetireCount r =
      (t.live.take (laneCount i.map.retireValidI)).countP (InFlight.writes r) := by
  have hlen : (t.live.take (laneCount i.map.retireValidI)).length ≤ 3 :=
    (List.length_take_le _ _).trans (laneCount_le _)
  rw [countP_three _ hlen, RegMap3pInput.writerRetireCount, if_neg hr]
  congr 1
  funext lane
  exact h.retires_eq hr lane

theorem countP_lanes (P : Fin 3 → Bool) : (List.finRange 3).countP P = laneCount P := by
  have hlist : List.finRange 3 = [0, 1, 2] := rfl
  rw [hlist, laneCount]
  cases h0 : P 0 <;> cases h1 : P 1 <;> cases h2 : P 2 <;> simp [h0, h1, h2]

theorem writerAllocCount (hr : r ≠ 0) :
    i.map.writerAllocCount r = i.allocated.countP (InFlight.writes r) := by
  rw [RegMap3pInput.writerAllocCount, if_neg hr, WriterInput.allocated, List.countP_map,
    List.countP_filter, countP_lanes]
  congr 1
  funext lane
  rw [RegMap3pInput.allocates, Bool.and_assoc, Bool.and_comm]
  rfl

/-- The writers of a register before and after a cycle. -/
theorem Matched.writers_step (h : Matched t i depth) (hclr : i.map.clearI = false)
    (hr : r ≠ 0) : ((writerMap p).step t i).writers r + i.map.writerRetireCount r =
      t.writers r + i.map.writerAllocCount r := by
  rw [h.writerRetireCount hr, writerAllocCount hr, writers, writerMap, writers]
  simp only [hclr, if_low]
  exact countP_served _ _ _ _

theorem Matched.retireCount_le (h : Matched t i depth) (hr : r ≠ 0) :
    i.map.writerRetireCount r ≤ t.writers r := by
  rw [h.writerRetireCount hr]
  exact (List.take_sublist _ _).countP_le

theorem writerRetireCount_le (r : BitVec 5) : i.map.writerRetireCount r ≤ 3 := by
  rw [RegMap3pInput.writerRetireCount]
  split
  · exact Nat.zero_le 3
  · exact laneCount_le _

theorem writerAllocCount_le (r : BitVec 5) : i.map.writerAllocCount r ≤ 3 := by
  rw [RegMap3pInput.writerAllocCount]
  split
  · exact Nat.zero_le 3
  · exact laneCount_le _

/-! ## Every run -/

/-- The counters are right modulo their width, and the table names the youngest writer by
its slot. -/
structure Inv (t : WriterTracked) : Prop where
  count : ∀ r ≠ 0, (t.map.writerCountQ r).toNat = t.writers r % 2 ^ writerCountWidth
  busy : ∀ r ≠ 0, t.writers r < 2 ^ writerCountWidth → (t.map.writeBusyQ r = true ↔ 0 < t.writers r)
  owner : ∀ r ≠ 0, (t.owner r).valid = (t.youngest r).isSome ∧
    ∀ e, t.youngest r = some e → (t.owner r).slot = e.slot ∧ (t.owner r).id = e.id
  slots : (t.live.map InFlight.slot).Nodup

theorem writerCountWidth_pow : 2 ^ writerCountWidth = 32 := rfl

theorem Inv.writersNext (hinv : Inv t) (hr : r ≠ 0) : (t.map.writersNext i.map r).toNat =
      (t.writers r % 2 ^ writerCountWidth + i.map.writerAllocCount r + 2 ^ 32 -
        i.map.writerRetireCount r) % 2 ^ 32 := by
  have hretire := writerRetireCount_le (i := i) r
  have halloc := writerAllocCount_le (i := i) r
  rw [RegMap3pState.writersNext, BitVec.toNat_sub, BitVec.toNat_add, BitVec.toNat_setWidth,
    BitVec.toNat_ofNat, BitVec.toNat_ofNat, hinv.count r hr]
  omega

section

variable (hinv : Inv t) (h : Matched t i depth) (hrelax : p.relaxWaw)
  (hclr : i.map.clearI = false) (hr : r ≠ 0)

include hinv h hrelax hclr hr

theorem Inv.step_count : (((writerMap p).step t i).map.writerCountQ r).toNat =
      ((writerMap p).step t i).writers r % 2 ^ writerCountWidth := by
  have hwriters := h.writers_step (p := p) hclr hr
  have hle := h.retireCount_le hr
  have hretire := writerRetireCount_le (i := i) r
  have hnxt := hinv.writersNext (i := i) hr
  have hmap : ((writerMap p).step t i).map.writerCountQ r =
      (t.map.writersNext i.map r).setWidth writerCountWidth := by
    simp only [writerMap, RegMap3pState.step, hclr, hrelax, if_low, if_true, if_neg hr]
  rw [hmap, BitVec.toNat_setWidth, hnxt, writerCountWidth_pow]
  omega

theorem Inv.step_busy (hlt : ((writerMap p).step t i).writers r < 2 ^ writerCountWidth) :
    ((writerMap p).step t i).map.writeBusyQ r ↔ 0 < ((writerMap p).step t i).writers r := by
  have hwriters := h.writers_step (p := p) hclr hr
  have hle := h.retireCount_le hr
  have hretire := writerRetireCount_le (i := i) r
  have halloc := writerAllocCount_le (i := i) r
  have hnxt := hinv.writersNext (i := i) hr
  have hmap : ((writerMap p).step t i).map.writeBusyQ r = (t.map.writersNext i.map r != 0) := by
    have hne : (r != 0) := bne_iff_ne.mpr hr
    simp only [writerMap, RegMap3pState.step, hclr, hrelax, if_low, if_true, hne, Bool.true_and]
  have hz : (0 : BitVec 32).toNat = 0 := rfl
  rw [writerCountWidth_pow] at hlt hnxt
  rw [hmap, bne_iff_ne, ne_eq, ← BitVec.toNat_inj, hnxt, hz]
  omega

end

/-! ## The youngest writer -/

theorem getLast?_winning (f : Fin 3 → Bool) :
    ((List.finRange 3).filter f).getLast? = winningLane f := by
  have hlist : List.finRange 3 = [0, 1, 2] := rfl
  rw [hlist, winningLane]
  cases h0 : f 0 <;> cases h1 : f 1 <;> cases h2 : f 2 <;> simp [h0, h1, h2]

/-- The youngest of the instructions that a cycle allocates. -/
theorem latest_allocated (hr : r ≠ 0) : latest (InFlight.writes r) i.allocated =
    (i.allocatesOwner r).map i.allocatedBy := by
  have hne : (r != 0) := bne_iff_ne.mpr hr
  rw [latest, WriterInput.allocated, List.filter_map, List.getLast?_map, List.filter_filter,
    getLast?_winning, WriterInput.allocatesOwner]
  congr 2
  funext lane
  rw [hne, Bool.true_and, RegMap3pInput.allocates, Bool.and_assoc, Bool.and_comm]
  rfl

/-- The table lets its owner go when the youngest writer retires. -/
theorem Inv.releasesOwner (hinv : Inv t) (h : Matched t i depth) (hr : r ≠ 0)
    {e : InFlight} (he : t.youngest r = some e) :
    i.releasesOwner (t.owner r) r = decide (e.slot ∈
      (t.live.take (laneCount i.map.retireValidI)).map InFlight.slot) := by
  obtain ⟨hval, hslot⟩ := hinv.owner r hr
  have hslot : (t.owner r).slot = e.slot := (hslot e he).1
  rw [he, Option.isSome_some] at hval
  have hne : (r != 0) := bne_iff_ne.mpr hr
  have hmem := mem_of_latest he
  rw [WriterInput.releasesOwner, hval, hne, Bool.true_and, Bool.true_and, hslot,
    Bool.eq_iff_iff, List.any_eq_true, decide_eq_true_iff]
  constructor
  · rintro ⟨lane, -, hlane⟩
    rw [Bool.and_eq_true, beq_iff_eq] at hlane
    obtain ⟨hretires, hsame⟩ := hlane
    have hretire : i.map.retireValidI lane := by
      simp only [RegMap3pInput.retires, Bool.and_eq_true] at hretires
      exact hretires.1.1
    obtain ⟨x, hx, -, -, hxslot⟩ := h.retires lane hretire
    rw [h.retire_lane, decide_eq_true_iff] at hretire
    have htake : (t.live.take (laneCount i.map.retireValidI))[lane.val]? = some x := by
      rw [List.getElem?_take, if_pos hretire]
      exact hx
    rw [hsame, hxslot]
    exact List.mem_map_of_mem (List.mem_of_getElem? htake)
  · intro hout
    obtain ⟨x, hx, hxslot⟩ := List.mem_map.mp hout
    have hsame : x = e :=
      List.inj_on_of_nodup_map hinv.slots (List.mem_of_mem_take hx) hmem.1 hxslot
    subst hsame
    obtain ⟨j, hj⟩ := List.getElem?_of_mem hx
    have hlt : j < laneCount i.map.retireValidI := by
      have hlen := (List.getElem?_eq_some_iff.mp hj).1
      rw [List.length_take] at hlen
      omega
    have hthree : j < 3 := hlt.trans_le (laneCount_le _)
    have hretire : i.map.retireValidI ⟨j, hthree⟩ := by
      rw [h.retire_lane, decide_eq_true_iff]
      exact hlt
    obtain ⟨y, hy, -, -, hyslot⟩ := h.retires ⟨j, hthree⟩ hretire
    have hxy : y = x := by
      rw [List.getElem?_take, if_pos hlt] at hj
      rw [mem_def] at hy
      exact some.inj (hy.symm.trans hj)
    refine ⟨⟨j, hthree⟩, List.mem_finRange _, ?_⟩
    rw [h.retires_eq hr, hj, map_some, getD_some, hmem.2, Bool.true_and, beq_iff_eq, hyslot, hxy]

theorem Inv.step_owner (hinv : Inv t) (h : Matched t i depth) (hclr : i.map.clearI = false)
    (hr : r ≠ 0) :
    (((writerMap p).step t i).owner r).valid = (((writerMap p).step t i).youngest r).isSome ∧
      ∀ e, ((writerMap p).step t i).youngest r = some e →
        (((writerMap p).step t i).owner r).slot = e.slot ∧
          (((writerMap p).step t i).owner r).id = e.id := by
  have hne : (r != 0) := bne_iff_ne.mpr hr
  have hyoungest : ((writerMap p).step t i).youngest r = ((i.allocatesOwner r).map i.allocatedBy).or
        (latest (InFlight.writes r) (t.live.drop (laneCount i.map.retireValidI))) := by
    rw [← latest_allocated hr, ← latest_append]
    simp only [youngest, writerMap, served, hclr, if_low]
  have hown : ((writerMap p).step t i).owner r = i.ownerNext (t.owner r) r := rfl
  rw [hyoungest, hown, WriterInput.ownerNext]
  simp only [hclr, if_low, hne, Bool.true_and]
  cases hnew : i.allocatesOwner r with
  | some lane =>
    refine ⟨rfl, ?_⟩
    intro e he
    rw [map_some, Option.some_or, some.injEq] at he
    rw [← he]
    exact ⟨rfl, rfl⟩
  | none =>
    rw [Option.map_none, Option.none_or, Option.isSome_none, Bool.false_or]
    obtain ⟨hval, hslot⟩ := hinv.owner r hr
    cases hold : t.youngest r with
    | none =>
      rw [latest_drop_none hold, hval, hold]
      exact ⟨rfl, fun e he => by cases he⟩
    | some x =>
      rw [hinv.releasesOwner h hr hold, latest_drop hinv.slots hold, hval, hold]
      by_cases hout : x.slot ∈ (t.live.take (laneCount i.map.retireValidI)).map InFlight.slot
      · rw [if_pos hout, decide_eq_true hout]
        exact ⟨rfl, fun e he => by cases he⟩
      rw [if_neg hout, decide_eq_false hout]
      refine ⟨rfl, ?_⟩
      intro e he
      rw [some.injEq] at he
      exact he ▸ hslot x hold

theorem Matched.step_slots (h : Matched t i depth) :
    (((writerMap p).step t i).live.map InFlight.slot).Nodup := by
  have hlive : ((writerMap p).step t i).live = if i.map.clearI then [] else
      served t.live (laneCount i.map.retireValidI) i.allocated := rfl
  rw [hlive]
  cases hclr : i.map.clearI with
  | true => exact List.nodup_nil
  | false =>
    have hslots := h.slots hclr
    rw [if_low, served]
    exact List.Nodup.sublist (((List.drop_sublist _ _).append_right _).map _) hslots

theorem Inv.step (hinv : Inv t) (h : Matched t i depth) (hrelax : p.relaxWaw) :
    Inv ((writerMap p).step t i) := by
  cases hclr : i.map.clearI with
  | true =>
    have hmap : ((writerMap p).step t i).map = .reset := by
      simp only [writerMap, RegMap3pState.step, hclr, if_true]
      rfl
    have hlive : ((writerMap p).step t i).live = [] := by
      simp only [writerMap, hclr, if_true]
    have hwriters : ∀ r, ((writerMap p).step t i).writers r = 0 := by
      intro r
      rw [writers, hlive]
      rfl
    refine ⟨fun r _ => ?_, fun r _ _ => ?_, fun r _ => ?_, h.step_slots⟩
    · rw [hmap, hwriters]
      rfl
    · rw [hmap, hwriters]
      simp [RegMap3pState.reset]
    · rw [youngest, hlive]
      refine ⟨?_, fun e he => by cases he⟩
      simp only [writerMap, WriterInput.ownerNext, hclr, if_true]
      rfl
  | false =>
    exact ⟨fun r hr => hinv.step_count h hrelax hclr hr,
      fun r hr hlt => hinv.step_busy h hrelax hclr hr hlt,
      fun r hr => hinv.step_owner h hclr hr, h.step_slots⟩

theorem inv_of_run {past : Past WriterTracked WriterInput} (hrelax : p.relaxWaw)
    (hrun : Run (writerMap p) (cycleEnv fun t i => Matched t i depth) past t) : Inv t := by
  apply hrun.stateInvariant
  · rintro t ⟨hmap, hown, hlive⟩
    refine ⟨fun r _ => ?_, fun r _ _ => ?_, fun r _ => ?_, ?_⟩
    · rw [hmap, writers, hlive]
      rfl
    · rw [hmap, writers, hlive]
      simp [RegMap3pState.reset]
    · rw [youngest, hlive, hown]
      exact ⟨rfl, fun e he => by cases he⟩
    · rw [hlive]
      exact List.nodup_nil
  · intro past t i h hinv
    exact hinv.step h hrelax

/-- The map and the table are right in a state of a run if and only if no register has as
many writers in flight as its counter has values. -/
theorem mapExact_iff {past : Past WriterTracked WriterInput} (hrelax : p.relaxWaw = true)
    (hrun : Run (writerMap p) (cycleEnv fun t i => Matched t i depth) past t) :
    MapExact t depth ↔ ∀ r ≠ 0, t.writers r < 2 ^ writerCountWidth := by
  have hinv := inv_of_run hrelax hrun
  constructor
  · intro h r hr
    rw [← h.count r hr]
    exact (t.map.writerCountQ r).isLt
  · intro hlt
    have hcount : ∀ r ≠ 0, (t.map.writerCountQ r).toNat = t.writers r := by
      intro r hr
      rw [hinv.count r hr, Nat.mod_eq_of_lt (hlt r hr)]
    refine ⟨hcount, fun r hr => hinv.busy r hr (hlt r hr), hinv.owner, ?_⟩
    intro i h r hr
    rw [hcount r hr]
    exact h.retireCount_le hr

/-! ## Which depths are safe -/

end WriterTracked

/-! ## Thirty-two writers of one register -/

section Example

namespace WriterTracked

instance decidableMatched (t : WriterTracked) (i : WriterInput) (depth : ℕ) :
    Decidable (Matched t i depth) :=
  decidable_of_iff
    (((i.map.retireValidI 1 = true → i.map.retireValidI 0 = true) ∧
        (i.map.retireValidI 2 = true → i.map.retireValidI 1 = true)) ∧
      (∀ lane, i.map.retireValidI lane = true → ∃ e ∈ t.live[lane.val]?,
        i.map.retireRegWriteI lane = (e.regWrite && e.rd != 0) ∧
          i.map.retireRdI lane = e.rd ∧ i.windowRetireSlotI lane = e.slot) ∧
      (∀ lane, i.map.allocationFireI lane = true → t.live.length + 3 ≤ depth) ∧
      (i.map.clearI = false → ((t.live ++ i.allocated).map InFlight.slot).Nodup))
    ⟨fun h => ⟨h.1, h.2.1, h.2.2.1, h.2.2.2⟩, fun h => ⟨h.retirePrefix, h.retires, h.room, h.slots⟩⟩

def relaxedMap : RegMap3pParams := ⟨2, true, false⟩

/-- A bundle of `n` writers of `x1` in the slots from `first` on. -/
def writersOfX1 (n first : ℕ) : WriterInput where
  map :=
    { clearI := false
      candidateI := fun _ => ⟨true, false, false, false, 0, 0, true, 1, .ex0⟩
      forwardEx0I := none
      forwardEx1I := none
      completionForwardValidI := fun _ => false
      completionForwardRdI := fun _ => 0
      branchCompletionForwardValidI := fun _ => false
      forwardMapValidI := fun _ => false
      allocationFireI := fun lane => decide (lane.val < n)
      retireValidI := fun _ => false
      retireRegWriteI := fun _ => false
      retireRdI := fun _ => 0 }
  allocationIdI lane := BitVec.ofNat _ (first + lane)
  allocationSlotI lane := first + lane
  windowRetireSlotI _ := 0
  completeValidI _ := false
  completeIdI _ := 0
  completePayloadI _ := ⟨false, false, false, 0, 0⟩

def thirtyTwoWriters : List WriterInput :=
  writersOfX1 2 0 :: (List.range 10).map fun k => writersOfX1 3 (2 + 3 * k)

def emptyMap : WriterTracked := ⟨.reset, fun _ => ⟨false, false, 0, 0, 0⟩, []⟩

theorem emptyMap_init (p : RegMap3pParams) : (writerMap p).Init emptyMap := ⟨rfl, fun _ => rfl, rfl⟩

theorem thirtyTwoWriters_run : Run (writerMap relaxedMap) (cycleEnv fun t i => Matched t i 32)
    (exec (writerMap relaxedMap) [] emptyMap thirtyTwoWriters).1
    (exec (writerMap relaxedMap) [] emptyMap thirtyTwoWriters).2 :=
  exec_run_decide thirtyTwoWriters (emptyMap_init _) (by decide +kernel)

/-- A retirement queue of 32 entries can hold 32 writers of `x1`, and the counter then
reads none. -/
theorem mapExact_fails :
    ¬ ∀ (past : Past WriterTracked WriterInput) (t : WriterTracked),
      Run (writerMap relaxedMap) (cycleEnv fun t i => Matched t i 32) past t → MapExact t 32 := by
  intro h
  have hexact := h _ _ thirtyTwoWriters_run
  have hcount := hexact.count 1 (by decide)
  revert hcount
  decide +kernel

theorem mapExact_iff_two :
    MapExact ((writerMap relaxedMap).step emptyMap (writersOfX1 2 0)) 32 ↔
      ∀ r ≠ 0, ((writerMap relaxedMap).step emptyMap (writersOfX1 2 0)).writers r < 32 :=
  mapExact_iff rfl
    (exec_run_decide [writersOfX1 2 0] (emptyMap_init relaxedMap) (by decide +kernel))

end WriterTracked

end Example

end OpenRV64
