/-
What one clock edge can do to the parts of a queue entry: the operation that its
allocation wrote, and the outcome of its translation.
-/
import OpenRV64.Lsq

namespace OpenRV64

open Bool (and_eq_true not_eq_true')

/-- What an allocation fixes for the life of an entry. -/
structure LsqOp (p : LsqParams) where
  store : Bool
  atomic : Bool
  immediate : Bool
  inputAccessFault : Bool
  id : BitVec instrIdWidth
  retire : BitVec p.retireSlotWidth
  info : BitVec p.metaWidth
  vaddr : BitVec 64
  size : BitVec 3
  wdata : BitVec 64
  wstrb : BitVec 8

/-- What a translation response writes. -/
structure LsqXlate where
  done : Bool
  pmpChecked : Bool
  accessFault : Bool
  pageFault : Bool
  paddr : BitVec 64

namespace LsqSlot

variable {p : LsqParams}

def op (slot : LsqSlot p) : LsqOp p :=
  ⟨slot.store, slot.atomic, slot.immediate, slot.inputAccessFault, slot.id,
    slot.retire, slot.info, slot.vaddr, slot.size, slot.wdata, slot.wstrb⟩

def xlate (slot : LsqSlot p) : LsqXlate :=
  ⟨slot.xlateDone, slot.pmpChecked, slot.xlateAccessFault, slot.xlatePageFault, slot.paddr⟩

@[simp] theorem release_op (slot : LsqSlot p) : slot.release.op = slot.op := rfl
@[simp] theorem release_xlate (slot : LsqSlot p) : slot.release.xlate = slot.xlate := rfl
@[simp] theorem drop_op (slot : LsqSlot p) : slot.drop.op = slot.op := rfl
@[simp] theorem drop_xlate (slot : LsqSlot p) : slot.drop.xlate = slot.xlate := rfl

end LsqSlot

namespace LsqState

variable {p : LsqParams} (s : LsqState p) (i : LsqInput p) (k : Nat) (slot : LsqSlot p)

/-! ## Parts that the updates leave alone -/

@[simp] theorem updateXlateReq_op : (s.updateXlateReq i k slot).op = slot.op := by
  rw [updateXlateReq]
  split <;> rfl

@[simp] theorem updateReq_op : (s.updateReq i k slot).op = slot.op := by
  rw [updateReq]
  split <;> rfl

@[simp] theorem updateXlateResp_op : (s.updateXlateResp i k slot).op = slot.op := by
  rw [updateXlateResp]
  split
  · split <;> rfl
  · rfl

@[simp] theorem updateKilledResp_op : (s.updateKilledResp i k slot).op = slot.op := by
  rw [updateKilledResp]
  split <;> rfl

@[simp] theorem updateKilledDone_op : (s.updateKilledDone i k slot).op = slot.op := by
  rw [updateKilledDone]
  split <;> rfl

@[simp] theorem updateResult_op : (s.updateResult i k slot).op = slot.op := by
  rw [updateResult]
  split
  · split
    · split <;> rfl
    · rfl
  · rfl

@[simp] theorem updateDone_op : (s.updateDone i k slot).op = slot.op := by
  rw [updateDone]
  split
  · split <;> rfl
  · rfl

@[simp] theorem updateAtomicDone_op : (updateAtomicDone i k slot).op = slot.op := by
  rw [updateAtomicDone]
  split <;> rfl

@[simp] theorem updateSquash_op : (s.updateSquash i k slot).op = slot.op := by
  rw [updateSquash]
  split
  · split <;> rfl
  · rfl

@[simp] theorem updateFlush_op : (s.updateFlush i k slot).op = slot.op := by
  rw [updateFlush]
  split
  · rfl
  · split
    · rfl
    · split <;> rfl

@[simp] theorem updateXlateReq_xlate : (s.updateXlateReq i k slot).xlate = slot.xlate := by
  rw [updateXlateReq]
  split <;> rfl

@[simp] theorem updateReq_xlate : (s.updateReq i k slot).xlate = slot.xlate := by
  rw [updateReq]
  split <;> rfl

@[simp] theorem updateKilledResp_xlate : (s.updateKilledResp i k slot).xlate = slot.xlate := by
  rw [updateKilledResp]
  split <;> rfl

@[simp] theorem updateKilledDone_xlate : (s.updateKilledDone i k slot).xlate = slot.xlate := by
  rw [updateKilledDone]
  split <;> rfl

@[simp] theorem updateResult_xlate : (s.updateResult i k slot).xlate = slot.xlate := by
  rw [updateResult]
  split
  · split
    · split <;> rfl
    · rfl
  · rfl

@[simp] theorem updateDone_xlate : (s.updateDone i k slot).xlate = slot.xlate := by
  rw [updateDone]
  split
  · split <;> rfl
  · rfl

@[simp] theorem updateAtomicDone_xlate : (updateAtomicDone i k slot).xlate = slot.xlate := by
  rw [updateAtomicDone]
  split <;> rfl

@[simp] theorem updateSquash_xlate : (s.updateSquash i k slot).xlate = slot.xlate := by
  rw [updateSquash]
  split
  · split <;> rfl
  · rfl

@[simp] theorem updateFlush_xlate : (s.updateFlush i k slot).xlate = slot.xlate := by
  rw [updateFlush]
  split
  · rfl
  · split
    · rfl
    · split <;> rfl

theorem updateXlateResp_xlate : (s.updateXlateResp i k slot).xlate =
    if s.xlateRespFire i && i.xlateRespTagI == k && !(s.slots k).killed then
      ⟨true, true, i.xlateRespAccessFaultI, i.xlateRespPageFaultI, i.xlateRespPaddrI⟩
    else slot.xlate := by
  rw [updateXlateResp]
  cases s.xlateRespFire i && i.xlateRespTagI == k with
  | false => rfl
  | true =>
    cases (s.slots k).killed with
    | false => rfl
    | true => rfl

/-! ## Allocations -/

/-- The allocation that the edge writes into the slot, and whether it is a
store's. -/
def allocInto : Option (LsqAlloc p × Bool) :=
  if i.flushI then none
  else if s.storeAllocFire i && s.storeFreeIndex == k then some (i.storeAllocI, true)
  else if s.loadAllocFire i && s.loadFreeIndex == k then some (i.loadAllocI, false)
  else none

/-- The slot after the allocation phase. -/
def afterAlloc : LsqSlot p :=
  match s.allocInto i k with
  | some (a, store) => .allocated a store i.translationBypassI
  | none => s.slots k

variable {s i k}

theorem updateAllocs_eq (hfl : i.flushI = false) :
    s.updateStoreAlloc i k (s.updateLoadAlloc i k (s.slots k)) = s.afterAlloc i k := by
  rw [updateStoreAlloc, updateLoadAlloc, afterAlloc, allocInto, hfl, if_low]
  split
  · rfl
  · split <;> rfl

theorem step_op : ((s.step i).slots k).op = (s.afterAlloc i k).op := by
  cases hfl : i.flushI with
  | true => simp [step, hfl, afterAlloc, allocInto]
  | false => simp [step, hfl, updateAllocs_eq hfl]

/-- The translation response writes the slot. -/
def xlateWrites (s : LsqState p) (i : LsqInput p) (k : Nat) : Bool :=
  !i.flushI && s.xlateRespFire i && i.xlateRespTagI == k && !(s.slots k).killed

theorem step_xlate : ((s.step i).slots k).xlate =
    if s.xlateWrites i k then
      ⟨true, true, i.xlateRespAccessFaultI, i.xlateRespPageFaultI, i.xlateRespPaddrI⟩
    else (s.afterAlloc i k).xlate := by
  cases hfl : i.flushI with
  | true => simp [step, hfl, afterAlloc, allocInto, xlateWrites]
  | false =>
    simp only [step, hfl, if_low, updateSquash_xlate,
      updateAtomicDone_xlate, updateDone_xlate, updateResult_xlate,
      updateKilledDone_xlate, updateKilledResp_xlate, updateAllocs_eq hfl,
      xlateWrites, Bool.not_false, Bool.true_and, updateXlateResp_xlate,
      updateReq_xlate, updateXlateReq_xlate]

/-! ## Free slots -/

theorem freeIn_some {first count : Nat} (h : s.freeIn first count = some k) :
    first ≤ k ∧ k < first + count ∧ (s.slots k).valid = false := by
  have hmem := List.mem_of_find?_eq_some h
  have hfree := List.find?_some h
  rw [List.mem_range'_1] at hmem
  exact ⟨hmem.1, hmem.2, by simpa using hfree⟩

theorem loadAllocFire_free (h : s.loadAllocFire i) :
    s.loadFreeIndex < p.loadQueueDepth ∧ (s.slots s.loadFreeIndex).valid = false := by
  simp only [loadAllocFire, loadAllocReadyO, and_eq_true] at h
  obtain ⟨k, hk⟩ := Option.isSome_iff_exists.mp h.2.1
  have hfree := freeIn_some hk
  rw [loadFreeIndex, hk, Option.getD_some]
  exact ⟨by omega, hfree.2.2⟩

theorem storeAllocFire_free (h : s.storeAllocFire i) :
    p.loadQueueDepth ≤ s.storeFreeIndex ∧ s.storeFreeIndex < p.depth ∧
      (s.slots s.storeFreeIndex).valid = false := by
  simp only [storeAllocFire, storeAllocReadyO, and_eq_true] at h
  obtain ⟨k, hk⟩ := Option.isSome_iff_exists.mp h.2.1
  have hfree := freeIn_some hk
  rw [storeFreeIndex, hk, Option.getD_some]
  exact ⟨hfree.1, hfree.2.1, hfree.2.2⟩

/-- An allocation takes a free slot of the queue, in a cycle without recovery. -/
theorem allocInto_some {a : LsqAlloc p} {store : Bool} (h : s.allocInto i k = some (a, store)) :
    i.flushI = false ∧ i.squashYoungerI = false ∧ k < p.depth ∧ (s.slots k).valid = false ∧
      ((store ∧ a = i.storeAllocI ∧ s.storeAllocFire i ∧ s.storeFreeIndex = k) ∨
        (store = false ∧ a = i.loadAllocI ∧ s.loadAllocFire i ∧ s.loadFreeIndex = k)) := by
  rw [allocInto] at h
  split at h
  · cases h
  rename_i hfl
  rw [Bool.not_eq_true] at hfl
  split at h
  · rename_i hstr
    cases h
    rw [and_eq_true, beq_iff_eq] at hstr
    obtain ⟨hfire, rfl⟩ := hstr
    have hfree := storeAllocFire_free hfire
    have hsq : i.squashYoungerI = false := by
      simp only [storeAllocFire, storeAllocReadyO, and_eq_true, not_eq_true'] at hfire
      exact hfire.2.2
    exact ⟨hfl, hsq, hfree.2.1, hfree.2.2, .inl ⟨rfl, rfl, hfire, rfl⟩⟩
  split at h
  · rename_i hload
    cases h
    rw [and_eq_true, beq_iff_eq] at hload
    obtain ⟨hfire, rfl⟩ := hload
    have hfree := loadAllocFire_free hfire
    have hsq : i.squashYoungerI = false := by
      simp only [loadAllocFire, loadAllocReadyO, and_eq_true, not_eq_true'] at hfire
      exact hfire.2.2
    exact ⟨hfl, hsq, Nat.lt_of_lt_of_le hfree.1 (Nat.le_add_right _ _),
      hfree.2, .inr ⟨rfl, rfl, hfire, rfl⟩⟩
  · cases h

/-- A translation request from the allocation port is for the entry that is
being allocated. -/
theorem allocInto_of_fromAlloc (hfl : i.flushI = false) (h : s.xlateRequestFromAlloc i) :
    ∃ a store, s.allocInto i (s.xlateReqTagO i) = some (a, store) ∧
      s.xlateReqVaddrO i = a.vaddr ∧ a.immediate = false ∧ (store && a.atomic) = false := by
  rw [xlateRequestFromAlloc, and_eq_true, not_eq_true', Bool.or_eq_true] at h
  obtain ⟨hfnd, hsel⟩ := h
  simp only [xlateReqTagO, xlateReqVaddrO, hfnd, if_low, allocInto, hfl]
  cases hload : s.xlateAllocSelectLoad i with
  | true =>
    simp only [xlateAllocSelectLoad, loadAllocNeedsXlate, and_eq_true, not_eq_true'] at hload
    have hfree := loadAllocFire_free hload.1.1
    have hoth : (s.storeAllocFire i && s.storeFreeIndex == s.loadFreeIndex) = false := by
      cases hstr : s.storeAllocFire i with
      | false => rfl
      | true =>
        have hstoreFree := storeAllocFire_free hstr
        rw [Bool.true_and, beq_eq_false_iff_ne]
        omega
    refine ⟨i.loadAllocI, false, ?_, rfl, hload.1.2, rfl⟩
    simp [hoth, hload.1.1]
  | false =>
    rw [hload, or_iff_right Bool.false_ne_true] at hsel
    simp only [xlateAllocSelectStore, storeAllocNeedsXlate, and_eq_true, not_eq_true'] at hsel
    refine ⟨i.storeAllocI, true, ?_, rfl, hsel.1.1.2, by simpa using hsel.1.2⟩
    simp [hsel.1.1.1]

/-- A response for an entry that is being allocated answers its own request. -/
theorem matchesAllocation_of_allocInto {a : LsqAlloc p} {store : Bool}
    (halloc : s.allocInto i i.xlateRespTagI = some (a, store))
    (hfire : s.xlateRespFire i) : s.xlateRespMatchesAllocation i := by
  obtain ⟨-, -, -, hfree, -⟩ := allocInto_some halloc
  simp only [xlateRespFire, xlateRespIsExpected, slotValidAt, hfree, Bool.and_false,
    Bool.false_and, Bool.false_or, and_eq_true] at hfire
  exact hfire.2

theorem matchesAllocation_spec (hfl : i.flushI = false) (h : s.xlateRespMatchesAllocation i) :
    ∃ a store, s.allocInto i i.xlateRespTagI = some (a, store) ∧ s.xlateReqVaddrO i = a.vaddr := by
  rw [xlateRespMatchesAllocation, xlateRespMatchesRequest, and_eq_true,
    and_eq_true, beq_iff_eq] at h
  obtain ⟨a, store, halloc, hvaddr, -⟩ := allocInto_of_fromAlloc hfl h.2
  rw [h.1.2] at halloc
  exact ⟨a, store, halloc, hvaddr⟩

/-! ## Entries come from allocations -/

section Valid

variable (s i k)

theorem valid_of_updateXlateReq (h : (s.updateXlateReq i k slot).valid) : slot.valid := by
  rw [updateXlateReq] at h
  split at h <;> exact h

theorem valid_of_updateReq (h : (s.updateReq i k slot).valid) : slot.valid := by
  rw [updateReq] at h
  split at h <;> exact h

theorem valid_of_updateXlateResp (h : (s.updateXlateResp i k slot).valid) : slot.valid := by
  rw [updateXlateResp] at h
  split at h
  · split at h
    · cases h
    · exact h
  · exact h

theorem valid_of_updateKilledResp (h : (s.updateKilledResp i k slot).valid) : slot.valid := by
  rw [updateKilledResp] at h
  split at h
  · cases h
  · exact h

theorem valid_of_updateKilledDone (h : (s.updateKilledDone i k slot).valid) : slot.valid := by
  rw [updateKilledDone] at h
  split at h
  · cases h
  · exact h

theorem valid_of_updateResult (h : (s.updateResult i k slot).valid) : slot.valid := by
  rw [updateResult] at h
  split at h
  · split at h
    · split at h
      · cases h
      · exact h
    · cases h
  · exact h

theorem valid_of_updateDone (h : (s.updateDone i k slot).valid) : slot.valid := by
  rw [updateDone] at h
  split at h
  · split at h
    · cases h
    · exact h
  · exact h

theorem valid_of_updateAtomicDone (h : (updateAtomicDone i k slot).valid) : slot.valid := by
  rw [updateAtomicDone] at h
  split at h
  · cases h
  · exact h

theorem valid_of_updateSquash (h : (s.updateSquash i k slot).valid) : slot.valid := by
  rw [updateSquash] at h
  split at h
  · split at h
    · exact h
    · cases h
  · exact h

theorem valid_of_updateFlush (h : (s.updateFlush i k slot).valid) :
    (s.slots k).valid ∨ (i.atomicIrrevocableI ∧ i.atomicTagI = k) := by
  rw [updateFlush] at h
  split at h
  · rename_i hkeep
    simp only [and_eq_true] at hkeep
    exact .inl hkeep.1.1
  split at h
  · rename_i hamo
    rw [and_eq_true, beq_iff_eq] at hamo
    exact .inr hamo
  split at h
  · rename_i hsent
    simp only [and_eq_true] at hsent
    exact .inl hsent.1.1
  · cases h

end Valid

/-- A valid entry was valid before the edge or is being allocated. -/
theorem valid_of_step (hamo : i.atomicIrrevocableI → (s.slots i.atomicTagI).valid)
    (h : ((s.step i).slots k).valid) :
    (s.slots k).valid ∨ ∃ a store, s.allocInto i k = some (a, store) := by
  cases hfl : i.flushI with
  | true =>
    simp only [step, hfl, if_true] at h
    have hkept := valid_of_updateFlush _ _ _ _ (valid_of_updateResult _ _ _ _
      (valid_of_updateDone _ _ _ _ (valid_of_updateAtomicDone _ _ _ h)))
    rcases hkept with hval | ⟨hirrev, rfl⟩
    · exact .inl hval
    · exact .inl (hamo hirrev)
  | false =>
    simp only [step, hfl, if_low] at h
    have hbef := valid_of_updateXlateReq _ _ _ _ (valid_of_updateReq _ _ _ _
      (valid_of_updateXlateResp _ _ _ _ (valid_of_updateKilledResp _ _ _ _
        (valid_of_updateKilledDone _ _ _ _ (valid_of_updateResult _ _ _ _
          (valid_of_updateDone _ _ _ _ (valid_of_updateAtomicDone _ _ _
            (valid_of_updateSquash _ _ _ _ h))))))))
    rw [updateAllocs_eq hfl, afterAlloc] at hbef
    split at hbef
    · rename_i a store halloc
      exact .inr ⟨a, store, halloc⟩
    · exact .inl hbef

theorem afterAlloc_none (h : s.allocInto i k = none) : s.afterAlloc i k = s.slots k := by
  rw [afterAlloc, h]

theorem afterAlloc_some {a : LsqAlloc p} {store : Bool} (h : s.allocInto i k = some (a, store)) :
    s.afterAlloc i k = .allocated a store i.translationBypassI := by
  rw [afterAlloc, h]

end LsqState

end OpenRV64
