/-
The age window of the load/store queue: when the modular comparison of
identifiers is the program order of the entries that are in the queue together.
-/
import OpenRV64.LsqForwarding

namespace OpenRV64

open ModularAge LsqState Sync
open LsqInput (quiet)

/-- A cycle's inputs together with the positions in the program of the
instructions that they name. -/
structure LsqSeqInput (p : LsqParams) where
  pins : LsqInput p
  loadSeq : Nat
  storeSeq : Nat
  squashSeq : Nat

/-- The queue together with the position of the instruction in each slot. -/
structure LsqSeqState (p : LsqParams) where
  queue : LsqState p
  seq : Nat → Nat

/-- The queue from reset, with program positions. -/
def lsqSeq (p : LsqParams) : Circuit (LsqSeqState p) (LsqSeqInput p) where
  Init t := t.queue = .reset
  step t i :=
    { queue := t.queue.step i.pins
      seq := fun k =>
        match t.queue.allocInto i.pins k with
        | some (_, store) => if store then i.storeSeq else i.loadSeq
        | none => t.seq k }

namespace LsqSeqState

variable {p : LsqParams}

/-- The instruction of the allocation port is at this position. -/
def portSeq (i : LsqSeqInput p) (store : Bool) : Nat :=
  if store then i.storeSeq else i.loadSeq

/-- Identifiers are assigned consecutively modulo the identifier space to
instructions in program order, and the atomic engine owns a live entry. -/
structure Numbered (t : LsqSeqState p) (i : LsqSeqInput p) : Prop where
  load : i.pins.loadAllocI.valid = true → i.pins.loadAllocI.id = idOf instrIdWidth i.loadSeq
  store : i.pins.storeAllocI.valid = true → i.pins.storeAllocI.id = idOf instrIdWidth i.storeSeq
  squash : i.pins.squashYoungerI = true → i.pins.squashIdI = idOf instrIdWidth i.squashSeq
  atomic : i.pins.atomicIrrevocableI = true → (t.queue.slots i.pins.atomicTagI).valid = true

/-- Entries are compared in program order, and what depends on the comparison
follows the program order too. -/
structure AgeOrdered (past : Past (LsqSeqState p) (LsqSeqInput p))
    (t : LsqSeqState p) : Prop where
  pairs : ∀ j k, j < p.depth → k < p.depth → (t.queue.slots j).valid = true →
    (t.queue.slots k).valid = true → isYounger (t.queue.slots j).id (t.queue.slots k).id =
        decide (t.seq k < t.seq j)
  posted : ∀ j k, j < p.depth → k < p.depth → (t.queue.slots j).valid = true →
    (t.queue.slots k).valid = true → (t.queue.slots j).store = true →
      (t.queue.slots j).storeResultSent = true → t.seq j < t.seq k →
        isYounger (t.queue.slots j).id (t.queue.slots k).id = false
  owner : ∀ load b k, t.queue.byteOwner load b p.depth = some k → ∀ other,
    other < p.depth → t.queue.supplies load b other = true → t.seq other ≤ t.seq k
  squashed : ∀ x ∈ past, x.2.pins.flushI = false → ∀ k, k < p.depth →
    (x.1.queue.slots k).valid = true →
      (x.1.queue.squashVictim x.2.pins k = true ↔
        x.2.pins.squashYoungerI = true ∧ x.2.squashSeq < x.1.seq k)

/-- Two positions whose distance, modulo the identifier space, is positive and
less than half of it. -/
def Apart (a b : Nat) : Prop :=
  0 < (max a b - min a b) % 2 ^ instrIdWidth ∧
    (max a b - min a b) % 2 ^ instrIdWidth < 2 ^ (instrIdWidth - 1)

instance (a b : Nat) : Decidable (Apart a b) := inferInstanceAs (Decidable (_ ∧ _))

/-- The position is apart from that of every entry. -/
def ApartFromEntries (t : LsqSeqState p) (seq : Nat) : Prop :=
  ∀ k, k < p.depth → (t.queue.slots k).valid = true → Apart seq (t.seq k)

instance (t : LsqSeqState p) (seq : Nat) : Decidable (t.ApartFromEntries seq) :=
  inferInstanceAs (Decidable (∀ k, k < p.depth → _))

/-- Instructions enter the queue, and name a squash, only within half of the
identifier space around every entry that is still there. -/
structure AgeSafe (t : LsqSeqState p) (i : LsqSeqInput p) : Prop where
  load : i.pins.flushI = false → t.queue.loadAllocFire i.pins = true → t.ApartFromEntries i.loadSeq
  store : i.pins.flushI = false → t.queue.storeAllocFire i.pins = true →
    t.ApartFromEntries i.storeSeq
  both : i.pins.flushI = false → t.queue.loadAllocFire i.pins = true →
    t.queue.storeAllocFire i.pins = true → Apart i.loadSeq i.storeSeq
  squash : i.pins.flushI = false → i.pins.squashYoungerI = true →
    ∀ k, k < p.depth → (t.queue.slots k).valid = true →
      i.squashSeq = t.seq k ∨ Apart i.squashSeq (t.seq k)

theorem Apart.symm {a b : Nat} (h : Apart a b) : Apart b a := by
  rwa [Apart, Nat.max_comm, Nat.min_comm]

/-- Positions that are apart are compared in their true order. -/
theorem Apart.isYounger_eq {a b : Nat} (h : Apart a b) :
    isYounger (idOf instrIdWidth a) (idOf instrIdWidth b) = decide (b < a) := by
  rw [Apart] at h
  rcases Nat.lt_or_ge b a with hlt | hle
  · rw [Nat.max_eq_left hlt.le, Nat.min_eq_right hlt.le] at h
    rw [isYounger_later (by decide) hlt.le, decide_eq_true h, decide_eq_true hlt]
  · rw [Nat.max_eq_right hle, Nat.min_eq_left hle] at h
    rw [isYounger_earlier (by decide) hle, decide_eq_false (by omega), decide_eq_false (by omega)]

/-- Every entry carries the identifier of its position, and entries that are in
the queue together are apart. -/
structure SeqInv (t : LsqSeqState p) : Prop where
  id : ∀ k, k < p.depth → (t.queue.slots k).valid = true →
    (t.queue.slots k).id = idOf instrIdWidth (t.seq k)
  apart : ∀ j k, j < p.depth → k < p.depth → (t.queue.slots j).valid = true →
    (t.queue.slots k).valid = true → j ≠ k → Apart (t.seq j) (t.seq k)

theorem SeqInv.isYounger_eq {t : LsqSeqState p} (h : SeqInv t) {j k : Nat}
    (hj : j < p.depth) (hk : k < p.depth) (hvj : (t.queue.slots j).valid)
    (hvk : (t.queue.slots k).valid) :
    isYounger (t.queue.slots j).id (t.queue.slots k).id = decide (t.seq k < t.seq j) := by
  by_cases heq : j = k
  · subst heq
    simp [isYounger_self]
  · rw [h.id j hj hvj, h.id k hk hvk]
    exact (h.apart j k hj hk hvj hvk heq).isYounger_eq

section Step

variable {t : LsqSeqState p} {i : LsqSeqInput p}

/-- An allocated entry is apart from the entries that stay. -/
theorem AgeSafe.alloc_apart (hsafe : AgeSafe t i) {j k : Nat} {a : LsqAlloc p}
    {store : Bool} (halloc : t.queue.allocInto i.pins j = some (a, store))
    (hk : k < p.depth) (hval : (t.queue.slots k).valid) : Apart (portSeq i store) (t.seq k) := by
  obtain ⟨hfl, -, -, -, hport⟩ := allocInto_some halloc
  rcases hport with ⟨rfl, -, hfire, -⟩ | ⟨rfl, -, hfire, -⟩
  · exact hsafe.store hfl hfire k hk hval
  · exact hsafe.load hfl hfire k hk hval

theorem AgeSafe.allocs_apart (hsafe : AgeSafe t i) {j k : Nat} {a b : LsqAlloc p}
    {st st' : Bool} (hj : t.queue.allocInto i.pins j = some (a, st))
    (hk : t.queue.allocInto i.pins k = some (b, st')) (hne : j ≠ k) :
    Apart (portSeq i st) (portSeq i st') := by
  obtain ⟨hfl, -, -, -, hport⟩ := allocInto_some hj
  obtain ⟨-, -, -, -, hport'⟩ := allocInto_some hk
  rcases hport with ⟨rfl, -, hfire, rfl⟩ | ⟨rfl, -, hfire, rfl⟩
  · rcases hport' with ⟨rfl, -, -, rfl⟩ | ⟨rfl, -, hfire', -⟩
    · exact absurd rfl hne
    · exact (hsafe.both hfl hfire' hfire).symm
  · rcases hport' with ⟨rfl, -, hfire', -⟩ | ⟨rfl, -, -, rfl⟩
    · exact hsafe.both hfl hfire hfire'
    · exact absurd rfl hne

theorem SeqInv.step (h : SeqInv t) (hnum : Numbered t i) (hsafe : AgeSafe t i) :
    SeqInv ((lsqSeq p).step t i) := by
  have hcases : ∀ k, ((t.queue.step i.pins).slots k).valid →
      ((t.queue.slots k).valid ∧ t.queue.allocInto i.pins k = none ∧
        ((lsqSeq p).step t i).seq k = t.seq k) ∨
      ∃ a store, t.queue.allocInto i.pins k = some (a, store) ∧
        ((lsqSeq p).step t i).seq k = portSeq i store := by
    intro k hval
    cases halloc : t.queue.allocInto i.pins k with
    | none =>
      rcases valid_of_step hnum.atomic hval with hold | ⟨a, store, hsome⟩
      · exact .inl ⟨hold, rfl, by simp [lsqSeq, halloc]⟩
      · rw [halloc] at hsome
        cases hsome
    | some entry => exact .inr ⟨entry.1, entry.2, rfl, by simp [lsqSeq, halloc, portSeq]⟩
  constructor
  · intro k hk hval
    change ((t.queue.step i.pins).slots k).op.id = _
    rw [step_op]
    rcases hcases k hval with ⟨hold, hnone, hseq⟩ | ⟨a, store, hsome, hseq⟩
    · rw [afterAlloc_none hnone, hseq]
      exact h.id k hk hold
    rw [afterAlloc_some hsome, hseq]
    obtain ⟨-, -, -, -, hport⟩ := allocInto_some hsome
    rcases hport with ⟨rfl, rfl, hfire, -⟩ | ⟨rfl, rfl, hfire, -⟩
    · rw [storeAllocFire, Bool.and_eq_true] at hfire
      exact hnum.store hfire.1
    · rw [loadAllocFire, Bool.and_eq_true] at hfire
      exact hnum.load hfire.1
  · intro j k hj hk hvj hvk hne
    rcases hcases j hvj with ⟨holdj, hnonej, hseqj⟩ | ⟨a, store, hsomej, hseqj⟩
    · rcases hcases k hvk with ⟨holdk, hnonek, hseqk⟩ | ⟨b, store', hsomek, hseqk⟩
      · rw [hseqj, hseqk]
        exact h.apart j k hj hk holdj holdk hne
      · rw [hseqj, hseqk]
        exact (hsafe.alloc_apart hsomek hj holdj).symm
    rcases hcases k hvk with ⟨holdk, hnonek, hseqk⟩ | ⟨b, store', hsomek, hseqk⟩
    · rw [hseqj, hseqk]
      exact hsafe.alloc_apart hsomej hk holdk
    · rw [hseqj, hseqk]
      exact hsafe.allocs_apart hsomej hsomek hne

/-- A squash that is near its entries hits the younger ones. -/
theorem SeqInv.squashVictim_iff (h : SeqInv t) (hnum : Numbered t i)
    (hsafe : AgeSafe t i) (hfl : i.pins.flushI = false) {k : Nat}
    (hk : k < p.depth) (hval : (t.queue.slots k).valid) :
    t.queue.squashVictim i.pins k ↔ i.pins.squashYoungerI ∧ i.squashSeq < t.seq k := by
  rw [squashVictim, Bool.and_eq_true]
  apply and_congr_right
  intro hsq
  rw [h.id k hk hval, hnum.squash hsq]
  rcases hsafe.squash hfl hsq k hk hval with heq | hapart
  · simp [heq, isYounger_self]
  · rw [hapart.symm.isYounger_eq, decide_eq_true_iff]

end Step

theorem SeqInv.reset {t : LsqSeqState p} (h : t.queue = .reset) : SeqInv t := by
  constructor
  · intro k _ hval
    rw [h] at hval
    cases hval
  · intro j k _ _ hval
    rw [h] at hval
    cases hval

instance (t : LsqSeqState p) (i : LsqSeqInput p) : Decidable (Numbered t i) :=
  decidable_of_iff
    ((i.pins.loadAllocI.valid = true → i.pins.loadAllocI.id = idOf instrIdWidth i.loadSeq) ∧
      (i.pins.storeAllocI.valid = true → i.pins.storeAllocI.id = idOf instrIdWidth i.storeSeq) ∧
      (i.pins.squashYoungerI = true → i.pins.squashIdI = idOf instrIdWidth i.squashSeq) ∧
      (i.pins.atomicIrrevocableI = true → (t.queue.slots i.pins.atomicTagI).valid = true))
    ⟨fun h => ⟨h.1, h.2.1, h.2.2.1, h.2.2.2⟩, fun h => ⟨h.load, h.store, h.squash, h.atomic⟩⟩

instance (t : LsqSeqState p) (i : LsqSeqInput p) : Decidable (AgeSafe t i) :=
  decidable_of_iff
    ((i.pins.flushI = false → t.queue.loadAllocFire i.pins = true → t.ApartFromEntries i.loadSeq) ∧
      (i.pins.flushI = false → t.queue.storeAllocFire i.pins = true →
        t.ApartFromEntries i.storeSeq) ∧
      (i.pins.flushI = false → t.queue.loadAllocFire i.pins = true →
        t.queue.storeAllocFire i.pins = true → Apart i.loadSeq i.storeSeq) ∧
      (i.pins.flushI = false → i.pins.squashYoungerI = true →
        ∀ k, k < p.depth → (t.queue.slots k).valid = true →
          i.squashSeq = t.seq k ∨ Apart i.squashSeq (t.seq k)))
    ⟨fun h => ⟨h.1, h.2.1, h.2.2.1, h.2.2.2⟩, fun h => ⟨h.load, h.store, h.both, h.squash⟩⟩

/-- A store that is posted to memory and completes there only later, and a load
of the same doubleword, `distance` instructions further on. -/
def postedThenLoad (distance : Nat) : List (LsqSeqInput smallLsq) :=
  [{ pins := ((LsqInput.quiet _).withStore 0 0x1000 0x11).translating 4 0x2000
     loadSeq := 0
     storeSeq := 0
     squashSeq := 0 },
    { pins := (LsqInput.quiet _).headAt 0
      loadSeq := 0
      storeSeq := 0
      squashSeq := 0 },
    { pins := ((LsqInput.quiet _).withLoad (idOf instrIdWidth distance)
        0x1000).translating 0 0x2000
      loadSeq := distance
      storeSeq := 0
      squashSeq := 0 }]

/-- A squash of everything after position `seq`. -/
def squashAfter (seq : Nat) : LsqSeqInput smallLsq where
  pins :=
    { LsqInput.quiet _ with
      squashYoungerI := true
      squashIdI := idOf instrIdWidth seq }
  loadSeq := 0
  storeSeq := 0
  squashSeq := seq

def emptyLsq : LsqSeqState smallLsq := ⟨.reset, fun _ => 0⟩

end LsqSeqState

end OpenRV64
