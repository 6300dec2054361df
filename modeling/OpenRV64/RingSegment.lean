/-
The slots of a circular buffer that is not assumed to have a power-of-two
depth: the `i`-th slot after a head, without repetition over one turn.
-/
import Mathlib.Data.List.Nodup
import Mathlib.Data.Nat.Basic
import Mathlib.Tactic.Linarith

namespace RingSegment

variable {depth head : Nat}

/-- The slot `i` places after `head`. -/
def slot (depth head i : Nat) : Nat := (head + i) % depth

theorem slot_lt (hdep : 0 < depth) (i : Nat) : slot depth head i < depth := Nat.mod_lt _ hdep

theorem slot_zero (hhead : head < depth) : slot depth head 0 = head := Nat.mod_eq_of_lt hhead

theorem slot_eq (hhead : head < depth) {i : Nat} (hi : i ≤ depth) : slot depth head i =
      if head + i < depth then head + i else head + i - depth := by
  rw [slot]
  split
  · rename_i h
    exact Nat.mod_eq_of_lt h
  · rw [Nat.mod_eq_sub_mod (by omega), Nat.mod_eq_of_lt (by omega)]

theorem slot_slot (i j : Nat) : slot depth (slot depth head i) j = slot depth head (i + j) := by
  rw [slot, slot, slot, Nat.mod_add_mod, Nat.add_assoc]

theorem slot_depth (depth head : Nat) : slot depth head depth = slot depth head 0 := by
  rw [slot, slot, Nat.add_mod_right, Nat.add_zero]

theorem slot_inj (hhead : head < depth) {i j : Nat} (hi : i < depth)
    (hj : j < depth) (h : slot depth head i = slot depth head j) : i = j := by
  rw [slot_eq hhead hi.le, slot_eq hhead hj.le] at h
  split at h <;> split at h <;> omega

theorem exists_slot (hhead : head < depth) {x : Nat} (hx : x < depth) :
    ∃ i < depth, slot depth head i = x := by
  by_cases h : head ≤ x
  · refine ⟨x - head, by omega, ?_⟩
    rw [slot_eq hhead (by omega)]
    split <;> omega
  · refine ⟨x + depth - head, by omega, ?_⟩
    rw [slot_eq hhead (by omega)]
    split <;> omega

/-- How far `last` lies after `first`, counting both. -/
def span (depth first last : Nat) : Nat :=
  if first ≤ last then last - first + 1 else depth - first + last + 1

theorem span_slot (hhead : head < depth) {i : Nat} (hi : i < depth) :
    span depth head (slot depth head i) = i + 1 := by
  rw [span, slot_eq hhead hi.le]
  split <;> split at * <;> omega

theorem slot_inj_iff (hhead : head < depth) {i j : Nat} (hi : i < depth)
    (hj : j < depth) : slot depth head i = slot depth head j ↔ i = j :=
  ⟨slot_inj hhead hi hj, fun h => h ▸ rfl⟩

theorem perm_slots (hhead : head < depth) :
    ((List.range depth).map (slot depth head)).Perm (List.range depth) := by
  apply (List.perm_ext_iff_of_nodup ?_ List.nodup_range).mpr
  · intro x
    simp only [List.mem_map, List.mem_range]
    constructor
    · rintro ⟨i, -, rfl⟩
      exact slot_lt (Nat.zero_lt_of_lt hhead) i
    · exact fun hx => exists_slot hhead hx
  · apply List.Nodup.map_on ?_ List.nodup_range
    intro i hi j hj hslot
    rw [List.mem_range] at hi hj
    exact slot_inj hhead hi hj hslot

/-- A count over the slots may start at the head. -/
theorem countP_slots (hhead : head < depth) (f : Nat → Bool) :
    (List.range depth).countP f = (List.range depth).countP (fun i => f (slot depth head i)) := by
  rw [← (perm_slots hhead).countP_eq, List.countP_map]
  rfl

theorem countP_range_lt (n k : Nat) :
    (List.range n).countP (fun i => decide (i < k)) = min n k := by
  induction n with
  | zero => simp
  | succ n ih =>
    rw [List.range_succ, List.countP_append, ih, List.countP_singleton]
    split <;> simp_all <;> omega

theorem countP_range_between {n k m : Nat} (hkm : k ≤ m) (hmn : m ≤ n) :
    (List.range n).countP (fun i => decide (k ≤ i ∧ i < m)) = m - k := by
  have hsplit : (List.range n).countP (fun i => decide (i < m)) =
      (List.range n).countP (fun i => decide (i < k)) +
        (List.range n).countP (fun i => decide (k ≤ i ∧ i < m)) := by
    induction List.range n with
    | nil => rfl
    | cons i rest ih =>
      simp only [List.countP_cons, ih, decide_eq_true_eq]
      split <;> split <;> split <;> omega
  rw [countP_range_lt, countP_range_lt] at hsplit
  omega

/-! ## Head, tail and count -/

/-- The index after `k`, as a queue's pointer register steps. -/
def next (depth k : Nat) : Nat := if k = depth - 1 then 0 else k + 1

theorem next_eq_slot {k : Nat} (hk : k < depth) : next depth k = slot depth k 1 := by
  rw [next, slot_eq hk (by omega)]
  split <;> split <;> omega

theorem next_lt {k : Nat} (hk : k < depth) : next depth k < depth := by
  rw [next]
  split <;> omega

theorem slot_next (hhead : head < depth) (j : Nat) :
    slot depth (next depth head) j = slot depth head (j + 1) := by
  rw [next_eq_slot hhead, slot_slot, Nat.add_comm]

/-- The count of a queue after an edge that may push and pop. -/
def occupancy (count : Nat) (push pop : Bool) : Nat :=
  if push && !pop then count + 1 else if pop && !push then count - 1 else count

/-- The registers of a queue agree: its tail lies `count` places after its head. -/
structure Pointers (depth head tail count : Nat) : Prop where
  head_lt : head < depth
  count_le : count ≤ depth
  tail_eq : tail = slot depth head count

namespace Pointers

variable {tail count : Nat}

theorem tail_lt (h : Pointers depth head tail count) : tail < depth := by
  rw [h.tail_eq]
  exact slot_lt (Nat.zero_lt_of_lt h.head_lt) count

theorem empty (hdep : 0 < depth) : Pointers depth 0 0 0 :=
  ⟨hdep, Nat.zero_le _, (slot_zero hdep).symm⟩

/-- An edge keeps the registers in agreement when it pushes only with room and pops only
what is there. -/
theorem step (h : Pointers depth head tail count) {push pop : Bool}
    (hpush : push → count < depth ∨ pop) (hpop : pop → 0 < count) :
    Pointers depth (if pop then next depth head else head)
      (if push then next depth tail else tail) (occupancy count push pop) := by
  have htail : next depth tail = slot depth head (count + 1) := by
    rw [next_eq_slot h.tail_lt, h.tail_eq, slot_slot]
  have hle := h.count_le
  cases push with
  | false =>
    cases pop with
    | false => exact h
    | true =>
      have hcnt := hpop rfl
      refine ⟨next_lt h.head_lt, ?_, ?_⟩
      · simp [occupancy]
        omega
      · simp only [occupancy, Bool.false_and, Bool.not_false, Bool.and_true, if_true,
          Bool.false_eq_true, if_false]
        rw [slot_next h.head_lt, Nat.sub_add_cancel hcnt, h.tail_eq]
  | true =>
  cases pop with
  | false =>
    have hcnt := (hpush rfl).resolve_right Bool.false_ne_true
    refine ⟨h.head_lt, ?_, ?_⟩
    · simp [occupancy]
      omega
    · simpa [occupancy] using htail
  | true =>
    refine ⟨next_lt h.head_lt, by simpa [occupancy] using hle, ?_⟩
    simp only [occupancy, Bool.not_true, Bool.and_false, Bool.false_eq_true, if_false, if_true]
    rw [slot_next h.head_lt, htail]

/-- The tail is no slot in use, unless every slot is. -/
theorem slot_ne_tail (h : Pointers depth head tail count) (hroom : count < depth) {j : Nat}
    (hj : j < count) : slot depth head j ≠ tail := by
  rw [h.tail_eq]
  exact fun heq => absurd (slot_inj h.head_lt (by omega) hroom heq) (by omega)

/-- The place that a queue's item `j` had before an edge. -/
def before (pop : Bool) (j : Nat) : Nat := if pop then j + 1 else j

theorem slot_before (h : Pointers depth head tail count) (pop : Bool) (j : Nat) :
    slot depth (if pop then next depth head else head) j = slot depth head (before pop j) := by
  cases pop with
  | false => rfl
  | true => exact slot_next h.head_lt j

/-- After an edge the queue holds what it held, less the head that it popped, and then
what it pushed. -/
theorem read_step {β : Type*} (h : Pointers depth head tail count) {push pop : Bool}
    (hpush : push → count < depth ∨ pop) (hpop : pop → 0 < count)
    (cell : Nat → β) (x : β) {j : Nat} (hj : j < occupancy count push pop) :
    (if push && slot depth (if pop then next depth head else head) j == tail then x
      else cell (slot depth (if pop then next depth head else head) j)) =
      if before pop j < count then cell (slot depth head (before pop j)) else x := by
  have hle := h.count_le
  rw [slot_before h]
  have hjle : before pop j ≤ count := by
    cases push <;> cases pop <;> simp [occupancy, before] at hj hpop ⊢ <;> omega
  rcases Nat.lt_or_ge (before pop j) count with hlt | hge
  · rw [if_pos hlt]
    split_ifs with hwr
    · exfalso
      rw [Bool.and_eq_true, beq_iff_eq] at hwr
      rcases hpush hwr.1 with hroom | hp
      · exact slot_ne_tail h hroom hlt hwr.2
      rcases Nat.lt_or_ge count depth with hroom | hfull
      · exact slot_ne_tail h hroom hlt hwr.2
      have hcnt : count = depth := Nat.le_antisymm hle hfull
      rw [h.tail_eq, hcnt, slot_depth] at hwr
      subst hp
      have hz := slot_inj h.head_lt (by omega) (by omega) hwr.2
      simp [before] at hz
    · rfl
  have heq : before pop j = count := Nat.le_antisymm hjle hge
  rw [if_neg (show ¬ before pop j < count by omega), heq, ← h.tail_eq]
  have hp : push := by
    cases push with
    | true => rfl
    | false => cases pop <;> simp [occupancy, before] at hj heq <;> omega
  rw [hp]
  simp

end Pointers

variable {α : Type*}

/-- The ring holds `xs`, the first of them at its head. -/
def Holds (depth head : Nat) (cell : Nat → α) (xs : List α) : Prop :=
  ∀ i x, xs[i]? = some x → cell (slot depth head i) = x

section Holds

variable {cell cell' : Nat → α} {xs : List α}

theorem Holds.nil : Holds depth head cell [] := by
  intro i x h
  simp at h

/-- The head moves past what is dropped, whose cells no longer matter. -/
theorem holds_drop {n : Nat} (h : ∀ i x, n ≤ i → xs[i]? = some x → cell (slot depth head i) = x) :
    Holds depth (slot depth head n) cell (xs.drop n) := by
  intro i x hx
  rw [List.getElem?_drop] at hx
  rw [slot_slot]
  exact h _ x (Nat.le_add_right n i) hx

theorem Holds.concat (h : Holds depth head cell xs) {x : α}
    (hx : cell (slot depth head xs.length) = x) : Holds depth head cell (xs ++ [x]) := by
  intro i y hy
  rcases Nat.lt_trichotomy i xs.length with hi | rfl | hi
  · rw [List.getElem?_append_left hi] at hy
    exact h i y hy
  · rw [List.getElem?_concat_length] at hy
    exact hx.trans (Option.some.inj hy)
  · rw [List.getElem?_eq_none (by simp; omega)] at hy
    cases hy

/-- What becomes of each cell becomes of each item. -/
theorem Holds.congr (h : Holds depth head cell xs)
    (hcell : ∀ i < xs.length, cell' (slot depth head i) = cell (slot depth head i)) :
    Holds depth head cell' xs := fun i x hx =>
  (hcell i (List.getElem?_eq_some_iff.mp hx).1).trans (h i x hx)

end Holds

end RingSegment
