/-
Queues of pending entries: the entries that satisfy a predicate are counted, and the
youngest of them is found again by its tag.
-/
import Mathlib.Data.List.Nodup
import Mathlib.Data.Nat.Notation

namespace PendingQueue

universe u v

variable {α : Type u} {τ : Type v}

/-- The queue after the oldest `k` entries have left and some have joined. -/
def served (queue : List α) (k : ℕ) (fresh : List α) : List α := queue.drop k ++ fresh

/-- The youngest entry that satisfies `P`. -/
def latest (P : α → Bool) (queue : List α) : Option α := (queue.filter P).getLast?

variable {P : α → Bool} {queue fresh older : List α} {k : ℕ} {e : α}

/-- What is counted afterwards and what has left make up what was counted before and what
has joined. -/
theorem countP_served (P : α → Bool) (queue fresh : List α) (k : ℕ) :
    (served queue k fresh).countP P + (queue.take k).countP P =
      queue.countP P + fresh.countP P := by
  have hsplit : (queue.take k).countP P + (queue.drop k).countP P = queue.countP P := by
    rw [← List.countP_append, List.take_append_drop]
  rw [served, List.countP_append]
  omega

theorem latest_append : latest P (older ++ fresh) = (latest P fresh).or (latest P older) := by
  rw [latest, latest, latest, List.filter_append, List.getLast?_append]

theorem latest_eq_none : latest P queue = none ↔ queue.countP P = 0 := by
  rw [latest, List.getLast?_eq_none_iff, List.countP_eq_length_filter, List.length_eq_zero_iff]

theorem mem_of_latest (h : latest P queue = some e) : e ∈ queue ∧ P e :=
  List.mem_filter.mp (List.mem_of_getLast? h)

/-- The youngest entry stays the youngest until it leaves itself, which shows in its
tag. -/
theorem latest_drop [DecidableEq τ] {tag : α → τ} (hnodup : (queue.map tag).Nodup)
    (h : latest P queue = some e) :
    latest P (queue.drop k) =
      if tag e ∈ (queue.take k).map tag then none else some e := by
  have hparts : queue.take k ++ queue.drop k = queue := List.take_append_drop k queue
  rw [← hparts, List.map_append, List.nodup_append] at hnodup
  rw [← hparts, latest_append] at h
  cases hrest : latest P (queue.drop k) with
  | none =>
    rw [hrest, Option.none_or] at h
    have hmem : tag e ∈ (queue.take k).map tag := List.mem_map_of_mem (mem_of_latest h).1
    rw [if_pos hmem]
  | some x =>
    rw [hrest, Option.some_or, Option.some.injEq] at h
    subst h
    have hmem : tag x ∈ (queue.drop k).map tag := List.mem_map_of_mem (mem_of_latest hrest).1
    rw [if_neg fun hout => hnodup.2.2 _ hout _ hmem rfl]

theorem latest_drop_none (h : latest P queue = none) : latest P (queue.drop k) = none := by
  rw [latest_eq_none] at h ⊢
  apply Nat.eq_zero_of_le_zero
  rw [← h]
  exact (List.drop_sublist k queue).countP_le

end PendingQueue
