/-
Numbered sources that share one stream.  Every source delivers blocks in its own order, the
shared stream is a splice of whole blocks, and each source finds its own blocks in it.
-/
import Mathlib.Data.List.Flatten
import Mathlib.Data.List.Infix
import Mathlib.Data.Nat.Notation
import Mathlib.Logic.Function.Basic

namespace Interleave

variable {κ α : Type*} [DecidableEq κ]

/-- Every source has its blocks numbered from zero on, in the order of the stream. -/
def InOrder (order : List (κ × ℕ)) (sent : κ → ℕ) : Prop :=
  ∀ x, (order.filter fun e => decide (e.1 = x)).map Prod.snd = List.range (sent x)

theorem InOrder.nil : InOrder ([] : List (κ × ℕ)) fun _ => 0 := fun _ => rfl

/-- The next block of one source goes behind everything. -/
theorem InOrder.append {order : List (κ × ℕ)} {sent : κ → ℕ} (h : InOrder order sent) (x : κ) :
    InOrder (order ++ [(x, sent x)]) (Function.update sent x (sent x + 1)) := by
  intro y
  rw [List.filter_append, List.map_append, h y]
  by_cases hxy : x = y
  · subst hxy
    rw [Function.update_self, List.range_succ]
    simp
  · rw [Function.update_of_ne (Ne.symm hxy)]
    simp [hxy]

/-- The blocks of all sources in the order of the stream. -/
def spliced (block : κ → ℕ → List α) (order : List (κ × ℕ)) : List α :=
  order.flatMap fun e => block e.1 e.2

omit [DecidableEq κ] in
@[simp] theorem spliced_append (block : κ → ℕ → List α) (order order' : List (κ × ℕ)) :
    spliced block (order ++ order') = spliced block order ++ spliced block order' :=
  List.flatMap_append ..

/-- The first `k` blocks of one source. -/
def blocks (block : ℕ → List α) (k : ℕ) : List α := (List.range k).flatMap block

theorem blocks_succ (block : ℕ → List α) (k : ℕ) :
    blocks block (k + 1) = blocks block k ++ block k := by
  rw [blocks, List.range_succ, List.flatMap_append, List.flatMap_singleton]
  rfl

theorem blocks_mono (block : ℕ → List α) {k m : ℕ} (h : k ≤ m) :
    blocks block k <+: blocks block m := by
  induction h with
  | refl => exact List.prefix_rfl
  | step _ ih =>
    rw [blocks_succ]
    exact ih.trans (List.prefix_append _ _)

/-- What stands before a block are the blocks before it of the same source. -/
theorem InOrder.before {order done post : List (κ × ℕ)} {e : κ × ℕ} {sent : κ → ℕ}
    (h : InOrder order sent) (horder : order = done ++ e :: post) :
    (done.filter fun e' => decide (e'.1 = e.1)).map Prod.snd = List.range e.2 := by
  have hnumbers := h e.1
  rw [horder, List.filter_append, List.filter_cons, if_pos (decide_eq_true rfl),
    List.map_append, List.map_cons] at hnumbers
  have hlt := congrArg List.length hnumbers
  rw [List.length_append, List.length_cons, List.length_range] at hlt
  have hplc := congrArg
    (fun l => l[((done.filter fun e' => decide (e'.1 = e.1)).map Prod.snd).length]?) hnumbers
  simp only [List.getElem?_append_right (Nat.le_refl _), Nat.sub_self, List.getElem?_cons_zero]
    at hplc
  rw [List.getElem?_range (by omega)] at hplc
  have htake := congrArg
    (List.take ((done.filter fun e' => decide (e'.1 = e.1)).map Prod.snd).length) hnumbers
  rw [List.take_left, List.take_range, Nat.min_eq_left (by omega)] at htake
  rw [htake, Option.some.inj hplc]

/-- What the stream holds of one source is the first blocks of that source, in its order. -/
theorem filter_spliced {block : κ → ℕ → List α} {belongs : κ → α → Bool}
    {order : List (κ × ℕ)} {x : κ} {n : ℕ}
    (hbelongs : ∀ y k, ∀ a ∈ block y k, ∀ z, belongs z a = decide (y = z))
    (horder : (order.filter fun e => decide (e.1 = x)).map Prod.snd = List.range n) :
    (spliced block order).filter (belongs x) = blocks (block x) n := by
  have hflat : (spliced block order).filter (belongs x) =
      ((order.filter fun e => decide (e.1 = x)).map Prod.snd).flatMap (block x) := by
    clear horder
    induction order with
    | nil => rfl
    | cons e order ih =>
      rw [spliced, List.flatMap_cons, List.filter_append]
      rw [spliced] at ih
      rw [ih]
      by_cases hx : e.1 = x
      · have hall : (block e.1 e.2).filter (belongs x) = block x e.2 := by
          rw [List.filter_eq_self.mpr, hx]
          intro a ha
          rw [hbelongs e.1 e.2 a ha, hx]
          exact decide_eq_true rfl
        have hfst : (e :: order).filter (fun e => decide (e.1 = x)) =
            e :: order.filter fun e => decide (e.1 = x) := by
          rw [List.filter_cons, if_pos (decide_eq_true hx)]
        rw [hall, hfst, List.map_cons, List.flatMap_cons]
      have hnone : (block e.1 e.2).filter (belongs x) = [] := by
        rw [List.filter_eq_nil_iff]
        intro a ha
        rw [hbelongs e.1 e.2 a ha]
        simpa using hx
      rw [hnone, List.filter_cons_of_neg (by simpa using hx), List.nil_append]
  rw [hflat, horder]
  rfl

/-- A source that has delivered `k` whole blocks and a part of the next one, and keeps to
its order, goes on inside that block. -/
theorem next_of_prefix {block : ℕ → List α} {k j m : ℕ} {a : α} (hj : j < (block k).length)
    (h : blocks block k ++ (block k).take j ++ [a] <+: blocks block m) :
    (block k).take j ++ [a] = (block k).take (j + 1) := by
  have htgt : blocks block k ++ (block k).take (j + 1) <+: blocks block (k + 1) := by
    rw [blocks_succ]
    exact (List.prefix_append_right_inj _).mpr (List.take_prefix _ _)
  have hlen : (blocks block k ++ (block k).take j ++ [a]).length =
      (blocks block k ++ (block k).take (j + 1)).length := by
    simp only [List.length_append, List.length_take, List.length_singleton]
    omega
  have hlong : blocks block k ++ (block k).take j ++ [a] <+: blocks block (max m (k + 1)) :=
    h.trans (blocks_mono block (le_max_left _ _))
  have hshort := htgt.trans (blocks_mono block (le_max_right m (k + 1)))
  have heq := (List.prefix_of_prefix_length_le hlong hshort (Nat.le_of_eq hlen)).eq_of_length
    hlen
  rw [List.append_assoc] at heq
  exact List.append_cancel_left heq

end Interleave
