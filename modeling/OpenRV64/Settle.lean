/-
Combinational networks that settle: relaxing all signals at once makes those right that
depend on right ones only, so that a network without cycles ends in its one fixed point.

Nothing here names a particular network.
-/
import Mathlib.Data.Nat.Notation
import Mathlib.Logic.Function.Iterate

namespace Settle

universe u

variable {V : Type u} {f : V → V} {agree : ℕ → V → V → Prop} {n : ℕ}

/-- `f` determines the signals of rank `d` from those of smaller rank: assignments that
agree below `d` are mapped to such that agree below `d + 1`, and below `n` is everywhere. -/
structure Ranked (f : V → V) (agree : ℕ → V → V → Prop) (n : ℕ) : Prop where
  zero : ∀ v v', agree 0 v v'
  step : ∀ d v v', agree d v v' → agree (d + 1) (f v) (f v')
  all : ∀ v v', agree n v v' → v = v'

theorem Ranked.iterate (h : Ranked f agree n) (v v' : V) (k : ℕ) :
    agree k (f^[k] v) (f^[k] v') := by
  induction k with
  | zero => exact h.zero v v'
  | succ k ih =>
    rw [Function.iterate_succ_apply', Function.iterate_succ_apply']
    exact h.step k _ _ ih

/-- As many passes as there are ranks settle the network. -/
theorem Ranked.settled (h : Ranked f agree n) (v : V) : f (f^[n] v) = f^[n] v := by
  rw [← Function.iterate_succ_apply' f n v, Function.iterate_succ_apply]
  exact h.all _ _ (h.iterate (f v) v n)

end Settle
