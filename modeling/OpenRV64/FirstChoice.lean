/-
The first ready candidate of a fixed order, and when it is also the highest one under a
ranking that the order does not know.
-/
import Mathlib.Data.List.Basic
import Mathlib.Order.Lattice
import Mathlib.Tactic.Common

namespace FirstChoice

variable {α β : Type*} [DecidableEq α]

/-- `a` stands before `b`. -/
def Before (order : List α) (a b : α) : Prop := order.idxOf a < order.idxOf b

/-- The first ready candidate is ready, and every other ready candidate stands behind it. -/
theorem first_of_find? {order : List α} {ready : α → Bool} {a : α}
    (h : order.find? ready = some a) :
    a ∈ order ∧ ready a ∧ ∀ b ∈ order, ready b → b ≠ a → Before order a b := by
  refine ⟨List.mem_of_find?_eq_some h, List.find?_some h, ?_⟩
  induction order with
  | nil => simp at h
  | cons c order ih =>
    intro b hb hrdy hne
    rw [List.find?_cons] at h
    cases hc : ready c with
    | true =>
      rw [hc] at h
      obtain rfl : c = a := Option.some.inj h
      rw [Before, List.idxOf_cons_self, List.idxOf_cons_ne _ (Ne.symm hne)]
      exact Nat.succ_pos _
    | false =>
      rw [hc] at h
      have hmem : b ∈ order := by
        rcases List.mem_cons.mp hb with rfl | hmem
        · simp [hc] at hrdy
        · exact hmem
      have hbc : c ≠ b := by
        rintro rfl
        simp [hc] at hrdy
      have hac : c ≠ a := by
        rintro rfl
        exact absurd (List.find?_some h) (by simp [hc])
      have hbehind := ih h b hmem hrdy hne
      rw [Before] at hbehind ⊢
      rw [List.idxOf_cons_ne _ hac, List.idxOf_cons_ne _ hbc]
      exact Nat.succ_lt_succ hbehind

section Levels

variable [LinearOrder β] (order : List α) (level : α → β) (ready : α → Prop)

/-- The ranking goes first and the order decides between equals. -/
def Outranks (a b : α) : Prop := level b < level a ∨ level b = level a ∧ Before order a b

/-- A ready candidate that outranks every other ready one. -/
structure IsHighest (a : α) : Prop where
  mem : a ∈ order
  isReady : ready a
  outranks : ∀ b ∈ order, ready b → b ≠ a → Outranks order level a b

/-- A ready candidate never stands before a higher ready one, unless one as high stands
before both. -/
def Ordered : Prop :=
  ∀ a ∈ order, ∀ b ∈ order, ready a → ready b → Before order a b → level a < level b →
    ∃ c ∈ order, ready c ∧ Before order c a ∧ level b ≤ level c

variable {order level ready}

/-- The first ready candidate is the highest one exactly when the order agrees with the
ranking on what is ready. -/
theorem find?_isHighest_iff {choose : α → Bool} {a : α} (hchoose : ∀ b, choose b ↔ ready b)
    (h : order.find? choose = some a) :
    IsHighest order level ready a ↔ Ordered order level ready := by
  obtain ⟨hmem, hrdy, hfst⟩ := first_of_find? h
  constructor
  · intro hhigh b hb c hc hbready hcready _ hlt
    have hne : b ≠ a := by
      rintro rfl
      rcases hhigh.outranks c hc hcready (by rintro rfl; exact lt_irrefl _ hlt) with h | ⟨h, -⟩
      · exact absurd h (lt_asymm hlt)
      · exact absurd h (ne_of_gt hlt)
    refine ⟨a, hmem, hhigh.isReady, hfst b hb ((hchoose b).mpr hbready) hne, ?_⟩
    by_cases hca : c = a
    · rw [hca]
    · rcases hhigh.outranks c hc hcready hca with h | ⟨h, -⟩
      · exact le_of_lt h
      · exact le_of_eq h
  · intro hord
    refine ⟨hmem, (hchoose a).mp hrdy, fun b hb hbready hne => ?_⟩
    have hbef := hfst b hb ((hchoose b).mpr hbready) hne
    rcases lt_trichotomy (level b) (level a) with hlt | heq | hgt
    · exact .inl hlt
    · exact .inr ⟨heq, hbef⟩
    obtain ⟨c, hc, hcready, hca, -⟩ := hord a hmem b hb ((hchoose a).mp hrdy) hbready hbef hgt
    have hne' : c ≠ a := by
      rintro rfl
      exact Nat.lt_irrefl _ hca
    exact absurd hca (Nat.lt_asymm (hfst c hc ((hchoose c).mpr hcready) hne'))

end Levels

end FirstChoice
