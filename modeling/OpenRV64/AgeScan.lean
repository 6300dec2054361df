/-
Picking one candidate out of a numbered array by a scan in index order that
replaces its choice whenever the next candidate beats it.

When the comparison is a strict order of ages, the choice does not depend on
where the candidates stand in the array.
-/
import Mathlib.Logic.Equiv.Basic
import Mathlib.Order.Basic
import Mathlib.Tactic.Linarith

namespace AgeScan

/-- The choice among the first `n` indices. -/
def scan (candidate : Nat → Bool) (beats : Nat → Nat → Bool) : Nat → Option Nat
  | 0 => none
  | n + 1 =>
    match scan candidate beats n with
    | none => if candidate n then some n else none
    | some best => if candidate n && beats n best then some n else some best

variable {candidate : Nat → Bool} {beats : Nat → Nat → Bool} {n k : Nat}

theorem scan_some (h : scan candidate beats n = some k) : k < n ∧ candidate k := by
  induction n with
  | zero => cases h
  | succ n ih =>
    rw [scan] at h
    cases hprev : scan candidate beats n with
    | none =>
      simp only [hprev] at h
      split at h
      · rename_i hcand
        cases h
        exact ⟨Nat.lt_succ_self _, hcand⟩
      · cases h
    | some best =>
      simp only [hprev] at h
      split at h
      · rename_i hcand
        cases h
        rw [Bool.and_eq_true] at hcand
        exact ⟨Nat.lt_succ_self _, hcand.1⟩
      · cases h
        have hbest := ih hprev
        exact ⟨hbest.1.trans (Nat.lt_succ_self _), hbest.2⟩

theorem scan_eq_none_iff : scan candidate beats n = none ↔ ∀ k < n, candidate k = false := by
  induction n with
  | zero => simp [scan]
  | succ n ih =>
    rw [scan]
    cases hprev : scan candidate beats n with
    | none =>
      rw [Nat.forall_lt_succ_right, and_iff_right (ih.mp hprev)]
      simp
    | some best =>
      obtain ⟨hbest, hcand⟩ := scan_some hprev
      constructor
      · intro h
        simp only at h
        split at h
        · cases h
        · cases h
      · intro h
        rw [h best (hbest.trans (Nat.lt_succ_self n))] at hcand
        cases hcand

/-- The comparison orders the candidates by `age`, the smaller one winning. -/
def Orders {α : Type*} [LinearOrder α] (candidate : Nat → Bool)
    (beats : Nat → Nat → Bool) (n : Nat) (age : Nat → α) : Prop :=
  ∀ j k, j < n → k < n → candidate j = true → candidate k = true →
    beats j k = decide (age j < age k)

variable {α : Type*} [LinearOrder α] {age : Nat → α}

/-- No candidate has a smaller age than the chosen one. -/
theorem scan_least (horders : Orders candidate beats n age)
    (h : scan candidate beats n = some k) {j : Nat} (hj : j < n)
    (hcand : candidate j) : age k ≤ age j := by
  induction n generalizing k with
  | zero => cases h
  | succ n ih =>
    have hsmall : Orders candidate beats n age := fun a b ha hb =>
      horders a b (ha.trans (Nat.lt_succ_self n)) (hb.trans (Nat.lt_succ_self n))
    rw [scan] at h
    cases hprev : scan candidate beats n with
    | none =>
      have hnone := scan_eq_none_iff.mp hprev
      simp only [hprev] at h
      rcases Nat.lt_succ_iff_lt_or_eq.mp hj with hlt | rfl
      · rw [hnone j hlt] at hcand
        cases hcand
      · rw [if_pos hcand] at h
        cases h
        exact le_rfl
    | some best =>
      obtain ⟨hbest, hbestCand⟩ := scan_some hprev
      simp only [hprev] at h
      have hage : candidate n → beats n best = decide (age n < age best) :=
        fun hn => horders n best (Nat.lt_succ_self n)
          (hbest.trans (Nat.lt_succ_self n)) hn hbestCand
      rcases Nat.lt_succ_iff_lt_or_eq.mp hj with hlt | rfl
      · have hold := ih hsmall hprev hlt
        split at h
        · rename_i hwins
          cases h
          rw [Bool.and_eq_true] at hwins
          have hless := hwins.2
          rw [hage hwins.1, decide_eq_true_iff] at hless
          exact hless.le.trans hold
        · cases h
          exact hold
      rw [hcand, Bool.true_and, hage hcand] at h
      split at h
      · cases h
        exact le_rfl
      · rename_i hloses
        cases h
        rw [decide_eq_true_iff] at hloses
        exact not_lt.mp hloses

/-- A candidate of least age is chosen when ages tell candidates apart. -/
theorem scan_eq_some_of_least (horders : Orders candidate beats n age)
    (hinj : ∀ j k, j < n → k < n → candidate j → candidate k → age j = age k → j = k)
    (hk : k < n) (hcand : candidate k)
    (hleast : ∀ j < n, candidate j → age k ≤ age j) : scan candidate beats n = some k := by
  cases h : scan candidate beats n with
  | none =>
    rw [scan_eq_none_iff.mp h k hk] at hcand
    cases hcand
  | some best =>
    obtain ⟨hbest, hbestCand⟩ := scan_some h
    have hle := scan_least horders h hk hcand
    have hge := hleast best hbest hbestCand
    rw [hinj best k hbest hk hbestCand hcand (le_antisymm hle hge)]

/-- The choice moves with the candidates when the array is rearranged. -/
theorem scan_perm {candidate' : Nat → Bool} {beats' : Nat → Nat → Bool}
    {age' : Nat → α} (perm : Equiv.Perm Nat) (hperm : ∀ k, perm k < n ↔ k < n)
    (hcand : ∀ k < n, candidate' (perm k) = candidate k)
    (hage : ∀ k < n, age' (perm k) = age k)
    (horders : Orders candidate beats n age)
    (horders' : Orders candidate' beats' n age')
    (hinj : ∀ j k, j < n → k < n → candidate j → candidate k →
      age j = age k → j = k) : scan candidate' beats' n = (scan candidate beats n).map perm := by
  have hback : ∀ j < n, ∃ k < n, perm k = j := by
    intro j hj
    refine ⟨perm.symm j, ?_, perm.apply_symm_apply j⟩
    rw [← hperm, perm.apply_symm_apply]
    exact hj
  cases h : scan candidate beats n with
  | none =>
    rw [Option.map_none, scan_eq_none_iff]
    intro j hj
    obtain ⟨k, hk, rfl⟩ := hback j hj
    rw [hcand k hk]
    exact scan_eq_none_iff.mp h k hk
  | some best =>
    obtain ⟨hbest, hbestCand⟩ := scan_some h
    rw [Option.map_some]
    apply scan_eq_some_of_least horders'
    · intro i j hi hj hci hcj heq
      obtain ⟨a, ha, rfl⟩ := hback i hi
      obtain ⟨b, hb, rfl⟩ := hback j hj
      rw [hcand a ha] at hci
      rw [hcand b hb] at hcj
      rw [hage a ha, hage b hb] at heq
      rw [hinj a b ha hb hci hcj heq]
    · exact (hperm best).mpr hbest
    · rw [hcand best hbest]
      exact hbestCand
    · intro j hj hcj
      obtain ⟨a, ha, rfl⟩ := hback j hj
      rw [hcand a ha] at hcj
      rw [hage best hbest, hage a ha]
      exact scan_least horders h ha hcj

end AgeScan
