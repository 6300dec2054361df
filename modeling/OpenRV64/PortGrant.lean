/-
Requests in a fixed order that compete for the places of their banks: each bank serves the
first of its requests, up to its limit, and the number of those before it is the place of a
granted request.
-/
import Mathlib.Data.Nat.Count
import Mathlib.Tactic.Common

namespace PortGrant

/-- The last number below `n` of which `f` holds: what a loop over ascending numbers keeps. -/
def last (f : ℕ → Bool) : ℕ → Option ℕ
  | 0 => none
  | n + 1 => if f n then some n else last f n

section Last

variable {f g : ℕ → Bool} {n m : ℕ}

theorem last_eq_none_iff : last f n = none ↔ ∀ k < n, f k = false := by
  induction n with
  | zero => simp [last]
  | succ n ih =>
    rw [last]
    cases hf : f n with
    | true =>
      refine iff_of_false (Option.some_ne_none n) fun h => ?_
      exact absurd (h n (Nat.lt_succ_self n)) (by rw [hf]; exact nofun)
    | false =>
      rw [if_neg Bool.false_ne_true, ih, Nat.forall_lt_succ_right, and_iff_left hf]

theorem last_eq_some_iff :
    last f n = some m ↔ m < n ∧ f m = true ∧ ∀ k, m < k → k < n → f k = false := by
  induction n with
  | zero => simp [last]
  | succ n ih =>
    rw [last]
    cases hf : f n with
    | true =>
      rw [if_pos rfl, Option.some.injEq]
      constructor
      · rintro rfl
        exact ⟨Nat.lt_succ_self n, hf, fun k hk hlt => absurd hlt (by omega)⟩
      · rintro ⟨hm, -, hlater⟩
        rcases Nat.lt_succ_iff_lt_or_eq.mp hm with hlt | rfl
        · exact absurd (hf.symm.trans (hlater n hlt (Nat.lt_succ_self n))) (by decide)
        · rfl
    | false =>
      rw [if_neg Bool.false_ne_true, ih]
      constructor
      · rintro ⟨hm, hfm, hlater⟩
        refine ⟨Nat.lt_succ_of_lt hm, hfm, fun k hk hlt => ?_⟩
        rcases Nat.lt_succ_iff_lt_or_eq.mp hlt with hlt | rfl
        · exact hlater k hk hlt
        · exact hf
      · rintro ⟨hm, hfm, hlater⟩
        have hne : m ≠ n := by
          rintro rfl
          exact absurd (hf.symm.trans hfm) (by decide)
        exact ⟨by omega, hfm, fun k hk hlt => hlater k hk (Nat.lt_succ_of_lt hlt)⟩

/-- The one number of which `f` holds is the last one. -/
theorem last_eq_of_unique (hm : m < n) (hf : f m = true) (hone : ∀ k, f k = true → k = m) :
    last f n = some m :=
  last_eq_some_iff.mpr ⟨hm, hf, fun k hk _ => Bool.eq_false_iff.mpr fun h => by
    have := hone k h
    omega⟩

/-- A map that keeps the order takes the last to the last. -/
theorem last_map {l : ℕ} (place : ℕ → ℕ)
    (hto : ∀ k < n, f k = true → place k < l ∧ g (place k) = true)
    (hfrom : ∀ j < l, g j = true → ∃ k < n, f k = true ∧ place k = j)
    (hmono : ∀ k k', f k = true → f k' = true → place k < place k' → k < k') :
    last g l = (last f n).map place := by
  cases hlast : last f n with
  | none =>
    rw [last_eq_none_iff] at hlast
    refine last_eq_none_iff.mpr fun j hj => Bool.eq_false_iff.mpr fun hg => ?_
    obtain ⟨k, hk, hf, -⟩ := hfrom j hj hg
    exact absurd ((hlast k hk).symm.trans hf) (by decide)
  | some k =>
    obtain ⟨hk, hf, hlater⟩ := last_eq_some_iff.mp hlast
    obtain ⟨hplc, hg⟩ := hto k hk hf
    refine last_eq_some_iff.mpr ⟨hplc, hg, fun j hj hlt => Bool.eq_false_iff.mpr fun hg' => ?_⟩
    obtain ⟨k', hk', hf', rfl⟩ := hfrom j hlt hg'
    exact absurd ((hlater k' (hmono k k' hf hf' hj) hk').symm.trans hf') (by decide)

end Last

variable (bank : ℕ → Option ℕ) (limit : ℕ)

/-- How many of the first requests bank `b` serves. -/
def use : ℕ → ℕ → ℕ
  | 0, _ => 0
  | n + 1, b => use n b + if bank n = some b ∧ use n b < limit then 1 else 0

/-- Bank `b` serves request `n`. -/
def Granted (n b : ℕ) : Prop := bank n = some b ∧ use bank limit n b < limit

variable {bank limit} {n m b : ℕ}

section Count

variable {f : ℕ → Prop} [DecidablePred f]

/-- A bank serves its first requests, up to the limit. -/
theorem use_eq_min (hf : ∀ k, f k ↔ bank k = some b) :
    use bank limit n b = min (Nat.count f n) limit := by
  induction n with
  | zero => rw [use, Nat.count_zero, Nat.zero_min]
  | succ n ih =>
    rw [use, Nat.count_succ, ih]
    by_cases hn : bank n = some b
    · simp only [hn, hf, true_and, if_true]
      split_ifs <;> omega
    · rw [if_neg fun h => hn h.1, if_neg fun h => hn ((hf n).mp h), Nat.add_zero, Nat.add_zero]

/-- The served requests of a bank are as many as the places that it has given. -/
theorem count_granted (hf : ∀ k, f k ↔ Granted bank limit k b) :
    Nat.count f n = use bank limit n b := by
  induction n with
  | zero => rfl
  | succ n ih =>
    rw [use, Nat.count_succ, ih]
    exact congrArg _ (if_congr (hf n) rfl rfl)

end Count

theorem use_le : use bank limit n b ≤ limit := by
  rw [use_eq_min fun _ => Iff.rfl]
  exact min_le_right _ _

theorem use_mono (h : m ≤ n) : use bank limit m b ≤ use bank limit n b := by
  rw [use_eq_min fun _ => Iff.rfl, use_eq_min fun _ => Iff.rfl]
  exact min_le_min_right _ (Nat.count_monotone _ h)

theorem use_lt (h : Granted bank limit m b) (hlt : m < n) :
    use bank limit m b < use bank limit n b := by
  have hle : use bank limit (m + 1) b ≤ use bank limit n b := use_mono hlt
  rw [use, if_pos ⟨h.1, h.2⟩] at hle
  omega

/-- Places are given in the order of the requests. -/
theorem lt_of_use_lt (h : use bank limit m b < use bank limit n b) : m < n := by
  by_contra hnot
  have hle : use bank limit n b ≤ use bank limit m b := use_mono (Nat.le_of_not_lt hnot)
  omega

/-- No two requests have the same place. -/
theorem place_unique (h : Granted bank limit m b) (h' : Granted bank limit n b)
    (heq : use bank limit m b = use bank limit n b) : m = n := by
  rcases Nat.lt_trichotomy m n with hlt | heq' | hgt
  · have hless := use_lt h hlt
    omega
  · exact heq'
  · have hless := use_lt h' hgt
    omega

/-- A request that is not served takes no place. -/
theorem use_update (hno : ∀ b, ¬ Granted bank limit m b) :
    use (fun k => if k = m then none else bank k) limit n b = use bank limit n b := by
  induction n with
  | zero => rfl
  | succ n ih =>
    rw [use, use, ih]
    by_cases hn : n = m
    · subst hn
      rw [if_pos rfl, if_neg (fun h => by cases h.1), if_neg fun h => hno b ⟨h.1, h.2⟩]
    · rw [if_neg hn]

end PortGrant
