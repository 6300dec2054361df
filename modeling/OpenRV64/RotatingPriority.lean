/-
Round-robin choice among finitely many requesters: the scan starts at a pointer, the
pointer moves behind whoever was served, and the number of requesters that stand before a
given one is what it may still be passed over.
-/
import Mathlib.Data.List.FinRange
import Mathlib.Tactic.Common

namespace RotatingPriority

variable {n : ℕ}

/-- The requesters from a first one on. -/
def scan (first : Fin n) : List (Fin n) := (List.finRange n).map (first + ·)

/-- How many requesters a scan meets before `x`. -/
def ahead (first x : Fin n) : ℕ :=
  if first.val ≤ x.val then x.val - first.val else x.val + n - first.val

/-- The requester behind `x`. -/
def next (x : Fin n) : Fin n := if h : x.val + 1 < n then ⟨x.val + 1, h⟩ else ⟨0, x.pos⟩

theorem ahead_lt (first x : Fin n) : ahead first x < n := by
  have hx := x.isLt
  rw [ahead]
  split_ifs with h
  · omega
  · omega

theorem add_ahead (first x : Fin n) : first + ⟨ahead first x, ahead_lt first x⟩ = x := by
  apply Fin.ext
  rw [Fin.val_add]
  show (first.val + ahead first x) % n = x.val
  have hx := x.isLt
  have hfst := first.isLt
  rw [ahead]
  split_ifs with h
  · rw [Nat.add_sub_cancel' h, Nat.mod_eq_of_lt hx]
  · rw [show first.val + (x.val + n - first.val) = x.val + n by omega, Nat.add_mod_right,
      Nat.mod_eq_of_lt hx]

theorem scan_getElem? (first : Fin n) {k : ℕ} (hk : k < n) :
    (scan first)[k]? = some (first + ⟨k, hk⟩) := by
  simp [scan, hk]

/-- The place of a requester in the scan is the number of requesters before it. -/
theorem scan_ahead (first x : Fin n) : (scan first)[ahead first x]? = some x := by
  rw [scan_getElem? first (ahead_lt first x), add_ahead]

/-- Two places of the scan hold different requesters. -/
theorem ahead_of_getElem? {first x : Fin n} {k : ℕ} (h : (scan first)[k]? = some x) :
    ahead first x = k := by
  have hk : k < n := by
    have hlen := List.getElem?_eq_some_iff.mp h
    simpa [scan] using hlen.1
  rw [scan_getElem? first hk] at h
  have hx : x.val = (first.val + k) % n := by
    rw [← Option.some.inj h, Fin.val_add]
  have hfst := first.isLt
  rw [ahead, hx]
  by_cases hwrap : first.val + k < n
  · rw [Nat.mod_eq_of_lt hwrap, if_pos (by omega)]
    omega
  · rw [Nat.mod_eq_sub_mod (by omega), Nat.mod_eq_of_lt (by omega), if_neg (by omega)]
    omega

/-- The one chosen stands before every other ready requester. -/
theorem ahead_le_of_find {first chosen x : Fin n} {ready : Fin n → Bool}
    (h : (scan first).find? ready = some chosen) (hrdy : ready x) :
    ahead first chosen ≤ ahead first x := by
  obtain ⟨-, k, hk, hchosen, hbef⟩ := List.find?_eq_some_iff_getElem.mp h
  have hplc : ahead first chosen = k :=
    ahead_of_getElem? (List.getElem?_eq_some_iff.mpr ⟨hk, hchosen⟩)
  rw [hplc]
  by_contra hlt
  have hnot := hbef (ahead first x) (Nat.lt_of_not_le hlt)
  obtain ⟨hlen, hx⟩ := List.getElem?_eq_some_iff.mp (scan_ahead first x)
  rw [hx, hrdy] at hnot
  exact absurd hnot (by decide)

/-- Serving a requester that stands before `x` brings `x` forward. -/
theorem next_ahead_lt {first chosen x : Fin n} (hne : chosen ≠ x)
    (h : ahead first chosen ≤ ahead first x) : ahead (next chosen) x < ahead first x := by
  have hx := x.isLt
  have hfst := first.isLt
  have hval : chosen.val ≠ x.val := fun heq => hne (Fin.ext heq)
  have hnxt : (next chosen).val = if chosen.val + 1 < n then chosen.val + 1 else 0 := by
    rw [next]
    split_ifs <;> rfl
  simp only [ahead, hnxt] at h ⊢
  split_ifs at h ⊢ <;> omega

end RotatingPriority
