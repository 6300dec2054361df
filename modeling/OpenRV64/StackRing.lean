/-
A stack kept in a ring: the pointer runs through the cells modulo their number, and a push into
a full ring writes over the oldest entry.
-/
import Mathlib.Algebra.Group.Nat.Defs

namespace StackRing

variable {α : Type} {w n : ℕ} {cells : BitVec w → α} {sp : BitVec w} {x : α} {xs : List α}

/-- The `n` cells below the pointer hold the top of the stack `xs`, the last pushed first. -/
structure Holds (cells : BitVec w → α) (sp : BitVec w) (n : ℕ) (xs : List α) : Prop where
  fits : n ≤ 2 ^ w
  cell : ∀ k < n, xs[k]? = some (cells (sp - BitVec.ofNat w (k + 1)))

theorem holds_empty : Holds cells sp 0 xs := ⟨Nat.zero_le _, nofun⟩

theorem Holds.top (h : Holds cells sp n xs) (hn : 0 < n) : xs.head? = some (cells (sp - 1)) := by
  rw [List.head?_eq_getElem?]
  exact h.cell 0 hn

/-- The cells below the pointer are apart from the one it names. -/
theorem sub_ofNat_ne {k : ℕ} (hpos : 0 < k) (hk : k < 2 ^ w) : sp - BitVec.ofNat w k ≠ sp := by
  intro heq
  have hz : BitVec.ofNat w k = 0#w := by grind
  have hnat := congrArg BitVec.toNat hz
  rw [BitVec.toNat_ofNat, Nat.mod_eq_of_lt hk, BitVec.toNat_ofNat, Nat.zero_mod] at hnat
  exact Nat.ne_of_gt hpos hnat

theorem Holds.push (h : Holds cells sp n xs) {n' : ℕ} (hle : n' ≤ n + 1) (hfits : n' ≤ 2 ^ w) :
    Holds (fun c => if c = sp then x else cells c) (sp + 1) n' (x :: xs) := by
  refine ⟨hfits, fun k hk => ?_⟩
  have hcell : sp + 1 - BitVec.ofNat w (k + 1) = sp - BitVec.ofNat w k := by
    rw [BitVec.ofNat_add]
    grind
  rw [hcell]
  cases k with
  | zero => simp
  | succ k =>
    rw [if_neg (sub_ofNat_ne (Nat.succ_pos k) (Nat.lt_of_lt_of_le hk hfits))]
    exact h.cell k (by omega)

theorem Holds.pop (h : Holds cells sp (n + 1) xs) : Holds cells (sp - 1) n xs.tail := by
  refine ⟨Nat.le_of_succ_le h.fits, fun k hk => ?_⟩
  have hcell : sp - 1 - BitVec.ofNat w (k + 1) = sp - BitVec.ofNat w (k + 1 + 1) := by
    rw [BitVec.ofNat_add (k + 1) 1]
    grind
  rw [List.getElem?_tail, hcell]
  exact h.cell (k + 1) (Nat.succ_lt_succ hk)

end StackRing
