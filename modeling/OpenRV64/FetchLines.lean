/-
The unread lines of the one-wide fetch unit: a run of banks around the ring that holds
consecutive lines from the one that is next.
-/
import OpenRV64.FetchFront
import Mathlib.Logic.Function.Iterate

namespace OpenRV64

open ScalarState (pcAfter)
open BitVec (ofNat toNat_add ofNat_add)

/-! ### Addresses and lines -/

def lineOf (pc : BitVec 64) : BitVec 61 := pc.extractLsb' 3 61

section

variable (pc : BitVec 64)

theorem toNat_lineOf : (lineOf pc).toNat = pc.toNat / 8 := by
  have hlt := pc.isLt
  rw [lineOf, BitVec.extractLsb'_toNat, Nat.shiftRight_eq_div_pow]
  omega

theorem getLsbD_two : pc.getLsbD 2 = decide (pc.toNat / 4 % 2 = 1) := by
  rw [BitVec.getLsbD, Nat.testBit_eq_decide_div_mod_eq]

theorem getLsbD_two_add : (pc + 4).getLsbD 2 = !pc.getLsbD 2 := by
  have hlt := pc.isLt
  rw [getLsbD_two, getLsbD_two, toNat_add, ← decide_not]
  exact decide_eq_decide.mpr (by change (pc.toNat + 4) % 2 ^ 64 / 4 % 2 = 1 ↔ _; omega)

theorem getLsbD_two_pcAfter : (pcAfter pc).getLsbD 2 = false := by
  have hlt := pc.isLt
  rw [pcAfter, getLsbD_two, getLsbD_two, toNat_add, decide_eq_false_iff_not]
  by_cases h : pc.toNat / 4 % 2 = 1
  · rw [if_pos (decide_eq_true h)]
    change ¬ (pc.toNat + 4) % 2 ^ 64 / 4 % 2 = 1
    omega
  · rw [if_neg (by rw [decide_eq_true_iff]; exact h)]
    change ¬ (pc.toNat + 8) % 2 ^ 64 / 4 % 2 = 1
    omega

theorem lineOf_add : lineOf (pc + 4) = lineOf pc + if pc.getLsbD 2 then 1 else 0 := by
  have hlt := pc.isLt
  apply BitVec.eq_of_toNat_eq
  rw [toNat_lineOf, toNat_add, toNat_add, toNat_lineOf, getLsbD_two]
  change (pc.toNat + 4) % 2 ^ 64 / 8 = _
  by_cases h : pc.toNat / 4 % 2 = 1
  · rw [if_pos (decide_eq_true h)]
    change _ = (pc.toNat / 8 + 1) % 2 ^ 61
    omega
  · rw [if_neg (by rw [decide_eq_true_iff]; exact h)]
    change _ = (pc.toNat / 8 + 0) % 2 ^ 61
    omega

end

theorem pcAfter_of_upper {pc : BitVec 64} (h : pc.getLsbD 2) : pcAfter pc = pc + 4 := by
  rw [pcAfter, if_pos h]

theorem pcAfter_of_lower {pc : BitVec 64} (h : pc.getLsbD 2 = false) : pcAfter pc = pc + 8 := by
  rw [pcAfter, h, if_low]

/-- The two words of a line have the same line after them. -/
theorem pcAfter_add {pc : BitVec 64} (h : pc.getLsbD 2 = false) :
    pcAfter (pc + 4) = pcAfter pc := by
  have hupper : (pc + 4).getLsbD 2 := by rw [getLsbD_two_add, h, Bool.not_false]
  rw [pcAfter_of_upper hupper, pcAfter_of_lower h, BitVec.add_assoc]
  rfl

theorem lineOf_pcAfter (pc : BitVec 64) : lineOf (pcAfter pc) = lineOf pc + 1 := by
  cases h : pc.getLsbD 2 with
  | true => rw [pcAfter_of_upper h, lineOf_add, h, if_pos rfl]
  | false =>
    have hupper : (pc + 4).getLsbD 2 := by rw [getLsbD_two_add, h, Bool.not_false]
    have hsame : lineOf (pc + 4) = lineOf pc := by
      rw [lineOf_add, h, if_low]
      exact BitVec.add_zero _
    rw [← pcAfter_add h, pcAfter_of_upper hupper, lineOf_add, hupper, if_pos rfl, hsame]

theorem lineOf_iterate (pc : BitVec 64) (n : Nat) :
    lineOf (pcAfter^[n] pc) = lineOf pc + ofNat 61 n := by
  induction n with
  | zero => exact (BitVec.add_zero _).symm
  | succ n ih =>
    rw [Function.iterate_succ_apply', lineOf_pcAfter, ih, BitVec.add_assoc]
    exact congrArg (lineOf pc + ·) (ofNat_add n 1).symm

theorem getLsbD_two_iterate (pc : BitVec 64) {n : Nat} (hn : 0 < n) :
    (pcAfter^[n] pc).getLsbD 2 = false := by
  obtain ⟨k, rfl⟩ := Nat.exists_eq_succ_of_ne_zero (Nat.ne_of_gt hn)
  rw [Function.iterate_succ_apply']
  exact getLsbD_two_pcAfter _

/-- Reading one word does not move the lines that come after it. -/
theorem iterate_add {pc : BitVec 64} {n : Nat} (hn : 0 < n) :
    pcAfter^[if pc.getLsbD 2 then n - 1 else n] (pc + 4) = pcAfter^[n] pc := by
  obtain ⟨k, rfl⟩ := Nat.exists_eq_succ_of_ne_zero (Nat.ne_of_gt hn)
  cases h : pc.getLsbD 2 with
  | true =>
    rw [if_pos rfl, Nat.succ_sub_one, Function.iterate_succ_apply, pcAfter_of_upper h]
  | false =>
    rw [if_low, Function.iterate_succ_apply, Function.iterate_succ_apply, pcAfter_add h]

/-! ### Places around the ring -/

/-- How many banks after `first` a bank comes. -/
def place (first bank : BitVec 3) : Nat := (bank - first).toNat

theorem place_self (first : BitVec 3) : place first first = 0 := by
  rw [place, BitVec.sub_self]
  rfl

theorem place_add (first : BitVec 3) {n : Nat} (hn : n < 8) :
    place first (first + ofNat 3 n) = n := by
  rw [place, BitVec.add_comm, BitVec.add_sub_cancel, BitVec.toNat_ofNat, Nat.mod_eq_of_lt hn]

theorem eq_add_place (first bank : BitVec 3) : bank = first + ofNat 3 (place first bank) := by
  rw [place, BitVec.ofNat_toNat, BitVec.setWidth_eq, BitVec.add_comm, BitVec.sub_add_cancel]

theorem place_eq_zero {first bank : BitVec 3} : place first bank = 0 ↔ bank = first := by
  constructor
  · intro h
    rw [eq_add_place first bank, h]
    exact BitVec.add_zero first
  · rintro rfl
    exact place_self bank

theorem place_eq_iff {first bank : BitVec 3} {n : Nat} (hn : n < 8) :
    place first bank = n ↔ bank = first + ofNat 3 n := by
  constructor
  · rintro rfl
    exact eq_add_place first bank
  · rintro rfl
    exact place_add first hn

theorem place_next : ∀ first bank : BitVec 3, bank ≠ first →
    place (first + 1) bank + 1 = place first bank := by
  decide

theorem place_last : ∀ first : BitVec 3, place (first + 1) first = 7 := by
  decide

/-! ### The unread lines -/

/-- The line that a bank holds. -/
def lineAt (cells : BitVec 3 → FetchBuffer) (bank : BitVec 3) : BitVec 61 :=
  (cells bank).lineTag ++ bank.extractLsb' 0 1

/-- The `n` banks from `first` on hold the unread lines, from that of `next` on; what lies
before `next` in the first of them has been read. -/
structure Queued (cells : BitVec 3 → FetchBuffer) (first : BitVec 3) (next : BitVec 64)
    (n : Nat) : Prop where
  le : n ≤ 8
  count : ∀ bank, (cells bank).count =
    if place first bank < n then if bank = first then unreadFrom next else 2 else 0
  line : ∀ bank, place first bank < n →
    lineAt cells bank = lineOf next + BitVec.ofNat 61 (place first bank)
  resident : ∀ bank, place first bank < n → (cells bank).resident = true

section Queued

variable {cells cells' : BitVec 3 → FetchBuffer} {first bank : BitVec 3} {next : BitVec 64}
  {n : Nat}

theorem unreadFrom_ne_zero (pc : BitVec 64) : unreadFrom pc ≠ 0 := by
  rw [unreadFrom]
  split <;> decide

/-- A bank is unread just when it is one of the `n`. -/
theorem Queued.unread_iff (h : Queued cells first next n) :
    (cells bank).count ≠ 0 ↔ place first bank < n := by
  rw [h.count]
  split
  · rename_i hplc
    refine ⟨fun _ => hplc, fun _ => ?_⟩
    split
    · exact unreadFrom_ne_zero next
    · decide
  · rename_i hplc
    exact ⟨fun hne => absurd rfl hne, fun hlt => absurd hlt hplc⟩

theorem Queued.first_unread (h : Queued cells first next n) : (cells first).count ≠ 0 ↔ 0 < n := by
  rw [h.unread_iff, place_self]

theorem queued_empty (hcnt : ∀ bank, (cells bank).count = 0) (first : BitVec 3)
    (next : BitVec 64) : Queued cells first next 0 where
  le := Nat.zero_le 8
  count bank := by rw [hcnt, if_neg (Nat.not_lt_zero _)]
  line _ h := absurd h (Nat.not_lt_zero _)
  resident _ h := absurd h (Nat.not_lt_zero _)

/-- Only the unread banks matter, and the counts. -/
theorem Queued.keep (h : Queued cells first next n)
    (hcnt : ∀ bank, (cells' bank).count = (cells bank).count)
    (htag : ∀ bank, (cells' bank).lineTag = (cells bank).lineTag)
    (hresid : ∀ bank, place first bank < n → (cells' bank).resident = (cells bank).resident) :
    Queued cells' first next n where
  le := h.le
  count bank := (hcnt bank).trans (h.count bank)
  line bank hplc := by rw [lineAt, htag, ← h.line bank hplc, lineAt]
  resident bank hplc := (hresid bank hplc).trans (h.resident bank hplc)

/-- One word of the first bank is read. -/
def popped (cells : BitVec 3 → FetchBuffer) (first bank : BitVec 3) : FetchBuffer :=
  if bank == first then { cells bank with count := (cells bank).count - 1 } else cells bank

theorem Queued.pop (h : Queued cells first next n) (hn : 0 < n) :
    Queued (popped cells first) (if next.getLsbD 2 then first + 1 else first) (next + 4)
      (if next.getLsbD 2 then n - 1 else n) := by
  have hoth : ∀ bank, bank ≠ first → popped cells first bank = cells bank := fun bank hne =>
    if_neg (by rw [beq_iff_eq]; exact hne)
  have hself : popped cells first first = { cells first with count := unreadFrom next - 1 } := by
    rw [popped, if_pos (beq_self_eq_true first), h.count, if_pos (by rw [place_self]; exact hn),
      if_pos rfl]
  have hle := h.le
  cases hupper : next.getLsbD 2 with
  | true =>
    rw [if_pos rfl, if_pos rfl]
    have hz : unreadFrom next - 1 = 0 := by
      rw [unreadFrom, hupper]
      rfl
    have hfull : unreadFrom (next + 4) = 2 := by
      rw [unreadFrom, getLsbD_two_add, hupper]
      rfl
    have hgone : ∀ bank, place (first + 1) bank < n - 1 → bank ≠ first := by
      rintro bank hlt rfl
      rw [place_last] at hlt
      omega
    have hcells : ∀ bank, place (first + 1) bank < n - 1 →
        place first bank < n ∧ popped cells first bank = cells bank := fun bank hlt => by
      have hnxt := place_next first bank (hgone bank hlt)
      exact ⟨by omega, hoth bank (hgone bank hlt)⟩
    refine ⟨by omega, fun bank => ?_, fun bank hlt => ?_, fun bank hlt => ?_⟩
    · by_cases hbank : bank = first
      · subst hbank
        rw [hself, place_last, if_neg (by omega)]
        exact hz
      · have hnxt := place_next first bank hbank
        rw [hoth bank hbank, h.count, hfull, if_neg hbank, ite_self]
        exact if_congr (by omega) rfl rfl
    · obtain ⟨hplc, hcell⟩ := hcells bank hlt
      have hnxt := place_next first bank (hgone bank hlt)
      rw [lineAt, hcell, ← lineAt, h.line bank hplc, lineOf_add, hupper, if_pos rfl,
        BitVec.add_assoc, ← hnxt, BitVec.add_comm 1]
      exact congrArg (lineOf next + ·) (ofNat_add _ 1)
    · obtain ⟨hplc, hcell⟩ := hcells bank hlt
      rw [hcell]
      exact h.resident bank hplc
  | false =>
    rw [if_low, if_low]
    have hline : lineOf (next + 4) = lineOf next := by
      rw [lineOf_add, hupper, if_low]
      exact BitVec.add_zero _
    have hone : unreadFrom next - 1 = unreadFrom (next + 4) := by
      rw [unreadFrom, unreadFrom, getLsbD_two_add, hupper]
      rfl
    have hsame : ∀ bank, (popped cells first bank).lineTag = (cells bank).lineTag ∧
        (popped cells first bank).resident = (cells bank).resident := fun bank => by
      by_cases hbank : bank = first
      · rw [hbank, hself]
        exact ⟨rfl, rfl⟩
      · rw [hoth bank hbank]
        exact ⟨rfl, rfl⟩
    refine ⟨hle, fun bank => ?_, fun bank hlt => ?_, fun bank hlt => ?_⟩
    · by_cases hbank : bank = first
      · subst hbank
        rw [hself, place_self, if_pos hn, if_pos rfl]
        exact hone
      · rw [hoth bank hbank, h.count, if_neg hbank, if_neg hbank]
    · rw [lineAt, (hsame bank).1, hline]
      exact h.line bank hlt
    · rw [(hsame bank).2]
      exact h.resident bank hlt

/-- The bank after the last one takes the next line. -/
theorem Queued.push (h : Queued cells first next n) (hn : n < 8)
    (hoth : ∀ bank, bank ≠ first + ofNat 3 n → cells' bank = cells bank)
    (hcnt : (cells' (first + ofNat 3 n)).count = unreadFrom (pcAfter^[n] next))
    (hline : lineAt cells' (first + ofNat 3 n) = lineOf (pcAfter^[n] next))
    (hresid : (cells' (first + ofNat 3 n)).resident) : Queued cells' first next (n + 1) := by
  have hcases : ∀ bank, bank = first + ofNat 3 n ∧ place first bank = n ∨
      cells' bank = cells bank ∧ place first bank ≠ n := fun bank => by
    by_cases hplc : place first bank = n
    · exact .inl ⟨(place_eq_iff hn).mp hplc, hplc⟩
    · exact .inr ⟨hoth bank fun hbank => hplc ((place_eq_iff hn).mpr hbank), hplc⟩
  refine ⟨hn, fun bank => ?_, fun bank hlt => ?_, fun bank hlt => ?_⟩
  · rcases hcases bank with ⟨rfl, hplc⟩ | ⟨hcell, hplc⟩
    · rw [hcnt, hplc, if_pos (Nat.lt_succ_self n)]
      rcases Nat.eq_zero_or_pos n with rfl | hpos
      · rw [if_pos (BitVec.add_zero first)]
        rfl
      · rw [if_neg fun hbank => Nat.ne_of_gt hpos (hplc.symm.trans (place_eq_zero.mpr hbank)),
          unreadFrom, getLsbD_two_iterate next hpos, if_low]
    · rw [hcell, h.count]
      exact if_congr (by omega) rfl rfl
  · rcases hcases bank with ⟨rfl, hplc⟩ | ⟨hcell, hplc⟩
    · rw [hline, lineOf_iterate, hplc]
    · rw [lineAt, hcell]
      exact h.line bank (by omega)
  · rcases hcases bank with ⟨rfl, hplc⟩ | ⟨hcell, hplc⟩
    · exact hresid
    · rw [hcell]
      exact h.resident bank (by omega)

end Queued

end OpenRV64
