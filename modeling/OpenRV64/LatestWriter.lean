/-
What an instruction reads from a register while earlier instructions are still in
flight: the value of the latest of them that writes it, or the committed value.

Instructions are known by their number in program order.  Nothing here names a
particular machine.
-/
import Mathlib.Data.Set.Basic

namespace LatestWriter

universe u v

/-- The instructions in flight, what each of them writes, and the values known so far. -/
@[ext]
structure Flight (Reg : Type u) (Val : Type v) where
  live : Set Nat
  writes : Nat → Option Reg
  result : Nat → Option Val
  committed : Reg → Val

variable {Reg : Type u} {Val : Type v}

/-- Instruction `m` is the latest one in flight before `n` that writes `r`. -/
structure Producer (f : Flight Reg Val) (r : Reg) (n m : Nat) : Prop where
  live : m ∈ f.live
  writes : f.writes m = some r
  older : m < n
  latest : ∀ k ∈ f.live, f.writes k = some r → k < n → k ≤ m

/-- No instruction in flight before `n` writes `r`. -/
def Settled (f : Flight Reg Val) (r : Reg) (n : Nat) : Prop :=
  ∀ k ∈ f.live, k < n → f.writes k ≠ some r

/-- Instruction `n` reads `v` from `r`. -/
def Reads (f : Flight Reg Val) (r : Reg) (n : Nat) (v : Val) : Prop :=
  (∃ m, Producer f r n m ∧ f.result m = some v) ∨ (Settled f r n ∧ f.committed r = v)

/-- What a reader keeps of a register: a value, or the number of its producer. -/
inductive Source (Val : Type v) where
  | value (v : Val)
  | waits (m : Nat)

/-- The source of instruction `n` for register `r` is right. -/
def Tracks (f : Flight Reg Val) (r : Reg) (n : Nat) : Source Val → Prop
  | .value v => Reads f r n v
  | .waits m => Producer f r n m ∧ f.result m = none

/-- What a table of producers keeps of a register: nothing, or the latest writer and
what it is known to produce. -/
abbrev Owner (Val : Type v) := Option (Nat × Option Val)

/-- The table's entry for `r` is right for an instruction numbered `n`. -/
def Owns (f : Flight Reg Val) (r : Reg) (n : Nat) : Owner Val → Prop
  | none => Settled f r n
  | some (m, known) => Producer f r n m ∧ f.result m = known

section Facts

variable {f : Flight Reg Val} {r : Reg} {n m : Nat}

theorem Owns.tracks {o : Owner Val} (h : Owns f r n o) : Tracks f r n
      (match o with
        | none => .value (f.committed r)
        | some (_, some v) => .value v
        | some (m, none) => .waits m) := by
  match o, h with
  | none, h => exact .inr ⟨h, rfl⟩
  | some (m, some v), h => exact .inl ⟨m, h⟩
  | some (m, none), h => exact h

end Facts

/-! ## What may happen to the instructions in flight -/

namespace Flight

variable (f : Flight Reg Val)

/-- Values become known. -/
def answer (b : Nat → Option Val) : Flight Reg Val :=
  { f with result := fun m => (b m).or (f.result m) }

/-- Instruction `m` leaves, and what it wrote is committed. -/
def commit [DecidableEq Reg] (m : Nat) : Flight Reg Val :=
  { f with
    live := {k ∈ f.live | k ≠ m}
    committed := fun r =>
      if f.writes m = some r then (f.result m).getD (f.committed r) else f.committed r }

/-- Instructions leave one after the other. -/
def commits [DecidableEq Reg] (ms : List Nat) : Flight Reg Val := ms.foldl (fun g m => g.commit m) f

/-- The instructions that `P` does not hold of leave without a trace. -/
def keep (P : Nat → Prop) : Flight Reg Val :=
  { f with live := {k ∈ f.live | P k} }

/-- Instruction `m` joins. -/
def join (m : Nat) (w : Option Reg) : Flight Reg Val :=
  { f with
    live := {k | k ∈ f.live ∨ k = m}
    writes := fun k => if k = m then w else f.writes k
    result := fun k => if k = m then none else f.result k }

end Flight

section Answer

variable {f : Flight Reg Val} {r : Reg} {n : Nat} {b : Nat → Option Val}

/-- A reader that waits takes the value that its producer answers. -/
def Source.wake (b : Nat → Option Val) : Source Val → Source Val
  | .value v => .value v
  | .waits m => match b m with
    | some v => .value v
    | none => .waits m

theorem producer_answer {m : Nat} : Producer (f.answer b) r n m ↔ Producer f r n m :=
  ⟨fun h => ⟨h.live, h.writes, h.older, h.latest⟩, fun h => ⟨h.live, h.writes, h.older, h.latest⟩⟩

/-- No reader misses an answer, and no answer changes a value that was known. -/
theorem Tracks.answer {x : Source Val} (h : Tracks f r n x)
    (hfresh : ∀ m, f.result m ≠ none → b m = none) : Tracks (f.answer b) r n (x.wake b) := by
  cases x with
  | value v =>
    rcases h with ⟨m, hm, hv⟩ | h
    · refine .inl ⟨m, producer_answer.mpr hm, ?_⟩
      change (b m).or (f.result m) = some v
      rw [hfresh m (by rw [hv]; exact Option.some_ne_none v), Option.none_or, hv]
    · exact .inr h
  | waits m =>
    rw [Source.wake]
    split
    · rename_i v hv
      refine .inl ⟨m, producer_answer.mpr h.1, ?_⟩
      change (b m).or (f.result m) = some v
      rw [hv, Option.some_or]
    · rename_i hnone
      refine ⟨producer_answer.mpr h.1, ?_⟩
      change (b m).or (f.result m) = none
      rw [hnone, Option.none_or, h.2]

theorem Owns.answer {o : Owner Val} (h : Owns f r n o) :
    Owns (f.answer b) r n (o.map fun x => (x.1, (b x.1).or x.2)) := by
  match o, h with
  | none, h => exact h
  | some (m, known), h =>
    refine ⟨producer_answer.mpr h.1, ?_⟩
    change (b m).or (f.result m) = (b m).or known
    rw [h.2]

end Answer

section Commit

variable [DecidableEq Reg] {f : Flight Reg Val} {r : Reg} {n m : Nat}

theorem producer_commit_of_ne {k : Nat} (h : Producer f r n k) (hne : k ≠ m) :
    Producer (f.commit m) r n k :=
  ⟨⟨h.live, hne⟩, h.writes, h.older, fun j hj => h.latest j hj.1⟩

/-- The oldest writer leaves no other behind that a reader could have meant. -/
theorem settled_commit (h : Producer f r n m) (holdest : ∀ k ∈ f.live, m ≤ k) :
    Settled (f.commit m) r n := fun k hk hlt hwrs =>
  hk.2 (Nat.le_antisymm (h.latest k hk.1 hwrs hlt) (holdest k hk.1))

theorem settled_commit_of_settled (h : Settled f r n) : Settled (f.commit m) r n :=
  fun k hk hlt => h k hk.1 hlt

/-- The oldest instruction leaves with a known value, and every reader still has what it
read. -/
theorem Reads.commit {v : Val} (h : Reads f r n v) (holdest : ∀ k ∈ f.live, m ≤ k)
    (hlive : m ∈ f.live) (hlt : m < n) : Reads (f.commit m) r n v := by
  rcases h with ⟨k, hk, hv⟩ | ⟨hsettled, hv⟩
  · by_cases hkm : k = m
    · refine .inr ⟨settled_commit (hkm ▸ hk) holdest, ?_⟩
      change (if f.writes m = some r then _ else _) = v
      rw [if_pos (hkm ▸ hk.writes), ← hkm, hv, Option.getD_some]
    · exact .inl ⟨k, producer_commit_of_ne hk hkm, hv⟩
  · refine .inr ⟨settled_commit_of_settled hsettled, ?_⟩
    change (if f.writes m = some r then _ else _) = v
    rw [if_neg (hsettled m hlive hlt), hv]

theorem Tracks.commit {x : Source Val} (h : Tracks f r n x)
    (holdest : ∀ k ∈ f.live, m ≤ k) (hlive : m ∈ f.live) (hlt : m < n)
    (hknown : f.writes m ≠ none → f.result m ≠ none) : Tracks (f.commit m) r n x := by
  cases x with
  | value v => exact Reads.commit h holdest hlive hlt
  | waits k =>
    refine ⟨producer_commit_of_ne h.1 ?_, h.2⟩
    rintro rfl
    refine hknown ?_ h.2
    rw [h.1.writes]
    exact Option.some_ne_none r

theorem Owns.commit {o : Owner Val} (h : Owns f r n o) (holdest : ∀ k ∈ f.live, m ≤ k) :
    Owns (f.commit m) r n (o.filter fun x => x.1 ≠ m) := by
  match o, h with
  | none, h => exact settled_commit_of_settled h
  | some (k, known), h =>
  by_cases hkm : k = m
  · rw [Option.filter_some, if_neg (by simpa using hkm)]
    exact settled_commit (hkm ▸ h.1) holdest
  · rw [Option.filter_some, if_pos (by simpa using hkm)]
    exact ⟨producer_commit_of_ne h.1 hkm, h.2⟩

/-- The numbers, in order, of the oldest instructions in flight. -/
structure Oldest (f : Flight Reg Val) (ms : List Nat) : Prop where
  sorted : ms.Pairwise (· < ·)
  live : ∀ m ∈ ms, m ∈ f.live
  first : ∀ k ∈ f.live, k ∉ ms → ∀ m ∈ ms, m < k

omit [DecidableEq Reg] in
theorem Oldest.head_le {ms : List Nat} (h : Oldest f (m :: ms)) : ∀ k ∈ f.live, m ≤ k := by
  intro k hk
  by_cases hmem : k ∈ m :: ms
  · rcases List.mem_cons.mp hmem with rfl | hmem
    · exact le_rfl
    · exact (List.rel_of_pairwise_cons h.sorted hmem).le
  · exact (h.first k hk hmem m List.mem_cons_self).le

theorem Oldest.tail {ms : List Nat} (h : Oldest f (m :: ms)) : Oldest (f.commit m) ms where
  sorted := h.sorted.of_cons
  live k hk := ⟨h.live k (List.mem_cons_of_mem _ hk), (List.rel_of_pairwise_cons h.sorted hk).ne'⟩
  first k hk hnone j hj := by
    refine h.first k hk.1 ?_ j (List.mem_cons_of_mem _ hj)
    rw [List.mem_cons, not_or]
    exact ⟨hk.2, hnone⟩

section

variable (f : Flight Reg Val) (ms : List Nat)

theorem commits_live : (f.commits ms).live = {k ∈ f.live | k ∉ ms} := by
  induction ms generalizing f with
  | nil => ext k; simp [Flight.commits]
  | cons m ms ih =>
    change ((f.commit m).commits ms).live = _
    rw [ih]
    ext k
    change (k ∈ f.live ∧ k ≠ m) ∧ k ∉ ms ↔ k ∈ f.live ∧ k ∉ m :: ms
    rw [List.mem_cons, not_or, and_assoc]

theorem commits_writes : (f.commits ms).writes = f.writes := by
  induction ms generalizing f with
  | nil => rfl
  | cons m ms ih => exact ih (f.commit m)

theorem commits_result : (f.commits ms).result = f.result := by
  induction ms generalizing f with
  | nil => rfl
  | cons m ms ih => exact ih (f.commit m)

end

/-- A reader keeps what it reads while the oldest instructions leave with their values. -/
theorem Tracks.commits {x : Source Val} {ms : List Nat} (h : Tracks f r n x)
    (holdest : Oldest f ms) (hlt : ∀ m ∈ ms, m < n)
    (hknown : ∀ m ∈ ms, f.writes m ≠ none → f.result m ≠ none) : Tracks (f.commits ms) r n x := by
  induction ms generalizing f with
  | nil => exact h
  | cons m ms ih =>
    apply ih (f := f.commit m)
    · exact h.commit holdest.head_le (holdest.live m List.mem_cons_self)
        (hlt m List.mem_cons_self) (hknown m List.mem_cons_self)
    · exact holdest.tail
    · exact fun k hk => hlt k (List.mem_cons_of_mem _ hk)
    · exact fun k hk => hknown k (List.mem_cons_of_mem _ hk)

theorem Owns.commits {o : Owner Val} {ms : List Nat} (h : Owns f r n o)
    (holdest : Oldest f ms) : Owns (f.commits ms) r n (o.filter fun x => x.1 ∉ ms) := by
  induction ms generalizing f o with
  | nil =>
    have hall : (o.filter fun x => decide (x.1 ∉ ([] : List Nat))) = o := by
      cases o <;> simp
    exact hall.symm ▸ h
  | cons m ms ih =>
    have hrest := ih (f := f.commit m) (h.commit holdest.head_le) holdest.tail
    rw [Option.filter_filter] at hrest
    have hsame : (o.filter fun x => decide (x.1 ≠ m) && decide (x.1 ∉ ms)) =
        o.filter fun x => decide (x.1 ∉ m :: ms) := by
      congr 1
      funext x
      rw [← Bool.decide_and, decide_eq_decide, List.mem_cons, not_or]
    exact hsame ▸ hrest

end Commit

section Keep

variable {f : Flight Reg Val} {r : Reg} {n : Nat} {P : Nat → Prop}

theorem producer_keep {m : Nat} (hkeep : ∀ k ∈ f.live, k < n → P k) :
    Producer (f.keep P) r n m ↔ Producer f r n m :=
  ⟨fun h => ⟨h.live.1, h.writes, h.older,
      fun k hk hwrs hlt => h.latest k ⟨hk, hkeep k hk hlt⟩ hwrs hlt⟩,
    fun h => ⟨⟨h.live, hkeep m h.live h.older⟩, h.writes, h.older, fun k hk => h.latest k hk.1⟩⟩

/-- An instruction whose older ones all stay reads what it read. -/
theorem Tracks.keep {x : Source Val} (h : Tracks f r n x)
    (hkeep : ∀ k ∈ f.live, k < n → P k) : Tracks (f.keep P) r n x := by
  cases x with
  | value v =>
    rcases h with ⟨m, hm, hv⟩ | ⟨hsettled, hv⟩
    · exact .inl ⟨m, (producer_keep hkeep).mpr hm, hv⟩
    · exact .inr ⟨fun k hk => hsettled k hk.1, hv⟩
  | waits m => exact ⟨(producer_keep hkeep).mpr h.1, h.2⟩

end Keep

section Join

variable {f : Flight Reg Val} {r : Reg} {n m : Nat} {w : Option Reg}

theorem join_writes_self : (f.join m w).writes m = w := if_pos rfl

theorem join_result_self : (f.join m w).result m = none := if_pos rfl

theorem join_writes_of_ne {k : Nat} (h : k ≠ m) : (f.join m w).writes k = f.writes k := if_neg h

theorem join_result_of_ne {k : Nat} (h : k ≠ m) : (f.join m w).result k = f.result k := if_neg h

theorem producer_join_of_le {k : Nat} (hnm : n ≤ m) :
    Producer (f.join m w) r n k ↔ Producer f r n k := by
  have hne : ∀ j < n, j ≠ m := fun j hj => by omega
  constructor
  · rintro ⟨hlive, hwrs, holder, hlatest⟩
    have hkm := hne k holder
    refine ⟨hlive.resolve_right hkm, ?_, holder, ?_⟩
    · rwa [join_writes_of_ne hkm] at hwrs
    · intro j hj hw hlt
      refine hlatest j (.inl hj) ?_ hlt
      rwa [join_writes_of_ne (hne j hlt)]
  · rintro ⟨hlive, hwrs, holder, hlatest⟩
    refine ⟨.inl hlive, ?_, holder, ?_⟩
    · rwa [join_writes_of_ne (hne k holder)]
    · intro j hj hw hlt
      rw [join_writes_of_ne (hne j hlt)] at hw
      exact hlatest j (hj.resolve_right (hne j hlt)) hw hlt

theorem settled_join_of_le (hnm : n ≤ m) : Settled (f.join m w) r n ↔ Settled f r n := by
  have hne : ∀ j < n, j ≠ m := fun j hj => by omega
  constructor
  · intro h k hk hlt hwrs
    refine h k (.inl hk) hlt ?_
    rwa [join_writes_of_ne (hne k hlt)]
  · intro h k hk hlt hwrs
    rw [join_writes_of_ne (hne k hlt)] at hwrs
    exact h k (hk.resolve_right (hne k hlt)) hlt hwrs

theorem Tracks.join {x : Source Val} (h : Tracks f r n x) (hnm : n ≤ m) :
    Tracks (f.join m w) r n x := by
  have hres : ∀ k < n, (f.join m w).result k = f.result k := fun k hk =>
    join_result_of_ne (by omega)
  cases x with
  | value v =>
    rcases h with ⟨k, hk, hv⟩ | ⟨hsettled, hv⟩
    · refine .inl ⟨k, (producer_join_of_le hnm).mpr hk, ?_⟩
      rw [hres k hk.older, hv]
    · exact .inr ⟨(settled_join_of_le hnm).mpr hsettled, hv⟩
  | waits k =>
    refine ⟨(producer_join_of_le hnm).mpr h.1, ?_⟩
    rw [hres k h.1.older, h.2]

/-- The newcomer is the latest writer of what it writes, and of nothing else. -/
theorem Owns.join [DecidableEq Reg] {o : Owner Val} (h : Owns f r m o)
    (hlive : ∀ k ∈ f.live, k < m) :
    Owns (f.join m w) r (m + 1) (if w = some r then some (m, none) else o) := by
  have hlt : ∀ k ∈ (f.join m w).live, k ≠ m → k ∈ f.live := fun k hk hkm =>
    hk.resolve_right hkm
  split
  · rename_i hw
    refine ⟨⟨.inr rfl, ?_, Nat.lt_succ_self m, fun k _ _ hk => Nat.lt_succ_iff.mp hk⟩, ?_⟩
    · rw [join_writes_self, hw]
    · exact join_result_self
  rename_i hw
  have hself : (f.join m w).writes m ≠ some r := by rwa [join_writes_self]
  match o, h with
  | none, h =>
    intro k hk _ hkr
    by_cases hkm : k = m
    · exact hself (hkm ▸ hkr)
    · rw [join_writes_of_ne hkm] at hkr
      exact h k (hlt k hk hkm) (hlive k (hlt k hk hkm)) hkr
  | some (j, known), h =>
    have hjm : j ≠ m := h.1.older.ne
    refine ⟨⟨.inl h.1.live, ?_, h.1.older.trans (Nat.lt_succ_self m), ?_⟩, ?_⟩
    · rw [join_writes_of_ne hjm, h.1.writes]
    · intro k hk hkr _
      by_cases hkm : k = m
      · exact absurd (hkm ▸ hkr) hself
      · rw [join_writes_of_ne hkm] at hkr
        exact h.1.latest k (hlt k hk hkm) hkr (hlive k (hlt k hk hkm))
    · rw [join_result_of_ne hjm, h.2]

end Join

end LatestWriter
