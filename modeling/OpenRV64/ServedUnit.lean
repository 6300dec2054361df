/-
Synchronous units that take requests, answer them in the order in which they were taken, and drop
what is unanswered on a flush.  Beside such a unit stand the requests that it has taken and not
dropped, and the answers that it has handed out.

Nothing here names a particular unit.
-/
import OpenRV64.SyncRun

namespace Sync

universe u v w x

/-- A unit and its ports.  What `shows` gives is handed out in a cycle that is `ready` for it; what
`takes` gives enters the unit unless there is a flush in the cycle. -/
structure Server (σ : Type u) (ι : Type v) (ρ : Type w) (α : Type x) extends Circuit σ ι where
  flush : ι → Bool
  ready : ι → Bool
  takes : σ → ι → Option ρ
  shows : σ → Option α

variable {σ σ' : Type u} {ι ι' : Type v} {ρ : Type w} {α : Type x}

/-- What a unit hands out in a cycle. -/
def Server.hands (srv : Server σ ι ρ α) (s : σ) (i : ι) : Option α :=
  if srv.ready i then srv.shows s else none

/-- A unit with its books. -/
structure Served (σ : Type u) (ρ : Type w) (α : Type x) where
  unit : σ
  /-- The requests that were taken and not dropped, in order. -/
  kept : List ρ
  returned : List α

/-- A cycle of the unit and of its books. -/
def Served.step (srv : Server σ ι ρ α) (t : Served σ ρ α) (i : ι) : Served σ ρ α where
  unit := srv.step t.unit i
  kept :=
    -- a flush drops what has not been handed out, and what is offered with it
    if srv.flush i then t.kept.take (t.returned ++ (srv.hands t.unit i).toList).length
    else t.kept ++ (srv.takes t.unit i).toList
  returned := t.returned ++ (srv.hands t.unit i).toList

/-- The unit together with its books, which start empty. -/
def Server.served (srv : Server σ ι ρ α) : Circuit (Served σ ρ α) ι where
  Init t := srv.Init t.unit ∧ t.kept = [] ∧ t.returned = []
  step := Served.step srv

/-! ## The properties -/

/-- The answers handed out are those to the requests kept, one for each and in order; `inside`
counts the requests that are unanswered, and only the answer to the first of them is shown. -/
structure Served.InOrder (srv : Server σ ι ρ α) (answer : ρ → α) (inside : σ → ℕ)
    (t : Served σ ρ α) : Prop where
  returned : t.returned = (t.kept.take t.returned.length).map answer
  missing : t.kept.length = t.returned.length + inside t.unit
  shown : ∀ a, srv.shows t.unit = some a → ∃ r, t.kept[t.returned.length]? = some r ∧ a = answer r

/-- While no flush comes, the answer to the oldest request in the unit is shown after `bound`
cycles at most, whatever is offered and whether answers would be taken or not. -/
def Served.Soon (srv : Server σ ι ρ α) (bound : ℕ) (t : Served σ ρ α) : Prop :=
  ∀ quiet : List ι, bound ≤ quiet.length → (∀ i ∈ quiet, srv.flush i = false) →
    t.returned.length < t.kept.length → ∃ n ≤ bound,
      let t' := (exec srv.served [] t (quiet.take n)).2
      (srv.shows t'.unit).isSome = true ∧ t.kept <+: t'.kept ∧ t'.returned = t.returned

/-- Two units hand out the same for the same requests: as many answers as both have handed out
agree if the requests do, and all do if all requests are answered. -/
structure Served.AgreesWith (inside : σ → ℕ) (t : Served σ ρ α) (inside' : σ' → ℕ)
    (t' : Served σ' ρ α) : Prop where
  first : ∀ n ≤ t.returned.length, n ≤ t'.returned.length → t.kept.take n = t'.kept.take n →
    t.returned.take n = t'.returned.take n
  all : t.kept = t'.kept → inside t.unit = 0 → inside' t'.unit = 0 → t.returned = t'.returned

/-! ## The rule -/

/-- What makes the books right: a unit in a state holds a list of requests, the oldest first, and
there is a bound on the cycles until the answer to that one is shown. -/
structure Server.Holding (srv : Server σ ι ρ α) (answer : ρ → α) (inside : σ → ℕ)
    (bound : ℕ) where
  Holds : σ → List ρ → ℕ → Prop
  reset : ∀ s, srv.Init s → Holds s [] 0
  count : ∀ s q n, Holds s q n → q.length = inside s
  within : ∀ s q n, Holds s q n → n ≤ bound
  pos : ∀ s q n, Holds s q n → q ≠ [] → srv.shows s = none → 0 < n
  shown : ∀ s q n a, Holds s q n → srv.shows s = some a → ∃ r rest, q = r :: rest ∧ a = answer r
  flushed : ∀ s i, srv.flush i = true → Holds (srv.step s i) [] 0
  step : ∀ s q n i, Holds s q n → srv.flush i = false → ∃ n', Holds (srv.step s i)
      ((if (srv.hands s i).isSome then q.tail else q) ++ (srv.takes s i).toList) n' ∧
    (q ≠ [] → srv.shows s = none → n' < n)

namespace Server.Holding

variable {srv : Server σ ι ρ α} {answer : ρ → α} {inside : σ → ℕ} {bound : ℕ}
  (h : srv.Holding answer inside bound) {t : Served σ ρ α} {i : ι}

/-- The requests kept are those answered and those that the unit holds. -/
def Books (t : Served σ ρ α) : Prop :=
  ∃ done q n, t.kept = done ++ q ∧ t.returned = done.map answer ∧ h.Holds t.unit q n

variable {h}

/-- Handing out moves the oldest request to those answered. -/
theorem hands_books {s : σ} {q : List ρ} {n : ℕ} (hholds : h.Holds s q n) (i : ι) :
    ∃ now rest, q = now ++ rest ∧ (if (srv.hands s i).isSome then q.tail else q) = rest ∧
      now.map answer = (srv.hands s i).toList := by
  cases hhands : srv.hands s i with
  | none => exact ⟨[], q, rfl, rfl, rfl⟩
  | some a =>
    have hshows : srv.shows s = some a := by
      unfold Server.hands at hhands
      split at hhands
      · exact hhands
      · simp at hhands
    obtain ⟨r, rest, rfl, rfl⟩ := h.shown s q n a hholds hshows
    exact ⟨[r], rest, rfl, rfl, rfl⟩

theorem Books.step (hbooks : h.Books t) : h.Books (t.step srv i) := by
  obtain ⟨done, q, n, hkept, hreturned, hholds⟩ := hbooks
  obtain ⟨now, rest, hq, hrest, hnow⟩ := hands_books hholds i
  have hreturned' : t.returned ++ (srv.hands t.unit i).toList = (done ++ now).map answer := by
    rw [hreturned, ← hnow, List.map_append]
  cases hfl : srv.flush i
  · obtain ⟨n', hnxt, -⟩ := h.step t.unit q n i hholds hfl
    rw [hrest] at hnxt
    refine ⟨done ++ now, _, n', ?_, hreturned', hnxt⟩
    simp only [Served.step, hfl, if_low]
    rw [hkept, hq]
    simp only [List.append_assoc]
  · refine ⟨done ++ now, [], 0, ?_, hreturned', h.flushed t.unit i hfl⟩
    simp only [Served.step, hfl, if_true]
    rw [hreturned', hkept, hq, ← List.append_assoc, List.length_map, List.take_left,
      List.append_nil]

theorem books_init (hinit : srv.served.Init t) : h.Books t := by
  obtain ⟨hinit, hkept, hreturned⟩ := hinit
  exact ⟨[], [], 0, hkept, hreturned, h.reset t.unit hinit⟩

theorem books_run {env : Past (Served σ ρ α) ι → Served σ ρ α → ι → Prop}
    {past : Past (Served σ ρ α) ι} (hrun : Run srv.served env past t) : h.Books t := by
  refine hrun.stateInvariant (P := h.Books) ?_ ?_
  · intro t hinit
    exact books_init hinit
  · intro past t i _ hbooks
    exact hbooks.step

theorem Books.inOrder (hbooks : h.Books t) : t.InOrder srv answer inside := by
  obtain ⟨done, q, n, hkept, hreturned, hholds⟩ := hbooks
  have hlen : t.returned.length = done.length := by rw [hreturned, List.length_map]
  constructor
  · rw [hlen, hkept, List.take_left, hreturned]
  · rw [hkept, hlen, List.length_append, h.count t.unit q n hholds]
  · intro a hshows
    obtain ⟨r, rest, rfl, rfl⟩ := h.shown t.unit q n a hholds hshows
    refine ⟨r, ?_, rfl⟩
    rw [hlen, hkept]
    simp

/-- The bound goes down until the answer is shown. -/
theorem soon_of_holds {done q : List ρ} {n : ℕ} (hkept : t.kept = done ++ q)
    (hholds : h.Holds t.unit q n) (hq : q ≠ []) (quiet : List ι) (hlong : n ≤ quiet.length)
    (hquiet : ∀ i ∈ quiet, srv.flush i = false) (past : Past (Served σ ρ α) ι) :
    ∃ k ≤ n, (srv.shows (exec srv.served past t (quiet.take k)).2.unit).isSome ∧
      t.kept <+: (exec srv.served past t (quiet.take k)).2.kept ∧
      (exec srv.served past t (quiet.take k)).2.returned = t.returned := by
  induction n using Nat.strong_induction_on generalizing t q quiet past with
  | _ n ih =>
  cases hshows : srv.shows t.unit with
  | some a =>
    refine ⟨0, Nat.zero_le _, ?_, List.prefix_refl _, rfl⟩
    rw [List.take_zero]
    exact Option.isSome_iff_exists.mpr ⟨a, hshows⟩
  | none =>
    have hhands (i : ι) : srv.hands t.unit i = none := by
      unfold Server.hands
      split
      · exact hshows
      · rfl
    cases quiet with
    | nil =>
      have hpos := h.pos t.unit q n hholds hq hshows
      simp only [List.length_nil] at hlong
      omega
    | cons i rest =>
      have hfl := hquiet i List.mem_cons_self
      obtain ⟨n', hnxt, hless⟩ := h.step t.unit q n i hholds hfl
      rw [hhands i] at hnxt
      have hlt := hless hq hshows
      have hkept' : (t.step srv i).kept = t.kept ++ (srv.takes t.unit i).toList := by
        simp [Served.step, hfl]
      have hreturned' : (t.step srv i).returned = t.returned := by
        simp [Served.step, hhands i]
      obtain ⟨k, hk, hsome, hprefix, hsame⟩ := ih n' hlt (t := t.step srv i)
        (q := q ++ (srv.takes t.unit i).toList)
        (by rw [hkept', hkept, List.append_assoc]) hnxt (by simp [hq]) rest
        (by simp only [List.length_cons] at hlong; omega)
        (fun j hj => hquiet j (List.mem_cons_of_mem i hj)) ((t, i) :: past)
      refine ⟨k + 1, by omega, hsome, ?_, hsame.trans hreturned'⟩
      exact List.IsPrefix.trans ⟨_, hkept'.symm⟩ hprefix

theorem Books.soon (hbooks : h.Books t) : t.Soon srv bound := by
  intro quiet hlong hquiet hmore
  obtain ⟨done, q, n, hkept, hreturned, hholds⟩ := hbooks
  have hq : q ≠ [] := by
    rintro rfl
    rw [hkept, hreturned] at hmore
    simp at hmore
  have hn := h.within t.unit q n hholds
  obtain ⟨k, hk, hans⟩ := soon_of_holds hkept hholds hq quiet (by omega) hquiet []
  exact ⟨k, by omega, hans⟩

end Server.Holding

theorem Served.InOrder.answer_at {srv : Server σ ι ρ α} {answer : ρ → α} {inside : σ → ℕ}
    {t : Served σ ρ α} (h : t.InOrder srv answer inside) {n : ℕ} {r : ρ} {a : α}
    (hr : t.kept[n]? = some r) (ha : t.returned[n]? = some a) : a = answer r := by
  have hlt : n < t.returned.length := (List.getElem?_eq_some_iff.mp ha).1
  rw [h.returned, List.getElem?_map, List.getElem?_take_of_lt hlt, hr] at ha
  exact (Option.some_inj.mp ha).symm

theorem Served.InOrder.agreesWith {srv : Server σ ι ρ α} {srv' : Server σ' ι' ρ α}
    {answer : ρ → α} {inside : σ → ℕ} {inside' : σ' → ℕ} {t : Served σ ρ α} {t' : Served σ' ρ α}
    (h : t.InOrder srv answer inside) (h' : t'.InOrder srv' answer inside') :
    t.AgreesWith inside inside' t' where
  first n hn hn' hsame := by
    rw [h.returned, h'.returned, ← List.map_take, ← List.map_take, List.take_take, List.take_take,
      Nat.min_eq_left hn, Nat.min_eq_left hn', hsame]
  all hsame hidle hidle' := by
    have hlen := h.missing
    have hlen' := h'.missing
    rw [hidle, Nat.add_zero] at hlen
    rw [hidle', Nat.add_zero] at hlen'
    rw [h.returned, h'.returned, ← hlen, ← hlen', hsame]

end Sync
