/-
Synchronous circuits as one-cycle transitions, their runs from reset, and the
past-time operators in which obligations between handshakes are stated.

Nothing here names a particular circuit.
-/
import Mathlib.Data.List.Infix
import Mathlib.Data.Nat.Find
import Mathlib.Order.Basic

theorem if_low {α : Sort _} [Decidable (false = true)] {a b : α} :
    (if false then a else b) = b := if_neg Bool.false_ne_true

/-- A signal that is down is not up. -/
theorem absurd_low {P : Prop} (h : false = true) : P := absurd h Bool.false_ne_true

namespace Sync

universe u v w

variable {σ : Type u} {ι : Type v}

/-- A clocked circuit: the states that reset can leave behind, and the state
after one clock edge at which the inputs `ι` are sampled. -/
structure Circuit (σ : Type u) (ι : Type v) where
  Init : σ → Prop
  step : σ → ι → σ

/-- The cycles already executed, the most recent first.  Each cycle is kept as
the state before its clock edge together with the inputs sampled there. -/
abbrev Past (σ : Type u) (ι : Type v) := List (σ × ι)

/-- The past and present of every run from reset.  `env` is what the
surroundings promise about the inputs of one cycle; it may look at the past. -/
inductive Run (c : Circuit σ ι) (env : Past σ ι → σ → ι → Prop) :
    Past σ ι → σ → Prop
  | reset {s : σ} : c.Init s → Run c env [] s
  | cycle {past : Past σ ι} {s : σ} (i : ι) :
      Run c env past s → env past s i → Run c env ((s, i) :: past) (c.step s i)

/-- The surroundings that promise nothing. -/
def anyEnv : Past σ ι → σ → ι → Prop := fun _ _ _ => True

/-- The surroundings that promise something about each cycle by itself. -/
def cycleEnv (ok : σ → ι → Prop) : Past σ ι → σ → ι → Prop := fun _ s i => ok s i

namespace Run

variable {c : Circuit σ ι} {env env' : Past σ ι → σ → ι → Prop} {past : Past σ ι} {s : σ}

/-- The invariant rule: what reset establishes and every cycle keeps holds
after every run. -/
theorem invariant {P : Past σ ι → σ → Prop} (hreset : ∀ s, c.Init s → P [] s)
    (hcyc : ∀ past s i, Run c env past s → env past s i → P past s →
      P ((s, i) :: past) (c.step s i))
    (hrun : Run c env past s) : P past s := by
  induction hrun with
  | reset hinit => exact hreset _ hinit
  | cycle i hrun henv ih => exact hcyc _ _ i hrun henv ih

/-- The invariant rule for a property of the state alone. -/
theorem stateInvariant {P : σ → Prop} (hreset : ∀ s, c.Init s → P s)
    (hcyc : ∀ past s i, env past s i → P s → P (c.step s i))
    (hrun : Run c env past s) : P s :=
  invariant (P := fun _ s => P s) hreset (fun past s i _ henv h => hcyc past s i henv h) hrun

/-- Surroundings that promise more have fewer runs. -/
theorem mono (himp : ∀ past s i, env past s i → env' past s i)
    (hrun : Run c env past s) : Run c env' past s := by
  induction hrun with
  | reset hinit => exact .reset hinit
  | cycle i _ henv ih => exact .cycle i ih (himp _ _ _ henv)

/-- Every earlier point of a run is itself a run. -/
theorem of_suffix {newer older : Past σ ι} {s' : σ} {i : ι}
    (hrun : Run c env (newer ++ (s', i) :: older) s) : Run c env older s' ∧ env older s' i := by
  induction newer generalizing s with
  | nil =>
    cases hrun with
    | cycle _ hrun henv => exact ⟨hrun, henv⟩
  | cons head tail ih =>
    cases hrun with
    | cycle _ hrun _ => exact ih hrun

end Run

/-- Execute a list of inputs, the first one first. -/
def exec (c : Circuit σ ι) : Past σ ι → σ → List ι → Past σ ι × σ
  | past, s, [] => (past, s)
  | past, s, i :: rest => exec c ((s, i) :: past) (c.step s i) rest

theorem exec_run {c : Circuit σ ι} {past : Past σ ι} {s : σ}
    (inputs : List ι) (hrun : Run c anyEnv past s) :
    Run c anyEnv (exec c past s inputs).1 (exec c past s inputs).2 := by
  induction inputs generalizing past s with
  | nil => exact hrun
  | cons i rest ih => exact ih (.cycle i hrun trivial)

/-- Whether each cycle of a list of inputs keeps the promise `ok`. -/
def execOk (c : Circuit σ ι) (ok : σ → ι → Bool) : σ → List ι → Bool
  | _, [] => true
  | s, i :: rest => ok s i && execOk c ok (c.step s i) rest

theorem exec_run_ok {c : Circuit σ ι} {ok : σ → ι → Bool}
    {past : Past σ ι} {s : σ} (inputs : List ι)
    (hrun : Run c (cycleEnv fun s i => ok s i) past s)
    (hok : execOk c ok s inputs) :
    Run c (cycleEnv fun s i => ok s i) (exec c past s inputs).1 (exec c past s inputs).2 := by
  induction inputs generalizing past s with
  | nil => exact hrun
  | cons i rest ih =>
    simp only [execOk, Bool.and_eq_true] at hok
    exact ih (.cycle i hrun hok.1) hok.2

/-- A list of inputs whose cycles keep a decidable promise is a run. -/
theorem exec_run_decide {c : Circuit σ ι} {ok : σ → ι → Prop}
    [∀ s i, Decidable (ok s i)] {s : σ} (inputs : List ι) (hinit : c.Init s)
    (hok : execOk c (fun s i => decide (ok s i)) s inputs) :
    Run c (cycleEnv ok) (exec c [] s inputs).1 (exec c [] s inputs).2 := by
  apply (exec_run_ok inputs (.reset hinit) hok).mono
  intro past s i henv
  exact of_decide_eq_true (p := ok s i) henv

/-- Whether each cycle of a list of inputs keeps a promise that looks at the past. -/
def execOkPast (c : Circuit σ ι) (ok : Past σ ι → σ → ι → Bool) :
    Past σ ι → σ → List ι → Bool
  | _, _, [] => true
  | past, s, i :: rest => ok past s i && execOkPast c ok ((s, i) :: past) (c.step s i) rest

/-- A list of inputs whose cycles keep such a promise continues a run. -/
theorem exec_run_past {c : Circuit σ ι} {env : Past σ ι → σ → ι → Prop}
    [∀ past s i, Decidable (env past s i)] {past : Past σ ι} {s : σ} (inputs : List ι)
    (hrun : Run c env past s)
    (hok : execOkPast c (fun past s i => decide (env past s i)) past s inputs) :
    Run c env (exec c past s inputs).1 (exec c past s inputs).2 := by
  induction inputs generalizing past s with
  | nil => exact hrun
  | cons i rest ih =>
    rw [execOkPast, Bool.and_eq_true, decide_eq_true_iff] at hok
    exact ih (.cycle i hrun hok.1) hok.2

/-- `set` happened at some cycle and `clear` at none after it. -/
def Since (set clear : σ → ι → Prop) : Past σ ι → Prop
  | [] => False
  | (s, i) :: past => set s i ∨ (Since set clear past ∧ ¬ clear s i)

section Since

variable {set clear clear' : σ → ι → Prop} {past : Past σ ι} {s : σ} {i : ι}

@[simp] theorem since_nil : ¬ Since set clear ([] : Past σ ι) := id

instance decidableSince [∀ s i, Decidable (set s i)] [∀ s i, Decidable (clear s i)] :
    ∀ past : Past σ ι, Decidable (Since set clear past)
  | [] => isFalse id
  | (s, i) :: past =>
    have := decidableSince past
    inferInstanceAs (Decidable (set s i ∨ (Since set clear past ∧ ¬ clear s i)))

end Since

/-- `P` held of the past of the last cycle in which `ev` happened. -/
def AtLast (ev : σ → ι → Prop) (P : Past σ ι → Prop) : Past σ ι → Prop
  | [] => False
  | (s, i) :: past => (ev s i ∧ P past) ∨ (¬ ev s i ∧ AtLast ev P past)

section AtLast

variable {ev : σ → ι → Prop} {P Q : Past σ ι → Prop} {past : Past σ ι} {s : σ} {i : ι}

instance decidableAtLast [∀ s i, Decidable (ev s i)] [∀ past, Decidable (P past)] :
    ∀ past : Past σ ι, Decidable (AtLast ev P past)
  | [] => isFalse id
  | (s, i) :: past =>
    have := decidableAtLast past
    inferInstanceAs (Decidable ((ev s i ∧ P past) ∨ (¬ ev s i ∧ AtLast ev P past)))

theorem atLast_of_event (h : ev s i) : AtLast ev P ((s, i) :: past) ↔ P past := by
  simp [AtLast, h]

theorem atLast_of_not_event (h : ¬ ev s i) : AtLast ev P ((s, i) :: past) ↔ AtLast ev P past := by
  simp [AtLast, h]

end AtLast

/-- The past of a sequence of states and inputs. -/
def pastOf (state : ℕ → σ) (input : ℕ → ι) : ℕ → Past σ ι
  | 0 => []
  | n + 1 => (state n, input n) :: pastOf state input n

/-- A run that never stops. -/
structure Behaviour (c : Circuit σ ι) (env : Past σ ι → σ → ι → Prop) where
  state : ℕ → σ
  input : ℕ → ι
  init : c.Init (state 0)
  next : ∀ n, state (n + 1) = c.step (state n) (input n)
  promised : ∀ n, env (pastOf state input n) (state n) (input n)

namespace Behaviour

variable {c : Circuit σ ι} {env env' : Past σ ι → σ → ι → Prop} (b : Behaviour c env)

def past (n : ℕ) : Past σ ι := pastOf b.state b.input n

theorem run (n : ℕ) : Run c env (b.past n) (b.state n) := by
  induction n with
  | zero => exact .reset b.init
  | succ n ih =>
    rw [b.next n]
    exact .cycle (b.input n) ih (b.promised n)

/-- The states that a sequence of inputs leads through. -/
def statesFrom (c : Circuit σ ι) (s : σ) (inputs : ℕ → ι) : ℕ → σ
  | 0 => s
  | n + 1 => c.step (statesFrom c s inputs n) (inputs n)

/-- The run that a sequence of inputs leads through. -/
def ofInputs {s : σ} (inputs : ℕ → ι) (hinit : c.Init s)
    (hok : ∀ n, env (pastOf (statesFrom c s inputs) inputs n) (statesFrom c s inputs n)
      (inputs n)) : Behaviour c env where
  state := statesFrom c s inputs
  input := inputs
  init := hinit
  next _ := rfl
  promised := hok

theorem statesFrom_succ (s : σ) (inputs : ℕ → ι) (n : ℕ) : statesFrom c s inputs (n + 1) =
      statesFrom c (c.step s (inputs 0)) (fun k => inputs (k + 1)) n := by
  induction n with
  | zero => rfl
  | succ n ih =>
    rw [statesFrom, ih]
    rfl

/-- A list of inputs that keep a decidable promise goes on with idle inputs, when these
keep it in every state. -/
theorem statesFrom_ok {ok : σ → ι → Prop} [∀ s i, Decidable (ok s i)] {idle : ι}
    (hidle : ∀ s, ok s idle) {s : σ} {inputs : List ι}
    (hok : execOk c (fun s i => decide (ok s i)) s inputs) (n : ℕ) :
    ok (statesFrom c s (fun k => inputs.getD k idle) n) (inputs.getD n idle) := by
  induction inputs generalizing s n with
  | nil => simpa using hidle _
  | cons i rest ih =>
    simp only [execOk, Bool.and_eq_true, decide_eq_true_eq] at hok
    cases n with
    | zero => exact hok.1
    | succ n =>
      rw [statesFrom_succ]
      exact ih hok.2 n

end Behaviour

/-- The variant rule: what never rises before the goal, and cannot stay for ever, leads to
the goal. -/
theorem eventually_of_variant (goal : ℕ → Prop) (measure : ℕ → ℕ) {n : ℕ}
    (hfall : ∀ m, n ≤ m → ¬ goal m → measure (m + 1) ≤ measure m)
    (hmove : ∀ m, n ≤ m → (∀ k, m ≤ k → ¬ goal k ∧ measure k = measure m) → False) :
    ∃ m, n ≤ m ∧ goal m := by
  by_contra hnever
  have hnone : ∀ m, n ≤ m → ¬ goal m := fun m hm hgoal => hnever ⟨m, hm, hgoal⟩
  have hmono : ∀ m k, n ≤ m → m ≤ k → measure k ≤ measure m := by
    intro m k hm hmk
    induction k, hmk using Nat.le_induction with
    | base => exact le_refl _
    | succ k hk ih => exact (hfall k (hm.trans hk) (hnone k (hm.trans hk))).trans ih
  have hleast : ∀ v m, n ≤ m → measure m = v → False := by
    intro v
    induction v using Nat.strong_induction_on with
    | _ v ih =>
      intro m hm hv
      apply hmove m hm
      intro k hk
      refine ⟨hnone k (hm.trans hk), ?_⟩
      rcases (hmono m k hm hk).lt_or_eq with hlt | heq
      · exact (ih _ (hv ▸ hlt) k (hm.trans hk) rfl).elim
      · exact heq
  exact hleast (measure n) n (le_refl n) rfl

/-- What comes about after `n` does so a first time, and what holds after `n` and goes on
holding until then holds until then. -/
theorem exists_first {goal : ℕ → Prop} {n : ℕ} (hev : ∃ m, n < m ∧ goal m)
    (kept : ℕ → Prop) (hbase : kept (n + 1))
    (hkeep : ∀ k, n < k → ¬ goal k → kept k → kept (k + 1)) :
    ∃ m, n < m ∧ goal m ∧ kept m ∧ ∀ k, n < k → k < m → ¬ goal k ∧ kept k := by
  classical
  obtain ⟨hm, hgoal⟩ := Nat.find_spec hev
  have hnone : ∀ k, n < k → k < Nat.find hev → ¬ goal k :=
    fun k hk hlast hgoal => Nat.find_min hev hlast ⟨hk, hgoal⟩
  have hkept : ∀ k, n + 1 ≤ k → k ≤ Nat.find hev → kept k := by
    intro k hk hlast
    induction k, hk using Nat.le_induction with
    | base => exact hbase
    | succ k hk ih => exact hkeep k hk (hnone k hk hlast) (ih (Nat.le_of_succ_le hlast))
  exact ⟨_, hm, hgoal, hkept _ hm (le_refl _),
    fun k hk hlast => ⟨hnone k hk hlast, hkept k hk hlast.le⟩⟩

/-- There is one first time. -/
theorem first_unique {goal : ℕ → Prop} {n m m' : ℕ} (hm : n < m) (hm' : n < m')
    (hgoal : goal m) (hgoal' : goal m') (hfst : ∀ k, n < k → k < m → ¬ goal k)
    (hfst' : ∀ k, n < k → k < m' → ¬ goal k) : m = m' := by
  rcases Nat.lt_trichotomy m m' with hless | heq | hless
  · exact absurd hgoal (hfst' m hm hless)
  · exact heq
  · exact absurd hgoal' (hfst m' hm' hless)

end Sync
