/-
What a run has put out, and the run of one component inside the run of a circuit.
-/
import OpenRV64.SyncRun
import Mathlib.Data.List.Basic

namespace Sync

universe u v w x

variable {σ : Type u} {ι : Type v} {α : Type w}

/-- What the cycles of a run have put out, the oldest first. -/
def log (out : σ → ι → List α) : Past σ ι → List α
  | [] => []
  | (s, i) :: past => log out past ++ out s i

variable {out : σ → ι → List α} {past : Past σ ι} {s : σ} {i : ι}

@[simp] theorem log_nil : log out ([] : Past σ ι) = [] := rfl

@[simp] theorem log_cons : log out ((s, i) :: past) = log out past ++ out s i := rfl

/-- Outputs that agree cycle by cycle leave the same log. -/
theorem log_filter (keep : α → Bool) :
    (log out past).filter keep = log (fun s i => (out s i).filter keep) past := by
  induction past with
  | nil => rfl
  | cons e past ih =>
    obtain ⟨s, i⟩ := e
    rw [log_cons, log_cons, List.filter_append, ih]

/-- A component of a circuit: its state inside the circuit's, and the input that a cycle of
the circuit gives it. -/
structure Component {σ' : Type w} {ι' : Type x} (c : Circuit σ ι) (c' : Circuit σ' ι') where
  state : σ → σ'
  input : σ → ι → ι'
  init : ∀ s, c.Init s → c'.Init (state s)
  step : ∀ s i, state (c.step s i) = c'.step (state s) (input s i)

namespace Component

variable {σ' : Type w} {ι' : Type x} {c : Circuit σ ι} {c' : Circuit σ' ι'}

/-- The component's past. -/
def seen (v : Component c c') (past : Past σ ι) : Past σ' ι' :=
  past.map fun e => (v.state e.1, v.input e.1 e.2)

theorem run (v : Component c c') {env : Past σ ι → σ → ι → Prop}
    {env' : Past σ' ι' → σ' → ι' → Prop}
    (henv : ∀ past s i, env past s i → env' (v.seen past) (v.state s) (v.input s i))
    {past : Past σ ι} {s : σ} (hrun : Run c env past s) :
    Run c' env' (v.seen past) (v.state s) := by
  induction hrun with
  | reset hinit => exact .reset (v.init _ hinit)
  | cycle i _ hcyc ih =>
    rw [v.step]
    exact .cycle _ ih (henv _ _ _ hcyc)

end Component

end Sync
