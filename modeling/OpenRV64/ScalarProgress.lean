/-
The instruction of every access that memory performs retires or traps, when translations and
accesses take finitely many cycles.
-/
import OpenRV64.ScalarExact

namespace OpenRV64

open ScalarState

namespace ScalarTracked

variable {p : ScalarParams} {t : ScalarTracked p} {i : ScalarInput} {n : ℕ}

/-- Instruction `n` has left WB. -/
def Ended (t : ScalarTracked p) (n : ℕ) : Prop :=
  (∃ e ∈ t.hist.retired, e.no = n) ∨ ∃ e ∈ t.hist.trapped, e.no = n

/-- Instruction `n` is in WB and has reached memory. -/
def Leaving (t : ScalarTracked p) (n : ℕ) : Prop :=
  t.core.memWbQ ≠ none ∧ t.hist.wbNo = n ∧ t.hist.trace n ≠ []

/-- Instruction `n` is an atomic in MEM, and its unit is in the phase. -/
def InPhase (t : ScalarTracked p) (n : ℕ) (phase : AmoPhase) : Prop :=
  ∃ m, t.core.exMemQ = some m ∧ m.atomicMemAccess p = true ∧ t.hist.memNo = n ∧
    t.core.amo.stateQ = phase

section Cycle

variable (h : t.Ledger)
include h

theorem Ledger.ended_step (hleav : t.Leaving n) : (t.step i).Ended n := by
  obtain ⟨hsome, rfl, htrc⟩ := hleav
  obtain ⟨w, hw⟩ := Option.ne_none_iff_exists'.mp hsome
  have hsettled := (h.wb w hw).1
  have hbsy : t.core.csrBusy = false := by
    by_contra hbsy
    rcases h.pipe.busy (by simpa using hbsy) with ⟨m, hm, hcsr⟩ | ⟨w', hw', hcsr⟩
    · have hnone := (h.pipe.memSolo m hm (Bool.or_eq_true_iff.mpr (.inr hcsr))).1
      exact hsome hnone
    · obtain rfl := Option.mem_unique hw hw'
      rw [hsettled.instr, csrOp_of_memory (hsettled.memory htrc)] at hcsr
      cases hcsr
  have hret : t.core.retiring = some w := by simp [retiring, hbsy, hw]
  cases hexc : w.exception with
  | false => exact .inl ⟨_, mem_retired.mpr (.inl ⟨w, hret, hexc, rfl⟩), rfl⟩
  | true => exact .inr ⟨_, mem_trapped.mpr (.inl ⟨w, hret, hexc, rfl⟩), rfl⟩

/-- An atomic that its unit has finished goes into WB. -/
theorem Ledger.leaving_step (hdone : t.InPhase n .done) (htrc : t.hist.trace n ≠ []) :
    (t.step i).Leaving n := by
  obtain ⟨m, hq, hamo, rfl, hst⟩ := hdone
  obtain ⟨m', hm, -, -, -⟩ := h.engine.mem_of_amo h.pipe (i := i) (by rw [hst]; decide)
  obtain rfl := Option.some_inj.mp (hq.symm.trans (mem_eq_some.mp hm).2)
  have hout := h.engine.complete_of_done h.pipe (i := i) hst
  rw [exMemOutClear, memIs_of hm, Bool.and_eq_true] at hout
  have hnxt : (t.step i).core.memWbQ = some (t.core.memWbIn i m) :=
    (Stage.next_of_clear rfl hout.1).trans (memOut_eq_some.mpr ⟨m, hm, hout.2, rfl⟩)
  have hwants : t.core.wants m = false := by
    simp [wants, (Bool.and_eq_true_iff.mp hamo).2, hst]
  refine ⟨by rw [hnxt]; exact Option.some_ne_none _, wbNo_of_out hout.1 hm hout.2, ?_⟩
  rw [h.trace_of_not_wants hm hwants]
  exact htrc

/-- The write of an atomic is answered, or it waits. -/
theorem Ledger.phase_step (hwr : t.InPhase n .write) :
    (t.step i).InPhase n (if t.completes i then .done else .write) := by
  obtain ⟨m, hq, hatomic, rfl, hst⟩ := hwr
  obtain ⟨m', hm, -, -, hserv⟩ := h.engine.mem_of_amo h.pipe (i := i) (by rw [hst]; decide)
  obtain rfl := Option.some_inj.mp (hq.symm.trans (mem_eq_some.mp hm).2)
  obtain ⟨hmemory, hamo⟩ := Bool.and_eq_true_iff.mp hatomic
  have hwait : t.core.memoryComplete i m = false := by
    rw [memoryComplete, if_pos hamo, AmoState.completeO, hst]
    simp
  obtain ⟨hmem, -⟩ := h.pipe.wb_clears hm (csrOp_of_memory hmemory) hwait
  have hno : (t.step i).hist.memNo = t.hist.memNo := by
    rcases mem_goes hm with ⟨hd, -⟩ | ⟨-, hdone, -⟩
    · exact (step_of_not_fires hd).1
    · rw [hwait] at hdone
      cases hdone
  have hfl : (t.core.amoInput i).flushI = false := (mem_eq_some.mp hm).1
  have hamoStep : (t.step i).core.amo = t.core.amo.step (t.core.amoInput i) := rfl
  have hrdy : t.core.execMemReady i = t.completes i := by
    cases hdone : t.completes i with
    | true =>
      obtain ⟨-, -, -, -, -, -, -, hrdy⟩ := h.mem_of_completes hdone
      exact hrdy
    | false =>
      rw [execMemReady, show t.core.bus.lsuReadyO p.bus (t.core.busPort i) =
        t.completes i from rfl, hdone, Bool.false_and]
  refine ⟨m, hmem, hatomic, hno, ?_⟩
  rw [hamoStep]
  cases hdone : t.completes i with
  | true =>
    rw [AmoState.step_write hfl hst (hrdy.trans hdone) hserv.held]
    rfl
  | false =>
    rw [AmoState.step_waits hfl (.inr hst) (hrdy.trans hdone)]
    exact hst

/-- It comes nearer to its answer, or the bus stalls. -/
theorem Ledger.ahead_step (hwr : t.InPhase n .write) (hdone : t.completes i = false) :
    (t.step i).core.bus.bus.ahead < t.core.bus.bus.ahead ∨
      ((t.step i).core.bus.bus.ahead = t.core.bus.bus.ahead ∧
        t.core.bus.bus.Stalls (t.core.bus.busInput (t.core.busInput i))) := by
  obtain ⟨m, hq, hatomic, -, hst⟩ := hwr
  obtain ⟨m', hm, -, hwb, -⟩ := h.engine.mem_of_amo h.pipe (i := i) (by rw [hst]; decide)
  obtain rfl := Option.some_inj.mp (hq.symm.trans (mem_eq_some.mp hm).2)
  obtain ⟨hmemory, hamo⟩ := Bool.and_eq_true_iff.mp hatomic
  have hwants : t.core.wants m := by
    simp [wants, hamo, hmemory, hst]
  have hshoot := (h.pipe.noSleep_of_mem (ne_none_of_mem hm)).2
  rw [shootdown, Bool.or_eq_false_iff] at hshoot
  have hbarrier : t.core.translationBarrierBusy = false := by
    simp [translationBarrierBusy, retires_of_none hwb, hshoot.1, hshoot.2]
  have hval : (t.core.bus.busInput (t.core.busEdge i)).lsuValidI := by
    change (t.core.bus.pipeActiveQ || (t.core.execMemValid i && !t.core.translationBarrierBusy))
    rw [execMemValid_of hm, hwants, hbarrier]
    simp
  have hrdy : t.core.bus.bus.lsuReadyO p.bus (t.core.bus.busInput (t.core.busEdge i)) = false := by
    rw [h.completes_eq] at hdone
    exact hdone
  exact GenBusState.ahead_step hval hrdy

/-- Where the instruction of a performed access can be. -/
theorem Ledger.place {a : ScalarAccess} (ha : a ∈ t.hist.performed) :
    t.Ended a.no ∨ t.Leaving a.no ∨ t.InPhase a.no .done ∨ t.InPhase a.no .write := by
  have htrc : t.hist.trace a.no ≠ [] := by
    intro hnil
    exact ScalarHistory.trace_eq_nil.mp hnil a ha rfl
  rcases h.owned a ha with hretired | htrapped | ⟨hsome, hno⟩ | ⟨hsome, hno⟩
  · exact .inl (.inl hretired)
  · exact .inl (.inr htrapped)
  · obtain ⟨m, hm⟩ := Option.isSome_iff_exists.mp hsome
    have hwork := h.mem m hm
    rw [← hno] at htrc
    cases hamo : m.atomicMemAccess p with
    | false => exact absurd (hwork.idle hamo) htrc
    | true =>
      have hdid := hwork.atomic hamo
      cases hst : t.core.amo.stateQ with
      | idle =>
        rw [AmoState.Did, hst] at hdid
        exact absurd hdid htrc
      | read =>
        rw [AmoState.Did, hst] at hdid
        exact absurd hdid htrc
      | write => exact .inr (.inr (.inr ⟨m, hm, hamo, hno, hst⟩))
      | done => exact .inr (.inr (.inl ⟨m, hm, hamo, hno, hst⟩))
  · exact .inr (.inl ⟨Option.isSome_iff_ne_none.mp hsome, hno, htrc⟩)

end Cycle

/-! ### Runs -/

section Runs

variable (b : Sync.Behaviour (scalarCore p) Sync.anyEnv)

/-- Translations and accesses take finitely many cycles. -/
structure FiniteLatency : Prop where
  translation : ∀ n, ∃ m, n ≤ m ∧ (b.state m).core.bus.bus.stateQ ≠ .translate
  access : ∀ n, ∃ m, n ≤ m ∧ ((b.state m).core.bus.bus.stateQ = .access →
    (b.state m).core.bus.rawReqReady ((b.state m).core.busInput (b.input m)) = true)

/-- The instruction of every access that memory performs retires or traps, whatever finite
time memory takes. -/
def AccessesEnd : Prop :=
  FiniteLatency b → ∀ n, ∀ a ∈ (b.state n).hist.performed, ∃ m, (b.state m).Ended a.no

theorem ledger (n : ℕ) : (b.state n).Ledger := by
  induction n with
  | zero =>
    obtain ⟨powerUp, hreset⟩ := b.init
    rw [hreset]
    exact ledger_reset powerUp
  | succ n ih =>
    rw [b.next n]
    exact ih.step

theorem mem_performed_step {a : ScalarAccess} (ha : a ∈ t.hist.performed) :
    a ∈ (t.step i).hist.performed := by
  change a ∈ (if t.performs i then t.access i :: t.hist.performed else t.hist.performed)
  split_ifs
  · exact List.mem_cons_of_mem _ ha
  · exact ha

theorem ended_of_leaving {n k : ℕ} (hleav : (b.state n).Leaving k) : ∃ m, (b.state m).Ended k :=
  ⟨n + 1, by rw [b.next n]; exact (ledger b n).ended_step hleav⟩

theorem ended_of_done {n k : ℕ} (hdone : (b.state n).InPhase k .done)
    (htrc : (b.state n).hist.trace k ≠ []) : ∃ m, (b.state m).Ended k := by
  refine ended_of_leaving b (n := n + 1) ?_
  rw [b.next n]
  exact (ledger b n).leaving_step hdone htrc

theorem completes_of_write (hlatency : FiniteLatency b) {n k : ℕ}
    (hwr : (b.state n).InPhase k .write) :
    ∃ m, n ≤ m ∧ (b.state m).InPhase k .write ∧ (b.state m).completes (b.input m) := by
  by_contra hnever
  have hstay : ∀ m, n ≤ m → (b.state m).InPhase k .write ∧
      (b.state m).completes (b.input m) = false := by
    intro m hm
    have hph : (b.state m).InPhase k .write := by
      induction m, hm using Nat.le_induction with
      | base => exact hwr
      | succ m hm ih =>
        have hdone : (b.state m).completes (b.input m) = false := by
          by_contra hdone
          exact hnever ⟨m, hm, ih, by simpa using hdone⟩
        rw [b.next m]
        have hnxt := (ledger b m).phase_step (i := b.input m) ih
        rw [hdone] at hnxt
        exact hnxt
    refine ⟨hph, ?_⟩
    by_contra hdone
    exact hnever ⟨m, hm, hph, by simpa using hdone⟩
  have hahead := fun m hm => (ledger b m).ahead_step (hstay m hm).1 (hstay m hm).2
  obtain ⟨m, -, hgoal⟩ := Sync.eventually_of_variant (fun _ => False)
    (fun m => (b.state m).core.bus.bus.ahead) (n := n)
    (fun m hm _ => by
      rw [b.next m]
      rcases hahead m hm with hlt | ⟨heq, -⟩
      · exact hlt.le
      · exact heq.le)
    (fun m hm hsame => by
      have hstall : ∀ j, m ≤ j → (b.state j).core.bus.bus.Stalls
          ((b.state j).core.bus.busInput ((b.state j).core.busInput (b.input j))) := by
        intro j hj
        have heq := (hsame (j + 1) (hj.trans (Nat.le_succ j))).2.trans (hsame j hj).2.symm
        rw [b.next j] at heq
        rcases hahead j (hm.trans hj) with hlt | ⟨-, hstall⟩
        · exact absurd heq hlt.ne
        · exact hstall
      have hplc : ∀ j, m ≤ j →
          (b.state j).core.bus.bus.stateQ = (b.state m).core.bus.bus.stateQ := by
        intro j hj
        rw [GenBusState.ahead_eq, (hsame j hj).2, ← GenBusState.ahead_eq]
      rcases hstall m (le_refl m) with htranslate | ⟨hacs, -⟩
      · obtain ⟨j, hj, hne⟩ := hlatency.translation m
        exact hne ((hplc j hj).trans htranslate)
      obtain ⟨j, hj, hrdy⟩ := hlatency.access m
      have hst := (hplc j hj).trans hacs
      rcases hstall j hj with htranslate | ⟨-, hwait⟩
      · rw [hst] at htranslate
        cases htranslate
      · have hgo := hrdy hst
        rw [show (b.state j).core.bus.rawReqReady ((b.state j).core.busInput (b.input j)) = false
          from hwait] at hgo
        cases hgo)
  exact hgoal

theorem accessesEnd : AccessesEnd b := by
  intro hlatency n a ha
  have hperf : ∀ m, n ≤ m → a ∈ (b.state m).hist.performed := by
    intro m hm
    induction m, hm using Nat.le_induction with
    | base => exact ha
    | succ m _ ih =>
      rw [b.next m]
      exact mem_performed_step ih
  have htrc : ∀ m, n ≤ m → (b.state m).hist.trace a.no ≠ [] := fun m hm hnil =>
    ScalarHistory.trace_eq_nil.mp hnil a (hperf m hm) rfl
  rcases (ledger b n).place ha with hended | hleav | hdone | hwr
  · exact ⟨n, hended⟩
  · exact ended_of_leaving b hleav
  · exact ended_of_done b hdone (htrc n (le_refl n))
  obtain ⟨m, hm, hph, hcompletes⟩ := completes_of_write b hlatency hwr
  have hnxt := (ledger b m).phase_step (i := b.input m) hph
  rw [hcompletes, if_pos rfl] at hnxt
  refine ended_of_done b (n := m + 1) (by rw [b.next m]; exact hnxt) ?_
  exact htrc (m + 1) (hm.trans (Nat.le_succ m))

end Runs

/-- Memory performs each access once, for an instruction that retires or takes its fault; no
completion is taken for another instruction; and an interrupt saves the address of the next
instruction. -/
theorem performs_exactly_once (p : ScalarParams) (b : Sync.Behaviour (scalarCore p) Sync.anyEnv) :
    (∀ n, (b.state n).Exact) ∧ AccessesEnd b :=
  ⟨fun n => (ledger b n).exact, accessesEnd b⟩

end ScalarTracked

end OpenRV64
