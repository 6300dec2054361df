/-
The adapter gives every answer to the request that it answers, as long as nothing new is
accepted over an access that has been abandoned.
-/
import OpenRV64.BusAdapter
import OpenRV64.PtwWalk

namespace OpenRV64

open AdapterTracked CoreBusState GenBusState Sync
open Bool (and_eq_true false_ne_true not_eq_true')
open List (mem_cons mem_of_mem_head? mem_cons_self nodup_cons nodup_nil mem_map)
open Prod (fst)
open Nat (lt_succ_self)
open Option (some map_some)

namespace CoreBusState

variable {p : GenBusParams} {s : CoreBusState} {i : CoreBusInput}

theorem pipeAccept_iff : s.pipeAccept i ↔
    i.lsuPipeReqValidI ∧ i.lsuPipeCancelI = false ∧ s.pipeActiveQ = false ∧
      s.pipeRespValidQ = false ∧ i.lsuValidI = false := by
  simp [pipeAccept, lsuPipeReqReadyO, and_assoc]

theorem taken_of_accept (h : s.pipeAccept i) : s.genLsuTaken i = false := by
  obtain ⟨-, -, hact, -, hval⟩ := pipeAccept_iff.mp h
  simp [genLsuTaken, lsuTaken, busInput, genLsuValid, hact, hval]

/-- What one edge does to the adapter: a cancel, an acceptance, an answer, a response taken,
or nothing. -/
theorem pipe_cases (hone : s.pipeActiveQ = false ∨ s.pipeRespValidQ = false) :
    (s.pipeCancel i ∧ s.pipeAccept i = false ∧
      (s.step p i).pipeActiveQ = false ∧ (s.step p i).pipeRespValidQ = false) ∨
    (s.pipeCancel i = false ∧ s.pipeAccept i ∧ s.pipeActiveQ = false ∧
      s.pipeRespValidQ = false ∧ (s.step p i).pipeActiveQ = !i.lsuPipeReqI.xlateOnly ∧
      (s.step p i).pipeRespValidQ = i.lsuPipeReqI.xlateOnly ∧
      (i.lsuPipeReqI.xlateOnly → (s.step p i).pipeRespQ = i.lsuPipeReqI.xlateAnswer ∧
          (s.step p i).pipeRespPaddrQ = i.lsuPipeReqI.lsu.addr)) ∨
    (s.pipeCancel i = false ∧ s.pipeAccept i = false ∧ s.pipeDone p i ∧ s.pipeRespValidQ = false ∧
      (s.step p i).pipeActiveQ = false ∧ (s.step p i).pipeRespValidQ ∧
      (s.step p i).pipeRespQ = s.genLsuAnswer p i ∧ (s.step p i).pipeRespPaddrQ = s.pipeQ.addr) ∨
    (s.pipeCancel i = false ∧ s.pipeAccept i = false ∧ s.pipeRespFire i ∧ s.pipeActiveQ = false ∧
      (s.step p i).pipeActiveQ = false ∧ (s.step p i).pipeRespValidQ = false) ∨
    (s.pipeCancel i = false ∧ s.pipeAccept i = false ∧ s.pipeDone p i = false ∧
      s.pipeRespFire i = false ∧ (s.step p i).pipeActiveQ = s.pipeActiveQ ∧
      (s.step p i).pipeRespValidQ = s.pipeRespValidQ ∧ (s.step p i).pipeRespQ = s.pipeRespQ ∧
      (s.step p i).pipeRespPaddrQ = s.pipeRespPaddrQ) := by
  have hact : (s.step p i).pipeActiveQ = s.pipeActiveNext p i := rfl
  have hrsp : (s.step p i).pipeRespValidQ = s.pipeRespValidNext p i := rfl
  have hans : (s.step p i).pipeRespQ = s.pipeRespNext p i := rfl
  have hpaddr : (s.step p i).pipeRespPaddrQ = s.pipeRespPaddrNext p i := rfl
  rw [hact, hrsp, hans, hpaddr]
  cases hacc : s.pipeAccept i with
  | true =>
    obtain ⟨-, hcan, hfree, hemp, -⟩ := pipeAccept_iff.mp hacc
    have hnone : s.pipeCancel i = false := by simp [pipeCancel, hcan]
    have hdone : s.pipeDone p i = false := by simp [pipeDone, hfree]
    have hfire : s.pipeRespFire i = false := by simp [pipeRespFire, hemp]
    cases hx : i.lsuPipeReqI.xlateOnly <;>
      simp [pipeActiveNext, pipeRespValidNext, pipeRespNext, pipeRespPaddrNext, hacc, hnone,
        hdone, hfire, hfree, hemp, hx]
  | false =>
  cases hcan : s.pipeCancel i with
  | true => simp [pipeActiveNext, pipeRespValidNext, hcan]
  | false =>
  cases hdone : s.pipeDone p i with
  | true =>
    have hemp : s.pipeRespValidQ = false := by
      rw [pipeDone, and_eq_true] at hdone
      exact hone.resolve_left (by simp [hdone.1])
    have hfire : s.pipeRespFire i = false := by simp [pipeRespFire, hemp]
    simp [pipeActiveNext, pipeRespValidNext, pipeRespNext, pipeRespPaddrNext, hcan,
      hdone, hfire, hemp]
  | false =>
  cases hfire : s.pipeRespFire i with
  | true =>
    have hfree : s.pipeActiveQ = false := by
      rw [pipeRespFire, and_eq_true] at hfire
      exact hone.resolve_right (by simp [hfire.1])
    simp [pipeActiveNext, pipeRespValidNext, hacc, hcan, hdone, hfire, hfree]
  | false =>
    simp [pipeActiveNext, pipeRespValidNext, pipeRespNext, pipeRespPaddrNext,
      hacc, hcan, hdone, hfire]

end CoreBusState

namespace AdapterTracked

variable {p : GenBusParams} {t : AdapterTracked} {i : CoreBusInput}

/-- What holds after every run that is clear. -/
structure Inv (p : GenBusParams) (t : AdapterTracked) : Prop where
  walk : WalkOwned p t.core.bus
  busy : t.core.bus.lsuBusy = t.hist.access.isSome
  port : ∀ x, t.hist.access = some x → t.core.bus.requestQ = x.request.captured
  one : t.core.pipeActiveQ = false ∨ t.core.pipeRespValidQ = false
  holds : t.core.pipeActiveQ = true ∨ t.core.pipeRespValidQ = true →
    ∃ q, t.hist.accepted.head? = some (t.held, q) ∧ t.core.pipeTagQ = q.tag ∧
      t.core.pipeXlateOnlyQ = q.xlateOnly ∧ t.core.pipeQ = q.access ∧
      t.held ∉ t.hist.delivered ∧ t.held ∉ t.hist.cancelled
  active : t.core.pipeActiveQ = true → t.core.pipeXlateOnlyQ = false ∧
    (t.hist.access = none ∨ t.hist.access = some ⟨.tagged t.held, t.core.pipeQ⟩) ∧
    .tagged t.held ∉ t.hist.answers.map Prod.fst
  response : t.core.pipeRespValidQ = true → ∀ q, t.hist.accepted.head? = some (t.held, q) →
    t.core.pipeRespPaddrQ = q.lsu.addr ∧
      if q.xlateOnly then t.core.pipeRespQ = q.xlateAnswer
      else (.tagged t.held, t.core.pipeRespQ) ∈ t.hist.answers
  presented : ∀ n q, t.hist.presented = some (n, q) → n < t.hist.clock ∧
    .legacy n ∉ t.hist.answers.map Prod.fst ∧ ∀ r, t.hist.access = some ⟨.legacy n, r⟩ → r = q
  opened : ∀ x, t.hist.access = some x → x.source.cycle < t.hist.clock ∧
    x.source ∉ t.hist.answers.map Prod.fst
  answers_past : ∀ x ∈ t.hist.answers.map Prod.fst, x.cycle < t.hist.clock
  accepted_past : ∀ x ∈ t.hist.accepted, x.1 < t.hist.clock
  accepted_nodup : (t.hist.accepted.map Prod.fst).Nodup
  delivered_past : ∀ n ∈ t.hist.delivered, n < t.hist.clock
  cancelled_past : ∀ n ∈ t.hist.cancelled, n < t.hist.clock
  cancelled : ∀ n ∈ t.hist.cancelled,
    n ∉ t.hist.delivered ∧ ∀ q, (n, q) ∈ t.hist.accepted → q.isStore = false
  deliveredOnce : t.hist.delivered.Nodup
  answeredOnce : (t.hist.answers.map Prod.fst).Nodup
  performed : t.hist.performed.Sublist (t.hist.answers.map Prod.fst)
  complete : ∀ x a, (x, a) ∈ t.hist.answers → a.accessFault = false → a.pageFault = false →
    x ∈ t.hist.performed
  store : ∀ n q, (n, q) ∈ t.hist.accepted → q.isStore = true →
    n ∈ t.hist.delivered ∨ (t.hist.accepted.head? = some (n, q) ∧
      (t.core.pipeActiveQ = true ∨ t.core.pipeRespValidQ = true))
  xlate : t.core.genXlateRespValidQ = true → ∃ q, t.hist.xlate = some q ∧
    t.core.genXlateRespTagQ = q.tag ∧ t.core.genXlateRespPaddrQ = q.vaddr ∧
      t.core.genXlateRespAccessFaultQ = (q.vmMode != satpModeBare)

section Fields

theorem step_access : (t.step p i).hist.access =
    if t.core.genLsuTaken i then some (t.takenAccess i)
    else if t.core.genLsuReady p i then none else t.hist.access := rfl

theorem step_accepted : (t.step p i).hist.accepted =
    if t.core.pipeAccept i then (t.hist.clock, i.lsuPipeReqI) :: t.hist.accepted
    else t.hist.accepted := rfl

theorem step_delivered : (t.step p i).hist.delivered =
    if t.core.pipeRespFire i then t.held :: t.hist.delivered else t.hist.delivered := rfl

theorem held_of_accept (h : t.core.pipeAccept i) : (t.step p i).held = t.hist.clock := by
  simp [held, step_accepted, h]

theorem held_of_not_accept (h : t.core.pipeAccept i = false) : (t.step p i).held = t.held := by
  simp [held, step_accepted, h]

theorem lsuReadyO_iff : t.core.lsuReadyO p i ↔
    t.core.genLsuReady p i ∧ t.core.pipeActiveQ = false := by
  simp [CoreBusState.lsuReadyO]

theorem ready_of_taken (h : t.core.genLsuTaken i) : t.core.genLsuReady p i = false := by
  refine eq_false_of_ne_true fun hrdy => ?_
  have hbsy := lsuReadyO_busy hrdy
  rw [lsuBusy_of_taken h] at hbsy
  cases hbsy

/-- A number that stands for the untagged request is the present cycle or an older one. -/
theorem lsuSince_cases : t.lsuSince i = t.hist.clock ∨
    t.hist.presented = some (t.lsuSince i, i.lsuI) := by
  unfold lsuSince
  cases hpresented : t.hist.presented with
  | none => exact .inl rfl
  | some x =>
    obtain ⟨since, q⟩ := x
    by_cases hq : q = i.lsuI
    · right
      simp [hq]
    · left
      simp [hq]

end Fields

namespace Inv

theorem lsuSince_le (h : Inv p t) : t.lsuSince i ≤ t.hist.clock := by
  rcases lsuSince_cases (t := t) (i := i) with heq | hpresented
  · exact heq.le
  · exact (h.presented _ _ hpresented).1.le

theorem held_lt (h : Inv p t) (hheld : t.core.pipeActiveQ ∨ t.core.pipeRespValidQ) :
    t.held < t.hist.clock := by
  obtain ⟨q, hhead, -⟩ := h.holds hheld
  exact h.accepted_past _ (mem_of_mem_head? hhead)

theorem access_of_ready (h : Inv p t) (hrdy : t.core.genLsuReady p i) :
    ∃ x, t.hist.access = some x := by
  have hbsy := lsuReadyO_busy hrdy
  rw [h.busy] at hbsy
  exact Option.isSome_iff_exists.mp hbsy

theorem access_of_taken (h : Inv p t) (htaken : t.core.genLsuTaken i) : t.hist.access = none := by
  have hbsy := lsuBusy_of_taken htaken
  rw [h.busy] at hbsy
  exact Option.isSome_eq_false_iff.mp hbsy |> Option.isNone_iff_eq_none.mp

theorem busy_step (h : Inv p t) :
    (t.step p i).core.bus.lsuBusy = (t.step p i).hist.access.isSome := by
  have hbus : (t.step p i).core.bus = t.core.bus.step p (t.core.busInput i) := rfl
  rw [hbus, step_access]
  cases htaken : t.core.genLsuTaken i with
  | true =>
    obtain ⟨hst, hown, -⟩ := step_of_taken (p := p) htaken
    exact lsuBusy_iff.mpr ⟨.inl hst, hown⟩
  | false =>
  cases hrdy : t.core.genLsuReady p i with
  | true =>
    rw [lsuBusy, h.walk.step_of_ready hrdy]
    rfl
  | false =>
  cases hbsy : t.core.bus.lsuBusy with
  | true =>
    rw [(step_of_busy hbsy hrdy).1, if_low, if_low, ← h.busy, hbsy]
  | false =>
    rw [step_of_not_taken hbsy htaken, if_low, if_low, ← h.busy, hbsy]

theorem port_step (h : Inv p t) : ∀ x, (t.step p i).hist.access = some x →
    (t.step p i).core.bus.requestQ = x.request.captured := by
  intro x hx
  rw [step_access] at hx
  cases htaken : t.core.genLsuTaken i with
  | true =>
    rw [htaken, if_pos rfl, some.injEq] at hx
    rw [← hx]
    exact (step_of_taken (p := p) htaken).2.2
  | false =>
  cases hrdy : t.core.genLsuReady p i with
  | true => simp [htaken, hrdy] at hx
  | false =>
    simp only [htaken, hrdy, if_low] at hx
    have hbsy : t.core.bus.lsuBusy := by rw [h.busy, hx]; rfl
    rw [← h.port x hx]
    exact (step_of_busy hbsy hrdy).2

/-- Nobody waits when a request is accepted on the tagged channel. -/
theorem abandoned_of_accept (hacc : t.core.pipeAccept i) {x : BusAccess}
    (hx : t.hist.access = some x) : t.abandoned i := by
  obtain ⟨-, -, hfree, -, hval⟩ := pipeAccept_iff.mp hacc
  rw [abandoned, hx]
  cases hsrc : x.source <;> simp [waits, hsrc, hfree, hval]

/-- An accepted memory access finds the engine free of others. -/
theorem access_of_accept (hc : Clear p t i) (hacc : t.core.pipeAccept i)
    (honly : i.lsuPipeReqI.xlateOnly = false) : (t.step p i).hist.access = none := by
  rw [step_access, taken_of_accept hacc]
  cases hx : t.hist.access with
  | none => simp
  | some x =>
    have hrdy := (hc (abandoned_of_accept hacc hx)).1 (by simp [acceptsAccess, hacc, honly])
    simp [hrdy]

section

variable (h : Inv p t)

include h

theorem since_fresh : .legacy (t.lsuSince i) ∉ t.hist.answers.map fst := by
  rcases lsuSince_cases (t := t) (i := i) with hnow | hpresented
  · intro hmem
    have hlt : t.lsuSince i < t.hist.clock := h.answers_past _ hmem
    exact hlt.ne hnow
  · exact (h.presented _ _ hpresented).2.1

/-- The answers of a cycle: those before it, and perhaps one more. -/
theorem answers_step :
    (t.core.genLsuReady p i = false ∧ (t.step p i).hist.answers = t.hist.answers) ∨
      ∃ x, t.core.genLsuReady p i ∧ t.hist.access = some x ∧
        (t.step p i).hist.answers = (x.source, t.core.genLsuAnswer p i) :: t.hist.answers := by
  cases hrdy : t.core.genLsuReady p i with
  | false =>
    left
    cases hacs : t.hist.access <;>
      simp [AdapterTracked.step, historyNext, hacs, hrdy]
  | true =>
    obtain ⟨x, hx⟩ := h.access_of_ready hrdy
    refine .inr ⟨x, rfl, hx, ?_⟩
    simp [AdapterTracked.step, historyNext, hx, hrdy]

theorem answers_lt : ∀ x ∈ (t.step p i).hist.answers.map fst, x.cycle < t.hist.clock := by
  rcases h.answers_step (i := i) with ⟨-, heq⟩ | ⟨y, -, hy, heq⟩
  · rw [heq]
    exact h.answers_past
  rw [heq]
  intro x hx
  rcases mem_cons.mp hx with rfl | hx
  · exact (h.opened y hy).1
  · exact h.answers_past x hx

theorem answers_mono {x : BusSource × BusAnswer} (hx : x ∈ t.hist.answers) :
    x ∈ (t.step p i).hist.answers := by
  rcases h.answers_step (i := i) with ⟨-, heq⟩ | ⟨y, -, -, heq⟩
  · rwa [heq]
  · rw [heq]
    exact List.mem_cons_of_mem _ hx

/-- The answer that completes the held request is that of its own access. -/
theorem access_of_done (hdone : t.core.pipeDone p i) :
    t.hist.access = some ⟨.tagged t.held, t.core.pipeQ⟩ := by
  rw [pipeDone, and_eq_true] at hdone
  obtain ⟨x, hx⟩ := h.access_of_ready hdone.2
  rcases (h.active hdone.1).2.1 with hnone | hown
  · rw [hx] at hnone
    cases hnone
  · exact hown

theorem presented_step : ∀ n q, (t.step p i).hist.presented = some (n, q) →
    n < (t.step p i).hist.clock ∧ .legacy n ∉ (t.step p i).hist.answers.map fst ∧
      ∀ r, (t.step p i).hist.access = some ⟨.legacy n, r⟩ → r = q := by
  intro n q hpresented
  have hnxt : (t.step p i).hist.presented =
      if i.lsuValidI && !t.core.lsuReadyO p i then some (t.lsuSince i, i.lsuI) else none := rfl
  rw [hnxt] at hpresented
  cases hwait : i.lsuValidI && !t.core.lsuReadyO p i with
  | false => simp [hwait] at hpresented
  | true =>
    rw [hwait, if_pos rfl, some.injEq, Prod.mk.injEq] at hpresented
    obtain ⟨rfl, rfl⟩ := hpresented
    rw [and_eq_true, not_eq_true'] at hwait
    refine ⟨Nat.lt_succ_of_le h.lsuSince_le, ?_, fun r hr => ?_⟩
    · rcases h.answers_step (i := i) with ⟨-, heq⟩ | ⟨y, hrdy, hy, heq⟩
      · rw [heq]
        exact h.since_fresh
      -- the answer of this cycle is for the tagged request
      have hact : t.core.pipeActiveQ := by
        by_contra hfree
        rw [lsuReadyO_iff.mpr ⟨hrdy, by simpa using hfree⟩] at hwait
        exact absurd hwait.2 (by simp)
      rw [h.access_of_done (i := i) (by simp [pipeDone, hact, hrdy]), some.injEq] at hy
      rw [heq, List.map_cons, mem_cons, ← hy]
      rintro (hsrc | hmem)
      · cases hsrc
      · exact h.since_fresh hmem
    · rw [step_access] at hr
      cases htaken : t.core.genLsuTaken i with
      | true =>
        rw [htaken, if_pos rfl, some.injEq, takenAccess, BusAccess.mk.injEq] at hr
        cases hact : t.core.pipeActiveQ with
        | true => simp [hact] at hr
        | false => rw [← hr.2, genLsu, hact, if_low]
      | false =>
      cases hrdy : t.core.genLsuReady p i with
      | true => simp [htaken, hrdy] at hr
      | false =>
        simp only [htaken, hrdy, if_low] at hr
        have hlt : t.lsuSince i < t.hist.clock := (h.opened _ hr).1
        exact (h.presented _ _ (lsuSince_cases.resolve_left hlt.ne)).2.2 r hr

theorem opened_step : ∀ x, (t.step p i).hist.access = some x →
    x.source.cycle < (t.step p i).hist.clock ∧ x.source ∉ (t.step p i).hist.answers.map fst := by
  intro x hx
  rw [step_access] at hx
  cases htaken : t.core.genLsuTaken i with
  | true =>
    have hrdy := ready_of_taken (p := p) htaken
    rw [htaken, if_pos rfl, some.injEq] at hx
    have hsame : (t.step p i).hist.answers = t.hist.answers := by
      rcases h.answers_step (i := i) with ⟨-, heq⟩ | ⟨y, hr, -⟩
      · exact heq
      · exact absurd_low (hrdy.symm.trans hr)
    rw [hsame, ← hx, takenAccess]
    cases hact : t.core.pipeActiveQ with
    | true => exact ⟨(h.held_lt (.inl hact)).trans (lt_succ_self _), (h.active hact).2.2⟩
    | false => exact ⟨Nat.lt_succ_of_le h.lsuSince_le, h.since_fresh⟩
  | false =>
  cases hrdy : t.core.genLsuReady p i with
  | true => simp [htaken, hrdy] at hx
  | false =>
    simp only [htaken, hrdy, if_low] at hx
    rcases h.answers_step (i := i) with ⟨-, heq⟩ | ⟨y, hr, -⟩
    · rw [heq]
      exact ⟨(h.opened x hx).1.trans (lt_succ_self _), (h.opened x hx).2⟩
    · exact absurd_low (hrdy.symm.trans hr)

theorem active_step (hc : Clear p t i) (hact : (t.step p i).core.pipeActiveQ) :
    (t.step p i).core.pipeXlateOnlyQ = false ∧ ((t.step p i).hist.access = none ∨
        (t.step p i).hist.access = some ⟨.tagged (t.step p i).held, (t.step p i).core.pipeQ⟩) ∧
      .tagged (t.step p i).held ∉ (t.step p i).hist.answers.map fst := by
  have hcore : (t.step p i).core = t.core.step p i := rfl
  rw [hcore] at hact ⊢
  rcases pipe_cases (p := p) (i := i) h.one with ⟨-, -, hfree, -⟩ |
    ⟨-, hacc, -, -, hnxt, -⟩ | ⟨-, -, -, -, hfree, -⟩ | ⟨-, -, -, -, hfree, -⟩ |
    ⟨-, hacc, hdone, -, hkept, -⟩
  · rw [hfree] at hact
    cases hact
  · rw [hnxt, not_eq_true'] at hact
    refine ⟨?_, .inl (access_of_accept hc hacc hact), ?_⟩
    · change (if _ then _ else _) = _
      rw [hacc, if_pos rfl, hact]
    · rw [held_of_accept hacc]
      exact fun hmem => (h.answers_lt _ hmem).ne rfl
  · rw [hfree] at hact
    cases hact
  · rw [hfree] at hact
    cases hact
  rw [hkept] at hact
  have hrdy : t.core.genLsuReady p i = false := by
    simpa [pipeDone, hact] using hdone
  obtain ⟨hxl, hacs, hfresh⟩ := h.active hact
  have hq : (t.core.step p i).pipeQ = t.core.pipeQ := by
    change (if _ then _ else _) = _
    rw [hacc, if_low]
  refine ⟨?_, ?_, ?_⟩
  · change (if _ then _ else _) = _
    rw [hacc, if_low, hxl]
  · rw [step_access, held_of_not_accept hacc, hq]
    cases htaken : t.core.genLsuTaken i with
    | true =>
      right
      simp [takenAccess, hact, genLsu]
    | false => simpa [hrdy] using hacs
  · rcases h.answers_step (i := i) with ⟨-, heq⟩ | ⟨y, hr, -⟩
    · rw [heq, held_of_not_accept hacc]
      exact hfresh
    · exact absurd_low (hrdy.symm.trans hr)

end

/-- The registers of the held request change only when another one is accepted. -/
theorem pipe_kept (hacc : t.core.pipeAccept i = false) :
    (t.core.step p i).pipeTagQ = t.core.pipeTagQ ∧
      (t.core.step p i).pipeXlateOnlyQ = t.core.pipeXlateOnlyQ ∧
      (t.core.step p i).pipeQ = t.core.pipeQ := by
  simp [CoreBusState.step, hacc]

theorem cancelled_eq : (t.step p i).hist.cancelled =
    if t.core.pipeCancel i && (t.core.pipeActiveQ || t.core.pipeRespValidQ) &&
      !t.core.pipeRespFire i then t.held :: t.hist.cancelled else t.hist.cancelled := rfl

theorem holds_step (h : Inv p t)
    (hheld : (t.step p i).core.pipeActiveQ ∨ (t.step p i).core.pipeRespValidQ) :
    ∃ q, (t.step p i).hist.accepted.head? = some ((t.step p i).held, q) ∧
      (t.step p i).core.pipeTagQ = q.tag ∧ (t.step p i).core.pipeXlateOnlyQ = q.xlateOnly ∧
      (t.step p i).core.pipeQ = q.access ∧ (t.step p i).held ∉ (t.step p i).hist.delivered ∧
      (t.step p i).held ∉ (t.step p i).hist.cancelled := by
  have hcore : (t.step p i).core = t.core.step p i := rfl
  -- a request that stays held without a response taken or a cancel
  have hkeep : t.core.pipeAccept i = false → t.core.pipeCancel i = false →
      t.core.pipeRespFire i = false → (t.core.pipeActiveQ ∨ t.core.pipeRespValidQ) →
      ∃ q, (t.step p i).hist.accepted.head? = some ((t.step p i).held, q) ∧
        (t.step p i).core.pipeTagQ = q.tag ∧ (t.step p i).core.pipeXlateOnlyQ = q.xlateOnly ∧
        (t.step p i).core.pipeQ = q.access ∧ (t.step p i).held ∉ (t.step p i).hist.delivered ∧
        (t.step p i).held ∉ (t.step p i).hist.cancelled := by
    intro hacc hcancel hfire hold
    obtain ⟨q, hhead, htag, hxl, hq, hdel, hcan⟩ := h.holds hold
    obtain ⟨htag', hxl', hq'⟩ := pipe_kept (p := p) (t := t) hacc
    refine ⟨q, ?_, htag'.trans htag, hxl'.trans hxl, hq'.trans hq, ?_, ?_⟩
    · rw [step_accepted, hacc, held_of_not_accept hacc]
      exact hhead
    · rw [step_delivered, hfire, held_of_not_accept hacc]
      exact hdel
    · rw [cancelled_eq, hcancel, held_of_not_accept hacc]
      exact hcan
  rcases pipe_cases (p := p) (i := i) h.one with ⟨-, -, hfree, hemp⟩ |
    ⟨hcancel, hacc, hfree, hemp, -⟩ | ⟨hcancel, hacc, hdone, hemp, -⟩ |
    ⟨-, -, -, -, hfree, hemp⟩ | ⟨hcancel, hacc, -, hfire, hact, hrsp, -⟩
  · rw [hcore, hfree, hemp] at hheld
    simp at hheld
  · have hfire : t.core.pipeRespFire i = false := by simp [pipeRespFire, hemp]
    refine ⟨i.lsuPipeReqI, ?_, ?_, ?_, ?_, ?_, ?_⟩
    · rw [step_accepted, hacc, held_of_accept hacc]
      rfl
    · simp [hcore, CoreBusState.step, hacc]
    · simp [hcore, CoreBusState.step, hacc]
    · simp [hcore, CoreBusState.step, hacc]
    · rw [step_delivered, hfire, held_of_accept hacc]
      exact fun hmem => (h.delivered_past _ hmem).ne rfl
    · rw [cancelled_eq, hcancel, held_of_accept hacc]
      exact fun hmem => (h.cancelled_past _ hmem).ne rfl
  · rw [pipeDone, and_eq_true] at hdone
    exact hkeep hacc hcancel (by simp [pipeRespFire, hemp]) (.inl hdone.1)
  · rw [hcore, hfree, hemp] at hheld
    simp at hheld
  · rw [hcore, hact, hrsp] at hheld
    exact hkeep hacc hcancel hfire hheld

theorem response_step (h : Inv p t) (hrsp : (t.step p i).core.pipeRespValidQ) (q : PipeRequest)
    (hhead : (t.step p i).hist.accepted.head? = some ((t.step p i).held, q)) :
    (t.step p i).core.pipeRespPaddrQ = q.lsu.addr ∧
      if q.xlateOnly then (t.step p i).core.pipeRespQ = q.xlateAnswer
      else (.tagged (t.step p i).held, (t.step p i).core.pipeRespQ) ∈
        (t.step p i).hist.answers := by
  have hcore : (t.step p i).core = t.core.step p i := rfl
  rw [hcore] at hrsp ⊢
  rw [step_accepted] at hhead
  rcases pipe_cases (p := p) (i := i) h.one with ⟨-, -, -, hemp⟩ | ⟨-, hacc, -, -, -, hxl, hans⟩ |
    ⟨-, hacc, hdone, -, -, -, hans, hpaddr⟩ | ⟨-, -, -, -, -, hemp⟩ |
    ⟨-, hacc, -, -, -, hkept, hans, hpaddr⟩
  · rw [hemp] at hrsp
    cases hrsp
  · rw [hxl] at hrsp
    rw [hacc, if_pos rfl, List.head?_cons, some.injEq, Prod.mk.injEq] at hhead
    obtain ⟨ha, hp⟩ := hans hrsp
    rw [← hhead.2, hrsp, if_pos rfl]
    exact ⟨hp, ha⟩
  · rw [hacc, held_of_not_accept hacc] at hhead
    have hacs := h.access_of_done hdone
    rw [pipeDone, and_eq_true] at hdone
    obtain ⟨q', hhead', -, hxl, hq, -⟩ := h.holds (.inl hdone.1)
    obtain rfl : q' = q := by
      have heq := hhead'.symm.trans hhead
      simpa using heq
    rw [(h.active hdone.1).1] at hxl
    rw [← hxl, if_low, hpaddr, hans, hq, held_of_not_accept hacc]
    refine ⟨rfl, ?_⟩
    rcases h.answers_step (i := i) with ⟨hr, -⟩ | ⟨y, -, hy, heq⟩
    · exact absurd_low (hr.symm.trans hdone.2)
    · rw [hacs, some.injEq] at hy
      rw [heq, ← hy]
      exact mem_cons_self
  · rw [hemp] at hrsp
    cases hrsp
  rw [hkept] at hrsp
  rw [hacc, held_of_not_accept hacc] at hhead
  obtain ⟨hp, ha⟩ := h.response hrsp q hhead
  rw [hpaddr, hans, held_of_not_accept hacc]
  refine ⟨hp, ?_⟩
  cases hxl : q.xlateOnly with
  | true => simpa [hxl] using ha
  | false =>
    rw [hxl, if_low] at ha
    rw [if_low]
    exact h.answers_mono ha

/-- A cancel that takes effect on the held request finds no store. -/
theorem not_store_of_cancel (h : Inv p t) (hcan : t.core.pipeCancel i)
    (hheld : t.core.pipeActiveQ ∨ t.core.pipeRespValidQ) {q : PipeRequest}
    (hq : (t.held, q) ∈ t.hist.accepted) : q.isStore = false := by
  obtain ⟨q', hhead, -, hxl, hacs, -⟩ := h.holds hheld
  have hsame : q' = q := by
    have hmem := mem_of_mem_head? hhead
    have heq := List.inj_on_of_nodup_map h.accepted_nodup hmem hq rfl
    exact (Prod.mk.inj heq).2
  have hany : (t.core.pipeActiveQ || t.core.pipeRespValidQ) := by simpa using hheld
  have hwr : t.core.pipeQ.write = q.lsu.write := by rw [hacs, hsame]; rfl
  rw [pipeCancel, hany, hwr, hxl, hsame] at hcan
  simp only [Bool.and_true, and_eq_true, not_eq_true'] at hcan
  exact hcan.2

theorem mem_accepted_step {x : ℕ × PipeRequest} (hx : x ∈ (t.step p i).hist.accepted) :
    (t.core.pipeAccept i ∧ x = (t.hist.clock, i.lsuPipeReqI)) ∨ x ∈ t.hist.accepted := by
  rw [step_accepted] at hx
  cases hacc : t.core.pipeAccept i with
  | true =>
    rw [hacc, if_pos rfl] at hx
    exact (mem_cons.mp hx).imp_left fun heq => ⟨rfl, heq⟩
  | false =>
    rw [hacc, if_low] at hx
    exact .inr hx

theorem mem_delivered_step {n : ℕ} (hn : n ∈ (t.step p i).hist.delivered) :
    (t.core.pipeRespFire i ∧ n = t.held) ∨ n ∈ t.hist.delivered := by
  rw [step_delivered] at hn
  cases hfire : t.core.pipeRespFire i with
  | true =>
    rw [hfire, if_pos rfl] at hn
    exact (mem_cons.mp hn).imp_left fun heq => ⟨rfl, heq⟩
  | false =>
    rw [hfire, if_low] at hn
    exact .inr hn

theorem delivered_mono {n : ℕ} (hn : n ∈ t.hist.delivered) : n ∈ (t.step p i).hist.delivered := by
  rw [step_delivered]
  split
  · exact List.mem_cons_of_mem _ hn
  · exact hn

theorem mem_cancelled_step {n : ℕ} (hn : n ∈ (t.step p i).hist.cancelled) :
    (t.core.pipeCancel i ∧ (t.core.pipeActiveQ ∨ t.core.pipeRespValidQ) ∧
      t.core.pipeRespFire i = false ∧ n = t.held) ∨ n ∈ t.hist.cancelled := by
  rw [cancelled_eq] at hn
  cases hcond : t.core.pipeCancel i && (t.core.pipeActiveQ || t.core.pipeRespValidQ) &&
      !t.core.pipeRespFire i with
  | true =>
    rw [hcond, if_pos rfl] at hn
    simp only [and_eq_true, Bool.or_eq_true, not_eq_true'] at hcond
    exact (mem_cons.mp hn).imp_left fun heq => ⟨hcond.1.1, hcond.1.2, hcond.2, heq⟩
  | false =>
    rw [hcond, if_low] at hn
    exact .inr hn

theorem held_of_fire (hfire : t.core.pipeRespFire i) : t.core.pipeRespValidQ := by
  rw [pipeRespFire, and_eq_true] at hfire
  exact hfire.1

theorem cancelled_step (h : Inv p t) : ∀ n ∈ (t.step p i).hist.cancelled,
    n ∉ (t.step p i).hist.delivered ∧
      ∀ q, (n, q) ∈ (t.step p i).hist.accepted → q.isStore = false := by
  intro n hn
  rcases mem_cancelled_step hn with ⟨hcancel, hheld, hfire, rfl⟩ | hold
  · obtain ⟨-, -, -, -, -, hdel, -⟩ := h.holds hheld
    refine ⟨fun hmem => ?_, fun q hq => ?_⟩
    · rcases mem_delivered_step hmem with ⟨hf, -⟩ | hmem
      · exact absurd_low (hfire.symm.trans hf)
      · exact hdel hmem
    · rcases mem_accepted_step hq with ⟨-, heq⟩ | hq
      · exact absurd (Prod.mk.inj heq).1 (h.held_lt hheld).ne
      · exact h.not_store_of_cancel hcancel hheld hq
  obtain ⟨hdel, hstr⟩ := h.cancelled n hold
  refine ⟨fun hmem => ?_, fun q hq => ?_⟩
  · rcases mem_delivered_step hmem with ⟨hf, rfl⟩ | hmem
    · obtain ⟨-, -, -, -, -, -, hcan⟩ := h.holds (.inr (held_of_fire hf))
      exact hcan hold
    · exact hdel hmem
  · rcases mem_accepted_step hq with ⟨-, heq⟩ | hq
    · exact absurd (Prod.mk.inj heq).1 (h.cancelled_past n hold).ne
    · exact hstr q hq

theorem deliveredOnce_step (h : Inv p t) : (t.step p i).hist.delivered.Nodup := by
  rw [step_delivered]
  cases hfire : t.core.pipeRespFire i with
  | true =>
    obtain ⟨-, -, -, -, -, hdel, -⟩ := h.holds (.inr (held_of_fire hfire))
    exact nodup_cons.mpr ⟨hdel, h.deliveredOnce⟩
  | false => exact h.deliveredOnce

theorem answeredOnce_step (h : Inv p t) : ((t.step p i).hist.answers.map fst).Nodup := by
  rcases h.answers_step (i := i) with ⟨-, heq⟩ | ⟨y, -, hy, heq⟩
  · rw [heq]
    exact h.answeredOnce
  · rw [heq]
    exact nodup_cons.mpr ⟨(h.opened y hy).2, h.answeredOnce⟩

/-- The accesses of a cycle that memory performs. -/
theorem performed_eq : (t.step p i).hist.performed =
    if t.core.performs i then
      (t.hist.access.map BusAccess.source).toList ++ t.hist.performed
    else t.hist.performed := by
  cases hacs : t.hist.access with
  | none =>
    cases hp : t.core.performs i <;>
      simp [AdapterTracked.step, historyNext, hacs]
  | some x =>
    cases hp : t.core.performs i <;>
      simp [AdapterTracked.step, historyNext, hacs, hp]

section

variable (h : Inv p t)

include h

theorem performed_step :
    (t.step p i).hist.performed.Sublist ((t.step p i).hist.answers.map fst) := by
  rw [performed_eq]
  rcases h.answers_step (i := i) with ⟨hrdy, heq⟩ | ⟨y, -, hy, heq⟩
  · have hno : t.core.performs i = false := by
      by_contra hperforms
      rw [ready_of_performs (by simpa using hperforms)] at hrdy
      exact false_ne_true hrdy.symm
    rw [hno, heq]
    exact h.performed
  · rw [heq, hy]
    cases t.core.performs i with
    | true => exact h.performed.cons_cons _
    | false => exact h.performed.cons _

theorem complete_step : ∀ x a, (x, a) ∈ (t.step p i).hist.answers →
    a.accessFault = false → a.pageFault = false → x ∈ (t.step p i).hist.performed := by
  intro x a hx hacs hpage
  rw [performed_eq]
  rcases h.answers_step (i := i) with ⟨-, heq⟩ | ⟨y, hrdy, hy, heq⟩
  · rw [heq] at hx
    have hold := h.complete x a hx hacs hpage
    split
    · exact List.mem_append_right _ hold
    · exact hold
  rw [heq] at hx
  rcases mem_cons.mp hx with hnew | hx
  · obtain ⟨rfl, rfl⟩ := Prod.mk.inj hnew
    rw [performs_of_answer hrdy hacs hpage, hy]
    exact mem_cons_self
  · have hold := h.complete x a hx hacs hpage
    split
    · exact List.mem_append_right _ hold
    · exact hold

theorem store_step : ∀ n q, (n, q) ∈ (t.step p i).hist.accepted →
    q.isStore → n ∈ (t.step p i).hist.delivered ∨ ((t.step p i).hist.accepted.head? = some (n, q) ∧
        ((t.step p i).core.pipeActiveQ ∨ (t.step p i).core.pipeRespValidQ)) := by
  intro n q hq hstr
  have hcore : (t.step p i).core = t.core.step p i := rfl
  rcases mem_accepted_step hq with ⟨hacc, heq⟩ | hq
  · obtain ⟨rfl, rfl⟩ := Prod.mk.inj heq
    right
    rw [step_accepted, hacc, hcore]
    refine ⟨rfl, .inl ?_⟩
    rw [PipeRequest.isStore, and_eq_true] at hstr
    obtain ⟨-, hcan, hfree, -, -⟩ := pipeAccept_iff.mp hacc
    simp [CoreBusState.step, pipeActiveNext, pipeCancel, hcan, pipeDone, hfree, hacc, hstr.2]
  rcases h.store n q hq hstr with hdel | ⟨hhead, hheld⟩
  · exact .inl (delivered_mono hdel)
  have hn : n = t.held := by simp [held, hhead]
  rcases pipe_cases (p := p) (i := i) h.one with ⟨hcan, -⟩ |
    ⟨-, -, hfree, hemp, -⟩ | ⟨-, hacc, -, -, -, hrsp, -⟩ |
    ⟨-, -, hfire, -⟩ | ⟨-, hacc, -, -, hact, hrsp, -⟩
  · have hnot := h.not_store_of_cancel hcan hheld (hn ▸ hq)
    exact absurd_low (hnot.symm.trans hstr)
  · rw [hfree, hemp] at hheld
    simp at hheld
  · right
    rw [step_accepted, hacc, hcore]
    exact ⟨hhead, .inr hrsp⟩
  · left
    rw [step_delivered, hfire, if_pos rfl, hn]
    exact mem_cons_self
  · right
    rw [step_accepted, hacc, hcore, hact, hrsp]
    exact ⟨hhead, hheld⟩

theorem one_step : (t.step p i).core.pipeActiveQ = false ∨
    (t.step p i).core.pipeRespValidQ = false := by
  have hcore : (t.step p i).core = t.core.step p i := rfl
  rw [hcore]
  rcases pipe_cases (p := p) (i := i) h.one with ⟨-, -, hfree, -⟩ |
    ⟨-, -, -, -, hact, hrsp, -⟩ | ⟨-, -, -, -, hfree, -⟩ | ⟨-, -, -, -, hfree, -⟩ |
    ⟨-, -, -, -, hact, hrsp, -⟩
  · exact .inl hfree
  · rw [hact, hrsp]
    cases i.lsuPipeReqI.xlateOnly
    · exact .inr rfl
    · exact .inl rfl
  · exact .inl hfree
  · exact .inl hfree
  · rw [hact, hrsp]
    exact h.one

theorem xlate_step (hval : (t.step p i).core.genXlateRespValidQ) :
    ∃ q, (t.step p i).hist.xlate = some q ∧ (t.step p i).core.genXlateRespTagQ = q.tag ∧
      (t.step p i).core.genXlateRespPaddrQ = q.vaddr ∧
        (t.step p i).core.genXlateRespAccessFaultQ = (q.vmMode != satpModeBare) := by
  cases hacc : t.core.xlateAccept i with
  | true =>
    exact ⟨i.lsuXlateReqI, by simp [step, historyNext, hacc],
      by simp [step, CoreBusState.step, hacc], by simp [step, CoreBusState.step, hacc],
      by simp [step, CoreBusState.step, hacc]⟩
  | false =>
    have hold : t.core.genXlateRespValidQ := by
      have hnxt : (t.step p i).core.genXlateRespValidQ =
        (t.core.xlateAccept i || (t.core.genXlateRespValidQ && !i.lsuXlateRespReadyI)) := rfl
      rw [hnxt, hacc, Bool.false_or, and_eq_true] at hval
      exact hval.1
    obtain ⟨q, hq, htag, hpaddr, hflt⟩ := h.xlate hold
    exact ⟨q, by simpa [step, historyNext, hacc] using hq,
      by simpa [step, CoreBusState.step, hacc] using htag,
      by simpa [step, CoreBusState.step, hacc] using hpaddr,
      by simpa [step, CoreBusState.step, hacc] using hflt⟩

theorem step_inv (hc : Clear p t i) : Inv p (t.step p i) where
  walk := h.walk.step
  busy := h.busy_step
  port := h.port_step
  one := h.one_step
  holds := h.holds_step
  active := h.active_step hc
  response := h.response_step
  presented := h.presented_step
  opened := h.opened_step
  answers_past x hx := (h.answers_lt x hx).trans (lt_succ_self _)
  accepted_past x hx := by
    rcases mem_accepted_step hx with ⟨-, rfl⟩ | hx
    · exact lt_succ_self _
    · exact (h.accepted_past x hx).trans (lt_succ_self _)
  accepted_nodup := by
    rw [step_accepted]
    split
    · refine nodup_cons.mpr ⟨fun hmem => ?_, h.accepted_nodup⟩
      obtain ⟨x, hx, heq⟩ := mem_map.mp hmem
      exact (h.accepted_past x hx).ne heq
    · exact h.accepted_nodup
  delivered_past n hn := by
    rcases mem_delivered_step hn with ⟨hfire, rfl⟩ | hn
    · exact (h.held_lt (.inr (held_of_fire hfire))).trans (lt_succ_self _)
    · exact (h.delivered_past n hn).trans (lt_succ_self _)
  cancelled_past n hn := by
    rcases mem_cancelled_step hn with ⟨-, hheld, -, rfl⟩ | hn
    · exact (h.held_lt hheld).trans (lt_succ_self _)
    · exact (h.cancelled_past n hn).trans (lt_succ_self _)
  cancelled := h.cancelled_step
  deliveredOnce := h.deliveredOnce_step
  answeredOnce := h.answeredOnce_step
  performed := h.performed_step
  complete := h.complete_step
  store := h.store_step
  xlate := h.xlate_step

/-- In a clear cycle every answer goes to the request that it answers. -/
theorem attributed (hc : Clear p t i) : Attributed p t i where
  port x hx := ⟨by rw [h.busy, hx]; rfl, h.port x hx⟩
  fresh htaken := h.walk.idle_of_taken htaken
  tagged hdone := by
    have hacs := h.access_of_done hdone
    rw [pipeDone, and_eq_true] at hdone
    obtain ⟨q, hhead, -, -, hq, -⟩ := h.holds (.inl hdone.1)
    exact ⟨t.held, q, hhead, by rw [hacs, hq]⟩
  legacy hrdy hval := by
    rw [lsuReadyO_iff] at hrdy
    obtain ⟨x, hx⟩ := h.access_of_ready hrdy.1
    have hwaits : t.waits i x.source := by
      by_contra hgone
      have habandoned : t.abandoned i := by
        rw [abandoned, hx]
        simpa using hgone
      exact false_ne_true (((hc habandoned).2 hrdy.1 hrdy.2).symm.trans hval)
    obtain ⟨source, request⟩ := x
    cases source with
    | tagged n => simp [waits, hrdy.2] at hwaits
    | legacy n =>
      obtain ⟨-, rfl⟩ : i.lsuValidI ∧ t.lsuSince i = n := by simpa [waits] using hwaits
      have hlt : t.lsuSince i < t.hist.clock := (h.opened _ hx).1
      rw [hx, (h.presented _ _ (lsuSince_cases.resolve_left hlt.ne)).2.2 request hx]
  response hrsp := by
    obtain ⟨q, hhead, htag, -⟩ := h.holds (.inr hrsp)
    exact ⟨t.held, q, hhead, htag, h.response hrsp q hhead⟩
  cancelled := h.cancelled
  deliveredOnce := h.deliveredOnce
  answeredOnce := h.answeredOnce
  performedOnce := h.answeredOnce.sublist h.performed
  performed := by
    refine ⟨fun x hx => ?_, h.complete⟩
    obtain ⟨⟨y, a⟩, hmem, rfl⟩ := mem_map.mp (h.performed.subset hx)
    exact ⟨a, hmem⟩
  store := h.store
  xlate := h.xlate
  toldApart hacc := by
    rw [acceptsAccess, and_eq_true] at hacc
    cases hx : t.hist.access with
    | none => exact .inl rfl
    | some x =>
      exact .inr ((hc (abandoned_of_accept hacc.1 hx)).1 (by simpa [acceptsAccess] using hacc))

end

theorem init (hinit : (busAdapter p).Init t) : Inv p t := by
  obtain ⟨⟨powerUp, hcore⟩, hhist⟩ := hinit
  obtain ⟨core, hist⟩ := t
  obtain rfl : core = _ := hcore
  obtain rfl : hist = _ := hhist
  exact {
    walk := walkOwned_reset powerUp
    busy := rfl
    port := by simp
    one := .inl rfl
    holds := by simp [CoreBusState.reset]
    active := by simp [CoreBusState.reset]
    response := by simp [CoreBusState.reset]
    presented := by simp
    opened := by simp
    answers_past := by simp
    accepted_past := by simp
    accepted_nodup := nodup_nil
    delivered_past := by simp
    cancelled_past := by simp
    cancelled := by simp
    deliveredOnce := nodup_nil
    answeredOnce := nodup_nil
    performed := List.Sublist.refl _
    complete := by simp
    store := by simp
    xlate := by simp [CoreBusState.reset] }

theorem of_clear (b : Behaviour (busAdapter p) anyEnv)
    (hclr : ∀ n, Clear p (b.state n) (b.input n)) (n : ℕ) : Inv p (b.state n) := by
  induction n with
  | zero => exact init b.init
  | succ n ih =>
    rw [b.next n]
    exact ih.step_inv (hclr n)

end Inv

/-! ### A store is answered -/

/-- Translations, accesses and responses take finitely many cycles. -/
structure FiniteLatency (b : Behaviour (busAdapter p) anyEnv) : Prop where
  translation : ∀ n, ∃ m, n ≤ m ∧ (b.state m).core.bus.stateQ ≠ .translate
  access : ∀ n, ∃ m, n ≤ m ∧ ((b.state m).core.bus.stateQ = .access →
    (b.state m).core.rawReqReady (b.input m) = true)
  response : ∀ n, ∃ m, n ≤ m ∧ (b.input m).lsuPipeRespReadyI = true

/-- Every store that is accepted is answered later on. -/
def StoresAnswered (b : Behaviour (busAdapter p) anyEnv) : Prop :=
  ∀ n, (b.state n).core.pipeAccept (b.input n) = true →
    (b.input n).lsuPipeReqI.isStore = true → ∃ m, n < m ∧ n ∈ (b.state m).hist.delivered

/-- How far a held store is from its answer.  The engine may have to finish a fetch first. -/
def storeLeft (n : ℕ) (t : AdapterTracked) : ℕ :=
  if n ∈ t.hist.delivered then 0
  else if t.core.pipeRespValidQ then 1
  else
    match t.hist.access, t.core.bus.stateQ with
    | none, .translate => 6
    | none, .access => 5
    | none, .idle => 4
    | some _, .translate => 3
    | some _, .access => 2
    | some _, .idle => 0

/-- What keeps a store where it is. -/
def Stalls (t : AdapterTracked) (i : CoreBusInput) : Prop :=
  (t.core.pipeRespValidQ = true ∧ i.lsuPipeRespReadyI = false) ∨
    (t.core.pipeRespValidQ = false ∧ (t.core.bus.stateQ = .translate ∨
      (t.core.bus.stateQ = .access ∧ t.core.rawReqReady i = false)))

/-- The store of number `n` is in the adapter. -/
structure Waiting (p : GenBusParams) (n : ℕ) (t : AdapterTracked) : Prop extends Inv p t where
  undelivered : n ∉ t.hist.delivered
  store_held : ∃ q, t.hist.accepted.head? = some (n, q) ∧ q.isStore = true ∧
    (t.core.pipeActiveQ = true ∨ t.core.pipeRespValidQ = true)

namespace Waiting

variable {n : ℕ}

section

variable (h : Waiting p n t)

include h

theorem held_eq : t.held = n := by
  obtain ⟨q, hhead, -⟩ := h.store_held
  simp [held, hhead]

theorem not_cancel : t.core.pipeCancel i = false := by
  obtain ⟨q, hhead, hstr, hheld⟩ := h.store_held
  refine eq_false_of_ne_true fun hcan => ?_
  have hmem := mem_of_mem_head? hhead
  rw [← h.held_eq] at hmem
  rw [h.not_store_of_cancel hcan hheld hmem] at hstr
  cases hstr

/-- The response of the store is taken, or it stays. -/
theorem resp_step (hrsp : t.core.pipeRespValidQ) :
    if i.lsuPipeRespReadyI then n ∈ (t.step p i).hist.delivered
    else (t.step p i).core.pipeRespValidQ := by
  have hfree : t.core.pipeActiveQ = false := h.one.resolve_right (by simp [hrsp])
  cases hrdy : i.lsuPipeRespReadyI with
  | true =>
    rw [if_pos rfl, step_delivered, pipeRespFire, hrsp, hrdy, h.held_eq]
    exact mem_cons_self
  | false =>
    simp [step, CoreBusState.step, pipeRespValidNext, h.not_cancel,
      pipeRespFire, hrdy, pipeDone, hfree, hrsp]

/-- The answer of its access becomes the response of the store. -/
theorem done_step (hact : t.core.pipeActiveQ)
    (hrdy : t.core.genLsuReady p i) : (t.step p i).core.pipeRespValidQ := by
  have hemp : t.core.pipeRespValidQ = false := h.one.resolve_left (by simp [hact])
  simp [step, CoreBusState.step, pipeRespValidNext, h.not_cancel,
    pipeRespFire, hemp, pipeDone, hact, hrdy]

theorem left_cases : (t.core.pipeRespValidQ ∧ storeLeft n t = 1) ∨
    (t.core.pipeActiveQ ∧ t.core.pipeRespValidQ = false ∧
      ((t.hist.access = none ∧ t.core.bus.stateQ = .translate ∧ storeLeft n t = 6) ∨
        (t.hist.access = none ∧ t.core.bus.stateQ = .access ∧ storeLeft n t = 5) ∨
        (t.hist.access = none ∧ t.core.bus.stateQ = .idle ∧ storeLeft n t = 4) ∨
        (t.hist.access.isSome ∧ t.core.bus.stateQ = .translate ∧ storeLeft n t = 3) ∨
        (t.hist.access.isSome ∧ t.core.bus.stateQ = .access ∧ storeLeft n t = 2))) := by
  have hopen := h.undelivered
  obtain ⟨q, -, -, hheld⟩ := h.store_held
  cases hrsp : t.core.pipeRespValidQ with
  | true => exact .inl ⟨rfl, by simp [storeLeft, hopen, hrsp]⟩
  | false =>
    right
    have hact : t.core.pipeActiveQ := by simpa [hrsp] using hheld
    refine ⟨hact, rfl, ?_⟩
    cases hacs : t.hist.access with
    | none =>
      cases hst : t.core.bus.stateQ with
      | idle => exact .inr (.inr (.inl ⟨rfl, rfl, by simp [storeLeft, *]⟩))
      | translate => exact .inl ⟨rfl, rfl, by simp [storeLeft, *]⟩
      | access => exact .inr (.inl ⟨rfl, rfl, by simp [storeLeft, *]⟩)
    | some x =>
      have hbsy : t.core.bus.lsuBusy := by rw [h.busy, hacs]; rfl
      rcases (lsuBusy_iff.mp hbsy).1 with hst | hst
      · exact .inr (.inr (.inr (.inl ⟨rfl, hst, by simp [storeLeft, *]⟩)))
      · exact .inr (.inr (.inr (.inr ⟨rfl, hst, by simp [storeLeft, *]⟩)))

theorem place_of_left : (storeLeft n t = 1 → t.core.pipeRespValidQ) ∧
      (storeLeft n t = 6 ∨ storeLeft n t = 3 → t.core.bus.stateQ = .translate) ∧
      (storeLeft n t = 5 ∨ storeLeft n t = 2 →
        t.core.pipeRespValidQ = false ∧ t.core.bus.stateQ = .access) := by
  rcases h.left_cases with ⟨hrsp, hl⟩ | ⟨-, hemp, hwhere⟩
  · exact ⟨fun _ => hrsp, by omega, by omega⟩
  rcases hwhere with ⟨-, hs, hl⟩ | ⟨-, hs, hl⟩ | ⟨-, hs, hl⟩ | ⟨-, hs, hl⟩ | ⟨-, hs, hl⟩
  · exact ⟨by omega, fun _ => hs, by omega⟩
  · exact ⟨by omega, by omega, fun _ => ⟨hemp, hs⟩⟩
  · exact ⟨by omega, by omega, by omega⟩
  · exact ⟨by omega, fun _ => hs, by omega⟩
  · exact ⟨by omega, by omega, fun _ => ⟨hemp, hs⟩⟩

/-- The store stays in the adapter until it is delivered. -/
theorem step (hc : Clear p t i) (hopen : n ∉ (AdapterTracked.step p t i).hist.delivered) :
    Waiting p n (AdapterTracked.step p t i) := by
  obtain ⟨q, hhead, hstr, hheld⟩ := h.store_held
  have hnxt := h.step_inv hc
  have hacc : t.core.pipeAccept i = false := by
    by_contra hacc
    obtain ⟨-, -, hfree, hemp, -⟩ := pipeAccept_iff.mp (by simpa using hacc)
    rw [hfree, hemp] at hheld
    simp at hheld
  have hhead' : (AdapterTracked.step p t i).hist.accepted.head? = some (n, q) := by
    rw [step_accepted, hacc]
    exact hhead
  exact ⟨hnxt, hopen, q, hhead', hstr, ((hnxt.store n q (mem_of_mem_head? hhead')
    hstr).resolve_left hopen).2⟩

theorem empty_step (hact : t.core.pipeActiveQ) (hrdy : t.core.genLsuReady p i = false) :
    (AdapterTracked.step p t i).core.pipeRespValidQ = false := by
  have hemp : t.core.pipeRespValidQ = false := h.one.resolve_left (by simp [hact])
  simp [AdapterTracked.step, CoreBusState.step, pipeRespValidNext, h.not_cancel,
    pipeRespFire, hemp, pipeDone, hrdy, pipeAccept, lsuPipeReqReadyO, hact]

end

theorem taken_eq (hact : t.core.pipeActiveQ) :
    t.core.genLsuTaken i = t.core.bus.lsuFree (t.core.busInput i) := by
  simp [genLsuTaken, lsuTaken, busInput, genLsuValid, hact]

/-- The access of the store is in the engine in the next cycle. -/
theorem left_of_access (h : Waiting p n t) (hemp : t.core.pipeRespValidQ = false)
    (hacs : t.hist.access.isSome) : storeLeft n t ≤ 3 := by
  rcases h.left_cases with ⟨hrsp, -⟩ | ⟨-, -, hwhere⟩
  · exact absurd_low (hemp.symm.trans hrsp)
  rcases hwhere with ⟨hn, -⟩ | ⟨hn, -⟩ | ⟨hn, -⟩ | ⟨-, -, hl⟩ | ⟨-, -, hl⟩
  · simp [hn] at hacs
  · simp [hn] at hacs
  · simp [hn] at hacs
  · exact hl.le
  · exact hl.le.trans (by decide)

section

variable (h : Waiting p n t) (hnxt : Waiting p n (AdapterTracked.step p t i))
  (hact : t.core.pipeActiveQ) (hrdy : t.core.genLsuReady p i = false)

include h hnxt hact hrdy

/-- Before its access has begun a store waits for the fetch in the engine only. -/
theorem left_step_fetch (hnone : t.hist.access = none) :
    storeLeft n (AdapterTracked.step p t i) < storeLeft n t ∨
      (storeLeft n (AdapterTracked.step p t i) = storeLeft n t ∧ Stalls t i) := by
  have hemp : t.core.pipeRespValidQ = false := h.one.resolve_left (by simp [hact])
  have hemp' := h.empty_step hact hrdy
  have haccess' := step_access (p := p) (t := t) (i := i)
  rw [hrdy, if_low, taken_eq hact] at haccess'
  -- the engine takes the store as soon as it is free
  have hstart : t.core.bus.lsuFree (t.core.busInput i) →
      storeLeft n (AdapterTracked.step p t i) ≤ 3 := by
    intro hgo
    rw [hgo, if_pos rfl] at haccess'
    exact hnxt.left_of_access hemp' (by simp [haccess'])
  rcases h.left_cases with ⟨hrsp, -⟩ | ⟨-, -, hwhere⟩
  · exact absurd_low (hemp.symm.trans hrsp)
  rcases hwhere with ⟨-, hst, hl⟩ | ⟨-, hst, hl⟩ | ⟨-, hst, hl⟩ | ⟨hs, -⟩ | ⟨hs, -⟩
  · have hle : storeLeft n (AdapterTracked.step p t i) ≤ 6 := by
      rcases hnxt.left_cases with ⟨-, hl'⟩ | ⟨-, -, hwhere'⟩ <;> omega
    rcases Nat.lt_or_eq_of_le hle with hlt | heq
    · exact .inl (hl ▸ hlt)
    · exact .inr ⟨heq.trans hl.symm, .inr ⟨hemp, .inl hst⟩⟩
  · cases hmem : t.core.rawReqReady i with
    | true =>
      have hown : t.core.bus.ownerIsFetch := by
        have hbsy := h.busy
        rw [hnone] at hbsy
        simpa [lsuBusy, hst] using hbsy
      have hgo := hstart (by
        simp [lsuFree, accessComplete, accessing, hst, busInput, hmem, hown])
      exact .inl (by omega)
    | false =>
      have hst' : (AdapterTracked.step p t i).core.bus.stateQ = .access :=
        GenBusState.step_of_waiting hst hmem
      have hno : t.core.bus.lsuFree (t.core.busInput i) = false := by
        simp [lsuFree, accessComplete, hst, busInput, hmem]
      rw [hno, if_low, hnone] at haccess'
      refine .inr ⟨?_, .inr ⟨hemp, .inr ⟨hst, hmem⟩⟩⟩
      rw [hl]
      simp [storeLeft, hnxt.undelivered, hemp', haccess', hst']
  · have hgo := hstart (by simp [lsuFree, hst])
    exact .inl (by omega)
  · simp [hnone] at hs
  · simp [hnone] at hs

/-- Once its access has begun a store waits for the engine only. -/
theorem left_step_access (hsome : t.hist.access.isSome) :
    storeLeft n (AdapterTracked.step p t i) < storeLeft n t ∨
      (storeLeft n (AdapterTracked.step p t i) = storeLeft n t ∧ Stalls t i) := by
  have hemp : t.core.pipeRespValidQ = false := h.one.resolve_left (by simp [hact])
  have hemp' := h.empty_step hact hrdy
  have hbsy : t.core.bus.lsuBusy := h.busy.trans hsome
  have haccess' : (AdapterTracked.step p t i).hist.access = t.hist.access := by
    rw [step_access, hrdy, if_low]
    cases htaken : t.core.genLsuTaken i with
    | true => simp [h.access_of_taken htaken] at hsome
    | false => rfl
  have hle := hnxt.left_of_access hemp' (haccess' ▸ hsome)
  rcases h.left_cases with ⟨hrsp, -⟩ | ⟨-, -, hwhere⟩
  · exact absurd_low (hemp.symm.trans hrsp)
  rcases hwhere with ⟨hn, -⟩ | ⟨hn, -⟩ | ⟨hn, -⟩ | ⟨-, hst, hl⟩ | ⟨-, hst, hl⟩
  · simp [hn] at hsome
  · simp [hn] at hsome
  · simp [hn] at hsome
  · rcases Nat.lt_or_eq_of_le hle with hlt | heq
    · exact .inl (hl ▸ hlt)
    · exact .inr ⟨heq.trans hl.symm, .inr ⟨hemp, .inl hst⟩⟩
  have hmem : t.core.rawReqReady i = false := by
    have hown := (lsuBusy_iff.mp hbsy).2
    have hnot : t.core.bus.accessComplete (t.core.busInput i) = false := by
      have hdone := (Bool.and_eq_false_iff.mp hrdy).resolve_left (by simp [ownerIsFetch, hown])
      exact (Bool.or_eq_false_iff.mp hdone).2
    simpa [accessComplete, accessing, hst, busInput] using hnot
  have hst' : (AdapterTracked.step p t i).core.bus.stateQ = .access :=
    GenBusState.step_of_waiting hst hmem
  refine .inr ⟨?_, .inr ⟨hemp, .inr ⟨hst, hmem⟩⟩⟩
  obtain ⟨x, hx⟩ := Option.isSome_iff_exists.mp hsome
  rw [hl]
  simp [storeLeft, hnxt.undelivered, hemp', haccess', hx, hst']

end

/-- A store that is not delivered in a cycle comes nearer to its answer, or it waits for a
translation, for memory or for its response to be taken. -/
theorem left_step (h : Waiting p n t) (hc : Clear p t i)
    (hopen : n ∉ (AdapterTracked.step p t i).hist.delivered) :
    storeLeft n (AdapterTracked.step p t i) < storeLeft n t ∨
      (storeLeft n (AdapterTracked.step p t i) = storeLeft n t ∧ Stalls t i) := by
  have hnxt := h.step hc hopen
  rcases h.left_cases with ⟨hrsp, hleft⟩ | ⟨hact, -, hwhere⟩
  · have hgo := h.resp_step (i := i) hrsp
    cases hrdy : i.lsuPipeRespReadyI with
    | true =>
      rw [hrdy, if_pos rfl] at hgo
      exact absurd hgo hopen
    | false =>
      rw [hrdy, if_low] at hgo
      refine .inr ⟨?_, .inl ⟨hrsp, hrdy⟩⟩
      rw [hleft]
      simp [storeLeft, hopen, hgo]
  cases hrdy : t.core.genLsuReady p i with
  | true =>
    have hone : storeLeft n (AdapterTracked.step p t i) = 1 := by
      simp [storeLeft, hopen, h.done_step hact hrdy]
    exact .inl (by omega)
  | false =>
    cases hacs : t.hist.access with
    | none => exact h.left_step_fetch hnxt hact hrdy hacs
    | some x => exact h.left_step_access hnxt hact hrdy (by simp [hacs])

end Waiting

/-- A store that stays in the adapter for ever waits for ever. -/
theorem stalls_of_left {n : ℕ} (h : Waiting p n t) (hc : Clear p t i)
    (hopen : n ∉ (t.step p i).hist.delivered)
    (hsame : storeLeft n (t.step p i) = storeLeft n t) : Stalls t i :=
  ((h.left_step hc hopen).resolve_left hsame.not_lt).2

section Behaviour

variable (b : Behaviour (busAdapter p) anyEnv)

theorem clock_eq (n : ℕ) : (b.state n).hist.clock = n := by
  induction n with
  | zero => rw [b.init.2]
  | succ n ih =>
    rw [b.next n]
    exact congrArg (· + 1) ih

theorem waiting_of_accept (hclr : ∀ n, Clear p (b.state n) (b.input n)) {n : ℕ}
    (hacc : (b.state n).core.pipeAccept (b.input n))
    (hstr : (b.input n).lsuPipeReqI.isStore) : Waiting p n (b.state (n + 1)) := by
  have hinv := Inv.of_clear b hclr n
  have hnxt := Inv.of_clear b hclr (n + 1)
  have hopen : n ∉ (b.state (n + 1)).hist.delivered := by
    intro hmem
    rw [b.next n] at hmem
    rcases Inv.mem_delivered_step hmem with ⟨hfire, -⟩ | hmem
    · obtain ⟨-, -, -, hemp, -⟩ := pipeAccept_iff.mp hacc
      exact false_ne_true (hemp.symm.trans (Inv.held_of_fire hfire))
    · exact (hinv.delivered_past n hmem).ne (clock_eq b n).symm
  have hhead : (b.state (n + 1)).hist.accepted.head? = some (n, (b.input n).lsuPipeReqI) := by
    rw [b.next n]
    change (AdapterTracked.step p _ _).hist.accepted.head? = _
    rw [step_accepted, hacc, if_pos rfl, clock_eq b n]
    rfl
  exact ⟨hnxt, hopen, _, hhead, hstr,
    ((hnxt.store n _ (mem_of_mem_head? hhead) hstr).resolve_left hopen).2⟩

theorem storesAnswered_of_clear (hclr : ∀ n, Clear p (b.state n) (b.input n))
    (hlatency : FiniteLatency b) : StoresAnswered b := by
  intro n hacc hstr
  by_contra hnever
  have hopen : ∀ m, n < m → n ∉ (b.state m).hist.delivered := fun m hm hmem =>
    hnever ⟨m, hm, hmem⟩
  have hnxt : ∀ m, b.state (m + 1) = (b.state m).step p (b.input m) := b.next
  have hwait : ∀ m, n < m → Waiting p n (b.state m) := by
    intro m hm
    induction m, hm using Nat.le_induction with
    | base => exact waiting_of_accept b hclr hacc hstr
    | succ m hm ih =>
      have hlater := hopen (m + 1) (Nat.lt_succ_of_lt hm)
      rw [hnxt] at hlater ⊢
      exact ih.step (hclr m) hlater
  obtain ⟨m, hm, hgoal⟩ := eventually_of_variant
    (fun m => n ∈ (b.state m).hist.delivered) (fun m => storeLeft n (b.state m)) (n := n + 1)
    (fun m hm _ => by
      have hlater := hopen (m + 1) (Nat.lt_succ_of_lt hm)
      rw [hnxt] at hlater ⊢
      rcases (hwait m hm).left_step (hclr m) hlater with hlt | ⟨heq, -⟩
      · exact hlt.le
      · exact heq.le)
    (fun m hm hsame => by
      -- the measure stands still, so the store waits in one place
      have hstall : ∀ k, m ≤ k → Stalls (b.state k) (b.input k) := by
        intro k hk
        have hlater := hopen (k + 1) (Nat.lt_succ_of_lt (hm.trans hk))
        have heq := (hsame (k + 1) (hk.trans (Nat.le_succ k))).2.trans (hsame k hk).2.symm
        rw [hnxt] at hlater heq
        exact stalls_of_left (hwait k (hm.trans hk)) (hclr k) hlater heq
      have hplc : ∀ k, m ≤ k → _ := fun k hk => (hwait k (hm.trans hk)).place_of_left
      have hstay : ∀ k, m ≤ k → storeLeft n (b.state k) = storeLeft n (b.state m) :=
        fun k hk => (hsame k hk).2
      rcases hstall m (le_refl m) with ⟨hrsp, -⟩ | ⟨hemp, htranslate | ⟨hacs, -⟩⟩
      · obtain ⟨k, hk, hrdy⟩ := hlatency.response m
        have hl : storeLeft n (b.state m) = 1 := by
          simp [storeLeft, hopen m hm, hrsp]
        rcases hstall k hk with ⟨-, hno⟩ | ⟨hemp, -⟩
        · exact false_ne_true (hno.symm.trans hrdy)
        · exact false_ne_true (hemp.symm.trans ((hplc k hk).1 ((hstay k hk).trans hl)))
      · obtain ⟨k, hk, hdone⟩ := hlatency.translation m
        refine hdone ((hplc k hk).2.1 ?_)
        rw [hstay k hk]
        cases hacs : (b.state m).hist.access <;>
          simp [storeLeft, hopen m hm, hemp, htranslate, hacs]
      obtain ⟨k, hk, hdone⟩ := hlatency.access m
      have hk' := (hplc k hk).2.2 (by
        rw [hstay k hk]
        cases hnone : (b.state m).hist.access <;>
          simp [storeLeft, hopen m hm, hemp, hacs, hnone])
      rcases hstall k hk with ⟨hrsp, -⟩ | ⟨-, htranslate | ⟨-, hno⟩⟩
      · exact false_ne_true (hk'.1.symm.trans hrsp)
      · simp [hk'.2] at htranslate
      · exact false_ne_true (hno.symm.trans (hdone hk'.2)))
  exact hopen m hm hgoal

end Behaviour

theorem Attributed.clear (h : Attributed p t i) : Clear p t i := by
  intro habandoned
  obtain ⟨x, hx, hgone⟩ : ∃ x, t.hist.access = some x ∧ t.waits i x.source = false := by
    cases hx : t.hist.access with
    | none => simp [abandoned, hx] at habandoned
    | some x => exact ⟨x, rfl, by simpa [abandoned, hx] using habandoned⟩
  refine ⟨fun hacc => ?_, fun hrdy hfree => ?_⟩
  · rcases h.toldApart hacc with hnone | hrdy
    · rw [hx] at hnone
      cases hnone
    · exact hrdy
  · refine eq_false_of_ne_true fun hval => ?_
    have hown := h.legacy (lsuReadyO_iff.mpr ⟨hrdy, hfree⟩) hval
    rw [hx, some.injEq] at hown
    rw [hown] at hgone
    simp [waits, hval] at hgone

/-- Every answer goes to the request that it answers, and every store is answered, in exactly
the runs in which nothing new meets an abandoned access. -/
theorem attributes_iff (p : GenBusParams) (b : Behaviour (busAdapter p) anyEnv) :
    ((∀ n, Attributed p (b.state n) (b.input n)) ∧ (FiniteLatency b → StoresAnswered b)) ↔
      ∀ n, Clear p (b.state n) (b.input n) := by
  constructor
  · rintro ⟨hattributed, -⟩ n
    exact (hattributed n).clear
  · intro hclear
    exact ⟨fun n => (Inv.of_clear b hclear n).attributed (hclear n),
      storesAnswered_of_clear b hclear⟩

section CancelledLoad

def quietIcx : GenBusIcx := ⟨false, false, 0, 0, 0, 0, false, 0, false⟩

def quietFetch : FetchRequest := ⟨0, 3, 0, 0, 0, false, false⟩

def doubleLoad (addr : BitVec 64) : LsuRequest := ⟨false, addr, 0, 0, 3, 3, 0, 0, 0, false, false⟩

/-- A cycle in which only a tagged request may come. -/
def pipeCycle (valid cancel : Bool) (tag : BitVec 3) (addr : BitVec 64) : CoreBusInput where
  fetchValidI := false
  fetchCancelI := false
  fetchI := quietFetch
  fetchNextValidI := false
  fetchNextAddrI := 0
  lsuValidI := false
  lsuI := doubleLoad 0
  lsuPipeReqValidI := valid
  lsuPipeReqI := ⟨tag, false, false, doubleLoad addr⟩
  lsuPipeCancelI := cancel
  lsuPipeRespReadyI := true
  lsuXlateReqValidI := false
  lsuXlateReqI := ⟨0, 0, 0⟩
  lsuXlateRespReadyI := true
  tlbiI := false
  contextFlushI := false
  reqReadyI := false
  reqRdataI := 0
  reqErrorI := false
  pmpAllowI := true
  icx := quietIcx

/-- A load is cancelled while the engine translates for it, and the next one is accepted before
memory answers. -/
def cancelThenLoad : List CoreBusInput :=
  [pipeCycle true false 1 0x1000, pipeCycle false false 0 0, pipeCycle false true 0 0,
    pipeCycle true false 2 0x2000, { pipeCycle false false 0 0 with reqReadyI := true }]

def plainBus : GenBusParams := ⟨1, PtwLedger.cachedPtw⟩

def idlePowerUp : PtwState where
  walker := ⟨.idle, .pmp, false, 0, 0, 3, false, false, 2, 0, false, .refuse false false false⟩
  shootdownPending := false
  shootdownInflight := false
  icxTimeoutCount := 0
  pteCache _ _ := ⟨false, 0, 0, 0, 0⟩

def cancelRun : Behaviour (busAdapter plainBus) anyEnv :=
  Behaviour.ofInputs (s := ⟨.reset idlePowerUp, ⟨0, [], none, none, [], [], [], [], none⟩⟩)
    (fun n => cancelThenLoad.getD n (pipeCycle false false 0 0)) ⟨⟨_, rfl⟩, rfl⟩
    (fun _ => trivial)

/-- The second load gets the data of the first. -/
theorem attributes_iff_cancelled :
    ¬ ∀ (p : GenBusParams) (b : Behaviour (busAdapter p) anyEnv) (n : ℕ),
      Attributed p (b.state n) (b.input n) := by
  intro hall
  obtain ⟨n, q, hhead, haccess⟩ := (hall plainBus cancelRun 4).tagged (by decide +kernel)
  have hsecond : (cancelRun.state 4).hist.accepted.head?.map Prod.fst = some 3 := by
    decide +kernel
  have hfirst : (cancelRun.state 4).hist.access.map BusAccess.source = some (.tagged 0) := by
    decide +kernel
  rw [hhead, Option.map_some, Option.some.injEq] at hsecond
  rw [haccess, Option.map_some, Option.some.injEq, BusSource.tagged.injEq] at hfirst
  exact absurd (hsecond.symm.trans hfirst) (by decide)

end CancelledLoad

end AdapterTracked

end OpenRV64
