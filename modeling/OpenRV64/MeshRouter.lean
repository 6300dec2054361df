/-
The mesh router tile: one output asked for by each input, a round-robin arbiter with a
locked grant on each output, and a crossbar without any buffer.
-/
import Mathlib.Order.Basic

namespace OpenRV64

/-- The ports of a tile, in the order of the source's numbers. -/
inductive MeshPort where
  | n
  | e
  | w
  | s
  | up
deriving DecidableEq, Repr

namespace MeshPort

/-- `next_port`. -/
def next : MeshPort → MeshPort
  | n => e
  | e => w
  | w => s
  | s => up
  | up => n

/-- The ports from a first one on. -/
def scan (first : MeshPort) : List MeshPort :=
  [first, first.next, first.next.next, first.next.next.next, first.next.next.next.next]

/-- How many ports come before `target` when they are scanned from `first`. -/
def ahead (first target : MeshPort) : ℕ := (scan first).idxOf target

theorem mem_scan (first target : MeshPort) : target ∈ scan first := by
  cases first <;> cases target <;> decide

theorem next_ahead_le {first target : MeshPort} (h : first ≠ target) :
    1 + first.next.ahead target ≤ 4 := by
  revert h
  cases first <;> cases target <;> decide

theorem ahead_le (first target : MeshPort) : first.ahead target ≤ 4 := by
  cases first <;> cases target <;> decide

/-- A port that comes before `target` leaves fewer ports before it. -/
theorem next_ahead_le_ahead {first port target : MeshPort} (hne : port ≠ target)
    (h : first.ahead port ≤ first.ahead target) :
    1 + port.next.ahead target ≤ first.ahead target := by
  revert hne h
  cases first <;> cases port <;> cases target <;> decide

/-- The first port of a scan comes before all others that `f` holds of. -/
theorem ahead_of_find {first port target : MeshPort} {f : MeshPort → Bool}
    (h : (scan first).find? f = some port) (htgt : f target) :
    first.ahead port ≤ first.ahead target := by
  obtain ⟨-, k, hk, hport, hbef⟩ := List.find?_eq_some_iff_getElem.mp h
  have hmem := List.idxOf_lt_length_of_mem (mem_scan first target)
  have htgt' : (scan first)[(scan first).idxOf target] = target := List.getElem_idxOf hmem
  have hport' : first.ahead port ≤ k := by
    by_contra hlt
    have hnot := List.not_of_lt_findIdx (Nat.lt_of_not_le hlt)
    rw [hport, beq_self_eq_true] at hnot
    cases hnot
  have hk' : k ≤ first.ahead target := by
    by_contra hlt
    have hnot := hbef (first.ahead target) (Nat.lt_of_not_le hlt)
    change (!f (scan first)[(scan first).idxOf target]) at hnot
    rw [htgt', htgt] at hnot
    cases hnot
  exact Nat.le_trans hport' hk'

end MeshPort

/-- The parameters of the router. -/
structure MeshParams where
  flitWidth : ℕ
  hopCountWidth : ℕ

/-- The source route next to a flit. -/
structure MeshRoute (p : MeshParams) where
  xHops : BitVec p.hopCountWidth
  yHops : BitVec p.hopCountWidth
  xWest : Bool
  ySouth : Bool
deriving DecidableEq, Repr

/-- What a link carries towards its receiver. -/
structure MeshChannel (p : MeshParams) where
  valid : Bool
  flit : BitVec p.flitWidth
  route : MeshRoute p
deriving DecidableEq, Repr

def MeshChannel.idle (p : MeshParams) : MeshChannel p where
  valid := false
  flit := 0
  route := ⟨0, 0, false, false⟩

structure MeshRouterState where
  roundRobinQ : MeshPort → MeshPort
  holdQ : MeshPort → Bool
  holdSelectQ : MeshPort → MeshPort

def MeshRouterState.reset : MeshRouterState where
  roundRobinQ := fun _ => .n
  holdQ := fun _ => false
  holdSelectQ := fun _ => .n

variable {p : MeshParams}

/-- `target_of`. -/
def targetOf (route : MeshRoute p) : MeshPort :=
  if route.xHops ≠ 0 then
    if route.xWest then .w else .e
  else if route.yHops ≠ 0 then
    if route.ySouth then .s else .n
  else .up

/-- `legal_transition`. -/
def legalTransition : MeshPort → MeshPort → Bool
  | .n, target => target == .s || target == .up
  | .s, target => target == .n || target == .up
  | .e, target => target != .e
  | .w, target => target != .w
  | .up, _ => true

/-- `advanced_route`. -/
def advancedRoute (route : MeshRoute p) (target : MeshPort) : MeshRoute p :=
  match target with
  | .e | .w => if route.xHops ≠ 0 then { route with xHops := route.xHops - 1 } else route
  | .n | .s => if route.yHops ≠ 0 then { route with yHops := route.yHops - 1 } else route
  | .up => route

namespace MeshRouterState

variable (s : MeshRouterState) (inp : MeshPort → MeshChannel p) (rdy : MeshPort → Bool)

/-- `requests[output][input]`. -/
def requests (output input : MeshPort) : Bool :=
  (inp input).valid && legalTransition input (targetOf (inp input).route) &&
    targetOf (inp input).route == output

/-- `route_error_o`. -/
def routeErrorO (input : MeshPort) : Bool :=
  (inp input).valid && !legalTransition input (targetOf (inp input).route)

/-- The input that an output is granted to: the locked one, or the first that asks. -/
def grant (output : MeshPort) : Option MeshPort :=
  if s.holdQ output then
    if requests inp output (s.holdSelectQ output) then some (s.holdSelectQ output) else none
  else (MeshPort.scan (s.roundRobinQ output)).find? (requests inp output)

def outputO (output : MeshPort) : MeshChannel p :=
  match s.grant inp output with
  | some input =>
    { valid := true
      flit := (inp input).flit
      route := advancedRoute (inp input).route output }
  | none => .idle p

/-- The loop over the outputs assigns the ready of each granted input. -/
def inputReadyO (input : MeshPort) : Bool :=
  (MeshPort.scan .n).foldl
    (fun ready output => if s.grant inp output = some input then rdy output else ready) false

/-- One clock edge of `openrv64_mesh_router_tile`. -/
def step : MeshRouterState where
  roundRobinQ output :=
    if s.holdQ output then
      if requests inp output (s.holdSelectQ output) && rdy output
      then (s.holdSelectQ output).next
      else s.roundRobinQ output
    else
      match s.grant inp output with
      | some input => if rdy output then input.next else s.roundRobinQ output
      | none => s.roundRobinQ output
  holdQ output :=
    if s.holdQ output then requests inp output (s.holdSelectQ output) && !rdy output
    else (s.grant inp output).isSome && !rdy output
  holdSelectQ output :=
    if s.holdQ output then s.holdSelectQ output
    else
      match s.grant inp output with
      | some input => if rdy output then s.holdSelectQ output else input
      | none => s.holdSelectQ output

/-! ## Grants -/

variable {s : MeshRouterState} {inp inp' : MeshPort → MeshChannel p}
  {rdy rdy' : MeshPort → Bool} {output input : MeshPort}

theorem requests_iff : requests inp output input ↔ (inp input).valid ∧
      legalTransition input (targetOf (inp input).route) ∧ targetOf (inp input).route = output := by
  rw [requests, Bool.and_eq_true, Bool.and_eq_true, beq_iff_eq, and_assoc]

theorem requests_of_grant (h : s.grant inp output = some input) : requests inp output input := by
  rw [grant] at h
  split at h
  · split at h
    · rename_i hreq
      exact Option.some.inj h ▸ hreq
    · cases h
  · exact List.find?_some h

/-- An output that is not locked to a silent input is granted when it is asked for. -/
theorem grant_isSome (hlock : s.holdQ output → requests inp output (s.holdSelectQ output))
    (hreq : requests inp output input) : (s.grant inp output).isSome := by
  rw [grant]
  split
  · rename_i hhold
    rw [if_pos (hlock hhold)]
    rfl
  · rw [List.find?_isSome]
    exact ⟨input, MeshPort.mem_scan _ _, hreq⟩

theorem grant_output {output' : MeshPort} (h : s.grant inp output = some input)
    (h' : s.grant inp output' = some input) : output = output' :=
  (requests_iff.mp (requests_of_grant h)).2.2.symm.trans
    (requests_iff.mp (requests_of_grant h')).2.2

theorem outputO_of_grant (h : s.grant inp output = some input) : s.outputO inp output =
      { valid := true
        flit := (inp input).flit
        route := advancedRoute (inp input).route output } := by
  rw [outputO, h]

theorem grant_of_valid (h : (s.outputO inp output).valid) :
    ∃ input, s.grant inp output = some input := by
  rw [outputO] at h
  split at h
  · rename_i input hgr
    exact ⟨input, hgr⟩
  · cases h

theorem inputReadyO_of_grant (h : s.grant inp output = some input) :
    s.inputReadyO inp rdy input = rdy output := by
  have hoth : ∀ o, o ≠ output → s.grant inp o ≠ some input := fun o ho hgr =>
    ho (grant_output hgr h)
  simp only [inputReadyO, MeshPort.scan, MeshPort.next, List.foldl]
  cases output <;> simp [h, hoth]

theorem exists_grant_of_ready (h : s.inputReadyO inp rdy input) :
    ∃ o, s.grant inp o = some input ∧ rdy o := by
  by_contra hnone
  have hout : ∀ o, s.grant inp o ≠ some input := by
    intro o hgr
    rw [inputReadyO_of_grant hgr] at h
    exact hnone ⟨o, hgr, h⟩
  simp [inputReadyO, MeshPort.scan, MeshPort.next, hout] at h

/-! ## What a grant depends on -/

theorem grant_congr (h : ∀ input, legalTransition input output → inp input = inp' input) :
    s.grant inp output = s.grant inp' output := by
  have hrequests : requests inp output = requests inp' output := by
    funext input
    by_cases hleg : legalTransition input output
    · rw [requests, requests, h input hleg]
    have hnot : ∀ x : MeshPort → MeshChannel p, requests x output input = false := by
      intro x
      by_contra hcon
      obtain ⟨-, hx, htgt⟩ := requests_iff.mp ((Bool.not_eq_false _).mp hcon)
      exact hleg (htgt ▸ hx)
    rw [hnot, hnot]
  rw [grant, grant, hrequests]

theorem outputO_congr (h : ∀ input, legalTransition input output → inp input = inp' input) :
    s.outputO inp output = s.outputO inp' output := by
  rw [outputO, outputO, ← grant_congr h]
  split
  · rename_i input hgr
    obtain ⟨-, hleg, htgt⟩ := requests_iff.mp (requests_of_grant hgr)
    rw [h input (htgt ▸ hleg)]
  · rfl

theorem inputReadyO_congr (h : ∀ output, legalTransition input output → rdy output = rdy' output) :
    s.inputReadyO inp rdy input = s.inputReadyO inp rdy' input := by
  by_cases hgranted : ∃ o, s.grant inp o = some input
  · obtain ⟨o, hgr⟩ := hgranted
    obtain ⟨-, hleg, htgt⟩ := requests_iff.mp (requests_of_grant hgr)
    rw [inputReadyO_of_grant hgr, inputReadyO_of_grant hgr, h o (htgt ▸ hleg)]
  · have hout : ∀ o, s.grant inp o ≠ some input := fun o ho => hgranted ⟨o, ho⟩
    simp [inputReadyO, MeshPort.scan, MeshPort.next, hout]

/-! ## The clock edge -/

/-- A grant that is not taken is locked, and an output without one is not. -/
theorem holdQ_step (hlock : s.holdQ output → requests inp output (s.holdSelectQ output)) :
    (s.step inp rdy).holdQ output = ((s.grant inp output).isSome && !rdy output) := by
  simp only [step]
  split
  · rename_i hhold
    rw [grant, if_pos hhold, if_pos (hlock hhold), hlock hhold]
    rfl
  · rfl

theorem holdSelectQ_step (hgr : s.grant inp output = some input)
    (hrdy : rdy output = false) : (s.step inp rdy).holdSelectQ output = input := by
  simp only [step]
  split
  · rename_i hhold
    rw [grant, if_pos hhold] at hgr
    split at hgr
    · exact Option.some.inj hgr
    · cases hgr
  · rw [hgr]
    simp [hrdy]

theorem roundRobinQ_step (hgr : s.grant inp output = some input)
    (hrdy : rdy output) : (s.step inp rdy).roundRobinQ output = input.next := by
  simp only [step, hrdy, Bool.and_true, if_true]
  split
  · rename_i hhold
    rw [grant, if_pos hhold] at hgr
    split at hgr
    · rename_i hreq
      rw [if_pos hreq, Option.some.inj hgr]
    · cases hgr
  · rw [hgr]

/-! ## Fairness -/

/-- How many flits may still go through an output before the one of `input`, which asks
for it. -/
def slack (s : MeshRouterState) (output input : MeshPort) : ℕ :=
  if s.holdQ output then
    if s.holdSelectQ output = input then 0 else 1 + (s.holdSelectQ output).next.ahead input
  else (s.roundRobinQ output).ahead input

theorem slack_le (s : MeshRouterState) (output input : MeshPort) : s.slack output input ≤ 4 := by
  rw [slack]
  split
  · split
    · exact Nat.zero_le 4
    · rename_i hne
      exact MeshPort.next_ahead_le hne
  · exact MeshPort.ahead_le _ _

/-- Whatever goes through the output instead of a waiting input uses up slack. -/
theorem slack_step (hlock : s.holdQ output → requests inp output (s.holdSelectQ output))
    (hreq : requests inp output input)
    (hwaits : s.grant inp output = some input → rdy output = false) :
    (s.step inp rdy).slack output input + (rdy output).toNat ≤ s.slack output input := by
  obtain ⟨granted, hgr⟩ := Option.isSome_iff_exists.mp (grant_isSome hlock hreq)
  have hle : granted ≠ input → 1 + granted.next.ahead input ≤ s.slack output input := by
    intro hne
    rw [grant] at hgr
    rw [slack]
    split at hgr
    · rename_i hhold
      rw [if_pos (hlock hhold)] at hgr
      cases hgr
      exact Nat.le_of_eq (by rw [if_pos hhold, if_neg hne])
    · rename_i hhold
      rw [if_neg hhold]
      exact MeshPort.next_ahead_le_ahead hne (MeshPort.ahead_of_find hgr hreq)
  cases hrdy : rdy output with
  | true =>
    have hne : granted ≠ input := by
      rintro rfl
      rw [hwaits hgr] at hrdy
      cases hrdy
    rw [slack, holdQ_step hlock, hrdy, Bool.not_true, Bool.and_false, if_neg Bool.false_ne_true,
      roundRobinQ_step hgr hrdy, Bool.toNat_true, Nat.add_comm]
    exact hle hne
  | false =>
    rw [slack, holdQ_step hlock, hgr, hrdy, Option.isSome_some, Bool.not_false,
      Bool.and_self, if_pos rfl, holdSelectQ_step hgr hrdy]
    split
    · exact Nat.zero_le _
    · rename_i hne
      exact hle hne

end MeshRouterState

end OpenRV64
