/-
Every request that the page-table walker accepts gets one response, for any delays on
its ports.
-/
import OpenRV64.PtwChannel

namespace OpenRV64

open PtwState

namespace PtwLedger

variable {p : PtwParams} {t : PtwLedger} {i : PtwInput}

/-- At most one request is open, and it is the last one accepted. -/
structure Counted (t : PtwLedger) : Prop where
  channel : t.Channel
  count : t.accepted = t.delivered + if t.ptw.walker.phase = .idle then 0 else 1

theorem reqFire_of_phase {s : PtwState} (hph : s.walker.phase ≠ .idle) : s.reqFire i = false := by
  simp [reqFire, reqReadyO, hph]

theorem phase_step_of_idle (hph : t.ptw.walker.phase = .idle) :
    (t.ptw.walkerNext p i).phase = .idle ↔ t.ptw.reqFire i = false := by
  cases hfire : t.ptw.reqFire i with
  | true =>
    obtain ⟨-, -, -, hinval, -⟩ := quiet_of_reqFire hfire
    have hnxt : t.ptw.walkerNext p i = t.ptw.accept i := by
      simp [walkerNext, hinval, hph, hfire]
    rcases (accept_cases t.ptw i).1 with hacc | ⟨hacc, -⟩ <;>
      simp [hnxt, hacc]
  | false =>
    cases hinval : i.invalidateI <;>
      simp [walkerNext, hinval, walkerInvalidated, hph, hfire, drained]

/-- A request is open from its acceptance to its response. -/
theorem phase_step (hx : t.ptw.Exclusive) : ((t.ptw.walkerNext p i).phase = .idle ↔
      (t.ptw.walker.phase = .idle ∧ t.ptw.reqFire i = false) ∨ t.ptw.respFire i) := by
  cases hwalk : t.ptw.walking with
  | true =>
    have hph : t.ptw.walker.phase ≠ .idle ∧ t.ptw.walker.phase ≠ .resp := by
      constructor <;> intro hph <;> simp [walking, hph] at hwalk
    have hafter : (t.ptw.walkerNext p i).phase ≠ .idle := by
      rcases moves_of_walking (p := p) (i := i) hx hwalk with
        ⟨hph', -, -, -⟩ | ⟨⟨hph', -⟩ | ⟨hph', -⟩, -, -, -, -⟩ <;> simp [hph']
    simp [hafter, hph, respFire, respValidO]
  | false =>
  rcases phase_of_resting hwalk with hph | hph
  · rw [phase_step_of_idle hph]
    simp [hph, respFire, respValidO]
  cases hinval : i.invalidateI with
  | true =>
    simp [walkerNext, hinval, walkerInvalidated, hph,
      PtwWalker.setInvalidatedResponse, respFire, respValidO]
  | false =>
    cases hrdy : i.respReadyI <;>
      simp [walkerNext, hinval, hph, hrdy, drained, respFire, respValidO]

theorem count_step (h : t.Counted) :
    t.accepted + (t.ptw.reqFire i).toNat = t.delivered + (t.ptw.respFire i).toNat +
        if (t.ptw.walkerNext p i).phase = .idle then 0 else 1 := by
  have hcnt := h.count
  have hreq : t.ptw.reqFire i → t.ptw.walker.phase = .idle := fun hfire =>
    (quiet_of_reqFire hfire).2.2.2.2
  have hrsp : t.ptw.respFire i → t.ptw.walker.phase = .resp := by
    intro hfire
    simp only [respFire, respValidO, PtwPhase.beq_eq_decide,
      Bool.and_eq_true, decide_eq_true_eq] at hfire
    exact hfire.1.1
  rw [hcnt, if_congr (phase_step h.channel.exclusive) rfl rfl]
  cases hfire : t.ptw.reqFire i with
  | true =>
    have hnone : t.ptw.respFire i = false := by
      refine eq_false_of_ne_true fun hr => ?_
      exact absurd ((hreq hfire).symm.trans (hrsp hr)) (by simp)
    simp [hreq hfire, hnone]
  | false =>
    cases hr : t.ptw.respFire i with
    | true => simp [hrsp hr]
    | false => simp

theorem Counted.step (h : t.Counted) (hsafe : t.ptw.SafeDrain i) :
    Counted ((ptwLedger p).step t i) :=
  ⟨h.channel.step hsafe, count_step h⟩

theorem counted_init (hinit : (ptwLedger p).Init t) : t.Counted := by
  refine ⟨channel_init hinit, ?_⟩
  obtain ⟨⟨powerUp, hptw⟩, -, -, -, haccepted, hdelivered, -⟩ := hinit
  simp [hptw, reset, haccepted, hdelivered]

theorem counted_of_run {past : Sync.Past PtwLedger PtwInput}
    (hrun : Sync.Run (ptwLedger p) (Sync.cycleEnv AnswersSafely) past t) : t.Counted :=
  hrun.stateInvariant (fun _ => counted_init) fun _ _ _ henv h => h.step henv.safe

section Measure

def backendLeft : PtwBackend → ℕ
  | .pmp => 3
  | .send => 2
  | .wait => 1

/-- The steps that are left to the response of a request, at most. -/
def stepsLeft (w : PtwWalker) : ℕ :=
  match w.phase with
  | .idle => 0
  | .resp => 1
  | .abort => 1 + backendLeft w.backend
  | .walk => 4 + 4 * w.level + backendLeft w.backend

/-- The surroundings let the walker make its next step. -/
def movesOn (s : PtwState) (i : PtwInput) : Bool :=
  match s.walker.backend with
  | .pmp => i.pmpReadyI || i.invalidateI
  | .send => i.icxReqReadyI
  | .wait => i.icxRespValidI && icxRespOwned i

theorem backendLeft_pos (b : PtwBackend) : 0 < backendLeft b := by
  cases b <;> decide

theorem stepsLeft_takeEntry {w : PtwWalker} (hph : w.phase = .walk) (pte : BitVec 64) :
    stepsLeft (w.takeEntry pte) < stepsLeft w := by
  have hpos := backendLeft_pos w.backend
  rcases takeEntry_cases w pte with ⟨r, htake⟩ | ⟨hlvl, htake⟩
  · simp only [htake, stepsLeft, hph]
    omega
  · simp only [htake, stepsLeft, hph, backendLeft]
    omega

theorem stepsLeft_walkNext {s : PtwState} (hx : s.Exclusive)
    (hph : s.walker.phase = .walk) (hinval : i.invalidateI = false) :
    stepsLeft (s.walkNext p i) ≤ stepsLeft s.walker ∧
      (movesOn s i → stepsLeft (s.walkNext p i) < stepsLeft s.walker) := by
  have htake := stepsLeft_takeEntry hph
  have hpos := backendLeft_pos s.walker.backend
  have hflt : ∀ (w : PtwWalker) a b, stepsLeft (w.setFaultResponse a b) < stepsLeft s.walker := by
    intro w a b
    simp only [stepsLeft, hph, PtwWalker.setFaultResponse]
    omega
  cases hback : s.walker.backend with
  | pmp =>
    rw [walkNext_pmp hx hph hback hinval]
    cases hrdy : i.pmpReadyI with
    | false => simp [movesOn, hback, hrdy, hinval]
    | true =>
      have hless : stepsLeft (if !i.pmpAllowI then s.walker.setFaultResponse false true
          else if (s.pteCacheHit p).isSome then s.walker.takeEntry (s.pteCacheHitData p)
          else { s.walker with backend := .send }) < stepsLeft s.walker := by
        split
        · exact hflt _ _ _
        · split
          · exact htake _
          · simp [stepsLeft, hph, hback, backendLeft]
      exact ⟨hless.le, fun _ => hless⟩
  | send =>
    rw [walkNext_send hx hph hback]
    cases hrdy : i.icxReqReadyI with
    | true => simp [stepsLeft, hph, hback, backendLeft]
    | false =>
      have hle : stepsLeft (if s.walkBackendTimeout p i then
          s.walker.setFaultResponse false true else s.walker) ≤ stepsLeft s.walker := by
        split
        · exact (hflt _ _ _).le
        · exact le_refl _
      exact ⟨hle, by simp [movesOn, hback, hrdy]⟩
  | wait =>
    rw [walkNext_wait hx hph hback]
    cases hfire : s.icxRespFire i with
    | true =>
      have hless : stepsLeft (if i.icxRespErrorI || icxRespIdentityError p i then
          s.walker.setFaultResponse false true
          else s.walker.takeEntry (s.icxPteData i)) < stepsLeft s.walker := by
        split
        · exact hflt _ _ _
        · exact htake _
      exact ⟨hless.le, fun _ => hless⟩
    | false =>
      have hle : stepsLeft (if s.walkBackendTimeout p i then
          { s.walker with icxTimeoutDrain := true }.setFaultResponse false true
          else s.walker) ≤ stepsLeft s.walker := by
        split
        · exact (hflt _ _ _).le
        · exact le_refl _
      refine ⟨hle, fun hmoves => ?_⟩
      rw [icxRespFire_of_walk hx hph] at hfire
      simp [movesOn, hback] at hmoves
      simp [hback, hmoves] at hfire

theorem stepsLeft_abort {s : PtwState} (hx : s.Exclusive) (hph : s.walker.phase = .abort) :
    stepsLeft (s.walkerNext p i) ≤ stepsLeft s.walker ∧
      (movesOn s i → stepsLeft (s.walkerNext p i) < stepsLeft s.walker) := by
  have hpmp := (hx.abort hph).2.2
  have hreq := icxReqFire_of_abort (i := i) hph
  have hrsp := icxRespFire_of_abort (i := i) hx hph
  have hpos := backendLeft_pos s.walker.backend
  have hflag : ∀ w : PtwWalker, stepsLeft w.setInvalidatedResponse < stepsLeft s.walker := by
    intro w
    simp only [stepsLeft, hph, PtwWalker.setInvalidatedResponse]
    omega
  rw [walkerNext_of_abort hx hph]
  split
  · exact ⟨(hflag _).le, fun _ => hflag _⟩
  cases hback : s.walker.backend with
  | pmp => exact absurd hback hpmp
  | send =>
    cases hrdy : i.icxReqReadyI <;>
      simp [hreq, hrsp, hrdy, stepsLeft, hph, hback, backendLeft, movesOn]
  | wait =>
    simp only [hback] at hreq
    cases hfire : s.icxRespFire i with
    | true =>
      simp only [hreq, reduceCtorEq, PtwBackend.beq_eq_decide, decide_false,
        Bool.false_and, if_true]
      exact ⟨(hflag _).le, fun _ => hflag _⟩
    | false =>
      simp only [hback, hfire] at hrsp
      simpa [hreq, movesOn, hback] using hrsp.symm

/-- A request comes no further from its response, and closer whenever its surroundings let
the walker move. -/
theorem stepsLeft_of_walking {s : PtwState} (hx : s.Exclusive) (hwalk : s.walking) :
    stepsLeft (s.walkerNext p i) ≤ stepsLeft s.walker ∧
      (movesOn s i → stepsLeft (s.walkerNext p i) < stepsLeft s.walker) := by
  simp only [walking, PtwPhase.beq_eq_decide, Bool.or_eq_true, decide_eq_true_eq] at hwalk
  rcases hwalk with hph | hph
  · cases hinval : i.invalidateI with
    | false =>
      have hnxt : s.walkerNext p i = s.walkNext p i := by
        simp [walkerNext, hinval, hph]
      rw [hnxt]
      exact stepsLeft_walkNext hx hph hinval
    | true =>
      have hless : stepsLeft (s.walkerNext p i) < stepsLeft s.walker := by
        have hpos := backendLeft_pos s.walker.backend
        rcases moves_of_walk (p := p) (i := i) hx hph with
          ⟨hph', -, -, -⟩ | ⟨⟨-, hnone, -⟩ | ⟨hph', hback⟩, -, -, -, -⟩
        · simp only [stepsLeft, hph, hph']
          omega
        · simp [hnone] at hinval
        · have hle : backendLeft (s.walkerNext p i).backend ≤ 2 := by
            cases h : (s.walkerNext p i).backend <;> simp_all [backendLeft]
          simp only [stepsLeft, hph, hph']
          omega
      exact ⟨hless.le, fun _ => hless⟩
  · exact stepsLeft_abort hx hph

end Measure

theorem stepsLeft_injective {w w' : PtwWalker} (hph : w.phase = .walk ∨ w.phase = .abort)
    (hph' : w'.phase = .walk ∨ w'.phase = .abort) (heq : stepsLeft w' = stepsLeft w) :
    w'.phase = w.phase ∧ w'.backend = w.backend := by
  rcases hph with hph | hph <;> rcases hph' with hph' | hph' <;>
    cases hback : w.backend <;> cases hback' : w'.backend <;>
      simp only [stepsLeft, hph, hph', hback, hback', backendLeft] at heq <;>
        first
        | exact ⟨hph'.trans hph.symm, rfl⟩
        | omega

section Fairness

variable {env : Sync.Past PtwLedger PtwInput → PtwLedger → PtwInput → Prop}

/-- No port keeps the walker waiting for ever: neither the check of an address, nor the
acceptance or the answer of a transaction, nor the requester that a response is for. -/
structure Fair (b : Sync.Behaviour (ptwLedger p) env) : Prop where
  pmp : ∀ n, ∃ m, n ≤ m ∧
    ((b.state m).ptw.pmpValidO (b.input m) = false ∨ (b.input m).pmpReadyI = true)
  request : ∀ n, ∃ m, n ≤ m ∧
    ((b.state m).ptw.icxReqValidO (b.input m) = false ∨ (b.input m).icxReqReadyI = true)
  answer : ∀ n, ∃ m, n ≤ m ∧ ((b.state m).pending = [] ∨
    ((b.input m).icxRespValidI && icxRespOwned (b.input m)) = true)
  response : ∀ n, ∃ m, n ≤ m ∧ ((b.state m).ptw.walker.phase ≠ .resp ∨
    (b.state m).ptw.respFire (b.input m) = true)

/-- An open request is answered. -/
theorem eventually_respFire (b : Sync.Behaviour (ptwLedger p) env) (hfair : Fair b)
    (hcounted : ∀ n, (b.state n).Counted) {n : ℕ}
    (hopen : (b.state n).ptw.walker.phase ≠ .idle) :
    ∃ m, n ≤ m ∧ (b.state m).ptw.respFire (b.input m) := by
  by_contra hnever
  have hnone : ∀ m, n ≤ m → (b.state m).ptw.respFire (b.input m) = false := by
    intro m hm
    refine eq_false_of_ne_true fun hfire => ?_
    exact absurd ⟨m, hm, hfire⟩ hnever
  have hstep : ∀ m, (b.state (m + 1)).ptw.walker =
      (b.state m).ptw.walkerNext p (b.input m) := fun m => by rw [b.next m]; rfl
  have hopen : ∀ m, n ≤ m → (b.state m).ptw.walker.phase ≠ .idle := by
    intro m hm
    induction m, hm using Nat.le_induction with
    | base => exact hopen
    | succ m hm ih =>
      rw [hstep m, Ne, phase_step (hcounted m).channel.exclusive]
      simp [ih, hnone m hm]
  have hleft : ∀ m, n ≤ m → (b.state m).ptw.walking →
      stepsLeft (b.state (m + 1)).ptw.walker ≤ stepsLeft (b.state m).ptw.walker ∧
        (movesOn (b.state m).ptw (b.input m) →
          stepsLeft (b.state (m + 1)).ptw.walker < stepsLeft (b.state m).ptw.walker) := by
    intro m _ hwalking
    rw [hstep m]
    exact stepsLeft_of_walking (hcounted m).channel.exclusive hwalking
  have hrsp : ∀ m, n ≤ m → (b.state m).ptw.walking = false → (b.state m).ptw.walker.phase = .resp ∧
        (b.state (m + 1)).ptw.walker.phase = .resp := by
    intro m hm hwalking
    have hph := (phase_of_resting hwalking).resolve_left (hopen m hm)
    have hafter := (walkerNext_of_resting (p := p) (i := b.input m) hwalking).1
    rw [← hstep m] at hafter
    refine ⟨hph, ?_⟩
    rcases hafter with hidle | hrsp | ⟨-, -, hfire⟩
    · exact absurd hidle (hopen (m + 1) (hm.trans (Nat.le_succ m)))
    · exact hrsp
    · exact absurd (reqFire_of_phase (i := b.input m) (hopen m hm)) (by simp [hfire])
  have hstuck : ∀ m, n ≤ m → (∀ k, m ≤ k → stepsLeft (b.state k).ptw.walker =
      stepsLeft (b.state m).ptw.walker) → False := by
    intro m hm hsame
    have hwalking : ∀ k, m ≤ k → (b.state k).ptw.walking := by
      intro k hk
      cases hwalking : (b.state k).ptw.walking with
      | true => rfl
      | false =>
        have hstay : ∀ l, k ≤ l → (b.state l).ptw.walker.phase = .resp := by
          intro l hl
          induction l, hl using Nat.le_induction with
          | base => exact (hrsp k (hm.trans hk) hwalking).1
          | succ l hl ih =>
            exact (hrsp l (hm.trans (hk.trans hl)) (by simp [walking, ih])).2
        obtain ⟨l, hl, hph | hfire⟩ := hfair.response k
        · exact absurd (hstay l hl) hph
        · exact absurd (hnone l (hm.trans (hk.trans hl))) (by simp [hfire])
    have hph : ∀ k, m ≤ k → (b.state k).ptw.walker.phase = .walk ∨
        (b.state k).ptw.walker.phase = .abort := by
      intro k hk
      simpa [walking] using hwalking k hk
    have hstill : ∀ k, m ≤ k → movesOn (b.state k).ptw (b.input k) = false := by
      intro k hk
      refine eq_false_of_ne_true fun hmoves => ?_
      have hless := (hleft k (hm.trans hk) (hwalking k hk)).2 hmoves
      rw [hsame k hk, hsame (k + 1) (hk.trans (Nat.le_succ k))] at hless
      exact absurd hless (Nat.lt_irrefl _)
    have hheld : ∀ k, m ≤ k → (b.state k).ptw.walker.phase = (b.state m).ptw.walker.phase ∧
          (b.state k).ptw.walker.backend = (b.state m).ptw.walker.backend := fun k hk =>
      stepsLeft_injective (hph m (le_refl m)) (hph k hk) (hsame k hk)
    cases hback : (b.state m).ptw.walker.backend with
    | pmp =>
      obtain ⟨k, hk, hport⟩ := hfair.pmp m
      have hmoves := hstill k hk
      have hwalk : (b.state k).ptw.walker.phase = .walk := by
        refine (hph k hk).resolve_right fun habort => ?_
        exact ((hcounted k).channel.exclusive.abort habort).2.2 ((hheld k hk).2.trans hback)
      simp only [movesOn, (hheld k hk).2, hback, Bool.or_eq_false_iff] at hmoves
      simp [pmpValidO, hwalk, (hheld k hk).2, hback, hmoves] at hport
    | send =>
      obtain ⟨k, hk, hport⟩ := hfair.request m
      have hmoves := hstill k hk
      simp only [movesOn, (hheld k hk).2, hback] at hmoves
      simp [icxReqValidO, walkIcxReqValid, hwalking k hk, (hheld k hk).2, hback, hmoves] at hport
    | wait =>
      obtain ⟨k, hk, hport⟩ := hfair.answer m
      have hmoves := hstill k hk
      simp only [movesOn, (hheld k hk).2, hback] at hmoves
      have hread : .read ∈ (b.state k).pending.map PtwTxn.kind := by
        rw [(hcounted k).channel.kinds, awaits_read_iff (hcounted k).channel.exclusive]
        exact ⟨hwalking k hk, (hheld k hk).2.trans hback⟩
      rcases hport with hemp | hans
      · rw [hemp] at hread
        cases hread
      · simp [hmoves] at hans
  obtain ⟨m, hm, hfire⟩ := Sync.eventually_of_variant (n := n)
    (fun m => (b.state m).ptw.respFire (b.input m))
    (fun m => stepsLeft (b.state m).ptw.walker)
    (fun m hm _ => by
      cases hwalking : (b.state m).ptw.walking with
      | true => exact (hleft m hm hwalking).1
      | false => simp [stepsLeft, hrsp m hm hwalking])
    (fun m hm hsame => hstuck m hm fun k hk => (hsame k hk).2)
  exact hnever ⟨m, hm, hfire⟩

/-- The cycle `m` carries the response to the request accepted in the cycle `n`: as many
requests have been accepted before it as after that acceptance. -/
def Responds (b : Sync.Behaviour (ptwLedger p) env) (n m : ℕ) : Prop :=
  n < m ∧ (b.state m).ptw.respFire (b.input m) = true ∧
    (b.state m).accepted = (b.state (n + 1)).accepted

/-- Every accepted request gets exactly one response. -/
theorem exactly_one_response (b : Sync.Behaviour (ptwLedger p) env) (hfair : Fair b)
    (hcounted : ∀ n, (b.state n).Counted) {n : ℕ}
    (hfire : (b.state n).ptw.reqFire (b.input n)) : ∃! m, Responds b n m := by
  have hstep : ∀ m, b.state (m + 1) = (ptwLedger p).step (b.state m) (b.input m) := b.next
  have hopen : (b.state (n + 1)).ptw.walker.phase ≠ .idle := by
    rw [hstep n]
    change (walkerNext p (b.state n).ptw (b.input n)).phase ≠ .idle
    have hnone : (b.state n).ptw.respFire (b.input n) = false := by
      simp [respFire, respValidO, (quiet_of_reqFire hfire).2.2.2.2]
    rw [Ne, phase_step (hcounted n).channel.exclusive]
    simp [hfire, hnone]
  have hresponse := eventually_respFire b hfair hcounted hopen
  obtain ⟨m, hm, hrsp, ⟨-, hfnd⟩, -⟩ := Sync.exists_first hresponse
    (fun k => (b.state k).ptw.walker.phase ≠ .idle ∧
      (b.state k).accepted = (b.state (n + 1)).accepted) ⟨hopen, rfl⟩ (by
    rintro k - hnone ⟨hph, hsame⟩
    rw [Bool.not_eq_true] at hnone
    have hreq : (b.state k).ptw.reqFire (b.input k) = false := reqFire_of_phase hph
    rw [hstep k]
    constructor
    · change (walkerNext p (b.state k).ptw (b.input k)).phase ≠ .idle
      rw [Ne, phase_step (hcounted k).channel.exclusive]
      simp [hph, hnone]
    · simpa [ptwLedger, hreq] using hsame)
  have hph : ∀ m, (b.state m).ptw.respFire (b.input m) →
      (b.state m).accepted = (b.state m).delivered + 1 := by
    intro m hfire
    have hcnt := (hcounted m).count
    simp only [respFire, respValidO, PtwPhase.beq_eq_decide,
      Bool.and_eq_true, decide_eq_true_eq] at hfire
    rw [hfire.1.1] at hcnt
    exact hcnt
  have hmono : ∀ m k, m ≤ k → (b.state m).delivered ≤ (b.state k).delivered := by
    intro m k hk
    induction k, hk using Nat.le_induction with
    | base => exact le_refl _
    | succ k _ ih =>
      rw [hstep k]
      exact ih.trans (Nat.le_add_right _ _)
  have hlt : ∀ m k, m < k → (b.state m).ptw.respFire (b.input m) →
      (b.state k).ptw.respFire (b.input k) → (b.state m).accepted ≠ (b.state k).accepted := by
    intro m k hmk hm' hk' hsame
    have hnxt : (b.state (m + 1)).delivered = (b.state m).delivered + 1 := by
      rw [hstep m]
      simp [ptwLedger, hm']
    have hlater := hmono (m + 1) k hmk
    have hcountm := hph m hm'
    have hcountk := hph k hk'
    omega
  refine ⟨m, ⟨hm, hrsp, hfnd⟩, ?_⟩
  rintro m' ⟨-, hfire', hsame⟩
  rcases Nat.lt_trichotomy m' m with hless | heq | hless
  · exact absurd (hsame.trans hfnd.symm) (hlt _ _ hless hfire' hrsp)
  · exact heq
  · exact absurd (hfnd.trans hsame.symm) (hlt _ _ hless hrsp hfire')

end Fairness

end PtwLedger

end OpenRV64
