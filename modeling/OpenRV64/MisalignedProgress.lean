/-
Every misaligned access comes to its result: the components and the handshakes that are
left fall with everything that happens, and nobody can be waited for without end.
-/
import OpenRV64.MisalignedRun

namespace OpenRV64

open ByteLanes Sync MisalignedState

/-- What is left of an access: its bytes, and the translation of the component in hand. -/
def MisalignedState.work {p : MisalignedParams} (s : MisalignedState p) : ℕ :=
  2 * (8 - s.byteIndexQ.toNat) + if s.stateQ = .xlate then 1 else 0

namespace MisalignedBooks

variable {p : MisalignedParams} {frame : BitVec 52 → BitVec 52}
  {mem : BitVec 64 → BitVec 8} {t : MisalignedBooks p} {i : MisalignedInput p}

/-! ## Every state of a run -/

theorem natural_of_working (h : t.Working) (haddress : t.engine.memValidO →
    t.engine.memAddrO = t.op.phys frame t.engine.currentVaddr) : ComponentNatural frame t := by
  have hok := h.componentOk
  refine ⟨hok.size, hok.bytes ▸ hok.aligned, ?_, ?_, haddress⟩
  · intro k hk
    rw [← hok.bytes] at hk
    have hsum := add_toNat_of_aligned (hok.dvd_eight.trans (by decide)) hok.aligned hk
    rw [hsum]
    exact (add_div_of_aligned hok.pos (hok.dvd_eight.trans (by decide)) hok.aligned hk).1
  · refine ⟨t.engine.byteIndexQ.toNat, h.currentVaddr, ?_⟩
    rw [← hok.bytes, h.bytes]
    exact hok.fits

theorem Finished.exact (h : t.Finished frame mem) : ResultExact frame mem t where
  load hnone hload := (h.complete hnone).2.2.1.load hload
  store hnone hstr := (h.complete hnone).2.2.2.store hstr
  noFault hnone := ⟨(h.complete hnone).1, (h.complete hnone).2.1⟩
  fault f hf := ⟨(h.faulty f hf).1, (h.faulty f hf).2.1, (h.faulty f hf).2.2.1⟩

/-- What a store has written in any state of its access. -/
theorem Inv.stored (h : Inv frame mem t) (hact : t.engine.activeO) :
    ∃ m ≤ t.op.bytes, t.Stored frame m := by
  cases h with
  | resting h =>
    rw [activeO, h.state] at hact
    cases hact
  | translating h =>
    refine ⟨_, ?_, h.stored⟩
    rw [h.clean.working.bytes]
    exact h.clean.working.index.trans (Nat.le_succ _)
  | accessing h =>
    cases hsent : t.engine.accessSentQ with
    | true => exact ⟨_, h.bytes_le, (h.sent hsent).2.1⟩
    | false => exact ⟨_, (Nat.le_add_right _ _).trans h.bytes_le, (h.unsent hsent).2⟩
  | finished h =>
    cases hflt : t.fault with
    | none => exact ⟨_, le_refl _, (h.complete hflt).2.2.2⟩
    | some f => exact (h.faulty f hflt).2.2.2

theorem Inv.exact (h : Inv frame mem t) : AccessExact frame mem t where
  result hres := by
    rw [resultValidO, beq_iff_eq] at hres
    cases h with
    | finished h => exact h.exact
    | resting h | translating h | accessing h =>
      rw [h.state] at hres
      cases hres
  natural hval := by
    cases h with
    | translating h =>
      apply natural_of_working h.clean.working
      intro hmem
      rw [memValidO, h.state] at hmem
      cases hmem
    | accessing h => exact natural_of_working h.clean.working fun _ => h.paddr
    | resting h | finished h =>
      simp [xlateValidO, memValidO, h.state] at hval
  stops hflt := by
    cases h with
    | translating h => exact absurd h.clean.noFault hflt
    | accessing h => exact absurd h.clean.noFault hflt
    | resting h | finished h =>
      simp [xlateValidO, memValidO, h.state]
  written hstr hact := by
    obtain ⟨m, hm, hstored⟩ := h.stored hact
    exact ⟨m, hm, hstored.store hstr⟩
  loads hload hact := by
    obtain ⟨m, -, hstored⟩ := h.stored hact
    exact hstored.load hload

theorem inv_of_run {past : Past (MisalignedBooks p) (MisalignedInput p)}
    (hrun : Run (misalignedBooks p) (cycleEnv (Ports frame mem)) past t) : Inv frame mem t := by
  apply hrun.stateInvariant
  · rintro t ⟨hengine, hxlating, hasked⟩
    exact .resting ⟨congrArg stateQ hengine, hxlating, hasked⟩
  · intro past t i hport h
    exact h.step hport

/-! ## One cycle of progress -/

/-- A cycle brings no answer and keeps the component in hand, or it comes to the result, or
it leaves less to do. -/
inductive Advances (t : MisalignedBooks p) (i : MisalignedInput p) : Prop
  | waits : (t.engine.step i).stateQ = t.engine.stateQ →
      (t.engine.step i).work = t.engine.work → t.xlateAnswered i = false →
      t.memAnswered i = false → t.storeReleased i = false → Advances t i
  | ends : (t.engine.step i).stateQ = .result → Advances t i
  | moves : (t.engine.step i).stateQ = .xlate ∨ (t.engine.step i).stateQ = .access →
      (t.engine.step i).work < t.engine.work → Advances t i

theorem Translating.advances (h : t.Translating frame mem) (hport : Ports frame mem t i) :
    t.Advances i := by
  obtain ⟨-, hmem, hdone⟩ := memFire_of_other (t := t) (i := i) (by simp [h.state])
  cases hans : t.xlateAnswered i with
  | true =>
    have hfire := (h.taken hport hans).1
    have hstep : t.engine.step i = t.engine.translated i := by
      simp only [MisalignedState.step, h.state, hfire, if_true]
    rw [translated] at hstep
    split at hstep
    · exact .ends (by rw [hstep])
    · refine .moves (.inr (by rw [hstep])) ?_
      rw [hstep]
      simp [work, h.state]
  | false =>
    have hnone : t.engine.xlateRespFire i = false := by
      rw [xlateAnswered] at hans
      rw [xlateRespFire, hans, Bool.false_and]
    have hstep : (t.engine.step i).stateQ = .xlate ∧
        (t.engine.step i).byteIndexQ = t.engine.byteIndexQ := by
      simp only [MisalignedState.step, h.state, hnone, if_low]
      split
      · exact ⟨rfl, rfl⟩
      · exact ⟨h.state, rfl⟩
    refine .waits (hstep.1.trans h.state.symm) ?_ hans hmem hdone
    rw [work, work, hstep.1, hstep.2, h.state]

theorem Accessing.advances (h : t.Accessing frame mem) (hport : Ports frame mem t i) :
    t.Advances i := by
  have hxl := xlateFire_of_other (t := t) (i := i) (by simp [h.state])
  cases hrng : t.engine.currentPaddrCacheable with
  | false =>
    refine .ends ?_
    simp only [MisalignedState.step, h.state, hrng, Bool.not_false, if_true]
  | true =>
  cases hdone : t.engine.componentDone i with
  | true =>
    have hstep : t.engine.step i = t.engine.accessed i := by
      simp only [MisalignedState.step, h.state, hrng, hdone, Bool.not_true, if_low, if_true]
    rw [accessed] at hstep
    split at hstep
    · exact .ends (by rw [hstep])
    split at hstep
    · exact .ends (by rw [hstep])
    rename_i hmore
    obtain ⟨hidx, hle⟩ := h.next_index hmore
    have hpos := h.clean.working.componentOk.pos
    have hlt := t.engine.lastByteQ.isLt
    split at hstep
    · refine .moves (.inr (by rw [hstep])) ?_
      rw [hstep]
      simp only [work, h.state, hidx]
      omega
    · refine .moves (.inl (by rw [hstep])) ?_
      rw [hstep]
      simp only [work, h.state, hidx, if_true]
      split <;> omega
  | false =>
    have hnone := h.done_eq hport
    rw [hdone, eq_comm, Bool.or_eq_false_iff] at hnone
    have hstep : t.engine.step i = t.engine.waiting i := by
      simp only [MisalignedState.step, h.state, hrng, hdone, Bool.not_true, if_low]
    exact .waits (by rw [hstep]; rfl) (by rw [hstep]; rfl) hxl.2 hnone.1 hnone.2

/-! ## Progress -/

section Fairness

/-- Nobody keeps the engine waiting for ever: translation and memory take its requests,
and where a request is open again and again, as after a redirect, one is answered. -/
structure Fair (b : Behaviour (misalignedBooks p) (cycleEnv (Ports frame mem))) : Prop where
  xlateReady : ∀ n, ∃ m, n ≤ m ∧
    ((b.state m).engine.xlateValidO = false ∨ (b.input m).xlateReadyI = true)
  xlateAnswer : ∀ n, (∀ m, n ≤ m → ∃ k, m ≤ k ∧ (b.state k).xlateOpen (b.input k) ≠ none) →
    ∃ m, n ≤ m ∧ (b.state m).xlateAnswered (b.input m) = true
  memReady : ∀ n, ∃ m, n ≤ m ∧ ((b.state m).engine.memValidO = false ∨ (b.input m).memReadyI = true)
  memAnswer : ∀ n, (∀ m, n ≤ m → ∃ k, m ≤ k ∧ (b.state k).memOpen (b.input k) ≠ none) →
    ∃ m, n ≤ m ∧ ((b.state m).memAnswered (b.input m) = true ∨
      (b.state m).storeReleased (b.input m) = true)

variable {b : Behaviour (misalignedBooks p) (cycleEnv (Ports frame mem))}

section

variable (b : Behaviour (misalignedBooks p) (cycleEnv (Ports frame mem))) (n : ℕ)

theorem inv_at : Inv frame mem (b.state n) := inv_of_run (b.run n)

theorem engine_next : (b.state (n + 1)).engine = (b.state n).engine.step (b.input n) := by
  rw [b.next n]
  rfl

end

/-- The engine works on a component. -/
def InHand (t : MisalignedBooks p) : Prop := t.engine.stateQ = .xlate ∨ t.engine.stateQ = .access

theorem startFire_of_inHand (h : t.InHand) : t.engine.startFire i = false := by
  apply startFire_of_busy
  rcases h with h | h <;> simp [h]

theorem advances_at (n : ℕ) (h : (b.state n).InHand) : (b.state n).Advances (b.input n) := by
  cases inv_at b n with
  | translating ht => exact ht.advances (b.promised n)
  | accessing ha => exact ha.advances (b.promised n)
  | resting hr => simp [InHand, hr.state] at h
  | finished hf => simp [InHand, hf.state] at h

/-- Translation does not leave a component without an answer. -/
theorem xlate_moves (hfair : Fair b) {n : ℕ} (hst : ∀ k, n ≤ k → (b.state k).engine.stateQ = .xlate)
    (hnone : ∀ k, n ≤ k → (b.state k).xlateAnswered (b.input k) = false) : False := by
  by_cases hopen : ∀ m, n ≤ m → ∃ k, m ≤ k ∧ (b.state k).xlateOpen (b.input k) ≠ none
  · obtain ⟨m, hm, hans⟩ := hfair.xlateAnswer n hopen
    rw [hnone m hm] at hans
    cases hans
  push Not at hopen
  obtain ⟨m, hm, hclosed⟩ := hopen
  obtain ⟨k, hk, hrdy⟩ := hfair.xlateReady m
  have hst := hst k (hm.trans hk)
  have hno := hclosed k hk
  have hfire : (b.state k).engine.xlateFire (b.input k) = false := by
    refine eq_false_of_ne_true fun hf => ?_
    simp [xlateOpen, hf] at hno
  cases inv_at b k with
  | translating h =>
    rw [xlateOpen, hfire, if_low, h.xlating] at hno
    have hunsent : (b.state k).engine.xlateSentQ = false := by
      refine eq_false_of_ne_true fun hs => ?_
      simp [hs] at hno
    have hval : (b.state k).engine.xlateValidO := by
      simp [xlateValidO, hst, hunsent]
    rcases hrdy with hidle | hrdy
    · rw [hval] at hidle
      cases hidle
    · simp [xlateFire, hval, hrdy] at hfire
  | resting h | accessing h | finished h =>
    rw [h.state] at hst
    cases hst

/-- Memory does not leave a component without an answer, however often it is flushed. -/
theorem mem_moves (hfair : Fair b) {n : ℕ} (hst : ∀ k, n ≤ k → (b.state k).engine.stateQ = .access)
    (hcach : ∀ k, n ≤ k → (b.state k).engine.currentPaddrCacheable)
    (hnone : ∀ k, n ≤ k → (b.state k).memAnswered (b.input k) = false ∧
      (b.state k).storeReleased (b.input k) = false) : False := by
  by_cases hopen : ∀ m, n ≤ m → ∃ k, m ≤ k ∧ (b.state k).memOpen (b.input k) ≠ none
  · obtain ⟨m, hm, hans | hdone⟩ := hfair.memAnswer n hopen
    · rw [(hnone m hm).1] at hans
      cases hans
    · rw [(hnone m hm).2] at hdone
      cases hdone
  push Not at hopen
  obtain ⟨m, hm, hclosed⟩ := hopen
  obtain ⟨k, hk, hrdy⟩ := hfair.memReady m
  have hst := hst k (hm.trans hk)
  have hno := hclosed k hk
  have hfire : (b.state k).engine.memFire (b.input k) = false := by
    refine eq_false_of_ne_true fun hf => ?_
    simp [memOpen, hf] at hno
  cases inv_at b k with
  | accessing h =>
    rw [memOpen, hfire, if_low] at hno
    have hunsent : (b.state k).engine.accessSentQ = false := by
      refine eq_false_of_ne_true fun hs => ?_
      simp [(h.sent hs).1] at hno
    have hval : (b.state k).engine.memValidO := by
      simp [memValidO, hst, hunsent, hcach k (hm.trans hk)]
    rcases hrdy with hidle | hrdy
    · rw [hval] at hidle
      cases hidle
    · simp [memFire, hval, hrdy] at hfire
  | resting h | translating h | finished h =>
    rw [h.state] at hst
    cases hst

theorem not_waiting (hfair : Fair b) {n : ℕ} (hhand : (b.state n).InHand) (hwaits : ∀ k, n ≤ k →
      ((b.state k).engine.step (b.input k)).stateQ = (b.state k).engine.stateQ ∧
        (b.state k).xlateAnswered (b.input k) = false ∧
          (b.state k).memAnswered (b.input k) = false ∧
            (b.state k).storeReleased (b.input k) = false) : False := by
  have hsame : ∀ k, n ≤ k → (b.state k).engine.stateQ = (b.state n).engine.stateQ := by
    intro k hk
    induction k, hk using Nat.le_induction with
    | base => rfl
    | succ k hk ih =>
      rw [engine_next b k]
      exact (hwaits k hk).1.trans ih
  rcases hhand with hx | ha
  · exact xlate_moves hfair (fun k hk => (hsame k hk).trans hx) fun k hk => (hwaits k hk).2.1
  apply mem_moves hfair (fun k hk => (hsame k hk).trans ha) ?_ fun k hk => (hwaits k hk).2.2
  intro k hk
  apply Bool.eq_true_of_not_eq_false
  intro hrng
  have hst := (hsame k hk).trans ha
  have hstep := (hwaits k hk).1
  simp [MisalignedState.step, hst, hrng] at hstep

/-- A component in hand is followed by another, or by the result. -/
theorem inHand_next {n : ℕ} (hhand : (b.state n).InHand)
    (hnone : (b.state (n + 1)).engine.resultValidO = false) : (b.state (n + 1)).InHand := by
  rw [resultValidO, beq_eq_false_iff_ne, engine_next b n] at hnone
  rw [InHand, engine_next b n]
  cases advances_at n hhand with
  | waits hst => exact hst ▸ hhand
  | ends hends => exact absurd hends hnone
  | moves hst => exact hst

/-- An access that has begun comes to its result. -/
theorem eventually_result (hfair : Fair b) {n : ℕ} (hhand : (b.state n).InHand) :
    ∃ m, n ≤ m ∧ (b.state m).engine.resultValidO := by
  by_contra hnever
  have hres : ∀ m, n ≤ m → (b.state m).engine.stateQ ≠ .result := by
    intro m hm hst
    exact hnever ⟨m, hm, by rw [resultValidO, hst]; rfl⟩
  have hinHand : ∀ m, n ≤ m → (b.state m).InHand := by
    intro m hm
    induction m, hm using Nat.le_induction with
    | base => exact hhand
    | succ m hm ih =>
      have hnxt := hres (m + 1) (hm.trans (Nat.le_succ m))
      apply inHand_next ih
      rw [resultValidO, beq_eq_false_iff_ne]
      exact hnxt
  obtain ⟨-, -, hfalse⟩ := eventually_of_variant (n := n) (fun _ => False)
    (fun m => (b.state m).engine.work)
    (fun m hm _ => by
      have hnxt := hres (m + 1) (hm.trans (Nat.le_succ m))
      rw [engine_next b m] at hnxt ⊢
      cases advances_at m (hinHand m hm) with
      | waits _ hwork => exact hwork.le
      | ends hends => exact absurd hends hnxt
      | moves _ hless => exact hless.le)
    (fun m hm hsame => by
      apply not_waiting hfair (hinHand m hm)
      intro k hk
      have hnxt := hres (k + 1) ((hm.trans hk).trans (Nat.le_succ k))
      have hwork := (hsame (k + 1) (hk.trans (Nat.le_succ k))).2.trans (hsame k hk).2.symm
      rw [engine_next b k] at hnxt hwork
      cases advances_at k (hinHand k (hm.trans hk)) with
      | waits hst _ hx hm hd => exact ⟨hst, hx, hm, hd⟩
      | ends hends => exact absurd hends hnxt
      | moves _ hless => exact absurd hwork hless.ne)
  exact hfalse

/-- The access that starts in the cycle `n` shows its result in the cycle `m`, and none
before. -/
structure Completes (b : Behaviour (misalignedBooks p) (cycleEnv (Ports frame mem)))
    (n m : ℕ) : Prop where
  later : n < m
  result : (b.state m).engine.resultValidO = true
  op : (b.state m).op = ⟨(b.input n).startWriteI, (b.input n).startAddrI,
    (b.input n).startSizeI, (b.input n).startWdataI, (b.input n).translationBypassI⟩
  first : ∀ k, n < k → k < m → (b.state k).engine.resultValidO = false ∧
    (b.state k).engine.startFire (b.input k) = false

theorem inHand_of_start {n : ℕ} (hstart : (b.state n).engine.startFire (b.input n)) :
    (b.state (n + 1)).InHand ∧ (b.state (n + 1)).op =
      ⟨(b.input n).startWriteI, (b.input n).startAddrI, (b.input n).startSizeI,
        (b.input n).startWdataI, (b.input n).translationBypassI⟩ := by
  have hidle : (b.state n).engine.stateQ = .idle := by
    simp only [startFire, startReadyO, Bool.and_eq_true, beq_iff_eq] at hstart
    exact hstart.2
  have hop : (b.state (n + 1)).op = (b.state n).opNext (b.input n) := by
    rw [b.next n]
    rfl
  refine ⟨?_, hop.trans (if_pos hstart)⟩
  rw [InHand, engine_next b n]
  simp only [MisalignedState.step, hidle, hstart, if_true, start]
  cases (b.input n).translationBypassI with
  | true => exact .inr rfl
  | false => exact .inl rfl

/-- Every access that starts comes to its result once. -/
theorem completes_unique (hfair : Fair b) {n : ℕ}
    (hstart : (b.state n).engine.startFire (b.input n)) : ∃! m, Completes b n m := by
  obtain ⟨hhand, hop⟩ := inHand_of_start hstart
  have hres := eventually_result hfair hhand
  obtain ⟨m, hm, hval, hkept, hfst⟩ := exists_first hres
    (fun k => ((b.state k).engine.resultValidO = false → (b.state k).InHand) ∧
      (b.state k).op = (b.state (n + 1)).op) ⟨fun _ => hhand, rfl⟩ (by
    rintro k - hnone ⟨ihhand, ihop⟩
    have hin := ihhand (Bool.eq_false_of_not_eq_true hnone)
    refine ⟨inHand_next hin, ?_⟩
    rw [b.next k]
    exact (if_neg (ne_true_of_eq_false (startFire_of_inHand hin))).trans ihop)
  refine ⟨m, ⟨hm, hval, hkept.2.trans hop, fun k hk hlast => ?_⟩, fun m' hcompletes => ?_⟩
  · obtain ⟨hnone, hin, -⟩ := hfst k hk hlast
    rw [Bool.not_eq_true] at hnone
    exact ⟨hnone, startFire_of_inHand (hin hnone)⟩
  · exact first_unique hcompletes.later hm hcompletes.result hval
      (fun k hk hlast => ne_true_of_eq_false (hcompletes.first k hk hlast).1)
      fun k hk hlast => (hfst k hk hlast).1

/-- In every state of a run the access in hand is exact, byte for byte, and every access
that starts comes to its result where nobody keeps the engine waiting for ever. -/
theorem accesses_exact (b : Behaviour (misalignedBooks p) (cycleEnv (Ports frame mem))) :
    (∀ n, AccessExact frame mem (b.state n)) ∧
      (Fair b → ∀ n, (b.state n).engine.startFire (b.input n) = true → ∃! m, Completes b n m) :=
  ⟨fun n => (inv_at b n).exact, fun hfair _ hstart => completes_unique hfair hstart⟩

end Fairness

/-! ## A half-word load across two pages -/

section Example

def cacheableLow : MisalignedParams := ⟨1, 0, 0x10000⟩

/-- Prompt surroundings of an engine that stays idle. -/
def quietInput : MisalignedInput cacheableLow where
  flushI := false
  startValidI := false
  startWriteI := false
  startAddrI := 0x1fff
  startSizeI := 1
  startWdataI := 0
  translationBypassI := false
  resultReadyI := true
  xlateReadyI := true
  xlateRespValidI := false
  xlateRespTagI := 0
  xlateRespPaddrI := 0
  xlateRespAccessFaultI := false
  xlateRespPageFaultI := false
  memReadyI := true
  memRespValidI := false
  memRespTagI := 0
  memRdataI := 0
  memErrorI := false
  memPageFaultI := false
  memStoreDoneValidI := false
  memStoreDoneTagI := 0

/-- The page table maps every page to the one of twice its number, and a byte of memory
is the second byte of its address. -/
def doubledFrame (page : BitVec 52) : BitVec 52 := page + page

def secondByte (addr : BitVec 64) : BitVec 8 := addr.extractLsb' 8 8

/-- Both bytes are translated and read in the cycles of their requests. -/
def crossingLoad (n : ℕ) : MisalignedInput cacheableLow :=
  [{ quietInput with startValidI := true },
    { quietInput with xlateRespValidI := true, xlateRespPaddrI := 0x2fff },
    { quietInput with memRespValidI := true, memRdataI := 0x2f2f2f2f2f2f2f2f },
    { quietInput with xlateRespValidI := true, xlateRespPaddrI := 0x4000 },
    { quietInput with memRespValidI := true, memRdataI := 0x4040404040404040 }].getD n
      quietInput

def restingEngine : MisalignedBooks cacheableLow where
  engine := .reset
  op := ⟨false, 0, 0, 0, false⟩
  xlating := none
  asked := none
  written := []
  fault := none

theorem crossingLoad_quiet {n : ℕ} (hn : 5 ≤ n) : crossingLoad n = quietInput := by
  rw [crossingLoad, List.getD_eq_getElem?_getD, List.getElem?_eq_none hn]
  rfl

theorem ports_quiet (t : MisalignedBooks cacheableLow) :
    Ports doubledFrame secondByte t quietInput := by
  refine ⟨fun _ => .inl rfl, fun h => ?_, fun h => ?_, fun h => ?_⟩
  · simp [xlateAnswered, quietInput] at h
  · simp [memAnswered, quietInput] at h
  · simp [storeReleased, quietInput] at h

theorem crossingLoad_ports (n : ℕ) : Ports doubledFrame secondByte
    (Behaviour.statesFrom (misalignedBooks cacheableLow) restingEngine crossingLoad n)
    (crossingLoad n) := by
  rcases Nat.lt_or_ge n 5 with hlt | hge
  · interval_cases n
    · exact ⟨fun _ => .inl rfl, nofun, nofun, nofun⟩
    · exact ⟨nofun, fun _ => ⟨0x1fff, rfl, fun _ _ => rfl⟩, nofun, nofun⟩
    · exact ⟨nofun, nofun, fun _ => ⟨0x2fff, rfl, fun _ _ _ => by decide +kernel⟩, nofun⟩
    · exact ⟨nofun, fun _ => ⟨0x2000, rfl, fun _ _ => rfl⟩, nofun, nofun⟩
    · exact ⟨nofun, nofun, fun _ => ⟨0x4000, rfl, fun _ _ _ => by decide +kernel⟩, nofun⟩
  · rw [crossingLoad_quiet hge]
    exact ports_quiet _

def crossingBehaviour :
    Behaviour (misalignedBooks cacheableLow) (cycleEnv (Ports doubledFrame secondByte)) :=
  .ofInputs crossingLoad ⟨rfl, rfl, rfl⟩ crossingLoad_ports

theorem crossingBehaviour_idle {n : ℕ} (hn : 6 ≤ n) :
    (crossingBehaviour.state n).engine.stateQ = .idle := by
  induction n, hn using Nat.le_induction with
  | base => decide +kernel
  | succ n hn ih =>
    have hinput : crossingBehaviour.input n = quietInput :=
      crossingLoad_quiet (le_trans (by decide) hn)
    have hnone : (crossingBehaviour.state n).engine.startFire quietInput = false := rfl
    rw [engine_next, hinput]
    simp only [MisalignedState.step, ih, hnone, if_low]

theorem crossingBehaviour_fair : Fair crossingBehaviour := by
  have hprompt : ∀ n, (crossingBehaviour.input (max n 6)) = quietInput :=
    fun n => crossingLoad_quiet (le_trans (by decide) (le_max_right n 6))
  have hclosed : ∀ k, 6 ≤ k →
      (crossingBehaviour.state k).xlateOpen (crossingBehaviour.input k) = none ∧
        (crossingBehaviour.state k).memOpen (crossingBehaviour.input k) = none := by
    intro k hk
    have hidle := crossingBehaviour_idle hk
    have hxl := xlateFire_of_other (i := crossingBehaviour.input k)
      (t := crossingBehaviour.state k) (by simp [hidle])
    have hmem := memFire_of_other (i := crossingBehaviour.input k)
      (t := crossingBehaviour.state k) (by simp [hidle])
    cases inv_at crossingBehaviour k with
    | resting h => simp [xlateOpen, memOpen, hxl, hmem, h.xlating, h.asked]
    | translating h | accessing h | finished h => simp [h.state] at hidle
  refine ⟨fun n => ?_, fun n hopen => ?_, fun n => ?_, fun n hopen => ?_⟩
  · exact ⟨max n 6, le_max_left n 6, .inr (by rw [hprompt]; rfl)⟩
  · obtain ⟨k, hk, hsome⟩ := hopen (max n 6) (le_max_left n 6)
    exact absurd (hclosed k ((le_max_right n 6).trans hk)).1 hsome
  · exact ⟨max n 6, le_max_left n 6, .inr (by rw [hprompt]; rfl)⟩
  · obtain ⟨k, hk, hsome⟩ := hopen (max n 6) (le_max_left n 6)
    exact absurd (hclosed k ((le_max_right n 6).trans hk)).2 hsome

example : (crossingBehaviour.state 5).engine.resultRdataO = 0x402f := by decide +kernel

theorem accesses_exact_crossing :
    (∀ n, AccessExact doubledFrame secondByte (crossingBehaviour.state n)) ∧
      ∃! m, Completes crossingBehaviour 0 m :=
  ⟨(accesses_exact crossingBehaviour).1,
    (accesses_exact crossingBehaviour).2 crossingBehaviour_fair 0 (by decide +kernel)⟩

end Example

end MisalignedBooks

end OpenRV64
