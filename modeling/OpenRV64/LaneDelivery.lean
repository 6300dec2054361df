/-
The FP32 lane as a queue of tokens: without a flush each accepted token shows its result when
the pipeline has moved on as often as its latency says, and each result on the port is that of
one token.
-/
import OpenRV64.Fp32Pipeline
import Mathlib.Order.Nat
import Mathlib.Data.Nat.Count

namespace OpenRV64

open Sync

variable {p : LaneParams}

/-- The result of the operation that a token asks for. -/
def LaneToken.value (t : LaneToken p) : BitVec 32 :=
  if t.mac then addFp32 t.src3 (multiplyFp32 t.src1 t.src2)
  else if t.multiply then multiplyFp32 t.src1 t.src2
  else addFp32 t.src1 t.src2

theorem LaneToken.partialResult_latency (t : LaneToken p) :
    t.partialResult t.latency = t.value := by
  have hpos := p.add_pos
  rw [LaneToken.partialResult, LaneToken.value]
  cases hmac : t.mac with
  | false => rfl
  | true =>
    have hlate : ¬ t.latency ≤ p.mulLatency := by
      rw [LaneToken.latency, if_pos hmac, LaneParams.macLatency]
      omega
    rw [if_neg hlate]

namespace LaneState

/-- The surroundings never flush. -/
abbrev NeverFlushes : Past (LaneState p) (LaneInput p) → LaneState p → LaneInput p → Prop :=
  cycleEnv fun _ i => i.flushI = false

variable (b : Behaviour (fp32Lane p) NeverFlushes)

/-- The pipeline moves on in cycle `n`. -/
abbrev Advances (n : ℕ) : Prop := (b.state n).pipelineAdvance (b.input n)

/-- How often the pipeline has moved on before cycle `n`. -/
def advances (n : ℕ) : ℕ := Nat.count (Advances b) n

/-- Cycle `a` takes the token, and from there to cycle `d` the pipeline moves on `n` times. -/
structure Came (a d : ℕ) (t : LaneToken p) (n : ℕ) : Prop where
  before : a < d
  accepts : (b.state a).accepts (b.input a)
  token : inputToken (b.input a) = t
  since : advances b d = advances b (a + 1) + n

/-- The token of cycle `a` is on the shared adder in cycle `d`: an addition as it is accepted,
a multiply-accumulate as its product is there. -/
def UsesAdder (a d : ℕ) : Prop :=
  (a = d ∧ (b.state d).accepts (b.input d) ∧ (b.input d).multiplyI = false ∧
    (b.input d).macI = false) ∨ ∃ t, Came b a d t p.mulLatency ∧ t.mac

variable {b}

theorem advances_succ (n : ℕ) : advances b (n + 1) =
    advances b n + if Advances b n then 1 else 0 := Nat.count_succ _ n

theorem advances_mono {m n : ℕ} (h : m ≤ n) : advances b m ≤ advances b n := Nat.count_monotone _ h

/-- A cycle that takes a token moves on. -/
theorem advances_of_accepts {a : ℕ} (h : (b.state a).accepts (b.input a)) : Advances b a := by
  rw [accepts, readyO, Bool.and_eq_true, Bool.and_eq_true, Bool.and_eq_true] at h
  exact h.2.1.1

theorem advances_lt {a d : ℕ} (h : Advances b a) (hlt : a < d) : advances b a < advances b d := by
  have hnxt := advances_succ (b := b) a
  rw [if_pos h] at hnxt
  have hle := advances_mono (b := b) (show a + 1 ≤ d from hlt)
  omega

/-- The cycle a token came in is told by how often the pipeline has moved on since. -/
theorem Came.cycle_unique {a a' d n : ℕ} {t t' : LaneToken p} (h : Came b a d t n)
    (h' : Came b a' d t' n) : a = a' := by
  have heq : advances b (a + 1) = advances b (a' + 1) := by
    have h1 := h.since
    have h2 := h'.since
    omega
  rcases Nat.lt_trichotomy a a' with hlt | heq' | hgt
  · have hmore := advances_lt (advances_of_accepts h'.accepts) (Nat.lt_add_one a')
    have hle := advances_mono (b := b) (show a + 1 ≤ a' from hlt)
    omega
  · exact heq'
  · have hmore := advances_lt (advances_of_accepts h.accepts) (Nat.lt_add_one a)
    have hle := advances_mono (b := b) (show a' + 1 ≤ a from hgt)
    omega

/-- The token that the past shows is the one that came that long ago. -/
theorem tokenAt_iff (d n : ℕ) (t : LaneToken p) :
    tokenAt (b.past d) n = some t ↔ ∃ a, Came b a d t n := by
  induction d generalizing n with
  | zero =>
    constructor
    · intro h
      cases n <;> cases h
    · rintro ⟨a, h⟩
      exact absurd h.before (Nat.not_lt_zero a)
  | succ d ih =>
    have hfl : (b.input d).flushI = false := b.promised d
    have hnxt := advances_succ (b := b) d
    show tokenAt ((b.state d, b.input d) :: b.past d) n = some t ↔ _
    cases hadv : (b.state d).pipelineAdvance (b.input d) with
    | false =>
      have hsame : tokenAt ((b.state d, b.input d) :: b.past d) n = tokenAt (b.past d) n := by
        cases n <;> simp [tokenAt, hfl, hadv]
      rw [if_neg (by simp [Advances, hadv]), Nat.add_zero] at hnxt
      rw [hsame, ih]
      constructor
      · rintro ⟨a, h⟩
        exact ⟨a, h.before.trans (Nat.lt_succ_self d), h.accepts, h.token, hnxt.trans h.since⟩
      · rintro ⟨a, h⟩
        rcases (Nat.lt_succ_iff_lt_or_eq.mp h.before) with hlt | rfl
        · exact ⟨a, hlt, h.accepts, h.token, hnxt.symm.trans h.since⟩
        · exact absurd (hadv.symm.trans (advances_of_accepts h.accepts)) Bool.false_ne_true
    | true =>
      rw [if_pos hadv] at hnxt
      cases n with
      | zero =>
        rw [tokenAt_zero hfl hadv]
        constructor
        · intro h
          split_ifs at h with haccs
          exact ⟨d, Nat.lt_succ_self d, haccs, Option.some.inj h, rfl⟩
        · rintro ⟨a, h⟩
          rcases (Nat.lt_succ_iff_lt_or_eq.mp h.before) with hlt | rfl
          · have hle := advances_mono (b := b) (show a + 1 ≤ d from hlt)
            have heq := h.since
            omega
          · rw [if_pos h.accepts, h.token]
      | succ n =>
        rw [tokenAt_succ hfl hadv, ih]
        constructor
        · rintro ⟨a, h⟩
          refine ⟨a, h.before.trans (Nat.lt_succ_self d), h.accepts, h.token, ?_⟩
          rw [hnxt, h.since, Nat.add_assoc]
        · rintro ⟨a, h⟩
          have heq := h.since
          rcases (Nat.lt_succ_iff_lt_or_eq.mp h.before) with hlt | rfl
          · exact ⟨a, hlt, h.accepts, h.token, by omega⟩
          · omega

/-- While results are taken again and again, the pipeline moves on again. -/
theorem exists_advance (hrdy : ∀ n, ∃ m, n ≤ m ∧ (b.input m).resultReadyI) (n : ℕ) :
    ∃ d, n ≤ d ∧ Advances b d ∧ advances b d = advances b n := by
  have hsome : ∃ d, n ≤ d ∧ Advances b d := by
    obtain ⟨m, hm, htaken⟩ := hrdy n
    exact ⟨m, hm, by rw [Advances, pipelineAdvance, htaken, Bool.or_true]⟩
  obtain ⟨hle, hfst⟩ := Nat.find_spec hsome
  refine ⟨Nat.find hsome, hle, hfst, ?_⟩
  have hstill : ∀ k, n ≤ k → k ≤ Nat.find hsome → advances b k = advances b n := by
    intro k hk
    induction k, hk using Nat.le_induction with
    | base => exact fun _ => rfl
    | succ k hk ih =>
      intro hlast
      have hno : ¬ Advances b k := fun h => Nat.find_min hsome hlast ⟨hk, h⟩
      rw [advances_succ, if_neg hno, Nat.add_zero, ih (Nat.le_of_succ_le hlast)]
  exact hstill _ hle le_rfl

theorem exists_advance_after (hrdy : ∀ n, ∃ m, n ≤ m ∧ (b.input m).resultReadyI)
    (n k : ℕ) : ∃ d, n ≤ d ∧ Advances b d ∧ advances b d = advances b n + k := by
  induction k with
  | zero => exact exists_advance hrdy n
  | succ k ih =>
    obtain ⟨d, hd, hadv, hcnt⟩ := ih
    obtain ⟨e, he, hnxt, hsame⟩ := exists_advance hrdy (d + 1)
    refine ⟨e, hd.trans (Nat.le_of_succ_le he), hnxt, ?_⟩
    rw [hsame, advances_succ, if_pos hadv, hcnt, Nat.add_assoc]

variable (b)

/-- The lane answers each token once, and shows nothing else. -/
structure AnswersOnce : Prop where
  shows : ∀ a d t, Came b a d t t.latency →
    (b.state d).resultValidO ∧ (b.state d).resultTagO = t.tag ∧ (b.state d).resultO = t.value
  source : ∀ d, (b.state d).resultValidO → ∃ a t, Came b a d t t.latency
  port : ∀ a a' d t t', Came b a d t t.latency → Came b a' d t' t'.latency → a = a'
  adder : ∀ a a' d, UsesAdder b a d → UsesAdder b a' d → a = a'
  gone : ∀ a d t n, Came b a d t n → t.latency < n → ((b.state d).stageQ n).validQ = false
  taken : (∀ n, ∃ m, n ≤ m ∧ (b.input m).resultReadyI) →
    ∀ a, (b.state a).accepts (b.input a) → ∃! d,
      Came b a d (inputToken (b.input a)) (inputToken (b.input a)).latency ∧ Advances b d

/-- An addition is not accepted while a multiply-accumulate has its product ready. -/
theorem adder_free {a d : ℕ} {t : LaneToken p} (h : Came b a d t p.mulLatency)
    (hmac : t.mac) (haccs : (b.state d).accepts (b.input d))
    (hmultiply : (b.input d).multiplyI = false) (hinput : (b.input d).macI = false) : False := by
  have hdue := (tracked_of_run ((b.run d).mono fun _ _ _ _ => trivial)).macAddDue_iff.mpr
    ⟨t, (tokenAt_iff d _ t).mpr ⟨a, h⟩, hmac⟩
  simp [accepts, readyO, hmultiply, hinput, hdue] at haccs

/-- For all latencies, every mix of operations and every way in which results are taken, each
accepted token is answered once, after exactly its latency in cycles that move on. -/
theorem lane_answers_once : AnswersOnce b := by
  have htracked : ∀ d, Tracked (b.past d) (b.state d) :=
    fun d => tracked_of_run ((b.run d).mono fun _ _ _ _ => trivial)
  constructor
  · intro a d t hcame
    obtain ⟨hvalid, htag, hresult⟩ := (htracked d).presents ((tokenAt_iff d _ t).mpr ⟨a, hcame⟩)
    exact ⟨hvalid, htag, hresult.trans t.partialResult_latency⟩
  · intro d hvalid
    obtain ⟨t, ht⟩ := (htracked d).delivered hvalid
    obtain ⟨a, hcame⟩ := (tokenAt_iff d _ t).mp ht
    exact ⟨a, t, hcame⟩
  · intro a a' d t t' hcame hcame'
    have hsame := (htracked d).apart _ _ t t' ((tokenAt_iff d _ t).mpr ⟨a, hcame⟩)
      ((tokenAt_iff d _ t').mpr ⟨a', hcame'⟩) le_rfl le_rfl (Nat.add_comm _ _)
    rw [hsame] at hcame
    exact hcame.cycle_unique hcame'
  · rintro a a' d (⟨rfl, haccepts, hmultiply, hinput⟩ | ⟨t, hcame, hmac⟩)
      (⟨rfl, haccepts', hmultiply', hinput'⟩ | ⟨t', hcame', hmac'⟩)
    · rfl
    · exact (adder_free b hcame' hmac' haccepts hmultiply hinput).elim
    · exact (adder_free b hcame hmac haccepts' hmultiply' hinput').elim
    · exact hcame.cycle_unique hcame'
  · intro a d t n hcame hlate
    apply Bool.eq_false_iff.mpr
    intro hvalid
    obtain ⟨t', ht', hle⟩ := ((htracked d).valid n).mp hvalid
    have heq := ht'.symm.trans ((tokenAt_iff d n t).mpr ⟨a, hcame⟩)
    cases heq
    omega
  · intro hready a haccepts
    obtain ⟨d, hd, hadvance, hcount⟩ := exists_advance_after hready (a + 1)
      (inputToken (b.input a)).latency
    refine ⟨d, ⟨⟨hd, haccepts, rfl, hcount⟩, hadvance⟩, ?_⟩
    rintro e ⟨hcame, hagain⟩
    have heq := hcame.since
    rcases Nat.lt_trichotomy e d with hlt | rfl | hgt
    · have hmore := advances_lt hagain hlt
      omega
    · rfl
    · have hmore := advances_lt hadvance hgt
      omega

end LaneState

end OpenRV64
