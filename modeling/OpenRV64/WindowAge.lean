/-
Modular age is program age as long as the instructions in flight span at most half of
the identifier space, and nested recoveries behind one slow instruction take the span
beyond it.
-/
import OpenRV64.WindowCoupling

namespace OpenRV64

open ModularAge RingSegment RetireEntry WindowState IssuePayload
open List (range' mem_of_getElem? mem_iff_getElem? mem_range mem_range'_1 any_eq_false mem_map)

namespace BackendTracked

variable {p : WindowParams} {t : BackendTracked p} {i : BackendInput p}

/-- In this cycle the comparison of two resident identifiers is program order, no
identifier is there twice, and a selective recovery keeps exactly the recovering control
and what is older, apart from what retires. -/
structure AgeIsOrder (t : BackendTracked p) (i : BackendInput p) : Prop where
  resident : ∀ n, n < p.depth → ((t.window.entry n).valid = true ↔ ∃ e ∈ t.ledger.live, e.slot = n)
  same : ∀ n, n < p.depth → t.queue.validQ n = (t.window.entry n).valid
  named : ∀ e ∈ t.ledger.live, (t.window.entry e.slot).id = idOf p.idWidth e.seq ∧
    t.queue.idQ e.slot = idOf p.idWidth e.seq
  younger : ∀ e ∈ t.ledger.live, ∀ f ∈ t.ledger.live,
    isYounger (t.window.entry e.slot).id (t.window.entry f.slot).id = true ↔ f.seq < e.seq
  distinct : ∀ m n, m < p.depth → n < p.depth → (t.window.entry m).valid = true →
    (t.window.entry n).valid = true → (t.window.entry m).id = (t.window.entry n).id → m = n
  recovery : i.clears = false → i.selectiveSquash = true →
    ∃ b ∈ t.ledger.live, b.slot = i.redirectSlotI ∧ idOf p.idWidth b.seq = i.redirectIdI ∧
      ∀ e ∈ t.ledger.live,
        (((t.window.step (t.windowInput i)).entry e.slot).valid = true ↔
          e.seq ≤ b.seq ∧ e ∉ t.leaving i) ∧ ((t.queue.step (t.queueInput i)).validQ e.slot = true ↔
          e.seq ≤ b.seq ∧ e ∉ t.leaving i)

namespace Cycle

/-- The instructions that retire are the oldest ones. -/
theorem mem_leaving (h : Cycle t i) {j : Nat} {e : RetireEntry}
    (he : t.ledger.live[j]? = some e) : e ∈ t.leaving i ↔ j < gone t i := by
  constructor
  · intro hmem
    obtain ⟨k, hk⟩ := mem_iff_getElem?.mp hmem
    rw [leaving, List.getElem?_take] at hk
    split at hk
    · rename_i hlt
      have := h.coupled.retire.accounted.live_seq_lt_iff he hk
      have := h.coupled.retire.accounted.live_seq_lt_iff hk he
      change k < gone t i at hlt
      omega
    · cases hk
  · intro hj
    apply mem_of_getElem? (i := j)
    rw [leaving, List.getElem?_take,
      if_pos (show j < t.queue.retireCount (t.queueInput i) from hj), he]

theorem recovery (h : Cycle t i) (hsq : i.selectiveSquash) :
    ∃ b ∈ t.ledger.live, b.slot = i.redirectSlotI ∧ idOf p.idWidth b.seq = i.redirectIdI ∧
      ∀ e ∈ t.ledger.live, (((t.window.step (t.windowInput i)).entry e.slot).valid ↔
          e.seq ≤ b.seq ∧ e ∉ t.leaving i) ∧ ((t.queue.step (t.queueInput i)).validQ e.slot ↔
          e.seq ≤ b.seq ∧ e ∉ t.leaving i) := by
  obtain ⟨m, b, hb, hslot, hid⟩ := h.retireCycle.squash_named hsq
  have hkept : kept t i = m + 1 := h.retireCycle.keep_of_squash hsq hb hslot
  have hgrown : grown t i = 0 := RetireTracked.Cycle.grow_of_squash hsq
  refine ⟨b, mem_of_getElem? hb, (h.coupled.place hb).trans hslot, hid.symm, ?_⟩
  intro e he
  obtain ⟨j, hj⟩ := mem_iff_getElem?.mp he
  have hlen := h.coupled.length
  have hjl := (List.getElem?_eq_some_iff.mp hj).1
  have hstays : (gone t i ≤ j ∧ j < kept t i + grown t i) ↔ e.seq ≤ b.seq ∧ e ∉ t.leaving i := by
    have hlt := h.coupled.retire.accounted.live_seq_lt_iff hb hj
    rw [h.mem_leaving hj, hkept, hgrown]
    omega
  have hwindow := h.step_valid (show j < p.depth by omega)
  have hqueue := h.retireCycle.step_validQ (show j < p.depth by omega)
  change (t.queue.step (t.queueInput i)).validQ (slot p.depth t.queue.headQ j) =
    decide (gone t i ≤ j ∧ j < kept t i + grown t i) at hqueue
  rw [← h.coupled.place hj] at hwindow hqueue
  rw [hwindow, hqueue, decide_eq_true_iff]
  exact ⟨hstays, hstays⟩

end Cycle

/-- In every cycle of every run whose cycles stay within the bounds, modular age is
program age. -/
theorem age_is_order {past : Sync.Past (BackendTracked p) (BackendInput p)}
    (hrun : Sync.Run (issueBackend p) (boundedEnv p) past t) (hpromises : t.Promises i)
    (hbounded : t.Bounded i) : AgeIsOrder t i := by
  have h := coupled_of_run hrun
  have hyounger : ∀ e ∈ t.ledger.live, ∀ f ∈ t.ledger.live,
      isYounger (t.window.entry e.slot).id (t.window.entry f.slot).id = true ↔ f.seq < e.seq := by
    intro e he f hf
    have hne : e.seq < t.ledger.next := h.retire.accounted.live_seq_lt he
    have hnf : f.seq < t.ledger.next := h.retire.accounted.live_seq_lt hf
    have hwe := hbounded.window e he
    have hwf := hbounded.window f hf
    rw [(h.entry e he).2.1, (h.entry f hf).2.1,
      isYounger_idOf p.idWidth_pos (by omega) (by omega), decide_eq_true_iff]
  constructor
  · intro n hn
    constructor
    · exact h.resident hn
    · rintro ⟨e, he, rfl⟩
      exact (h.entry e he).1
  · exact fun n hn => h.valid_eq hn
  · intro e he
    obtain ⟨j, hj⟩ := List.mem_iff_getElem?.mp he
    exact ⟨(h.entry e he).2.1, (h.retire.entry j e hj).2.1⟩
  · exact hyounger
  · intro m n hm hn hvm hvn hid
    obtain ⟨e, he, rfl⟩ := h.resident hm hvm
    obtain ⟨f, hf, rfl⟩ := h.resident hn hvn
    have hef := hyounger e he f hf
    have hfe := hyounger f hf e he
    rw [hid, isYounger_self] at hef hfe
    simp only [Bool.false_eq_true, false_iff, Nat.not_lt] at hef hfe
    have hne : e.seq = f.seq := by omega
    obtain ⟨j, hj⟩ := List.mem_iff_getElem?.mp he
    obtain ⟨k, hk⟩ := List.mem_iff_getElem?.mp hf
    have := h.retire.accounted.live_seq_lt_iff hj hk
    have := h.retire.accounted.live_seq_lt_iff hk hj
    have hjk : j = k := by omega
    rw [h.place hj, h.place hk, hjk]
  · intro hclear hsquash
    exact Cycle.recovery ⟨h, hpromises, hbounded, hclear⟩ hsquash

/-! ## Nested recoveries -/

/-- A base-ALU instruction, which may write x5. -/
def plainPayload (regWrite : Bool) : IssuePayload :=
  { zero with aluExt := aluExtBase, rd := 5, regWrite := regWrite }

def branchPayload : IssuePayload := { zero with branch := true }

/-- A program whose instruction 0 writes x5, with branches at some of its numbers. -/
def branchyProgram (branchAt : Nat → Bool) (n : Nat) : IssuePayload :=
  if branchAt n then branchPayload else plainPayload (n == 0)

/-- A cycle in which nothing is offered and nothing is ready. -/
def idle (p : WindowParams) : BackendInput p where
  flushI := false
  squashFrontendI := false
  translationBypassI := false
  decodeValidI := fun _ => false
  decodePayloadI := fun _ => zero
  decodeUsesI := fun _ _ => false
  gprReadDataI := fun _ _ => 0
  pipeReadyI := fun _ => false
  completeValidI := fun _ => false
  completeIdI := fun _ => 0
  completeSlotI := fun _ => 0
  completePayloadI := fun _ => ⟨false, false, false, 0, 0⟩
  completeSeq := fun _ => 0
  branchResolvedI := false
  redirectIdI := 0
  redirectSlotI := 0
  retireAcceptI := fun _ => false

/-- Decode offers the next `count` instructions of a program. -/
def offer (p : WindowParams) (program : Nat → IssuePayload) (next count : Nat) : BackendInput p :=
  { idle p with
    decodeValidI := fun lane => decide (lane.val < count)
    decodePayloadI := fun lane => program (next + lane) }

/-- EX1 takes instruction number `n` from `slot`, which turns out mispredicted. -/
def mispredict (p : WindowParams) (n slot : Nat) : BackendInput p :=
  { idle p with
    squashFrontendI := true
    branchResolvedI := true
    pipeReadyI := fun pipe => pipe == .ex1
    redirectIdI := idOf p.idWidth n
    redirectSlotI := slot }

/-- Instructions of a branchy program are in flight, all with their operands, and those
of `done` are issued. -/
structure Branchy (branchAt done : Nat → Bool) (t : BackendTracked p) (seqs : List Nat)
    (next : Nat) : Prop where
  live : t.ledger.live.map seq = seqs
  next : t.ledger.next = next
  program : ∀ e ∈ t.ledger.live, t.program e.seq = branchyProgram branchAt e.seq
  issued : ∀ e ∈ t.ledger.live, (t.window.entry e.slot).issued = done e.seq
  ready : ∀ e ∈ t.ledger.live, ∀ o, ((t.window.entry e.slot).src o).ready = true
  incomplete : ∀ e ∈ t.ledger.live, e.complete = false

/-- A cycle in which no port completes and nothing retires. -/
structure Still (i : BackendInput p) : Prop where
  complete : ∀ port, i.completeValidI port = false
  accept : ∀ lane, i.retireAcceptI lane = false

theorem Still.retireCount (hstill : Still i) (t : BackendTracked p) :
    t.queue.retireCount (t.queueInput i) = 0 := by
  have hfire : ∀ lane, t.queue.retireFire (t.queueInput i) lane = false := by
    intro lane
    change (_ && i.retireAcceptI lane) = false
    rw [hstill.accept, Bool.and_false]
  rw [RetireQueueState.retireCount, laneCount, hfire, hfire, hfire]
  rfl

theorem Still.completed (hstill : Still i) (t : BackendTracked p) :
    (t.retireInput i).completed = [] := by
  rw [RetireInput.completed, List.map_eq_nil_iff, List.filter_eq_nil_iff]
  intro port _
  cases port with
  | some port =>
    change ¬ i.completeValidI port
    rw [hstill.complete]
    exact Bool.false_ne_true
  | none => exact Bool.false_ne_true

theorem Still.broadcasts (hstill : Still i) (n : Nat) (port : Fin 3) :
    i.broadcasts n port = false := by
  rw [BackendInput.broadcasts, hstill.complete, Bool.false_and, Bool.false_and]

/-- Such a cycle within the span of the identifiers keeps what it owes, if decode and
recovery do. -/
theorem Still.promises (hstill : Still i)
    (horder : (i.decodeValidI 1 → i.decodeValidI 0) ∧ (i.decodeValidI 2 → i.decodeValidI 1))
    (hdecoded : ∀ lane, (i.decodePayloadI lane).Decoded)
    (hsrc : ∀ lane o, (i.decodePayloadI lane).rsAddr o = 0)
    (hredir : i.squashFrontendI ∨ i.branchResolvedI →
      t.ex1Takes i ∧ (t.window.entry i.redirectSlotI).payload.branch) : t.Promises i where
  decodePrefix := horder
  decoded lane _ := hdecoded lane
  retireAvailable lane hacc := by
    rw [hstill.accept] at hacc
    cases hacc
  retirePrefix := by
    rw [hstill.accept, hstill.accept, hstill.accept]
    exact ⟨id, id⟩
  redirect hsq := by
    rw [BackendInput.selectiveSquash, Bool.and_eq_true] at hsq
    exact (hredir (.inl hsq.1)).1
  resolve hresolved := hredir (.inr hresolved)
  answers port := by
    have hnone := hstill.complete port
    have hquiet := hstill.broadcasts (i.completeSeq port) port
    constructor <;> simp [hnone, hquiet]
  values := by
    refine .inr fun e he => ?_
    rw [leaving, hstill.retireCount t, List.take_zero] at he
    cases he
  registers lane o hne := absurd (hsrc lane o) hne

theorem Still.bounded (hstill : Still i)
    (hspan : ∀ e ∈ t.ledger.live, t.ledger.next ≤ e.seq + 2 ^ (p.idWidth - 1)) : t.Bounded i where
  window := hspan
  answers port hval := by
    rw [hstill.complete] at hval
    cases hval
  retires := .inr (by rw [hstill.retireCount t]; exact Nat.zero_le _)

section Branchy

variable {branchAt done : Nat → Bool} {seqs : List Nat} {next : Nat}

theorem branchyProgram_branch {n : Nat} (h : branchAt n) :
    branchyProgram branchAt n = branchPayload := if_pos h

theorem branchyProgram_plain {n : Nat} (h : branchAt n = false) :
    branchyProgram branchAt n = plainPayload (n == 0) := by
  rw [branchyProgram, h, if_low]

theorem branchyProgram_isHard (n : Nat) : (branchyProgram branchAt n).isHard = branchAt n := by
  cases h : branchAt n with
  | true => rw [branchyProgram_branch h]; rfl
  | false => rw [branchyProgram_plain h]; rfl

theorem branchyProgram_isEarly (n : Nat) :
    (branchyProgram branchAt n).isEarlyConditionalBranch = branchAt n := by
  cases h : branchAt n with
  | true => rw [branchyProgram_branch h]; rfl
  | false => rw [branchyProgram_plain h]; rfl

theorem branchyProgram_isMem (n : Nat) : (branchyProgram branchAt n).isMem = false := by
  cases h : branchAt n with
  | true => rw [branchyProgram_branch h]; rfl
  | false => rw [branchyProgram_plain h]; rfl

theorem branchyProgram_isPersistentHard (n : Nat) :
    (branchyProgram branchAt n).isPersistentHard = false := by
  rw [isPersistentHard, branchyProgram_isHard, branchyProgram_isEarly]
  cases branchAt n <;> rfl

theorem branchyProgram_rsAddr (n : Nat) (o : Operand) :
    (branchyProgram branchAt n).rsAddr o = 0 := by
  cases h : branchAt n with
  | true => rw [branchyProgram_branch h]; rfl
  | false => rw [branchyProgram_plain h]; rfl

theorem branchyProgram_decoded (n : Nat) : (branchyProgram branchAt n).Decoded where
  branch h := by
    cases hb : branchAt n with
    | true => rw [branchyProgram_branch hb]; rfl
    | false =>
      rw [branchyProgram_plain hb] at h
      cases h
  hard _ := branchyProgram_isMem n

theorem zero_decoded : zero.Decoded where
  branch h := nomatch h
  hard _ := rfl

section

variable (h : Branchy branchAt done t seqs next)

include h

theorem Branchy.length : t.ledger.live.length = seqs.length := by
  rw [← h.live, List.length_map]

theorem Branchy.span (hspan : ∀ n ∈ seqs, next ≤ n + 2 ^ (p.idWidth - 1)) :
    ∀ e ∈ t.ledger.live, t.ledger.next ≤ e.seq + 2 ^ (p.idWidth - 1) := by
  intro e he
  rw [h.next]
  apply hspan
  rw [← h.live]
  exact List.mem_map_of_mem he

/-- A cycle keeps such instructions in flight, and admits such instructions. -/
theorem Branchy.step (hcyc : Cycle t i) (hstill : Still i)
    (hprogram : ∀ lane : Fin 3, t.window.decodeFire (t.windowInput i) lane →
      i.decodePayloadI lane = branchyProgram branchAt (next + lane))
    (huses : ∀ lane o, i.decodeUsesI lane o = false) {done' : Nat → Bool}
    (hissues : ∀ e ∈ t.ledger.live,
      (done e.seq || t.window.issues (t.windowInput i) e.slot) = done' e.seq)
    (hfresh : ∀ n, next ≤ n → done' n = false) :
    Branchy branchAt done' ((issueBackend p).step t i)
      (seqs.take (Cycle.kept t i) ++ range' next (Cycle.grown t i))
      (next + Cycle.grown t i) := by
  have hz : Cycle.gone t i = 0 := hstill.retireCount t
  have hnew : ∀ {lane : Fin 3}, t.window.decodeFire (t.windowInput i) lane →
      ((issueBackend p).step t i).window.entry (t.queue.allocSlot lane) =
        t.window.admitEntry (t.windowInput i) lane := fun hlane =>
    hcyc.entry_admitted hlane
  have hold : ∀ {j : Nat} {f : RetireEntry}, t.ledger.live[j]? = some f →
      j < Cycle.kept t i → ((issueBackend p).step t i).window.entry f.slot =
        t.window.keepEntry (t.windowInput i) f.slot := fun hf hkept =>
    hcyc.entry_kept hf (by rw [hz]; exact Nat.zero_le _) hkept
  constructor
  · rw [hcyc.step_seqs, h.live, h.next, hz, List.drop_zero]
  · rw [hcyc.step_next, h.next]
  · intro e he
    rcases hcyc.live_cases he with ⟨j, f, hf, -, -, rfl⟩ | ⟨lane, hlane, rfl⟩
    · have hfl := mem_of_getElem? hf
      rw [mark_seq, program_step, hcyc.admitLane_old hfl]
      exact h.program f hfl
    · rw [program_step, Cycle.admitLane_new hlane]
      exact (hprogram lane hlane).trans (by rw [h.next])
  · intro e he
    rcases hcyc.live_cases he with ⟨j, f, hf, -, hkept, rfl⟩ | ⟨lane, hlane, rfl⟩
    · have hfl := mem_of_getElem? hf
      rw [mark_slot, mark_seq, hold hf hkept, ← hissues f hfl, ← h.issued f hfl]
      rfl
    · rw [hnew hlane, hfresh _ (by rw [h.next]; exact Nat.le_add_right _ _)]
      rfl
  · intro e he o
    rcases hcyc.live_cases he with ⟨j, f, hf, -, hkept, rfl⟩ | ⟨lane, hlane, rfl⟩
    · have hrdy := h.ready f (mem_of_getElem? hf) o
      rw [mark_slot, hold hf hkept]
      change (t.window.srcNext (t.windowInput i) f.slot o).ready
      rw [srcNext, hrdy, if_pos rfl]
      exact hrdy
    rw [hnew hlane]
    have hnone : (t.windowInput i).decodeUsesI lane o = false := huses lane o
    change (t.window.admitSrc (t.windowInput i) lane o).ready
    rw [admitSrc, hnone]
    rfl
  · intro e he
    rcases hcyc.live_cases he with ⟨j, f, hf, -, -, rfl⟩ | ⟨lane, -, rfl⟩
    · rw [hstill.completed t, mark, h.incomplete f (mem_of_getElem? hf)]
      rfl
    · rfl

end

section

variable (hc : Coupled t) (hroom : t.ledger.live.length + 3 ≤ p.depth) (hdep : p.depth < 2 ^ 32)

include hc hroom hdep

theorem allocationReady_of_room : t.allocationReady := by
  have hcnt : t.queue.countQ.toNat = t.ledger.live.length := hc.retire.count
  have hsub : (BitVec.ofNat 32 p.depth - 3).toNat = p.depth - 3 := by
    have hthree : (3 : BitVec 32).toNat = 3 := rfl
    have hself : (BitVec.ofNat 32 p.depth).toNat = p.depth := Nat.mod_eq_of_lt hdep
    rw [BitVec.toNat_sub_of_le (by rw [BitVec.le_def]; omega), hself, hthree]
  rw [BackendState.allocationReady, hsub, hcnt]
  exact decide_eq_true (by omega)

/-- With room for a group, decode's lanes are admitted as offered. -/
theorem decodeFire_offer (program : Nat → IssuePayload) (count : Nat) (lane : Fin 3) :
    t.window.decodeFire (t.windowInput (offer p program next count)) lane =
      decide (lane.val < count) := by
  have hrdy : ∀ lane : Fin 3,
      t.window.decodeReadyO (t.windowInput (offer p program next count)) lane := by
    intro lane
    have hfree := hc.freeCount
    have hlane := lane.isLt
    change (!false && !false && t.allocationReady && decide (lane.val < t.window.freeCount))
    rw [allocationReady_of_room hc hroom hdep, hfree]
    simpa using (by omega : lane.val < p.depth - t.ledger.live.length)
  have hval : ∀ lane : Fin 3, (t.windowInput (offer p program next count)).decodeValidI lane =
        decide (lane.val < count) := fun _ => rfl
  match lane with
  | 0 => simp [decodeFire, hrdy, hval]
  | 1 =>
    simp only [decodeFire, hrdy, hval, Bool.and_true, ← Bool.decide_and,
      decide_eq_decide, Fin.val_zero, Fin.val_one]
    omega
  | 2 =>
    simp only [decodeFire, hrdy, hval, Bool.and_true, ← Bool.decide_and,
      decide_eq_decide, Fin.val_zero, Fin.val_one, Fin.val_two]
    omega

end

theorem offer_still (program : Nat → IssuePayload) (next count : Nat) :
    Still (offer p program next count) := ⟨fun _ => rfl, fun _ => rfl⟩

theorem Branchy.fill (h : Branchy branchAt done t seqs next) (hc : Coupled t)
    {count : Nat} (hthree : count ≤ 3) (hroom : seqs.length + 3 ≤ p.depth)
    (hdep : p.depth < 2 ^ 32) (hspan : ∀ n ∈ seqs, next ≤ n + 2 ^ (p.idWidth - 1))
    (hfresh : ∀ n, next ≤ n → done n = false) :
    t.Promises (offer p (branchyProgram branchAt) next count) ∧
      t.Bounded (offer p (branchyProgram branchAt) next count) ∧ Branchy branchAt done
        ((issueBackend p).step t (offer p (branchyProgram branchAt) next count))
        (seqs ++ range' next count) (next + count) := by
  have hstill := offer_still (p := p) (branchyProgram branchAt) next count
  have hpromises : t.Promises (offer p (branchyProgram branchAt) next count) := by
    apply hstill.promises
    · simp only [offer, decide_eq_true_eq]
      exact ⟨fun h1 => Nat.zero_lt_of_lt h1, fun h2 => Nat.lt_of_succ_lt h2⟩
    · exact fun lane => branchyProgram_decoded _
    · exact fun lane => branchyProgram_rsAddr _
    · intro hnone
      simp [offer, idle] at hnone
  have hbnd := hstill.bounded (h.span hspan)
  have hcyc : Cycle t (offer p (branchyProgram branchAt) next count) := ⟨hc, hpromises, hbnd, rfl⟩
  have hfire : ∀ lane, t.window.decodeFire
      (t.windowInput (offer p (branchyProgram branchAt) next count)) lane =
        decide (lane.val < count) :=
    decodeFire_offer hc (by rw [h.length]; exact hroom) hdep (branchyProgram branchAt) count
  have hgrown : Cycle.grown t (offer p (branchyProgram branchAt) next count) = count := by
    rw [hcyc.grown_eq, laneCount, hfire, hfire, hfire]
    have hcnt : count = 0 ∨ count = 1 ∨ count = 2 ∨ count = 3 := by omega
    rcases hcnt with rfl | rfl | rfl | rfl <;> rfl
  refine ⟨hpromises, hbnd, ?_⟩
  have hstep := h.step hcyc hstill (fun _ _ => rfl) (fun _ _ => rfl) (fun e _ => by
    simp [issues, BackendState.windowInput, offer, idle]) hfresh
  have hkept : seqs.length ≤ Cycle.kept t (offer p (branchyProgram branchAt) next count) := by
    rw [Cycle.kept_of_noSquash rfl, h.length]
  rwa [hgrown, List.take_of_length_le hkept] at hstep

theorem mispredict_still (n slot : Nat) : Still (mispredict p n slot) :=
  ⟨fun _ => rfl, fun _ => rfl⟩

/-- A search that only one item can satisfy finds it. -/
theorem find?_eq_some_of_iff {α : Type} {l : List α} {f : α → Bool} {x : α} (hx : x ∈ l)
    (hf : ∀ y ∈ l, f y ↔ y = x) : l.find? f = some x := by
  have hsome : (l.find? f).isSome := List.find?_isSome.mpr ⟨x, hx, (hf x hx).mpr rfl⟩
  obtain ⟨y, hy⟩ := Option.isSome_iff_exists.mp hsome
  have htrue := List.find?_some hy
  rw [hy, (hf y (List.mem_of_find?_eq_some hy)).mp htrue]

section

variable (h : Branchy branchAt done t seqs next) (hc : Coupled t) (hspec : p.enableSpeculation)

include h hc hspec

theorem Branchy.selectEx1 {b : RetireEntry} (hb : b ∈ t.ledger.live)
    (hbranch : branchAt b.seq) (hundone : done b.seq = false)
    (honly : ∀ n ∈ seqs, branchAt n → done n ∨ n = b.seq) :
    t.window.selectEx1 (t.windowInput i) = some b.slot := by
  have hhead := hc.head
  have hmem : ∀ e ∈ t.ledger.live, e.seq ∈ seqs := fun e he => by
    rw [← h.live]
    exact List.mem_map_of_mem he
  -- What an older resident entry could block is blocked by none.
  have holder : ∀ o < p.depth, (t.window.entry o).valid →
      ∃ e ∈ t.ledger.live, e.slot = o ∧ (t.window.entry o).payload = branchyProgram branchAt e.seq ∧
        (t.window.entry o).issued = done e.seq := by
    intro o ho hval
    obtain ⟨e, he, rfl⟩ := hc.resident ho hval
    exact ⟨e, he, rfl, (hc.entry e he).2.2.trans (h.program e he), h.issued e he⟩
  have hpayload := (hc.entry b hb).2.2.trans (h.program b hb)
  have heligible : t.window.eligible (t.windowInput i) b.slot := by
    have hrdy : t.window.operandsReady (t.windowInput i) b.slot := by
      rw [operandsReady, srcNow, srcNow,
        h.ready b hb .rs1, h.ready b hb .rs2, if_pos rfl, if_pos rfl, h.ready b hb .rs1,
        h.ready b hb .rs2]
      rfl
    have hhard : t.window.olderUnissuedHard b.slot = false := by
      rw [olderUnissuedHard, any_eq_false]
      intro o ho
      rw [mem_range] at ho
      cases hold : t.window.isOlder b.slot o with
      | false => simp
      | true =>
        rw [isOlder, Bool.and_eq_true] at hold
        obtain ⟨e, -, -, hp, -⟩ := holder o ho hold.1
        rw [hp, maySpeculatePastUnissuedControl, branchyProgram_isHard,
          branchyProgram_isEarly, hspec]
        cases branchAt e.seq <;> simp
    have hpersistent : t.window.olderPersistentHard b.slot = false := by
      rw [olderPersistentHard, any_eq_false]
      intro o ho
      rw [mem_range] at ho
      cases hold : t.window.isOlder b.slot o with
      | false => simp
      | true =>
        rw [isOlder, Bool.and_eq_true] at hold
        obtain ⟨e, -, -, hp, -⟩ := holder o ho hold.1
        rw [hp, branchyProgram_isPersistentHard]
        simp
    have hconditional : t.window.olderUnresolvedConditional b.slot = false := by
      rw [olderUnresolvedConditional, any_eq_false]
      intro o ho
      rw [mem_range] at ho
      cases hold : t.window.isOlder b.slot o with
      | false => simp
      | true =>
        have hyoung := hold
        rw [isOlder, Bool.and_eq_true] at hyoung
        obtain ⟨e, he, hslot, hp, hi⟩ := holder o ho hyoung.1
        rw [hp, hi, branchyProgram_isEarly]
        cases hbe : branchAt e.seq with
        | false => simp
        | true =>
        rcases honly e.seq (hmem e he) hbe with hdone | heq
        · simp [hdone]
        · have hself := hyoung.2
          rw [← hslot, hc.seq_inj he hb heq, isYounger_self] at hself
          cases hself
    simp [eligible, baseEligible, controlBlocked,
      (hc.entry b hb).1, h.issued b hb, hundone, hrdy, hhard, hpersistent, hconditional,
      hpayload, branchyProgram_isPersistentHard, branchyProgram_isMem]
  have hfixed : t.window.selectEx1Fixed (t.windowInput i) = some b.slot := by
    apply find?_eq_some_of_iff
    · obtain ⟨k, hk, hslot⟩ := exists_slot hhead (hc.slot_lt hb)
      refine mem_map.mpr ⟨k, mem_range.mpr hk, ?_⟩
      rw [← hslot, slot_eq hhead hk.le]
      change (if t.queue.headQ + k ≥ p.depth then _ else _) = _
      split <;> split <;> first | rfl | omega
    · intro n hn
      have hlt := mem_scanSlots (i := t.windowInput i) hhead hn
      constructor
      · intro hmat
        rw [Bool.and_eq_true] at hmat
        obtain ⟨hval, hiss⟩ := valid_of_eligible hmat.1
        obtain ⟨e, he, rfl, hp, hi⟩ := holder n hlt hval
        have hbe := hmat.2
        rw [isFixedEx1, hp, branchyProgram_isHard] at hbe
        rw [hi] at hiss
        rcases honly e.seq (hmem e he) hbe with hdone | heq
        · rw [hdone] at hiss
          cases hiss
        · rw [hc.seq_inj he hb heq]
      · rintro rfl
        rw [heligible, isFixedEx1, hpayload, branchyProgram_isHard, hbranch]
        rfl
  rw [WindowState.selectEx1, hfixed, Option.some_or]

theorem Branchy.recovery {m n : Nat} (hm : seqs[m]? = some n)
    (hbranch : branchAt n) (hundone : done n = false)
    (honly : ∀ k ∈ seqs, branchAt k → done k ∨ k = n) :
    ∃ slot, t.Promises (mispredict p n slot) ∧
      ((∀ k ∈ seqs, next ≤ k + 2 ^ (p.idWidth - 1)) → (∀ k, next ≤ k → done k = false) →
        t.Bounded (mispredict p n slot) ∧ Branchy branchAt (fun k => done k || k == n)
            ((issueBackend p).step t (mispredict p n slot)) (seqs.take (m + 1)) next) := by
  have hget : (t.ledger.live.map seq)[m]? = some n := h.live ▸ hm
  rw [List.getElem?_map, Option.map_eq_some_iff] at hget
  obtain ⟨b, hb, rfl⟩ := hget
  have hbl := mem_of_getElem? hb
  have hsel : ∀ i : BackendInput p, t.window.selectEx1 (t.windowInput i) = some b.slot := fun i =>
    h.selectEx1 hc hspec hbl hbranch hundone honly
  have hone : ∀ e ∈ t.ledger.live, (e.slot = b.slot ↔ e.seq = b.seq) := by
    intro e he
    exact ⟨fun hslot => by rw [hc.slot_inj he hbl hslot],
      fun hseq => by rw [hc.seq_inj he hbl hseq]⟩
  have hpayload : (t.window.entry b.slot).payload.branch := by
    rw [(hc.entry b hbl).2.2, h.program b hbl, branchyProgram_branch hbranch]
    rfl
  have htake : t.ex1Takes (mispredict p b.seq b.slot) := by
    change (t.window.selectEx1 _ == some b.slot && true &&
      (t.window.entry b.slot).id == idOf p.idWidth b.seq)
    rw [hsel, (hc.entry b hbl).2.1, beq_self_eq_true, beq_self_eq_true]
    rfl
  have hstill := mispredict_still (p := p) b.seq b.slot
  have hpromises : t.Promises (mispredict p b.seq b.slot) := by
    apply hstill.promises
    · exact ⟨id, id⟩
    · exact fun _ => zero_decoded
    · intro lane o
      rfl
    · exact fun _ => ⟨htake, hpayload⟩
  refine ⟨b.slot, hpromises, fun hspan hfresh => ?_⟩
  have hbnd := hstill.bounded (i := mispredict p b.seq b.slot) (h.span hspan)
  have hclears : (mispredict p b.seq b.slot).clears = false := by
    simp [BackendInput.clears, mispredict, idle, hspec]
  have hsq : (mispredict p b.seq b.slot).selectiveSquash := by
    simp [BackendInput.selectiveSquash, mispredict, hspec]
  have hcyc : Cycle t (mispredict p b.seq b.slot) := ⟨hc, hpromises, hbnd, hclears⟩
  have hkept : Cycle.kept t (mispredict p b.seq b.slot) = m + 1 :=
    hcyc.retireCycle.keep_of_squash hsq hb (hc.place hb).symm
  have hgrown : Cycle.grown t (mispredict p b.seq b.slot) = 0 :=
    RetireTracked.Cycle.grow_of_squash hsq
  have hissues : ∀ e ∈ t.ledger.live, (done e.seq ||
      t.window.issues (t.windowInput (mispredict p b.seq b.slot)) e.slot) =
        (done e.seq || e.seq == b.seq) := by
    intro e he
    have hex0 : (t.windowInput (mispredict p b.seq b.slot)).pipeReadyI .ex0 = false := rfl
    have hex1 : (t.windowInput (mispredict p b.seq b.slot)).pipeReadyI .ex1 := rfl
    have hmem0 : (t.windowInput (mispredict p b.seq b.slot)).pipeReadyI .mem0 = false := rfl
    have hmem1 : (t.windowInput (mispredict p b.seq b.slot)).pipeReadyI .mem1 = false := rfl
    have hissue : t.window.issues (t.windowInput (mispredict p b.seq b.slot)) e.slot =
        (some b.slot == some e.slot) := by
      simp [issues, pipeEntry, hsel, hex0, hex1, hmem0, hmem1]
    rw [hissue]
    congr 1
    rw [Bool.eq_iff_iff, beq_iff_eq, beq_iff_eq, Option.some.injEq, eq_comm, hone e he]
  have hfresh' : ∀ k, next ≤ k → (done k || k == b.seq) = false := by
    intro k hk
    have hlt : b.seq < t.ledger.next := hc.retire.accounted.live_seq_lt hbl
    rw [h.next] at hlt
    rw [hfresh k hk, Bool.false_or, beq_eq_false_iff_ne]
    omega
  have hstep := h.step hcyc hstill (fun lane hlane => by cases (decodeFire_some hlane).2.1)
    (fun _ _ => rfl)
    hissues hfresh'
  rw [hkept, hgrown, List.range'_zero, List.append_nil] at hstep
  exact ⟨hbnd, hstep⟩

end

/-- A run within the bounds leads to such a state. -/
def Reached (p : WindowParams) (branchAt done : Nat → Bool) (seqs : List Nat) (next : Nat) : Prop :=
  ∃ past t, Sync.Run (issueBackend p) (boundedEnv p) past t ∧ Branchy branchAt done t seqs next

/-- The state that reset leaves when everything else powered up as zero. -/
def powerUp (p : WindowParams) : BackendTracked p where
  window := .reset p
  queue := RetireQueueState.reset ⟨fun _ => false, fun _ => false, fun _ => 0, 0, 0, 0, 0, 0⟩
  ledger := .empty
  program := fun _ => zero
  uses := fun _ _ => false
  result := fun _ => none
  committed := fun _ => 0

theorem powerUp_init (p : WindowParams) : (issueBackend p).Init (powerUp p) :=
  ⟨rfl, ⟨_, rfl⟩, rfl, rfl⟩

theorem reached_reset (p : WindowParams) (branchAt : Nat → Bool) :
    Reached p branchAt (fun _ => false) [] 0 := by
  refine ⟨[], powerUp p, .reset (powerUp_init p), rfl, rfl, ?_, ?_, ?_, ?_⟩ <;>
    exact fun e he => nomatch he

section

variable (h : Reached p branchAt done seqs next)

include h

theorem Reached.fill (count : Nat)
    (hthree : count ≤ 3) (hroom : seqs.length + 3 ≤ p.depth) (hdep : p.depth < 2 ^ 32)
    (hspan : ∀ n ∈ seqs, next ≤ n + 2 ^ (p.idWidth - 1))
    (hfresh : ∀ n, next ≤ n → done n = false) :
    Reached p branchAt done (seqs ++ range' next count) (next + count) := by
  obtain ⟨past, t, hrun, ht⟩ := h
  obtain ⟨hpromises, hbnd, hstep⟩ := ht.fill (coupled_of_run hrun) hthree hroom hdep hspan hfresh
  exact ⟨_, _, .cycle _ hrun ⟨hpromises, hbnd⟩, hstep⟩

theorem Reached.fills (k : Nat) (hroom : seqs.length + 3 * k ≤ p.depth) (hdep : p.depth < 2 ^ 32)
    (hspan : ∀ n ∈ seqs, next + 3 * k ≤ n + 2 ^ (p.idWidth - 1))
    (hfresh : ∀ n, next ≤ n → done n = false) :
    Reached p branchAt done (seqs ++ range' next (3 * k)) (next + 3 * k) := by
  induction k with
  | zero => simpa using h
  | succ k ih =>
    have hlt := p.depth_lt
    have hprev := ih (by omega) (fun n hn => by have := hspan n hn; omega)
    have hlast := hprev.fill 3 le_rfl (by rw [List.length_append, List.length_range']; omega) hdep
      (fun n hn => by
        rcases List.mem_append.mp hn with hn | hn
        · have := hspan n hn
          omega
        · have := (mem_range'_1.mp hn).1
          omega)
      (fun n hn => hfresh n (by omega))
    rw [List.append_assoc] at hlast
    have hjoin : range' next (3 * k) ++ range' (next + 3 * k) 3 = range' next (3 * (k + 1)) := by
      rw [Nat.mul_succ, ← List.range'_append_1]
    rwa [hjoin] at hlast

theorem Reached.recovery (hspec : p.enableSpeculation) {m n : Nat} (hm : seqs[m]? = some n)
    (hbranch : branchAt n) (hundone : done n = false)
    (honly : ∀ k ∈ seqs, branchAt k → done k ∨ k = n)
    (hspan : ∀ k ∈ seqs, next ≤ k + 2 ^ (p.idWidth - 1))
    (hfresh : ∀ k, next ≤ k → done k = false) :
    Reached p branchAt (fun k => done k || k == n) (seqs.take (m + 1)) next := by
  obtain ⟨past, t, hrun, ht⟩ := h
  obtain ⟨slot, hpromises, hnxt⟩ := ht.recovery (coupled_of_run hrun) hspec hm hbranch hundone honly
  obtain ⟨hbnd, hstep⟩ := hnxt hspan hfresh
  exact ⟨_, _, .cycle _ hrun ⟨hpromises, hbnd⟩, hstep⟩

end

end Branchy

theorem wideWindow_pow : 2 ^ clog2 256 = 256 := by decide

theorem wideWindow_lt : 256 < 2 ^ (instrIdWidth - 1) := by decide

/-- A speculative window of 256 entries over the identifiers of the back end. -/
def wideWindow : WindowParams where
  enableSpeculation := true
  depth := 256
  cacheableBase := 0
  cacheableSize := 0
  resultReadyControlRelease := true
  idWidth := instrIdWidth
  depth_pow := wideWindow_pow
  depth_lt := wideWindow_lt

theorem wideWindow_depth : wideWindow.depth < 2 ^ 32 := by decide

theorem wideWindow_half : 2 ^ (wideWindow.idWidth - 1) = 512 := by decide

/-- The branches of a program that recover one behind the other, the last one excepted. -/
def nestedBranch (n : Nat) : Bool := n == 1 || n == 255 || n == 513

def nestedDone (n : Nat) : Bool := n == 1 || n == 255

/-- Two nested recoveries behind instruction 0 leave it in flight with instruction 514. -/
theorem nested_reached :
    Reached wideWindow nestedBranch nestedDone ([0, 1, 255] ++ range' 507 8) 515 := by
  have hdep := wideWindow_depth
  have hhalf := wideWindow_half
  have hfst := (reached_reset wideWindow nestedBranch).fills 85 (by decide) hdep
    (fun n hn => nomatch hn) (fun _ _ => rfl)
  have houter : Reached wideWindow nestedBranch (fun k => false || k == 1) [0, 1] 255 :=
    hfst.recovery rfl (m := 1) (n := 1) rfl rfl rfl
    (fun k hk hb => by
      have := (mem_range'_1.mp hk).2
      simp only [nestedBranch, Bool.or_eq_true, beq_iff_eq] at hb
      omega)
    (fun k hk => by rw [hhalf]; omega) (fun _ _ => rfl)
  have hdone : ∀ k, 255 ≤ k → (false || k == 1) = false := fun k hk => by
    rw [Bool.false_or, beq_eq_false_iff_ne]
    omega
  have hsecond := houter.fills 84 (by decide) hdep (fun n hn => by rw [hhalf]; omega) hdone
  have hinner : Reached wideWindow nestedBranch (fun k => (false || k == 1) || k == 255)
      [0, 1, 255] 507 := hsecond.recovery rfl (m := 2) (n := 255) rfl rfl rfl
    (fun k hk hb => by
      simp only [nestedBranch, Bool.or_eq_true, beq_iff_eq] at hb
      rcases List.mem_append.mp hk with hk | hk
      · have hk' : k = 0 ∨ k = 1 := by simpa using hk
        rcases hk' with rfl | rfl
        · omega
        · exact .inl rfl
      have hrng := mem_range'_1.mp hk
      rcases hb with (hb | hb) | hb
      · omega
      · exact .inr hb
      · omega)
    (fun k hk => by rw [hhalf]; omega) (fun k hk => hdone k (by omega))
  have hinnerDone : ∀ k, 507 ≤ k → nestedDone k = false := fun k hk => by
    simp only [nestedDone, Bool.or_eq_false_iff, beq_eq_false_iff_ne]
    omega
  have hsame : (fun k => (false || k == 1) || k == 255) = nestedDone := by
    funext k
    rw [Bool.false_or]
    rfl
  rw [hsame] at hinner
  have hspan : ∀ (l : List Nat) (next : Nat), next ≤ 512 →
      ∀ n ∈ l, next ≤ n + 2 ^ (wideWindow.idWidth - 1) := fun l next hnxt n _ => by
    rw [hhalf]
    omega
  have hthird := hinner.fill 3 (by decide) (by decide) hdep
    (hspan _ _ (by decide)) (fun n hn => hinnerDone n (by omega))
  have hfourth := hthird.fill 2 (by decide) (by decide) hdep
    (hspan _ _ (by decide)) (fun n hn => hinnerDone n (by omega))
  exact hfourth.fill 3 (by decide) (by decide) hdep
    (hspan _ _ (by decide)) (fun n hn => hinnerDone n (by omega))

/-- A recovery in a window with 255 instructions in flight. -/
theorem age_is_order_recovery :
    ∃ (t : BackendTracked wideWindow) (i : BackendInput wideWindow),
      t.ledger.live.map seq = List.range' 0 255 ∧ i.selectiveSquash = true ∧ AgeIsOrder t i := by
  have hhalf := wideWindow_half
  obtain ⟨past, t, hrun, ht⟩ := (reached_reset wideWindow nestedBranch).fills 85 (by decide)
    wideWindow_depth (fun n hn => nomatch hn) (fun _ _ => rfl)
  obtain ⟨slot, hpromises, hnext⟩ := ht.recovery (coupled_of_run hrun) rfl
    (m := 1) (n := 1) rfl rfl rfl (fun k hk hb => by
      have := (List.mem_range'_1.mp hk).2
      simp only [nestedBranch, Bool.or_eq_true, beq_iff_eq] at hb
      omega)
  obtain ⟨hbounded, -⟩ := hnext (fun k hk => by rw [hhalf]; omega) (fun _ _ => rfl)
  exact ⟨t, mispredict wideWindow 1 slot, ht.live, rfl, age_is_order hrun hpromises hbounded⟩

theorem idle_still (p : WindowParams) : Still (idle p) := ⟨fun _ => rfl, fun _ => rfl⟩

theorem idle_promises (t : BackendTracked p) : t.Promises (idle p) := by
  apply (idle_still p).promises
  · exact ⟨id, id⟩
  · exact fun _ => zero_decoded
  · intro lane o
    rfl
  · intro hnone
    simp [idle] at hnone

/-- Instruction 513 is in flight with instruction 0, and does not compare younger. -/
theorem age_is_order_fails :
    ¬ ∀ (p : WindowParams) past (t : BackendTracked p) i,
      Sync.Run (issueBackend p) (Sync.cycleEnv fun t i => t.Promises i) past t →
        t.Promises i → AgeIsOrder t i := by
  intro hage
  obtain ⟨past, t, hrun, ht⟩ := nested_reached
  have horder := hage wideWindow past t (idle wideWindow)
    (hrun.mono fun _ _ _ henv => henv.1) (idle_promises t)
  have hmem : ∀ n ∈ [0, 1, 255] ++ List.range' 507 8, ∃ e ∈ t.ledger.live, e.seq = n := by
    intro n hn
    rw [← ht.live] at hn
    exact List.mem_map.mp hn
  obtain ⟨e, he, hold⟩ := hmem 0 (by decide)
  obtain ⟨f, hf, hnew⟩ := hmem 513 (by decide)
  have hyounger := horder.younger f hf e he
  rw [(horder.named e he).1, (horder.named f hf).1, hold, hnew] at hyounger
  revert hyounger
  decide

end BackendTracked

end OpenRV64
