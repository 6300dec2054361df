/-
The global histories of a predictor.  The speculative history is the committed one with the
outcomes of the checkpoints shifted in; a flush goes back to the committed history, and
loses what had resolved behind the head.
-/
import OpenRV64.CheckpointRing

namespace OpenRV64

open ModularAge RingSegment Checkpoint HistoryTable
open List (length_map map_cons nil_append mem_cons_self cons prefix_rfl)
open Entry (checkpoint resolve)

theorem Checkpoint.outcomes_cons (c : Checkpoint) (q : List Checkpoint) :
    outcomes (c :: q) = (if c.branch then [c.outcome] else []) ++ outcomes q := by
  rw [outcomes, List.filterMap_cons]
  cases c.branch <;> rfl

namespace HistoryTable

variable {p : BpParams} {H : ℕ}

/-- The history behind an entry that was predicted under `history`. -/
def after (history : BitVec H) (x : Entry H) : BitVec H :=
  if x.2.branch then shiftIn history (Entry.checkpoint x).outcome else history

/-- Every entry was predicted under the history that the ones before it leave, and
`last` is what they all leave. -/
def Chained (last : BitVec H) : BitVec H → List (Entry H) → Prop
  | history, [] => last = history
  | history, x :: rest => x.2.ghrBefore = history ∧ Chained last (after history x) rest

section Chain

variable {history last : BitVec H} {xs ys : List (Entry H)} {x : Entry H}

theorem chained_append :
    Chained last history (xs ++ ys) ↔ ∃ mid, Chained mid history xs ∧ Chained last mid ys := by
  induction xs generalizing history with
  | nil => simp [Chained]
  | cons x xs ih =>
    rw [List.cons_append, Chained, ih]
    constructor
    · rintro ⟨hx, mid, hxs, hys⟩
      exact ⟨mid, ⟨hx, hxs⟩, hys⟩
    · rintro ⟨mid, ⟨hx, hxs⟩, hys⟩
      exact ⟨hx, mid, hxs, hys⟩

/-- The outcomes of the checkpoints, shifted in one after another. -/
theorem chained_eq (h : Chained last history xs) :
    last = (outcomes (xs.map checkpoint)).foldl shiftIn history := by
  induction xs generalizing history with
  | nil => exact h
  | cons x xs ih =>
    have hbranch : (checkpoint x).branch = x.2.branch := rfl
    rw [ih h.2, after, map_cons, outcomes_cons, hbranch, List.foldl_append]
    cases x.2.branch <;> rfl

/-- An entry that resolves as predicted changes nothing behind it. -/
theorem after_resolve {taken : Bool} (hfresh : x.1.resolved = false)
    (htaken : x.2.branch → taken = x.2.predictedTaken) :
    after history (resolve x taken) = after history x := by
  rw [after, after]
  have hbranch : (resolve x taken).2.branch = x.2.branch := rfl
  rw [hbranch]
  split_ifs with hb
  · have hold : (checkpoint x).outcome = x.2.predictedTaken := by
      rw [outcome, checkpoint, hfresh]
      rfl
    rw [hold, ← htaken hb]
    rfl
  · rfl

theorem chained_resolve {post : List (Entry H)} {taken : Bool} (hfresh : x.1.resolved = false)
    (htaken : x.2.branch → taken = x.2.predictedTaken)
    (h : Chained last history (xs ++ x :: post)) :
    Chained last history (xs ++ resolve x taken :: post) := by
  obtain ⟨mid, hxs, hx, hpost⟩ := chained_append.mp h
  refine chained_append.mpr ⟨mid, hxs, hx, ?_⟩
  rw [after_resolve hfresh htaken]
  exact hpost

end Chain

variable {t : HistoryTable p H} {i : PredictorInput} {conditional : Bool}
  {rs pre post : List (Entry H)} {x : Entry H}

/-- The committed history chains through the ring to the speculative one. -/
def Historic (t : HistoryTable p H) (rs : List (Entry H)) : Prop :=
  Chained t.speculativeGhrQ t.committedGhrQ rs

theorem Tracks.head_eq (h : Tracks t (x :: rs)) : t.head = x.2 := by
  have hslot := h.history (k := 0) (Nat.succ_pos _)
  rwa [h.ring.slot_zero] at hslot

theorem Tracks.headCommit_cons (h : Tracks t (x :: rs)) :
    t.table.headCommit = x.1.resolved := h.ring.headCommit

/-- The entry that resolves is not the one that leaves. -/
theorem head_resolve (h : Tracks t (pre ++ x :: post)) (hfresh : x.1.resolved = false)
    (hcom : t.table.headCommit) {rest : List (Entry H)} {taken : Bool} :
    (pre ++ resolve x taken :: rest).head? = (pre ++ x :: post).head? := by
  cases pre with
  | nil =>
    rw [nil_append] at h
    rw [h.headCommit_cons, hfresh] at hcom
    cases hcom
  | cons y pre => rfl

/-- Without a flush the committed history takes in what leaves at the head. -/
theorem committedGhrNext_eq (h : Tracks t rs) (henv : Promises t i) (hfl : i.flushI = false)
    {ys : List (Entry H)} (hhead : t.table.headCommit → ys.head? = rs.head?)
    {last : BitVec H} (hchain : Chained last t.committedGhrQ ys) :
    Chained last (t.committedGhrNext i) (ys.drop t.table.headCommit.toNat) := by
  rw [committedGhrNext, hfl, Bool.false_and, if_low, recordCommit_eq henv]
  cases hcom : t.table.headCommit with
  | false => exact hchain
  | true =>
    have hsame := hhead hcom
    cases rs with
    | nil =>
      rw [h.ring.headCommit] at hcom
      simp at hcom
    | cons x rest =>
      obtain ⟨tail, rfl⟩ : ∃ tail, ys = x :: tail := by
        cases ys with
        | nil => cases hsame
        | cons y tail => exact ⟨tail, by rw [Option.some.inj hsame]⟩
      rw [h.headCommit_cons] at hcom
      have hrec : t.recordCommitBranch i = x.2.branch := by
        rw [recordCommitBranch, if_pos henv.tagged, h.head_eq]
      have hout : (checkpoint x).outcome = x.2.actualTaken := by
        rw [outcome, checkpoint, hcom]
        rfl
      have hhistory : t.recordCommitHistory i = shiftIn t.committedGhrQ x.2.actualTaken := by
        rw [recordCommitHistory, if_pos henv.tagged, committedHeadHistory, h.head_eq, hchain.1]
      have hlast := hchain.2
      rw [after, hout] at hlast
      rw [Bool.true_and, hrec, hhistory]
      exact hlast

/-- A recovery goes back to what the record that raised it was predicted under. -/
theorem Historic.squash (hchain : Historic t (pre ++ x :: post)) (hresolved : t.resolved i = x.2)
    (hfl : i.flushI = false)
    (hsq : t.table.squashing i.toBpInput) :
    Chained (t.speculativeGhrNext i conditional) t.committedGhrQ
      (pre ++ [resolve x i.resolveTakenI]) := by
  obtain ⟨mid, hpre, hbef, -⟩ := chained_append.mp hchain
  refine chained_append.mpr ⟨mid, hpre, hbef, ?_⟩
  rw [speculativeGhrNext, hfl, if_low, if_pos hsq, hresolved]
  have hbranch : (resolve x i.resolveTakenI).2.branch = x.2.branch := rfl
  rw [after, hbranch, resolvedHistory, hresolved, hbef]
  rfl

/-- A lookup extends the history by the direction it predicts. -/
theorem chained_new {ys : List (Entry H)} {committed : BitVec H} (henv : Promises t i)
    (hfl : i.flushI = false) (hsq : t.table.squashing i.toBpInput = false)
    (hchain : Chained t.speculativeGhrQ committed ys) :
    Chained (t.speculativeGhrNext i conditional) committed
      (ys ++ if t.table.allocates i.toBpInput then
        [(t.table.newRecord i.toBpInput i.rasPredictionValidI i.rasPredictionTargetI,
          t.newHistory i conditional)]
        else []) := by
  rw [speculativeGhrNext, hfl, if_low, hsq, if_low]
  cases halloc : t.table.allocates i.toBpInput with
  | false =>
    rw [if_low, Bool.false_and, if_low, List.append_nil]
    exact hchain
  | true =>
    rw [if_pos rfl, Bool.true_and]
    refine chained_append.mpr ⟨_, hchain, rfl, ?_⟩
    have hreq : i.lookupAllocateI := by
      rw [TargetTable.allocates, Bool.and_eq_true] at halloc
      exact halloc.1
    have hval := (henv.lookup hreq).1
    cases hb : i.lookupBranchI with
    | false =>
      rw [after]
      show _ = if (t.newHistory i conditional).branch then _ else _
      rw [newHistory, hb]
      simp
    | true =>
      obtain ⟨hjump, hindirect⟩ := henv.kind hreq hb
      have hpredicted : t.predictionTakenO i conditional = conditional := by
        rw [predictionTakenO, hval, hb, hjump, hindirect]
        simp
      rw [after]
      show _ = if (t.newHistory i conditional).branch then
        shiftIn _ (t.newHistory i conditional).predictedTaken else _
      rw [newHistory, hb, hpredicted]

theorem Historic.step {rs' : List (Entry H)} (hchain : Historic t rs) (h : Tracks t rs)
    (henv : Promises t i) (hfl : i.flushI = false) (hturn : Turn t i conditional rs rs') :
    Historic (t.step i conditional) rs' := by
  have hsquashing := squashing_eq henv
  cases hturn with
  | flush hfl' => rw [hfl] at hfl'; cases hfl'
  | squash _ hsq hsplit hresolves hresolved =>
    subst hsplit
    apply committedGhrNext_eq h henv hfl ?_ (hchain.squash hresolved hfl (hsquashing.trans hsq))
    intro hcom
    exact head_resolve h hresolves.unresolved hcom
  | resolve _ hsq hsplit hresolves hresolved hval =>
    subst hsplit
    have hquiet := hsquashing.trans hsq
    apply chained_new henv hfl hquiet
    apply committedGhrNext_eq h henv hfl
    · intro hcom
      exact head_resolve h hresolves.unresolved hcom
    · apply chained_resolve hresolves.unresolved ?_ hchain
      intro hb
      by_contra hne
      have hrec := h.resolveHasRecord_of_named hval
        (List.mem_append_right _ mem_cons_self) (hresolves.named henv.tagged)
      rw [← hresolved] at hb hne
      rcases henv.wrong hrec hb hne with hf | hs
      · rw [hfl] at hf; cases hf
      · rw [hsq] at hs; cases hs
  | quiet _ hsq hrec =>
    apply chained_new henv hfl (hsquashing.trans hsq)
    exact committedGhrNext_eq h henv hfl (fun _ => rfl) hchain

/-! ## A full flush -/

/-- A flush commits a resolved record at the head that is no conditional branch. -/
def CommitsOther (t : HistoryTable p H) (i : PredictorInput) : Prop :=
  i.flushI = true ∧ t.table.headCommit = true ∧ t.head.branch = false

/-- A conditional branch has resolved behind the head. -/
def ResolvedBehind (t : HistoryTable p H) : Prop :=
  ∃ n, n < p.inflightDepth ∧ n ≠ t.table.inflightHeadQ ∧ (t.table.inflightQ n).valid = true ∧
    (t.table.inflightQ n).resolved = true ∧ (t.historyQ n).branch = true

/-- The record that resolves is at the head exactly when the head is named. -/
theorem Tracks.headResolves (h : Tracks t (x :: rs)) (henv : Promises t i) :
    t.headResolves i = (i.resolveValidI && decide (x.1.id = i.resolveIdI) && x.2.branch) ∧
      (t.headResolves i → x.1.resolved = false ∧
        t.resolvedHistory i = shiftIn x.2.ghrBefore i.resolveTakenI) := by
  have hring := h.ring
  by_cases hnamed : i.resolveValidI ∧ x.1.id = i.resolveIdI
  · obtain ⟨hval, hid⟩ := hnamed
    have hrec := h.resolveHasRecord_of_named hval mem_cons_self hid
    obtain ⟨pre, y, post, hsplit, hr, hresolved⟩ := h.exists_resolves henv hrec
    cases pre with
    | cons z pre =>
      rw [List.cons_append, cons.injEq] at hsplit
      rw [hsplit.1] at hid
      exact absurd hid (hr.others henv.tagged z.1 (by simp))
    | nil =>
      rw [nil_append, cons.injEq] at hsplit
      obtain ⟨rfl, rfl⟩ := hsplit
      have hidx := hring.resolveIndex hr
      rw [List.map_nil, List.length_nil, hring.slot_zero] at hidx
      refine ⟨?_, fun _ => ⟨hr.unresolved, by rw [resolvedHistory, hresolved]⟩⟩
      rw [HistoryTable.headResolves, hrec, hidx, hresolved, hval, decide_eq_true hid]
      simp
  have hfalse : t.headResolves i = false := by
    refine eq_false_of_ne_true fun hhit => ?_
    rw [HistoryTable.headResolves, Bool.and_eq_true, Bool.and_eq_true, beq_iff_eq] at hhit
    obtain ⟨⟨hrec, hidx⟩, -⟩ := hhit
    obtain ⟨pre, y, post, hsplit, hr, -⟩ := h.exists_resolves henv hrec
    have hring' := h.ring
    rw [hsplit, List.map_append, map_cons] at hring'
    have hpre := hring'.pre_lt
    have hfst := (hring'.slot_eq_head hpre).symm.trans
      (beq_iff_eq.mpr ((hring'.resolveIndex hr).symm.trans hidx))
    rw [decide_eq_true_iff, length_map, List.length_eq_zero_iff] at hfst
    subst hfst
    rw [nil_append, cons.injEq] at hsplit
    rw [TargetTable.resolveHasRecord, Bool.and_eq_true, Bool.and_eq_true] at hrec
    exact absurd ⟨hrec.1.1, hsplit.1 ▸ hr.named henv.tagged⟩ hnamed
  refine ⟨?_, fun hhit => absurd hhit (by rw [hfalse]; decide)⟩
  rw [hfalse]
  cases hval : i.resolveValidI with
  | false => rfl
  | true =>
    have hid : x.1.id ≠ i.resolveIdI := fun hid => hnamed ⟨hval, hid⟩
    rw [decide_eq_false hid]
    rfl

/-- What a cycle adds to the committed history. -/
theorem commits_eq (h : Tracks t rs) (henv : Promises t i) (hchain : Historic t rs) :
    t.committedGhrNext i = (commits i (rs.map checkpoint)).foldl shiftIn t.committedGhrQ := by
  rw [committedGhrNext, recordCommit_eq henv]
  cases rs with
  | nil =>
    have hcom : t.table.headCommit = false := h.ring.headCommit
    have hrec : t.headResolves i = false := by
      rw [HistoryTable.headResolves, TargetTable.resolveHasRecord, h.ring.count_ne_zero]
      simp
    rw [hrec, hcom, Bool.and_false]
    rfl
  | cons x rest =>
    obtain ⟨hhit, hst⟩ := h.headResolves henv
    have hbranch : t.recordCommitBranch i = x.2.branch := by
      rw [recordCommitBranch, if_pos henv.tagged, h.head_eq]
    have hhistory : t.recordCommitHistory i = shiftIn t.committedGhrQ x.2.actualTaken := by
      rw [recordCommitHistory, if_pos henv.tagged, committedHeadHistory, h.head_eq, hchain.1]
    have hview : (checkpoint x).branch = x.2.branch := rfl
    have hid : (checkpoint x).id = x.1.id := rfl
    have hactual : (checkpoint x).actual =
        if x.1.resolved then some x.2.actualTaken else none := rfl
    rw [h.headCommit_cons, hbranch, hhistory, map_cons, commits, List.head?_cons]
    simp only [hview, hid, hactual]
    cases i.flushI with
    | false =>
      simp only [Bool.false_and, if_low]
      cases x.2.branch <;> cases x.1.resolved <;> rfl
    | true =>
      simp only [Bool.true_and]
      cases hb : x.2.branch with
      | false =>
        rw [hb, Bool.and_false] at hhit
        rw [hhit]
        simp
      | true =>
        rw [hb, Bool.and_true] at hhit
        cases hnamed : i.resolveValidI && decide (x.1.id = i.resolveIdI) with
        | true =>
          rw [hnamed] at hhit
          rw [hhit, (hst hhit).2, hchain.1]
          rfl
        | false =>
          rw [hnamed] at hhit
          rw [hhit]
          cases x.1.resolved <;> rfl

/-- After a flush that commits nothing but conditional branches the two histories agree. -/
theorem speculativeGhrNext_flush (henv : Promises t i) (hfl : i.flushI)
    (hoth : ¬ CommitsOther t i) : t.speculativeGhrNext i conditional = t.committedGhrNext i := by
  rw [speculativeGhrNext, committedGhrNext, hfl, if_pos rfl, Bool.true_and,
    recordCommit_eq henv, recordCommitBranch, if_pos henv.tagged]
  cases hhit : t.headResolves i with
  | true => rfl
  | false =>
  cases hcom : t.table.headCommit with
  | false => rfl
  | true =>
    have hbranch : t.head.branch := by
      by_contra hb
      exact hoth ⟨hfl, hcom, Bool.eq_false_iff.mpr hb⟩
    rw [hbranch]
    rfl

/-- With nothing resolved behind the head, a flush commits all that has resolved. -/
theorem known_prefix (h : Tracks t rs) (henv : Promises t i) (hbehind : ¬ ResolvedBehind t) :
    known (rs.map checkpoint) <+: commits i (rs.map checkpoint) := by
  cases rs with
  | nil => exact prefix_rfl
  | cons x rest =>
    have hrest : known (rest.map checkpoint) = [] := by
      rw [known, List.filterMap_eq_nil_iff]
      intro c hc
      obtain ⟨y, hy, rfl⟩ := List.mem_map.mp hc
      obtain ⟨k, hk, rfl⟩ := List.mem_iff_getElem.mp hy
      have hlt : k + 1 < (x :: rest).length := Nat.succ_lt_succ hk
      have hle := h.length_le
      have hrec := h.record hlt
      have hhistory := h.history hlt
      rw [List.getElem_cons_succ] at hrec hhistory
      have hval := h.ring.valid (k + 1) (by omega)
      rw [length_map, decide_eq_true hlt] at hval
      have hhead := h.ring.slot_eq_head (k := k + 1) (by omega)
      rw [decide_eq_false (Nat.succ_ne_zero k), beq_eq_false_iff_ne] at hhead
      show (if (rest[k]).2.branch then
        if (rest[k]).1.resolved then some (rest[k]).2.actualTaken else none else none) = none
      split_ifs with hb hr
      · refine absurd ⟨_, slot_lt h.ring.depth_pos (k + 1), hhead, hval, ?_, ?_⟩ hbehind
        · rw [hrec]
          exact hr
        · rw [hhistory]
          exact hb
      · rfl
      · rfl
    rw [known] at hrest
    have hview : (checkpoint x).branch = x.2.branch := rfl
    have hactual : (checkpoint x).actual =
        if x.1.resolved then some x.2.actualTaken else none := rfl
    have hid : (checkpoint x).id = x.1.id := rfl
    rw [map_cons, known, List.filterMap_cons, hrest, commits, List.head?_cons]
    simp only [hview, hactual, hid]
    cases hb : x.2.branch with
    | false => exact prefix_rfl
    | true =>
    cases hr : x.1.resolved with
    | false => exact List.nil_prefix
    | true =>
      have hunnamed : (i.resolveValidI && decide (x.1.id = i.resolveIdI)) = false := by
        obtain ⟨hhit, hst⟩ := h.headResolves henv
        refine eq_false_of_ne_true fun hnamed => ?_
        rw [hnamed, hb] at hhit
        rw [(hst hhit).1] at hr
        cases hr
      rw [Bool.and_assoc, hunnamed, Bool.and_false]
      exact prefix_rfl

/-! ## Whole runs -/

/-- The registers of the ring hold the checkpoints `q`, from the head to the tail in the
order in which they entered. -/
structure Segment (t : HistoryTable p H) (q : List Checkpoint) : Prop where
  head : t.table.inflightHeadQ < p.inflightDepth
  length : q.length ≤ p.inflightDepth
  count : t.table.inflightCountQ.toNat = q.length
  tail : t.table.inflightTailQ = slot p.inflightDepth t.table.inflightHeadQ q.length
  valid : ∀ k, k < p.inflightDepth →
    (t.table.inflightQ (slot p.inflightDepth t.table.inflightHeadQ k)).valid = decide (k < q.length)
  entries : ∀ k c, q[k]? = some c →
    Entry.checkpoint (t.table.inflightQ (slot p.inflightDepth t.table.inflightHeadQ k),
      t.historyQ (slot p.inflightDepth t.table.inflightHeadQ k)) = c
  aged : q.Pairwise fun older newer => isYounger newer.id older.id = true

theorem Tracks.segment (h : Tracks t rs) (htag : rs ≠ [] → p.enableTaggedResolution) :
    Segment t (rs.map checkpoint) where
  head := h.ring.head
  length := by
    rw [length_map]
    exact h.length_le
  count := by rw [h.ring.count, length_map, length_map]
  tail := by rw [h.ring.tail, length_map, length_map]
  valid k hk := by rw [h.ring.valid k hk, length_map, length_map]
  entries k c hc := by
    rw [List.getElem?_map, Option.map_eq_some_iff] at hc
    obtain ⟨y, hy, rfl⟩ := hc
    obtain ⟨hlt, rfl⟩ := List.getElem?_eq_some_iff.mp hy
    rw [h.record hlt, h.history hlt]
  aged := by
    by_cases hrs : rs = []
    · rw [hrs]
      exact List.Pairwise.nil
    · have haged := h.ring.aged (htag hrs)
      rw [List.map_map] at haged
      rw [List.pairwise_map] at haged ⊢
      exact haged

theorem tracks_reset (htab : p.bpType.useTablePredictor) (t : HistoryTable p H) :
    Tracks t.reset [] := by
  have hdep : 0 < p.inflightDepth := Nat.zero_lt_of_lt (p.inflight_two_le htab)
  refine ⟨⟨hdep, Nat.zero_le _, (RingSegment.slot_zero hdep).symm, rfl, Holds.nil, ?_, ?_, ?_⟩,
    Holds.nil⟩
  · intro k _
    rfl
  · exact fun _ => List.Pairwise.nil
  · intro _ r hr
    cases hr

/-- What a run owes: the ring is the queue, the speculative history is the committed one
with the outcomes of the queue behind it, and a flush that finds nothing resolved behind
the head keeps every outcome known before it. -/
structure Recovers (past : Sync.Past (HistoryTable p H) (PredictorInput × Bool))
    (t : HistoryTable p H) : Prop where
  segment : Segment t (checkpoints past)
  speculative : (∀ e ∈ past, ¬ CommitsOther e.1 e.2.1) →
    t.speculativeGhrQ = (outcomes (checkpoints past)).foldl shiftIn t.committedGhrQ
  committed : (∀ e ∈ past, ¬ CommitsOther e.1 e.2.1) →
    t.committedGhrQ = (retired past).foldl shiftIn 0
  flushed : (∀ e ∈ past, ¬ CommitsOther e.1 e.2.1) → ∀ e rest, past = e :: rest →
    e.2.1.flushI = true → ¬ ResolvedBehind e.1 → ∃ later, t.speculativeGhrQ =
        (retired rest ++ known (checkpoints rest) ++ later).foldl shiftIn 0

/-- The entries of a run: they are the queue, and the histories chain through them. -/
def Follows (past : Sync.Past (HistoryTable p H) (PredictorInput × Bool))
    (t : HistoryTable p H) (rs : List (Entry H)) : Prop :=
  Tracks t rs ∧ rs.map Entry.checkpoint = checkpoints past ∧
    ((∀ e ∈ past, ¬ CommitsOther e.1 e.2.1) →
      Historic t rs ∧ t.committedGhrQ = (retired past).foldl shiftIn 0)

theorem Follows.step {past : Sync.Past (HistoryTable p H) (PredictorInput × Bool)}
    (h : Follows past t rs) (henv : Promises t i) (htab : p.bpType.useTablePredictor) :
    ∃ rs', Follows ((t, i, conditional) :: past) (t.step i conditional) rs' := by
  obtain ⟨htrk, hqueue, hhistoric⟩ := h
  obtain ⟨rs', htrk', hturn⟩ :
      ∃ rs', Tracks (t.step i conditional) rs' ∧ Turn t i conditional rs rs' :=
    htrk.step henv htab
  refine ⟨rs', htrk', ?_, ?_⟩
  · rw [hturn.queue htrk henv, hqueue]
    rfl
  · intro hclean
    obtain ⟨hchain, hretired⟩ := hhistoric fun e he => hclean e (List.mem_cons_of_mem _ he)
    have hcommits : t.committedGhrNext i =
        (commits i (checkpoints past)).foldl shiftIn t.committedGhrQ := by
      rw [← hqueue]
      exact commits_eq htrk henv hchain
    constructor
    · cases hfl : i.flushI with
      | false => exact hchain.step htrk henv hfl hturn
      | true =>
        have hemp : rs' = [] := by
          cases hturn with
          | flush _ => rfl
          | squash hf => rw [hf] at hfl; cases hfl
          | resolve hf => rw [hf] at hfl; cases hfl
          | quiet hf => rw [hf] at hfl; cases hfl
        subst hemp
        exact speculativeGhrNext_flush henv hfl (hclean (t, i, conditional) mem_cons_self)
    · show t.committedGhrNext i = _
      rw [hcommits, hretired, ← List.foldl_append]
      rfl

section

variable (htab : p.bpType.useTablePredictor)
  {past : Sync.Past (HistoryTable p H) (PredictorInput × Bool)}
  (hrun : Sync.Run (circuit p H) (Sync.cycleEnv fun t i => Promises t i.1) past t)
include htab hrun

theorem follows_of_run : ∃ rs, Follows past t rs := by
  induction hrun with
  | reset hinit =>
    obtain ⟨t', rfl⟩ := hinit
    exact ⟨[], tracks_reset htab t', rfl, fun _ => ⟨rfl, rfl⟩⟩
  | cycle i _ henv ih =>
    obtain ⟨rs, h⟩ := ih
    exact h.step henv htab

theorem recovers_of_run : Recovers past t := by
  obtain ⟨rs, htrk, hqueue, hhistoric⟩ := follows_of_run htab hrun
  have htag : rs ≠ [] → p.enableTaggedResolution := by
    intro hrs
    cases hrun with
    | reset _ => exact absurd (List.map_eq_nil_iff.mp hqueue) hrs
    | cycle _ _ henv => exact henv.tagged
  refine ⟨by rw [← hqueue]; exact htrk.segment htag, ?_, fun hclean => (hhistoric hclean).2, ?_⟩
  · intro hclean
    rw [← hqueue]
    exact chained_eq (hhistoric hclean).1
  · intro hclean e rest hpast hfl hbehind
    subst hpast
    obtain ⟨hchain, hretired⟩ := hhistoric hclean
    cases hrun with
    | cycle i hrun henv =>
      obtain ⟨rs₀, htracks₀, hqueue₀, -⟩ := follows_of_run htab hrun
      obtain ⟨later, hlater⟩ := known_prefix (i := i.1) htracks₀ henv hbehind
      have hemp : rs = [] := by
        rw [← List.map_eq_nil_iff (f := checkpoint), hqueue]
        show Checkpoint.next _ i.1 _ _ = []
        rw [Checkpoint.next, if_pos hfl]
      subst hemp
      refine ⟨later, ?_⟩
      rw [Historic, Chained] at hchain
      rw [hchain, hretired, List.append_assoc, ← hqueue₀, hlater, hqueue₀]
      rfl

end

end HistoryTable

/-! ## The two predictors -/

/-- The history half of a gshare predictor. -/
def GshareState.view (g : GshareParams) :
    Sync.Component (gshareBtb g) (circuit g.bp g.historyBits) where
  state := GshareState.history
  input s i := (i, s.conditionalPrediction i)
  init := by
    rintro s ⟨s', rfl⟩
    exact ⟨s'.history, rfl⟩
  step _ _ := rfl

/-- The history half of a tournament predictor. -/
def TournamentState.view (g : TournamentParams) :
    Sync.Component (tournamentBtb g) (circuit g.bp g.globalHistoryBits) where
  state := TournamentState.history
  input s i := (i, s.conditionalPrediction i)
  init := by
    rintro s ⟨s', rfl⟩
    exact ⟨s'.history, rfl⟩
  step _ _ := rfl

/-- What the surroundings of a gshare predictor promise. -/
abbrev GshareState.Env (g : GshareParams) :=
  Sync.cycleEnv fun (s : GshareState g) (i : PredictorInput) => s.history.Promises i

abbrev TournamentState.Env (g : TournamentParams) :=
  Sync.cycleEnv fun (s : TournamentState g) (i : PredictorInput) => s.history.Promises i

instance {p : BpParams} {H : ℕ} (t : HistoryTable p H) (i : PredictorInput) :
    Decidable (t.Promises i) :=
  decidable_of_iff
    (p.enableTaggedResolution = true ∧
      (i.lookupAllocateI = true → i.lookupValidI = true ∧ t.table.queueFull = false) ∧
      (i.lookupAllocateI = true → i.lookupBranchI = true →
        i.lookupJumpI = false ∧ i.lookupIndirectI = false) ∧
      (i.lookupAllocateI = true → ∀ n, n < p.inflightDepth → (t.table.inflightQ n).valid = true →
          isYounger i.lookupIdI (t.table.inflightQ n).id = true) ∧
      (t.table.resolveHasRecord i.toBpInput = true →
        (t.table.inflightQ (t.table.resolveIndex i.toBpInput)).resolved = false) ∧
      (i.squashI = true → t.table.resolveHasRecord i.toBpInput = true) ∧
      (t.table.resolveHasRecord i.toBpInput = true → (t.resolved i).branch = true →
        i.resolveTakenI ≠ (t.resolved i).predictedTaken → i.flushI = true ∨ i.squashI = true))
    ⟨fun h => ⟨h.1, h.2.1, h.2.2.1, h.2.2.2.1, h.2.2.2.2.1, h.2.2.2.2.2.1, h.2.2.2.2.2.2⟩,
      fun h => ⟨h.tagged, h.lookup, h.kind, h.younger, h.fresh, h.squash, h.wrong⟩⟩

theorem twoRecords_ok : 2 ≤ 2 ∧ 2 ^ clog2 2 = 2 := by decide

def twoRecords : BpParams where
  bpType := .gshareBtb
  enableRas := false
  rasDepth := 2
  btbEntries := 2
  btbTagBits := 4
  inflightDepth := 2
  enableTaggedResolution := true
  inflight_two_le _ := twoRecords_ok.1
  inflight_pow _ := twoRecords_ok.2

theorem smallGshare_index : 1 ≤ 1 := by decide

theorem smallGshare_counter : 2 ≤ 2 := by decide

theorem smallGshare_history : 2 ≤ 2 ∧ 1 ≤ 2 := by decide

def smallGshare : GshareParams where
  bp := twoRecords
  phtIndexWidth := 1
  counterBits := 2
  historyBits := 2
  table_ok := rfl
  index_ok := smallGshare_index
  counter_ok := smallGshare_counter
  history_ok := smallGshare_history

theorem smallTournament_index : 1 ≤ 1 ∧ 1 ≤ 1 ∧ 1 ≤ 1 := by decide

theorem smallTournament_counter : 2 ≤ 2 ∧ 2 ≤ 2 ∧ 2 ≤ 2 := by decide

def smallTournament : TournamentParams where
  bp := { twoRecords with bpType := .tournamentBtb }
  globalIndexWidth := 1
  globalCounterBits := 2
  globalHistoryBits := 2
  localHistoryIndexWidth := 1
  localHistoryBits := 2
  localCounterBits := 2
  chooserIndexWidth := 1
  chooserCounterBits := 2
  table_ok := rfl
  index_ok := smallTournament_index
  counter_ok := smallTournament_counter
  global_ok := smallGshare_history
  local_ok := smallGshare_counter

def gsharePowerUp : GshareState smallGshare where
  history :=
    { table := ⟨fun _ => false, fun _ => 0, fun _ => 0, fun _ => ⟨false, false, 0, false, 0⟩, 0, 0,
        0, false⟩
      historyQ := fun _ => ⟨false, false, false, 0⟩
      speculativeGhrQ := 0
      committedGhrQ := 0 }
  phtValidQ _ := false
  phtCounterQ _ := 0
  inflightPhtIndexQ _ := 0

/-- A cycle that enters a direct jump or a backward branch, or that resolves one. -/
def predictorCycle (enters branch resolves flush : Bool) : PredictorInput where
  flushI := flush
  squashI := false
  rasContextFlushI := false
  lookupValidI := enters
  lookupIndirectI := false
  lookupInstrI := if branch then 0x00000063 else 0x0000006f
  lookupPcI := 0
  lookupIdI := 0
  lookupAllocateI := enters
  resolveValidI := resolves
  resolveTakenI := resolves
  resolveInstrI := if branch then 0x00000063 else 0x0000006f
  resolvePcI := 0
  resolveTargetI := 0
  resolveIdI := 0
  lookupBranchI := enters && branch
  lookupJumpI := enters && !branch
  lookupBackwardI := true
  rasPredictionValidI := false
  rasPredictionTargetI := 0

/-- A control enters, resolves, and is at the head when the flush comes. -/
def flushedAtHead (branch : Bool) : List PredictorInput :=
  [predictorCycle true branch false false, predictorCycle false branch true false,
    predictorCycle false branch false true]

end OpenRV64
