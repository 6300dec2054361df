/-
The checkpoints of a predictor as a queue, and the ring of records that holds it: controls
enter at the tail, leave resolved at the head, and a recovery drops what is younger than
the record that raised it.
-/
import OpenRV64.BranchHistory
import OpenRV64.SyncView

namespace OpenRV64

open ModularAge RingSegment TargetTable
open Bool (and_eq_true toNat)
open List (length_map map_append map_cons map_drop mem_map getElem?_map map_nil)
open Prod (fst snd)

/-- A control in flight: what was predicted of it, and its outcome once it has resolved. -/
@[ext] structure Checkpoint where
  id : BitVec instrIdWidth
  branch : Bool
  predicted : Bool
  actual : Option Bool
deriving DecidableEq

namespace Checkpoint

/-- The outcome the history assumes. -/
def outcome (c : Checkpoint) : Bool := c.actual.getD c.predicted

def resolve (c : Checkpoint) (taken : Bool) : Checkpoint := { c with actual := some taken }

/-- The outcomes of the conditional branches among checkpoints, as the history assumes
them. -/
def outcomes (q : List Checkpoint) : List Bool :=
  q.filterMap fun c => if c.branch then some c.outcome else none

/-- The outcomes of the conditional branches that have resolved. -/
def known (q : List Checkpoint) : List Bool :=
  q.filterMap fun c => if c.branch then c.actual else none

/-- A resolution marks the checkpoint it names. -/
def mark (i : PredictorInput) (q : List Checkpoint) : List Checkpoint :=
  if i.resolveValidI then
    q.map fun c => if c.id = i.resolveIdI then c.resolve i.resolveTakenI else c
  else q

/-- The checkpoints up to the one a resolution names. -/
def upTo (i : PredictorInput) (q : List Checkpoint) : List Checkpoint :=
  q.take (q.findIdx (fun c => decide (c.id = i.resolveIdI)) + 1)

/-- The oldest checkpoint leaves once it has resolved. -/
def leaves (q : List Checkpoint) : ℕ := (q.head?.any fun c => c.actual.isSome).toNat

/-- The queue after one cycle, in which `new` is what a lookup would enter. -/
def next (depth : ℕ) (i : PredictorInput) (new : Checkpoint) (q : List Checkpoint) :
    List Checkpoint :=
  if i.flushI then []
  else if i.squashI then (mark i (upTo i q)).drop (leaves q)
  else (mark i q).drop (leaves q) ++
    if i.lookupAllocateI && decide (q.length < depth) then [new] else []

/-- What one cycle adds to the committed history: the outcome of a conditional branch that
leaves at the head, or that resolves there in a flush. -/
def commits (i : PredictorInput) (q : List Checkpoint) : List Bool :=
  match q.head? with
  | none => []
  | some c =>
    if !c.branch then []
    else if i.flushI && i.resolveValidI && decide (c.id = i.resolveIdI) then [i.resolveTakenI]
    else c.actual.toList

end Checkpoint

namespace HistoryTable

variable {p : BpParams} {H : ℕ}

/-- What a lookup would enter in this cycle. -/
def newCheckpoint (t : HistoryTable p H) (i : PredictorInput) (conditional : Bool) :
    Checkpoint where
  id := i.lookupIdI
  branch := i.lookupBranchI
  predicted := t.predictionTakenO i conditional
  actual := none

/-- The history half of a predictor: its input carries the direction that the tables
predict. -/
def circuit (p : BpParams) (H : ℕ) : Sync.Circuit (HistoryTable p H) (PredictorInput × Bool) where
  Init t := ∃ t' : HistoryTable p H, t = t'.reset
  step t i := t.step i.1 i.2

/-- The checkpoints that a run has left in flight, the oldest first. -/
def checkpoints : Sync.Past (HistoryTable p H) (PredictorInput × Bool) → List Checkpoint
  | [] => []
  | (t, i) :: past =>
    Checkpoint.next p.inflightDepth i.1 (t.newCheckpoint i.1 i.2) (checkpoints past)

/-- The outcomes that a run has committed, the oldest first. -/
def retired : Sync.Past (HistoryTable p H) (PredictorInput × Bool) → List Bool
  | [] => []
  | (_, i) :: past => retired past ++ Checkpoint.commits i.1 (checkpoints past)

/-- What the surroundings promise.  Lookups enter with an id younger than those held and
name one kind of control, a resolution names a record that has not resolved yet, and a
recovery is raised by the record that resolves, as every wrong direction does. -/
structure Promises (t : HistoryTable p H) (i : PredictorInput) : Prop where
  tagged : p.enableTaggedResolution = true
  lookup : i.lookupAllocateI = true → i.lookupValidI = true ∧ t.table.queueFull = false
  kind : i.lookupAllocateI = true → i.lookupBranchI = true →
    i.lookupJumpI = false ∧ i.lookupIndirectI = false
  younger : i.lookupAllocateI = true → ∀ n, n < p.inflightDepth →
    (t.table.inflightQ n).valid = true → isYounger i.lookupIdI (t.table.inflightQ n).id = true
  fresh : t.table.resolveHasRecord i.toBpInput = true →
    (t.table.inflightQ (t.table.resolveIndex i.toBpInput)).resolved = false
  squash : i.squashI = true → t.table.resolveHasRecord i.toBpInput = true
  wrong : t.table.resolveHasRecord i.toBpInput = true → (t.resolved i).branch = true →
    i.resolveTakenI ≠ (t.resolved i).predictedTaken → i.flushI = true ∨ i.squashI = true

/-- A record with its history half. -/
abbrev Entry (H : ℕ) := InflightRecord × HistoryRecord H

namespace Entry

variable (x : Entry H)

def checkpoint : Checkpoint where
  id := x.1.id
  branch := x.2.branch
  predicted := x.2.predictedTaken
  actual := if x.1.resolved then some x.2.actualTaken else none

def resolve (taken : Bool) : Entry H := (x.1.resolve, { x.2 with actualTaken := taken })

@[simp] theorem checkpoint_resolve (taken : Bool) :
    (Entry.resolve x taken).checkpoint = (Entry.checkpoint x).resolve taken := rfl

end Entry

/-- The ring holds the entries `rs` and no others. -/
structure Tracks (t : HistoryTable p H) (rs : List (Entry H)) : Prop where
  ring : t.table.Ring (rs.map Prod.fst)
  held : Holds p.inflightDepth t.table.inflightHeadQ t.historyQ (rs.map Prod.snd)

variable {t : HistoryTable p H} {i : PredictorInput} {conditional : Bool}
  {rs pre post : List (Entry H)} {x : Entry H}

theorem Tracks.history (h : Tracks t rs) {k : ℕ} (hk : k < rs.length) :
    t.historyQ (slot p.inflightDepth t.table.inflightHeadQ k) = rs[k].2 := by
  apply h.held
  rw [getElem?_map, List.getElem?_eq_getElem hk]
  rfl

theorem Tracks.record (h : Tracks t rs) {k : ℕ} (hk : k < rs.length) :
    t.table.inflightQ (slot p.inflightDepth t.table.inflightHeadQ k) = rs[k].1 := by
  apply h.ring.held
  rw [getElem?_map, List.getElem?_eq_getElem hk]
  rfl

theorem Tracks.length_le (h : Tracks t rs) : rs.length ≤ p.inflightDepth := by
  have hle := h.ring.length
  rwa [length_map] at hle

/-- A resolution with a record splits the ring at it. -/
theorem Tracks.exists_resolves (h : Tracks t rs) (henv : Promises t i)
    (hrec : t.table.resolveHasRecord i.toBpInput) :
    ∃ pre x post, rs = pre ++ x :: post ∧
      TargetTable.Resolves p i.toBpInput (pre.map fst) x.1 (post.map fst) ∧ t.resolved i = x.2 := by
  have htag := henv.tagged
  have hfresh := henv.fresh hrec
  rw [resolveHasRecord, htag, and_eq_true, Bool.not_true, Bool.false_or,
    resolveTagMatch, ← List.isSome_find?] at hrec
  obtain ⟨n, hn⟩ := Option.isSome_iff_exists.mp hrec.2
  have hidx : t.table.resolveIndex i.toBpInput = n := by
    rw [resolveIndex, if_pos htag, resolveTagIndex, hn, Option.getD_some]
  have hmat := List.find?_some hn
  obtain ⟨k, hk, rfl⟩ := exists_slot h.ring.head (List.mem_range.mp (List.mem_of_find?_eq_some hn))
  rw [tagMatches, h.ring.valid k hk, length_map, and_eq_true,
    decide_eq_true_iff, beq_iff_eq] at hmat
  obtain ⟨hlt, hid⟩ := hmat
  rw [h.record hlt] at hid
  rw [hidx, h.record hlt] at hfresh
  have hsplit : rs = rs.take k ++ rs[k] :: rs.drop (k + 1) := by
    rw [List.cons_getElem_drop_succ, List.take_append_drop]
  have hring := h.ring
  rw [hsplit, map_append, map_cons] at hring
  obtain ⟨hpre, hpost⟩ := hring.aged_split htag
  refine ⟨rs.take k, rs[k], rs.drop (k + 1), hsplit, ⟨hfresh, fun _ => hid, ?_, ?_⟩, ?_⟩
  · intro _ y hy
    rw [← hid]
    rcases List.mem_append.mp hy with hy | hy
    · exact (id_ne_of_younger (hpre y hy)).symm
    · exact id_ne_of_younger (hpost y hy)
  · rw [htag]
    exact fun hfalse => absurd hfalse (by decide)
  · rw [resolved, hidx, h.history hlt]

/-- What one cycle does to the entries. -/
inductive Turn (t : HistoryTable p H) (i : PredictorInput) (conditional : Bool)
    (rs : List (Entry H)) : List (Entry H) → Prop
  | flush (hflush : i.flushI = true) : Turn t i conditional rs []
  | squash {pre post : List (Entry H)} {x : Entry H} (hflush : i.flushI = false)
      (hsquash : i.squashI = true) (hsplit : rs = pre ++ x :: post)
      (hresolves : TargetTable.Resolves p i.toBpInput (pre.map Prod.fst) x.1 (post.map Prod.fst))
      (hresolved : t.resolved i = x.2) :
      Turn t i conditional rs
        ((pre ++ [Entry.resolve x i.resolveTakenI]).drop t.table.headCommit.toNat)
  | resolve {pre post : List (Entry H)} {x : Entry H} (hflush : i.flushI = false)
      (hsquash : i.squashI = false) (hsplit : rs = pre ++ x :: post)
      (hresolves : TargetTable.Resolves p i.toBpInput (pre.map Prod.fst) x.1 (post.map Prod.fst))
      (hresolved : t.resolved i = x.2) (hvalid : i.resolveValidI = true) :
      Turn t i conditional rs
        ((pre ++ Entry.resolve x i.resolveTakenI :: post).drop t.table.headCommit.toNat ++
          if t.table.allocates i.toBpInput then
            [(t.table.newRecord i.toBpInput i.rasPredictionValidI i.rasPredictionTargetI,
              t.newHistory i conditional)]
          else [])
  | quiet (hflush : i.flushI = false) (hsquash : i.squashI = false)
      (hrecord : t.table.resolveHasRecord i.toBpInput = false) :
      Turn t i conditional rs
        (rs.drop t.table.headCommit.toNat ++
          if t.table.allocates i.toBpInput then
            [(t.table.newRecord i.toBpInput i.rasPredictionValidI i.rasPredictionTargetI,
              t.newHistory i conditional)]
          else [])

theorem recordCommit_eq (henv : Promises t i) :
    t.table.recordCommit i.toBpInput = t.table.headCommit := by
  rw [TargetTable.recordCommit, if_pos henv.tagged]

theorem squashing_eq (henv : Promises t i) : t.table.squashing i.toBpInput = i.squashI := by
  rw [TargetTable.squashing, henv.tagged, Bool.and_true]
  cases hsq : i.squashI with
  | false => rfl
  | true => rw [henv.squash hsq]; rfl

/-- What a cycle leaves in a slot that holds an entry. -/
theorem Tracks.historyNext (h : Tracks t rs) {k : ℕ} (hk : k < rs.length) :
    t.historyNext i conditional (slot p.inflightDepth t.table.inflightHeadQ k) =
      if p.enableTaggedResolution && t.table.resolveHasRecord i.toBpInput &&
          slot p.inflightDepth t.table.inflightHeadQ k == t.table.resolveIndex i.toBpInput then
        { rs[k].2 with actualTaken := i.resolveTakenI }
      else rs[k].2 := by
  have hoth : t.takesSlot i (slot p.inflightDepth t.table.inflightHeadQ k) = false := by
    rw [takesSlot]
    cases halloc : t.table.allocates i.toBpInput with
    | false => simp
    | true =>
      have hroom := TargetTable.allocates_room h.ring halloc
      rw [length_map] at hroom
      have hne := h.ring.slot_eq_tail (k := k) (by omega) (by rw [length_map]; exact hroom)
      rw [length_map, decide_eq_false (by omega)] at hne
      rw [hne, Bool.and_false]
  rw [HistoryTable.historyNext, hoth, if_low, h.history hk]
  split_ifs <;> rfl

/-- What a cycle leaves of the entries in their slots, when `x` resolves. -/
theorem Tracks.historyNext_resolve (h : Tracks t (pre ++ x :: post)) (henv : Promises t i)
    (hr : TargetTable.Resolves p i.toBpInput (pre.map fst) x.1 (post.map fst))
    (hval : i.resolveValidI) {k : ℕ} (hk : k < (pre ++ x :: post).length) :
    t.historyNext i conditional (slot p.inflightDepth t.table.inflightHeadQ k) =
      if k = pre.length then (Entry.resolve x i.resolveTakenI).2
      else ((pre ++ x :: post)[k]).2 := by
  have hring := h.ring
  rw [map_append, map_cons] at hring
  have hidx : (slot p.inflightDepth t.table.inflightHeadQ k ==
      t.table.resolveIndex i.toBpInput) = decide (k = pre.length) := by
    have hle := h.length_le
    have hpre := hring.pre_lt
    rw [length_map] at hpre
    rw [hring.resolveIndex hr, length_map, Bool.eq_iff_iff, beq_iff_eq, decide_eq_true_iff]
    exact slot_inj_iff h.ring.head (by omega) hpre
  rw [h.historyNext hk, hring.resolveHasRecord hr, hval, henv.tagged, hidx]
  by_cases heq : k = pre.length
  · subst heq
    simp [Entry.resolve]
  · simp [heq]

theorem Tracks.headNext (h : Tracks t rs) (henv : Promises t i)
    (htab : p.bpType.useTablePredictor) (hfl : i.flushI = false) :
    t.table.headNext i.toBpInput =
      slot p.inflightDepth t.table.inflightHeadQ t.table.headCommit.toNat := by
  rw [TargetTable.headNext, if_neg (by rw [hfl]; decide), recordCommit_eq henv, ite_self,
    h.ring.headNext_slot htab]

/-- The records after the resolution of `x`, in their slots. -/
theorem Tracks.holds_resolve (h : Tracks t (pre ++ x :: post)) (henv : Promises t i)
    (hr : TargetTable.Resolves p i.toBpInput (pre.map fst) x.1 (post.map fst))
    (hval : i.resolveValidI) :
    Holds p.inflightDepth t.table.inflightHeadQ (t.historyNext i conditional)
      ((pre ++ Entry.resolve x i.resolveTakenI :: post).map snd) := by
  intro k y hy
  rw [getElem?_map, Option.map_eq_some_iff] at hy
  obtain ⟨z, hz, rfl⟩ := hy
  have hlt := (List.getElem?_eq_some_iff.mp hz).1
  have hlt' : k < (pre ++ x :: post).length := by
    rw [List.length_append, List.length_cons] at hlt ⊢
    exact hlt
  rw [h.historyNext_resolve henv hr hval hlt']
  split_ifs with heq
  · subst heq
    rw [List.getElem?_append_right (Nat.le_refl _), Nat.sub_self, List.getElem?_cons_zero,
      Option.some.injEq] at hz
    rw [hz]
  · have hsame : (pre ++ x :: post)[k]? = some z := by
      rcases Nat.lt_or_gt_of_ne heq with hlow | hhigh
      · rw [List.getElem?_append_left hlow] at hz ⊢
        exact hz
      · rw [List.getElem?_append_right hhigh.le, List.getElem?_cons,
          if_neg (Nat.sub_ne_zero_of_lt hhigh)] at hz ⊢
        exact hz
    rw [List.getElem?_eq_getElem hlt', Option.some.injEq] at hsame
    rw [hsame]

section

variable (h : Tracks t rs) (henv : Promises t i)

include h henv

/-- A lookup puts its entry behind those that stay. -/
theorem Tracks.holds_new (hfl : i.flushI = false)
    (hsq : i.squashI = false) {rs' : List (Entry H)} (hlen : rs'.length = rs.length)
    (hhead : t.table.headCommit.toNat ≤ rs.length)
    (hheld : Holds p.inflightDepth t.table.inflightHeadQ (t.historyNext i conditional)
      (rs'.map snd)) (record : InflightRecord) :
    Holds p.inflightDepth (slot p.inflightDepth t.table.inflightHeadQ t.table.headCommit.toNat)
      (t.historyNext i conditional)
      ((rs'.drop t.table.headCommit.toNat ++
        if t.table.allocates i.toBpInput then [(record, t.newHistory i conditional)]
        else []).map snd) := by
  have hold : Holds p.inflightDepth
      (slot p.inflightDepth t.table.inflightHeadQ t.table.headCommit.toNat)
      (t.historyNext i conditional) ((rs'.map snd).drop t.table.headCommit.toNat) :=
    holds_drop fun k y _ hy => hheld k y hy
  rw [map_append, map_drop]
  cases halloc : t.table.allocates i.toBpInput with
  | false =>
    rw [if_low, map_nil, List.append_nil]
    exact hold
  | true =>
    rw [if_pos rfl]
    apply hold.concat
    rw [slot_slot, List.length_drop, length_map, hlen, Nat.add_sub_cancel' hhead]
    have htail := h.ring.tail
    rw [length_map] at htail
    rw [HistoryTable.historyNext, takesSlot, squashing_eq henv, hfl, hsq, halloc, htail]
    simp

theorem Tracks.headCommit_le : t.table.headCommit.toNat ≤ rs.length := by
  have hle := TargetTable.recordCommit_le (i := i.toBpInput) h.ring
  rwa [recordCommit_eq henv, length_map] at hle

theorem Tracks.advance (htab : p.bpType.useTablePredictor) (hfl : i.flushI = false)
    (hsq : i.squashI = false) {rs' : List (Entry H)} (hlen : rs'.length = rs.length)
    (hmarked : TargetTable.marked t.table i.toBpInput (rs.map fst) = rs'.map fst)
    (hheld : Holds p.inflightDepth t.table.inflightHeadQ (t.historyNext i conditional)
      (rs'.map snd)) :
    Tracks (t.step i conditional) (rs'.drop t.table.headCommit.toNat ++
      if t.table.allocates i.toBpInput then
        [(t.table.newRecord i.toBpInput i.rasPredictionValidI i.rasPredictionTargetI,
          t.newHistory i conditional)]
      else []) := by
  have hquiet : t.table.squashing i.toBpInput = false := (squashing_eq henv).trans hsq
  have hadv := @TargetTable.Ring.advance p t.table i.toBpInput (rs.map fst)
    i.rasPredictionValidI i.rasPredictionTargetI h.ring htab hfl hquiet (by
      intro halloc htag y hy
      obtain ⟨k, hk⟩ := List.mem_iff_getElem?.mp hy
      have hlt := (List.getElem?_eq_some_iff.mp hk).1
      rw [length_map] at hlt
      rw [allocates, and_eq_true] at halloc
      have hle := h.length_le
      have hyoung := henv.younger halloc.1
        (slot p.inflightDepth t.table.inflightHeadQ k) (slot_lt h.ring.depth_pos k)
      rw [h.ring.valid k (by omega), h.ring.held k y hk, length_map] at hyoung
      exact hyoung (decide_eq_true hlt))
  constructor
  · rw [advanced, hmarked, recordCommit_eq henv] at hadv
    rw [map_append, map_drop]
    cases halloc : t.table.allocates i.toBpInput <;> rw [halloc] at hadv <;> exact hadv
  · show Holds _ (t.table.headNext i.toBpInput) (t.historyNext i conditional) _
    rw [h.headNext henv htab hfl]
    exact h.holds_new henv hfl hsq hlen (h.headCommit_le henv) hheld _

/-- One cycle of the ring. -/
theorem Tracks.step (htab : p.bpType.useTablePredictor) :
    ∃ rs', Tracks (t.step i conditional) rs' ∧ Turn t i conditional rs rs' := by
  cases hfl : i.flushI with
  | true => exact ⟨[], ⟨h.ring.flush hfl, Holds.nil⟩, .flush hfl⟩
  | false =>
  cases hrec : t.table.resolveHasRecord i.toBpInput with
  | false =>
    have hsq : i.squashI = false := by
      refine eq_false_of_ne_true fun hsq => ?_
      rw [henv.squash hsq] at hrec; cases hrec
    refine ⟨_, ?_, .quiet hfl hsq hrec⟩
    apply h.advance henv htab hfl hsq rfl (marked_of_no_record hrec)
    apply h.held.congr
    intro k hk
    rw [length_map] at hk
    rw [h.historyNext hk, hrec, Bool.and_false, Bool.false_and, if_low, h.history hk]
  | true =>
    have hval : i.resolveValidI := by
      rw [resolveHasRecord, and_eq_true, and_eq_true] at hrec
      exact hrec.1.1
    obtain ⟨pre, x, post, rfl, hr, hresolved⟩ := h.exists_resolves henv hrec
    have hring := h.ring
    rw [map_append, map_cons] at hring
    have hheld : Holds p.inflightDepth t.table.inflightHeadQ (t.historyNext i conditional)
        ((pre ++ Entry.resolve x i.resolveTakenI :: post).map snd) :=
      h.holds_resolve henv hr hval
    cases hsq : i.squashI with
    | true =>
      refine ⟨_, ⟨?_, ?_⟩, .squash hfl hsq rfl hr hresolved⟩
      · rw [map_drop, map_append]
        exact hring.squash hr htab henv.tagged hfl ((squashing_eq henv).trans hsq)
      · show Holds _ (t.table.headNext i.toBpInput) (t.historyNext i conditional) _
        rw [h.headNext henv htab hfl, map_drop]
        apply holds_drop
        intro k y _ hy
        apply hheld k y
        rw [List.append_cons, map_append]
        exact (List.getElem?_append_left (List.getElem?_eq_some_iff.mp hy).1).trans hy
    | false =>
      refine ⟨_, ?_, .resolve hfl hsq rfl hr hresolved hval⟩
      apply h.advance henv htab hfl hsq (by simp) ?_ hheld
      rw [map_append, map_cons, map_append, map_cons]
      exact hring.marked_split hr hval henv.tagged

end

/-! ## The ring as a queue -/

theorem Tracks.leaves_eq (h : Tracks t rs) :
    Checkpoint.leaves (rs.map Entry.checkpoint) = t.table.headCommit.toNat := by
  rw [Checkpoint.leaves, h.ring.headCommit]
  cases rs with
  | nil => rfl
  | cons y rest =>
    show toNat (Entry.checkpoint y).actual.isSome = toNat y.1.resolved
    rw [Entry.checkpoint]
    cases y.1.resolved <;> rfl

theorem Tracks.allocates_eq (h : Tracks t rs) : t.table.allocates i.toBpInput =
    (i.lookupAllocateI && decide ((rs.map Entry.checkpoint).length < p.inflightDepth)) := by
  have hle := h.length_le
  rw [allocates, h.ring.queueFull, length_map, length_map]
  congr 1
  rw [Bool.eq_iff_iff]
  simp only [Bool.not_eq_true', decide_eq_false_iff_not, decide_eq_true_iff]
  omega

theorem ids_ne (hr : TargetTable.Resolves p i.toBpInput (pre.map fst) x.1 (post.map fst))
    (htag : p.enableTaggedResolution) {y : Entry H} (hy : y ∈ pre ++ post) :
    (Entry.checkpoint y).id ≠ i.resolveIdI := by
  apply hr.others htag y.1
  rw [← map_append]
  exact List.mem_map_of_mem hy

/-- A resolution that names an entry has a record. -/
theorem Tracks.resolveHasRecord_of_named (h : Tracks t rs) (hval : i.resolveValidI)
    {y : Entry H} (hy : y ∈ rs)
    (hid : (Entry.checkpoint y).id = i.resolveIdI) : t.table.resolveHasRecord i.toBpInput := by
  obtain ⟨k, hk, rfl⟩ := List.mem_iff_getElem.mp hy
  have hle := h.length_le
  have hcnt := h.ring.count_ne_zero
  have hnonempty : (rs.map fst).isEmpty = false := by
    rw [List.isEmpty_eq_false_iff, ne_eq, List.map_eq_nil_iff]
    exact List.ne_nil_of_mem hy
  have hmat : t.table.resolveTagMatch i.toBpInput := by
    rw [resolveTagMatch, List.any_eq_true]
    refine ⟨slot p.inflightDepth t.table.inflightHeadQ k,
      List.mem_range.mpr (slot_lt h.ring.depth_pos k), ?_⟩
    rw [tagMatches, h.ring.valid k (by omega), length_map, h.record hk,
      decide_eq_true hk, Bool.true_and, beq_iff_eq]
    exact hid
  rw [resolveHasRecord, hval, hcnt, hnonempty, hmat]
  simp

theorem mark_unnamed {q : List Checkpoint} (hq : ∀ c ∈ q, c.id ≠ i.resolveIdI) :
    (q.map fun c => if c.id = i.resolveIdI then c.resolve i.resolveTakenI else c) = q := by
  conv_rhs => rw [← List.map_id q]
  apply List.map_congr_left
  intro c hc
  rw [if_neg (hq c hc)]
  rfl

section

variable (hr : TargetTable.Resolves p i.toBpInput (pre.map fst) x.1 (post.map fst))
  (htag : p.enableTaggedResolution)

include hr htag

theorem mark_split (hval : i.resolveValidI) :
    Checkpoint.mark i ((pre ++ x :: post).map Entry.checkpoint) =
      (pre ++ Entry.resolve x i.resolveTakenI :: post).map Entry.checkpoint := by
  have hpre : ∀ c ∈ pre.map Entry.checkpoint, c.id ≠ i.resolveIdI := by
    intro c hc
    obtain ⟨y, hy, rfl⟩ := mem_map.mp hc
    exact ids_ne hr htag (List.mem_append_left _ hy)
  have hpost : ∀ c ∈ post.map Entry.checkpoint, c.id ≠ i.resolveIdI := by
    intro c hc
    obtain ⟨y, hy, rfl⟩ := mem_map.mp hc
    exact ids_ne hr htag (List.mem_append_right _ hy)
  have hid : (Entry.checkpoint x).id = i.resolveIdI := hr.named htag
  rw [Checkpoint.mark, if_pos hval, map_append, map_append, map_cons,
    map_cons, mark_unnamed hpre, mark_unnamed hpost, if_pos hid, map_append,
    map_cons, Entry.checkpoint_resolve]

/-- A recovery keeps what stands up to the entry that resolves. -/
theorem upTo_split : Checkpoint.upTo i ((pre ++ x :: post).map Entry.checkpoint) =
      (pre ++ [x]).map Entry.checkpoint := by
  have hpre : ∀ y ∈ pre, (Entry.checkpoint y).id ≠ i.resolveIdI := fun y hy =>
    ids_ne hr htag (List.mem_append_left _ hy)
  have hid : (Entry.checkpoint x).id = i.resolveIdI := hr.named htag
  have hidx : ((pre ++ x :: post).map Entry.checkpoint).findIdx
      (fun c => decide (c.id = i.resolveIdI)) = pre.length := by
    rw [map_append, map_cons, List.findIdx_append, List.findIdx_cons,
      decide_eq_true hid, length_map]
    have hnone : (pre.map Entry.checkpoint).findIdx (fun c => decide (c.id = i.resolveIdI)) =
        (pre.map Entry.checkpoint).length := by
      rw [List.findIdx_eq_length]
      intro c hc
      obtain ⟨y, hy, rfl⟩ := mem_map.mp hc
      exact decide_eq_false (hpre y hy)
    rw [hnone, length_map]
    simp
  rw [Checkpoint.upTo, hidx, map_append, map_append, map_cons, List.append_cons,
    List.take_append_of_le_length (by simp), List.take_of_length_le (by simp)]
  rfl

end

/-- One cycle of the ring is one cycle of the queue. -/
theorem Turn.queue {rs' : List (Entry H)} (hturn : Turn t i conditional rs rs')
    (h : Tracks t rs) (henv : Promises t i) :
    rs'.map Entry.checkpoint = Checkpoint.next p.inflightDepth i (t.newCheckpoint i conditional)
        (rs.map Entry.checkpoint) := by
  have hleaves := h.leaves_eq
  have halloc := h.allocates_eq (i := i)
  have hnew : (if t.table.allocates i.toBpInput then
      [(t.table.newRecord i.toBpInput i.rasPredictionValidI i.rasPredictionTargetI,
        t.newHistory i conditional)] else []).map Entry.checkpoint =
      if i.lookupAllocateI && decide ((rs.map Entry.checkpoint).length < p.inflightDepth) then
        [t.newCheckpoint i conditional] else [] := by
    rw [halloc]
    split_ifs <;> rfl
  cases hturn with
  | flush hfl => rw [Checkpoint.next, if_pos hfl, map_nil]
  | @squash pre post x hfl hsq hsplit hresolves _ =>
    subst hsplit
    have hval : i.resolveValidI := by
      have hrec := henv.squash hsq
      rw [resolveHasRecord, and_eq_true, and_eq_true] at hrec
      exact hrec.1.1
    have hlast : TargetTable.Resolves p i.toBpInput (pre.map fst) x.1
        (([] : List (Entry H)).map fst) :=
      ⟨hresolves.unresolved, hresolves.named,
        fun htag y hy => hresolves.others htag y (List.mem_append_left _ (by simpa using hy)),
        hresolves.oldest⟩
    have hmark := mark_split hlast henv.tagged hval
    rw [Checkpoint.next, if_neg (by rw [hfl]; decide), if_pos hsq, hleaves,
      upTo_split hresolves henv.tagged, hmark, map_drop]
  | resolve hfl hsq hsplit hresolves _ hval =>
    subst hsplit
    rw [map_append, hnew, Checkpoint.next, hfl, hsq, if_low,
      if_low, hleaves, mark_split hresolves henv.tagged hval, map_drop]
  | quiet hfl hsq hrec =>
    have hmark : Checkpoint.mark i (rs.map Entry.checkpoint) = rs.map Entry.checkpoint := by
      rw [Checkpoint.mark]
      split_ifs with hval
      · apply mark_unnamed
        intro c hc hid
        obtain ⟨y, hy, rfl⟩ := mem_map.mp hc
        rw [h.resolveHasRecord_of_named hval hy hid] at hrec
        cases hrec
      · rfl
    rw [map_append, hnew, Checkpoint.next, hfl, hsq, if_low, if_low, hleaves, hmark, map_drop]

end HistoryTable

end OpenRV64
