/-
No wrong predicted target escapes: the records of a table predictor are the controls
in flight, so that a resolved target is compared with the one that was predicted for
the same control.  The single outstanding target of the simple policies does as much
only while its owner is alone.
-/
import OpenRV64.BranchTarget
import OpenRV64.RingSegment
import OpenRV64.SyncRun

namespace OpenRV64

open ModularAge RingSegment InflightRecord Sync TargetTable
open BitVec (toNat_ofNat toNat_inj le_def ofNat)
open List (length_append getElem?_append_right length_cons length_drop getElem?_mapIdx
  getElem?_append_left map_append length_singleton find?_some mem_range ext_getElem? append_nil
  mem_append getElem?_cons head?_cons mem_singleton tail_cons range map_cons mem_map drop_one)
open Nat (mod_eq_of_lt le zero_le)
open Option (isSome_iff_exists any_some some)
open Bool (toNat_true and_eq_true not_eq_true' toNat_le toNat_false toNat_eq_one)

namespace BpParams

variable (p : BpParams)

theorem inflightPtrNext_slot (htable : p.bpType.useTablePredictor) (head k : Nat) :
    p.inflightPtrNext (slot p.inflightDepth head k) = slot p.inflightDepth head (k + 1) := by
  rw [inflightPtrNext, inflightPtrWidth, p.inflight_pow htable, ← slot_slot]
  rfl

theorem inflightDepth_lt : p.inflightDepth < 2 ^ p.inflightCountWidth := by
  have := le_two_pow_clog2 (p.inflightDepth + 1)
  rw [inflightCountWidth]
  omega

end BpParams

/-! ## The ring of records -/

def InflightRecord.resolve (e : InflightRecord) : InflightRecord := { e with resolved := true }

namespace TargetTable

variable {p : BpParams} {t : TargetTable p} {i : BpInput} {ring : List InflightRecord}

/-- The ring holds the records of `ring` and no others. -/
structure Ring (t : TargetTable p) (ring : List InflightRecord) : Prop where
  head : t.inflightHeadQ < p.inflightDepth
  length : ring.length ≤ p.inflightDepth
  tail : t.inflightTailQ = slot p.inflightDepth t.inflightHeadQ ring.length
  count : t.inflightCountQ.toNat = ring.length
  held : Holds p.inflightDepth t.inflightHeadQ t.inflightQ ring
  valid : ∀ k, k < p.inflightDepth →
    (t.inflightQ (slot p.inflightDepth t.inflightHeadQ k)).valid = decide (k < ring.length)
  aged : p.enableTaggedResolution = true →
    (ring.map InflightRecord.id).Pairwise fun older newer => isYounger newer older = true
  fresh : p.enableTaggedResolution = false → ∀ r ∈ ring, r.resolved = false

namespace Ring

section

variable (h : Ring t ring)

include h

theorem depth_pos : 0 < p.inflightDepth := Nat.zero_lt_of_lt h.head

theorem count_eq_zero : t.inflightCountQ = 0 ↔ ring = [] := by
  rw [← List.length_eq_zero_iff, ← h.count, ← toNat_inj]
  rfl

theorem count_ne_zero : (t.inflightCountQ != 0) = !ring.isEmpty := by
  rw [Bool.eq_iff_iff, bne_iff_ne, ne_eq, h.count_eq_zero, not_eq_true', List.isEmpty_eq_false_iff]

theorem queueFull : t.queueFull = decide (ring.length = p.inflightDepth) := by
  rw [TargetTable.queueFull, ← h.count, Bool.eq_iff_iff, beq_iff_eq, decide_eq_true_iff,
    ← toNat_inj, toNat_ofNat, mod_eq_of_lt p.inflightDepth_lt]

theorem slot_zero : slot p.inflightDepth t.inflightHeadQ 0 = t.inflightHeadQ :=
  RingSegment.slot_zero h.head

theorem slot_eq_head {k : Nat} (hk : k < p.inflightDepth) :
    (slot p.inflightDepth t.inflightHeadQ k == t.inflightHeadQ) = decide (k = 0) := by
  rw [Bool.eq_iff_iff, beq_iff_eq, decide_eq_true_iff]
  conv_lhs => rhs; rw [← h.slot_zero]
  exact slot_inj_iff h.head hk h.depth_pos

theorem slot_eq_tail {k : Nat} (hk : k < p.inflightDepth) (hroom : ring.length < p.inflightDepth) :
    (slot p.inflightDepth t.inflightHeadQ k == t.inflightTailQ) = decide (k = ring.length) := by
  rw [Bool.eq_iff_iff, beq_iff_eq, decide_eq_true_iff, h.tail]
  exact slot_inj_iff h.head hk hroom

theorem headCommit : t.headCommit = (ring.head?.any resolved) := by
  rw [TargetTable.headCommit, h.count_ne_zero]
  cases ring with
  | nil => rfl
  | cons e rest =>
    have he := h.held 0 e rfl
    have hval := h.valid 0 h.depth_pos
    rw [h.slot_zero] at he hval
    rw [hval, he]
    rfl

end

end Ring

theorem id_ne_of_younger {a b : BitVec instrIdWidth} (h : isYounger a b) : a ≠ b := by
  rintro rfl
  rw [isYounger_self] at h
  cases h

/-- A search that only one item can satisfy finds it. -/
theorem find?_eq_some_of_unique {α : Type*} {f : α → Bool} {xs : List α} {x : α} (hx : x ∈ xs)
    (hf : f x) (hunique : ∀ y ∈ xs, f y → y = x) : xs.find? f = some x := by
  obtain ⟨y, hy⟩ := isSome_iff_exists.mp (List.find?_isSome.mpr ⟨x, hx, hf⟩)
  rw [hy, hunique y (List.mem_of_find?_eq_some hy) (find?_some hy)]

/-- The resolution of this cycle is about the record `e`, which stands between `pre`
and `post`. -/
structure Resolves (p : BpParams) (i : BpInput) (pre : List InflightRecord)
    (e : InflightRecord) (post : List InflightRecord) : Prop where
  unresolved : e.resolved = false
  named : p.enableTaggedResolution = true → e.id = i.resolveIdI
  others : p.enableTaggedResolution = true → ∀ x ∈ pre ++ post, x.id ≠ i.resolveIdI
  oldest : p.enableTaggedResolution = false → pre = []

namespace Ring

variable {pre post : List InflightRecord} {e : InflightRecord}

section

variable (h : Ring t (pre ++ e :: post))
include h

theorem held_split : t.inflightQ (slot p.inflightDepth t.inflightHeadQ pre.length) = e := by
  apply h.held
  rw [getElem?_append_right le.refl, Nat.sub_self]
  rfl

theorem pre_lt : pre.length < p.inflightDepth := by
  have := h.length
  rw [length_append, length_cons] at this
  omega

section

variable (hr : Resolves p i pre e post)

include hr

theorem tagMatches_iff (htag : p.enableTaggedResolution) {k : Nat} (hk : k < p.inflightDepth) :
    t.tagMatches i (slot p.inflightDepth t.inflightHeadQ k) ↔ k = pre.length := by
  rw [tagMatches, h.valid k hk, and_eq_true, decide_eq_true_iff, beq_iff_eq]
  constructor
  · rintro ⟨hlt, hid⟩
    obtain ⟨x, hx⟩ : ∃ x, (pre ++ e :: post)[k]? = some x := ⟨_, List.getElem?_eq_getElem hlt⟩
    rw [h.held k x hx] at hid
    by_contra hne
    apply hr.others htag x ?_ hid
    rcases Nat.lt_or_gt_of_ne hne with hlow | hhigh
    · rw [getElem?_append_left hlow] at hx
      exact List.mem_append_left _ (List.mem_of_getElem? hx)
    · rw [getElem?_append_right hhigh.le, getElem?_cons, if_neg (Nat.sub_ne_zero_of_lt hhigh)] at hx
      exact List.mem_append_right _ (List.mem_of_getElem? hx)
  · rintro rfl
    rw [h.held_split]
    exact ⟨by simp, hr.named htag⟩

theorem find_tag (htag : p.enableTaggedResolution) :
    (range p.inflightDepth).find? (t.tagMatches i) =
      some (slot p.inflightDepth t.inflightHeadQ pre.length) := by
  apply find?_eq_some_of_unique
  · exact mem_range.mpr (slot_lt h.depth_pos _)
  · exact (h.tagMatches_iff hr htag h.pre_lt).mpr rfl
  · intro n hn hmat
    obtain ⟨k, hk, rfl⟩ := exists_slot h.head (mem_range.mp hn)
    rw [(h.tagMatches_iff hr htag hk).mp hmat]

theorem resolveIndex : t.resolveIndex i = slot p.inflightDepth t.inflightHeadQ pre.length := by
  rw [TargetTable.resolveIndex]
  cases htag : p.enableTaggedResolution with
  | true => rw [if_pos rfl, resolveTagIndex, h.find_tag hr htag, Option.getD_some]
  | false =>
    rw [if_low, hr.oldest htag, List.length_nil, h.slot_zero]

theorem resolveHasRecord : t.resolveHasRecord i = i.resolveValidI := by
  have hmat : (!p.enableTaggedResolution || t.resolveTagMatch i) := by
    cases htag : p.enableTaggedResolution with
    | false => rfl
    | true =>
      rw [Bool.not_true, Bool.false_or, resolveTagMatch, ← List.isSome_find?, h.find_tag hr htag]
      rfl
  rw [TargetTable.resolveHasRecord, h.count_ne_zero, hmat]
  simp

theorem targetMispredictO : t.targetMispredictO i =
      (i.resolveValidI && (e.targetValid && i.resolveTakenI && i.resolveTargetI != e.target)) := by
  rw [TargetTable.targetMispredictO, h.resolveIndex hr, h.held_split, h.resolveHasRecord hr,
    Bool.and_assoc, Bool.and_assoc, Bool.and_assoc]

end

theorem aged_split (htag : p.enableTaggedResolution) :
    (∀ x ∈ pre, isYounger e.id x.id) ∧ ∀ x ∈ post, isYounger x.id e.id := by
  have haged := h.aged htag
  rw [map_append, map_cons, List.pairwise_append, List.pairwise_cons] at haged
  obtain ⟨-, ⟨hpost, -⟩, hpre⟩ := haged
  exact ⟨fun x hx => hpre _ (List.mem_map_of_mem hx) _ List.mem_cons_self,
    fun x hx => hpost _ (List.mem_map_of_mem hx)⟩

/-- A selective recovery drops what comes after the resolving record. -/
theorem dropped_eq (hr : Resolves p i pre e post) (htag : p.enableTaggedResolution) {k : Nat}
    (hk : k < p.inflightDepth) : ((t.inflightQ (slot p.inflightDepth t.inflightHeadQ k)).valid &&
        isYounger (t.inflightQ (slot p.inflightDepth t.inflightHeadQ k)).id i.resolveIdI) =
      decide (pre.length < k ∧ k < (pre ++ e :: post).length) := by
  obtain ⟨hpre, hpost⟩ := h.aged_split htag
  rw [h.valid k hk, ← hr.named htag]
  by_cases hlt : k < (pre ++ e :: post).length
  · rw [decide_eq_true hlt, Bool.true_and, h.held k _ (List.getElem?_eq_getElem hlt)]
    rcases Nat.lt_trichotomy k pre.length with hlow | rfl | hhigh
    · rw [List.getElem_append_left hlow, isYounger_asymm (hpre _ (List.getElem_mem hlow)),
        decide_eq_false (by omega)]
    · rw [List.getElem_append_right le.refl]
      simp [isYounger_self]
    have hmem : (pre ++ e :: post)[k] ∈ post := by
      rw [List.getElem_append_right hhigh.le, List.getElem_cons,
        dif_neg (Nat.sub_ne_zero_of_lt hhigh)]
      exact List.getElem_mem _
    rw [hpost _ hmem, decide_eq_true ⟨hhigh, hlt⟩]
  · rw [decide_eq_false hlt, Bool.false_and, decide_eq_false (fun hc => hlt hc.2)]

theorem squashKeepCount (hr : Resolves p i pre e post) (htag : p.enableTaggedResolution) :
    (t.squashKeepCount i).toNat = pre.length + 1 := by
  have hdep := p.inflightDepth_lt
  have hpre := h.pre_lt
  have hcnt : (range p.inflightDepth).countP (fun n =>
      (t.inflightQ n).valid && !isYounger (t.inflightQ n).id i.resolveIdI) = pre.length + 1 := by
    rw [countP_slots h.head, List.countP_congr (q := fun k => decide (k < pre.length + 1)),
      countP_range_lt]
    · omega
    · intro k hk
      have hkeep : ∀ valid younger : Bool, (valid && !younger) =
          (valid && !(valid && younger)) := by
        decide
      rw [hkeep, h.dropped_eq hr htag (mem_range.mp hk), h.valid k (mem_range.mp hk)]
      simp only [length_append, length_cons, and_eq_true, not_eq_true',
        decide_eq_true_iff, decide_eq_false_iff_not]
      omega
  rw [TargetTable.squashKeepCount, toNat_ofNat, hcnt, mod_eq_of_lt (by omega)]

end

end Ring

/-! ### One cycle of the ring -/

section Cycle

variable {pre post : List InflightRecord} {e : InflightRecord} {rasValid : Bool}
  {rasTarget : BitVec 64}

/-- A position of the ring as it is numbered after the head has moved by `n`. -/
theorem slot_cases (head : Nat) {depth n j : Nat} (hn : n ≤ 1) (hj : j < depth) :
    (n + j < depth ∧ slot depth (slot depth head n) j = slot depth head (n + j)) ∨
      (n = 1 ∧ j + 1 = depth ∧ slot depth (slot depth head n) j = slot depth head 0) := by
  rw [slot_slot]
  rcases Nat.lt_or_ge (n + j) depth with hlt | hge
  · exact .inl ⟨hlt, rfl⟩
  · refine .inr ⟨by omega, by omega, ?_⟩
    rw [show n + j = depth by omega, slot_depth]

theorem Ring.flush (h : Ring t ring) (hfl : i.flushI) : Ring (t.step i rasValid rasTarget) [] where
  head := by
    show (t.headNext i) < _
    rw [headNext, if_pos hfl]
    exact h.depth_pos
  length := zero_le _
  tail := by
    show t.tailNext i = slot _ (t.headNext i) 0
    rw [headNext, tailNext, if_pos hfl, if_pos hfl, RingSegment.slot_zero h.depth_pos]
  count := by
    show (t.countNext i).toNat = 0
    rw [countNext, if_pos hfl]
    rfl
  held := Holds.nil
  valid k _ := by
    show (t.recordNext i rasValid rasTarget _).valid = false
    rw [recordNext, if_pos hfl]
  aged _ := List.Pairwise.nil
  fresh _ r hr := by cases hr

/-- The resolving record is not the one that leaves at the head. -/
theorem Ring.headCommit_le (h : Ring t (pre ++ e :: post)) (hr : Resolves p i pre e post) :
    t.headCommit.toNat ≤ pre.length := by
  rw [h.headCommit]
  cases pre with
  | nil => rw [List.nil_append, head?_cons, any_some, hr.unresolved]; rfl
  | cons x rest => exact (toNat_le _).trans (Nat.succ_pos _)

theorem Ring.headNext_slot (h : Ring t ring) (htable : p.bpType.useTablePredictor) (pop : Bool) :
    (if pop then p.inflightPtrNext t.inflightHeadQ else t.inflightHeadQ) =
      slot p.inflightDepth t.inflightHeadQ pop.toNat := by
  cases pop with
  | false => exact h.slot_zero.symm
  | true =>
    rw [if_pos rfl]
    conv_lhs => rw [← h.slot_zero]
    exact p.inflightPtrNext_slot htable _ 0

/-- What a selective recovery leaves in the slot at position `k`. -/
theorem Ring.recordNext_squash (rasValid : Bool) (rasTarget : BitVec 64)
    (h : Ring t (pre ++ e :: post)) (hr : Resolves p i pre e post)
    (hfl : i.flushI = false) (hsq : t.squashing i)
    (htag : p.enableTaggedResolution) {k : Nat} (hk : k < p.inflightDepth) :
    t.recordNext i rasValid rasTarget (slot p.inflightDepth t.inflightHeadQ k) =
      { t.inflightQ (slot p.inflightDepth t.inflightHeadQ k) with
        valid := decide (k ≤ pre.length) && !(t.headCommit && decide (k = 0))
        resolved := decide (k = pre.length) ||
          ((t.inflightQ (slot p.inflightDepth t.inflightHeadQ k)).resolved &&
            !decide (pre.length < k ∧ k < (pre ++ e :: post).length) &&
            !(t.headCommit && decide (k = 0))) } := by
  have hidx : (slot p.inflightDepth t.inflightHeadQ k == t.resolveIndex i) =
      decide (k = pre.length) := by
    rw [h.resolveIndex hr, Bool.eq_iff_iff, beq_iff_eq, decide_eq_true_iff]
    exact slot_inj_iff h.head hk h.pre_lt
  have hval : (decide (k < (pre ++ e :: post).length) &&
      !decide (pre.length < k ∧ k < (pre ++ e :: post).length)) = decide (k ≤ pre.length) := by
    rw [Bool.eq_iff_iff]
    simp only [length_append, length_cons, and_eq_true, not_eq_true',
      decide_eq_true_iff, decide_eq_false_iff_not]
    omega
  rw [recordNext, if_neg (by rw [hfl]; decide), if_pos hsq]
  simp only [h.dropped_eq hr htag hk, hidx, h.slot_eq_head hk]
  simp only [h.valid k hk, hval]

theorem Ring.squash (h : Ring t (pre ++ e :: post)) (hr : Resolves p i pre e post)
    (htable : p.bpType.useTablePredictor)
    (htag : p.enableTaggedResolution) (hfl : i.flushI = false)
    (hsq : t.squashing i) :
    Ring (t.step i rasValid rasTarget) ((pre ++ [e.resolve]).drop t.headCommit.toNat) := by
  have hle := h.headCommit_le hr
  have hpre := h.pre_lt
  have hcell := fun {k : Nat} (hk : k < p.inflightDepth) =>
    Ring.recordNext_squash rasValid rasTarget h hr hfl hsq htag hk
  have hhead : t.headNext i = slot p.inflightDepth t.inflightHeadQ t.headCommit.toNat := by
    rw [headNext, if_neg (by rw [hfl]; decide), if_pos hsq, h.headNext_slot htable]
  constructor
  · show t.headNext i < _
    rw [hhead]
    exact slot_lt h.depth_pos _
  · rw [length_drop, length_append, length_singleton]
    omega
  · show t.tailNext i = slot _ (t.headNext i) _
    rw [hhead, slot_slot, tailNext, if_neg (by rw [hfl]; decide), if_pos hsq,
      h.resolveIndex hr, p.inflightPtrNext_slot htable, length_drop, length_append,
      length_singleton]
    congr 1
    omega
  · show (t.countNext i).toNat = _
    have hkeep := h.squashKeepCount hr htag
    rw [countNext, if_neg (by rw [hfl]; decide), if_pos hsq, BitVec.toNat_sub_of_le,
      hkeep, toNat_ofNat, mod_eq_of_lt (by omega), length_drop, length_append, length_singleton]
    rw [le_def, hkeep, toNat_ofNat, mod_eq_of_lt (by omega)]
    omega
  · show Holds _ (t.headNext i) (t.recordNext i rasValid rasTarget) _
    rw [hhead]
    apply holds_drop
    intro k x hk hx
    have hlt := (List.getElem?_eq_some_iff.mp hx).1
    rw [length_append, length_singleton] at hlt
    have hpop : (t.headCommit && decide (k = 0)) = false := by
      cases hc : t.headCommit with
      | false => rfl
      | true =>
        rw [hc, toNat_true] at hk
        exact decide_eq_false (by omega)
    rw [hcell (by omega), hpop, decide_eq_true (show k ≤ pre.length by omega),
      decide_eq_false (show ¬ (pre.length < k ∧ k < (pre ++ e :: post).length) by omega)]
    rcases Nat.lt_or_ge k pre.length with hlow | hhigh
    · rw [getElem?_append_left hlow] at hx
      have hold : t.inflightQ (slot p.inflightDepth t.inflightHeadQ k) = x :=
        h.held k x (by rw [getElem?_append_left hlow, hx])
      have hval := h.valid k (by omega)
      rw [hold, length_append, length_cons, decide_eq_true (by omega)] at hval
      rw [hold, decide_eq_false (by omega)]
      cases x
      simp_all
    obtain rfl : k = pre.length := by omega
    rw [List.getElem?_concat_length, some.injEq] at hx
    have hval := h.valid _ h.pre_lt
    rw [h.held_split, length_append, length_cons, decide_eq_true (by omega)] at hval
    rw [h.held_split, ← hx]
    cases e
    simp_all [resolve]
  · intro j hj
    show (t.recordNext i rasValid rasTarget (slot _ (t.headNext i) j)).valid = _
    rw [hhead, length_drop, length_append, length_singleton]
    rcases slot_cases t.inflightHeadQ (toNat_le t.headCommit) hj with
      ⟨hlt, hslot⟩ | ⟨hone, hlast, hslot⟩
    · rw [hslot, hcell hlt]
      cases hc : t.headCommit <;> rw [hc] at hle <;>
        simp only [toNat_true, toNat_false, Bool.false_and, Bool.true_and,
          Bool.not_false, Bool.and_true, decide_eq_decide] <;> simp <;> omega
    · rw [hslot, hcell h.depth_pos]
      rw [hone] at hle ⊢
      have hc : t.headCommit := by
        cases hc : t.headCommit with
        | true => rfl
        | false => rw [hc] at hone; cases hone
      simp only [hc, decide_true, Bool.and_self, Bool.not_true, Bool.and_false]
      exact (decide_eq_false (by omega)).symm
  · intro _
    have haged := h.aged htag
    rw [map_append, map_cons, List.append_cons] at haged
    have hsub : ((pre ++ [e.resolve]).map InflightRecord.id).Pairwise
        fun older newer => isYounger newer older := by
      rw [map_append]
      exact haged.sublist (List.sublist_append_left _ _)
    exact hsub.sublist ((List.drop_sublist _ _).map _)
  · intro hfalse
    rw [htag] at hfalse
    cases hfalse

/-- The records after a resolution that recovers nothing. -/
def marked (t : TargetTable p) (i : BpInput) (ring : List InflightRecord) : List InflightRecord :=
  ring.mapIdx fun k e =>
    { e with
      resolved := e.resolved || (p.enableTaggedResolution && t.resolveHasRecord i &&
        slot p.inflightDepth t.inflightHeadQ k == t.resolveIndex i) }

@[simp] theorem length_marked : (marked t i ring).length = ring.length := List.length_mapIdx

theorem map_id_marked : (marked t i ring).map InflightRecord.id = ring.map InflightRecord.id := by
  apply ext_getElem?
  intro k
  rw [List.getElem?_map, List.getElem?_map, marked, getElem?_mapIdx, Option.map_map]
  rfl

theorem allocates_room (h : Ring t ring) (halloc : t.allocates i) :
    ring.length < p.inflightDepth := by
  have hle := h.length
  rw [allocates, h.queueFull, and_eq_true, not_eq_true', decide_eq_false_iff_not] at halloc
  omega

/-- Only a record that is there leaves at the head. -/
theorem recordCommit_le (h : Ring t ring) : (t.recordCommit i).toNat ≤ ring.length := by
  cases hpop : t.recordCommit i with
  | false => exact zero_le _
  | true =>
    have hcnt : (t.inflightCountQ != 0) := by
      rw [recordCommit] at hpop
      split at hpop
      · rw [TargetTable.headCommit, Bool.and_assoc, and_eq_true] at hpop
        exact hpop.1
      · rw [TargetTable.resolveHasRecord, and_eq_true, and_eq_true] at hpop
        exact hpop.1.2
    rw [h.count_ne_zero, not_eq_true', List.isEmpty_eq_false_iff] at hcnt
    exact List.length_pos_iff.mpr hcnt

/-- What a cycle without recovery leaves in the slot at position `k`. -/
theorem Ring.recordNext_advance (h : Ring t ring) (hfl : i.flushI = false)
    (hsq : t.squashing i = false) {k : Nat} (hk : k < p.inflightDepth)
    (hnew : t.allocates i → k ≠ ring.length) :
    t.recordNext i rasValid rasTarget (slot p.inflightDepth t.inflightHeadQ k) =
      { t.inflightQ (slot p.inflightDepth t.inflightHeadQ k) with
        valid := decide (k < ring.length) && !(t.recordCommit i && decide (k = 0))
        resolved := ((t.inflightQ (slot p.inflightDepth t.inflightHeadQ k)).resolved ||
          (p.enableTaggedResolution && t.resolveHasRecord i &&
            slot p.inflightDepth t.inflightHeadQ k == t.resolveIndex i)) &&
          !(t.recordCommit i && decide (k = 0)) } := by
  have hoth : (t.allocates i &&
      slot p.inflightDepth t.inflightHeadQ k == t.inflightTailQ) = false := by
    cases halloc : t.allocates i with
    | false => rfl
    | true =>
      rw [h.slot_eq_tail hk (allocates_room h halloc), decide_eq_false (hnew halloc)]
      rfl
  rw [recordNext, if_neg (by rw [hfl]; decide), if_neg (by rw [hsq]; decide),
    if_neg (by rw [hoth]; decide)]
  simp only [h.slot_eq_head hk, h.valid k hk]

theorem Ring.recordNext_new (h : Ring t ring) (hfl : i.flushI = false)
    (hsq : t.squashing i = false) (halloc : t.allocates i) :
    t.recordNext i rasValid rasTarget (slot p.inflightDepth t.inflightHeadQ ring.length) =
      t.newRecord i rasValid rasTarget := by
  have hroom := allocates_room h halloc
  rw [recordNext, if_neg (by rw [hfl]; decide), if_neg (by rw [hsq]; decide), halloc,
    h.slot_eq_tail hroom hroom, decide_eq_true rfl, Bool.true_and, if_pos rfl]

/-- The records after a cycle that recovers nothing. -/
def advanced (t : TargetTable p) (i : BpInput) (rasValid : Bool) (rasTarget : BitVec 64)
    (ring : List InflightRecord) : List InflightRecord :=
  (marked t i ring).drop (t.recordCommit i).toNat ++
    if t.allocates i then [t.newRecord i rasValid rasTarget] else []

theorem length_advanced : (advanced t i rasValid rasTarget ring).length =
      ring.length - (t.recordCommit i).toNat + (t.allocates i).toNat := by
  rw [advanced, length_append, length_drop, length_marked]
  cases t.allocates i <;> rfl

section

variable (h : Ring t ring) (hfl : i.flushI = false) (hsq : t.squashing i = false)

include h hfl hsq

theorem Ring.countNext_advance :
    (t.countNext i).toNat = ring.length - (t.recordCommit i).toNat + (t.allocates i).toNat := by
  have hdep := p.inflightDepth_lt
  have hpop := recordCommit_le (i := i) h
  have hroom := allocates_room (i := i) h
  have hone : (1 : BitVec p.inflightCountWidth).toNat = 1 := by
    show (ofNat _ 1).toNat = 1
    rw [toNat_ofNat, mod_eq_of_lt]
    have := h.depth_pos
    omega
  rw [countNext, if_neg (by rw [hfl]; decide), if_neg (by rw [hsq]; decide)]
  cases halloc : t.allocates i <;> cases hc : t.recordCommit i <;>
    simp only [hc, toNat_true, toNat_false] at hpop ⊢
  · exact h.count
  · rw [BitVec.toNat_sub_of_le (by rw [le_def, hone, h.count]; exact hpop), hone, h.count]
    rfl
  · have := hroom halloc
    rw [BitVec.toNat_add, hone, h.count, mod_eq_of_lt (by omega)]
    rfl
  · rw [h.count]
    omega

theorem Ring.held_advance :
    Holds p.inflightDepth (slot p.inflightDepth t.inflightHeadQ (t.recordCommit i).toNat)
      (t.recordNext i rasValid rasTarget) (advanced t i rasValid rasTarget ring) := by
  have hle := h.length
  have hpop := recordCommit_le (i := i) h
  have hold : Holds p.inflightDepth (slot p.inflightDepth t.inflightHeadQ (t.recordCommit i).toNat)
      (t.recordNext i rasValid rasTarget)
      ((marked t i ring).drop (t.recordCommit i).toNat) := by
    apply holds_drop
    intro k x hk hx
    have hlt := (List.getElem?_eq_some_iff.mp hx).1
    rw [length_marked] at hlt
    have hstay : (t.recordCommit i && decide (k = 0)) = false := by
      cases hc : t.recordCommit i with
      | false => rfl
      | true =>
        rw [hc, toNat_true] at hk
        exact decide_eq_false (by omega)
    have hcell := h.held k _ (List.getElem?_eq_getElem hlt)
    have hval := h.valid k (by omega)
    rw [hcell, decide_eq_true hlt] at hval
    rw [marked, getElem?_mapIdx, List.getElem?_eq_getElem hlt, Option.map_some, some.injEq] at hx
    rw [h.recordNext_advance hfl hsq (by omega) (fun _ => by omega), hcell, hstay,
      decide_eq_true hlt, ← hx, hval]
    simp
  rw [advanced]
  cases halloc : t.allocates i with
  | false =>
    rw [if_low, append_nil]
    exact hold
  | true =>
    rw [if_pos rfl]
    apply hold.concat
    rw [slot_slot, length_drop, length_marked,
      show (t.recordCommit i).toNat + (ring.length - (t.recordCommit i).toNat) = ring.length by
        omega]
    exact h.recordNext_new hfl hsq halloc

theorem Ring.valid_advance {j : Nat} (hj : j < p.inflightDepth) :
    (t.recordNext i rasValid rasTarget (slot p.inflightDepth
        (slot p.inflightDepth t.inflightHeadQ (t.recordCommit i).toNat) j)).valid =
      decide (j < (advanced t i rasValid rasTarget ring).length) := by
  have hle := h.length
  have hpop := recordCommit_le (i := i) h
  have hroom := allocates_room (i := i) h
  rw [length_advanced]
  rcases slot_cases t.inflightHeadQ (toNat_le (t.recordCommit i)) hj with
    ⟨hlt, hslot⟩ | ⟨hone, hlast, hslot⟩
  · rw [hslot]
    by_cases hnew : t.allocates i ∧ (t.recordCommit i).toNat + j = ring.length
    · obtain ⟨halloc, hk⟩ := hnew
      rw [hk, h.recordNext_new hfl hsq halloc, halloc]
      exact (decide_eq_true (by rw [toNat_true]; omega)).symm
    rw [h.recordNext_advance hfl hsq hlt (fun ha hk => hnew ⟨ha, hk⟩)]
    have halloc : t.allocates i → (t.recordCommit i).toNat + j ≠ ring.length :=
      fun ha hk => hnew ⟨ha, hk⟩
    rw [Bool.eq_iff_iff]
    cases ha : t.allocates i <;> cases hc : t.recordCommit i <;>
      simp only [ha, hc, toNat_true, toNat_false, Bool.false_and, Bool.true_and,
        Bool.not_false, Bool.and_true, and_eq_true, not_eq_true', decide_eq_true_iff,
        decide_eq_false_iff_not, true_implies] at halloc hpop ⊢ <;>
      omega
  · have hc : t.recordCommit i := by
      cases hc : t.recordCommit i with
      | true => rfl
      | false =>
        rw [hc] at hone
        cases hone
    rw [hc, toNat_true] at hpop
    rw [hc] at hslot
    rw [hc, hslot, h.recordNext_advance hfl hsq h.depth_pos (fun _ => Nat.ne_of_lt hpop), hc]
    have hlen : ¬ j < ring.length - true.toNat + (t.allocates i).toNat := by
      cases ha : t.allocates i with
      | false =>
        simp only [toNat_true, toNat_false]
        omega
      | true =>
        have := hroom ha
        simp only [toNat_true]
        omega
    rw [decide_eq_false hlen]
    simp

end

/-- A cycle without recovery keeps the ring, provided that a new control is younger than
those still held. -/
theorem Ring.advance (h : Ring t ring) (htable : p.bpType.useTablePredictor)
    (hfl : i.flushI = false) (hsq : t.squashing i = false)
    (hnew : t.allocates i → p.enableTaggedResolution → ∀ x ∈ ring, isYounger i.lookupIdI x.id) :
    Ring (t.step i rasValid rasTarget) (advanced t i rasValid rasTarget ring) := by
  have hle := h.length
  have hpop := recordCommit_le (i := i) h
  have hroom := allocates_room (i := i) h
  have hhead : t.headNext i = slot p.inflightDepth t.inflightHeadQ (t.recordCommit i).toNat := by
    rw [headNext, if_neg (by rw [hfl]; decide), hsq, if_low, h.headNext_slot htable]
  constructor
  · show t.headNext i < _
    rw [hhead]
    exact slot_lt h.depth_pos _
  · rw [length_advanced]
    cases ha : t.allocates i with
    | false => exact (Nat.sub_le _ _).trans hle
    | true =>
      have := hroom ha
      rw [toNat_true]
      omega
  · show t.tailNext i = slot _ (t.headNext i) _
    rw [hhead, slot_slot, length_advanced, tailNext, if_neg (by rw [hfl]; decide),
      if_neg (by rw [hsq]; decide)]
    cases ha : t.allocates i with
    | false =>
      rw [if_low, h.tail]
      congr 1
      rw [toNat_false]
      omega
    | true =>
      rw [if_pos rfl, h.tail, p.inflightPtrNext_slot htable]
      congr 1
      rw [toNat_true]
      omega
  · show (t.countNext i).toNat = _
    rw [h.countNext_advance hfl hsq, length_advanced]
  · show Holds _ (t.headNext i) (t.recordNext i rasValid rasTarget) _
    rw [hhead]
    exact h.held_advance hfl hsq
  · intro j hj
    show (t.recordNext i rasValid rasTarget (slot _ (t.headNext i) j)).valid = _
    rw [hhead]
    exact h.valid_advance hfl hsq hj
  · intro htag
    have hsub : (((marked t i ring).drop (t.recordCommit i).toNat).map InflightRecord.id).Sublist
        (ring.map InflightRecord.id) := by
      have hids : (marked t i ring).map InflightRecord.id = ring.map InflightRecord.id :=
        map_id_marked
      rw [← hids]
      exact (List.drop_sublist _ _).map _
    have hold := (h.aged htag).sublist hsub
    rw [advanced, map_append]
    cases ha : t.allocates i with
    | false =>
      rw [if_low, List.map_nil, append_nil]
      exact hold
    | true =>
      rw [if_pos rfl, List.pairwise_append]
      refine ⟨hold, List.pairwise_singleton _ _, ?_⟩
      intro x hx y hy
      obtain ⟨r, hr, rfl⟩ := mem_map.mp (hsub.subset hx)
      rw [List.map_singleton, mem_singleton] at hy
      subst hy
      exact hnew ha htag r hr
  · intro htag x hx
    rw [advanced, mem_append] at hx
    rcases hx with hx | hx
    · obtain ⟨k, hk⟩ := List.mem_iff_getElem?.mp (List.mem_of_mem_drop hx)
      rw [marked, getElem?_mapIdx, Option.map_eq_some_iff] at hk
      obtain ⟨e, he, rfl⟩ := hk
      simp [h.fresh htag e (List.mem_of_getElem? he), htag]
    split at hx
    · rw [mem_singleton] at hx
      rw [hx]
      rfl
    · cases hx

end Cycle

/-! ### The controls in flight -/

end TargetTable

/-- What was predicted of a control when it was allocated. -/
structure Control where
  id : BitVec instrIdWidth
  targetValid : Bool
  target : BitVec 64
deriving DecidableEq, Repr

def InflightRecord.control (e : InflightRecord) : Control := ⟨e.id, e.targetValid, e.target⟩

/-- The control that a resolution is about: the one that is named, or else the oldest. -/
def resolving (p : BpParams) (i : BpInput) (live : List Control) : Option Control :=
  if p.enableTaggedResolution then live.find? fun c => c.id == i.resolveIdI else live.head?

/-- The controls that a resolution leaves in flight. -/
def unresolved (p : BpParams) (i : BpInput) (live : List Control) : List Control :=
  if i.resolveValidI then
    if p.enableTaggedResolution then live.eraseP fun c => c.id == i.resolveIdI else live.tail
  else live

def BpState.control {p : BpParams} (s : BpState p) (i : BpInput) : Control where
  id := i.lookupIdI
  targetValid := s.predictionTargetValidO i
  target := s.predictionTargetO i

/-- The lookup of this cycle puts a control in flight. -/
def BpInput.accepted (i : BpInput) : Bool := !i.flushI && !i.squashI && i.lookupAllocateI

/-- The controls in flight, the oldest first. -/
def inFlight {p : BpParams} : Past (BpState p) BpInput → List Control
  | [] => []
  | (s, i) :: past =>
    if i.flushI then []
    else if i.squashI then (inFlight past).takeWhile fun c => c.id != i.resolveIdI
    else unresolved p i (inFlight past) ++
      if i.lookupAllocateI then [s.control i] else []

namespace TargetTable

variable {p : BpParams} {t : TargetTable p} {i : BpInput} {ring : List InflightRecord}

/-- The controls whose records wait for their resolution. -/
def waiting (ring : List InflightRecord) : List Control :=
  (ring.filter fun e => !e.resolved).map control

theorem waiting_append (xs ys : List InflightRecord) :
    waiting (xs ++ ys) = waiting xs ++ waiting ys := by
  rw [waiting, List.filter_append, map_append]
  rfl

theorem waiting_cons_of_resolved {e : InflightRecord} (he : e.resolved)
    (xs : List InflightRecord) : waiting (e :: xs) = waiting xs := by
  simp [waiting, he]

theorem waiting_cons_of_unresolved {e : InflightRecord} (he : e.resolved = false)
    (xs : List InflightRecord) : waiting (e :: xs) = e.control :: waiting xs := by
  simp [waiting, he]

theorem mem_waiting {c : Control} (hc : c ∈ waiting ring) :
    ∃ e ∈ ring, e.resolved = false ∧ e.control = c := by
  obtain ⟨e, he, rfl⟩ := mem_map.mp hc
  rw [List.mem_filter, not_eq_true'] at he
  exact ⟨e, he.1, he.2, rfl⟩

theorem waiting_of_fresh (h : ∀ e ∈ ring, e.resolved = false) :
    waiting ring = ring.map control := by
  rw [waiting, List.filter_eq_self.mpr fun e he => by rw [h e he]; rfl]

/-- A resolution of a control in flight finds its record. -/
theorem Ring.exists_resolves (h : Ring t ring) {c : Control}
    (hc : resolving p i (waiting ring) = some c) :
    ∃ pre e post, ring = pre ++ e :: post ∧ e.control = c ∧ Resolves p i pre e post := by
  cases htag : p.enableTaggedResolution with
  | true =>
    rw [resolving, if_pos htag] at hc
    obtain ⟨e, he, hfresh, rfl⟩ := mem_waiting (List.mem_of_find?_eq_some hc)
    have hnamed := find?_some hc
    have hid : e.id = i.resolveIdI := beq_iff_eq.mp hnamed
    obtain ⟨pre, post, rfl⟩ := List.append_of_mem he
    obtain ⟨hpre, hpost⟩ := h.aged_split htag
    refine ⟨pre, e, post, rfl, rfl, hfresh, fun _ => hid, fun _ x hx => ?_, ?_⟩
    · rw [← hid]
      rcases mem_append.mp hx with hx | hx
      · exact (id_ne_of_younger (hpre x hx)).symm
      · exact id_ne_of_younger (hpost x hx)
    · rw [htag]
      exact fun hfalse => absurd hfalse (by decide)
  | false =>
    rw [resolving, htag, if_low, waiting_of_fresh (h.fresh htag)] at hc
    cases ring with
    | nil => cases hc
    | cons e rest =>
      refine ⟨[], e, rest, rfl, some.inj hc, h.fresh htag e List.mem_cons_self, ?_, ?_,
        fun _ => rfl⟩ <;>
      · rw [htag]
        exact fun hfalse => absurd hfalse (by decide)

/-- What leaves at the head with tagged resolution has been resolved. -/
theorem waiting_drop_head {xs : List InflightRecord} {n : Nat} (hn : n ≤ 1)
    (hhead : n = 1 → xs.head?.any resolved) : waiting (xs.drop n) = waiting xs := by
  obtain rfl | rfl : n = 0 ∨ n = 1 := by omega
  · rw [List.drop_zero]
  · cases xs with
    | nil => rfl
    | cons x rest =>
      rw [drop_one, tail_cons, waiting_cons_of_resolved (hhead rfl)]

section Waiting

variable {pre post : List InflightRecord} {e : InflightRecord} {rasValid : Bool}
  {rasTarget : BitVec 64}

theorem waiting_ids (hr : Resolves p i pre e post) (htag : p.enableTaggedResolution) :
    ∀ c ∈ waiting pre, c.id ≠ i.resolveIdI := by
  intro c hc
  obtain ⟨x, hx, -, rfl⟩ := mem_waiting hc
  exact hr.others htag x (List.mem_append_left _ hx)

/-- A recovery leaves the controls before the one that resolved. -/
theorem Ring.waiting_squash (h : Ring t (pre ++ e :: post)) (hr : Resolves p i pre e post)
    (htag : p.enableTaggedResolution) :
    waiting ((pre ++ [e.resolve]).drop t.headCommit.toNat) =
      (waiting (pre ++ e :: post)).takeWhile fun c => c.id != i.resolveIdI := by
  have hpre : ∀ c ∈ waiting pre, (c.id != i.resolveIdI) := fun c hc =>
    bne_iff_ne.mpr (waiting_ids hr htag c hc)
  have hleft : waiting (pre ++ [e.resolve]) = waiting pre := by
    rw [waiting_append, waiting_cons_of_resolved rfl]
    exact append_nil _
  rw [waiting_drop_head (toNat_le _), hleft, waiting_append,
    List.takeWhile_append_of_pos hpre, waiting_cons_of_unresolved hr.unresolved,
    List.takeWhile_cons_of_neg, append_nil]
  · rw [bne_iff_ne, ne_eq, not_not]
    exact hr.named htag
  · intro hone
    have hle := h.headCommit_le hr
    have hcom := h.headCommit
    cases pre with
    | nil =>
      rw [hone] at hle
      simp at hle
    | cons x rest =>
      rw [toNat_eq_one] at hone
      rw [hone] at hcom
      exact hcom.symm

theorem marked_of_no_record (hrec : t.resolveHasRecord i = false) : marked t i ring = ring := by
  apply ext_getElem?
  intro k
  rw [marked, getElem?_mapIdx]
  cases ring[k]? with
  | none => rfl
  | some e => simp [hrec]

theorem marked_of_untagged (htag : p.enableTaggedResolution = false) : marked t i ring = ring := by
  apply ext_getElem?
  intro k
  rw [marked, getElem?_mapIdx]
  cases ring[k]? with
  | none => rfl
  | some e => simp [htag]

theorem Ring.marked_split (h : Ring t (pre ++ e :: post)) (hr : Resolves p i pre e post)
    (hval : i.resolveValidI) (htag : p.enableTaggedResolution) :
    marked t i (pre ++ e :: post) = pre ++ e.resolve :: post := by
  have hrec := h.resolveHasRecord hr
  have hidx := h.resolveIndex hr
  apply ext_getElem?
  intro k
  rw [marked, getElem?_mapIdx, hrec, hval, htag, hidx]
  by_cases hlt : k < (pre ++ e :: post).length
  · have hle := h.length
    have hslot : (slot p.inflightDepth t.inflightHeadQ k ==
        slot p.inflightDepth t.inflightHeadQ pre.length) = decide (k = pre.length) := by
      rw [Bool.eq_iff_iff, beq_iff_eq, decide_eq_true_iff]
      exact slot_inj_iff h.head (by omega) h.pre_lt
    rw [hslot]
    rcases Nat.lt_trichotomy k pre.length with hlow | rfl | hhigh
    · rw [getElem?_append_left hlow, getElem?_append_left hlow,
        List.getElem?_eq_getElem hlow, decide_eq_false (Nat.ne_of_lt hlow)]
      simp
    · rw [getElem?_append_right le.refl, getElem?_append_right le.refl]
      simp [resolve]
    · rw [getElem?_append_right hhigh.le, getElem?_append_right hhigh.le,
        getElem?_cons, getElem?_cons, if_neg (Nat.sub_ne_zero_of_lt hhigh),
        if_neg (Nat.sub_ne_zero_of_lt hhigh), decide_eq_false (Nat.ne_of_gt hhigh)]
      cases post[k - pre.length - 1]? <;> simp
  have hnone : k ≥ (pre ++ e.resolve :: post).length := by
    rw [length_append, length_cons] at hlt ⊢
    omega
  rw [List.getElem?_eq_none (by omega), List.getElem?_eq_none hnone]
  rfl

section

variable (h : Ring t ring) (hres : i.resolveValidI → (resolving p i (waiting ring)).isSome)

include h hres

/-- The ring without its new record waits for the controls still in flight. -/
theorem Ring.waiting_kept :
    waiting ((marked t i ring).drop (t.recordCommit i).toNat) = unresolved p i (waiting ring) := by
  rw [unresolved]
  cases hval : i.resolveValidI with
  | false =>
    have hrec : t.resolveHasRecord i = false := by
      rw [TargetTable.resolveHasRecord, hval]
      rfl
    rw [if_low, marked_of_no_record hrec]
    apply waiting_drop_head (toNat_le _)
    intro hone
    rw [toNat_eq_one, recordCommit] at hone
    split at hone
    · rw [← h.headCommit, hone]
    · rw [hrec] at hone
      cases hone
  | true =>
    rw [if_pos rfl]
    obtain ⟨c, hc⟩ := isSome_iff_exists.mp (hres hval)
    obtain ⟨pre, e, post, rfl, -, hr⟩ := h.exists_resolves hc
    cases htag : p.enableTaggedResolution with
    | true =>
      have hpre := waiting_ids hr htag
      rw [if_pos rfl, h.marked_split hr hval htag, recordCommit, if_pos htag,
        waiting_drop_head (toNat_le _), waiting_append, waiting_append,
        waiting_cons_of_resolved rfl, waiting_cons_of_unresolved hr.unresolved,
        List.eraseP_append_right, List.eraseP_cons_of_pos]
      · exact beq_iff_eq.mpr (hr.named htag)
      · intro x hx hid
        exact hpre x hx (beq_iff_eq.mp hid)
      · intro hone
        have hle := h.headCommit_le hr
        have hcom := h.headCommit
        cases pre with
        | nil =>
          rw [hone] at hle
          simp at hle
        | cons x rest =>
          rw [toNat_eq_one] at hone
          rw [hone] at hcom
          exact hcom.symm
    | false =>
      obtain rfl := hr.oldest htag
      rw [if_low, marked_of_untagged htag, recordCommit,
        if_neg (by rw [htag]; decide), h.resolveHasRecord hr, hval, List.nil_append,
        toNat_true, drop_one, tail_cons, waiting_cons_of_unresolved hr.unresolved, tail_cons]

theorem Ring.waiting_advanced :
    waiting (advanced t i rasValid rasTarget ring) = unresolved p i (waiting ring) ++
        if t.allocates i then [(t.newRecord i rasValid rasTarget).control] else [] := by
  rw [advanced, waiting_append, h.waiting_kept hres]
  cases t.allocates i <;> rfl

end

end Waiting

end TargetTable

/-! ## Every run -/

/-- The predictor from reset. -/
def bpCircuit (p : BpParams) : Circuit (BpState p) BpInput where
  Init s := ∃ s' : BpState p, s = s'.reset
  step s i := s.step i

namespace BpState

variable {p : BpParams} {past : Past (BpState p) BpInput} {s : BpState p} {i : BpInput}

/-- What the surroundings promise: a control is allocated by a lookup that is not
stalled, a resolution is that of a control in flight, and only a tagged resolution
recovers selectively. -/
structure Promised (past : Past (BpState p) BpInput) (s : BpState p) (i : BpInput) : Prop where
  allocates : i.lookupAllocateI = true → i.lookupValidI = true ∧ s.decodeStallO i = false
  resolves : i.resolveValidI = true → (resolving p i (inFlight past)).isSome = true
  squashes : i.squashI = true → p.enableTaggedResolution = true ∧ i.resolveValidI = true

/-- The new control compares younger than every record that is still held. -/
def Youngest (s : BpState p) (i : BpInput) : Prop :=
  ∀ n, n < p.inflightDepth → (s.table.inflightQ n).valid = true →
    isYounger i.lookupIdI (s.table.inflightQ n).id = true

instance : Decidable (Youngest s i) := by
  unfold Youngest
  infer_instance

/-- The cycles in which a prediction cannot get lost.  The tags of a table predictor keep
their order; the one target of the simple policies belongs to a control that was
allocated with nothing else in flight and resolves before anything younger. -/
structure Owned (past : Past (BpState p) BpInput) (s : BpState p) (i : BpInput) : Prop where
  younger : p.bpType.useTablePredictor = true → p.enableTaggedResolution = true →
    i.accepted = true → Youngest s i
  alone : p.bpType.useTablePredictor = false → i.accepted = true →
    s.rasPredictionValid i = true → unresolved p i (inFlight past) = []
  first : p.bpType.useTablePredictor = false → s.rasOutstandingQ = true →
    i.resolveValidI = true → resolving p i (inFlight past) = (inFlight past).head?

/-- The target of a resolved control is compared with the one that was predicted for
this control, and with no other. -/
def TargetChecked (past : Past (BpState p) BpInput) (s : BpState p) (i : BpInput) : Prop :=
  s.targetMispredictO i =
    (i.resolveValidI && (resolving p i (inFlight past)).any fun c =>
      c.targetValid && i.resolveTakenI && i.resolveTargetI != c.target)

/-- The outstanding target is that of the oldest control in flight, and the only one. -/
structure Outstanding (s : BpState p) (live : List Control) : Prop where
  owner : s.rasOutstandingQ = true → ∃ c rest, live = c :: rest ∧ c.targetValid = true ∧
    c.target = s.rasOutstandingTargetQ ∧ ∀ x ∈ rest, x.targetValid = false
  none : s.rasOutstandingQ = false → ∀ x ∈ live, x.targetValid = false

/-- The records are those of the controls in flight. -/
def Tracks (past : Past (BpState p) BpInput) (s : BpState p) : Prop :=
  if p.bpType.useTablePredictor then
    ∃ ring, s.table.Ring ring ∧ waiting ring = inFlight past
  else Outstanding s (inFlight past)

theorem tracks_reset (s : BpState p) : Tracks [] s.reset := by
  rw [Tracks]
  split
  · rename_i htable
    have hdep : 0 < p.inflightDepth := Nat.zero_lt_of_lt (p.inflight_two_le htable)
    refine ⟨[], ?_, rfl⟩
    refine ⟨hdep, zero_le _, ?_, rfl, Holds.nil, ?_, ?_, ?_⟩
    · exact (RingSegment.slot_zero hdep).symm
    · intro k _
      rfl
    · exact fun _ => List.Pairwise.nil
    · intro _ r hr
      cases hr
  · exact ⟨fun h => absurd_low h, fun _ x hx => absurd hx (by simp [inFlight])⟩

/-! ### A table predictor -/

theorem step_table (htable : p.bpType.useTablePredictor) :
    (s.step i).table = s.table.step i (s.rasPredictionValid i) s.rasPredictionTarget :=
  if_pos htable

theorem control_newRecord (htable : p.bpType.useTablePredictor) :
    (s.table.newRecord i (s.rasPredictionValid i) s.rasPredictionTarget).control = s.control i := by
  rw [control, predictionTargetValidO, predictionTargetO, if_pos htable, if_pos htable]
  rfl

theorem Promised.allocates_eq (henv : Promised past s i)
    (htable : p.bpType.useTablePredictor) : s.table.allocates i = i.lookupAllocateI := by
  rw [TargetTable.allocates]
  cases halloc : i.lookupAllocateI with
  | false => rfl
  | true =>
    obtain ⟨hval, hstall⟩ := henv.allocates halloc
    rw [decodeStallO, Bool.or_eq_false_iff, selectedAllocationStall, htable,
      allocationStallO, hval] at hstall
    rw [show s.table.queueFull = false from hstall.2]
    rfl

theorem Promised.squashing_eq (henv : Promised past s i) {ring : List InflightRecord}
    (h : s.table.Ring ring) (hlive : waiting ring = inFlight past) :
    s.table.squashing i = i.squashI := by
  rw [squashing]
  cases hsq : i.squashI with
  | false => rfl
  | true =>
    obtain ⟨htag, hval⟩ := henv.squashes hsq
    obtain ⟨c, hc⟩ := isSome_iff_exists.mp (henv.resolves hval)
    obtain ⟨pre, e, post, rfl, -, hr⟩ := h.exists_resolves (hlive ▸ hc)
    rw [h.resolveHasRecord hr, hval, htag]
    rfl

theorem tracks_step_table (htable : p.bpType.useTablePredictor)
    (henv : Promised past s i) (howned : Owned past s i) {ring : List InflightRecord}
    (h : s.table.Ring ring) (hlive : waiting ring = inFlight past) :
    ∃ ring', (s.step i).table.Ring ring' ∧ waiting ring' = inFlight ((s, i) :: past) := by
  have hsquashing := henv.squashing_eq h hlive
  rw [step_table htable]
  cases hfl : i.flushI with
  | true =>
    refine ⟨[], h.flush hfl, ?_⟩
    rw [inFlight, if_pos hfl]
    rfl
  | false =>
  cases hsq : i.squashI with
  | true =>
    obtain ⟨htag, hval⟩ := henv.squashes hsq
    obtain ⟨c, hc⟩ := isSome_iff_exists.mp (henv.resolves hval)
    obtain ⟨pre, e, post, rfl, -, hr⟩ := h.exists_resolves (hlive ▸ hc)
    refine ⟨_, h.squash hr htable htag hfl (hsquashing.trans hsq), ?_⟩
    rw [h.waiting_squash hr htag, hlive, inFlight, hfl, if_low, if_pos hsq]
  | false =>
    have halloc := henv.allocates_eq htable
    have hres : i.resolveValidI → (resolving p i (waiting ring)).isSome := by
      rw [hlive]
      exact henv.resolves
    refine ⟨_, h.advance htable hfl (hsquashing.trans hsq) ?_, ?_⟩
    · intro hnew htag x hx
      obtain ⟨k, hk⟩ := List.mem_iff_getElem?.mp hx
      have hlt := (List.getElem?_eq_some_iff.mp hk).1
      have hdep := h.length
      have haccepted : i.accepted := by
        rw [BpInput.accepted, hfl, hsq, ← halloc, hnew]
        rfl
      have hyoung := howned.younger htable htag haccepted
        (slot p.inflightDepth s.table.inflightHeadQ k) (slot_lt h.depth_pos k)
      rw [h.valid k (by omega), h.held k x hk] at hyoung
      exact hyoung (decide_eq_true hlt)
    · rw [h.waiting_advanced hres, halloc, control_newRecord htable, hlive, inFlight, hfl,
        if_low, hsq, if_low]

theorem targetChecked_table (htable : p.bpType.useTablePredictor)
    (henv : Promised past s i) {ring : List InflightRecord} (h : s.table.Ring ring)
    (hlive : waiting ring = inFlight past) : TargetChecked past s i := by
  rw [TargetChecked, targetMispredictO, if_pos htable]
  cases hval : i.resolveValidI with
  | false =>
    rw [TargetTable.targetMispredictO, TargetTable.resolveHasRecord, hval]
    rfl
  | true =>
    obtain ⟨c, hc⟩ := isSome_iff_exists.mp (henv.resolves hval)
    obtain ⟨pre, e, post, rfl, rfl, hr⟩ := h.exists_resolves (hlive ▸ hc)
    rw [h.targetMispredictO hr, hval, hc]
    rfl

/-! ### A simple policy -/

theorem unresolved_subset (live : List Control) : unresolved p i live ⊆ live := by
  rw [unresolved]
  split
  · split
    · exact List.eraseP_subset
    · exact List.tail_subset live
  · exact List.Subset.refl _

/-- Resolving the oldest control leaves the others. -/
theorem unresolved_of_first (hval : i.resolveValidI) {c : Control}
    {rest : List Control} (hfst : resolving p i (c :: rest) = some c) :
    unresolved p i (c :: rest) = rest := by
  rw [unresolved, if_pos hval]
  rw [resolving] at hfst
  split
  · rename_i htag
    rw [if_pos htag] at hfst
    have hnamed := find?_some hfst
    exact List.eraseP_cons_of_pos hnamed
  · rfl

theorem rasAllocates_of_simple (htable : p.bpType.useTablePredictor = false) :
    s.rasAllocates i = (i.lookupAllocateI && s.rasPredictionValid i) := by
  rw [rasAllocates, htable]
  rfl

/-- A simple policy predicts a target exactly when the return-address stack does. -/
theorem predictionTargetValidO_of_simple (htable : p.bpType.useTablePredictor = false)
    (hval : i.lookupValidI) : s.predictionTargetValidO i = s.rasPredictionValid i := by
  rw [predictionTargetValidO, htable, hval]
  rfl

theorem outstanding_unresolved (hout : Outstanding s (inFlight past))
    (htable : p.bpType.useTablePredictor = false) (howned : Owned past s i) :
    Outstanding { s with rasOutstandingQ := !i.resolveValidI && s.rasOutstandingQ }
      (unresolved p i (inFlight past)) := by
  cases hval : i.resolveValidI with
  | false =>
    have hsame : unresolved p i (inFlight past) = inFlight past := by
      rw [unresolved, hval, if_low]
    rw [hsame]
    exact ⟨hout.owner, hout.none⟩
  | true =>
    refine ⟨fun h => absurd_low h, fun _ => ?_⟩
    cases hq : s.rasOutstandingQ with
    | false => exact fun x hx => hout.none hq x (unresolved_subset _ hx)
    | true =>
      obtain ⟨c, rest, hlive, -, -, hrest⟩ := hout.owner hq
      have hfst := howned.first htable hq hval
      rw [hlive] at hfst ⊢
      rw [unresolved_of_first hval hfst]
      exact hrest

section

variable (htable : p.bpType.useTablePredictor = false) (henv : Promised past s i)
  (howned : Owned past s i) (hout : Outstanding s (inFlight past))

include htable henv howned hout

theorem outstanding_step : Outstanding (s.step i) (inFlight ((s, i) :: past)) := by
  cases hfl : i.flushI with
  | true =>
    rw [inFlight, if_pos hfl]
    exact ⟨fun h => absurd h (by simp [step, rasOutstandingNext, hfl]),
      fun _ x hx => absurd hx (by simp)⟩
  | false =>
  cases hsq : i.squashI with
  | true =>
    obtain ⟨htag, hval⟩ := henv.squashes hsq
    rw [inFlight, hfl, if_low, if_pos hsq]
    refine ⟨fun h => absurd h (by simp [step, rasOutstandingNext, hsq]), fun _ => ?_⟩
    cases hq : s.rasOutstandingQ with
    | false =>
      exact fun x hx => hout.none hq x ((List.takeWhile_prefix _).subset hx)
    | true =>
      obtain ⟨c, rest, hlive, -⟩ := hout.owner hq
      have hfst := howned.first htable hq hval
      rw [hlive, resolving, if_pos htag, head?_cons] at hfst
      have hid := find?_some hfst
      rw [hlive, List.takeWhile_cons_of_neg]
      · exact fun x hx => absurd hx (by simp)
      · rw [bne, hid]
        decide
  | false =>
    have hkept := outstanding_unresolved hout htable howned
    have hnxt : (s.step i).rasOutstandingQ =
        (s.rasAllocates i || (!i.resolveValidI && s.rasOutstandingQ)) := by
      show s.rasOutstandingNext i = _
      rw [rasOutstandingNext, hfl, hsq]
      cases s.rasAllocates i <;> cases i.resolveValidI <;> rfl
    have htgt : (s.step i).rasOutstandingTargetQ =
        if s.rasAllocates i then s.rasPredictionTarget
        else s.rasOutstandingTargetQ := by
      simp [step, hfl, hsq]
    rw [inFlight, hfl, if_low, hsq, if_low]
    cases hras : s.rasAllocates i with
    | true =>
      rw [rasAllocates_of_simple htable, and_eq_true] at hras
      obtain ⟨halloc, hpredict⟩ := hras
      have haccepted : i.accepted := by
        rw [BpInput.accepted, hfl, hsq, halloc]
        rfl
      rw [howned.alone htable haccepted hpredict]
      have hval := (henv.allocates halloc).1
      rw [rasAllocates_of_simple htable, halloc, hpredict] at hnxt htgt
      rw [if_pos halloc]
      constructor
      · intro _
        refine ⟨s.control i, [], rfl, ?_, ?_, fun x hx => absurd hx (by simp)⟩
        · show s.predictionTargetValidO i
          rw [predictionTargetValidO_of_simple htable hval, hpredict]
        · show s.predictionTargetO i = _
          rw [htgt, predictionTargetO, htable]
          rfl
      · intro h
        rw [hnxt] at h
        cases h
    | false =>
      have hnew : ∀ x ∈ (if i.lookupAllocateI then [s.control i] else []),
          x.targetValid = false := by
        intro x hx
        split at hx
        · rename_i halloc
          rw [mem_singleton] at hx
          rw [rasAllocates_of_simple htable, halloc, Bool.true_and] at hras
          rw [hx]
          show s.predictionTargetValidO i = false
          rw [predictionTargetValidO_of_simple htable (henv.allocates halloc).1, hras]
        · cases hx
      rw [hras, Bool.false_or] at hnxt
      rw [hras, if_low] at htgt
      constructor
      · intro h
        obtain ⟨c, rest, hlive, hval, heq, hrest⟩ := hkept.owner (hnxt ▸ h)
        refine ⟨c, rest ++ _, by rw [hlive]; rfl, hval, heq.trans htgt.symm, ?_⟩
        intro x hx
        rcases mem_append.mp hx with hx | hx
        · exact hrest x hx
        · exact hnew x hx
      · intro h x hx
        rcases mem_append.mp hx with hx | hx
        · exact hkept.none (hnxt ▸ h) x hx
        · exact hnew x hx

theorem targetChecked_simple : TargetChecked past s i := by
  rw [TargetChecked, targetMispredictO, htable, if_low]
  cases hval : i.resolveValidI with
  | false => rfl
  | true =>
  cases hq : s.rasOutstandingQ with
  | true =>
    obtain ⟨c, rest, hlive, htv, heq, -⟩ := hout.owner hq
    rw [howned.first htable hq hval, hlive, head?_cons, any_some, htv, heq]
    simp
  | false =>
    obtain ⟨c, hc⟩ := isSome_iff_exists.mp (henv.resolves hval)
    have hmem : c ∈ inFlight past := by
      rw [resolving] at hc
      split at hc
      · exact List.mem_of_find?_eq_some hc
      · exact List.mem_of_mem_head? hc
    rw [hc, any_some, hout.none hq c hmem]
    rfl

end

section

variable (hrun : Run (bpCircuit p) (fun past s i => Promised past s i ∧ Owned past s i) past s)

include hrun

theorem tracks_of_run : Tracks past s := by
  apply Run.invariant (P := Tracks) ?_ ?_ hrun
  · rintro s ⟨s', rfl⟩
    exact tracks_reset s'
  · intro past s i _ henv h
    rw [Tracks] at h ⊢
    split at h
    · rename_i htable
      obtain ⟨ring, hring, hlive⟩ := h
      rw [if_pos htable]
      exact tracks_step_table htable henv.1 henv.2 hring hlive
    · rename_i htable
      rw [if_neg htable]
      exact outstanding_step (Bool.eq_false_iff.mpr htable) henv.1 henv.2 h

/-- In every run whose cycles give each prediction an owner, every resolved target is
compared with the one that was predicted for the same control. -/
theorem targetChecked_of_owned (henv : Promised past s i) (howned : Owned past s i) :
    TargetChecked past s i := by
  have h := tracks_of_run hrun
  rw [Tracks] at h
  split at h
  · rename_i htable
    obtain ⟨ring, hring, hlive⟩ := h
    exact targetChecked_table htable henv hring hlive
  · rename_i htable
    exact targetChecked_simple (Bool.eq_false_iff.mpr htable) henv howned h

end

/-! ## Concrete runs -/

instance : Decidable (Promised past s i) :=
  decidable_of_iff
    ((i.lookupAllocateI = true → i.lookupValidI = true ∧ s.decodeStallO i = false) ∧
      (i.resolveValidI = true → (resolving p i (inFlight past)).isSome = true) ∧
      (i.squashI = true → p.enableTaggedResolution = true ∧ i.resolveValidI = true))
    ⟨fun h => ⟨h.1, h.2.1, h.2.2⟩, fun h => ⟨h.allocates, h.resolves, h.squashes⟩⟩

instance : Decidable (Owned past s i) :=
  decidable_of_iff
    ((p.bpType.useTablePredictor = true → p.enableTaggedResolution = true →
        i.accepted = true → Youngest s i) ∧
      (p.bpType.useTablePredictor = false → i.accepted = true →
        s.rasPredictionValid i = true → unresolved p i (inFlight past) = []) ∧
      (p.bpType.useTablePredictor = false → s.rasOutstandingQ = true →
        i.resolveValidI = true → resolving p i (inFlight past) = (inFlight past).head?))
    ⟨fun h => ⟨h.1, h.2.1, h.2.2⟩, fun h => ⟨h.younger, h.alone, h.first⟩⟩

instance : Decidable (TargetChecked past s i) := by
  unfold TargetChecked
  infer_instance

/-- A simple policy with a return-address stack. -/
def btfntParams : BpParams where
  bpType := .btfnt
  enableRas := true
  rasDepth := 8
  btbEntries := 256
  btbTagBits := 16
  inflightDepth := 16
  enableTaggedResolution := false
  inflight_two_le h := absurd h (by decide)
  inflight_pow h := absurd h (by decide)

def idleBp : BpInput where
  flushI := false
  squashI := false
  rasContextFlushI := false
  lookupValidI := false
  lookupIndirectI := false
  lookupInstrI := 0
  lookupPcI := 0
  lookupIdI := 0
  lookupAllocateI := false
  resolveValidI := false
  resolveTakenI := false
  resolveInstrI := 0
  resolvePcI := 0
  resolveTargetI := 0
  resolveIdI := 0

/-- `jal ra`, a conditional branch and `ret`. -/
def callInstr : BitVec 32 := 0x000000ef
def branchInstr : BitVec 32 := 0x00000063
def returnInstr : BitVec 32 := 0x00008067

def allocateControl (instr : BitVec 32) (pc : BitVec 64) : BpInput :=
  { idleBp with
    lookupValidI := true
    lookupIndirectI := isJalr instr
    lookupInstrI := instr
    lookupPcI := pc
    lookupAllocateI := true }

def resolveControl (instr : BitVec 32) (pc target : BitVec 64) (taken : Bool) : BpInput :=
  { idleBp with
    resolveValidI := true
    resolveTakenI := taken
    resolveInstrI := instr
    resolvePcI := pc
    resolveTargetI := target }

def powerUpBp (p : BpParams) : BpState p where
  ras := .reset
  table := ⟨fun _ => false, fun _ => 0, fun _ => 0, fun _ => ⟨false, false, 0, false, 0⟩, 0, 0, 0,
    false⟩
  unresolvedQ := false
  rasOutstandingQ := false
  rasOutstandingTargetQ := 0

theorem powerUpBp_init (p : BpParams) : (bpCircuit p).Init (powerUpBp p).reset := ⟨powerUpBp p, rfl⟩

/-- A call that has resolved, and a return that is predicted behind it. -/
def callThenReturn : List BpInput :=
  [allocateControl callInstr 0x1000, resolveControl callInstr 0x1000 0x2000 true,
    allocateControl returnInstr 0x2000]

/-- A return to another address than the predicted one is caught. -/
theorem targetChecked_of_owned_return :
    TargetChecked (exec (bpCircuit btfntParams) [] (powerUpBp btfntParams).reset
        callThenReturn).1
      (exec (bpCircuit btfntParams) [] (powerUpBp btfntParams).reset callThenReturn).2
      (resolveControl returnInstr 0x2000 0x3000 true) ∧
    (exec (bpCircuit btfntParams) [] (powerUpBp btfntParams).reset
      callThenReturn).2.targetMispredictO (resolveControl returnInstr 0x2000 0x3000 true) =
        true := by
  refine ⟨targetChecked_of_owned (exec_run_past _ (.reset (powerUpBp_init _))
    (by decide +kernel)) (by decide +kernel) (by decide +kernel), by decide +kernel⟩

/-- The same with a branch in flight before the return. -/
def branchThenReturn : List BpInput :=
  [allocateControl callInstr 0x1000, resolveControl callInstr 0x1000 0x2000 true,
    allocateControl branchInstr 0x2000, allocateControl returnInstr 0x2004,
    resolveControl branchInstr 0x2000 0x2004 false]

/-- The branch takes the predicted target with it, and the return to another address
goes unnoticed. -/
theorem return_target_escapes :
    ¬ ∀ (p : BpParams) (past : Past (BpState p) BpInput) (s : BpState p) (i : BpInput),
      Run (bpCircuit p) Promised past s → Promised past s i → TargetChecked past s i := by
  intro hchecked
  have hescape := hchecked btfntParams _ _ (resolveControl returnInstr 0x2004 0x3000 true)
    (exec_run_past branchThenReturn (.reset (powerUpBp_init btfntParams))
      (by decide +kernel)) (by decide +kernel)
  revert hescape
  decide +kernel

end BpState

end OpenRV64
