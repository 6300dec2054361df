/-
The generation in a tag tells how often the generation had advanced when the miss of its line
was taken, as far as its width can tell; a page-table read that refuses other generations is
answered from a copy that was fetched after the fences before it.
-/
import OpenRV64.PteHistory

namespace OpenRV64

open Sync L2State
open Bool (not_eq_true' eq_false_iff or_eq_true false_ne_true and_eq_true)
open BitVec (ofNat)

namespace PteHistory

variable {p : L2Params} {h : PteHistory} {s : L2State p} {i : L2Input p} {k : ℕ}

/-- A copy is as fresh as its advance says: if the generation has not advanced since its miss
was taken, no fence came after its fill was requested. -/
structure Dated (h : PteHistory) (now : ℕ) (c : LineCopy) : Prop where
  le : c.advance ≤ now
  fresh : c.advance = now → h.fences ≤ c.fetched

/-- A miss register that goes through the cache, and its copy. -/
structure Register (h : PteHistory) (s : L2State p) (k : ℕ) : Prop where
  taken : h.taken k ≤ h.advances
  advance : (h.held k).advance ≤ h.taken k
  fill : h.resident k = false → (h.held k).advance = h.taken k ∧
    (s.mshr k).pteGeneration = BitVec.ofNat p.pteGenerationBits (h.taken k)
  stays : h.resident k = true → h.evicted k = none ∧ ((s.mshr k).state = .replay ∨
    (((s.mshr k).state = .needProbe ∨ (s.mshr k).state = .probeInflight) ∧
      (s.mshr k).postProbeState = .replay))
  waits : h.resident k = false → (s.mshr k).state = .needProbe ∨ (s.mshr k).state = .probeInflight →
      (s.mshr k).postProbeState ≠ .replay
  fresh : h.resident k = true ∨ (s.mshr k).state = .fillInflight ∨ (s.mshr k).state = .replay →
    (h.held k).advance = h.taken k → h.fences ≤ (h.held k).fetched
  payload : h.resident k = true ∨ (s.mshr k).state = .replay →
    (s.mshr k).payload = (h.held k).payload
  same : h.resident k = true ∨ (s.mshr k).state = .replay →
    h.way (s.mshr k).set (s.mshr k).way = h.held k
  first : h.resident k = true → (s.waiter k 0).kind = icxKindPte →
    BitVec.ofNat p.pteGenerationBits (h.held k).advance =
      BitVec.ofNat p.pteGenerationBits (h.taken k)
  victim : ∀ a d, h.evicted k = some (a, d) → (s.mshr k).victimAddr = a ∧
    (s.mshr k).victimData = d.data ∧ (s.mshr k).victimStrb = d.strb
  returned : h.evicted k ≠ none → h.writtenBack k = true ∨ (s.mshr k).state = .needWb ∨
    (s.mshr k).state = .wbInflight ∨ (s.mshr k).state = .error ∨
      (((s.mshr k).state = .needProbe ∨ (s.mshr k).state = .probeInflight) ∧
        (s.mshr k).postProbeState = .needWb)

/-- A way that may be used, and its copy. -/
structure Resident (h : PteHistory) (s : L2State p) (set way : ℕ) : Prop where
  dated : h.Dated h.advances (h.way set way)
  generation : ((s.way way).tagMem set).generation =
    BitVec.ofNat p.pteGenerationBits (h.way set way).advance
  payload : (s.way way).dataMem set = (h.way set way).payload

/-- The history agrees with the registers. -/
structure Agrees (h : PteHistory) (s : L2State p) : Prop where
  shape : s.MshrsOk
  shown : s.Shown
  generation : s.pteGenerationQ = BitVec.ofNat p.pteGenerationBits h.advances
  accepted : ∀ n, h.acceptFences n ≤ h.fences
  resident : ∀ set way, (s.wayMeta set way).valid = true → h.Resident s set way
  register : ∀ k, (s.mshr k).valid = true → (s.mshr k).bypass = false → h.Register s k
  reserved : ∀ k, (s.mshr k).valid = true → (s.mshr k).bypass = false →
    (s.wayMeta (s.mshr k).set (s.mshr k).way).reserved = true
  apart : ∀ k k', (s.mshr k).valid = true → (s.mshr k').valid = true →
    (s.mshr k).bypass = false → (s.mshr k').bypass = false →
      (s.mshr k).set = (s.mshr k').set → (s.mshr k).way = (s.mshr k').way → k = k'

/-! ## The events of a cycle, by the state of the register they name -/

section Events

theorem fetchesAt_state (hev : s.fetchesAt i k) :
    (s.mshr k).valid ∧ (s.mshr k).state = .needFill := by
  rw [fetchesAt, and_eq_true, beq_iff_eq] at hev
  have hst := requestsAt_state hev.1
  rw [hev.2] at hst
  exact hst

theorem answered_state {a : BusAction} (hok : s.MshrsOk)
    (hev : (s.answeredAt i k && s.busResponseAction == a && !i.busRespErrorI)) :
    (s.mshr k).valid ∧ (s.mshr k).state = a.inflight := by
  rw [and_eq_true, and_eq_true, beq_iff_eq] at hev
  have hst := answeredAt_state hok.track hev.1.1
  rw [hev.1.2] at hst
  exact hst

theorem cacheWritesAt_state (hev : s.cacheWritesAt i k) :
    (s.mshr k).valid ∧ (s.mshr k).state = .replay ∧ (s.mshr k).bypass = false := by
  rw [cacheWritesAt, and_eq_true, beq_iff_eq] at hev
  obtain ⟨hwr, rfl⟩ := hev
  obtain ⟨hrep, herr, hbyp, -⟩ := cacheWrite_replay hwr
  obtain ⟨-, hval, hst, -⟩ := replay_wants hrep
  refine ⟨hval, hst.resolve_right fun hs => ?_, hbyp⟩
  rw [replayError, hs] at herr
  cases herr

theorem fillSramWrite_iff : s.fillSramWrite i ↔ s.fillsAt i s.busResponseMshr := by
  rw [fillSramWrite, fillsAt, answeredAt, beq_self_eq_true, Bool.and_true]

theorem fillsAt_eq (hev : s.fillsAt i k) : s.fillSramWrite i ∧ k = s.busResponseMshr := by
  have hk : k = s.busResponseMshr := by
    rw [fillsAt, answeredAt] at hev
    simp only [and_eq_true, beq_iff_eq] at hev
    exact hev.1.1.2
  exact ⟨fillSramWrite_iff.mpr (hk ▸ hev), hk⟩

/-- A fence that is answered without error leaves no register in use. -/
theorem fence_drained (hok : s.MshrsOk) (hfen : s.fenceFire i) (k : ℕ) :
    (s.mshr k).valid = false := by
  rw [fenceFire, pteGenerationAdvance] at hfen
  simp only [and_eq_true, not_eq_true', beq_iff_eq] at hfen
  obtain ⟨⟨⟨⟨⟨himm, hprotocol⟩, hop⟩, -⟩, hhart⟩, hinvariant⟩ := hfen
  have hbase := (action_eq_base (by rw [himm]; simp) (by rw [himm]; simp)).trans himm
  have hdrained : s.fenceDrainComplete := by
    rcases (base_immediate hbase).2 with h1 | h1 | h1 | h1 | h1
    · rw [hprotocol] at h1
      cases h1
    · rw [hhart] at h1
      cases h1
    · rw [hinvariant] at h1
      cases h1
    · rw [lookupScFailed, hop] at h1
      simp [icxOpFence, icxOpSc] at h1
    · exact h1.2
  rw [fenceDrainComplete] at hdrained
  simp only [and_eq_true, List.all_eq_true, List.mem_range, not_eq_true'] at hdrained
  by_contra hval
  rw [Bool.not_eq_false] at hval
  rw [hdrained.1.1.1 k (hok.bound k hval)] at hval
  cases hval

theorem fences_eq (hok : s.MshrsOk) (hval : (s.mshr k).valid) : (h.next s i).fences = h.fences := by
  have hno : ¬ s.fenceFire i := fun hfen => by
    rw [fence_drained hok hfen k] at hval
    cases hval
  exact if_neg hno

theorem fences_le : h.fences ≤ (h.next s i).fences := by
  show h.fences ≤ if s.fenceFire i then h.fences + 1 else h.fences
  split_ifs <;> omega

theorem advances_le : h.advances ≤ (h.next s i).advances := by
  show h.advances ≤ if s.pteGenerationAdvance i then h.advances + 1 else h.advances
  split_ifs <;> omega

theorem fences_of_advances (hsame : (h.next s i).advances = h.advances) :
    (h.next s i).fences = h.fences := by
  have hno : ¬ s.pteGenerationAdvance i := fun hadv => by
    have heq : h.advances + 1 = h.advances := (if_pos hadv).symm.trans hsame
    omega
  apply if_neg
  rw [fenceFire]
  simp only [and_eq_true]
  exact fun hfen => hno hfen.1.1

theorem Dated.step {c : LineCopy} (hc : h.Dated h.advances c) :
    (h.next s i).Dated (h.next s i).advances c where
  le := hc.le.trans advances_le
  fresh heq := by
    have hsame : (h.next s i).advances = h.advances := le_antisymm (heq ▸ hc.le) advances_le
    rw [fences_of_advances hsame]
    exact hc.fresh (heq.trans hsame)

end Events

/-! ## Ways and their owners -/

section Owners

theorem hitWay_spec (hway : s.hitWay = some s.lookupHitWay) :
    s.wayMatches s.lookupHitWay ∧ s.wayStale s.lookupHitWay = false := by
  have hfnd := List.find?_some hway
  rw [and_eq_true, not_eq_true'] at hfnd
  exact hfnd

theorem matches_unreserved {way : ℕ} (hmat : s.wayMatches way) :
    (s.wayMeta s.lookupSet way).valid ∧ (s.wayMeta s.lookupSet way).reserved = false := by
  rw [wayMatches, and_eq_true, and_eq_true, not_eq_true'] at hmat
  exact hmat.1

theorem victim_unreserved {way : ℕ} (hvic : s.victim = some way) :
    (s.wayMeta s.lookupSet way).reserved = false := by
  rw [victim, Option.orElse_eq_some, Option.orElse_eq_some] at hvic
  rcases hvic with hstale | ⟨-, hfree | ⟨-, hturn⟩⟩
  · have hfnd := List.find?_some hstale
    rw [and_eq_true] at hfnd
    exact (matches_unreserved hfnd.1).2
  · have hfnd := List.find?_some hfree
    rw [and_eq_true, not_eq_true', not_eq_true'] at hfnd
    exact hfnd.2
  · have hfnd := List.find?_some hturn
    rw [not_eq_true'] at hfnd
    exact hfnd

/-- A register that goes through the cache. -/
def Caches (s : L2State p) (k : ℕ) : Prop := (s.mshr k).valid = true ∧ (s.mshr k).bypass = false

theorem fillsAt_caches (hok : s.MshrsOk) (hev : s.fillsAt i k) :
    Caches s k ∧ (s.mshr k).state = .fillInflight := by
  obtain ⟨hval, hst⟩ := answered_state hok hev
  refine ⟨⟨hval, ?_⟩, hst⟩
  rw [eq_false_iff]
  intro hbyp
  exact ((hok.mshr k).bypass hval hbyp).2.2.2.2 hst

theorem cacheWritesAt_caches (hev : s.cacheWritesAt i k) :
    Caches s k ∧ (s.mshr k).state = .replay := by
  obtain ⟨hval, hst, hbyp⟩ := cacheWritesAt_state hev
  exact ⟨⟨hval, hbyp⟩, hst⟩

theorem cacheWritesAt_eq (hev : s.cacheWritesAt i k) : s.replayCacheWrite i ∧ k = s.replayMshr := by
  rw [cacheWritesAt, and_eq_true, beq_iff_eq] at hev
  exact hev

theorem wayOf_iff {set way : ℕ} :
    s.wayOf k set way ↔ set = (s.mshr k).set ∧ way = (s.mshr k).way := by
  rw [wayOf, and_eq_true, beq_iff_eq, beq_iff_eq]

variable (hagr : h.Agrees s)

include hagr

theorem Agrees.owner {j : ℕ} (hk : Caches s k) (hj : Caches s j)
    (hway : s.wayOf j (s.mshr k).set (s.mshr k).way) : k = j :=
  hagr.apart k j hk.1 hj.1 hk.2 hj.2 (wayOf_iff.mp hway).1 (wayOf_iff.mp hway).2

theorem Agrees.unowned {set way : ℕ} (hk : Caches s k)
    (hfree : (s.wayMeta set way).reserved = false) : ¬ (set = (s.mshr k).set ∧
      way = (s.mshr k).way) := by
  rintro ⟨rfl, rfl⟩
  rw [hagr.reserved k hk.1 hk.2] at hfree
  cases hfree

/-- The copy in the way of a register changes only by the register's own fill and writes. -/
theorem Agrees.way_of_owner (hk : Caches s k) : h.wayNext s i (s.mshr k).set (s.mshr k).way =
      if s.fillsAt i k then { h.held k with payload := ⟨i.busRespRdataI, .none⟩ }
      else if s.cacheWritesAt i k then
        { h.held k with payload := (h.held k).payload.written s.replayBeat }
      else h.way (s.mshr k).set (s.mshr k).way := by
  have hself : s.wayOf k (s.mshr k).set (s.mshr k).way := wayOf_iff.mpr ⟨rfl, rfl⟩
  have hfill : (s.fillSramWrite i && s.wayOf s.busResponseMshr (s.mshr k).set (s.mshr k).way)
      = s.fillsAt i k := by
    rw [Bool.eq_iff_iff, and_eq_true]
    constructor
    · rintro ⟨hwrite, hway⟩
      have hev := fillSramWrite_iff.mp hwrite
      rw [hagr.owner hk (fillsAt_caches hagr.shape hev).1 hway]
      exact hev
    · intro hev
      obtain ⟨hwrite, rfl⟩ := fillsAt_eq hev
      exact ⟨hwrite, hself⟩
  have hrep : (s.replayCacheWrite i && s.wayOf s.replayMshr (s.mshr k).set (s.mshr k).way)
      = s.cacheWritesAt i k := by
    rw [Bool.eq_iff_iff, and_eq_true]
    constructor
    · rintro ⟨hwrite, hway⟩
      have hev : s.cacheWritesAt i s.replayMshr := by
        rw [cacheWritesAt, hwrite, beq_self_eq_true]
        rfl
      rw [hagr.owner hk (cacheWritesAt_caches hev).1 hway]
      exact hev
    · intro hev
      obtain ⟨hwrite, rfl⟩ := cacheWritesAt_eq hev
      exact ⟨hwrite, hself⟩
  have hhit : ¬ (s.lookupHitWrite i && (s.mshr k).set == s.lookupSet &&
      (s.mshr k).way == s.lookupHitWay) := by
    rw [and_eq_true, and_eq_true, beq_iff_eq, beq_iff_eq]
    rintro ⟨⟨hwrite, hset⟩, hway⟩
    rw [lookupHitWrite, and_eq_true, beq_iff_eq] at hwrite
    have hbase := (action_eq_base (by rw [hwrite.1]; simp) (by rw [hwrite.1]; simp)).trans hwrite.1
    have hspec := (hitWay_spec (base_hit hbase).2.1).1
    exact hagr.unowned hk (matches_unreserved hspec).2 ⟨hset.symm, hway.symm⟩
  rw [wayNext, hfill, hrep, if_neg hhit]
  by_cases hev : s.fillsAt i k
  · obtain ⟨-, hk'⟩ := fillsAt_eq hev
    rw [if_pos hev, if_pos hev, ← hk']
  rw [if_neg hev, if_neg hev]
  by_cases hwr : s.cacheWritesAt i k
  · obtain ⟨-, hk'⟩ := cacheWritesAt_eq hwr
    rw [if_pos hwr, if_pos hwr, ← hk']
  · rw [if_neg hwr, if_neg hwr]

end Owners

/-! ## What the memories hold after an edge -/

section Memories

/-- At most one of the three writes of a cycle takes place. -/
theorem one_write : (s.replayCacheWrite i → s.fillSramWrite i = false) ∧
    (s.lookupHitWrite i → s.fillSramWrite i = false ∧ s.replayCacheWrite i = false) := by
  constructor
  · intro hwr
    rw [replayCacheWrite, replayEnqueue] at hwr
    simp only [and_eq_true, or_eq_true, not_eq_true', replayNeedsSramWrite] at hwr
    refine hwr.1.2.resolve_left fun hnot => ?_
    rw [hwr.1.1.1.1, hwr.2] at hnot
    cases hnot
  · intro hwr
    rw [lookupHitWrite, and_eq_true, beq_iff_eq] at hwr
    have hbase := (action_eq_base (by rw [hwr.1]; simp) (by rw [hwr.1]; simp)).trans hwr.1
    have hblocked := (base_hit hbase).2.2.2 hwr.2
    rw [lookupSramWriteBlocked, Bool.or_eq_false_iff] at hblocked
    exact hblocked

theorem wayNext_dataMem (set way : ℕ) : (s.wayNext i way).dataMem set =
    if s.fillSramWrite i && s.wayOf s.busResponseMshr set way then ⟨i.busRespRdataI, .none⟩
    else if s.replayCacheWrite i && s.wayOf s.replayMshr set way then
      ⟨s.replayWriteData, s.replayWriteStrb⟩
    else if s.lookupHitWrite i && set == s.lookupSet && way == s.lookupHitWay then
      ⟨s.hitPayload.data.merge s.lookup.wstrb s.lookup.wdata, s.hitPayload.strb.or s.lookup.wstrb⟩
    else (s.way way).dataMem set := by
  obtain ⟨hrep, hhit⟩ := one_write (s := s) (i := i)
  show (if (s.sramWrite i).valid && (s.sramWrite i).way == way && set == (s.sramWrite i).set
    then (s.sramWrite i).payload else (s.way way).dataMem set) = _
  rw [sramWrite, wayOf, wayOf]
  cases hf : s.fillSramWrite i
  · cases hr : s.replayCacheWrite i
    · cases hl : s.lookupHitWrite i
      · rfl
      · simp only [Bool.false_and, if_low, if_true, Bool.true_and,
          and_eq_true, beq_iff_eq, eq_comm (a := s.lookupHitWay), and_comm]
    have hl : s.lookupHitWrite i = false := by
      rw [eq_false_iff]
      intro hl
      rw [(hhit hl).2] at hr
      cases hr
    simp only [hl, Bool.false_and, if_low, if_true, Bool.true_and,
      and_eq_true, beq_iff_eq, eq_comm (a := (s.mshr s.replayMshr).way), and_comm]
  have hr : s.replayCacheWrite i = false := by
    rw [eq_false_iff]
    intro hr
    rw [hrep hr] at hf
    cases hf
  have hl : s.lookupHitWrite i = false := by
    rw [eq_false_iff]
    intro hl
    rw [(hhit hl).1] at hf
    cases hf
  simp only [hr, hl, Bool.false_and, if_low, if_true, Bool.true_and,
    and_eq_true, beq_iff_eq, eq_comm (a := (s.mshr s.busResponseMshr).way), and_comm]

theorem wayNext_tagMem (set way : ℕ) : (s.wayNext i way).tagMem set =
    if s.fillSramWrite i && s.wayOf s.busResponseMshr set way then
      ⟨(s.mshr s.busResponseMshr).pteGeneration, (s.mshr s.busResponseMshr).tag⟩
    else (s.way way).tagMem set := by
  show (if (s.sramWrite i).valid && (s.sramWrite i).way == way && (s.sramWrite i).writeTag &&
    set == (s.sramWrite i).set then (s.sramWrite i).tag else (s.way way).tagMem set) = _
  rw [sramWrite, wayOf]
  cases hf : s.fillSramWrite i
  · cases hr : s.replayCacheWrite i
    · cases hl : s.lookupHitWrite i <;> simp
    · simp
  · simp only [if_true, Bool.true_and, Bool.and_true, and_eq_true, beq_iff_eq,
      eq_comm (a := (s.mshr s.busResponseMshr).way), and_comm]

/-- A way becomes usable by its fill only, and stays so until its line is written back. -/
theorem valid_of_next {set way : ℕ} (hval : ((s.step i).wayMeta set way).valid)
    (hfill : ¬ (s.fillSramWrite i && s.wayOf s.busResponseMshr set way)) :
    (s.wayMeta set way).valid := by
  have hnxt : (s.wayMetaNext i set way).valid := hval
  have hexpand : (s.wayMetaNext i set way).valid =
      if s.busResponseFire i && !i.busRespErrorI && s.wayOf s.busResponseMshr set way then
        if s.busResponseAction = .wb then false
        else if s.busResponseAction = .fill then true
        else (s.wayMeta set way).valid
      else (s.wayMeta set way).valid := by
    rw [wayMetaNext]
    cases s.busResponseAction <;> simp [apply_ite WayMeta.valid]
  rw [hexpand] at hnxt
  by_cases hans : (s.busResponseFire i && !i.busRespErrorI && s.wayOf s.busResponseMshr set way)
  · rw [if_pos hans] at hnxt
    rw [and_eq_true, and_eq_true] at hans
    cases haction : s.busResponseAction with
    | wb =>
      rw [haction, if_pos rfl] at hnxt
      cases hnxt
    | fill =>
      refine absurd ?_ hfill
      rw [fillSramWrite, haction, hans.1.1, hans.1.2, hans.2]
      rfl
    | bypass =>
      rw [haction, if_neg (by decide), if_neg (by decide)] at hnxt
      exact hnxt
  · rw [if_neg hans] at hnxt
    exact hnxt

end Memories

/-! ## The ways after an edge -/

section Step

variable (hagr : h.Agrees s)

include hagr

/-- The registers in use keep the number of fences where it is. -/
theorem Agrees.fences_stay (hk : Caches s k) : (h.next s i).fences = h.fences :=
  fences_eq hagr.shape hk.1

theorem Agrees.way_not_filled {set way : ℕ} (hold : h.Resident s set way)
    (hfill : ¬ (s.fillSramWrite i && s.wayOf s.busResponseMshr set way)) :
    (h.next s i).Resident (s.step i) set way := by
  have htag : ((s.step i).way way).tagMem set = (s.way way).tagMem set :=
    (wayNext_tagMem set way).trans (if_neg hfill)
  have hdata := (wayNext_dataMem (i := i) (s := s) set way).trans (if_neg hfill)
  have hcopy : h.wayNext s i set way = _ := if_neg hfill
  have hkeep : ∀ d : SramPayload, ((s.step i).way way).dataMem set = d →
      h.wayNext s i set way = { h.way set way with payload := d } →
        (h.next s i).Resident (s.step i) set way := by
    intro d hd hc
    refine ⟨?_, ?_, ?_⟩
    · show (h.next s i).Dated (h.next s i).advances (h.wayNext s i set way)
      rw [hc]
      exact ⟨hold.dated.step.le, hold.dated.step.fresh⟩
    · show (((s.step i).way way).tagMem set).generation =
        ofNat p.pteGenerationBits (h.wayNext s i set way).advance
      rw [hc, htag]
      exact hold.generation
    · show ((s.step i).way way).dataMem set = (h.wayNext s i set way).payload
      rw [hc, hd]
  by_cases hrep : (s.replayCacheWrite i && s.wayOf s.replayMshr set way)
  · rw [if_pos hrep] at hdata hcopy
    rw [and_eq_true] at hrep
    have hev : s.cacheWritesAt i s.replayMshr := by
      rw [cacheWritesAt, hrep.1, beq_self_eq_true]
      rfl
    obtain ⟨hk, hst⟩ := cacheWritesAt_caches hev
    have hreg := hagr.register _ hk.1 hk.2
    obtain ⟨rfl, rfl⟩ := wayOf_iff.mp hrep.2
    have hsame := hreg.same (.inr hst)
    have hpayload := hreg.payload (.inr hst)
    refine hkeep _ hdata ?_
    rw [hcopy, hsame, ← hpayload]
    rfl
  rw [if_neg hrep] at hdata hcopy
  by_cases hhit : (s.lookupHitWrite i && set == s.lookupSet && way == s.lookupHitWay)
  · rw [if_pos hhit] at hdata hcopy
    refine hkeep _ hdata ?_
    rw [and_eq_true, and_eq_true, beq_iff_eq, beq_iff_eq] at hhit
    obtain ⟨⟨hwr, rfl⟩, rfl⟩ := hhit
    rw [lookupHitWrite, and_eq_true, beq_iff_eq] at hwr
    have hval : s.lookupValidQ := dispatch_valid (dispatch_iff.mpr (by rw [hwr.1]; simp))
    have hshow := (hagr.shown hval s.lookupHitWay).data
    rw [hcopy, hitPayload, hshow, hold.payload]
    rfl
  · rw [if_neg hhit] at hdata hcopy
    refine hkeep _ hdata ?_
    rw [hcopy, hold.payload]

/-- A line that arrives is dated by the register that fetched it. -/
theorem Agrees.way_filled {set way : ℕ}
    (hfill : (s.fillSramWrite i && s.wayOf s.busResponseMshr set way)) :
    (h.next s i).Resident (s.step i) set way := by
  have htag : ((s.step i).way way).tagMem set = _ := (wayNext_tagMem set way).trans (if_pos hfill)
  have hdata : ((s.step i).way way).dataMem set = _ :=
    (wayNext_dataMem set way).trans (if_pos hfill)
  have hcopy : (h.next s i).way set way = _ := if_pos hfill
  rw [and_eq_true] at hfill
  obtain ⟨hk, hst⟩ := fillsAt_caches hagr.shape (fillSramWrite_iff.mp hfill.1)
  have hreg := hagr.register _ hk.1 hk.2
  have hresid : h.resident s.busResponseMshr = false := by
    rw [eq_false_iff]
    intro hres
    rcases (hreg.stays hres).2 with hs | ⟨hs | hs, -⟩ <;> rw [hs] at hst <;> cases hst
  obtain ⟨hadv, hgeneration⟩ := hreg.fill hresid
  refine ⟨⟨?_, ?_⟩, ?_, ?_⟩
  · rw [hcopy]
    exact hreg.advance.trans (hreg.taken.trans advances_le)
  · intro heq
    rw [hcopy] at heq ⊢
    rw [hagr.fences_stay hk]
    exact hreg.fresh (.inr (.inl hst)) hadv
  · rw [htag, hcopy]
    exact hgeneration.trans (congrArg _ hadv.symm)
  · rw [hdata, hcopy]

theorem Agrees.resident_step {set way : ℕ} (hval : ((s.step i).wayMeta set way).valid) :
    (h.next s i).Resident (s.step i) set way := by
  by_cases hfill : (s.fillSramWrite i && s.wayOf s.busResponseMshr set way)
  · exact hagr.way_filled hfill
  · exact hagr.way_not_filled (hagr.resident set way (valid_of_next hval hfill)) hfill

end Step

/-! ## A register that stays in use -/

section Kept

variable (hagr : h.Agrees s) (hk : Caches s k)

include hk

theorem not_allocates : ¬ s.allocates i k := fun halloc => by
  have hfree := (allocates_free halloc).2
  rw [hk.1] at hfree
  cases hfree

theorem taken_kept : (h.next s i).taken k = h.taken k := if_neg (not_allocates hk)

theorem post_kept : ((s.step i).mshr k).postProbeState = (s.mshr k).postProbeState :=
  (mshrNext_keeps hk.1).post

theorem resident_kept : (h.next s i).resident k = h.resident k := if_neg (not_allocates hk)

theorem evicted_kept : (h.next s i).evicted k = h.evicted k := if_neg (not_allocates hk)

theorem writtenBack_kept : (h.next s i).writtenBack k = (s.writesBackAt i k || h.writtenBack k) :=
  if_neg (not_allocates hk)

theorem held_kept : (h.next s i).held k =
    if s.fetchesAt i k then { h.held k with fetched := h.fences }
    else if s.fillsAt i k then { h.held k with payload := ⟨i.busRespRdataI, .none⟩ }
    else if s.cacheWritesAt i k then
      { h.held k with payload := (h.held k).payload.written s.replayBeat }
    else h.held k :=
  if_neg (not_allocates hk)

theorem held_advance : ((h.next s i).held k).advance = (h.held k).advance := by
  rw [held_kept hk]
  split_ifs <;> rfl

omit hk in
/-- Only a register that waits for it fetches. -/
theorem not_fetchesAt (hst : (s.mshr k).state ≠ .needFill) : ¬ s.fetchesAt i k :=
  fun hev => hst (fetchesAt_state hev).2

include hagr

theorem resident_not_fill (hres : h.resident k) : (s.mshr k).state ≠ .needFill ∧
    (s.mshr k).state ≠ .fillInflight := by
  rcases ((hagr.register k hk.1 hk.2).stays hres).2 with hs | ⟨hs | hs, -⟩ <;> rw [hs] <;>
    exact ⟨by decide, by decide⟩

/-- The first beat of a register stays: the others join behind it. -/
theorem first_waiter : (s.step i).waiter k 0 = s.waiter k 0 := by
  apply if_neg
  rw [or_eq_true, and_eq_true, and_eq_true, beq_iff_eq]
  rintro (⟨-, hz⟩ | ⟨halloc, -⟩)
  · have hcnt := ((hagr.shape.mshr k).count hk.1).1
    omega
  · exact not_allocates hk halloc

variable (hval' : ((s.step i).mshr k).valid)

include hval'

section

variable (hheld : h.resident k ∨ ((s.step i).mshr k).state = .replay)

include hheld

/-- The line that a register holds is there from its fill on, or was taken over. -/
theorem holds_of_next :
    s.fillsAt i k ∨ (¬ s.fillsAt i k ∧ (h.resident k ∨ (s.mshr k).state = .replay)) := by
  by_cases hfill : s.fillsAt i k
  · exact .inl hfill
  refine .inr ⟨hfill, hheld.elim .inl fun hstate' => ?_⟩
  have hmove := mshrNext_moves (i := i) hagr.shape hk.1 hval'
  rw [mshr_next] at hstate'
  generalize hs : (s.mshr k).state = a at hmove ⊢
  generalize (s.mshrNext i k).state = b at hmove hstate'
  cases hmove with
  | stay _ _ _ => exact .inr hstate'
  | probe => cases hstate'
  | probed =>
    refine .inl ?_
    by_contra hres
    rw [Bool.not_eq_true] at hres
    exact (hagr.register k hk.1 hk.2).waits hres (.inr hs) hstate'
  | request a _ _ => cases a <;> cases hstate'
  | answer a hans haction hok =>
    cases a with
    | wb => cases hstate'
    | fill =>
      refine absurd ?_ hfill
      rw [fillsAt, hans, haction, hok]
      rfl
    | bypass => exact absurd hs ((hagr.shape.mshr k).fill hk.1 hk.2).2
  | error _ _ _ _ => cases hstate'

theorem Agrees.register_payload : ((s.step i).mshr k).payload = ((h.next s i).held k).payload := by
  have hpayload : ((s.step i).mshr k).payload = _ := mshrNext_payload hk.1
  rw [hpayload, held_kept hk]
  rcases holds_of_next hagr hk hval' hheld with hfill | ⟨hfill, hold⟩
  · have hst := (fillsAt_caches hagr.shape hfill).2
    have hwr : ¬ s.cacheWritesAt i k := fun hev => by
      rw [(cacheWritesAt_caches hev).2] at hst
      cases hst
    rw [if_neg (not_fetchesAt (by rw [hst]; decide)), if_pos hfill]
    exact (if_neg hwr).trans (if_pos hfill)
  have hreg := hagr.register k hk.1 hk.2
  have hneed : (s.mshr k).state ≠ .needFill := hold.elim
    (fun hres => (resident_not_fill hagr hk hres).1) fun hs => by rw [hs]; decide
  rw [if_neg (not_fetchesAt hneed), if_neg hfill]
  by_cases hev : s.cacheWritesAt i k
  · rw [if_pos hev]
    refine (if_pos hev).trans ?_
    obtain ⟨-, rfl⟩ := cacheWritesAt_eq hev
    rw [← hreg.payload hold]
    rfl
  · rw [if_neg hev]
    refine (if_neg hev).trans ((if_neg hfill).trans ?_)
    exact hreg.payload hold

theorem Agrees.register_same :
    (h.next s i).way ((s.step i).mshr k).set ((s.step i).mshr k).way = (h.next s i).held k := by
  obtain ⟨hset, hway⟩ := (mshrNext_keeps (i := i) hk.1).place
  have hplc : (h.next s i).way ((s.step i).mshr k).set ((s.step i).mshr k).way =
      h.wayNext s i (s.mshr k).set (s.mshr k).way :=
    congrArg₂ (h.wayNext s i) hset hway
  rw [hplc, hagr.way_of_owner hk, held_kept hk]
  rcases holds_of_next hagr hk hval' hheld with hfill | ⟨hfill, hold⟩
  · have hst := (fillsAt_caches hagr.shape hfill).2
    rw [if_neg (not_fetchesAt (by rw [hst]; decide)), if_pos hfill, if_pos hfill]
  have hneed : (s.mshr k).state ≠ .needFill := hold.elim
    (fun hres => (resident_not_fill hagr hk hres).1) fun hs => by rw [hs]; decide
  rw [if_neg (not_fetchesAt hneed), if_neg hfill, if_neg hfill]
  split_ifs
  · rfl
  · exact (hagr.register k hk.1 hk.2).same hold

end

theorem Agrees.register_fresh (hheld : h.resident k ∨
      ((s.step i).mshr k).state = .fillInflight ∨ ((s.step i).mshr k).state = .replay)
    (hadv : (h.held k).advance = h.taken k) : h.fences ≤ ((h.next s i).held k).fetched := by
  have hreg := hagr.register k hk.1 hk.2
  rw [held_kept hk]
  by_cases hfetch : s.fetchesAt i k
  · rw [if_pos hfetch]
  rw [if_neg hfetch]
  have hold : h.resident k ∨ (s.mshr k).state = .fillInflight ∨ (s.mshr k).state = .replay := by
    rcases hheld with hres | hstate' | hstate'
    · exact .inl hres
    · rcases inflight_of_next (a := .fill) hagr.shape hval' hstate' with
        ⟨hreq, haction⟩ | ⟨-, hs, -⟩
      · refine absurd ?_ hfetch
        rw [fetchesAt, hreq, haction]
        rfl
      · exact .inr (.inl hs)
    · rcases holds_of_next hagr hk hval' (.inr hstate') with hfill | ⟨-, hres | hs⟩
      · exact .inr (.inl (fillsAt_caches hagr.shape hfill).2)
      · exact .inl hres
      · exact .inr (.inr hs)
  have hfresh := hreg.fresh hold hadv
  split_ifs
  · exact hfresh
  · exact hfresh
  · exact hfresh

theorem Agrees.register_stays (hres : h.resident k) : ((s.step i).mshr k).state = .replay ∨
      ((((s.step i).mshr k).state = .needProbe ∨ ((s.step i).mshr k).state = .probeInflight) ∧
        ((s.step i).mshr k).postProbeState = .replay) := by
  have hold := ((hagr.register k hk.1 hk.2).stays hres).2
  have hmove := mshrNext_moves (i := i) hagr.shape hk.1 hval'
  rw [post_kept hk, mshr_next]
  generalize (s.mshr k).state = a at hmove hold
  generalize (s.mshrNext i k).state = b at hmove ⊢
  cases hmove with
  | stay _ _ _ => exact hold
  | probe => exact .inr ⟨.inr rfl, (hold.resolve_left (by decide)).2⟩
  | probed => exact .inl (hold.resolve_left (by decide)).2
  | request a _ _ => rcases hold with hs | ⟨hs | hs, -⟩ <;> cases a <;> cases hs
  | answer a _ _ _ => rcases hold with hs | ⟨hs | hs, -⟩ <;> cases a <;> cases hs
  | error a _ _ _ => rcases hold with hs | ⟨hs | hs, -⟩ <;> cases a <;> cases hs

theorem Agrees.register_waits (hres : h.resident k = false)
    (hprobe : ((s.step i).mshr k).state = .needProbe ∨ ((s.step i).mshr k).state = .probeInflight) :
    ((s.step i).mshr k).postProbeState ≠ .replay := by
  rw [post_kept hk]
  have hwaits := (hagr.register k hk.1 hk.2).waits hres
  have hmove := mshrNext_moves (i := i) hagr.shape hk.1 hval'
  rw [mshr_next] at hprobe
  have hok := hagr.shape.mshr k
  generalize hs : (s.mshr k).state = a at hmove hwaits
  generalize (s.mshrNext i k).state = b at hmove hprobe
  cases hmove with
  | stay _ _ _ => exact hwaits hprobe
  | probe => exact hwaits (.inl rfl)
  | probed => exact hwaits (.inr rfl)
  | request a _ _ => rcases hprobe with hs | hs <;> cases a <;> cases hs
  | answer a _ _ _ => rcases hprobe with hs | hs <;> cases a <;> cases hs
  | error a _ _ _ => rcases hprobe with hs | hs <;> cases hs

theorem Agrees.register_returned (hevicted : h.evicted k ≠ none) :
    (h.next s i).writtenBack k ∨ ((s.step i).mshr k).state = .needWb ∨
      ((s.step i).mshr k).state = .wbInflight ∨ ((s.step i).mshr k).state = .error ∨
      ((((s.step i).mshr k).state = .needProbe ∨ ((s.step i).mshr k).state = .probeInflight) ∧
        ((s.step i).mshr k).postProbeState = .needWb) := by
  rw [post_kept hk, mshr_next, writtenBack_kept hk, or_eq_true]
  have hmove := mshrNext_moves (i := i) hagr.shape hk.1 hval'
  rcases (hagr.register k hk.1 hk.2).returned hevicted with hdone | hold
  · exact .inl (.inr hdone)
  generalize (s.mshr k).state = a at hmove hold
  generalize (s.mshrNext i k).state = b at hmove ⊢
  cases hmove with
  | stay _ _ _ => exact .inr hold
  | probe =>
    rcases hold with hs | hs | hs | ⟨-, hp⟩
    · cases hs
    · cases hs
    · cases hs
    · exact .inr (.inr (.inr (.inr ⟨.inr rfl, hp⟩)))
  | probed =>
    rcases hold with hs | hs | hs | ⟨-, hp⟩
    · cases hs
    · cases hs
    · cases hs
    · exact .inr (.inl hp)
  | request a _ _ =>
    rcases hold with hs | hs | hs | ⟨hs | hs, -⟩ <;> cases a <;> cases hs
    exact .inr (.inr (.inl rfl))
  | answer a hans haction hok =>
    rcases hold with hs | hs | hs | ⟨hs | hs, -⟩ <;> cases a <;> cases hs
    refine .inl (.inl ?_)
    rw [writesBackAt, hans, haction, hok]
    rfl
  | error a _ _ _ => exact .inr (.inr (.inr (.inl rfl)))

theorem Agrees.register_kept : (h.next s i).Register (s.step i) k := by
  have hreg := hagr.register k hk.1 hk.2
  have hkeeps : (s.mshr k).Keeps ((s.step i).mshr k) := mshrNext_keeps hk.1
  have hfences := hagr.fences_stay (i := i) hk
  refine ⟨?_, ?_, ?_, ?_, ?_, ?_, ?_, ?_, ?_, ?_, ?_⟩
  · rw [taken_kept hk]
    exact hreg.taken.trans advances_le
  · rw [taken_kept hk, held_advance hk]
    exact hreg.advance
  · rw [resident_kept hk, taken_kept hk, held_advance hk, hkeeps.tag.2]
    exact hreg.fill
  · rw [resident_kept hk, evicted_kept hk]
    exact fun hres => ⟨(hreg.stays hres).1, hagr.register_stays hk hval' hres⟩
  · rw [resident_kept hk]
    exact hagr.register_waits hk hval'
  · rw [resident_kept hk, taken_kept hk, held_advance hk, hfences]
    exact hagr.register_fresh hk hval'
  · rw [resident_kept hk]
    exact hagr.register_payload hk hval'
  · rw [resident_kept hk]
    exact hagr.register_same hk hval'
  · rw [resident_kept hk, first_waiter hagr hk, held_advance hk, taken_kept hk]
    exact hreg.first
  · rw [evicted_kept hk, hkeeps.victim.1, hkeeps.victim.2.1, hkeeps.victim.2.2]
    exact hreg.victim
  · rw [evicted_kept hk]
    exact hagr.register_returned hk hval'

end Kept

/-! ## A register that has just been taken -/

section Taken

variable (hagr : h.Agrees s)

theorem allocates_not_hit (halloc : s.allocates i k) :
    s.lookupHitWrite i = false ∧ s.fenceFire i = false := by
  obtain ⟨hlook, -⟩ := allocates_iff.mp halloc
  have hno : s.lookupAction i ≠ .hit ∧ s.lookupAction i ≠ .immediate := by
    constructor <;> intro haction <;> rw [lookupAllocates, haction] at hlook <;>
      cases hlook
  have hhit : (s.lookupAction i == .hit) = false := beq_eq_false_iff_ne.mpr hno.1
  have himm : (s.lookupAction i == .immediate) = false := beq_eq_false_iff_ne.mpr hno.2
  rw [lookupHitWrite, fenceFire, pteGenerationAdvance, hhit, himm]
  exact ⟨rfl, rfl⟩

theorem allocated_next (hok : s.MshrsOk) (halloc : s.allocates i k) :
    (s.step i).mshr k = s.allocated i (s.mshr k) :=
  (mshrNext_free hok (allocates_free halloc).2).trans (if_pos halloc)

/-- A register that has just been taken for the cache hit, or fills a way. -/
theorem allocated_base (hok : s.MshrsOk) (halloc : s.allocates i k) (hk : Caches (s.step i) k) :
    (s.lookupBaseAction i = .hit ∧ s.lookupAction i = .cohProbe) ∨
      s.lookupBaseAction i = .alloc := by
  obtain ⟨hlook, -⟩ := allocates_iff.mp halloc
  obtain ⟨-, hbase, hprobe⟩ := allocates_base hlook
  have hbyp := hk.2
  rw [allocated_next hok halloc] at hbyp
  have hiff := allocated_bypass_iff hlook (s.mshr k)
  rcases hbase with hb | hb | hb | hb
  · exact .inl ⟨hb, hprobe hb⟩
  · exact .inr hb
  all_goals
    rw [hb] at hiff
    rw [hiff.mpr (by simp)] at hbyp
    cases hbyp

include hagr

/-- The copy in a way that nobody owns does not change beside a new miss. -/
theorem Agrees.way_of_unreserved {set way : ℕ} (hhit : s.lookupHitWrite i = false)
    (hfree : (s.wayMeta set way).reserved = false) : h.wayNext s i set way = h.way set way := by
  have hfill : ¬ (s.fillSramWrite i && s.wayOf s.busResponseMshr set way) := by
    rw [and_eq_true]
    rintro ⟨hwr, hway⟩
    exact hagr.unowned (fillsAt_caches hagr.shape (fillSramWrite_iff.mp hwr)).1 hfree
      (wayOf_iff.mp hway)
  have hrep : ¬ (s.replayCacheWrite i && s.wayOf s.replayMshr set way) := by
    rw [and_eq_true]
    rintro ⟨hwr, hway⟩
    have hev : s.cacheWritesAt i s.replayMshr := by
      rw [cacheWritesAt, hwr, beq_self_eq_true]
      rfl
    exact hagr.unowned (cacheWritesAt_caches hev).1 hfree (wayOf_iff.mp hway)
  rw [wayNext, if_neg hfill, if_neg hrep, hhit]
  rfl

/-- What a way shows of its line in the lookup stage. -/
theorem Agrees.shows {way : ℕ} (hval : s.lookupValidQ) (hway : (s.wayMeta s.lookupSet way).valid) :
    (s.way way).readDataO = (h.way s.lookupSet way).payload ∧ (s.way way).readTagO.generation =
        ofNat p.pteGenerationBits (h.way s.lookupSet way).advance := by
  have hshow := hagr.shown hval way
  have hresid := hagr.resident _ _ hway
  rw [hshow.data, hshow.tag]
  exact ⟨hresid.payload, hresid.generation⟩

variable (halloc : s.allocates i k)

include halloc

theorem Agrees.register_hit (hbase : s.lookupBaseAction i = .hit)
    (hprobe : s.lookupAction i = .cohProbe) : (h.next s i).Register (s.step i) k := by
  obtain ⟨hlook, -⟩ := allocates_iff.mp halloc
  have hval := dispatch_valid (allocates_dispatch hlook)
  obtain ⟨hhit, hfen⟩ := allocates_not_hit halloc
  obtain ⟨hmat, hstale⟩ := hitWay_spec (base_hit hbase).2.1
  obtain ⟨hway, hfree⟩ := matches_unreserved hmat
  obtain ⟨hdata, hgeneration⟩ := hagr.shows hval hway
  have hdated := (hagr.resident _ _ hway).dated
  obtain ⟨hset, hplc, hpayload⟩ := allocated_hit (i := i) (s.mshr k) hbase
  have hm := allocated_next hagr.shape halloc
  have hbaseHit : (s.lookupBaseAction i == .hit) := beq_iff_eq.mpr hbase
  have hheld : (h.next s i).held k = h.way s.lookupSet s.lookupHitWay :=
    (if_pos halloc).trans (if_pos hbaseHit)
  have htaken : (h.next s i).taken k = h.advances := if_pos halloc
  have hresid : (h.next s i).resident k := (if_pos halloc).trans hbaseHit
  have hevicted : (h.next s i).evicted k = none := by
    refine (if_pos halloc).trans (if_neg ?_)
    rw [hbase]
    exact false_ne_true
  have hfences : (h.next s i).fences = h.fences := by
    refine if_neg ?_
    rw [hfen]
    exact false_ne_true
  have hst : ((s.step i).mshr k).state = .needProbe := by
    rw [hm, allocated_state, hprobe]
    rfl
  have hpost : ((s.step i).mshr k).postProbeState = .replay := by
    rw [hm, allocated_postProbeState, hprobe, allocState, hbase]
    rfl
  refine ⟨?_, ?_, ?_, ?_, ?_, ?_, ?_, ?_, ?_, ?_, ?_⟩
  · rw [htaken]
    exact advances_le
  · rw [htaken, hheld]
    exact hdated.le
  · rw [hresid]
    exact fun h => by cases h
  · exact fun _ => ⟨hevicted, .inr ⟨.inl hst, hpost⟩⟩
  · rw [hresid]
    exact fun h => by cases h
  · rw [htaken, hheld, hfences]
    exact fun _ => hdated.fresh
  · rw [hm, hpayload, hheld]
    exact fun _ => hdata
  · rw [hm, hset, hplc, hheld]
    exact fun _ => hagr.way_of_unreserved hhit hfree
  · intro _ hkind
    have hwaiter : (s.step i).waiter k 0 = s.lookup := by
      apply if_pos
      rw [halloc]
      simp
    rw [hwaiter] at hkind
    have hpte : s.lookupIsPte := beq_iff_eq.mpr hkind
    rw [wayStale, hpte, Bool.true_and, bne_eq_false_iff_eq] at hstale
    rw [hheld, htaken, ← hgeneration, ← hagr.generation]
    exact hstale
  · rw [hevicted]
    exact fun _ _ hno => by cases hno
  · rw [hevicted]
    exact fun hno => absurd rfl hno

theorem Agrees.register_alloc (hbase : s.lookupBaseAction i = .alloc) :
    (h.next s i).Register (s.step i) k := by
  obtain ⟨hlook, -⟩ := allocates_iff.mp halloc
  have hval := dispatch_valid (allocates_dispatch hlook)
  obtain ⟨-, -, hgeneration, haddr, hdata, hstrb⟩ := allocated_alloc (i := i) (s.mshr k) hbase
  have hm := allocated_next hagr.shape halloc
  have hnotHit : (s.lookupBaseAction i == .hit) = false := by
    rw [hbase]
    rfl
  have hheld : (h.next s i).held k = { h.held k with advance := h.advances } := by
    refine (if_pos halloc).trans (if_neg ?_)
    rw [hnotHit]
    exact false_ne_true
  have htaken : (h.next s i).taken k = h.advances := if_pos halloc
  have hresid : (h.next s i).resident k = false := (if_pos halloc).trans hnotHit
  have hno : ∀ {P : Prop}, (h.next s i).resident k → P := fun hres => by
    rw [hresid] at hres
    cases hres
  have hallocState : s.allocState i = if s.victimDirty then .needWb else .needFill := by
    rw [allocState, hbase]
    rfl
  have hst : ((s.step i).mshr k).state =
      if s.lookupAction i == .cohProbe then .needProbe else s.allocState i := by
    rw [hm, allocated_state]
  have hearly : ((s.step i).mshr k).state ≠ .replay ∧
      ((s.step i).mshr k).state ≠ .fillInflight := by
    rw [hst, hallocState]
    split_ifs <;> exact ⟨by decide, by decide⟩
  have hevicted : (h.next s i).evicted k = if s.victimDirty then
      some (p.lineOf s.victimTag s.lookupSet, (h.way s.lookupSet s.victimWay).payload)
      else none := by
    refine (if_pos halloc).trans ?_
    rw [hbase]
    rfl
  refine ⟨?_, ?_, ?_, hno, ?_, ?_, ?_, ?_, hno, ?_, ?_⟩
  · rw [htaken]
    exact advances_le
  · rw [htaken, hheld]
  · rw [htaken, hheld, hm, hgeneration]
    exact fun _ => ⟨rfl, hagr.generation⟩
  · intro _ hprobe
    have hcoh : (s.lookupAction i == .cohProbe) := by
      by_contra hcoh
      rw [hst, if_neg hcoh, hallocState] at hprobe
      split_ifs at hprobe <;> rcases hprobe with hp | hp <;> cases hp
    rw [hm, allocated_postProbeState, if_pos hcoh, hallocState]
    split_ifs <;> decide
  · rintro (hres | hs | hs)
    · exact hno hres
    · exact absurd hs hearly.2
    · exact absurd hs hearly.1
  · exact fun hheld => hheld.elim hno fun hs => absurd hs hearly.1
  · exact fun hheld => hheld.elim hno fun hs => absurd hs hearly.1
  · intro a d hsome
    rw [hevicted] at hsome
    split_ifs at hsome with hdirty
    rw [victimDirty, and_eq_true] at hdirty
    obtain ⟨hshow, -⟩ := hagr.shows hval hdirty.1
    obtain ⟨rfl, rfl⟩ := Prod.mk.inj (Option.some.inj hsome)
    rw [hm, haddr, hdata, hstrb, ← hshow]
    exact ⟨rfl, rfl, rfl⟩
  · intro hsome
    rw [hevicted] at hsome
    have hdirty : s.victimDirty := by
      by_contra hclean
      rw [if_neg hclean] at hsome
      exact hsome rfl
    have hneed : s.allocState i = .needWb := hallocState.trans (if_pos hdirty)
    rw [hst, hneed, hm, allocated_postProbeState, hneed]
    split_ifs
    · exact .inr (.inr (.inr (.inr ⟨.inl rfl, rfl⟩)))
    · exact .inr (.inl rfl)

end Taken

/-! ## The invariant over a run -/

section Run

variable (hagr : h.Agrees s)

/-- A register of the cache has just been taken, or stays in use. -/
theorem caches_of_next (hok : s.MshrsOk) (hk : Caches (s.step i) k) :
    (s.allocates i k ∧ ((s.lookupBaseAction i = .hit ∧ s.lookupAction i = .cohProbe) ∨
      s.lookupBaseAction i = .alloc)) ∨ (Caches s k ∧ ¬ s.FreedAt i k) := by
  rcases (next_valid hok).mp hk.1 with halloc | ⟨hval, hfreed⟩
  · exact .inl ⟨halloc, allocated_base hok halloc hk⟩
  · refine .inr ⟨⟨hval, ?_⟩, hfreed⟩
    have hkeeps : (s.mshr k).Keeps ((s.step i).mshr k) := mshrNext_keeps hval
    exact hkeeps.bypass.symm.trans hk.2

theorem place_taken (hok : s.MshrsOk) (halloc : s.allocates i k)
    (hbase : (s.lookupBaseAction i = .hit ∧ s.lookupAction i = .cohProbe) ∨
      s.lookupBaseAction i = .alloc) :
    (s.wayMeta ((s.step i).mshr k).set ((s.step i).mshr k).way).reserved = false ∧
      s.reserves i ((s.step i).mshr k).set ((s.step i).mshr k).way := by
  obtain ⟨hlook, -⟩ := allocates_iff.mp halloc
  rw [allocated_next hok halloc]
  rcases hbase with ⟨hb, -⟩ | hb
  · obtain ⟨hset, hway, -⟩ := allocated_hit (i := i) (s.mshr k) hb
    rw [hset, hway, reserves, hlook, hb]
    exact ⟨(matches_unreserved (hitWay_spec (base_hit hb).2.1).1).2, by simp⟩
  · obtain ⟨hset, hway, -⟩ := allocated_alloc (i := i) (s.mshr k) hb
    rw [hset, hway, reserves, hlook, hb]
    exact ⟨victim_unreserved (base_alloc hb).2.2.2.2, by simp⟩

theorem reserved_next (set way : ℕ) : ((s.step i).wayMeta set way).reserved =
    if s.replayEnqueue i && s.replayFinal && !(s.mshr s.replayMshr).bypass &&
        s.wayOf s.replayMshr set way then false
    else s.reserves i set way || (s.wayMeta set way).reserved := by
  show (s.wayMetaNext i set way).reserved = _
  rw [wayMetaNext]
  cases s.busResponseAction <;> cases s.reserves i set way <;>
    simp only [apply_ite WayMeta.reserved, ite_self, if_true, if_low, Bool.true_or, Bool.false_or]

include hagr

theorem Agrees.register_step (hk : Caches (s.step i) k) : (h.next s i).Register (s.step i) k := by
  rcases caches_of_next hagr.shape hk with ⟨halloc, ⟨hb, hp⟩ | hb⟩ | ⟨hold, -⟩
  · exact hagr.register_hit halloc hb hp
  · exact hagr.register_alloc halloc hb
  · exact hagr.register_kept hold hk.1

theorem Agrees.reserved_step (hk : Caches (s.step i) k) :
    ((s.step i).wayMeta ((s.step i).mshr k).set ((s.step i).mshr k).way).reserved := by
  rw [reserved_next]
  have hkept : s.reserves i ((s.step i).mshr k).set ((s.step i).mshr k).way ∨
      (s.wayMeta ((s.step i).mshr k).set ((s.step i).mshr k).way).reserved := by
    rcases caches_of_next hagr.shape hk with ⟨halloc, hbase⟩ | ⟨hold, -⟩
    · exact .inl (place_taken hagr.shape halloc hbase).2
    · have hkeeps : (s.mshr k).Keeps ((s.step i).mshr k) := mshrNext_keeps hold.1
      rw [hkeeps.place.1, hkeeps.place.2]
      exact .inr (hagr.reserved k hold.1 hold.2)
  rw [if_neg, or_eq_true]
  · exact hkept
  -- the way that is given back belongs to the register that is freed
  rw [and_eq_true, and_eq_true, and_eq_true, not_eq_true']
  rintro ⟨⟨⟨hrep, hfinal⟩, hbyp⟩, hway⟩
  have hreplayed : Caches s s.replayMshr := ⟨(replay_wants hrep).2.1, hbyp⟩
  rcases caches_of_next hagr.shape hk with ⟨halloc, hbase⟩ | ⟨hold, hfreed⟩
  · exact hagr.unowned hreplayed (place_taken hagr.shape halloc hbase).1 (wayOf_iff.mp hway)
  have hkeeps : (s.mshr k).Keeps ((s.step i).mshr k) := mshrNext_keeps hold.1
  rw [hkeeps.place.1, hkeeps.place.2] at hway
  have heq := hagr.owner hold hreplayed hway
  refine hfreed ⟨?_, hfinal⟩
  rw [replaysAt, hrep, heq, beq_self_eq_true]
  rfl

theorem Agrees.apart_step {j : ℕ} (hk : Caches (s.step i) k) (hj : Caches (s.step i) j)
    (hset : ((s.step i).mshr k).set = ((s.step i).mshr j).set)
    (hway : ((s.step i).mshr k).way = ((s.step i).mshr j).way) : k = j := by
  rcases caches_of_next hagr.shape hk with ⟨halloc, hbase⟩ | ⟨hold, -⟩
  · rcases caches_of_next hagr.shape hj with ⟨halloc', -⟩ | ⟨hold', -⟩
    · exact (allocates_iff.mp halloc).2.trans (allocates_iff.mp halloc').2.symm
    · have hfree := (place_taken hagr.shape halloc hbase).1
      have hkeeps : (s.mshr j).Keeps ((s.step i).mshr j) := mshrNext_keeps hold'.1
      rw [hset, hway, hkeeps.place.1, hkeeps.place.2] at hfree
      exact absurd ⟨rfl, rfl⟩ (hagr.unowned hold' hfree)
  have hkeeps : (s.mshr k).Keeps ((s.step i).mshr k) := mshrNext_keeps hold.1
  rcases caches_of_next hagr.shape hj with ⟨halloc', hbase'⟩ | ⟨hold', -⟩
  · have hfree := (place_taken hagr.shape halloc' hbase').1
    rw [← hset, ← hway, hkeeps.place.1, hkeeps.place.2] at hfree
    exact absurd ⟨rfl, rfl⟩ (hagr.unowned hold hfree)
  · have hkeeps' : (s.mshr j).Keeps ((s.step i).mshr j) := mshrNext_keeps hold'.1
    rw [hkeeps.place.1, hkeeps'.place.1] at hset
    rw [hkeeps.place.2, hkeeps'.place.2] at hway
    exact hagr.apart k j hold.1 hold'.1 hold.2 hold'.2 hset hway

theorem Agrees.step : (h.next s i).Agrees (s.step i) where
  shape := MshrsOk.step hagr.shape
  shown := Shown.step s i
  generation := by
    show (if s.pteGenerationAdvance i then s.pteGenerationQ + 1 else s.pteGenerationQ) =
      ofNat p.pteGenerationBits (if s.pteGenerationAdvance i then h.advances + 1
        else h.advances)
    rw [hagr.generation]
    split_ifs
    · rw [BitVec.ofNat_add]
      rfl
    · rfl
  accepted n := by
    show (if s.commandPush i && n == s.acceptedQ then h.fences else h.acceptFences n) ≤ _
    split_ifs
    · exact fences_le
    · exact (hagr.accepted n).trans fences_le
  resident _ _ hval := hagr.resident_step hval
  register _ hval hbyp := hagr.register_step ⟨hval, hbyp⟩
  reserved _ hval hbyp := hagr.reserved_step ⟨hval, hbyp⟩
  apart _ _ hval hval' hbyp hbyp' := hagr.apart_step ⟨hval, hbyp⟩ ⟨hval', hbyp'⟩

omit hagr in
theorem Agrees.of_reset (hreset : s.Reset) : empty.Agrees s where
  shape := MshrsOk.of_reset hreset
  shown hval := by
    rw [hreset.lookup] at hval
    cases hval
  generation := hreset.generation
  accepted _ := le_rfl
  resident set way hval := by
    rw [hreset.ways] at hval
    cases hval
  register k hval := by
    rw [(hreset.mshr k).valid] at hval
    cases hval
  reserved k hval := by
    rw [(hreset.mshr k).valid] at hval
    cases hval
  apart k _ hval := by
    rw [(hreset.mshr k).valid] at hval
    cases hval

end Run

end PteHistory

end OpenRV64
